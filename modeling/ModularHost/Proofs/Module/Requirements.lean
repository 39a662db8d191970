import Mathlib.Data.List.Forall2
import ModularHost.Proofs.Module.Advance
import ModularHost.Proofs.Module.SharedTypes
/-!
# What modules require and what meets it

A context made for one load exports nothing before its module's requirements are settled, so each of
them is settled by the host (`Draft.Met`, `LoadedModule.MetBy`), and what the module registers under
a contract it requires it owes to the host (`Binding.OwedTo`). That holds of each piece of the work
of a load, wherever it is left to wait (`reached_advance`).
-/


namespace ModularHost

variable {β : Type}

/-! ## Requirements and what meets them -/

/-- A descriptor is what the host has under the name of a type, and is of that type. -/
structure HostScope.Meets (host : HostScope) (wanted : NamedType) (shared : SharedType) : Prop where
  lookup : host.lookup wanted.name = some shared
  describes : shared.describes wanted.type = true

/-- The host's descriptors are its own, and are told apart by their numbers. -/
def HostScope.Numbered (host : HostScope) : Prop :=
  ∀ (position : Nat) (shared : SharedType), host.types[position]? = some shared →
    shared.origin = .host ∧ shared.serial = position

/-- The types of one host are all there, as they were, in another. -/
def HostScope.Grows (host host' : HostScope) : Prop :=
  ∀ name shared, host.lookup name = some shared → host'.lookup name = some shared

namespace HostScope

variable {host host' : HostScope} {name : String} {type : TypeRef} {shared : SharedType}
  {wanted : NamedType}

theorem Grows.refl (host : HostScope) : host.Grows host := fun _ _ h => h

theorem Meets.mono (h : host.Meets wanted shared) (hgrows : host.Grows host') :
    host'.Meets wanted shared :=
  ⟨hgrows _ _ h.lookup, h.describes⟩

/-- **A name that is taken is answered with its descriptor, or refused to another type.** -/
theorem provide_of_lookup (h : host.lookup name = some shared) (type : TypeRef) :
    host.provide name type =
      if shared.describes type then .ok (shared, host) else .error ⟨name, shared.type, type⟩ := by
  simp [provide, h]

/-- A name that is free is taken. -/
theorem provide_of_free (h : host.lookup name = none) (type : TypeRef) :
    ∃ shared host', host.provide name type = .ok (shared, host') ∧ shared.name = name ∧
      shared.type = type ∧ host'.lookup name = some shared := by
  have hfind : host.types.find? (·.name == name) = none := h
  obtain ⟨new, hnew⟩ : ∃ new : SharedType, new = ⟨name, type, .host, host.types.length⟩ := ⟨_, rfl⟩
  refine ⟨new, ⟨host.types ++ [new]⟩, ?_, by rw [hnew], by rw [hnew], ?_⟩
  · simp only [provide, h, hnew]
  · rw [lookup, List.find?_append, hfind, hnew]
    simp

theorem numbered_provide (h : host.Numbered)
    (hprovide : host.provide name type = .ok (shared, host')) : host'.Numbered := by
  unfold provide at hprovide
  split at hprovide
  · split at hprovide
    · cases hprovide
      exact h
    · cases hprovide
  · cases hprovide
    intro position s hs
    rw [List.getElem?_append] at hs
    split at hs
    · exact h position s hs
    · rename_i hlast
      obtain ⟨hlt, hget⟩ := List.getElem?_eq_some_iff.1 hs
      have hposition : position = host.types.length := by
        rw [List.length_singleton] at hlt
        omega
      subst hposition
      simp only [Nat.sub_self, List.getElem_cons_zero] at hget
      rw [← hget]
      exact ⟨rfl, rfl⟩

theorem origin_of_lookup (h : host.Numbered) (hs : host.lookup name = some shared) :
    shared.origin = .host := by
  obtain ⟨position, hposition⟩ := List.mem_iff_getElem?.1 (List.mem_of_find?_eq_some hs)
  exact (h position shared hposition).1

/-- **Descriptors of one number are one descriptor.** -/
theorem eq_of_serial_eq (h : host.Numbered) {name' : String} {shared' : SharedType}
    (hs : host.lookup name = some shared) (hs' : host.lookup name' = some shared')
    (heq : shared.serial = shared'.serial) : shared = shared' := by
  obtain ⟨position, hposition⟩ := List.mem_iff_getElem?.1 (List.mem_of_find?_eq_some hs)
  obtain ⟨position', hposition'⟩ := List.mem_iff_getElem?.1 (List.mem_of_find?_eq_some hs')
  have hserial := (h position shared hposition).2
  have hserial' := (h position' shared' hposition').2
  obtain rfl : position = position' := hserial.symm.trans (heq.trans hserial')
  exact Option.some.inj (hposition.symm.trans hposition')

end HostScope

/-- A module registers what was declared, and each type it requires was met by the host. -/
structure LoadedModule.MetBy (m : LoadedModule β) (host : HostScope) (d : Declaration β) :
    Prop where
  registration : m.registration = d.registration
  dependencies : ∃ wanted : List NamedType, d.requirements.map (·.answer) = wanted.map .ok ∧
    List.Forall₂ host.Meets wanted m.dependencies

/-- The requirements before those that are left were met by the host, and the context exports
nothing as long as some are left. -/
structure Draft.Met (draft : Draft β) (host : HostScope) (d : Declaration β)
    (left : List Describer) : Prop where
  declaration : draft.declaration = d
  met : ∃ done : List NamedType,
    d.requirements.map (·.answer) = done.map .ok ++ left.map (·.answer) ∧
    List.Forall₂ host.Meets done draft.dependencies
  bare : left = [] ∨ draft.context.exports = []

/-- The host met what was required so far. A refusal is none of a registration. -/
def Admission.Met (host : HostScope) (d : Declaration β) : Admission β → Prop
  | .admitted _ m => m.MetBy host d
  | .refused cause => cause.ofRegistration = false
  | .crashed _ => True
  | .waiting draft left _ => draft.Met host d left

namespace LoadedModule

variable {m : LoadedModule β} {host host' : HostScope} {d : Declaration β}

theorem MetBy.mono (h : m.MetBy host d) (hgrows : host.Grows host') : m.MetBy host' d := by
  obtain ⟨wanted, hwanted, hmet⟩ := h.dependencies
  exact ⟨h.registration, wanted, hwanted, hmet.imp fun _ _ hmeets => hmeets.mono hgrows⟩

theorem MetBy.meets (h : m.MetBy host d) {describer : Describer} (hd : describer ∈ d.requirements) :
    ∃ wanted shared, describer.answer = .ok wanted ∧ host.Meets wanted shared := by
  obtain ⟨all, hall, hmet⟩ := h.dependencies
  have hanswer : describer.answer ∈ all.map Except.ok := hall ▸ List.mem_map_of_mem hd
  obtain ⟨wanted, hw, hok⟩ := List.mem_map.1 hanswer
  obtain ⟨position, hlt, hget⟩ := List.mem_iff_getElem.1 hw
  have hlt' : position < m.dependencies.length := hmet.length_eq ▸ hlt
  have hmeets : host.Meets all[position] m.dependencies[position] := hmet.get hlt hlt'
  exact ⟨wanted, _, hok.symm, hget ▸ hmeets⟩

end LoadedModule

namespace Draft

variable {draft : Draft β} {host host' : HostScope} {d : Declaration β} {left : List Describer}
  {describer : Describer} {shared : SharedType} {wanted : NamedType}

theorem Met.mono (h : draft.Met host d left) (hgrows : host.Grows host') :
    draft.Met host' d left := by
  obtain ⟨done, hsplit, hdone⟩ := h.met
  exact ⟨h.declaration, ⟨done, hsplit, hdone.imp fun _ _ hmeets => hmeets.mono hgrows⟩, h.bare⟩

/-- Whether a describer waits is nothing to what it describes. -/
theorem Met.letThrough (h : draft.Met host d (describer :: left)) :
    draft.Met host d ({ describer with waits := false } :: left) := by
  obtain ⟨done, hsplit, hdone⟩ := h.met
  exact ⟨h.declaration, ⟨done, hsplit, hdone⟩, .inr (h.bare.resolve_left (by simp))⟩

/-- A requirement is met by the host: the context has nothing of that name. -/
theorem Met.require (h : draft.Met host d (describer :: left)) (hw : describer.answer = .ok wanted)
    (hs : draft.context.resolveType host wanted.name = some shared)
    (hdescribes : shared.describes wanted.type = true) :
    ({ draft with dependencies := draft.dependencies ++ [shared] } : Draft β).Met host d left := by
  obtain ⟨done, hsplit, hdone⟩ := h.met
  have hbare : draft.context.exports = [] := h.bare.resolve_left (by simp)
  have hlookup : host.lookup wanted.name = some shared := by
    simpa [LoadContext.resolveType, hbare] using hs
  refine ⟨h.declaration, ⟨done ++ [wanted], ?_, ?_⟩, .inr hbare⟩
  · rw [hsplit, List.map_cons, hw, List.map_append, List.append_assoc]
    rfl
  · exact List.rel_append hdone (.cons ⟨hlookup, hdescribes⟩ .nil)

theorem Met.offer (h : draft.Met host d []) (offered : NamedType) :
    (draft.offer host offered).Met host d [] := by
  obtain ⟨-, hdecl, hdeps⟩ := draft.frame_offer host offered
  exact ⟨hdecl.trans h.declaration, hdeps.symm ▸ h.met, .inl rfl⟩

theorem Met.finish (h : draft.Met host d []) : draft.finish.Met host d := by
  obtain ⟨done, hsplit, hdone⟩ := h.met
  have hall : d.requirements.map (·.answer) = done.map .ok := by simpa using hsplit
  exact ⟨congrArg (·.registration) h.declaration, done, hall, hdone⟩

theorem Met.offerAll (gateOpen : Bool) (exports : List Describer) :
    ∀ {draft : Draft β}, draft.Met host d [] →
      (draft.offerAll gateOpen host exports).Met host d := by
  induction exports with
  | nil => intro draft h; exact h.finish
  | cons describer rest ih =>
    intro draft h
    unfold Draft.offerAll
    split
    · exact h
    · split
      · trivial
      · exact ih (h.offer _)

/-- **The host meets every requirement of an admission**, wherever it is stopped and goes on. -/
theorem Met.requireAll (gateOpen : Bool) (exports left : List Describer) :
    ∀ {draft : Draft β}, draft.Met host d left →
      (draft.requireAll gateOpen host exports left).Met host d := by
  induction left with
  | nil => intro draft h; exact h.offerAll gateOpen exports
  | cons describer rest ih =>
    intro draft h
    unfold Draft.requireAll
    split
    · exact h
    · split
      · trivial
      · rename_i wanted hw
        split
        · rfl
        · rename_i shared hs
          split
          · exact ih (h.require hw hs ‹_›)
          · rfl

end Draft

theorem LoadContext.met_accept {c : LoadContext β} (hc : c.exports = []) (gateOpen : Bool)
    (host : HostScope) (path : Path) (d : Declaration β) :
    (c.accept gateOpen host path d).Met host d := by
  unfold accept
  split
  · rfl
  · split
    · rfl
    · split
      · rfl
      · split
        · rfl
        · exact Draft.Met.requireAll gateOpen d.exports d.requirements
            ⟨rfl, ⟨[], rfl, .nil⟩, .inr hc⟩

/-! ## Work on a load -/

/-- The code that keeps a load waiting comes to its answer. -/
def Work.letThrough : Work β → Work β
  | .admitting draft requirements exports =>
    let p := PendingLoad.letThrough ⟨draft, requirements, exports⟩
    .admitting p.draft p.requirements p.exports
  | .registering m (.wait :: steps) => .registering m steps
  | work => work

namespace WorkState

/-- What the module of a load was given, as far as the load has come, is what the host has for what
its declaration requires. -/
def MetBy (host : HostScope) (path : Path) (declared : Option (Declaration β)) : WorkState β → Prop
  | .finished r => ∀ m, r.outcome = .ok m → ∃ d, declared = some d ∧ m.MetBy host d
  | .crashed => True
  | .waiting (.queued path') => path' = path
  | .waiting (.admitting draft left _) => ∃ d, declared = some d ∧ draft.Met host d left
  | .waiting (.registering m steps) =>
    ∃ d, declared = some d ∧ m.MetBy host d ∧ steps ⊆ m.registration

/-- A load has come to its end with a module. -/
def Loaded (state : WorkState β) (m : LoadedModule β) : Prop :=
  ∃ r, state = .finished r ∧ r.outcome = .ok m

/-- Whether a load has come to no registration. -/
def unregistered : WorkState β → Bool
  | .finished r =>
    match r.outcome with
    | .ok _ => false
    | .error cause => !cause.ofRegistration
  | .crashed | .waiting (.queued _) | .waiting (.admitting ..) => true
  | .waiting (.registering ..) => false

variable {host host' : HostScope} {path : Path} {declared : Option (Declaration β)}

theorem MetBy.mono {state : WorkState β} (h : state.MetBy host path declared)
    (hgrows : host.Grows host') : state.MetBy host' path declared := by
  rcases state with r | - | (path' | ⟨draft, left, exports⟩ | ⟨m, steps⟩)
  · intro m hm
    obtain ⟨d, hd, hmet⟩ := h m hm
    exact ⟨d, hd, hmet.mono hgrows⟩
  · trivial
  · exact h
  · obtain ⟨d, hd, hmet⟩ := h
    exact ⟨d, hd, hmet.mono hgrows⟩
  · obtain ⟨d, hd, hmet, hsteps⟩ := h
    exact ⟨d, hd, hmet.mono hgrows, hsteps⟩

theorem MetBy.loaded {state : WorkState β} (h : state.MetBy host path declared)
    {m : LoadedModule β} (hm : state.Loaded m) : ∃ d, declared = some d ∧ m.MetBy host d := by
  obtain ⟨r, rfl, hr⟩ := hm
  exact h m hr

theorem MetBy.letThrough {work : Work β} (h : (WorkState.waiting work).MetBy host path declared) :
    (WorkState.waiting work.letThrough).MetBy host path declared := by
  rcases work with path' | ⟨draft, left, exports⟩ | ⟨m, steps⟩
  · exact h
  · obtain ⟨d, hd, hmet⟩ := h
    cases left with
    | nil => exact ⟨d, hd, hmet⟩
    | cons describer rest => exact ⟨d, hd, hmet.letThrough⟩
  · obtain ⟨d, hd, hmet, hsteps⟩ := h
    rcases steps with - | ⟨step, rest⟩
    · exact ⟨d, hd, hmet, hsteps⟩
    · cases step <;>
        first
        | exact ⟨d, hd, hmet, fun s hs => hsteps (List.mem_cons_of_mem _ hs)⟩
        | exact ⟨d, hd, hmet, hsteps⟩

theorem unregistered_letThrough (work : Work β) :
    (WorkState.waiting work.letThrough).unregistered = (WorkState.waiting work).unregistered := by
  rcases work with path | ⟨draft, left, exports⟩ | ⟨m, steps⟩
  · rfl
  · rfl
  · rcases steps with - | ⟨step, rest⟩
    · rfl
    · cases step <;> rfl

end WorkState

/-- A binding is one that a declaration registers whose requirements the host met. -/
def Binding.OwedTo (b : Binding β) (host : HostScope) (declared : Option (Declaration β)) : Prop :=
  ∃ d, declared = some d ∧
    (∀ describer ∈ d.requirements, ∃ wanted shared,
      describer.answer = .ok wanted ∧ host.Meets wanted shared) ∧
    ∃ step ∈ d.registration, step.target? = some (b.contract, b.name)

theorem Binding.OwedTo.mono {b : Binding β} {host host' : HostScope}
    {declared : Option (Declaration β)} (h : b.OwedTo host declared) (hgrows : host.Grows host') :
    b.OwedTo host' declared := by
  obtain ⟨d, hd, hmeets, hstep⟩ := h
  refine ⟨d, hd, fun describer hdescriber => ?_, hstep⟩
  obtain ⟨wanted, shared, hanswer, hshared⟩ := hmeets describer hdescriber
  exact ⟨wanted, shared, hanswer, hshared.mono hgrows⟩

/-- Work on a load has added some bindings to the site, which its module owes to the host, and
nothing else that the host or the container shows. -/
structure WorkState.Reached (host : HostScope) (path : Path) (declared : Option (Declaration β))
    (s : Site β) (new : List (Binding β)) (out : WorkState β × Site β) : Prop where
  host_eq : out.2.host = s.host
  bindings_eq : out.2.container.bindings = s.container.bindings ++ new
  met : out.1.MetBy host path declared
  none : out.1.unregistered = true → new = []
  owed : ∀ b ∈ new, b.OwedTo host declared

namespace Work

variable {host : HostScope} {declared : Option (Declaration β)} {d : Declaration β} (path : Path)

theorem reached_register (hd : declared = some d) {m : LoadedModule β} (hm : m.MetBy host d)
    {steps : List (RegisterStep β)} (hsteps : steps ⊆ m.registration) (gateOpen : Bool)
    (s : Site β) :
    (∃ new, WorkState.Reached host path declared s new (register gateOpen s m steps)) ∧
      (register gateOpen s m steps).1.unregistered = false := by
  obtain ⟨done, left, hsplit, hbeside, hadds, hstands⟩ := register_cases gateOpen s m steps
  have howed : ∀ b ∈ boundBy s.container.minted done, b.OwedTo host declared := by
    intro b hb
    obtain ⟨step, hstep, htarget⟩ := RegisterStep.exists_target_of_mem_boundBy _ hb
    have hmem : step ∈ m.registration := hsteps (hsplit ▸ List.mem_append_left _ hstep)
    exact ⟨d, hd, fun describer hdescriber => hm.meets hdescriber, step, hm.registration ▸ hmem,
      htarget⟩
  have hleft : left ⊆ m.registration := fun step hstep =>
    hsteps (hsplit ▸ List.mem_append_right _ hstep)
  have hmet : (register gateOpen s m steps).1.MetBy host path declared ∧
      (register gateOpen s m steps).1.unregistered = false := by
    revert hstands
    generalize (register gateOpen s m steps).1 = state
    rintro (⟨r, hr, -⟩ | ⟨r, cause, hr, hcause⟩ | -)
    · refine ⟨fun m' hm' => ?_, by simp [WorkState.unregistered, hr]⟩
      rw [hr] at hm'
      cases hm'
      exact ⟨d, hd, hm⟩
    · refine ⟨fun m' hm' => ?_, by simp [WorkState.unregistered, hr, hcause]⟩
      rw [hr] at hm'
      cases hm'
    · exact ⟨⟨d, hd, hm, hleft⟩, rfl⟩
  have hnone : (register gateOpen s m steps).1.unregistered = true →
      boundBy s.container.minted done = [] := by
    intro hnone
    rw [hmet.2] at hnone
    cases hnone
  exact ⟨⟨_, hbeside.host, hadds.bindings, hmet.1, hnone, howed⟩, hmet.2⟩

theorem reached_refused (gateOpen : Bool) (s : Site β) (path' : Path) (id : ContextId)
    (cause : LoadCause) :
    WorkState.Reached host path declared s [] (admitted gateOpen s path' id (.refused cause)) := by
  obtain ⟨s', hbeside, hcontainer, heq⟩ := admitted_refused gateOpen s path' id cause
  rw [heq]
  refine ⟨hbeside.host, by simp [hcontainer], ?_, fun _ => rfl, by simp⟩
  intro m hm
  cases hm

/-- An admission that the host met goes on to a registration, or ends without one. -/
theorem reached_admitted (hd : declared = some d) {admission : Admission β}
    (h : admission.Met host d) (gateOpen : Bool) (s : Site β) (path' : Path) (id : ContextId) :
    ∃ new, WorkState.Reached host path declared s new
      (admitted gateOpen s path' id admission) := by
  cases admission with
  | admitted c m => exact (reached_register path hd h (List.Subset.refl _) gateOpen s).1
  | refused cause => exact ⟨[], reached_refused path gateOpen s path' id cause⟩
  | crashed c => exact ⟨[], rfl, by simp [admitted], trivial, fun _ => rfl, by simp⟩
  | waiting draft left exports =>
    exact ⟨[], rfl, by simp [admitted], ⟨d, hd, h⟩, fun _ => rfl, by simp⟩

variable {path}

/-- **A piece of work adds only what its module owes to the host.** -/
theorem reached_advance {t : ModuleTable β} {work : Work β} (gateOpen : Bool) (s : Site β)
    (h : (WorkState.waiting work).MetBy s.host path (t.findForPath path)) :
    (∃ new, WorkState.Reached s.host path (t.findForPath path) s new
      (work.advance gateOpen (.linked t) s)) ∧
      ((work.advance gateOpen (.linked t) s).1.unregistered = true →
        (WorkState.waiting work).unregistered = true) := by
  cases work with
  | queued path' =>
    obtain rfl : path' = path := h
    obtain ⟨s', hbeside, hcontainer, heq⟩ := advance_queued gateOpen (.linked t) s path'
    refine ⟨?_, fun _ => rfl⟩
    obtain ⟨new, hnew⟩ : ∃ new, WorkState.Reached s.host path' (t.findForPath path') s' new
        (advance gateOpen (.linked t) s (.queued path')) := by
      rw [heq]
      rcases LoadContext.load_linked (c := .new ⟨s.contexts.length⟩ (.linked t)) rfl rfl gateOpen
          s.host s.files s.linker path' with ⟨d, hd, hload⟩ | ⟨cause, -, hload⟩ <;> rw [hload]
      · have hmet : ((LoadContext.new ⟨s.contexts.length⟩ (.linked t)).accept gateOpen s.host path'
            d).Met s.host d := LoadContext.met_accept rfl gateOpen s.host path' d
        exact reached_admitted path' hd hmet gateOpen s' path' _
      · exact ⟨[], reached_refused path' gateOpen s' path' _ cause⟩
    exact ⟨new, hnew.host_eq.trans hbeside.host, by rw [hnew.bindings_eq, hcontainer], hnew.met,
      hnew.none, hnew.owed⟩
  | admitting draft left exports =>
    obtain ⟨d, hd, hmet⟩ := h
    obtain ⟨s', hbeside, hcontainer, heq⟩ :=
      advance_admitting gateOpen (.linked t) s draft left exports
    obtain ⟨new, hnew⟩ := reached_admitted path hd
      (hmet.requireAll gateOpen exports left) gateOpen s' draft.path draft.context.id
    refine ⟨⟨new, ?_⟩, fun _ => rfl⟩
    rw [heq]
    exact ⟨hnew.host_eq.trans hbeside.host, by rw [hnew.bindings_eq, hcontainer], hnew.met,
      hnew.none, hnew.owed⟩
  | registering m steps =>
    obtain ⟨d, hd, hmet, hsteps⟩ := h
    obtain ⟨hreached, hregistered⟩ := reached_register path hd hmet hsteps gateOpen s
    refine ⟨hreached, fun hnone => ?_⟩
    have hboth : true = false := hnone.symm.trans hregistered
    cases hboth

end Work
end ModularHost
