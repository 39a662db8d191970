import Mathlib.Data.List.Forall2
import ModularHost.Proofs.Module.Ownership
/-!
# What a load answers

A load from a table of linked modules is decided step by step: whether the context is active, which
module the path stands for, whether that module may join, and then its requirements one after the
other. The first thing that is wrong is the answer (`LoadContext.Refuses`), and nothing has been
changed by then. A module nothing is wrong with joins its context (`LoadContext.Joins`), unless code
that describes a type panics (`LoadContext.HitsPanic`): then there is no answer, and what the module
exports of the types it offered before that stays in the context (`LoadContext.BreaksOff`). So a
load has one of three outcomes (`LoadContext.load_decided`).
-/


namespace ModularHost

variable {β : Type}

namespace LoadContext

/-! ## What may be wrong -/

/-- A requirement is met by the type that its name stands for. -/
def Meets (c : LoadContext β) (host : HostScope) (describer : Describer) (shared : SharedType) :
    Prop :=
  ∃ wanted, describer.answer = .ok wanted ∧ c.resolveType host wanted.name = some shared ∧
    shared.describes wanted.type = true

/-- **What is wrong with a requirement**: its name stands for nothing, or for another type. -/
inductive Unmet (c : LoadContext β) (host : HostScope) (describer : Describer) : LoadCause → Prop
  | unsatisfied {wanted : NamedType} : describer.answer = .ok wanted →
    c.resolveType host wanted.name = none → Unmet c host describer (.unsatisfied wanted.name)
  | mismatch {wanted : NamedType} {shared : SharedType} : describer.answer = .ok wanted →
    c.resolveType host wanted.name = some shared → shared.describes wanted.type = false →
    Unmet c host describer (.typeMismatch wanted.name shared.type wanted.type)

/-- A path stands for a module that may join a context, if its requirements are met. -/
structure Eligible (c : LoadContext β) (t : ModuleTable β) (path : Path) (d : Declaration β) :
    Prop where
  active : c.unloaded = false
  found : t.findForPath path = some d
  abi : d.abi = 2
  named : Text.isBlank d.name = false
  distinct : ∀ m ∈ c.modules, m.name ≠ d.name

/-- **Why a load is refused**, the first reason first. -/
inductive Refuses (c : LoadContext β) (t : ModuleTable β) (host : HostScope)
    (files : FileTree (Library β)) (path : Path) : LoadCause → Prop
  | unloaded : c.unloaded = true → Refuses c t host files path (.contextUnloaded c.id)
  | missing : c.unloaded = false → t.findForPath path = none → files.isFile path = false →
    Refuses c t host files path .missing
  | notLinked : c.unloaded = false → t.findForPath path = none → files.isFile path = true →
    Refuses c t host files path
      (.malformed (.notLinked (String.ofList (path.fileName?.getD []))))
  | abi {d : Declaration β} : c.unloaded = false → t.findForPath path = some d → d.abi ≠ 2 →
    Refuses c t host files path (.abiMismatch d.abi)
  | blank {d : Declaration β} : c.unloaded = false → t.findForPath path = some d → d.abi = 2 →
    Text.isBlank d.name = true → Refuses c t host files path (.malformed .blankName)
  | owned {d : Declaration β} {m : LoadedModule β} : c.unloaded = false →
    t.findForPath path = some d → d.abi = 2 → Text.isBlank d.name = false → m ∈ c.modules →
    m.name = d.name → Refuses c t host files path (.alreadyLoaded d.name)
  /-- The requirements before the one in question are met. -/
  | requirement {d : Declaration β} {met rest : List Describer} {describer : Describer}
    {found : List SharedType} {cause : LoadCause} : c.Eligible t path d →
    d.requirements = met ++ describer :: rest → List.Forall₂ (c.Meets host) met found →
    c.Unmet host describer cause → Refuses c t host files path cause

/-- **Code that describes a type is called and panics**, when the module has offered some types. -/
inductive HitsPanic (c : LoadContext β) (host : HostScope) (d : Declaration β) :
    List NamedType → Prop
  /-- The requirements before the one in question are met. -/
  | atRequirement {met rest : List Describer} {describer : Describer} {found : List SharedType}
    {p : Panic} : d.requirements = met ++ describer :: rest →
    List.Forall₂ (c.Meets host) met found → describer.answer = .error p → HitsPanic c host d []
  /-- All requirements are met, and the exports before the one in question are described. -/
  | atExport {earlier rest : List Describer} {describer : Describer} {found : List SharedType}
    {offered : List NamedType} {p : Panic} : List.Forall₂ (c.Meets host) d.requirements found →
    d.exports = earlier ++ describer :: rest → earlier.map (·.answer) = offered.map .ok →
    describer.answer = .error p → HitsPanic c host d offered

/-! ## What a module adds -/

/-- **What a module exports** of the types it offers: the first of each name that neither the host
nor the context has. -/
structure Exports (c : LoadContext β) (host : HostScope) (offered : List NamedType)
    (exports : List SharedType) : Prop where
  mem_iff : ∀ t, t ∈ exports.map (·.named) ↔ offered.find? (·.name == t.name) = some t ∧
    host.contains t.name = false ∧ c.exported t.name = none
  order : (exports.map (·.named)).Sublist offered
  distinct : (exports.map (·.name)).Nodup
  origin : ∀ shared ∈ exports, shared.origin = .context c.id

/-- **A module joins a context**, which is the same but for the module and what it exports. -/
structure Joins (c : LoadContext β) (host : HostScope) (path : Path) (d : Declaration β)
    (c' : LoadContext β) (m : LoadedModule β) : Prop where
  context_eq : c' = { c with modules := c.modules ++ [m], exports := c.exports ++ m.exports }
  declared : m.name = d.name ∧ m.version = d.version ∧ m.registration = d.registration
  path_eq : m.path = path
  owner_eq : m.context = c.id
  /-- The lease tells which module of the context it is. -/
  lease_eq : m.lease = ⟨c.id, c.modules.length⟩
  /-- One descriptor for each requirement, in order. -/
  dependencies : List.Forall₂ (c.Meets host) d.requirements m.dependencies
  exports : ∃ offered, d.exports.map (·.answer) = offered.map .ok ∧
    c.Exports host offered m.exports

/-- **A load breaks off**: no module joins the context, which is the same but for what the module
exports of the types that it offered before its code panicked. -/
def BreaksOff (c : LoadContext β) (host : HostScope) (d : Declaration β) (c' : LoadContext β) :
    Prop :=
  ∃ offered added, c.HitsPanic host d offered ∧ c.Exports host offered added ∧
    c' = { c with exports := c.exports ++ added }

end LoadContext

/-! ## Requirements -/

namespace Draft

variable {d : Draft β} {host : HostScope} {describer : Describer} {exports rest : List Describer}
  {cause : LoadCause}

/-- Requirements that are met leave their descriptors. -/
theorem requireAll_append {c : LoadContext β} {met : List Describer} {found : List SharedType}
    (h : List.Forall₂ (c.Meets host) met found) (exports rest : List Describer) :
    ∀ d : Draft β, d.context = c → d.requireAll true host exports (met ++ rest) =
      ({ d with dependencies := d.dependencies ++ found } : Draft β).requireAll true host exports
        rest := by
  induction h with
  | nil =>
    intro d _
    rw [List.append_nil]
    rfl
  | @cons describer shared met found hmeets _ ih =>
    intro d hc
    obtain ⟨wanted, hanswer, hresolve, hdescribes⟩ := hmeets
    rw [← hc] at hresolve
    rw [List.cons_append, requireAll, if_neg (by simp), hanswer]
    simp only [hresolve, hdescribes, if_true]
    rw [ih { d with dependencies := d.dependencies ++ [shared] } hc, List.append_assoc]
    rfl

theorem requireAll_unmet (h : d.context.Unmet host describer cause) :
    d.requireAll true host exports (describer :: rest) = .refused cause := by
  rw [requireAll, if_neg (by simp)]
  cases h with
  | unsatisfied hanswer hresolve => simp only [hanswer, hresolve]
  | mismatch hanswer hresolve hdescribes => simp [hanswer, hresolve, hdescribes]

theorem requireAll_panic {p : Panic} (h : describer.answer = .error p) :
    d.requireAll true host exports (describer :: rest) = .crashed d.context := by
  rw [requireAll, if_neg (by simp), h]

end Draft

/-- Requirements are all met, or there is a first that is not, or whose code panics. -/
theorem LoadContext.meets_or_stops (c : LoadContext β) (host : HostScope)
    (requirements : List Describer) :
    (∃ found, List.Forall₂ (c.Meets host) requirements found) ∨
    ∃ met describer rest found, requirements = met ++ describer :: rest ∧
      List.Forall₂ (c.Meets host) met found ∧
      ((∃ cause, c.Unmet host describer cause) ∨ ∃ p, describer.answer = .error p) := by
  induction requirements with
  | nil => exact .inl ⟨[], .nil⟩
  | cons first later ih =>
    rcases hanswer : first.answer with p | wanted
    · exact .inr ⟨[], first, later, [], rfl, .nil, .inr ⟨p, hanswer⟩⟩
    · cases hresolve : c.resolveType host wanted.name with
      | none =>
        exact .inr ⟨[], first, later, [], rfl, .nil, .inl ⟨_, .unsatisfied hanswer hresolve⟩⟩
      | some shared =>
        cases hdescribes : shared.describes wanted.type with
        | false =>
          exact .inr ⟨[], first, later, [], rfl, .nil,
            .inl ⟨_, .mismatch hanswer hresolve hdescribes⟩⟩
        | true =>
          have hmeets : c.Meets host first shared := ⟨wanted, hanswer, hresolve, hdescribes⟩
          rcases ih with ⟨found, hall⟩ | ⟨met, describer, rest, found, rfl, hmet, hstops⟩
          · exact .inl ⟨shared :: found, .cons hmeets hall⟩
          · exact .inr ⟨first :: met, describer, rest, shared :: found, rfl, .cons hmeets hmet,
              hstops⟩

/-! ## Exports -/

section ExportsFrom

variable {id : ContextId} {taken : List SharedType} {types : List NamedType}

/-- What is added keeps the order of what was offered. -/
theorem sublist_exportsFrom (id : ContextId) (taken : List SharedType) (types : List NamedType) :
    ((exportsFrom id taken types).map (·.named)).Sublist types := by
  induction types generalizing taken with
  | nil => exact .slnil
  | cons t rest ih =>
    unfold exportsFrom
    split
    · exact (ih taken).cons t
    · exact (ih _).cons_cons t

/-- No name is added twice. -/
theorem nodup_added (id : ContextId) (taken : List SharedType) (types : List NamedType) :
    ((exportsFrom id taken types).map (·.name)).Nodup := by
  induction types generalizing taken with
  | nil => exact List.nodup_nil
  | cons t rest ih =>
    unfold exportsFrom
    split
    · exact ih taken
    · refine List.nodup_cons.2 ⟨fun hmem => ?_, ih _⟩
      obtain ⟨shared, hshared, hname⟩ := List.mem_map.1 hmem
      exact (of_mem_exportsFrom hshared).2.1 _ (List.mem_append_right _ List.mem_cons_self)
        hname.symm

/-- **What is added is the first of each name** that nothing had before. -/
theorem mem_exportsFrom_iff {t : NamedType} : t ∈ (exportsFrom id taken types).map (·.named) ↔
    types.find? (·.name == t.name) = some t ∧ ∀ old ∈ taken, old.name ≠ t.name := by
  constructor
  · intro ht
    obtain ⟨shared, hshared, rfl⟩ := List.mem_map.1 ht
    obtain ⟨-, hfresh, hfirst⟩ := of_mem_exportsFrom hshared
    exact ⟨hfirst, hfresh⟩
  · rintro ⟨hfirst, hfresh⟩
    obtain ⟨shared, hshared, hname⟩ :
        ∃ shared ∈ taken ++ exportsFrom id taken types, shared.name = t.name :=
      exists_export_of_mem (List.mem_of_find?_eq_some hfirst) taken
    rcases List.mem_append.1 hshared with hold | hnew
    · exact absurd hname (hfresh shared hold)
    · -- the descriptor of that name is the one made for the first type of the name
      have hnamed := (of_mem_exportsFrom hnew).2.2
      rw [hname, hfirst] at hnamed
      exact List.mem_map.2 ⟨shared, hnew, (Option.some.inj hnamed).symm⟩

end ExportsFrom

/-- A name is looked for among those that are kept for their names. -/
theorem find?_filter_name (keep : String → Bool) (types : List NamedType) (name : String) :
    (types.filter fun t => keep t.name).find? (·.name == name) =
      if keep name then types.find? (·.name == name) else none := by
  rw [List.find?_filter]
  cases hkeep : keep name with
  | true =>
    rw [if_pos rfl]
    congr 1
    funext t
    by_cases hname : t.name = name <;> simp [hname, hkeep]
  | false =>
    rw [if_neg (by simp), List.find?_eq_none]
    intro t _
    by_cases hname : t.name = name <;> simp [hname, hkeep]

/-- The types of a list whose names the host does not have. -/
def HostScope.without (host : HostScope) (types : List NamedType) : List NamedType :=
  types.filter fun t => !host.contains t.name

/-- What a context adds of the types a module offers is what the module exports. -/
theorem LoadContext.exports_exportsFrom (c : LoadContext β) (host : HostScope)
    (offered : List NamedType) :
    c.Exports host offered (exportsFrom c.id c.exports (host.without offered)) where
  mem_iff t := by
    have hexported : c.exported t.name = none ↔ ∀ old ∈ c.exports, old.name ≠ t.name := by
      simp [LoadContext.exported]
    rw [mem_exportsFrom_iff, HostScope.without, find?_filter_name (fun name => !host.contains name),
      hexported]
    cases host.contains t.name <;> simp
  order := (sublist_exportsFrom _ _ _).trans List.filter_sublist
  distinct := nodup_added _ _ _
  origin shared hshared := (of_mem_exportsFrom hshared).1

namespace Draft

variable {host : HostScope} {exports : List Describer} {offered : List NamedType}

/-- A draft after it has published some more. -/
def publish (d : Draft β) (added : List SharedType) : Draft β :=
  { d with
    context := { d.context with exports := d.context.exports ++ added }
    exports := d.exports ++ added }

/-- A type that is offered is published if it is the first of its name. -/
theorem offer_eq_publish (d : Draft β) (host : HostScope) (t : NamedType) :
    d.offer host t = d.publish (exportsFrom d.context.id d.context.exports (host.without [t])) := by
  unfold offer HostScope.without
  by_cases hhost : host.contains t.name = true
  · rw [if_pos (by simp [hhost])]
    simp [hhost, exportsFrom, publish]
  · have hfree : [t].filter (fun t => !host.contains t.name) = [t] := by simp [hhost]
    rw [hfree, exportsFrom]
    by_cases htaken : d.context.exports.any (·.name == t.name) = true
    · rw [if_pos (by simp [htaken]), if_pos htaken]
      simp [exportsFrom, publish]
    · rw [if_neg (by simp [hhost, htaken]), if_neg htaken]
      rfl

/-- Export code that answers leaves what it offers published. -/
theorem offerAll_append {earlier : List Describer} (h : earlier.map (·.answer) = offered.map .ok)
    (rest : List Describer) (d : Draft β) : d.offerAll true host (earlier ++ rest) =
      (d.publish (exportsFrom d.context.id d.context.exports (host.without offered))).offerAll true
        host rest := by
  induction earlier generalizing d offered with
  | nil =>
    obtain rfl : offered = [] := by simpa using h.symm
    simp [HostScope.without, exportsFrom, publish]
  | cons describer more ih =>
    obtain ⟨t, later, rfl⟩ : ∃ t later, offered = t :: later := by
      cases offered with
      | nil => simp at h
      | cons t later => exact ⟨t, later, rfl⟩
    rw [List.map_cons, List.map_cons, List.cons.injEq] at h
    rw [List.cons_append, offerAll, if_neg (by simp), h.1]
    simp only
    rw [ih h.2, offer_eq_publish]
    have hsplit : host.without (t :: later) = host.without [t] ++ host.without later := by
      simp [HostScope.without, List.filter_cons]
      split <;> rfl
    rw [hsplit, exportsFrom_append]
    simp [publish]

theorem offerAll_panic {describer : Describer} {rest : List Describer} {p : Panic}
    (h : describer.answer = .error p) (d : Draft β) :
    d.offerAll true host (describer :: rest) = .crashed d.context := by
  rw [offerAll, if_neg (by simp), h]

end Draft

/-- Code of a list answers, or there is a first that panics. -/
theorem answers_or_panics (describers : List Describer) :
    (∃ types : List NamedType, describers.map (·.answer) = types.map .ok) ∨
      ∃ earlier describer rest, ∃ types : List NamedType, ∃ p,
        describers = earlier ++ describer :: rest ∧ earlier.map (·.answer) = types.map .ok ∧
          describer.answer = .error p := by
  induction describers with
  | nil => exact .inl ⟨[], rfl⟩
  | cons first later ih =>
    rcases hanswer : first.answer with p | t
    · exact .inr ⟨[], first, later, [], p, rfl, rfl, hanswer⟩
    · rcases ih with ⟨types, htypes⟩ | ⟨earlier, describer, rest, types, p, rfl, htypes, hpanics⟩
      · exact .inl ⟨t :: types, by simp [hanswer, htypes]⟩
      · exact .inr ⟨first :: earlier, describer, rest, t :: types, p, rfl,
          by simp [hanswer, htypes], hpanics⟩

/-! ## Loads -/

namespace LoadContext

variable {c : LoadContext β} {t : ModuleTable β} {host : HostScope} {files : FileTree (Library β)}
  {linker : Linker β} {path : Path} {d : Declaration β} {cause : LoadCause}

/-- Goes through the requirements and the exports of a declaration, with the gate open. -/
def walk (c : LoadContext β) (host : HostScope) (path : Path) (d : Declaration β) : Admission β :=
  Draft.requireAll true host d.exports d.requirements ⟨c, path, d, [], []⟩

/-- Requirements that are all met leave the exports to be gone through. -/
theorem walk_of_met {found : List SharedType}
    (hmet : List.Forall₂ (c.Meets host) d.requirements found) (path : Path) : c.walk host path d =
      (⟨c, path, d, found, []⟩ : Draft β).offerAll true host d.exports := by
  have hwalk := Draft.requireAll_append hmet d.exports [] ⟨c, path, d, [], []⟩ rfl
  rw [List.append_nil, Draft.requireAll] at hwalk
  exact hwalk

/-- **A panic leaves the exports that were offered before it.** -/
theorem HitsPanic.walk {offered : List NamedType} (h : c.HitsPanic host d offered) (path : Path) :
    c.walk host path d = .crashed
      { c with exports := c.exports ++ exportsFrom c.id c.exports (host.without offered) } := by
  cases h with
  | atRequirement hsplit hmet hpanics =>
    rw [LoadContext.walk, hsplit, Draft.requireAll_append hmet _ _ _ rfl,
      Draft.requireAll_panic hpanics]
    simp [HostScope.without, exportsFrom]
  | atExport hmet hsplit hoffered hpanics =>
    rw [walk_of_met hmet, hsplit, Draft.offerAll_append hoffered, Draft.offerAll_panic hpanics]
    rfl

theorem HitsPanic.breaksOff {offered : List NamedType} (h : c.HitsPanic host d offered)
    (path : Path) : ∃ c', c.BreaksOff host d c' ∧ c.walk host path d = .crashed c' :=
  ⟨_, ⟨offered, _, h, c.exports_exportsFrom host offered, rfl⟩, h.walk path⟩

/-- **A walk ends** at the first requirement that is not met, with the module in its context, or
where its code panics. -/
theorem walk_outcome (c : LoadContext β) (host : HostScope) (path : Path) (d : Declaration β) :
    (∃ met describer rest found cause, d.requirements = met ++ describer :: rest ∧
      List.Forall₂ (c.Meets host) met found ∧ c.Unmet host describer cause ∧
      c.walk host path d = .refused cause) ∨
    (∃ c' m, c.Joins host path d c' m ∧ c.walk host path d = .admitted c' m) ∨
    ∃ c', c.BreaksOff host d c' ∧ c.walk host path d = .crashed c' := by
  rcases c.meets_or_stops host d.requirements with
    ⟨found, hmet⟩ | ⟨met, describer, rest, found, hsplit, hmet, ⟨cause, hunmet⟩ | ⟨p, hpanics⟩⟩
  · rcases answers_or_panics d.exports with
      ⟨offered, hoffered⟩ | ⟨earlier, describer, rest, offered, p, hsplit, hoffered, hpanics⟩
    · have hwalk := walk_of_met hmet path
      rw [← List.append_nil d.exports, Draft.offerAll_append hoffered, Draft.offerAll] at hwalk
      refine .inr (.inl ⟨_, _, ?_, hwalk⟩)
      exact
        { context_eq := rfl
          declared := ⟨rfl, rfl, rfl⟩
          path_eq := rfl
          owner_eq := rfl
          lease_eq := rfl
          dependencies := hmet
          exports := ⟨offered, hoffered, c.exports_exportsFrom host offered⟩ }
    · exact .inr (.inr ((HitsPanic.atExport hmet hsplit hoffered hpanics).breaksOff path))
  · have hwalk : c.walk host path d = .refused cause := by
      rw [LoadContext.walk, hsplit, Draft.requireAll_append hmet _ _ _ rfl,
        Draft.requireAll_unmet hunmet]
    exact .inl ⟨met, describer, rest, found, cause, hsplit, hmet, hunmet, hwalk⟩
  · exact .inr (.inr ((HitsPanic.atRequirement hsplit hmet hpanics).breaksOff path))

/-- A module that is admitted joins its context, whatever the context finds its modules in. -/
theorem joins_of_load {c' : LoadContext β} {m : LoadedModule β}
    (h : (c.load true host files linker path).1 = .admitted c' m) :
    c.unloaded = false ∧ ∃ d, c.Joins host path d c' m := by
  rcases c.load_cases true host files linker path with ⟨cause, hrefused⟩ | ⟨d, -, haccept⟩
  · rw [h] at hrefused
    cases hrefused
  · rw [h, accept] at haccept
    split_ifs at haccept with hunloaded
    rcases c.walk_outcome host path d with ⟨_, _, _, _, cause, -, -, -, hwalk⟩ |
      ⟨c₁, m₁, hjoins, hwalk⟩ | ⟨c₁, -, hwalk⟩ <;>
      cases haccept.trans hwalk
    exact ⟨by simpa using hunloaded, d, hjoins⟩

/-- A load that breaks down leaves the context with more exports at most. -/
theorem context_of_crashed {c' : LoadContext β} {gateOpen : Bool}
    (h : (c.load gateOpen host files linker path).1 = .crashed c') :
    c' = { c with exports := c'.exports } := by
  rcases c.load_cases gateOpen host files linker path with ⟨cause, hrefused⟩ | ⟨d, -, haccept⟩
  · rw [h] at hrefused
    cases hrefused
  · have hfollows := c.follows_accept gateOpen host path d
    rw [← haccept, h] at hfollows
    exact hfollows.1

/-- A module that may join is a matter of its requirements. -/
theorem Eligible.load (h : c.Eligible t path d) (hsource : c.source = .linked t) :
    c.load true host files linker path = (c.walk host path d, linker) := by
  have hdistinct : c.modules.any (·.name == d.name) = false := by
    simpa using h.distinct
  have habi : d.abi = hostAbi := h.abi
  simp [LoadContext.load, accept, ModuleSource.find, hsource, h.active, h.found, habi, h.named,
    hdistinct, walk]

/-- **A load is refused for the first thing that is wrong**, and changes nothing. -/
theorem Refuses.load (h : c.Refuses t host files path cause) (hsource : c.source = .linked t) :
    c.load true host files linker path = (.refused cause, linker) := by
  have hpassed : ∀ {d : Declaration β}, d.abi = 2 → ¬ d.abi ≠ hostAbi := fun habi hne => hne habi
  cases h with
  | unloaded hu => simp [LoadContext.load, hu]
  | missing hu hd hf | notLinked hu hd hf =>
    simp [LoadContext.load, ModuleSource.find, hsource, hu, hd, hf]
  | abi hu hd habi =>
    have hne : _ ≠ hostAbi := habi
    simp [LoadContext.load, accept, ModuleSource.find, hsource, hu, hd, hne]
  | blank hu hd habi hblank =>
    simp [LoadContext.load, accept, ModuleSource.find, hsource, hu, hd, hpassed habi, hblank]
  | @owned d m hu hd habi hnamed hm hname =>
    have hany : c.modules.any (·.name == d.name) = true :=
      List.any_eq_true.2 ⟨m, hm, by simpa using hname⟩
    simp [LoadContext.load, accept, ModuleSource.find, hsource, hu, hd, hpassed habi, hnamed, hany]
  | @requirement d met rest describer found _ heligible hsplit hmet hunmet =>
    rw [heligible.load hsource, walk, hsplit, Draft.requireAll_append hmet _ _ _ rfl,
      Draft.requireAll_unmet hunmet]

/-- A path stands for a module that may join, or the load is refused before its requirements. -/
theorem eligible_or_refuses (c : LoadContext β) (t : ModuleTable β) (host : HostScope)
    (files : FileTree (Library β)) (path : Path) :
    (∃ d, c.Eligible t path d) ∨ ∃ cause, c.Refuses t host files path cause := by
  cases hu : c.unloaded with
  | true => exact .inr ⟨_, .unloaded hu⟩
  | false =>
    cases hd : t.findForPath path with
    | none =>
      cases hf : files.isFile path with
      | false => exact .inr ⟨_, .missing hu hd hf⟩
      | true => exact .inr ⟨_, .notLinked hu hd hf⟩
    | some d =>
      by_cases habi : d.abi = 2
      · cases hblank : Text.isBlank d.name with
        | true => exact .inr ⟨_, .blank hu hd habi hblank⟩
        | false =>
          by_cases howned : ∃ m ∈ c.modules, m.name = d.name
          · obtain ⟨m, hm, hname⟩ := howned
            exact .inr ⟨_, .owned hu hd habi hblank hm hname⟩
          · exact .inl ⟨d, hu, hd, habi, hblank, fun m hm hname => howned ⟨m, hm, hname⟩⟩
      · exact .inr ⟨_, .abi hu hd habi⟩

/-- **A load is refused, or its module joins, or it breaks off**, and each for a reason. -/
inductive Decided (c : LoadContext β) (t : ModuleTable β) (host : HostScope)
    (files : FileTree (Library β)) (path : Path) : Admission β → Prop
  | refused {cause : LoadCause} : c.Refuses t host files path cause →
    Decided c t host files path (.refused cause)
  | joins {d : Declaration β} {c' : LoadContext β} {m : LoadedModule β} : c.Eligible t path d →
    c.Joins host path d c' m → Decided c t host files path (.admitted c' m)
  | breaksOff {d : Declaration β} {c' : LoadContext β} : c.Eligible t path d →
    c.BreaksOff host d c' → Decided c t host files path (.crashed c')

/-- **A load from a table is decided**, and needs no library opened. -/
theorem load_decided (hsource : c.source = .linked t) (host : HostScope)
    (files : FileTree (Library β)) (linker : Linker β) (path : Path) :
    ∃ admission, c.Decided t host files path admission ∧
      c.load true host files linker path = (admission, linker) := by
  rcases c.eligible_or_refuses t host files path with ⟨d, hd⟩ | ⟨cause, hrefuses⟩
  · rcases c.walk_outcome host path d with
      ⟨met, describer, rest, found, cause, hsplit, hmet, hunmet, -⟩ | ⟨c', m, hjoins, hwalk⟩ |
        ⟨c', hbreaks, hwalk⟩
    · have hrefuses : c.Refuses t host files path cause := .requirement hd hsplit hmet hunmet
      exact ⟨_, .refused hrefuses, hrefuses.load hsource⟩
    · exact ⟨_, .joins hd hjoins, hwalk ▸ hd.load hsource⟩
    · exact ⟨_, .breaksOff hd hbreaks, hwalk ▸ hd.load hsource⟩
  · exact ⟨_, .refused hrefuses, hrefuses.load hsource⟩

theorem decided_of_load (hsource : c.source = .linked t) {admission : Admission β}
    (h : (c.load true host files linker path).1 = admission) :
    c.Decided t host files path admission := by
  obtain ⟨_, hdecided, hload⟩ := load_decided hsource host files linker path
  rw [hload] at h
  exact h ▸ hdecided

theorem load_refused_iff (hsource : c.source = .linked t) :
    (c.load true host files linker path).1 = .refused cause ↔
      c.Refuses t host files path cause := by
  refine ⟨fun h => ?_, fun hrefuses => congrArg Prod.fst (hrefuses.load hsource)⟩
  cases decided_of_load hsource h with
  | refused hrefuses => exact hrefuses

/-- **A load breaks down exactly if code of a module that may join is called and panics.** -/
theorem load_crashed_iff (hsource : c.source = .linked t) :
    (∃ c', (c.load true host files linker path).1 = .crashed c') ↔
      ∃ d offered, c.Eligible t path d ∧ c.HitsPanic host d offered := by
  constructor
  · rintro ⟨c', h⟩
    cases decided_of_load hsource h with
    | breaksOff hd hbreaks =>
      obtain ⟨offered, -, hpanics, -⟩ := hbreaks
      exact ⟨_, offered, hd, hpanics⟩
  · rintro ⟨d, offered, hd, hpanics⟩
    rw [hd.load hsource]
    exact ⟨_, hpanics.walk path⟩

/-- **A module is admitted exactly if nothing is wrong and no code of it panics.** -/
theorem load_admitted_iff (hsource : c.source = .linked t) :
    (∃ c' m, (c.load true host files linker path).1 = .admitted c' m) ↔
      (∀ cause, ¬ c.Refuses t host files path cause) ∧
        ∀ d offered, c.Eligible t path d → ¬ c.HitsPanic host d offered := by
  constructor
  · rintro ⟨c', m, h⟩
    refine ⟨fun cause hrefuses => ?_, fun d offered hd hpanics => ?_⟩
    · rw [hrefuses.load hsource] at h
      cases h
    · rw [hd.load hsource, hpanics.walk path] at h
      cases h
  · rintro ⟨hright, hfine⟩
    obtain ⟨_, hdecided, hload⟩ := load_decided hsource host files linker path
    cases hdecided with
    | refused hrefuses => exact (hright _ hrefuses).elim
    | joins hd hjoins => exact ⟨_, _, congrArg Prod.fst hload⟩
    | breaksOff hd hbreaks =>
      obtain ⟨offered, -, hpanics, -⟩ := hbreaks
      exact (hfine _ offered hd hpanics).elim

end LoadContext

/-! ## Loads into a context of a site -/

/-- **A context of a site is in a new state**, and all else is as it was. -/
structure Site.Replaces (s s' : Site β) (c' : LoadContext β) : Prop where
  site_eq : s' = s.setContext c'
  found : s'.context? c'.id = some c'
  others : ∀ id, id ≠ c'.id → s'.context? id = s.context? id
  host_eq : s'.host = s.host
  container_eq : s'.container = s.container

theorem Site.replaces_setContext {s : Site β} {c' : LoadContext β}
    (h : (s.context? c'.id).isSome) : s.Replaces (s.setContext c') c' where
  site_eq := rfl
  found := context?_setContext h
  others _ hne := context?_setContext_of_ne hne.symm
  host_eq := rfl
  container_eq := rfl

/-- A load from a table leaves what its admission leaves. -/
theorem Site.load_linked (s : Site β) {c : LoadContext β} {t : ModuleTable β}
    (hsource : c.source = .linked t) (path : Path) : s.load true c path =
      ((c.load true s.host s.files s.linker path).1,
        s.settle (c.load true s.host s.files s.linker path).1) := by
  obtain ⟨admission, -, hload⟩ := LoadContext.load_decided hsource s.host s.files s.linker path
  simp only [Site.load, hload]

/-- **What a load into a context of a site answers**, and what it leaves of the site. -/
structure Site.Decides (s : Site β) (c : LoadContext β) (t : ModuleTable β) (path : Path) :
    Prop where
  /-- The first thing that is wrong is the answer. -/
  refused : ∀ cause, (s.load true c path).1 = .refused cause ↔
    c.Refuses t s.host s.files path cause
  /-- Nothing has been changed by then, in the context or anywhere else. -/
  kept : ∀ cause, c.Refuses t s.host s.files path cause → (s.load true c path).2 = s
  /-- The module is admitted where nothing is wrong and no code of it that is called panics. -/
  admits : (∃ c' m, (s.load true c path).1 = .admitted c' m) ↔
    (∀ cause, ¬ c.Refuses t s.host s.files path cause) ∧
      ∀ d offered, c.Eligible t path d → ¬ c.HitsPanic s.host d offered
  /-- A module that is admitted joins the context, and nothing becomes of anything else. -/
  joins : ∀ c' m, (s.load true c path).1 = .admitted c' m →
    (∃ d, c.Eligible t path d ∧ c.Joins s.host path d c' m) ∧
      s.Replaces (s.load true c path).2 c'
  /-- There is no answer where code of a module that may join is called and panics. -/
  breaks : (∃ c', (s.load true c path).1 = .crashed c') ↔
    ∃ d offered, c.Eligible t path d ∧ c.HitsPanic s.host d offered
  /-- The context then has the exports that were offered before that, and is else as it was. -/
  leaves : ∀ c', (s.load true c path).1 = .crashed c' →
    (∃ d, c.Eligible t path d ∧ c.BreaksOff s.host d c') ∧ s.Replaces (s.load true c path).2 c'
  ends : ∀ draft requirements exports,
    (s.load true c path).1 ≠ .waiting draft requirements exports

/-- **A load answers by the first thing that is wrong, or has its module join, or breaks off.**
Whatever the context has taken in before, whatever the host publishes, whatever the table, the files
and the path: a refusal says what was wrong first and leaves everything as it was, and a module that
is admitted is given the types its requirements stand for, in order, and exports the first of each
name it offers that neither the host nor the context has.

Only code that describes a type and panics keeps a module out that nothing is wrong with. The load
has no answer then. The context has the same modules and is as active as before, but it has gained
the exports that were offered in front of the panic. -/
theorem load_decides {s : Site β} {c : LoadContext β} {t : ModuleTable β}
    (hc : s.context? c.id = some c) (hsource : c.source = .linked t) (path : Path) :
    s.Decides c t path := by
  have hload := s.load_linked hsource path
  have hfound : ∀ {c' : LoadContext β}, c'.id = c.id → (s.context? c'.id).isSome := by
    intro c' hid
    rw [hid, hc]
    rfl
  refine
    { refused := fun cause => LoadContext.load_refused_iff hsource
      kept := fun cause h => ?_
      admits := LoadContext.load_admitted_iff hsource
      joins := fun c' m he => ?_
      breaks := LoadContext.load_crashed_iff hsource
      leaves := fun c' he => ?_
      ends := fun draft requirements exports he => ?_ }
  · rw [hload, (LoadContext.load_refused_iff hsource).2 h]
    rfl
  · cases LoadContext.decided_of_load hsource he with
    | @joins d _ _ hd hjoins =>
      have hid : c'.id = c.id := by rw [hjoins.context_eq]
      rw [hload] at he ⊢
      rw [he]
      exact ⟨⟨d, hd, hjoins⟩, Site.replaces_setContext (hfound hid)⟩
  · cases LoadContext.decided_of_load hsource he with
    | @breaksOff d _ hd hbreaks =>
      have hid : c'.id = c.id := by
        obtain ⟨-, -, -, -, rfl⟩ := hbreaks
        rfl
      rw [hload] at he ⊢
      rw [he]
      exact ⟨⟨d, hd, hbreaks⟩, Site.replaces_setContext (hfound hid)⟩
  · cases LoadContext.decided_of_load hsource he

/-- A context that has taken in a module which exports a type. -/
def weatherContext : LoadContext Unit × Site Unit :=
  let (c, s) := (default : Site Unit).createContext (.linked ContextRun.weatherModules)
  let s := (s.load true c ⟨"weather.module"⟩).2
  ((s.context? c.id).getD c, s)

/-- One module was built against another type of that name, the other against the very type. -/
theorem load_decides_weather :
    weatherContext.2.context? weatherContext.1.id = some weatherContext.1 ∧
    weatherContext.1.source = .linked ContextRun.weatherModules ∧
    weatherContext.1.Refuses ContextRun.weatherModules weatherContext.2.host weatherContext.2.files
      ⟨"forecast.module"⟩ (.typeMismatch "Weather" ⟨1, "Weather"⟩ ⟨2, "Terrain"⟩) ∧
    (weatherContext.2.load true weatherContext.1 ⟨"forecast.module"⟩).2 = weatherContext.2 ∧
    ∃ c' m, (weatherContext.2.load true weatherContext.1 ⟨"almanac.module"⟩).1 = .admitted c' m ∧
      c'.modules.map (·.name) = ["weather", "almanac"] := by
  have hc : weatherContext.2.context? weatherContext.1.id = some weatherContext.1 := rfl
  have hsource : weatherContext.1.source = .linked ContextRun.weatherModules := rfl
  have hforecast := load_decides hc hsource ⟨"forecast.module"⟩
  have hrefuses := (hforecast.refused (.typeMismatch "Weather" ⟨1, "Weather"⟩ ⟨2, "Terrain"⟩)).1 rfl
  exact ⟨hc, hsource, hrefuses, hforecast.kept _ hrefuses, _, _, rfl, rfl⟩

/-- **A module need not be admitted where nothing is wrong.** -/
theorem squallModules_not_admitted :
    ¬ ∀ (s : Site Unit) (c : LoadContext Unit) (t : ModuleTable Unit) (path : Path),
      s.context? c.id = some c → c.source = .linked t →
      (∀ cause, ¬ c.Refuses t s.host s.files path cause) →
      ∃ c' m, (s.load true c path).1 = .admitted c' m := by
  intro h
  have hright : ∀ cause, ¬ (LoadContext.new ⟨0⟩ (.linked SiteRun.squallModules)).Refuses
      SiteRun.squallModules .empty (.empty : FileTree (Library Unit)) ⟨"squall.module"⟩ cause := by
    intro cause hrefuses
    have hload : ((LoadContext.new ⟨0⟩ (.linked SiteRun.squallModules)).load true .empty
        (.empty : FileTree (Library Unit)) .empty ⟨"squall.module"⟩).1 = .refused cause :=
      (LoadContext.load_refused_iff rfl).2 hrefuses
    cases hload
  obtain ⟨c', m, hadmitted⟩ :=
    h ((default : Site Unit).createContext (.linked SiteRun.squallModules)).2 _ _ _ rfl rfl hright
  cases hadmitted

end ModularHost
