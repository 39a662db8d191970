import Mathlib.Logic.Function.Basic
import ModularHost.Proofs.Module.Books
import ModularHost.Proofs.Module.SingleLoad
/-!
# What contexts own

Many contexts stand beside one host. Each takes modules in, is asked for types and is unloaded,
while the host goes on publishing and the other contexts do the same. Whatever the order, each keeps
its own books, the other contexts change nothing in them, and an unloaded context is empty for good
(`contexts_in_order`).

The books are of all loads, and not of the modules alone. A module whose code panics where it
describes an export is not taken in, but what it offered before that stays exported
(`squalls_export_unowned`).
-/


namespace ModularHost

variable {β : Type}

/-! ## Contexts of a site -/

namespace Site

variable {s : Site β} {c : LoadContext β} {id : ContextId}

theorem numbered_nil : ([] : List (LoadContext β)).map (·.id) =
    (List.range ([] : List (LoadContext β)).length).map .mk :=
  rfl

theorem id_of_context? (h : s.context? id = some c) : c.id = id := by
  simpa using List.find?_some h

/-- Each context is the one under its identifier. -/
theorem context?_of_mem (h : c ∈ s.contexts) : s.context? c.id = some c := by
  have hnodup : (s.contexts.map (·.id)).Nodup := by
    rw [s.numbered]
    refine List.nodup_range.map_on fun a _ b _ hab => ?_
    simpa using hab
  cases hfind : s.context? c.id with
  | none => exact absurd (beq_self_eq_true c.id) (List.find?_eq_none.1 hfind c h)
  | some c' =>
    rw [List.inj_on_of_nodup_map hnodup (List.mem_of_find?_eq_some hfind) h (id_of_context? hfind)]

theorem context?_setContext_of_ne (h : c.id ≠ id) :
    (s.setContext c).context? id = s.context? id := by
  have hmap : ∀ contexts : List (LoadContext β),
      (contexts.map fun old => if old.id = c.id then c else old).find? (·.id == id) =
        contexts.find? (·.id == id) := by
    intro contexts
    induction contexts with
    | nil => rfl
    | cons old rest ih =>
      rw [List.map_cons, List.find?_cons, List.find?_cons, ih]
      by_cases hold : old.id = c.id
      · have hne : (c.id == id) = false := by simpa using h
        rw [if_pos hold, hold, hne]
      · rw [if_neg hold]
  exact hmap s.contexts

/-- A new context is beside those that there are. -/
theorem context?_create (s : Site β) (source : ModuleSource β) (id : ContextId) :
    (s.createContext source).2.context? id = s.context? id ∨
      s.context? id = none ∧
        (s.createContext source).2.context? id = some (.new id source) := by
  simp only [createContext, context?, List.find?_append, LoadContext.new]
  cases hfind : s.contexts.find? (·.id == id) with
  | some c => exact .inl rfl
  | none =>
    by_cases hid : (⟨s.contexts.length⟩ : ContextId) = id
    · exact .inr ⟨rfl, by simp [hid]⟩
    · exact .inl (by simp [hid])

end Site

/-! ## Runs -/

/-- The contexts of a site. -/
structure SiteRun (β : Type) where
  site : Site β
  /-- The load under way in each context, which keeps the context to itself. -/
  pending : ContextId → Option (OpenLoad β)
  /-- What the loads of each context offered since it was made or unloaded. Nothing reads it. -/
  offerings : ContextId → List (Offering β)

/-- What can happen to them. -/
inductive SiteStep (β : Type) where
  | provide (name : String) (type : TypeRef)
  | create (source : ModuleSource β)
  /-- The files change. -/
  | rearrange (files : FileTree (Library β))
  /-- A load, to its end or to where code waits if the gate is shut. -/
  | load (id : ContextId) (gateOpen : Bool) (path : Path)
  /-- The load under way goes on, to its end or to where code waits again. -/
  | resume (id : ContextId) (gateOpen : Bool)
  | unload (id : ContextId) (held : Lease → Bool)
  | resolveType (id : ContextId) (name : String)

/-- The context that a step works on. -/
def SiteStep.context? : SiteStep β → Option ContextId
  | .provide .. | .create _ | .rearrange _ => none
  | .load id .. | .resume id _ | .unload id _ | .resolveType id _ => some id

namespace SiteRun

/-- A site without contexts. -/
def start (s : Site β) : SiteRun β :=
  ⟨{ s with contexts := [], numbered := Site.numbered_nil }, fun _ => none, fun _ => []⟩

/-- What an admission into a context leaves, with all the offers of its load. -/
def conclude (r : SiteRun β) (site : Site β) (c : LoadContext β) (declaration : Declaration β)
    (offers : List Offer) : Admission β → SiteRun β
  | .admitted _ m =>
    ⟨site, Function.update r.pending c.id none, Function.update r.offerings c.id
      (r.offerings c.id ++ [⟨declaration, offers, m.exports, some m⟩])⟩
  | .crashed c' =>
    ⟨site, Function.update r.pending c.id none, Function.update r.offerings c.id
      (r.offerings c.id ++ [⟨declaration, offers, c'.exports.drop c.exports.length, none⟩])⟩
  | .refused _ => ⟨site, Function.update r.pending c.id none, r.offerings⟩
  | .waiting draft requirements exports =>
    ⟨site, Function.update r.pending c.id (some ⟨⟨draft, requirements, exports⟩, offers⟩),
      r.offerings⟩

def step (r : SiteRun β) : SiteStep β → SiteRun β
  | .provide name type =>
    match r.site.host.provide name type with
    | .ok (_, host) => { r with site := { r.site with host } }
    | .error _ => r
  | .create source => { r with site := (r.site.createContext source).2 }
  | .rearrange files => { r with site := { r.site with files } }
  | .load id gateOpen path =>
    match r.site.context? id, r.pending id with
    | some c, none =>
      let (admission, site) := r.site.load gateOpen c path
      match (c.source.find r.site.files r.site.linker path).1 with
      | .ok d =>
        let offers := (⟨c, path, d, [], []⟩ : Draft β).offersMade gateOpen r.site.host d.exports
          d.requirements
        r.conclude site c d offers admission
      | .error _ => { r with site }
    | _, _ => r
  | .resume id gateOpen =>
    match r.site.context? id, r.pending id with
    | some c, some ⟨load, offers⟩ =>
      let p := load.letThrough
      let admission := p.draft.requireAll gateOpen r.site.host p.exports p.requirements
      let more := p.draft.offersMade gateOpen r.site.host p.exports p.requirements
      r.conclude (r.site.settle admission) c p.draft.declaration (offers ++ more) admission
    | _, _ => r
  | .unload id held =>
    match r.pending id with
    | none => ⟨(r.site.unload held id).2, r.pending, Function.update r.offerings id []⟩
    | some _ => r
  | .resolveType _ _ => r

def run (r : SiteRun β) (steps : List (SiteStep β)) : SiteRun β := steps.foldl step r

end SiteRun

/-! ## What every run keeps -/

namespace SiteRun

variable {r : SiteRun β} {id : ContextId} {c : LoadContext β} {d : Declaration β}
  {offers : List Offer} {admission : Admission β}

/-- A context's books are in order, and so is the load under way in it; where there is no context
there are no books. -/
def InOrderAt (r : SiteRun β) (id : ContextId) : Prop :=
  match r.site.context? id with
  | none => r.offerings id = [] ∧ r.pending id = none
  | some c => c.InOrder (r.offerings id) ∧ ∀ p, r.pending id = some p → p.MayJoin c

theorem inOrderAt_iff (h : r.site.context? id = some c) : r.InOrderAt id ↔
    c.InOrder (r.offerings id) ∧ ∀ p, r.pending id = some p → p.MayJoin c := by
  simp only [InOrderAt, h]

theorem inOrderAt_start (s : Site β) (id : ContextId) : (start s).InOrderAt id := ⟨rfl, rfl⟩

/-- What an admission leaves is of its own context. -/
theorem context?_settle_of_ne {s : Site β} (h : admission.Stands c d offers) (hne : c.id ≠ id) :
    (s.settle admission).context? id = s.context? id := by
  cases admission with
  | admitted c' m =>
    refine Site.context?_setContext_of_ne ?_
    rw [h.1]
    exact hne
  | crashed c' =>
    refine Site.context?_setContext_of_ne ?_
    rw [h.1]
    exact hne
  | refused | waiting => rfl

theorem conclude_of_ne (r : SiteRun β) (site : Site β) (d : Declaration β) (offers : List Offer)
    (admission : Admission β) (hne : id ≠ c.id) :
    (r.conclude site c d offers admission).pending id = r.pending id ∧
      (r.conclude site c d offers admission).offerings id = r.offerings id := by
  cases admission <;> simp [conclude, hne]

theorem site_conclude (r : SiteRun β) (site : Site β) (c : LoadContext β) (d : Declaration β)
    (offers : List Offer) (admission : Admission β) :
    (r.conclude site c d offers admission).site = site := by
  cases admission <;> rfl

/-- **A context is in order after an admission into it**, whatever that comes to. -/
theorem inOrderAt_conclude {s : Site β} (hc : s.context? c.id = some c)
    (h : c.InOrder (r.offerings c.id)) (hactive : c.unloaded = false)
    (hnamed : Text.isBlank d.name = false) (hdistinct : ∀ m ∈ c.modules, m.name ≠ d.name)
    (hstands : admission.Stands c d offers) :
    (r.conclude (s.settle admission) c d offers admission).InOrderAt c.id := by
  cases admission with
  | refused cause =>
    refine (inOrderAt_iff (c := c) hc).2 ⟨h, ?_⟩
    simp [conclude]
  | waiting draft requirements exports =>
    obtain ⟨rfl, hdraft⟩ := hstands
    refine (inOrderAt_iff (c := c) hc).2 ⟨h, ?_⟩
    simp only [conclude, Function.update_self]
    rintro p ⟨⟩
    exact ⟨hdraft, hnamed, hdistinct, hactive⟩
  | admitted c' m =>
    obtain ⟨hc', hname, hexports, hall⟩ := hstands
    have hid : c'.id = c.id := by rw [hc']
    have hfound : (s.setContext c').context? c.id = some c' := by
      rw [← hid]
      exact Site.context?_setContext (by rw [hid, hc]; rfl)
    refine (inOrderAt_iff (c := c') hfound).2 ⟨?_, by simp [conclude]⟩
    simp only [conclude, Function.update_self]
    refine h.push (o := ⟨d, offers, m.exports, some m⟩) ?_ hactive hexports ?_ ?_ (by simp)
    · rw [hc', hexports]
      rfl
    · rintro _ ⟨⟩
      exact ⟨hname ▸ hnamed, fun m' hm' => hname ▸ hdistinct m' hm'⟩
    · rintro _ ⟨⟩
      exact ⟨hname, rfl, hall⟩
  | crashed c' =>
    obtain ⟨hc', hpanics⟩ := hstands
    have hid : c'.id = c.id := by rw [hc']
    have hfound : (s.setContext c').context? c.id = some c' := by
      rw [← hid]
      exact Site.context?_setContext (by rw [hid, hc]; rfl)
    have hadded : c'.exports.drop c.exports.length =
        exportsFrom c.id c.exports (freeTypes offers) := by
      rw [hc']
      simp
    refine (inOrderAt_iff (c := c') hfound).2 ⟨?_, by simp [conclude]⟩
    simp only [conclude, Function.update_self]
    exact h.push (o := ⟨d, offers, _, none⟩) (by simpa using hc') hactive hadded (by simp) (by simp)
      fun _ => hpanics

/-- Something has happened in one context: it is in order, and every other is as it was. -/
structure Touched (r r' : SiteRun β) (id : ContextId) : Prop where
  inOrder : r'.InOrderAt id
  site : ∀ other, other ≠ id → r'.site.context? other = r.site.context? other
  pending : ∀ other, other ≠ id → r'.pending other = r.pending other
  offerings : ∀ other, other ≠ id → r'.offerings other = r.offerings other

theorem Touched.refl (h : r.InOrderAt id) : r.Touched r id :=
  ⟨h, fun _ _ => rfl, fun _ _ => rfl, fun _ _ => rfl⟩

/-- An admission that was not refused touches its own context only. -/
theorem touched_conclude {s : Site β} (hsite : s.contexts = r.site.contexts)
    (hc : r.site.context? c.id = some c) (h : r.InOrderAt c.id) (hactive : c.unloaded = false)
    (hnamed : Text.isBlank d.name = false) (hdistinct : ∀ m ∈ c.modules, m.name ≠ d.name)
    (hstands : admission.Stands c d offers) :
    r.Touched (r.conclude (s.settle admission) c d offers admission) c.id := by
  have hcontext : ∀ id, s.context? id = r.site.context? id := fun id => by
    simp only [Site.context?, hsite]
  have hbooks := ((inOrderAt_iff hc).1 h).1
  refine ⟨inOrderAt_conclude ((hcontext _).trans hc) hbooks hactive hnamed hdistinct hstands,
    fun other hne => ?_, fun other hne => (conclude_of_ne r _ d offers admission hne).1,
    fun other hne => (conclude_of_ne r _ d offers admission hne).2⟩
  rw [site_conclude, context?_settle_of_ne hstands hne.symm, hcontext]

/-- A load that is refused leaves the contexts alone. -/
theorem touched_refused {s : Site β} (hsite : s.contexts = r.site.contexts)
    (hc : r.site.context? c.id = some c) (h : r.InOrderAt c.id) (d : Declaration β)
    (offers : List Offer) (cause : LoadCause) :
    r.Touched (r.conclude s c d offers (.refused cause)) c.id := by
  have hcontext : ∀ id, s.context? id = r.site.context? id := fun id => by
    simp only [Site.context?, hsite]
  refine ⟨(inOrderAt_iff ((hcontext _).trans hc)).2
      ⟨((inOrderAt_iff hc).1 h).1, by simp [conclude]⟩, fun other _ => hcontext other,
    fun other hne => ?_, fun _ _ => rfl⟩
  exact (conclude_of_ne r s d offers (.refused cause) hne).1

theorem touched_load (h : r.InOrderAt id) (gateOpen : Bool) (path : Path) :
    r.Touched (r.step (.load id gateOpen path)) id := by
  simp only [step]
  split
  · rename_i c hc hpending
    obtain rfl := Site.id_of_context? hc
    rcases hload : c.load gateOpen r.site.host r.site.files r.site.linker path with
      ⟨admission, linker⟩
    have hcases := c.load_cases gateOpen r.site.host r.site.files r.site.linker path
    rw [hload] at hcases
    simp only [Site.load, hload]
    cases hfind : (c.source.find r.site.files r.site.linker path).1 with
    | error cause =>
      -- nothing is found, so nothing is offered and no admission is concluded
      rcases hcases with ⟨cause', rfl⟩ | ⟨d, hd, -⟩
      · exact ⟨(inOrderAt_iff (c := c) hc).2 ((inOrderAt_iff hc).1 h), fun _ _ => rfl,
          fun _ _ => rfl, fun _ _ => rfl⟩
      · rw [hfind] at hd
        cases hd
    | ok d =>
      rcases hcases with ⟨cause, rfl⟩ | ⟨d', hd, rfl⟩
      · exact touched_refused (s := { r.site with linker }) rfl hc h d _ cause
      · rw [hfind] at hd
        cases hd
        rcases c.accept_cases gateOpen r.site.host path d with
          ⟨cause, hrefused⟩ | ⟨hactive, hnamed, hdistinct, hstands⟩
        · simp only [hrefused]
          exact touched_refused (s := { r.site with linker }) rfl hc h d _ cause
        · exact touched_conclude rfl hc h hactive hnamed hdistinct hstands
  · exact .refl h

theorem touched_resume (h : r.InOrderAt id) (gateOpen : Bool) :
    r.Touched (r.step (.resume id gateOpen)) id := by
  simp only [step]
  split
  · rename_i c load offers hc hpending
    obtain rfl := Site.id_of_context? hc
    have hopen := (((inOrderAt_iff hc).1 h).2 _ hpending).letThrough
    exact touched_conclude rfl hc h hopen.active hopen.named hopen.distinct
      (hopen.stands.requireAll gateOpen _ _)
  · exact .refl h

theorem touched_unload (h : r.InOrderAt id) (held : Lease → Bool) :
    r.Touched (r.step (.unload id held)) id := by
  simp only [step]
  split
  · rename_i hpending
    cases hc : r.site.context? id with
    | none =>
      have hsite : (r.site.unload held id).2 = r.site := by simp [Site.unload, hc]
      rw [hsite]
      refine ⟨?_, fun _ _ => rfl, fun _ _ => rfl, fun other hne => by simp [hne]⟩
      simp only [InOrderAt, hc]
      exact ⟨by simp, hpending⟩
    | some c =>
      obtain rfl := Site.id_of_context? hc
      rw [Site.unload_eq held hc]
      have hfound : (r.site.setContext (c.unload held).2).context? c.id = some (c.unload held).2 :=
        Site.context?_setContext (c := (c.unload held).2) (by simp [LoadContext.unload, hc])
      refine ⟨(inOrderAt_iff hfound).2 ⟨?_, by simp [hpending]⟩, fun other hne => ?_,
        fun _ _ => rfl, fun other hne => by simp [hne]⟩
      · simpa using c.inOrder_unload held
      · exact Site.context?_setContext_of_ne hne.symm
  · exact .refl h

/-- What happens to no context in particular leaves each as it was, or makes a new one. -/
theorem step_of_no_context {step : SiteStep β} (h : step.context? = none) (id : ContextId) :
    (r.step step).pending id = r.pending id ∧ (r.step step).offerings id = r.offerings id ∧
      ((r.step step).site.context? id = r.site.context? id ∨ r.site.context? id = none ∧
        ∃ source, (r.step step).site.context? id = some (.new id source)) := by
  cases step with
  | provide name type =>
    simp only [SiteRun.step]
    split <;> exact ⟨rfl, rfl, .inl rfl⟩
  | create source =>
    refine ⟨rfl, rfl, ?_⟩
    rcases r.site.context?_create source id with hsame | ⟨hnone, hnew⟩
    · exact .inl hsame
    · exact .inr ⟨hnone, source, hnew⟩
  | rearrange files => exact ⟨rfl, rfl, .inl rfl⟩
  | load | resume | unload | resolveType => cases h

theorem touched_step (h : r.InOrderAt id) {step : SiteStep β} (hstep : step.context? = some id) :
    r.Touched (r.step step) id := by
  cases step with
  | provide | create | rearrange => cases hstep
  | load id' gateOpen path =>
    cases hstep
    exact touched_load h gateOpen path
  | resume id' gateOpen =>
    cases hstep
    exact touched_resume h gateOpen
  | unload id' held =>
    cases hstep
    exact touched_unload h held
  | resolveType id' name => exact .refl h

/-- **No step on another context changes a context**, its load under way or its books. -/
theorem step_elsewhere (hr : ∀ id, r.InOrderAt id) {step : SiteStep β}
    (hc : r.site.context? id = some c) (hstep : step.context? ≠ some id) :
    (r.step step).site.context? id = some c ∧ (r.step step).pending id = r.pending id ∧
      (r.step step).offerings id = r.offerings id := by
  cases hcontext : step.context? with
  | none =>
    obtain ⟨hpending, hofferings, hsame | ⟨hnone, -⟩⟩ := step_of_no_context (r := r) hcontext id
    · exact ⟨hsame.trans hc, hpending, hofferings⟩
    · rw [hc] at hnone
      cases hnone
  | some id' =>
    have hne : id ≠ id' := by
      rintro rfl
      exact hstep hcontext
    have htouched := touched_step (hr id') hcontext
    exact ⟨(htouched.site id hne).trans hc, htouched.pending id hne, htouched.offerings id hne⟩

/-- **Every step leaves every context in order.** -/
theorem inOrderAt_step (hr : ∀ id, r.InOrderAt id) (step : SiteStep β) (id : ContextId) :
    (r.step step).InOrderAt id := by
  by_cases hstep : step.context? = some id
  · exact (touched_step (hr id) hstep).inOrder
  · cases hc : r.site.context? id with
    | some c =>
      obtain ⟨hsite, hpending, hofferings⟩ := step_elsewhere hr hc hstep
      rw [inOrderAt_iff hsite, hpending, hofferings]
      exact (inOrderAt_iff hc).1 (hr id)
    | none =>
      -- no context yet: only a step that creates one can bring it, and it comes without books
      have hnone := hr id
      simp only [InOrderAt, hc] at hnone
      cases hcontext : step.context? with
      | none =>
        obtain ⟨hpending, hofferings, hsame | ⟨-, source, hnew⟩⟩ :=
          step_of_no_context (r := r) hcontext id
        · simp only [InOrderAt, hsame, hc, hpending, hofferings]
          exact hnone
        · rw [inOrderAt_iff hnew, hpending, hofferings, hnone.1, hnone.2]
          exact ⟨LoadContext.inOrder_new id source, by simp⟩
      | some id' =>
        have hne : id ≠ id' := by
          rintro rfl
          exact hstep hcontext
        have htouched := touched_step (hr id') hcontext
        simp only [InOrderAt, htouched.site id hne, htouched.pending id hne,
          htouched.offerings id hne, hc]
        exact hnone

theorem inOrderAt_run (hr : ∀ id, r.InOrderAt id) (steps : List (SiteStep β)) (id : ContextId) :
    (r.run steps).InOrderAt id := by
  induction steps generalizing r with
  | nil => exact hr id
  | cons step rest ih => exact ih (inOrderAt_step hr step)

/-! ## Unloaded contexts -/

/-- A context is unloaded at once, unless a load keeps it. -/
theorem step_unload (hc : r.site.context? id = some c) (hpending : r.pending id = none)
    (held : Lease → Bool) :
    (r.step (.unload id held)).site.context? id = some (c.unload held).2 := by
  obtain rfl := Site.id_of_context? hc
  simp only [step, hpending, Site.unload_eq held hc]
  exact Site.context?_setContext (c := (c.unload held).2) (by simp [LoadContext.unload, hc])

/-- An unloaded context stays as it is, whatever is tried on it. -/
theorem step_unloaded (hr : ∀ id, r.InOrderAt id) (hc : r.site.context? id = some c)
    (hu : c.unloaded = true) (step : SiteStep β) : (r.step step).site.context? id = some c := by
  by_cases hstep : step.context? = some id
  · obtain ⟨hbooks, hopen⟩ := (inOrderAt_iff hc).1 (hr id)
    -- a load under way would keep its context active
    have hpending : r.pending id = none := by
      cases hp : r.pending id with
      | none => rfl
      | some p =>
        have hactive := (hopen p hp).active
        simp [hu] at hactive
    cases step with
    | provide | create | rearrange => cases hstep
    | load id' gateOpen path =>
      cases hstep
      have hload : c.load gateOpen r.site.host r.site.files r.site.linker path =
          (.refused (.contextUnloaded c.id), r.site.linker) := by simp [LoadContext.load, hu]
      simp only [SiteRun.step, hc, hpending, Site.load, hload]
      split <;> exact hc
    | resume id' gateOpen =>
      cases hstep
      simp only [SiteRun.step, hc, hpending]
    | unload id' held =>
      cases hstep
      rw [step_unload hc hpending held, (hbooks.eq_of_unloaded hu).2.2 held]
    | resolveType id' name => exact hc
  · exact (step_elsewhere hr hc hstep).1

theorem run_unloaded (hr : ∀ id, r.InOrderAt id) (hc : r.site.context? id = some c)
    (hu : c.unloaded = true) (steps : List (SiteStep β)) :
    (r.run steps).site.context? id = some c := by
  induction steps generalizing r with
  | nil => exact hc
  | cons step rest ih => exact ih (inOrderAt_step hr step) (step_unloaded hr hc hu step)

/-- **Every context is in order at any time.** In every run of publications, loads, resolutions and
unloads, over any number of contexts beside one host:

the modules a context owns have names, no two the same; its exports carry one name each and say they
come from it; each belongs to the load that was the first to offer a type under its name while the
host had none, that load's module exports it, and nothing that was so offered is missing
(`LoadContext.InOrder`). So the exports are what the owned modules export, and what loads without a
module added before code that describes a type panicked in them; they are the former alone as long
as no code has panicked so. A name stands for the host's type if the host has one and for the export
if not. An unloaded context owns nothing, exports nothing, has the host's types only, refuses every
load and stays as it is, and what is not asked of a context leaves it as it is. -/
theorem contexts_in_order (s : Site β) (steps : List (SiteStep β)) :
    let r := (start s).run steps
    ∀ c ∈ r.site.contexts,
      c.InOrder (r.offerings c.id) ∧
      (∀ shared, shared ∈ c.exports ↔ (∃ m ∈ c.modules, shared ∈ m.exports) ∨
        ∃ o ∈ r.offerings c.id, o.owner = none ∧
          o.declaration.PanicsAfter (o.offers.map (·.type)) ∧ shared ∈ o.added) ∧
      ((∀ o ∈ r.offerings c.id, o.owner.isSome = true) →
        c.exports = c.modules.flatMap (·.exports)) ∧
      (∀ name shared, c.resolveType r.site.host name = some shared ↔
        r.site.host.lookup name = some shared ∨
        r.site.host.lookup name = none ∧ c.exported name = some shared) ∧
      (r.pending c.id = none → ∀ held, ∃ c',
        (r.step (.unload c.id held)).site.context? c.id = some c' ∧ c'.unloaded = true) ∧
      (c.unloaded = true → c.Closed ∧ c.exports = [] ∧
        (∀ name, c.resolveType r.site.host name = r.site.host.lookup name) ∧
        ∀ later, (r.run later).site.context? c.id = some c) ∧
      ∀ step : SiteStep β, step.context? ≠ some c.id →
        (r.step step).site.context? c.id = some c ∧
        (r.step step).pending c.id = r.pending c.id ∧
        (r.step step).offerings c.id = r.offerings c.id := by
  intro r c hmem
  have hr : ∀ id, r.InOrderAt id := inOrderAt_run (inOrderAt_start s) steps
  have hc := Site.context?_of_mem hmem
  obtain ⟨hbooks, -⟩ := (inOrderAt_iff hc).1 (hr c.id)
  refine ⟨hbooks, fun shared => hbooks.mem_exports_iff, hbooks.exports_eq,
    fun name shared => Option.or_eq_some_iff,
    fun hpending held => ⟨_, step_unload hc hpending held, rfl⟩, fun hu => ?_,
    fun step hstep => step_elsewhere hr hc hstep⟩
  obtain ⟨hmodules, hexports, -⟩ := hbooks.eq_of_unloaded hu
  refine ⟨⟨hu, hmodules, fun gateOpen host files linker path => ?_⟩, hexports, fun name => ?_,
    run_unloaded hr hc hu⟩
  · simp [LoadContext.load, hu]
  · simp [LoadContext.resolveType, hexports]

/-- One module offers a type of the host's and another type twice; the other module offers that type
again, and then one more once its code goes on. -/
def tideModules : ModuleTable Unit :=
  ⟨[⟨hostAbi, "almanac", "1", [], [⟨false, .ok ⟨"Terrain", ⟨1, "Terrain"⟩⟩⟩,
      ⟨false, .ok ⟨"Weather", ⟨2, "Weather"⟩⟩⟩, ⟨false, .ok ⟨"Weather", ⟨3, "Storm"⟩⟩⟩], []⟩,
    ⟨hostAbi, "coast", "1", [], [⟨false, .ok ⟨"Weather", ⟨3, "Storm"⟩⟩⟩,
      ⟨true, .ok ⟨"Tide", ⟨4, "Tide"⟩⟩⟩], []⟩]⟩

/-- Two contexts beside a host that publishes before, between and after their loads. -/
def tides : SiteRun Unit :=
  (start default).run
    [.provide "Terrain" ⟨1, "Terrain"⟩,
      .create (.linked tideModules), .create (.linked tideModules),
      .load ⟨0⟩ true ⟨"almanac.module"⟩, .load ⟨1⟩ true ⟨"almanac.module"⟩,
      .load ⟨0⟩ false ⟨"coast.module"⟩, .provide "Weather" ⟨5, "Climate"⟩, .resume ⟨0⟩ true,
      .unload ⟨1⟩ fun _ => false]

theorem contexts_in_order_tides : ∃ c ∈ tides.site.contexts, ∃ c' ∈ tides.site.contexts,
    c.InOrder (tides.offerings c.id) ∧ c.exports = c.modules.flatMap (·.exports) ∧
    c.modules.map (fun m => m.exports.map (·.name)) = [["Weather"], ["Tide"]] ∧
    c'.unloaded = true ∧ c'.Closed := by
  have hzero : tides.site.contexts.get ⟨0, by decide +kernel⟩ ∈ tides.site.contexts :=
    List.get_mem _ _
  have hone : tides.site.contexts.get ⟨1, by decide +kernel⟩ ∈ tides.site.contexts :=
    List.get_mem _ _
  obtain ⟨hbooks, -, hall, -⟩ := contexts_in_order default _ _ hzero
  obtain ⟨-, -, -, -, -, hclosed, -⟩ := contexts_in_order default _ _ hone
  refine ⟨_, hzero, _, hone, hbooks, hall ?_, ?_, ?_, (hclosed ?_).1⟩
  · decide +kernel
  · decide +kernel
  · decide +kernel
  · decide +kernel

/-- One module that offers a type, and whose code panics where it describes the next. -/
def squallModules : ModuleTable Unit :=
  ⟨[⟨hostAbi, "squall", "1", [], [⟨false, .ok ⟨"Weather", ⟨2, "Weather"⟩⟩⟩,
      ⟨false, .error ⟨some "no wind gauge"⟩⟩], []⟩]⟩

/-- A context that the module was loaded into. -/
def squalls : SiteRun Unit :=
  (start default).run [.create (.linked squallModules), .load ⟨0⟩ true ⟨"squall.module"⟩]

/-- **Not every export is one of a module that is owned.** -/
theorem squalls_export_unowned :
    ¬ ∀ (s : Site Unit) (steps : List (SiteStep Unit)),
      ∀ c ∈ ((start s).run steps).site.contexts, ∀ shared,
        shared ∈ c.exports ↔ ∃ m ∈ c.modules, shared ∈ m.exports := by
  intro h
  have hzero : squalls.site.contexts.get ⟨0, by decide +kernel⟩ ∈ squalls.site.contexts :=
    List.get_mem _ _
  have hexported := h default _ _ hzero ⟨"Weather", ⟨2, "Weather"⟩, .context ⟨0⟩, 0⟩
  obtain ⟨m, hm, -⟩ := hexported.1 (by decide +kernel)
  -- the load broke down, so the context owns nothing
  cases hm

end SiteRun

end ModularHost
