import ModularHost.Proofs.Module.SharedTypes
/-!
# What modules offer

The export code of a module offers types one after the other. A type under a name that the host has
by then is passed over, and so is one under a name that the context exports already; any other joins
the exports. So what an admission adds follows from what was offered and from what the context had
(`exportsFrom`), however often the admission is stopped at the gate and whatever the host publishes
meanwhile (`Draft.Stands.requireAll`).
-/


namespace ModularHost

variable {β : Type}

/-- A type that a module offers, and whether the host has one of that name by then. -/
structure Offer where
  type : NamedType
  hosted : Bool
deriving DecidableEq, Repr

/-- What export code offers, up to where it waits or panics. -/
def offersMade (gateOpen : Bool) (host : HostScope) : List Describer → List Offer
  | [] => []
  | describer :: rest =>
    if describer.waits && !gateOpen then []
    else match describer.answer with
      | .error _ => []
      | .ok offered => ⟨offered, host.contains offered.name⟩ :: offersMade gateOpen host rest

/-- What an admission offers that goes on from a draft. -/
def Draft.offersMade (gateOpen : Bool) (host : HostScope) (exports : List Describer) :
    List Describer → Draft β → List Offer
  | [], _ => ModularHost.offersMade gateOpen host exports
  | describer :: rest, d =>
    if describer.waits && !gateOpen then []
    else match describer.answer with
      | .error _ => []
      | .ok wanted =>
        match d.context.resolveType host wanted.name with
        | none => []
        | some shared =>
          if shared.describes wanted.type then
            offersMade gateOpen host exports rest
              { d with dependencies := d.dependencies ++ [shared] }
          else []

/-- The types offered under names that the host did not have. -/
def freeTypes (offers : List Offer) : List NamedType :=
  (offers.filter fun o => !o.hosted).map (·.type)

/-- What some types add to what a context exports: one descriptor for each new name. -/
def exportsFrom (id : ContextId) : List SharedType → List NamedType → List SharedType
  | _, [] => []
  | taken, t :: rest =>
    if taken.any (·.name == t.name) then exportsFrom id taken rest
    else
      let shared : SharedType := ⟨t.name, t.type, .context id, taken.length⟩
      shared :: exportsFrom id (taken ++ [shared]) rest

/-- The type a descriptor was made for. -/
def SharedType.named (s : SharedType) : NamedType := ⟨s.name, s.type⟩

/-! ## The first of each name -/

section ExportsFrom

variable {id : ContextId} {shared : SharedType}

theorem exportsFrom_append (taken : List SharedType) (earlier later : List NamedType) :
    exportsFrom id taken (earlier ++ later) = exportsFrom id taken earlier ++
      exportsFrom id (taken ++ exportsFrom id taken earlier) later := by
  induction earlier generalizing taken with
  | nil => simp [exportsFrom]
  | cons t rest ih =>
    simp only [List.cons_append, exportsFrom]
    split
    · exact ih taken
    · rw [ih]
      simp

/-- A descriptor is added for the first type of a name that nothing had before. -/
theorem of_mem_exportsFrom {taken : List SharedType} {types : List NamedType}
    (h : shared ∈ exportsFrom id taken types) :
    shared.origin = .context id ∧ (∀ old ∈ taken, old.name ≠ shared.name) ∧
      types.find? (·.name == shared.name) = some shared.named := by
  induction types generalizing taken with
  | nil => cases h
  | cons t rest ih =>
    unfold exportsFrom at h
    split at h
    · -- something has the name already, so it is not the one in question
      rename_i htaken
      obtain ⟨horigin, hfresh, hfirst⟩ := ih h
      refine ⟨horigin, hfresh, ?_⟩
      obtain ⟨old, hold, hname⟩ := List.any_eq_true.1 htaken
      have hne : t.name ≠ shared.name := fun heq =>
        hfresh old hold ((by simpa using hname : old.name = t.name).trans heq)
      rw [List.find?_cons_of_neg (by simpa using hne)]
      exact hfirst
    · rename_i hfree
      rcases List.mem_cons.1 h with rfl | h
      · refine ⟨rfl, fun old hold heq => hfree ?_, List.find?_cons_of_pos (by simp)⟩
        exact List.any_eq_true.2 ⟨old, hold, by simpa using heq⟩
      · obtain ⟨horigin, hfresh, hfirst⟩ := ih h
        have hne : t.name ≠ shared.name :=
          hfresh ⟨t.name, t.type, .context id, taken.length⟩ (by simp)
        refine ⟨horigin, fun old hold => hfresh old (List.mem_append_left _ hold), ?_⟩
        rw [List.find?_cons_of_neg (by simpa using hne)]
        exact hfirst

/-- Every name that was offered is exported afterwards. -/
theorem exists_export_of_mem {types : List NamedType} {t : NamedType} (h : t ∈ types)
    (taken : List SharedType) : ∃ shared ∈ taken ++ exportsFrom id taken types,
      shared.name = t.name := by
  induction types generalizing taken with
  | nil => cases h
  | cons first rest ih =>
    unfold exportsFrom
    split
    · rename_i htaken
      rcases List.mem_cons.1 h with rfl | h
      · obtain ⟨old, hold, hname⟩ := List.any_eq_true.1 htaken
        exact ⟨old, List.mem_append_left _ hold, by simpa using hname⟩
      · exact ih h taken
    · rcases List.mem_cons.1 h with rfl | h
      · exact ⟨⟨t.name, t.type, .context id, taken.length⟩, by simp, rfl⟩
      · obtain ⟨shared, hmem, hname⟩ := ih h (taken ++ [⟨first.name, first.type, .context id,
          taken.length⟩])
        exact ⟨shared, by simpa using hmem, hname⟩

/-- **No name is exported twice.** -/
theorem nodup_exportsFrom {taken : List SharedType} (h : (taken.map (·.name)).Nodup)
    (types : List NamedType) :
    ((taken ++ exportsFrom id taken types).map (·.name)).Nodup := by
  induction types generalizing taken with
  | nil => simpa [exportsFrom] using h
  | cons t rest ih =>
    unfold exportsFrom
    split
    · exact ih h
    · rename_i hfree
      have hnew : ∀ old ∈ taken, ¬ old.name = t.name := fun old hold hname =>
        hfree (List.any_eq_true.2 ⟨old, hold, by simpa using hname⟩)
      have hnext : ((taken ++ [(⟨t.name, t.type, .context id, taken.length⟩ : SharedType)]).map
          (·.name)).Nodup := by
        simpa [List.nodup_append] using ⟨h, hnew⟩
      simpa using ih hnext

end ExportsFrom

/-! ## Admissions -/

/-- **Code of a module panics where it describes a type**, when the module has offered some: none if
it describes a requirement, and the exports in front of it otherwise. -/
inductive Declaration.PanicsAfter (d : Declaration β) : List NamedType → Prop
  | atRequirement {describer : Describer} {p : Panic} : describer ∈ d.requirements →
    describer.answer = .error p → PanicsAfter d []
  | atExport {offered : List NamedType} {p : Panic} {rest : List (Except Panic NamedType)} :
    d.exports.map (·.answer) = offered.map .ok ++ .error p :: rest → PanicsAfter d offered

/-- An admission into a context has added what its offers add, and has the exports left to offer. It
offers nothing before its requirements are met. -/
structure Draft.Stands (d : Draft β) (c : LoadContext β) (offers : List Offer)
    (requirements exports : List Describer) : Prop where
  context_eq : d.context = { c with exports := c.exports ++ d.exports }
  exports_eq : d.exports = exportsFrom c.id c.exports (freeTypes offers)
  offered : d.declaration.exports.map (·.answer) =
    offers.map (fun o => .ok o.type) ++ exports.map (·.answer)
  required : requirements.map (·.answer) ⊆ d.declaration.requirements.map (·.answer)
  unoffered : requirements ≠ [] → offers = []

/-- What an admission of a declaration has come to, by what it has offered. -/
def Admission.Stands (c : LoadContext β) (declaration : Declaration β) (offers : List Offer) :
    Admission β → Prop
  | .admitted c' m =>
    c' = { c with modules := c.modules ++ [m], exports := c.exports ++ m.exports } ∧
      m.name = declaration.name ∧ m.exports = exportsFrom c.id c.exports (freeTypes offers) ∧
      declaration.exports.map (·.answer) = offers.map fun o => .ok o.type
  | .refused _ => True
  | .crashed c' =>
    c' = { c with exports := c.exports ++ exportsFrom c.id c.exports (freeTypes offers) } ∧
      declaration.PanicsAfter (offers.map (·.type))
  | .waiting d requirements exports =>
    d.declaration = declaration ∧ d.Stands c offers requirements exports

namespace Draft

variable {d : Draft β} {c : LoadContext β} {offers : List Offer} {host : HostScope}
  {describer : Describer} {requirements exports : List Describer}

theorem Stands.panics_atRequirement (h : d.Stands c offers (describer :: requirements) exports)
    {p : Panic} (hp : describer.answer = .error p) :
    d.declaration.PanicsAfter (offers.map (·.type)) := by
  obtain rfl := h.unoffered (List.cons_ne_nil _ _)
  obtain ⟨describer', hmem, hanswer⟩ := List.mem_map.1 (h.required List.mem_cons_self)
  exact .atRequirement hmem (hanswer.trans hp)

theorem Stands.panics_atExport (h : d.Stands c offers [] (describer :: exports)) {p : Panic}
    (hp : describer.answer = .error p) : d.declaration.PanicsAfter (offers.map (·.type)) := by
  have hsplit : d.declaration.exports.map (·.answer) =
      (offers.map (·.type)).map .ok ++ .error p :: exports.map (·.answer) := by
    rw [h.offered, List.map_cons, hp, List.map_map]
    rfl
  exact .atExport hsplit

/-- A type that is offered joins the exports if it is the first of its name. -/
theorem Stands.offer {offered : NamedType} (h : d.Stands c offers [] (describer :: exports))
    (hanswer : describer.answer = .ok offered) :
    (d.offer host offered).Stands c (offers ++ [⟨offered, host.contains offered.name⟩]) []
      exports := by
  have hsplit : d.declaration.exports.map (·.answer) =
      (offers ++ [(⟨offered, host.contains offered.name⟩ : Offer)]).map (fun o => .ok o.type) ++
        exports.map (·.answer) := by
    rw [h.offered, List.map_cons, hanswer]
    simp
  have htaken : d.context.exports = c.exports ++ d.exports := by rw [h.context_eq]
  have hid : d.context.id = c.id := by rw [h.context_eq]
  have hexports := h.exports_eq
  unfold Draft.offer
  by_cases hhost : host.contains offered.name = true
  · rw [if_pos (by simp [hhost])]
    exact ⟨h.context_eq, by simpa [freeTypes, hhost] using hexports, hsplit, h.required, nofun⟩
  · have hfree : freeTypes (offers ++ [⟨offered, host.contains offered.name⟩]) =
        freeTypes offers ++ [offered] := by simp [freeTypes, hhost]
    by_cases hname : d.context.exports.any (·.name == offered.name) = true
    · rw [if_pos (by simp [hname])]
      refine ⟨h.context_eq, ?_, hsplit, h.required, nofun⟩
      rw [hfree, exportsFrom_append, ← hexports, ← htaken, exportsFrom, if_pos hname]
      simp [exportsFrom]
    · rw [if_neg (by simp [hhost, hname])]
      refine ⟨?_, ?_, hsplit, h.required, nofun⟩
      · simp only [h.context_eq, List.append_assoc]
      · rw [hfree, exportsFrom_append, ← hexports, ← htaken, exportsFrom, if_neg hname]
        simp [exportsFrom, hid]

theorem Stands.finish (h : d.Stands c offers [] []) :
    d.finish.Stands c d.declaration offers := by
  refine ⟨?_, rfl, h.exports_eq, by simpa using h.offered⟩
  rw [h.context_eq]

theorem Stands.offerAll (gateOpen : Bool) (exports : List Describer) :
    ∀ {d : Draft β} {offers : List Offer}, d.Stands c offers [] exports →
      (d.offerAll gateOpen host exports).Stands c d.declaration
        (offers ++ ModularHost.offersMade gateOpen host exports) := by
  induction exports with
  | nil =>
    intro d offers h
    simpa [ModularHost.offersMade, Draft.offerAll] using h.finish
  | cons describer rest ih =>
    intro d offers h
    unfold Draft.offerAll ModularHost.offersMade
    by_cases hwaits : (describer.waits && !gateOpen) = true
    · rw [if_pos hwaits, if_pos hwaits, List.append_nil]
      exact ⟨rfl, h⟩
    · rw [if_neg hwaits, if_neg hwaits]
      cases hanswer : describer.answer with
      | error p =>
        rw [List.append_nil]
        refine ⟨?_, h.panics_atExport hanswer⟩
        rw [← h.exports_eq]
        exact h.context_eq
      | ok offered =>
        have hoffered : (d.offer host offered).Stands c
            (offers ++ [⟨offered, host.contains offered.name⟩]) [] rest := h.offer hanswer
        have hnext := ih hoffered
        rw [List.append_assoc, (d.frame_offer host offered).2.1] at hnext
        exact hnext

/-- **An admission adds what it offers**, from wherever it stands. -/
theorem Stands.requireAll (gateOpen : Bool) (exports requirements : List Describer) :
    ∀ {d : Draft β} {offers : List Offer}, d.Stands c offers requirements exports →
      (d.requireAll gateOpen host exports requirements).Stands c d.declaration
        (offers ++ d.offersMade gateOpen host exports requirements) := by
  induction requirements with
  | nil =>
    intro d offers h
    exact h.offerAll gateOpen exports
  | cons describer rest ih =>
    intro d offers h
    unfold Draft.requireAll Draft.offersMade
    by_cases hwaits : (describer.waits && !gateOpen) = true
    · rw [if_pos hwaits, if_pos hwaits, List.append_nil]
      exact ⟨rfl, h⟩
    · rw [if_neg hwaits, if_neg hwaits]
      cases hanswer : describer.answer with
      | error p =>
        rw [List.append_nil]
        refine ⟨?_, h.panics_atRequirement hanswer⟩
        rw [← h.exports_eq]
        exact h.context_eq
      | ok wanted =>
        cases hshared : d.context.resolveType host wanted.name with
        | none => simp only [hshared]; trivial
        | some shared =>
          simp only [hshared]
          split
          · -- what is required says nothing of what is offered
            have hrequired := h.required
            rw [List.map_cons, List.cons_subset] at hrequired
            exact ih ⟨h.context_eq, h.exports_eq, h.offered, hrequired.2,
              fun _ => h.unoffered (List.cons_ne_nil _ _)⟩
          · trivial

end Draft
end ModularHost
