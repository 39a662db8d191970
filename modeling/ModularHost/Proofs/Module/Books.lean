import Mathlib.Data.List.Nodup
import ModularHost.Proofs.Module.Offers
/-!
# A context's books

What a context owns follows from the loads into it (`LoadContext.InOrder`): its modules have names,
no two the same, and its exports are what its modules added, each under a name that its module was
the first to offer. An admission that is not refused adds to the books, and keeps them in order
(`LoadContext.InOrder.push`).
-/


namespace ModularHost

variable {β : Type}

/-- A load into a context that was not refused and has come to its end. -/
structure Offering (β : Type) where
  declaration : Declaration β
  offers : List Offer
  /-- What it added to the exports. -/
  added : List SharedType
  /-- The module that came of it; none when its code panicked. -/
  owner : Option (LoadedModule β)

/-- A load under way, with the offers it has made so far. -/
structure OpenLoad (β : Type) where
  load : PendingLoad β
  offers : List Offer

/-- What a context owns, by the loads into it. -/
structure LoadContext.InOrder (c : LoadContext β) (loads : List (Offering β)) : Prop where
  modules : c.modules = loads.filterMap (·.owner)
  names : (c.modules.map (·.name)).Nodup
  named : ∀ m ∈ c.modules, Text.isBlank m.name = false
  exports : c.exports = loads.flatMap (·.added)
  distinct : (c.exports.map (·.name)).Nodup
  origin : ∀ shared ∈ c.exports, shared.origin = .context c.id
  /-- A module has offered all its declaration says, and what it added is what it exports. -/
  owned : ∀ o ∈ loads, ∀ m, o.owner = some m → m.name = o.declaration.name ∧
    o.added = m.exports ∧ o.declaration.exports.map (·.answer) = o.offers.map fun t => .ok t.type
  /-- Only a panic of its code keeps a load from having a module, and the load has offered what
  stood in front of it. -/
  broken : ∀ o ∈ loads, o.owner = none → o.declaration.PanicsAfter (o.offers.map (·.type))
  /-- What a load added it was the first to offer under a name that the host did not have. -/
  first : ∀ before o after, loads = before ++ o :: after → ∀ shared ∈ o.added,
    (freeTypes o.offers).find? (·.name == shared.name) = some shared.named ∧
      ∀ earlier ∈ before, ∀ t ∈ freeTypes earlier.offers, t.name ≠ shared.name
  /-- Nothing that was offered is missing. -/
  complete : ∀ o ∈ loads, ∀ t ∈ freeTypes o.offers, ∃ shared ∈ c.exports, shared.name = t.name
  closed : c.unloaded = true → loads = []

/-- A load under way is one of a module that may join its context. -/
structure OpenLoad.MayJoin (p : OpenLoad β) (c : LoadContext β) : Prop where
  stands : p.load.draft.Stands c p.offers p.load.requirements p.load.exports
  named : Text.isBlank p.load.draft.declaration.name = false
  distinct : ∀ m ∈ c.modules, m.name ≠ p.load.draft.declaration.name
  active : c.unloaded = false

namespace LoadContext

variable {c c' : LoadContext β} {loads : List (Offering β)} {d : Declaration β}
  {offers : List Offer} {m : LoadedModule β}

theorem inOrder_new (id : ContextId) (source : ModuleSource β) : (new id source).InOrder [] := by
  constructor <;> simp [new]

theorem inOrder_unload (c : LoadContext β) (held : Lease → Bool) :
    (c.unload held).2.InOrder [] := by
  constructor <;> simp [unload]

/-- What a context has added under the names it offers goes to the end of its books. -/
theorem InOrder.push (h : c.InOrder loads) {o : Offering β}
    (hc : c' = { c with
      modules := c.modules ++ o.owner.toList
      exports := c.exports ++ exportsFrom c.id c.exports (freeTypes o.offers) })
    (hactive : c.unloaded = false)
    (hadded : o.added = exportsFrom c.id c.exports (freeTypes o.offers))
    (hnew : ∀ m, o.owner = some m → Text.isBlank m.name = false ∧
      ∀ m' ∈ c.modules, m'.name ≠ m.name)
    (howned : ∀ m, o.owner = some m → m.name = o.declaration.name ∧ o.added = m.exports ∧
      o.declaration.exports.map (·.answer) = o.offers.map fun t => .ok t.type)
    (hbroken : o.owner = none → o.declaration.PanicsAfter (o.offers.map (·.type))) :
    c'.InOrder (loads ++ [o]) := by
  subst hc
  have hmem : ∀ {p : Offering β → Prop}, (∀ o' ∈ loads, p o') → p o →
      ∀ o' ∈ loads ++ [o], p o' := by
    intro p hloads ho o' ho'
    rcases List.mem_append.1 ho' with ho' | ho'
    · exact hloads o' ho'
    · exact List.mem_singleton.1 ho' ▸ ho
  refine
    { modules := ?_, names := ?_, named := ?_, exports := ?_, distinct := ?_, origin := ?_
      owned := hmem h.owned howned
      broken := hmem h.broken hbroken
      first := ?_, complete := ?_
      closed := fun hunloaded => by simp [hactive] at hunloaded }
  · rw [List.filterMap_append, ← h.modules]
    cases ho : o.owner <;> simp [ho]
  · cases ho : o.owner with
    | none => simpa using h.names
    | some m =>
      have hfresh := (hnew m ho).2
      simp only [Option.toList_some, List.map_append, List.map_cons, List.map_nil]
      refine List.nodup_append.2 ⟨h.names, List.nodup_singleton _, ?_⟩
      rintro name hname _ hm rfl
      obtain ⟨m', hm', rfl⟩ := List.mem_map.1 hname
      exact hfresh m' hm' (List.mem_singleton.1 hm)
  · intro m hm
    rcases List.mem_append.1 hm with hm | hm
    · exact h.named m hm
    · exact (hnew m (Option.mem_toList.1 hm)).1
  · rw [List.flatMap_append, ← h.exports]
    simp [hadded]
  · exact nodup_exportsFrom h.distinct _
  · intro shared hshared
    rcases List.mem_append.1 hshared with hshared | hshared
    · exact h.origin shared hshared
    · exact (of_mem_exportsFrom hshared).1
  · intro before o' after hsplit shared hshared
    rcases List.eq_nil_or_concat after with rfl | ⟨after', last, rfl⟩
    · -- the last entry is the new one, and nothing offered before has the name
      obtain ⟨rfl, heq⟩ := List.append_inj' hsplit rfl
      obtain rfl : o = o' := by simpa using heq
      rw [hadded] at hshared
      obtain ⟨-, hfresh, hfirst⟩ := of_mem_exportsFrom hshared
      refine ⟨hfirst, fun earlier hearlier t ht heq => ?_⟩
      obtain ⟨old, hold, hname⟩ := h.complete earlier hearlier t ht
      exact hfresh old hold (hname.trans heq)
    · have hinit : loads = before ++ o' :: after' := by
        have hsplit' : loads ++ [o] = (before ++ o' :: after') ++ [last] := by simpa using hsplit
        exact (List.append_inj' hsplit' rfl).1
      exact h.first before o' after' hinit shared hshared
  · refine hmem (fun o' ho' t ht => ?_) fun t ht => exists_export_of_mem ht c.exports
    obtain ⟨shared, hshared, hname⟩ := h.complete o' ho' t ht
    exact ⟨shared, List.mem_append_left _ hshared, hname⟩

/-- **Each export is one of a module that is owned, or was added by a load whose code panicked.** -/
theorem InOrder.mem_exports_iff (h : c.InOrder loads) {shared : SharedType} :
    shared ∈ c.exports ↔ (∃ m ∈ c.modules, shared ∈ m.exports) ∨
      ∃ o ∈ loads, o.owner = none ∧ o.declaration.PanicsAfter (o.offers.map (·.type)) ∧
        shared ∈ o.added := by
  rw [h.exports, h.modules]
  constructor
  · intro hshared
    obtain ⟨o, ho, hadded⟩ := List.mem_flatMap.1 hshared
    cases howner : o.owner with
    | none => exact .inr ⟨o, ho, howner, h.broken o ho howner, hadded⟩
    | some m =>
      have hexports := (h.owned o ho m howner).2.1
      exact .inl ⟨m, List.mem_filterMap.2 ⟨o, ho, howner⟩, hexports ▸ hadded⟩
  · rintro (⟨m, hm, hshared⟩ | ⟨o, ho, -, -, hadded⟩)
    · obtain ⟨o, ho, howner⟩ := List.mem_filterMap.1 hm
      have hexports := (h.owned o ho m howner).2.1
      exact List.mem_flatMap.2 ⟨o, ho, hexports ▸ hshared⟩
    · exact List.mem_flatMap.2 ⟨o, ho, hadded⟩

/-- **The table is what the modules export** where no load has panicked. -/
theorem InOrder.exports_eq (h : c.InOrder loads) (hall : ∀ o ∈ loads, o.owner.isSome = true) :
    c.exports = c.modules.flatMap (·.exports) := by
  rw [h.exports, h.modules]
  have howned := h.owned
  clear h
  induction loads with
  | nil => rfl
  | cons o rest ih =>
    obtain ⟨m, hm⟩ := Option.isSome_iff_exists.1 (hall o List.mem_cons_self)
    have hadded := (howned o List.mem_cons_self m hm).2.1
    rw [List.flatMap_cons, List.filterMap_cons_some hm, List.flatMap_cons, hadded,
      ih (fun o' ho' => hall o' (List.mem_cons_of_mem _ ho'))
        fun o' ho' => howned o' (List.mem_cons_of_mem _ ho')]

/-- An unloaded context is as it would be if it were unloaded again. -/
theorem InOrder.eq_of_unloaded (h : c.InOrder loads) (hu : c.unloaded = true) :
    c.modules = [] ∧ c.exports = [] ∧ ∀ held, (c.unload held).2 = c := by
  have hmodules : c.modules = [] := by rw [h.modules, h.closed hu]; rfl
  have hexports : c.exports = [] := by rw [h.exports, h.closed hu]; rfl
  refine ⟨hmodules, hexports, fun held => ?_⟩
  cases c
  simp_all [unload]

/-- A declaration is refused, or is one whose module may join. -/
theorem accept_cases (c : LoadContext β) (gateOpen : Bool) (host : HostScope) (path : Path)
    (d : Declaration β) :
    (∃ cause, c.accept gateOpen host path d = .refused cause) ∨
      c.unloaded = false ∧ Text.isBlank d.name = false ∧ (∀ m ∈ c.modules, m.name ≠ d.name) ∧
        (c.accept gateOpen host path d).Stands c d ((⟨c, path, d, [], []⟩ : Draft β).offersMade
          gateOpen host d.exports d.requirements) := by
  unfold accept
  split
  · exact .inl ⟨_, rfl⟩
  · rename_i hactive
    split
    · exact .inl ⟨_, rfl⟩
    · split
      · exact .inl ⟨_, rfl⟩
      · rename_i hnamed
        split
        · exact .inl ⟨_, rfl⟩
        · rename_i hdistinct
          refine .inr ⟨by simpa using hactive, by simpa using hnamed, by simpa using hdistinct, ?_⟩
          have hdraft : (⟨c, path, d, [], []⟩ : Draft β).Stands c [] d.requirements d.exports := by
            refine ⟨by simp, by simp [freeTypes, exportsFrom], by simp, List.Subset.refl _,
              fun _ => rfl⟩
          exact hdraft.requireAll gateOpen d.exports d.requirements

end LoadContext

/-- Code that comes to its answer describes what it would have described. -/
theorem OpenLoad.MayJoin.letThrough {c : LoadContext β} {load : PendingLoad β} {offers : List Offer}
    (h : OpenLoad.MayJoin ⟨load, offers⟩ c) : OpenLoad.MayJoin ⟨load.letThrough, offers⟩ c := by
  obtain ⟨draft, requirements, exports⟩ := load
  have hstands := h.stands
  cases requirements with
  | nil =>
    refine ⟨⟨hstands.context_eq, hstands.exports_eq, ?_, hstands.required, nofun⟩, h.named,
      h.distinct, h.active⟩
    have hoffered := hstands.offered
    cases exports <;> exact hoffered
  | cons describer rest =>
    exact ⟨⟨hstands.context_eq, hstands.exports_eq, hstands.offered, hstands.required,
      fun _ => hstands.unoffered (List.cons_ne_nil _ _)⟩, h.named, h.distinct, h.active⟩

end ModularHost
