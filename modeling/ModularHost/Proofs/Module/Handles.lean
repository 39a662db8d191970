import ModularHost.Module.Custody
import ModularHost.Proofs.Module.FreshContext
/-!
# Handles

The modules in custody are those that the handles and the records hold, each as often as it is held.
A lease is held if there is a handle to it (`Custody.holds_iff`). Whatever is taken adds to the
modules in custody just what it holds, and whatever is dropped takes from them just what it held.
-/


namespace ModularHost

variable {β : Type}

/-- How many of some modules hold a lease. -/
def Lease.among (lease : Lease) (ms : List (LoadedModule β)) : Nat :=
  ms.countP fun m => m.lease == lease

namespace Lease

variable {lease : Lease} {ms ms' : List (LoadedModule β)}

@[simp] theorem among_nil (lease : Lease) : lease.among ([] : List (LoadedModule β)) = 0 := rfl

@[simp] theorem among_append (lease : Lease) (ms ms' : List (LoadedModule β)) :
    lease.among (ms ++ ms') = lease.among ms + lease.among ms' :=
  List.countP_append

theorem among_perm (h : ms.Perm ms') (lease : Lease) : lease.among ms = lease.among ms' :=
  h.countP_eq _

theorem among_pos_iff : 0 < lease.among ms ↔ ∃ m ∈ ms, m.lease = lease := by
  simp [among, List.countP_pos_iff]

theorem among_eq_zero_iff : lease.among ms = 0 ↔ ∀ m ∈ ms, m.lease ≠ lease := by
  simp [among, List.countP_eq_zero]

end Lease

/-! ## Places -/

section Places

variable {α γ : Type} {places : List (Option α)} {place : Nat} {old : Option α}

/-- What places hold is what they hold once one of them is emptied, and what was in that one. -/
theorem perm_flatMap_set_none (f : Option α → List γ) (h : places[place]? = some old)
    (hnone : f none = []) :
    (places.flatMap f).Perm ((places.set place none).flatMap f ++ f old) := by
  induction places generalizing place with
  | nil => cases h
  | cons first rest ih =>
    cases place with
    | zero =>
      obtain rfl : first = old := by simpa using h
      simpa [hnone] using List.perm_append_comm
    | succ place =>
      have hrest : rest[place]? = some old := by simpa using h
      simpa using (ih hrest).append_left (f first)

theorem any_set_none (p : Option α → Bool) (h : places[place]? = some old)
    (hnone : p none = false) :
    places.any p = ((places.set place none).any p || p old) := by
  induction places generalizing place with
  | nil => cases h
  | cons first rest ih =>
    cases place with
    | zero =>
      obtain rfl : first = old := by simpa using h
      simp [hnone, Bool.or_comm]
    | succ place =>
      have hrest : rest[place]? = some old := by simpa using h
      simp [ih hrest, Bool.or_assoc]

end Places

namespace Custody

variable {c : Custody β} {m : LoadedModule β} {r : ModuleRecord β} {place : Nat} {lease : Lease}
  {id : ContextId}

/-- The modules that handles stand for, and those in the records. -/
def held (c : Custody β) : List (LoadedModule β) :=
  c.handles.flatMap Option.toList ++ c.records.flatMap fun r => r.toList.flatMap (·.held)

/-- How many live handles there are to the module of a lease. -/
def handlesTo (c : Custody β) (lease : Lease) : Nat := lease.among c.held

/-- Takes a handle to each of some modules. -/
def addHandles (c : Custody β) (ms : List (LoadedModule β)) : Custody β :=
  ms.foldl (fun c m => (c.addHandle m).2) c

/-- **A lease is held if there is a live handle to its module.** -/
theorem holds_iff : c.holds lease = true ↔ 0 < c.handlesTo lease := by
  have hany : c.holds lease = c.held.any (·.lease == lease) := by
    have htoList : ∀ (p : LoadedModule β → Bool) (h : Option (LoadedModule β)),
        h.any p = h.toList.any p := by
      intro p h
      cases h <;> simp
    have hrecord : ∀ r : Option (ModuleRecord β), r.any (·.holds lease) =
        (r.toList.flatMap (·.held)).any (·.lease == lease) := by
      intro r
      cases r <;> simp [ModuleRecord.holds, ModuleRecord.held]
    simp only [holds, held, List.any_append, List.any_flatMap, htoList, hrecord]
  rw [hany, handlesTo, Lease.among_pos_iff]
  simp

theorem mem_held_of_handle? (h : c.handle? place = some m) : m ∈ c.held := by
  have hplace : some m ∈ c.handles := List.mem_of_getElem? (Option.join_eq_some_iff.1 h)
  exact List.mem_append_left _ (List.mem_flatMap.2 ⟨some m, hplace, by simp⟩)

theorem mem_held_of_record? (h : c.record? place = some r) (hm : m ∈ r.held) : m ∈ c.held := by
  have hplace : some r ∈ c.records := List.mem_of_getElem? (Option.join_eq_some_iff.1 h)
  exact List.mem_append_right _ (List.mem_flatMap.2 ⟨some r, hplace, by simpa using hm⟩)

/-! ## What is taken -/

theorem held_addHandles (c : Custody β) (ms : List (LoadedModule β)) :
    (c.addHandles ms).held.Perm (c.held ++ ms) := by
  induction ms generalizing c with
  | nil => simp [addHandles]
  | cons m rest ih =>
    have hfirst : (c.addHandle m).2.held.Perm (c.held ++ [m]) := by
      simp only [held, addHandle, List.flatMap_append, List.append_assoc]
      exact List.perm_append_comm.append_left _
    have hrest := (ih (c.addHandle m).2).trans (hfirst.append_right rest)
    simpa [addHandles] using hrest

theorem held_addRecord (c : Custody β) (r : ModuleRecord β) :
    (c.addRecord r).2.held = c.held ++ r.held := by
  simp [held, addRecord]

@[simp] theorem holdsContext_addHandles (c : Custody β) (ms : List (LoadedModule β))
    (id : ContextId) : (c.addHandles ms).holdsContext id = c.holdsContext id := by
  induction ms generalizing c with
  | nil => rfl
  | cons m rest ih => exact ih (c.addHandle m).2

theorem holdsContext_addRecord (c : Custody β) (r : ModuleRecord β) (id : ContextId) :
    (c.addRecord r).2.holdsContext id = (c.holdsContext id || r.context == some id) := by
  simp [holdsContext, addRecord, Bool.or_assoc]

theorem holdsContext_append (c : Custody β) (new id : ContextId) :
    ({ c with contexts := c.contexts ++ [new] } : Custody β).holdsContext id =
      (c.holdsContext id || id = new) := by
  simp [holdsContext, Bool.or_assoc, Bool.or_comm]

/-! ## What is dropped -/

theorem held_dropHandle (h : c.handle? place = some m) :
    c.held.Perm ((c.dropHandle place).2.held ++ [m]) := by
  have hplace : c.handles[place]? = some (some m) := Option.join_eq_some_iff.1 h
  have hhandles := perm_flatMap_set_none Option.toList hplace rfl
  -- the handle that is dropped stands before the records, and is moved behind them
  refine (hhandles.append_right _).trans ?_
  simp only [held, dropHandle, List.append_assoc]
  exact List.perm_append_comm.append_left _

theorem held_dropRecord (h : c.record? place = some r) :
    c.held.Perm ((c.dropRecord place).2.held ++ r.held) := by
  have hplace : c.records[place]? = some (some r) := Option.join_eq_some_iff.1 h
  have hrecords := perm_flatMap_set_none
    (fun r : Option (ModuleRecord β) => r.toList.flatMap (·.held)) hplace rfl
  simpa [held, dropRecord] using hrecords.append_left (c.handles.flatMap Option.toList)

theorem holdsContext_dropRecord (h : c.record? place = some r) (id : ContextId) :
    c.holdsContext id = ((c.dropRecord place).2.holdsContext id || r.context == some id) := by
  have hplace : c.records[place]? = some (some r) := Option.join_eq_some_iff.1 h
  have hrecords := any_set_none (fun r : Option (ModuleRecord β) => r.any (·.context == some id))
    hplace rfl
  simp only [holdsContext, dropRecord, hrecords, Bool.or_assoc]
  rfl

theorem holdsContext_erase_of_ne {old : ContextId} (h : id ≠ old) :
    ({ c with contexts := c.contexts.erase old } : Custody β).holdsContext id =
      c.holdsContext id := by
  simp [holdsContext, List.mem_erase_of_ne h]

theorem holdsContext_of_erase {old : ContextId}
    (h : ({ c with contexts := c.contexts.erase old } : Custody β).holdsContext id = true) :
    c.holdsContext id = true := by
  unfold holdsContext at h ⊢
  rw [Bool.or_eq_true, List.contains_iff_mem] at h ⊢
  exact h.imp_left List.mem_of_mem_erase

end Custody
end ModularHost
