import ModularHost.Proofs.Container.Ledger
import ModularHost.Proofs.Container.Listing
/-!
# Containers refine ledgers

A container can be read as a ledger at any moment: its listing, with the instances taken out of
their erasure. The reading commutes with every operation (`ledger_register`, `ledger_resolve`,
`ledger_resolveAll`), so a container and its ledger never part. In particular no look-up ever meets
an instance of another type: a ledger has no such error to report.
-/


namespace ModularHost

variable {β : Type}

/-- A binding without its erasure. -/
def Binding.row (b : Binding β) : Row β :=
  ⟨b.contract, b.name, b.lifetime, b.factory, b.runs, b.busy, b.cell.map (·.content)⟩

/-- The ledger a container amounts to. -/
def Container.ledger (c : Container β) : Ledger β := ⟨c.bindings.map (·.row), c.minted⟩

namespace Binding

variable {b : Binding β} {contract : Contract} {name : String}

theorem isFor_row : b.row.isFor contract name = (b.key == contract.key name) := by
  rw [Bool.eq_iff_iff, beq_iff_eq, key, Contract.key_eq_iff]
  simp [row, Row.isFor]

theorem row_start (b : Binding β) : b.start.row = b.row.start := rfl

theorem row_release (b : Binding β) : b.release.row = b.row.release := rfl

theorem row_hold (i : Instance β) (b : Binding β) : (b.hold i).row = b.row.hold i := rfl

theorem info_row : b.row.info = b.info := by
  simp [row, Row.info, info, materialized]

/-- **What a binding has made fits those who find it**: they ask under its own contract. -/
theorem handOut_eq_ok {made : Erased β} (hc : b.contract.same contract = true)
    (ht : made.type = b.contract.type) : b.handOut contract made = .ok made.content := by
  have hs : made.type.same contract.type = true := by rw [ht]; exact hc
  simp [handOut, Erased.downcast?, hs]

end Binding

namespace Container

variable {c : Container β}

@[simp] theorem ledger_empty : (empty : Container β).ledger = .empty := by
  simp [ledger, Ledger.empty, empty, bindings, Entry.sort]

/-! ## Looking -/

theorem ledger_find? (contract : Contract) (name : String) :
    c.ledger.find? contract name = (c.find? contract name).map (·.row) := by
  rw [Ledger.find?, ledger, List.find?_map, find?, get?_eq_find?]
  congr 2
  funext b
  exact Binding.isFor_row

theorem ledger_any (contract : Contract) (name : String) :
    c.ledger.rows.any (·.isFor contract name) = c.contains contract name := by
  rw [Bool.eq_iff_iff, contains_iff]
  simp [ledger, Binding.isFor_row]

theorem ledger_names (contract : Contract) : c.ledger.names contract = c.names contract := by
  rw [names_eq, Ledger.names, ledger, List.filter_map, List.map_map]
  rfl

theorem ledger_infos : c.ledger.rows.map (·.info) = c.infos := by
  rw [infos, ledger, List.map_map]
  exact List.map_congr_left fun b _ => Binding.info_row

theorem ledger_size : c.ledger.rows.length = c.size := by
  simp [size_eq, ledger]

theorem ledger_depth : c.ledger.depth = c.depth := by
  rw [depth_eq, Ledger.depth, ledger, List.map_map]
  rfl

/-! ## Registering -/

/-- Both refuse for the same reason, or both append the binding. -/
theorem ledger_add (c : Container β) (b : Binding β) :
    c.ledger.add b.row = (c.add b).map ledger := by
  have hname : b.row.name = b.name := rfl
  have hcontract : b.row.contract = b.contract := rfl
  unfold Ledger.add
  rw [hname, hcontract, ledger_any]
  rcases add_cases c b with ⟨hb, h⟩ | ⟨hb, ht, h⟩ | ⟨hb, ht, c', h, hc', hm⟩
  · rw [if_pos hb, h]
    rfl
  · rw [if_neg (by simp [hb]), if_pos ht, h]
    rfl
  · rw [if_neg (by simp [hb]), if_neg (by simp [ht]), h]
    simp [Except.map, ledger, hc', hm]

theorem ledger_register (c : Container β) (contract : Contract) (name : String)
    (lifetime : Lifetime) (factory : Factory β) :
    c.ledger.register contract name lifetime factory
      = (c.register contract name lifetime factory).map ledger :=
  c.ledger_add (.new contract name lifetime factory)

theorem ledger_registerInstance (c : Container β) (contract : Contract) (name : String)
    (i : Instance β) :
    c.ledger.registerInstance contract name i
      = (c.registerInstance contract name i).map ledger :=
  c.ledger_add (.ofInstance contract name i)

theorem ledger_registerNew (c : Container β) (contract : Contract) (name : String) (body : β) :
    c.ledger.registerNew contract name body = (c.registerNew contract name body).map ledger :=
  (c.mint body).2.ledger_registerInstance contract name (c.mint body).1

/-! ## Resolving -/

/-- A change of the binding of a key is a change of its row. -/
theorem ledger_update {f : Binding β → Binding β} {g : Row β → Row β}
    {hf : ∀ b, (f b).key = b.key} (hfg : ∀ b, (f b).row = g b.row) (contract : Contract)
    (name : String) :
    (c.update (contract.key name) f hf).ledger = c.ledger.update contract name g := by
  rw [ledger, bindings_update, Ledger.update, ledger, List.map_map, List.map_map]
  refine congrArg₂ Ledger.mk (List.map_congr_left fun b _ => ?_) rfl
  simp only [Function.comp_apply, Binding.isFor_row, beq_iff_eq]
  split
  · exact hfg b
  · rfl

variable {resolve : Resolver β} {resolve' : Ledger.Resolver β}

/-- Two ways of resolving answer the same, and stay together. -/
def Agrees (resolve : Resolver β) (resolve' : Ledger.Resolver β) : Prop :=
  ∀ c contract name, resolve' (ledger c) contract name
    = (resolve c contract name).map id ledger

/-- Ways of resolving that agree make stores that no factory tells apart. -/
theorem access_refines
    (h : Agrees resolve resolve') :
    (access resolve).Refines (Ledger.access resolve') ledger where
  resolve := h
  register := ledger_register
  registerNew := ledger_registerNew

/-- Constructing runs the same factory on both, and keeps the same instance. -/
theorem ledger_construct
    (h : Agrees resolve resolve') (c : Container β) (b : Binding β) :
    c.ledger.construct resolve' b.row
      = (c.construct resolve b).map (·.map (·.content)) ledger := by
  have hrun : b.row.factory.run (Ledger.access resolve') b.row.runs []
      (c.ledger.update b.row.contract b.row.name .start)
        = (b.factory.run (access resolve) b.runs [] (c.start b.key)).map id ledger := by
    have hstart : (c.start b.key).ledger = c.ledger.update b.contract b.name .start :=
      ledger_update Binding.row_start b.contract b.name
    have h' := Factory.run_refines (access_refines h) b.runs b.factory [] (c.start b.key)
    rwa [hstart] at h'
  have hlife : b.row.lifetime = b.lifetime := rfl
  unfold Ledger.construct construct
  rw [hrun, hlife]
  rcases b.factory.run (access resolve) b.runs [] (c.start b.key)
    with ⟨(reason | -) | product, c'⟩
  · have hrelease : (c'.release b.key).ledger
        = c'.ledger.update b.contract b.name .release :=
      ledger_update Binding.row_release b.contract b.name
    exact congrArg _ hrelease.symm
  · rfl
  · have hmade : c'.ledger.produce product = (c'.produce product).map id ledger := by
      cases product <;> rfl
    have hkeep : ((c'.produce product).2.keep b.key (c'.produce product).1).ledger
        = (c'.produce product).2.ledger.update b.contract b.name (.hold (c'.produce product).1) :=
      ledger_update (Binding.row_hold _) b.contract b.name
    simp only [Prod.map, id, hmade]
    cases hl : b.lifetime with
    | singleton => exact congrArg _ hkeep.symm
    | transient => rfl

/-- What a binding has made is of the type of its contract. -/
theorem type_of_construct {resolve : Resolver β} {c : Container β} {b : Binding β}
    {made : Erased β} (h : (c.construct resolve b).1 = .ok made) : made.type = b.contract.type := by
  unfold construct at h
  rcases hrun : b.factory.run (access resolve) b.runs [] (c.start b.key)
    with ⟨(reason | -) | product, c'⟩ <;> rw [hrun] at h
  · cases h
  · cases h
  · cases hl : b.lifetime <;> simp only [hl, Except.ok.injEq] at h <;> rw [← h] <;> rfl

/-- **A binding hands out what its row hands out.** Its erasure is never in the way of those who
found it. -/
theorem ledger_materialize
    (h : Agrees resolve resolve') (c : Container β) {contract : Contract}
    {b : Binding β} (hb : b.contract.same contract = true) :
    c.ledger.materialize resolve' b.row = (c.materialize resolve contract b).map id ledger := by
  have hnew : c.ledger.construct resolve' b.row =
      ((c.construct resolve b).1.bind (b.handOut contract), (c.construct resolve b).2.ledger) := by
    rw [ledger_construct h]
    rcases hres : c.construct resolve b with ⟨e | made, c'⟩
    · rfl
    · have ht : made.type = b.contract.type := type_of_construct (by rw [hres])
      simp [Prod.map, Except.map, Except.bind, Binding.handOut_eq_ok hb ht]
  have hmake :
      (if b.row.busy then (.error .endless, c.ledger) else c.ledger.construct resolve' b.row)
        = (if b.busy then (.error .endless, c) else
            ((c.construct resolve b).1.bind (b.handOut contract),
              (c.construct resolve b).2)).map id ledger := by
    have hbusy : b.row.busy = b.busy := rfl
    rw [hbusy, hnew]
    split <;> rfl
  have hlife : b.row.lifetime = b.lifetime := rfl
  have hmade : b.row.made = b.cell.map (·.content) := rfl
  unfold Ledger.materialize materialize
  rw [hlife, hmade]
  cases hl : b.lifetime with
  | transient => simpa using hmake
  | singleton =>
    cases hcell : b.cell with
    | none => simpa using hmake
    | some made =>
      -- kept by an earlier run, and of the type of the contract since
      have ht : made.type = b.contract.type := b.cell_type made hcell
      simp [Prod.map, Binding.handOut_eq_ok hb ht]

/-- A binding that is found is found under its own contract. -/
theorem same_of_find?_eq_some {contract : Contract} {name : String} {b : Binding β}
    (h : c.find? contract name = some b) : b.contract.same contract = true ∧ b.name = name := by
  rw [find?, get?_eq_find?] at h
  have hkey : b.key = contract.key name := by simpa using List.find?_some h
  exact Contract.key_eq_iff.1 hkey

theorem agrees_resolveWithin (depth : Nat) :
    Agrees (resolveWithin depth) (Ledger.resolveWithin (β := β) depth) := by
  induction depth with
  | zero => intro c contract name; rfl
  | succ depth ih =>
    intro c contract name
    unfold Ledger.resolveWithin resolveWithin
    rw [ledger_find?]
    cases hf : c.find? contract name with
    | none => rfl
    | some b => exact ledger_materialize ih c (same_of_find?_eq_some hf).1

/-- **Resolving from a container is resolving from its ledger.** -/
theorem ledger_resolve (c : Container β) (contract : Contract) (name : String) :
    c.ledger.resolve contract name = (c.resolve contract name).map id ledger := by
  rw [Ledger.resolve, ledger_depth]
  exact agrees_resolveWithin _ c contract name

/-- Keys that lead to bindings of a contract go on doing so while bindings are resolved. -/
theorem get?_isSome_of_extends {c c' : Container β} (h : c.ledger.Extends c'.ledger)
    {contract : Contract} {name : String} (hf : (c.find? contract name).isSome) :
    (c'.find? contract name).isSome := by
  obtain ⟨b, hb⟩ := Option.isSome_iff_exists.1 hf
  obtain ⟨r, hr, -⟩ := h.find? (r := b.row) (by rw [ledger_find?, hb, Option.map_some])
  rw [ledger_find?] at hr
  obtain ⟨b', hb', -⟩ := Option.map_eq_some_iff.1 hr
  exact hb' ▸ rfl

theorem ledger_materializeAll (contract : Contract) (names : List String) :
    ∀ c : Container β, (∀ name ∈ names, (c.find? contract name).isSome) →
      c.ledger.resolveEach contract names
        = (c.materializeAll contract (names.map contract.key)).map id ledger := by
  induction names with
  | nil => intro c _; rfl
  | cons name rest ih =>
    intro c hfound
    obtain ⟨b, hb⟩ := Option.isSome_iff_exists.1 (hfound name List.mem_cons_self)
    obtain ⟨hsame, hname⟩ := same_of_find?_eq_some hb
    have hstep : c.ledger.resolve contract name
        = (c.materialize (resolveWithin c.depth) contract b).map id ledger := by
      rw [Ledger.resolve, Ledger.resolveWithin, ledger_find?, hb, Option.map_some, ledger_depth]
      exact ledger_materialize (agrees_resolveWithin _) c hsame
    -- the rest of the names is found in the container that this resolution leaves
    have hkept := Ledger.extends_resolve c.ledger contract name
    rw [hstep] at hkept
    have hget : c.get? (contract.key name) = some b := hb
    simp only [Ledger.resolveEach, List.map_cons, materializeAll, hget, hstep]
    rcases hres : c.materialize (resolveWithin c.depth) contract b with ⟨e | i, c'⟩
    · rfl
    · rw [hres] at hkept
      have hrest := ih c' fun name' hmem =>
        get?_isSome_of_extends hkept (hfound name' (List.mem_cons_of_mem _ hmem))
      simp only [Prod.map, id, hrest]
      rcases c'.materializeAll contract (rest.map contract.key) with ⟨e | found, c''⟩
      · rfl
      · rw [hname]

/-- There is a binding for every name that is listed. -/
theorem find?_isSome_of_mem_names {contract : Contract} {name : String}
    (hmem : name ∈ c.names contract) : (c.find? contract name).isSome := by
  obtain ⟨e, he, rfl⟩ := List.mem_map.1 hmem
  rw [find?, get?_eq_find?, List.find?_isSome]
  refine ⟨e.binding, mem_bindings.2 ⟨e, mem_of_mem_entriesOf he, rfl⟩, ?_⟩
  simpa [c.key_eq e (mem_of_mem_entriesOf he)] using key_eq_of_mem_entriesOf he

/-- **Resolving all of a contract is resolving each of its names in turn.** -/
theorem ledger_resolveAll (c : Container β) (contract : Contract) :
    c.ledger.resolveAll contract = (c.resolveAll contract).map id ledger := by
  rw [Ledger.resolveAll, ledger_names, resolveAll, keys_entriesOf]
  exact ledger_materializeAll contract _ c fun name hmem => find?_isSome_of_mem_names hmem

end Container
end ModularHost
