import ModularHost.Proofs.Container.Attempt
/-!
# Containers that never refuse a name they have

Where every factory makes its thing outright, without asking for another binding, a name that is
bound always resolves (`Outright.resolve`). The resolution leaves the container with the same
bindings, and as ready as before.
-/


namespace ModularHost
namespace Container

variable {β : Type} {c c' : Container β} {b : Binding β} {contract : Contract} {name : String}

/-- Every factory makes its thing outright, and none is running. -/
def Outright (c : Container β) : Prop :=
  ∀ b ∈ c.bindings, b.busy = false ∧ ∃ body, b.factory = .make body

/-- The contracts and names of the bindings, in the order of their registration. -/
def labels (c : Container β) : List (Contract × String) :=
  c.bindings.map fun b => (b.contract, b.name)

theorem bindings_empty : (empty : Container β).bindings = [] := by
  simp [bindings, Entry.sort, empty]

theorem outright_empty : (empty : Container β).Outright := by
  simp [Outright, bindings_empty]

theorem labels_empty : (empty : Container β).labels = [] := by
  simp [labels, bindings_empty]

theorem mem_of_get? {key : BindingKey} (h : c.get? key = some b) : b ∈ c.bindings := by
  rw [get?_eq_find?] at h
  exact List.mem_of_find?_eq_some h

/-- The binding of a key is the only one that has it. -/
theorem eq_of_key_eq {x : Binding β} (hb : c.get? b.key = some b) (hx : x ∈ c.bindings)
    (hkey : x.key = b.key) : x = b := by
  have hfind : c.get? x.key = some x := find?_of_mem hx (Contract.same_iff.2 rfl)
  rw [hkey, hb] at hfind
  exact (Option.some.inj hfind).symm

/-- A change of one binding that leaves its contract, its name and its factory. -/
theorem Outright.of_bindings_eq (h : c.Outright) (after : Binding β → Binding β)
    (hb : c.get? b.key = some b)
    (hc' : c'.bindings = c.bindings.map fun x => if x.key = b.key then after x else x)
    (hafter : (after b).contract = b.contract ∧ (after b).name = b.name ∧
      (after b).factory = b.factory ∧ (after b).busy = false) :
    c'.Outright ∧ c'.labels = c.labels := by
  obtain ⟨hcontract, hname, hfactory, hbusy⟩ := hafter
  have hchanged : ∀ x ∈ c.bindings, x.key = b.key → x = b := fun x hx => eq_of_key_eq hb hx
  constructor
  · intro y hy
    rw [hc'] at hy
    obtain ⟨x, hx, rfl⟩ := List.mem_map.1 hy
    by_cases hkey : x.key = b.key
    · rw [if_pos hkey, hchanged x hx hkey]
      exact ⟨hbusy, hfactory ▸ (h b (mem_of_get? hb)).2⟩
    · rw [if_neg hkey]
      exact h x hx
  · rw [labels, hc', List.map_map]
    refine List.map_congr_left fun x hx => ?_
    by_cases hkey : x.key = b.key
    · simp [hchanged x hx hkey, hcontract, hname]
    · simp [hkey]

/-- **A name that is bound resolves**, and the container keeps its bindings. -/
theorem Outright.resolve (h : c.Outright) (hf : c.find? contract name = some b) :
    ∃ i c', c.resolve contract name = (.ok i, c') ∧ c'.Outright ∧ c'.labels = c.labels := by
  rcases held_or_unheld b with ⟨hl, made, hcell⟩ | hu
  · exact ⟨_, c, resolve_of_held hf hl hcell, h, rfl⟩
  · have hget := get?_of_find? hf
    obtain ⟨hbusy, body, hfactory⟩ := h b (mem_of_get? hget)
    have hattempt : c.attempt b = (.ok (.fresh body), c.start b.key) := by
      simp [attempt, hfactory, Factory.run]
    have hstarted : ((c.start b.key).mint body).2.bindings =
        c.bindings.map fun x => if x.key = b.key then x.start else x :=
      @bindings_update β c b.key Binding.start Binding.key_start
    rw [resolve_eq_conclude hf hu hbusy, hattempt]
    cases hl : b.lifetime with
    | singleton =>
      refine ⟨_, _, rfl, h.of_bindings_eq (·.start.hold ((c.start b.key).mint body).1) hget ?_ ?_⟩
      · simp only [hl, keep, bindings_update, produce, hstarted, List.map_map]
        refine List.map_congr_left fun x _ => ?_
        by_cases hkey : x.key = b.key <;> simp [hkey, Binding.key_start]
      · exact ⟨rfl, rfl, rfl, rfl⟩
    | transient =>
      refine ⟨_, _, rfl, h.of_bindings_eq Binding.start hget ?_ ?_⟩
      · simp only [hl]
        exact hstarted
      · exact ⟨rfl, rfl, rfl, by simp [Binding.start, hl]⟩

end Container
end ModularHost
