import Mathlib.Algebra.GroupWithZero.Nat
import ModularHost.Proofs.Container.Renaming
import ModularHost.Proofs.Module.Locality
/-!
# The same registrations in another order

Steps that bind something may be done in another order. They add the same bindings then, in that
order (`map_boundBy`), but for one thing: an instance that a step makes takes the next number, so
other instances get other numbers. As long as no factory knows instances by such numbers, there is a
renaming that takes the bindings of the one order to those of the other (`alike_of_perm`), and
look-ups in the two containers are answered alike.
-/


namespace ModularHost

variable {β : Type} {ρ ρ' : Equiv.Perm Nat} {step : RegisterStep β}
  {steps steps' : List (RegisterStep β)}

/-! ## What shows of a binding -/

/-- What a binding is to those who list bindings. -/
def Binding.shown (b : Binding β) : Contract × String × Lifetime × Bool :=
  (b.contract, b.name, b.lifetime, b.materialized)

/-- What does not depend on numbers is the same of what a step adds first and what it adds later. -/
theorem map_boundBy {α : Type} (f : Binding β → α)
    (hf : ∀ (step : RegisterStep β) m m', (step.binding? m).map f = (step.binding? m').map f)
    (steps : List (RegisterStep β)) : ∀ minted,
      (boundBy minted steps).map f = steps.filterMap fun step => (step.binding? 0).map f := by
  induction steps with
  | nil => intro minted; rfl
  | cons step rest ih =>
    intro minted
    have hstep : (step.binding? minted).toList.map f = ((step.binding? 0).map f).toList := by
      rw [← hf step minted 0]
      cases step.binding? minted <;> rfl
    rw [RegisterStep.boundBy_cons, List.map_append, hstep, ih, List.filterMap_cons]
    cases (step.binding? 0).map f <;> rfl

theorem shown_binding? (step : RegisterStep β) (m m' : Nat) :
    (step.binding? m).map Binding.shown = (step.binding? m').map Binding.shown := by
  cases step <;> rfl

theorem weight_binding? (step : RegisterStep β) (m m' : Nat) :
    (step.binding? m).map (·.factory.weight) = (step.binding? m').map (·.factory.weight) := by
  cases step <;> rfl

/-- **Steps in another order show the same bindings**, in another order. -/
theorem shown_boundBy_perm (h : steps.Perm steps') (m m' : Nat) :
    ((boundBy m steps).map Binding.shown).Perm ((boundBy m' steps').map Binding.shown) := by
  rw [map_boundBy _ shown_binding?, map_boundBy _ shown_binding?]
  exact h.filterMap _

theorem weight_boundBy_perm (h : steps.Perm steps') (m m' : Nat) :
    ((boundBy m steps).map (·.factory.weight)).Perm
      ((boundBy m' steps').map (·.factory.weight)) := by
  rw [map_boundBy _ weight_binding?, map_boundBy _ weight_binding?]
  exact h.filterMap _

/-! ## What instances are known by -/

/-- A step knows no instance by its number, but for those made before so many others. -/
def RegisterStep.Blind (made : Nat) : RegisterStep β → Prop
  | .bind _ _ _ factory => factory.Blind made
  | .bindExisting _ _ i => i.serial < made
  | .bindInstance .. | .wait | .refuse _ | .panic _ => True

/-- A binding knows no instance by its number, but for those made before so many others. -/
structure Binding.Blind (b : Binding β) (made : Nat) : Prop where
  factory : b.factory.Blind made
  cell : ∀ i, b.row.made = some i → i.serial < made

/-- The bindings of two lists are alike, in any order. -/
structure AlikeBindings (ρ : Equiv.Perm Nat) (bs bs' : List (Binding β)) : Prop where
  forth : ∀ b ∈ bs, ∃ b' ∈ bs', b.row.Alike ρ b'.row
  back : ∀ b' ∈ bs', ∃ b ∈ bs, b.row.Alike ρ b'.row

namespace AlikeBindings

variable {bs bs' bs'' : List (Binding β)}

theorem nil (ρ : Equiv.Perm Nat) : AlikeBindings ρ ([] : List (Binding β)) [] :=
  ⟨by simp, by simp⟩

theorem append {cs cs' : List (Binding β)} (h : AlikeBindings ρ bs bs')
    (h' : AlikeBindings ρ cs cs') : AlikeBindings ρ (bs ++ cs) (bs' ++ cs') := by
  refine ⟨fun b hb => ?_, fun b' hb' => ?_⟩
  · rcases List.mem_append.1 hb with hb | hb
    · obtain ⟨b', hb', halike⟩ := h.forth b hb
      exact ⟨b', List.mem_append_left _ hb', halike⟩
    · obtain ⟨b', hb', halike⟩ := h'.forth b hb
      exact ⟨b', List.mem_append_right _ hb', halike⟩
  · rcases List.mem_append.1 hb' with hb' | hb'
    · obtain ⟨b, hb, halike⟩ := h.back b' hb'
      exact ⟨b, List.mem_append_left _ hb, halike⟩
    · obtain ⟨b, hb, halike⟩ := h'.back b' hb'
      exact ⟨b, List.mem_append_right _ hb, halike⟩

theorem perm (h : AlikeBindings ρ bs bs') (hperm : bs'.Perm bs'') : AlikeBindings ρ bs bs'' := by
  refine ⟨fun b hb => ?_, fun b' hb' => h.back b' (hperm.mem_iff.2 hb')⟩
  obtain ⟨b', hb', halike⟩ := h.forth b hb
  exact ⟨b', hperm.mem_iff.1 hb', halike⟩

theorem trans (h : AlikeBindings ρ bs bs') (h' : AlikeBindings ρ' bs' bs'') :
    AlikeBindings (ρ.trans ρ') bs bs'' := by
  refine ⟨fun b hb => ?_, fun b'' hb'' => ?_⟩
  · obtain ⟨b', hb', halike⟩ := h.forth b hb
    obtain ⟨b'', hb'', halike'⟩ := h'.forth b' hb'
    exact ⟨b'', hb'', halike.trans halike'⟩
  · obtain ⟨b', hb', halike'⟩ := h'.back b'' hb''
    obtain ⟨b, hb, halike⟩ := h.back b' hb'
    exact ⟨b, hb, halike.trans halike'⟩

/-- What knows no instance that is renamed is alike to itself. -/
theorem of_blind {made : Nat} (h : ∀ b ∈ bs, b.Blind made) (hρ : ∀ n < made, ρ n = n) :
    AlikeBindings ρ bs bs := by
  have hself : ∀ b ∈ bs, b.row.Alike ρ b.row := by
    intro b hb
    refine ⟨rfl, rfl, rfl, (h b hb).factory ρ hρ, rfl, rfl, ?_⟩
    cases hmade : b.row.made with
    | none => rfl
    | some i =>
      have hserial := hρ _ ((h b hb).cell i hmade)
      simp [Instance.rename, hserial]
  exact ⟨fun b hb => ⟨b, hb, hself b hb⟩, fun b hb => ⟨b, hb, hself b hb⟩⟩

end AlikeBindings

/-- A step adds alike bindings when the instance it makes gets the number that the renaming has for
it. -/
theorem RegisterStep.alike_binding? {made m m' : Nat} (h : step.Blind made)
    (hρ : ∀ n < made, ρ n = n) (hm : step.mints = true → m' = ρ m) :
    AlikeBindings ρ (step.binding? m).toList (step.binding? m').toList := by
  have hone : ∀ b b' : Binding β, b.row.Alike ρ b'.row → AlikeBindings ρ [b] [b'] := by
    intro b b' halike
    refine ⟨fun b₁ hb₁ => ?_, fun b₁ hb₁ => ?_⟩
    · exact ⟨b', List.mem_singleton_self _, List.mem_singleton.1 hb₁ ▸ halike⟩
    · exact ⟨b, List.mem_singleton_self _, List.mem_singleton.1 hb₁ ▸ halike⟩
  cases step with
  | bind contract name lifetime factory => exact hone _ _ (.new _ _ _ (h ρ hρ))
  | bindInstance contract name body =>
    obtain rfl : m' = ρ m := hm rfl
    exact hone _ _ (Row.Alike.ofInstance contract name ⟨m, body⟩)
  | bindExisting contract name i =>
    have hserial : i.rename ρ = i := by
      rw [Instance.rename, hρ i.serial h]
    have halike := Row.Alike.ofInstance (ρ := ρ) contract name i
    rw [hserial] at halike
    exact hone _ _ halike
  | wait | refuse | panic => exact .nil ρ

/-- Steps whose instances keep their numbers add what is alike to itself. -/
theorem alike_boundBy_self {made : Nat} (hblind : ∀ step ∈ steps, step.Blind made)
    (hρ : ∀ n < made, ρ n = n) : ∀ m, (∀ n, m ≤ n → ρ n = n) →
      AlikeBindings ρ (boundBy m steps) (boundBy m steps) := by
  induction steps with
  | nil => intro m _; exact .nil ρ
  | cons step rest ih =>
    intro m hm
    rw [RegisterStep.boundBy_cons]
    refine (RegisterStep.alike_binding? (hblind step List.mem_cons_self) hρ fun _ =>
      (hm m (Nat.le_refl m)).symm).append ?_
    exact ih (fun s hs => hblind s (List.mem_cons_of_mem _ hs)) _ fun n hn => hm n (by omega)

/-- The renaming for two steps done the other way round: their numbers change only if both make an
instance. -/
theorem exists_exchange (m : Nat) (first second : Bool) :
    ∃ ρ : Equiv.Perm Nat, (∀ n < m, ρ n = n) ∧
      (∀ n, m + first.toNat + second.toNat ≤ n → ρ n = n) ∧
      (first = true → m + second.toNat = ρ m) ∧ (second = true → m = ρ (m + first.toNat)) := by
  by_cases hboth : first = true ∧ second = true
  · obtain ⟨rfl, rfl⟩ := hboth
    refine ⟨Equiv.swap m (m + 1), fun n hn => ?_, fun n hn => ?_, fun _ => ?_, fun _ => ?_⟩
    · exact Equiv.swap_apply_of_ne_of_ne (by omega) (by omega)
    · have hlarge : m + 1 + 1 ≤ n := hn
      exact Equiv.swap_apply_of_ne_of_ne (by omega) (by omega)
    · exact (Equiv.swap_apply_left m (m + 1)).symm
    · exact (Equiv.swap_apply_right m (m + 1)).symm
  · refine ⟨.refl Nat, fun _ _ => rfl, fun _ _ => rfl, fun hfirst => ?_, fun hsecond => ?_⟩
    · obtain rfl : second = false := Bool.eq_false_iff.2 fun h => hboth ⟨hfirst, h⟩
      rfl
    · obtain rfl : first = false := Bool.eq_false_iff.2 fun h => hboth ⟨h, hsecond⟩
      rfl

/-- **Of steps in another order, the bindings are alike**: the instances that are made in the one
order are renamed to those made in the other, and no others. -/
theorem alike_of_perm {made : Nat} (h : steps.Perm steps') : ∀ m, made ≤ m →
    (∀ step ∈ steps, step.Blind made) →
      ∃ ρ : Equiv.Perm Nat, (∀ n < m, ρ n = n) ∧
        (∀ n, m + steps.countP (·.mints) ≤ n → ρ n = n) ∧
        AlikeBindings ρ (boundBy m steps) (boundBy m steps') := by
  induction h with
  | nil => intro m _ _; exact ⟨.refl Nat, fun _ _ => rfl, fun _ _ => rfl, .nil _⟩
  | @cons step rest rest' hrest ih =>
    intro m hm hblind
    obtain ⟨ρ, hlow, hhigh, halike⟩ := ih (m + step.mints.toNat) (by omega)
      fun s hs => hblind s (List.mem_cons_of_mem _ hs)
    have hcount := RegisterStep.countP_mints_cons step rest
    refine ⟨ρ, fun n hn => hlow n (by omega), fun n hn => hhigh n (by omega), ?_⟩
    rw [RegisterStep.boundBy_cons, RegisterStep.boundBy_cons]
    refine (RegisterStep.alike_binding? (hblind step List.mem_cons_self)
      (fun n hn => hlow n (by omega)) fun hmints => ?_).append halike
    exact (hlow m (by rw [hmints]; exact Nat.lt_succ_self m)).symm
  | swap second first rest =>
    intro m hm hblind
    have hfirst := hblind first (by simp)
    have hsecond := hblind second (by simp)
    have hrest : ∀ s ∈ rest, s.Blind made := fun s hs => hblind s (by simp [hs])
    obtain ⟨ρ, hlow, hhigh, hone, hother⟩ := exists_exchange m first.mints second.mints
    have hmade : ∀ n < made, ρ n = n := fun n hn => hlow n (by omega)
    have hcount : m + (first :: second :: rest).countP (·.mints) =
        m + first.mints.toNat + second.mints.toNat + rest.countP (·.mints) := by
      rw [RegisterStep.countP_mints_cons, RegisterStep.countP_mints_cons]
      omega
    refine ⟨ρ, hlow, fun n hn => hhigh n (by omega), ?_⟩
    have hpair : AlikeBindings ρ
        ((first.binding? m).toList ++ (second.binding? (m + first.mints.toNat)).toList)
        ((second.binding? m).toList ++ (first.binding? (m + second.mints.toNat)).toList) :=
      ((RegisterStep.alike_binding? hfirst hmade hone).append
        (RegisterStep.alike_binding? hsecond hmade hother)).perm List.perm_append_comm
    have hlater := alike_boundBy_self hrest hmade _ hhigh
    have hboth := hpair.append hlater
    simp only [RegisterStep.boundBy_cons]
    rw [Nat.add_right_comm m second.mints.toNat, ← List.append_assoc, ← List.append_assoc]
    exact hboth
  | @trans left middle right hleft hright ih ih' =>
    intro m hm hblind
    obtain ⟨ρ, hlow, hhigh, halike⟩ := ih m hm hblind
    obtain ⟨ρ', hlow', hhigh', halike'⟩ := ih' m hm fun s hs => hblind s (hleft.mem_iff.2 hs)
    have hcount : middle.countP (·.mints) = left.countP (·.mints) := (hleft.countP_eq _).symm
    refine ⟨ρ.trans ρ', fun n hn => ?_, fun n hn => ?_, halike.trans halike'⟩
    · rw [Equiv.trans_apply, hlow n hn, hlow' n hn]
    · rw [Equiv.trans_apply, hhigh n hn, hhigh' n (by rw [hcount]; exact hn)]

/-! ## Containers whose bindings are alike -/

theorem Factory.totalWeight_eq_sum (factories : List (Factory β)) :
    totalWeight factories = (factories.map (·.weight)).sum := by
  rw [List.sum, List.foldr_map]
  rfl

namespace Container

variable {c c' : Container β}

/-- A binding that is found is among the bindings, and is one of the contract and the name. -/
theorem mem_of_find? {contract : Contract} {name : String} {b : Binding β}
    (h : c.find? contract name = some b) :
    b ∈ c.bindings ∧ b.contract.same contract = true ∧ b.name = name := by
  rw [find?, get?_eq_find?] at h
  have hkey : b.key = contract.key name := by simpa using List.find?_some h
  obtain ⟨hsame, hname⟩ := Contract.key_eq_iff.1 hkey
  exact ⟨List.mem_of_find?_eq_some h, hsame, hname⟩

/-- **Containers with alike bindings answer look-ups alike**, whatever the order they list them
in. -/
theorem ledger_alike (hbindings : AlikeBindings ρ c.bindings c'.bindings)
    (hweight : (c.bindings.map (·.factory.weight)).Perm (c'.bindings.map (·.factory.weight)))
    (hminted : c'.minted = c.minted) (hfixed : ∀ n, c.minted ≤ n → ρ n = n) :
    c.ledger.Alike ρ c'.ledger := by
  refine ⟨fun contract name => ?_, ?_, hminted, hfixed⟩
  · rw [ledger_find?, ledger_find?]
    cases hb : c.find? contract name with
    | some b =>
      obtain ⟨hmem, hsame, rfl⟩ := mem_of_find? hb
      obtain ⟨b', hmem', halike⟩ := hbindings.forth b hmem
      have hname : b'.name = b.name := halike.name
      have hcontract : b'.contract = b.contract := halike.contract
      rw [← hcontract] at hsame
      rw [← hname, find?_of_mem hmem' hsame]
      exact .some halike
    | none =>
      cases hb' : c'.find? contract name with
      | none => exact .none
      | some b' =>
        obtain ⟨hmem', hsame, rfl⟩ := mem_of_find? hb'
        obtain ⟨b, hmem, halike⟩ := hbindings.back b' hmem'
        have hname : b'.name = b.name := halike.name
        have hcontract : b'.contract = b.contract := halike.contract
        rw [hcontract] at hsame
        rw [hname, find?_of_mem hmem hsame] at hb
        cases hb
  · rw [ledger_depth, ledger_depth, depth_eq, depth_eq, Factory.totalWeight_eq_sum,
      Factory.totalWeight_eq_sum, List.map_map, List.map_map]
    exact hweight.symm.sum_nat

/-! What containers show of their bindings is what they list, in one order or another. -/

theorem names_eq_shown (c : Container β) (contract : Contract) :
    c.names contract =
      ((c.bindings.map Binding.shown).filter (·.1.same contract)).map (·.2.1) := by
  rw [names_eq, List.filter_map, List.map_map]
  rfl

theorem infos_eq_shown (c : Container β) :
    c.infos = (c.bindings.map Binding.shown).map fun (contract, name, lifetime, materialized) =>
      ⟨contract.name, name, lifetime, materialized⟩ := by
  rw [infos, List.map_map]
  rfl

theorem contains_iff_shown (c : Container β) (contract : Contract) (name : String) :
    c.contains contract name = true ↔
      ∃ shown ∈ c.bindings.map Binding.shown, shown.1.key shown.2.1 = contract.key name := by
  rw [contains_iff]
  simp only [List.mem_map, exists_exists_and_eq_and]
  rfl

/-! Containers that have taken the same steps in other orders. -/

variable {c₀ : Container β}

theorem shown_perm_of_adds (h : c₀.Adds steps c) (h' : c₀.Adds steps' c')
    (hperm : steps.Perm steps') :
    (c.bindings.map Binding.shown).Perm (c'.bindings.map Binding.shown) := by
  rw [h.bindings, h'.bindings, List.map_append, List.map_append]
  exact (shown_boundBy_perm hperm _ _).append_left _

/-- **Containers that have taken the same steps answer look-ups alike**, whatever the order the
steps were taken in. -/
theorem alike_of_adds (h : c₀.Adds steps c) (h' : c₀.Adds steps' c') (hperm : steps.Perm steps')
    (hfirst : ∀ b ∈ c₀.bindings, b.Blind c₀.minted)
    (hblind : ∀ step ∈ steps, step.Blind c₀.minted) :
    ∃ ρ : Equiv.Perm Nat, (∀ n < c₀.minted, ρ n = n) ∧ c.ledger.Alike ρ c'.ledger := by
  obtain ⟨ρ, hlow, hhigh, halike⟩ := alike_of_perm hperm _ (Nat.le_refl _) hblind
  refine ⟨ρ, hlow, ledger_alike ?_ ?_ ?_ ?_⟩
  · rw [h.bindings, h'.bindings]
    exact (AlikeBindings.of_blind hfirst hlow).append halike
  · rw [h.bindings, h'.bindings, List.map_append, List.map_append]
    exact (weight_boundBy_perm hperm _ _).append_left _
  · rw [h.minted, h'.minted, hperm.countP_eq]
  · rw [h.minted]
    exact hhigh

end Container
end ModularHost
