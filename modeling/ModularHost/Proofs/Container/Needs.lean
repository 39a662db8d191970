import ModularHost.Proofs.Container.Attempt
import Mathlib.Logic.Relation
/-!
# What factories get at

A factory gets at the bindings it resolves or registers, and through a factory that it registers at
those that one gets at. Where no factory of some keys gets at any other key, a resolution that
starts among them stays among them: every other binding is afterwards what it was before
(`Container.staysWithin_resolve`). In particular a resolution leaves alone what its binding does not
need, directly or through others.
-/


namespace ModularHost

variable {σ β : Type}

/-- The keys a factory gets at. -/
def Factory.targets : Factory β → List BindingKey
  | .make _ | .build _ => []
  | .resolve contract name next => contract.key name :: next.targets
  | .register contract name _ factory next =>
    contract.key name :: (factory.targets ++ next.targets)
  | .registerInstance contract name _ next => contract.key name :: next.targets

/-- A relation kept by all that a factory is granted, if it is granted some keys only. -/
structure Access.Confines (A : Access σ β) (K : BindingKey → Prop) (R : σ → σ → Prop) :
    Prop where
  refl : ∀ s, R s s
  trans : ∀ {s t u}, R s t → R t u → R s u
  resolve : ∀ s contract name, K (contract.key name) → R s (A.resolve s contract name).2
  register : ∀ {s t contract name lifetime factory}, K (contract.key name) →
    (∀ key ∈ factory.targets, K key) → A.register s contract name lifetime factory = .ok t → R s t
  registerNew : ∀ {s t contract name body}, K (contract.key name) →
    A.registerNew s contract name body = .ok t → R s t

/-- **What every step among some keys keeps, a factory keeps that gets at no other.** -/
theorem Factory.run_confined {A : Access σ β} {K : BindingKey → Prop} {R : σ → σ → Prop}
    (h : A.Confines K R) (run : Nat) (f : Factory β) :
    ∀ (found : List (Instance β)) (s : σ), (∀ key ∈ f.targets, K key) →
      R s (f.run A run found s).2 := by
  induction f with
  | make body => intro found s _; exact h.refl s
  | build produce => intro found s _; exact h.refl s
  | resolve contract name next ih =>
    intro found s hK
    obtain ⟨hfirst, hnext⟩ := List.forall_mem_cons.1 hK
    have hstep := h.resolve s contract name hfirst
    simp only [Factory.run]
    rcases hres : A.resolve s contract name with ⟨e | i, t⟩ <;> rw [hres] at hstep
    · exact hstep
    · exact h.trans hstep (ih (i :: found) t hnext)
  | register contract name lifetime factory next _ ih =>
    intro found s hK
    obtain ⟨hfirst, hrest⟩ := List.forall_mem_cons.1 hK
    obtain ⟨hfactory, hnext⟩ := List.forall_mem_append.1 hrest
    simp only [Factory.run]
    rcases hreg : A.register s contract name lifetime factory with e | t
    · exact h.refl s
    · exact h.trans (h.register hfirst hfactory hreg) (ih found t hnext)
  | registerInstance contract name body next ih =>
    intro found s hK
    obtain ⟨hfirst, hnext⟩ := List.forall_mem_cons.1 hK
    simp only [Factory.run]
    rcases hreg : A.registerNew s contract name body with e | t
    · exact h.refl s
    · exact h.trans (h.registerNew hfirst hreg) (ih found t hnext)

namespace Container

variable {c c' c'' : Container β} {b : Binding β} {K : BindingKey → Prop} {key : BindingKey}

/-- The factory of one binding gets at another. -/
def Needs (c : Container β) (key key' : BindingKey) : Prop :=
  ∃ b, c.get? key = some b ∧ key' ∈ b.factory.targets

/-- The factories of some keys get at no other keys. -/
def Encloses (c : Container β) (K : BindingKey → Prop) : Prop :=
  ∀ key key', K key → c.Needs key key' → K key'

/-- Nothing was done outside of some keys, and their factories still get at no other. -/
structure StaysWithin (K : BindingKey → Prop) (c c' : Container β) : Prop where
  encloses : c'.Encloses K
  outside : ∀ key, ¬ K key → c'.get? key = c.get? key

theorem StaysWithin.refl (h : c.Encloses K) : StaysWithin K c c := ⟨h, fun _ _ => rfl⟩

theorem StaysWithin.trans (h : StaysWithin K c c') (h' : StaysWithin K c' c'') :
    StaysWithin K c c'' :=
  ⟨h'.encloses, fun key hkey => (h'.outside key hkey).trans (h.outside key hkey)⟩

/-- What some keys need, directly or through others, is a closed whole. -/
theorem encloses_needed (c : Container β) (start : BindingKey → Prop) :
    c.Encloses fun key => ∃ first, start first ∧ Relation.ReflTransGen c.Needs first key := by
  rintro key key' ⟨first, hfirst, hreach⟩ hneeds
  exact ⟨first, hfirst, hreach.tail hneeds⟩

/-! ## Registering and changing -/

theorem staysWithin_add (h : c.Encloses K) (hadd : c.add b = .ok c') (hb : K b.key)
    (htargets : ∀ key ∈ b.factory.targets, K key) : StaysWithin K c c' := by
  refine ⟨?_, fun key hkey => ?_⟩
  · rintro key key' hkey ⟨x, hx, htarget⟩
    rw [get?_add hadd] at hx
    split at hx
    · cases hx
      exact htargets key' htarget
    · exact h key key' hkey ⟨x, hx, htarget⟩
  · rw [get?_add hadd, if_neg]
    rintro rfl
    exact hkey hb

/-- A change of a binding within that leaves its factory. -/
theorem staysWithin_update (h : c.Encloses K) (hkey : K key) {f : Binding β → Binding β}
    (hf : ∀ b, (f b).key = b.key) (hfactory : ∀ b, (f b).factory = b.factory) :
    StaysWithin K c (c.update key f hf) := by
  refine ⟨?_, fun key' hkey' => ?_⟩
  · rintro k k' hk ⟨x, hx, htarget⟩
    rw [get?_update] at hx
    split at hx
    · obtain ⟨old, hold, rfl⟩ := Option.map_eq_some_iff.1 hx
      rw [hfactory] at htarget
      exact h k k' hk ⟨old, hold, htarget⟩
    · exact h k k' hk ⟨x, hx, htarget⟩
  · rw [get?_update, if_neg]
    rintro rfl
    exact hkey' hkey

/-! ## Resolving -/

/-- A way of resolving that stays within any keys it starts from. -/
def Stays (resolve : Resolver β) : Prop :=
  ∀ (K : BindingKey → Prop) (c : Container β) (contract : Contract) (name : String),
    c.Encloses K → K (contract.key name) → StaysWithin K c (resolve c contract name).2

variable {resolve : Resolver β}

theorem confines_access (h : Stays resolve) (K : BindingKey → Prop) :
    (access resolve).Confines K fun c c' => c.Encloses K → StaysWithin K c c' where
  refl _ := .refl
  trans hst htu hs := (hst hs).trans (htu (hst hs).encloses)
  resolve c contract name hK hc := h K c contract name hc hK
  register hK htargets hreg hc := staysWithin_add hc hreg hK htargets
  registerNew {c c' contract name body} hK hreg hc := by
    -- making the instance changes no binding
    have hadd := staysWithin_add (c := (c.mint body).2) (K := K)
      (b := .ofInstance contract name (c.mint body).1) hc hreg hK fun _ hkey => by cases hkey
    exact ⟨hadd.encloses, hadd.outside⟩

theorem staysWithin_conclude {made : Except BuildError (Product β)} (h : c.Encloses K)
    (hb : K b.key) : StaysWithin K c (conclude b (made, c)).2 := by
  rcases made with (reason | -) | product
  · exact staysWithin_update h hb Binding.key_release fun _ => rfl
  · exact .refl h
  · have hmade : StaysWithin K c (c.produce product).2 := by
      refine ⟨?_, fun key _ => get?_produce c product key⟩
      rintro key key' hkey ⟨x, hx, htarget⟩
      rw [get?_produce] at hx
      exact h key key' hkey ⟨x, hx, htarget⟩
    cases hl : b.lifetime with
    | singleton =>
      simp only [conclude, hl]
      exact hmade.trans (staysWithin_update hmade.encloses hb
        (fun x => x.key_hold (c.produce product).1) fun _ => rfl)
    | transient =>
      simp only [conclude, hl]
      exact hmade

theorem staysWithin_materialize (h : Stays resolve) {contract : Contract}
    (hs : b.contract.same contract = true) (hget : c.get? b.key = some b) (hc : c.Encloses K)
    (hb : K b.key) : StaysWithin K c (c.materialize resolve contract b).2 := by
  rcases held_or_unheld b with ⟨hl, made, hcell⟩ | hu
  · rw [(materialize_of_held resolve (fun _ _ _ => []) hs hl hcell).1]
    exact .refl hc
  · cases hbusy : b.busy with
    | true =>
      rw [(materialize_of_busy resolve (fun _ _ _ => []) contract hu hbusy).1]
      exact .refl hc
    | false =>
      rw [materialize_eq_conclude resolve hs hu hbusy]
      have hstart : StaysWithin K c (c.start b.key) :=
        staysWithin_update hc hb Binding.key_start fun _ => rfl
      have htargets : ∀ key ∈ b.factory.targets, K key := fun key hkey =>
        hc b.key key hb ⟨b, hget, hkey⟩
      have hrun := b.factory.run_confined (confines_access h K) b.runs [] (c.start b.key)
        htargets hstart.encloses
      generalize b.factory.run (access resolve) b.runs [] (c.start b.key) = run at hrun ⊢
      exact (hstart.trans hrun).trans (staysWithin_conclude hrun.encloses hb)

theorem stays_resolveWithin (depth : Nat) : Stays (resolveWithin (β := β) depth) := by
  induction depth with
  | zero => intro K c contract name hc _; exact .refl hc
  | succ depth ih =>
    intro K c contract name hc hK
    unfold resolveWithin
    cases hf : c.find? contract name with
    | none => exact .refl hc
    | some b =>
      have hkey : b.key = contract.key name := key_of_find? hf
      exact staysWithin_materialize ih (same_of_find?_eq_some hf).1 (get?_of_find? hf) hc
        (hkey ▸ hK)

/-- **A resolution stays among the keys that its binding needs.** -/
theorem staysWithin_resolve (hc : c.Encloses K) {contract : Contract} {name : String}
    (hK : K (contract.key name)) : StaysWithin K c (c.resolve contract name).2 :=
  stays_resolveWithin _ K c contract name hc hK

end Container
end ModularHost
