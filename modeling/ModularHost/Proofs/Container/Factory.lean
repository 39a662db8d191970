import ModularHost.Container.Resolve
/-!
# Factories, whatever they run on

A factory reaches the store it is registered with through its `Access` alone. So whatever relates
two stores through all they grant relates them through every factory (`Factory.run_refines`), and
whatever every granted step keeps, every factory keeps (`Factory.run_preserves`). What only those
steps keep that come to an end is kept by every factory that does (`Factory.run_settles`).

Every factory is one of `Factory`: its steps are laid down beforehand, and the first that is refused
ends the run. Nothing is said of a factory that chooses its next step by what an earlier one came
to.
-/


namespace ModularHost

variable {σ τ β : Type}

namespace Access

/-- One store seen through another: each answer is the same, and the stores left behind are seen
through each other again. -/
structure Refines (A : Access σ β) (B : Access τ β) (view : σ → τ) : Prop where
  resolve : ∀ s contract name,
    B.resolve (view s) contract name = (A.resolve s contract name).map id view
  register : ∀ s contract name lifetime factory,
    B.register (view s) contract name lifetime factory
      = (A.register s contract name lifetime factory).map view
  registerNew : ∀ s contract name body,
    B.registerNew (view s) contract name body = (A.registerNew s contract name body).map view

/-- A relation between a store and what becomes of it, kept by all that a factory is granted. -/
structure Preserves (A : Access σ β) (R : σ → σ → Prop) : Prop where
  refl : ∀ s, R s s
  trans : ∀ {s t u}, R s t → R t u → R s u
  resolve : ∀ s contract name, R s (A.resolve s contract name).2
  register : ∀ {s t contract name lifetime factory},
    A.register s contract name lifetime factory = .ok t → R s t
  registerNew : ∀ {s t contract name body}, A.registerNew s contract name body = .ok t → R s t

/-- The same, of resolutions that come to an end; of those that do not, too, if `endless` holds. -/
structure Settles (A : Access σ β) (endless : Prop) (R : σ → σ → Prop) : Prop where
  refl : ∀ s, R s s
  trans : ∀ {s t u}, R s t → R t u → R s u
  resolve : ∀ s contract name, ((A.resolve s contract name).1 = .error .endless → endless) →
    R s (A.resolve s contract name).2
  register : ∀ {s t contract name lifetime factory},
    A.register s contract name lifetime factory = .ok t → R s t
  registerNew : ∀ {s t contract name body}, A.registerNew s contract name body = .ok t → R s t

end Access

theorem BuildError.ofContainerError_eq_endless_iff {e : ContainerError} :
    ofContainerError e = .endless ↔ e = .endless := by
  cases e <;> simp [ofContainerError]

namespace Factory

variable {A : Access σ β} {B : Access τ β} {view : σ → τ}

/-- **A factory cannot tell a store from what it is seen through.** -/
theorem run_refines (h : A.Refines B view) (run : Nat) (f : Factory β) :
    ∀ (found : List (Instance β)) (s : σ),
      f.run B run found (view s) = (f.run A run found s).map id view := by
  induction f with
  | make body => intro found s; rfl
  | build produce => intro found s; rfl
  | resolve contract name next ih =>
    intro found s
    simp only [Factory.run, h.resolve]
    rcases A.resolve s contract name with ⟨e | i, t⟩
    · rfl
    · exact ih (i :: found) t
  | register contract name lifetime factory next _ ih =>
    intro found s
    simp only [Factory.run, h.register]
    rcases A.register s contract name lifetime factory with e | t
    · rfl
    · exact ih found t
  | registerInstance contract name body next ih =>
    intro found s
    simp only [Factory.run, h.registerNew]
    rcases A.registerNew s contract name body with e | t
    · rfl
    · exact ih found t

/-- **What every step keeps that comes to an end, a factory keeps that does.** -/
theorem run_settles {endless : Prop} {R : σ → σ → Prop} (h : A.Settles endless R) (run : Nat)
    (f : Factory β) :
    ∀ (found : List (Instance β)) (s : σ),
      ((f.run A run found s).1 = .error .endless → endless) → R s (f.run A run found s).2 := by
  induction f with
  | make body => intro found s _; exact h.refl s
  | build produce => intro found s _; exact h.refl s
  | resolve contract name next ih =>
    intro found s hend
    have hstep := h.resolve s contract name
    simp only [Factory.run] at hend ⊢
    rcases hres : A.resolve s contract name with ⟨e | i, t⟩ <;> rw [hres] at hstep hend
    · refine hstep fun he => hend ?_
      simp only [Except.error.injEq] at he ⊢
      exact BuildError.ofContainerError_eq_endless_iff.2 he
    · exact h.trans (hstep fun he => by cases he) (ih (i :: found) t hend)
  | register contract name lifetime factory next _ ih =>
    intro found s hend
    simp only [Factory.run] at hend ⊢
    rcases hreg : A.register s contract name lifetime factory with e | t <;> rw [hreg] at hend
    · exact h.refl s
    · exact h.trans (h.register hreg) (ih found t hend)
  | registerInstance contract name body next ih =>
    intro found s hend
    simp only [Factory.run] at hend ⊢
    rcases hreg : A.registerNew s contract name body with e | t <;> rw [hreg] at hend
    · exact h.refl s
    · exact h.trans (h.registerNew hreg) (ih found t hend)

/-- **What every step keeps, a factory keeps**, whether it builds anything or not. -/
theorem run_preserves {R : σ → σ → Prop} (h : A.Preserves R) (run : Nat) (f : Factory β)
    (found : List (Instance β)) (s : σ) : R s (f.run A run found s).2 := by
  have hsettles : A.Settles True R :=
    { refl := h.refl
      trans := h.trans
      resolve := fun s contract name _ => h.resolve s contract name
      register := h.register
      registerNew := h.registerNew }
  exact run_settles hsettles run f found s fun _ => trivial

end Factory
end ModularHost
