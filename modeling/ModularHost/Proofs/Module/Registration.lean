import ModularHost.Module.Declaration
import ModularHost.Proofs.Container.Listing
/-!
# What a registration leaves behind

A registration is a list of steps that may stop anywhere: at a binding the container refuses, at an
error of the module's own, or at a panic. Nothing is taken back. What is left in the container are
the bindings of the steps before the one that stopped, in their order, after those that were there
(`registers_run`).
-/


namespace ModularHost

variable {β : Type}

/-- The bindings of some steps, when so many instances have been made before. -/
def boundBy : (minted : Nat) → List (RegisterStep β) → List (Binding β)
  | _, [] => []
  | minted, .bind contract name lifetime factory :: steps =>
    .new contract name lifetime factory :: boundBy minted steps
  | minted, .bindInstance contract name body :: steps =>
    .ofInstance contract name ⟨minted, body⟩ :: boundBy (minted + 1) steps
  | minted, .bindExisting contract name i :: steps =>
    .ofInstance contract name i :: boundBy minted steps
  | minted, .wait :: steps | minted, .refuse _ :: steps | minted, .panic _ :: steps =>
    boundBy minted steps

namespace RegisterStep

/-- What the container answers to a step that binds something. -/
def binds (c : Container β) : RegisterStep β → Option (Except ContainerError (Container β))
  | .bind contract name lifetime factory => some (c.register contract name lifetime factory)
  | .bindInstance contract name body => some (c.registerNew contract name body)
  | .bindExisting contract name i => some (c.registerInstance contract name i)
  | .wait | .refuse _ | .panic _ => none

/-- A step stops a registration with an error, the container's or the module's own. -/
def Fails (c : Container β) (e : ContainerError) (step : RegisterStep β) : Prop :=
  step.binds c = some (.error e) ∨ step = .refuse e

variable {c c₁ : Container β} {step : RegisterStep β}

theorem run_of_binds_ok {gateOpen : Bool} (h : step.binds c = some (.ok c₁))
    (steps : List (RegisterStep β)) :
    runRegistration gateOpen (step :: steps) c = runRegistration gateOpen steps c₁ := by
  cases step <;> simp_all [binds, runRegistration]

theorem run_of_binds_error {gateOpen : Bool} {e : ContainerError}
    (h : step.binds c = some (.error e)) (steps : List (RegisterStep β)) :
    runRegistration gateOpen (step :: steps) c = (.refused e, c) := by
  cases step <;> simp_all [binds, runRegistration]

/-- A step that binds puts its binding before those of the steps that follow. -/
theorem bindings_of_binds_ok (h : step.binds c = some (.ok c₁))
    (steps : List (RegisterStep β)) :
    c₁.bindings ++ boundBy c₁.minted steps = c.bindings ++ boundBy c.minted (step :: steps) := by
  cases step with
  | bind contract name lifetime factory =>
    have hadd : c.register contract name lifetime factory = .ok c₁ := Option.some.inj h
    rw [Container.bindings_add hadd, Container.minted_add hadd, List.append_assoc]
    rfl
  | bindInstance contract name body =>
    -- the instance is made first, so the steps that follow count from the next one
    have hadd : (c.mint body).2.registerInstance contract name (c.mint body).1 = .ok c₁ :=
      Option.some.inj h
    rw [Container.bindings_add hadd, Container.minted_add hadd, List.append_assoc]
    rfl
  | bindExisting contract name i =>
    have hadd : c.registerInstance contract name i = .ok c₁ := Option.some.inj h
    rw [Container.bindings_add hadd, Container.minted_add hadd, List.append_assoc]
    rfl
  | wait | refuse | panic => cases h

end RegisterStep

/-- Some steps all succeed, and add their bindings to those of the container. -/
structure Registers (c : Container β) (done : List (RegisterStep β)) (c' : Container β) : Prop where
  run : runRegistration true done c = (.completed, c')
  bindings : c'.bindings = c.bindings ++ boundBy c.minted done

/-- A registration has come to its end before the steps that are left. -/
def Registration.Stops (c : Container β) (left : List (RegisterStep β)) : Registration β → Prop
  | .completed => left = []
  | .refused e => ∃ step later, left = step :: later ∧ step.Fails c e
  | .panicked p => ∃ later, left = .panic p :: later
  | .waiting _ => False

namespace Registers

variable {c c₁ c' : Container β} {step : RegisterStep β} {done : List (RegisterStep β)}

theorem nil (c : Container β) : Registers c [] c where
  run := rfl
  bindings := by simp [boundBy]

theorem cons (h : Registers c₁ done c') (hc : step.binds c = some (.ok c₁)) :
    Registers c (step :: done) c' where
  run := (RegisterStep.run_of_binds_ok hc done).trans h.run
  bindings := h.bindings.trans (RegisterStep.bindings_of_binds_ok hc done)

theorem wait (h : Registers c done c') : Registers c (.wait :: done) c' where
  run := h.run
  bindings := h.bindings

/-- The bindings that were there come first, as they were. -/
theorem kept (h : Registers c done c') : c.bindings <+: c'.bindings := by
  rw [h.bindings]
  exact List.prefix_append _ _

end Registers

/-- **A registration leaves what it did before it stopped.** -/
theorem registers_run (steps : List (RegisterStep β)) :
    ∀ c : Container β, ∃ done left, steps = done ++ left ∧
      Registers c done (runRegistration true steps c).2 ∧
      (runRegistration true steps c).1.Stops (runRegistration true steps c).2 left := by
  induction steps with
  | nil => intro c; exact ⟨[], [], rfl, .nil c, rfl⟩
  | cons step rest ih =>
    intro c
    cases hbinds : step.binds c with
    | some outcome =>
      cases outcome with
      | ok c₁ =>
        obtain ⟨done, left, hsteps, hdone, hstop⟩ := ih c₁
        rw [RegisterStep.run_of_binds_ok hbinds]
        exact ⟨step :: done, left, by rw [hsteps]; rfl, hdone.cons hbinds, hstop⟩
      | error e =>
        rw [RegisterStep.run_of_binds_error hbinds]
        exact ⟨[], step :: rest, rfl, .nil c, step, rest, rfl, .inl hbinds⟩
    | none =>
      -- the step binds nothing: it waits at the open gate, or is where the registration stops
      cases step with
      | wait =>
        obtain ⟨done, left, hsteps, hdone, hstop⟩ := ih c
        exact ⟨.wait :: done, left, by rw [hsteps]; rfl, hdone.wait, hstop⟩
      | refuse e => exact ⟨[], _, rfl, .nil c, .refuse e, rest, rfl, .inr rfl⟩
      | panic p => exact ⟨[], _, rfl, .nil c, rest, rfl⟩
      | bind | bindInstance | bindExisting => cases hbinds

end ModularHost
