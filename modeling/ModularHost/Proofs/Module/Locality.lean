import ModularHost.Proofs.Module.Registration
/-!
# What a registration depends on

A step that binds something looks at one thing in the container: whether its own contract and name
are taken. So two containers that agree on the contracts and names of some steps answer these steps
alike, with the gate open or shut, and what the steps add to one they add to the other
(`runRegistration_congr`). Taken of one container alone, this says what a registration adds
(`runRegistration_adds`).
-/


namespace ModularHost

variable {β : Type}

namespace Container

variable {c c' : Container β} {b : Binding β}

/-- A registration takes its own contract and name, and no other. -/
theorem contains_add (h : c.add b = .ok c') (contract : Contract) (name : String) :
    c'.contains contract name = (c.contains contract name || b.key == contract.key name) := by
  rw [Bool.eq_iff_iff, Bool.or_eq_true, beq_iff_eq, contains_iff, contains_iff, bindings_add h]
  constructor
  · rintro ⟨b', hb', hk⟩
    rcases List.mem_append.1 hb' with hb' | hb'
    · exact .inl ⟨b', hb', hk⟩
    · rw [List.mem_singleton.1 hb'] at hk
      exact .inr hk
  · rintro (⟨b', hb', hk⟩ | hk)
    · exact ⟨b', List.mem_append_left _ hb', hk⟩
    · exact ⟨b, List.mem_append_right _ List.mem_cons_self, hk⟩

end Container

namespace RegisterStep

variable {c c' c₁ c₁' : Container β} {step : RegisterStep β} {contract : Contract} {name : String}

/-- The contract and the name that a step binds something under. -/
def target? : RegisterStep β → Option (Contract × String)
  | .bind contract name _ _ | .bindInstance contract name _ | .bindExisting contract name _ =>
    some (contract, name)
  | .wait | .refuse _ | .panic _ => none

/-- Whether a step makes an instance. -/
def mints : RegisterStep β → Bool
  | .bindInstance .. => true
  | _ => false

/-- What is wrong with a contract and a name that are taken or not. -/
def fault? (taken : Bool) (contract : Contract) (name : String) : Option ContainerError :=
  if Text.isBlank name then some (.invalidName contract.name)
  else if taken then some (.duplicateName contract.name name)
  else none

/-- What a step adds when it is not refused, after so many instances have been made. -/
def binding? (minted : Nat) : RegisterStep β → Option (Binding β)
  | .bind contract name lifetime factory => some (.new contract name lifetime factory)
  | .bindInstance contract name body => some (.ofInstance contract name ⟨minted, body⟩)
  | .bindExisting contract name i => some (.ofInstance contract name i)
  | .wait | .refuse _ | .panic _ => none

theorem boundBy_cons (minted : Nat) (step : RegisterStep β) (steps : List (RegisterStep β)) :
    boundBy minted (step :: steps) =
      (step.binding? minted).toList ++ boundBy (minted + step.mints.toNat) steps := by
  cases step <;> rfl

theorem countP_mints_cons (step : RegisterStep β) (steps : List (RegisterStep β)) :
    (step :: steps).countP (·.mints) = step.mints.toNat + steps.countP (·.mints) := by
  rw [List.countP_cons, Nat.add_comm]
  cases step.mints <;> rfl

theorem boundBy_append (steps' : List (RegisterStep β)) :
    ∀ (steps : List (RegisterStep β)) minted, boundBy minted (steps ++ steps') =
      boundBy minted steps ++ boundBy (minted + steps.countP (·.mints)) steps'
  | [], _ => rfl
  | step :: rest, minted => by
    rw [List.cons_append, boundBy_cons, boundBy_cons, countP_mints_cons,
      boundBy_append steps' rest, ← Nat.add_assoc, List.append_assoc]

theorem target_of_binding? {minted : Nat} {b : Binding β} (h : step.binding? minted = some b) :
    step.target? = some (b.contract, b.name) := by
  cases step <;> simp only [binding?, Option.some.injEq, reduceCtorEq] at h <;> rw [← h] <;> rfl

/-- **What a step finds in the container is whether it comes too late.** -/
theorem binds_of_target (h : step.target? = some (contract, name)) (c : Container β) :
    (∃ e, fault? (c.contains contract name) contract name = some e ∧
      step.binds c = some (.error e)) ∨
    fault? (c.contains contract name) contract name = none ∧
      ∃ c₁, step.binds c = some (.ok c₁) ∧
        (∀ contract' name', c₁.contains contract' name' =
          (c.contains contract' name' || contract.key name == contract'.key name')) ∧
        c₁.bindings = c.bindings ++ (step.binding? c.minted).toList ∧
        c₁.minted = c.minted + step.mints.toNat := by
  -- the container that the binding is entered into: making an instance is no entry
  obtain ⟨c₀, b, hbinds, hcontract, hname, hsame, hlisted, hbinding, hminted⟩ :
      ∃ (c₀ : Container β) (b : Binding β), step.binds c = some (c₀.add b) ∧
        b.contract = contract ∧ b.name = name ∧ c₀.contains = c.contains ∧
        c₀.bindings = c.bindings ∧ step.binding? c.minted = some b ∧
        c₀.minted = c.minted + step.mints.toNat := by
    cases step with
    | bind | bindExisting =>
      cases h
      exact ⟨c, _, rfl, rfl, rfl, rfl, rfl, rfl, rfl⟩
    | bindInstance contract name body =>
      cases h
      exact ⟨(c.mint body).2, _, rfl, rfl, rfl, rfl, rfl, rfl, rfl⟩
    | wait | refuse | panic => cases h
  have hkey : b.key = contract.key name := by rw [Binding.key, hcontract, hname]
  rw [hbinds]
  rcases Container.add_cases c₀ b with ⟨hblank, hadd⟩ | ⟨hblank, htaken, hadd⟩ |
      ⟨hblank, hfree, c₁, hadd, -, -⟩ <;> rw [hname] at hblank
  · exact .inl ⟨.invalidName contract.name, by simp [fault?, hblank], by rw [hadd, hcontract]⟩
  · rw [hcontract, hname, hsame] at htaken
    exact .inl ⟨.duplicateName contract.name name, by simp [fault?, hblank, htaken],
      by rw [hadd, hcontract, hname]⟩
  · rw [hcontract, hname, hsame] at hfree
    refine .inr ⟨by simp [fault?, hblank, hfree], c₁, by rw [hadd], fun contract' name' => ?_, ?_,
      ?_⟩
    · rw [Container.contains_add hadd, hsame, hkey]
    · rw [Container.bindings_add hadd, hlisted, hbinding]
      rfl
    · rw [Container.minted_add hadd, hminted]

end RegisterStep

/-! ## Registrations -/

/-- Some steps have added their bindings, and made their instances. -/
structure Container.Adds (c : Container β) (done : List (RegisterStep β)) (c' : Container β) :
    Prop where
  bindings : c'.bindings = c.bindings ++ boundBy c.minted done
  minted : c'.minted = c.minted + done.countP (·.mints)

/-- What a registration has left undone. -/
def Registration.Leaves (left : List (RegisterStep β)) : Registration β → Prop
  | .completed => left = []
  | .waiting steps => steps = left
  | .refused _ | .panicked _ => True

namespace Container.Adds

variable {c c₁ c' : Container β} {step : RegisterStep β} {done : List (RegisterStep β)}

theorem nil (c : Container β) : c.Adds [] c where
  bindings := by simp [boundBy]
  minted := by simp

/-- What a step adds comes before what the steps after it add. -/
theorem cons (h : c₁.Adds done c')
    (hbindings : c₁.bindings = c.bindings ++ (step.binding? c.minted).toList)
    (hminted : c₁.minted = c.minted + step.mints.toNat) : c.Adds (step :: done) c' where
  bindings := by
    rw [h.bindings, hbindings, hminted, RegisterStep.boundBy_cons, List.append_assoc]
  minted := by
    rw [h.minted, hminted, RegisterStep.countP_mints_cons, Nat.add_assoc]

theorem append {done' : List (RegisterStep β)} (h : c.Adds done c₁) (h' : c₁.Adds done' c') :
    c.Adds (done ++ done') c' where
  bindings := by
    rw [h'.bindings, h.bindings, h.minted, RegisterStep.boundBy_append, List.append_assoc]
  minted := by
    rw [h'.minted, h.minted, List.countP_append, Nat.add_assoc]

theorem wait (h : c.Adds done c') : c.Adds (.wait :: done) c' :=
  h.cons (by simp [RegisterStep.binding?]) rfl

end Container.Adds

/-- Each of two containers has the contracts and names of some steps that the other has. -/
def RegisterStep.Agree (steps : List (RegisterStep β)) (c c' : Container β) : Prop :=
  ∀ step ∈ steps, ∀ contract name, step.target? = some (contract, name) →
    c.contains contract name = c'.contains contract name

/-- **A registration comes to the same, and adds the same**, wherever its own contracts and names
are taken alike. -/
theorem runRegistration_congr (gateOpen : Bool) (steps : List (RegisterStep β)) :
    ∀ c : Container β, ∃ done left, steps = done ++ left ∧
      (runRegistration gateOpen steps c).1.Leaves left ∧
      ∀ c' : Container β, RegisterStep.Agree steps c c' →
        c'.Adds done (runRegistration gateOpen steps c').2 ∧
        (runRegistration gateOpen steps c').1 = (runRegistration gateOpen steps c).1 := by
  induction steps with
  | nil => intro c; exact ⟨[], [], rfl, rfl, fun c' _ => ⟨.nil c', rfl⟩⟩
  | cons step rest ih =>
    intro c
    cases htarget : step.target? with
    | some target =>
      obtain ⟨contract, name⟩ := target
      -- what the step finds in another container is what it finds in this one
      have hsame : ∀ c', RegisterStep.Agree (step :: rest) c c' →
          c.contains contract name = c'.contains contract name := fun c' hagree =>
        hagree step List.mem_cons_self contract name htarget
      rcases RegisterStep.binds_of_target htarget c with
        ⟨e, he, hc⟩ | ⟨he, c₁, hc, hin, -, -⟩
      · rw [RegisterStep.run_of_binds_error hc]
        refine ⟨[], step :: rest, rfl, trivial, fun c' hagree => ?_⟩
        rw [hsame c' hagree] at he
        rcases RegisterStep.binds_of_target htarget c' with ⟨e', he', hc'⟩ | ⟨he', -⟩
        · obtain rfl : e = e' := Option.some.inj (he.symm.trans he')
          rw [RegisterStep.run_of_binds_error hc']
          exact ⟨.nil c', rfl⟩
        · cases he.symm.trans he'
      · obtain ⟨done, left, hsteps, hleft, hall⟩ := ih c₁
        rw [RegisterStep.run_of_binds_ok hc]
        refine ⟨step :: done, left, by rw [hsteps]; rfl, hleft, fun c' hagree => ?_⟩
        rw [hsame c' hagree] at he
        rcases RegisterStep.binds_of_target htarget c' with
          ⟨e', he', -⟩ | ⟨-, c₁', hc', hin', hbindings, hminted⟩
        · cases he.symm.trans he'
        · -- both take the binding, and agree on the steps that are left as before
          have hagree' : RegisterStep.Agree rest c₁ c₁' := by
            intro s hs contract' name' ht
            rw [hin, hin', hagree s (List.mem_cons_of_mem _ hs) contract' name' ht]
          obtain ⟨hadds, hrun⟩ := hall c₁' hagree'
          rw [RegisterStep.run_of_binds_ok hc']
          exact ⟨hadds.cons hbindings hminted, hrun⟩
    | none =>
      have hrest : ∀ c', RegisterStep.Agree (step :: rest) c c' → RegisterStep.Agree rest c c' :=
        fun c' hagree s hs => hagree s (List.mem_cons_of_mem _ hs)
      cases step with
      | wait =>
        cases gateOpen with
        | false => exact ⟨[], .wait :: rest, rfl, rfl, fun c' _ => ⟨.nil c', rfl⟩⟩
        | true =>
          obtain ⟨done, left, hsteps, hleft, hall⟩ := ih c
          refine ⟨.wait :: done, left, by rw [hsteps]; rfl, hleft, fun c' hagree => ?_⟩
          obtain ⟨hadds, hrun⟩ := hall c' (hrest c' hagree)
          exact ⟨hadds.wait, hrun⟩
      | refuse e => exact ⟨[], _, rfl, trivial, fun c' _ => ⟨.nil c', rfl⟩⟩
      | panic p => exact ⟨[], _, rfl, trivial, fun c' _ => ⟨.nil c', rfl⟩⟩
      | bind | bindInstance | bindExisting => cases htarget

/-- **What a registration adds**: the bindings of the steps before the one it stands at. -/
theorem runRegistration_adds (gateOpen : Bool) (steps : List (RegisterStep β)) (c : Container β) :
    ∃ done left, steps = done ++ left ∧ c.Adds done (runRegistration gateOpen steps c).2 ∧
      (runRegistration gateOpen steps c).1.Leaves left := by
  obtain ⟨done, left, hsteps, hleft, hall⟩ := runRegistration_congr gateOpen steps c
  exact ⟨done, left, hsteps, (hall c fun _ _ _ _ _ => rfl).1, hleft⟩

end ModularHost
