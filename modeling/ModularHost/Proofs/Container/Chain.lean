import ModularHost.Proofs.Container.Each
/-!
# Chains of constructions

A factory that registers nothing resolves some bindings in order, passes on the first refusal, and
otherwise makes something or fails by itself (`Factory.run_of_onlyResolves`). Where all factories
are so, a resolution unfolds into constructions behind constructions, and what comes of it can be
said without a bound on how far they go: either all of them complete (`Container.Completes`), or one
of them breaks, and with it those that were waiting for it, which make up a path
(`Container.Breaks`).

A resolution that comes to an end is the one or the other (`Container.unfolds_resolveWithin`), and a
chain that completes or breaks is what the resolutions come to, if they come to an end
(`Completes.gather_eq`, `Breaks.gather_eq`).
-/


namespace ModularHost

variable {σ β : Type}

/-! ## Factories that register nothing -/

namespace Factory

/-- The factory resolves some bindings, and then makes something or fails by itself. -/
def OnlyResolves : Factory β → Prop
  | .make _ | .build _ => True
  | .resolve _ _ next => next.OnlyResolves
  | .register .. | .registerInstance .. => False

/-- What the factory resolves, in order. -/
def asks : Factory β → List (Contract × String)
  | .make _ | .build _ => []
  | .resolve contract name next => (contract, name) :: next.asks
  | .register _ _ _ _ next | .registerInstance _ _ _ next => next.asks

/-- What the factory comes to by itself, once it has what it asks for. -/
def finish (run : Nat) (found : List (Instance β)) : Factory β → Except String (Product β)
  | .make body => .ok (.fresh body)
  | .build produce => produce run found
  | .resolve _ _ next | .register _ _ _ _ next | .registerInstance _ _ _ next =>
    next.finish run found

theorem targets_of_onlyResolves {f : Factory β} (h : f.OnlyResolves) :
    f.targets = f.asks.map fun ask => ask.1.key ask.2 := by
  induction f with
  | make | build => rfl
  | resolve contract name next ih => rw [targets, asks, List.map_cons, ih h]
  | register | registerInstance => exact h.elim

end Factory

/-- Resolves some bindings in order, up to the first that is refused. -/
def Access.gather (A : Access σ β) :
    List (Contract × String) → σ → Except ContainerError (List (Instance β)) × σ
  | [], s => (.ok [], s)
  | (contract, name) :: rest, s =>
    match A.resolve s contract name with
    | (.error e, s) => (.error e, s)
    | (.ok i, s) =>
      match A.gather rest s with
      | (.error e, s) => (.error e, s)
      | (.ok found, s) => (.ok (i :: found), s)

namespace Access

variable {A : Access σ β} {contract : Contract} {name : String}
  {rest : List (Contract × String)} {s t : σ}

theorem gather_cons_eq_ok_iff {found : List (Instance β)} :
    A.gather ((contract, name) :: rest) s = (.ok found, t) ↔
      ∃ i u others, A.resolve s contract name = (.ok i, u) ∧
        A.gather rest u = (.ok others, t) ∧ found = i :: others := by
  simp only [gather]
  rcases A.resolve s contract name with ⟨e | i, u⟩
  · simp
  · rcases hrest : A.gather rest u with ⟨e | others, v⟩
    · simp [hrest]
    · simp [hrest, eq_comm, and_comm]

theorem gather_cons_eq_error_iff {e : ContainerError} :
    A.gather ((contract, name) :: rest) s = (.error e, t) ↔
      A.resolve s contract name = (.error e, t) ∨
        ∃ i u, A.resolve s contract name = (.ok i, u) ∧ A.gather rest u = (.error e, t) := by
  simp only [gather]
  rcases A.resolve s contract name with ⟨e' | i, u⟩
  · simp
  · rcases hrest : A.gather rest u with ⟨e' | others, v⟩ <;> simp [hrest]

end Access

/-- What a factory comes to with what it has gathered. -/
def Factory.outcome (run : Nat) (f : Factory β) :
    Except ContainerError (List (Instance β)) → Except BuildError (Product β)
  | .ok found => (f.finish run found).mapError .failed
  | .error e => .error (.ofContainerError e)

theorem BuildError.ofContainerError_of_ne {e : ContainerError} (h : e ≠ .endless) :
    BuildError.ofContainerError e = .failed e.message := by
  cases e <;> first | rfl | exact absurd rfl h

/-- **Such a factory gathers what it asks for, and comes to its end with it.** -/
theorem Factory.run_of_onlyResolves (A : Access σ β) (run : Nat) {f : Factory β}
    (h : f.OnlyResolves) : ∀ (before : List (Instance β)) (s : σ),
      f.run A run before s =
        (f.outcome run ((A.gather f.asks s).1.map (before.reverse ++ ·)),
          (A.gather f.asks s).2) := by
  induction f with
  | make body => intro before s; rfl
  | build produce =>
    intro before s
    simp [Factory.run, Factory.asks, Access.gather, Factory.finish, Factory.outcome, Except.map]
  | resolve contract name next ih =>
    intro before s
    simp only [Factory.run, Factory.asks, Access.gather]
    rcases A.resolve s contract name with ⟨e | i, t⟩
    · rfl
    · simp only [ih h]
      rcases A.gather next.asks t with ⟨e | found, u⟩
      · rfl
      · simp [Factory.finish, Factory.outcome, Except.map]
  | register | registerInstance => exact h.elim

/-- What a binding says for good, and whether its factory is running. -/
def Binding.shape (b : Binding β) : (Contract × String × Lifetime × Factory β) × Bool :=
  (b.row.label, b.busy)

namespace Container

variable {c c' c₁ c₂ : Container β} {contract : Contract} {name : String} {b : Binding β}
  {asks rest : List (Contract × String)} {found : List (Instance β)} {i : Instance β}
  {path : List BindingKey} {e : ContainerError}

/-- No factory registers anything. -/
def OnlyResolves (c : Container β) : Prop :=
  ∀ key b, c.get? key = some b → b.factory.OnlyResolves

/-! ## Chains -/

/-- **Some bindings are resolved one after the other, and all constructions behind them
succeed.** -/
inductive Completes : Container β → List (Contract × String) → List (Instance β) →
    Container β → Prop
  | nil (c : Container β) : Completes c [] [] c
  /-- A singleton that holds something hands it out. -/
  | held {c c' : Container β} {contract : Contract} {name : String} {b : Binding β}
      {i : Instance β} {rest : List (Contract × String)} {found : List (Instance β)} :
    c.find? contract name = some b → b.lifetime = .singleton → b.held? = some i →
    Completes c rest found c' → Completes c ((contract, name) :: rest) (i :: found) c'
  /-- Any other binding is constructed, after all that its factory asks for. -/
  | made {c c₁ c' : Container β} {contract : Contract} {name : String} {b : Binding β}
      {product : Product β} {rest : List (Contract × String)} {needed found : List (Instance β)} :
    c.find? contract name = some b → b.Unheld → b.busy = false →
    Completes (c.start b.key) b.factory.asks needed c₁ →
    b.factory.finish b.runs needed = .ok product →
    Completes (conclude b (.ok product, c₁)).2 rest found c' →
    Completes c ((contract, name) :: rest) ((c₁.produce product).1 :: found) c'

/-- **Some bindings are resolved one after the other, until something is refused.** The path has the
bindings whose construction was under way then, the outermost first. -/
inductive Breaks : Container β → List (Contract × String) → List BindingKey → ContainerError →
    Container β → Prop
  | unbound {c : Container β} {contract : Contract} {name : String}
      {rest : List (Contract × String)} :
    c.find? contract name = none →
    Breaks c ((contract, name) :: rest) [] (.unresolvedName contract.name name) c
  /-- The factory has all it asks for, and fails. -/
  | itself {c c₁ : Container β} {contract : Contract} {name reason : String} {b : Binding β}
      {rest : List (Contract × String)} {needed : List (Instance β)} :
    c.find? contract name = some b → b.Unheld → b.busy = false →
    Completes (c.start b.key) b.factory.asks needed c₁ →
    b.factory.finish b.runs needed = .error reason →
    Breaks c ((contract, name) :: rest) [b.key]
      (.constructionFailed b.contract.name b.name reason) (c₁.release b.key)
  /-- The factory is refused what it asks for, and passes the refusal on. -/
  | beneath {c c₁ : Container β} {contract : Contract} {name : String} {b : Binding β}
      {rest : List (Contract × String)} {path : List BindingKey} {e : ContainerError} :
    c.find? contract name = some b → b.Unheld → b.busy = false →
    Breaks (c.start b.key) b.factory.asks path e c₁ →
    Breaks c ((contract, name) :: rest) (b.key :: path)
      (.constructionFailed b.contract.name b.name e.message) (c₁.release b.key)
  | later {c c₁ c' : Container β} {contract : Contract} {name : String} {i : Instance β}
      {rest : List (Contract × String)} {path : List BindingKey} {e : ContainerError} :
    Completes c [(contract, name)] [i] c₁ → Breaks c₁ rest path e c' →
    Breaks c ((contract, name) :: rest) path e c'

theorem Completes.cons (h : c.Completes [(contract, name)] [i] c₁)
    (hrest : c₁.Completes rest found c') :
    c.Completes ((contract, name) :: rest) (i :: found) c' := by
  cases h with
  | held hf hl hi hnil =>
    cases hnil
    exact .held hf hl hi hrest
  | made hf hu hb hneeded hfinish hnil =>
    cases hnil
    exact .made hf hu hb hneeded hfinish hrest

theorem Breaks.of_first (h : c.Breaks [(contract, name)] path e c')
    (rest : List (Contract × String)) : c.Breaks ((contract, name) :: rest) path e c' := by
  cases h with
  | unbound hf => exact .unbound hf
  | itself hf hu hb hneeded hfinish => exact .itself hf hu hb hneeded hfinish
  | beneath hf hu hb hneeded => exact .beneath hf hu hb hneeded
  | later _ hnone => cases hnone

theorem Breaks.ne_endless (h : c.Breaks asks path e c') : e ≠ .endless := by
  induction h with
  | unbound | itself | beneath => simp
  | later _ _ ih => exact ih

/-! ## What a chain leaves as it was -/

/-- The same bindings are there, and the same factories are running. -/
def Shaped (c c' : Container β) : Prop :=
  ∀ key, (c'.get? key).map Binding.shape = (c.get? key).map Binding.shape

theorem Shaped.refl (c : Container β) : Shaped c c := fun _ => rfl

theorem Shaped.trans (h : Shaped c c₁) (h' : Shaped c₁ c') : Shaped c c' := fun key =>
  (h' key).trans (h key)

/-- A binding is found again, with its factory and at rest if it was. -/
theorem Shaped.find? (h : Shaped c c') {key : BindingKey} {x : Binding β}
    (hx : c'.get? key = some x) : ∃ b, c.get? key = some b ∧ b.factory = x.factory ∧
      b.lifetime = x.lifetime ∧ b.busy = x.busy := by
  have hsame := h key
  rw [hx] at hsame
  obtain ⟨b, hb, hshape⟩ := Option.map_eq_some_iff.1 hsame.symm
  simp only [Binding.shape, Binding.row, Row.label, Prod.mk.injEq] at hshape
  exact ⟨b, hb, hshape.1.2.2.2, hshape.1.2.2.1, hshape.2⟩

theorem OnlyResolves.of_shaped (h : c.OnlyResolves) (hshaped : Shaped c c') :
    c'.OnlyResolves := by
  intro key x hx
  obtain ⟨b, hb, hfactory, -⟩ := hshaped.find? hx
  exact hfactory ▸ h key b hb

theorem OnlyResolves.start (h : c.OnlyResolves) (key : BindingKey) :
    (c.start key).OnlyResolves := by
  intro key' x hx
  rw [Container.start, get?_update] at hx
  split at hx
  · obtain ⟨b, hb, rfl⟩ := Option.map_eq_some_iff.1 hx
    exact h key' b hb
  · exact h key' x hx

/-- A run that comes to an end leaves its binding at rest. -/
theorem shaped_conclude (made : Except BuildError (Product β)) (hget : c.get? b.key = some b)
    (hb : b.busy = false) (h : Shaped (c.start b.key) c₁) (hend : made ≠ .error .endless) :
    Shaped c (conclude b (made, c₁)).2 := by
  intro key
  by_cases hk : key = b.key
  · subst hk
    have hown := h b.key
    simp only [Container.start, get?_update, if_true, hget, Option.map_some] at hown
    obtain ⟨x, hx, hshape⟩ := Option.map_eq_some_iff.1 hown
    simp only [Binding.shape, Prod.mk.injEq] at hshape
    have hlabel : x.row.label = b.row.label := hshape.1
    rw [hget, Option.map_some]
    rcases made with (reason | -) | product
    · simp only [conclude, release, get?_update, if_true, hx, Option.map_some]
      exact congrArg some (Prod.ext hlabel hb.symm)
    · exact absurd rfl hend
    · cases hl : b.lifetime with
      | singleton =>
        simp only [conclude, hl, keep, get?_update, get?_produce, if_true, hx, Option.map_some]
        exact congrArg some (Prod.ext hlabel hb.symm)
      | transient =>
        simp only [conclude, hl, get?_produce, hx, Option.map_some]
        have hidle : x.busy = b.busy := by simp [hshape.2, Binding.start, hl, hb]
        exact congrArg some (Prod.ext hlabel hidle)
  · rw [get?_conclude_of_ne hk, h key, Container.start, get?_update, if_neg hk]

theorem Completes.shaped (h : c.Completes asks found c') : Shaped c c' := by
  induction h with
  | nil c => exact .refl c
  | held _ _ _ _ ih => exact ih
  | made hf _ hb _ _ _ ihneeded ihrest =>
    exact (shaped_conclude _ (get?_of_find? hf) hb ihneeded (by simp)).trans ihrest

theorem Breaks.shaped (h : c.Breaks asks path e c') : Shaped c c' := by
  induction h with
  | unbound => exact .refl _
  | @itself _ _ _ _ reason _ _ _ hf _ hb hneeded _ =>
    exact shaped_conclude (.error (.failed reason)) (get?_of_find? hf) hb hneeded.shaped (by simp)
  | @beneath _ _ _ _ _ _ _ e hf _ hb _ ih =>
    exact shaped_conclude (.error (.failed e.message)) (get?_of_find? hf) hb ih (by simp)
  | later hfirst _ ih => exact hfirst.shaped.trans ih

/-! ## Resolutions that come to an end -/

theorem resolveWithin_of_unbound (hf : c.find? contract name = none) (depth : Nat) :
    resolveWithin (depth + 1) c contract name =
      (.error (.unresolvedName contract.name name), c) := by
  simp only [resolveWithin, hf]

theorem resolveWithin_of_held (hf : c.find? contract name = some b) (hl : b.lifetime = .singleton)
    (hi : b.held? = some i) (depth : Nat) :
    resolveWithin (depth + 1) c contract name = (.ok i, c) := by
  obtain ⟨made, hcell, rfl⟩ := Option.map_eq_some_iff.1 hi
  simp only [resolveWithin, hf]
  exact (materialize_of_held _ (fun _ _ _ => []) (same_of_find?_eq_some hf).1 hl hcell).1

theorem resolveWithin_of_busy (hf : c.find? contract name = some b) (hu : b.Unheld)
    (hb : b.busy = true) (depth : Nat) :
    resolveWithin (depth + 1) c contract name = (.error .endless, c) := by
  simp only [resolveWithin, hf]
  exact (materialize_of_busy _ (fun _ _ _ => []) contract hu hb).1

/-- **A binding with nothing to hand out gathers what its factory asks for**, and concludes. -/
theorem resolveWithin_of_idle (hc : c.OnlyResolves) (hf : c.find? contract name = some b)
    (hu : b.Unheld) (hb : b.busy = false) {depth : Nat}
    {gathered : Except ContainerError (List (Instance β))}
    (hgather : (access (resolveWithin depth)).gather b.factory.asks (c.start b.key) =
      (gathered, c₁)) :
    resolveWithin (depth + 1) c contract name =
      conclude b (b.factory.outcome b.runs gathered, c₁) := by
  have hrun := b.factory.run_of_onlyResolves (access (resolveWithin depth)) b.runs
    (hc _ b hf) [] (c.start b.key)
  simp only [resolveWithin, hf]
  rw [materialize_eq_conclude _ (same_of_find?_eq_some hf).1 hu hb, hrun, hgather]
  cases gathered <;> rfl

/-- **What a resolution can find**: nothing, something to hand out, a factory that is running, or
one that is to be run. -/
theorem find?_cases (c : Container β) (contract : Contract) (name : String) :
    c.find? contract name = none ∨ ∃ b, c.find? contract name = some b ∧
      ((b.lifetime = .singleton ∧ ∃ i, b.held? = some i) ∨ (b.Unheld ∧ b.busy = true) ∨
        (b.Unheld ∧ b.busy = false)) := by
  cases hf : c.find? contract name with
  | none => exact .inl rfl
  | some b =>
    refine .inr ⟨b, rfl, ?_⟩
    rcases held_or_unheld b with ⟨hl, made, hcell⟩ | hu
    · exact .inl ⟨hl, made.content, by simp [Binding.held?, hcell]⟩
    · cases hb : b.busy with
      | true => exact .inr (.inl ⟨hu, rfl⟩)
      | false => exact .inr (.inr ⟨hu, rfl⟩)

/-- A way of resolving that comes to a chain, wherever it comes to an end. -/
structure Unfolds (resolve : Resolver β) : Prop where
  completes : ∀ {c contract name i c'}, OnlyResolves c →
    resolve c contract name = (.ok i, c') → Completes c [(contract, name)] [i] c'
  breaks : ∀ {c contract name e c'}, OnlyResolves c →
    resolve c contract name = (.error e, c') → e ≠ .endless →
    ∃ path, Breaks c [(contract, name)] path e c'

namespace Unfolds

variable {resolve : Resolver β}

theorem completes_gather (h : Unfolds resolve) (asks : List (Contract × String)) :
    ∀ {c c' : Container β} {found : List (Instance β)}, c.OnlyResolves →
      (access resolve).gather asks c = (.ok found, c') → c.Completes asks found c' := by
  induction asks with
  | nil =>
    intro c c' found _ hall
    cases hall
    exact .nil c
  | cons ask rest ih =>
    intro c c' found hc hall
    obtain ⟨i, c₁, others, hfirst, hrest, rfl⟩ := Access.gather_cons_eq_ok_iff.1 hall
    have hchain := h.completes hc hfirst
    exact hchain.cons (ih (hc.of_shaped hchain.shaped) hrest)

theorem breaks_gather (h : Unfolds resolve) (asks : List (Contract × String)) :
    ∀ {c c' : Container β} {e : ContainerError}, c.OnlyResolves →
      (access resolve).gather asks c = (.error e, c') → e ≠ .endless →
      ∃ path, c.Breaks asks path e c' := by
  induction asks with
  | nil => intro c c' e _ hall; cases hall
  | cons ask rest ih =>
    intro c c' e hc hall hend
    rcases Access.gather_cons_eq_error_iff.1 hall with hfirst | ⟨i, c₁, hfirst, hrest⟩
    · obtain ⟨path, hbreaks⟩ := h.breaks hc hfirst hend
      exact ⟨path, hbreaks.of_first rest⟩
    · have hchain := h.completes hc hfirst
      obtain ⟨path, hbreaks⟩ := ih (hc.of_shaped hchain.shaped) hrest hend
      exact ⟨path, .later hchain hbreaks⟩

end Unfolds

/-- **A resolution that comes to an end is a chain.** -/
theorem unfolds_resolveWithin (depth : Nat) : Unfolds (resolveWithin (β := β) depth) := by
  induction depth with
  | zero =>
    refine ⟨fun _ hres => ?_, fun _ hres hend => ?_⟩
    · cases hres
    · cases hres
      exact absurd rfl hend
  | succ depth ih =>
    refine ⟨@fun c contract name i c' hc hres => ?_, @fun c contract name e c' hc hres hend => ?_⟩
    · rcases c.find?_cases contract name with
        hf | ⟨b, hf, ⟨hl, j, hj⟩ | ⟨hu, hb⟩ | ⟨hu, hb⟩⟩
      · rw [resolveWithin_of_unbound hf] at hres
        cases hres
      · rw [resolveWithin_of_held hf hl hj] at hres
        cases hres
        exact .held hf hl hj (.nil c)
      · rw [resolveWithin_of_busy hf hu hb] at hres
        cases hres
      · rcases hgather : (access (resolveWithin depth)).gather b.factory.asks (c.start b.key) with
          ⟨e | needed, c₁⟩ <;> rw [resolveWithin_of_idle hc hf hu hb hgather] at hres
        · cases e <;> cases hres
        · rcases hfinish : b.factory.finish b.runs needed with reason | product <;>
            simp only [Factory.outcome, hfinish, Except.mapError] at hres
          · cases hres
          · cases hres
            exact .made hf hu hb (ih.completes_gather _ (hc.start b.key) hgather) hfinish (.nil _)
    · rcases c.find?_cases contract name with
        hf | ⟨b, hf, ⟨hl, j, hj⟩ | ⟨hu, hb⟩ | ⟨hu, hb⟩⟩
      · rw [resolveWithin_of_unbound hf] at hres
        cases hres
        exact ⟨[], .unbound hf⟩
      · rw [resolveWithin_of_held hf hl hj] at hres
        cases hres
      · rw [resolveWithin_of_busy hf hu hb] at hres
        cases hres
        exact absurd rfl hend
      · rcases hgather : (access (resolveWithin depth)).gather b.factory.asks (c.start b.key) with
          ⟨e' | needed, c₁⟩ <;> rw [resolveWithin_of_idle hc hf hu hb hgather] at hres
        · by_cases he' : e' = .endless
          · subst he'
            cases hres
            exact absurd rfl hend
          · obtain ⟨path, hbreaks⟩ := ih.breaks_gather _ (hc.start b.key) hgather he'
            simp only [Factory.outcome, BuildError.ofContainerError_of_ne he'] at hres
            cases hres
            exact ⟨b.key :: path, .beneath hf hu hb hbreaks⟩
        · rcases hfinish : b.factory.finish b.runs needed with reason | product <;>
            simp only [Factory.outcome, hfinish, Except.mapError] at hres
          · cases hres
            exact ⟨[b.key], .itself hf hu hb (ih.completes_gather _ (hc.start b.key) hgather)
              hfinish⟩
          · cases hres

/-! ## Chains are what resolutions come to -/

/-- A construction whose factory is refused without end is itself without end. -/
theorem gather_ne_endless_of_idle (hc : c.OnlyResolves) (hf : c.find? contract name = some b)
    (hu : b.Unheld) (hb : b.busy = false) {depth : Nat}
    (hend : (resolveWithin (depth + 1) c contract name).1 ≠ .error .endless) :
    ((access (resolveWithin depth)).gather b.factory.asks (c.start b.key)).1 ≠
      .error .endless := by
  intro hgather
  refine hend ?_
  rw [resolveWithin_of_idle hc hf hu hb (Prod.ext hgather rfl)]
  rfl

/-- What gathers to an end has resolved the first to its end, with at least one step to go. -/
theorem resolveWithin_ne_endless_of_gather {depth : Nat}
    (hend : ((access (resolveWithin depth)).gather ((contract, name) :: rest) c).1 ≠
      .error .endless) :
    (resolveWithin depth c contract name).1 ≠ .error .endless ∧ ∃ d, depth = d + 1 := by
  have hfirst : (resolveWithin depth c contract name).1 ≠ .error .endless := by
    intro hres
    refine hend ?_
    rw [Access.gather_cons_eq_error_iff.2 (.inl (Prod.ext hres rfl))]
  refine ⟨hfirst, ?_⟩
  cases depth with
  | zero => exact absurd rfl hfirst
  | succ d => exact ⟨d, rfl⟩

/-- **What completes is gathered**, if that comes to an end at all. -/
theorem Completes.gather_eq (h : c.Completes asks found c') :
    c.OnlyResolves → ∀ depth,
      ((access (resolveWithin depth)).gather asks c).1 ≠ .error .endless →
      (access (resolveWithin depth)).gather asks c = (.ok found, c') := by
  induction h with
  | nil c => intro _ depth _; rfl
  | @held c c' contract name b i rest found hf hl hi hrest ih =>
    intro hc depth hend
    obtain ⟨-, d, rfl⟩ := resolveWithin_ne_endless_of_gather hend
    have hfirst := resolveWithin_of_held hf hl hi d
    refine Access.gather_cons_eq_ok_iff.2 ⟨i, c, found, hfirst, ih hc (d + 1) fun hres => ?_, rfl⟩
    exact hend (congrArg Prod.fst
      (Access.gather_cons_eq_error_iff.2 (.inr ⟨i, c, hfirst, Prod.ext hres rfl⟩)))
  | @made c c₁ c' contract name b product rest needed found hf hu hb hneeded hfinish hrest
      ihneeded ihrest =>
    intro hc depth hend
    obtain ⟨hstep, d, rfl⟩ := resolveWithin_ne_endless_of_gather hend
    have hgather := ihneeded (hc.start b.key) d (gather_ne_endless_of_idle hc hf hu hb hstep)
    have hfirst : resolveWithin (d + 1) c contract name =
        ((.ok (c₁.produce product).1), (conclude b (.ok product, c₁)).2) := by
      rw [resolveWithin_of_idle hc hf hu hb hgather]
      simp only [Factory.outcome, hfinish, Except.mapError]
      rfl
    have hshaped := shaped_conclude (.ok product) (get?_of_find? hf) hb hneeded.shaped (by simp)
    refine Access.gather_cons_eq_ok_iff.2 ⟨_, _, found, hfirst,
      ihrest (hc.of_shaped hshaped) (d + 1) fun hres => ?_, rfl⟩
    exact hend (congrArg Prod.fst
      (Access.gather_cons_eq_error_iff.2 (.inr ⟨_, _, hfirst, Prod.ext hres rfl⟩)))

/-- **What breaks is refused**, if that comes to an end at all. -/
theorem Breaks.gather_eq (h : c.Breaks asks path e c') :
    c.OnlyResolves → ∀ depth,
      ((access (resolveWithin depth)).gather asks c).1 ≠ .error .endless →
      (access (resolveWithin depth)).gather asks c = (.error e, c') := by
  induction h with
  | @unbound c contract name rest hf =>
    intro _ depth hend
    obtain ⟨-, d, rfl⟩ := resolveWithin_ne_endless_of_gather hend
    exact Access.gather_cons_eq_error_iff.2 (.inl (resolveWithin_of_unbound hf d))
  | @itself c c₁ contract name reason b rest needed hf hu hb hneeded hfinish =>
    intro hc depth hend
    obtain ⟨hstep, d, rfl⟩ := resolveWithin_ne_endless_of_gather hend
    have hgather := hneeded.gather_eq (hc.start b.key) d
      (gather_ne_endless_of_idle hc hf hu hb hstep)
    refine Access.gather_cons_eq_error_iff.2 (.inl ?_)
    show resolveWithin (d + 1) c contract name = _
    rw [resolveWithin_of_idle hc hf hu hb hgather]
    simp only [Factory.outcome, hfinish, Except.mapError]
    rfl
  | @beneath c c₁ contract name b rest path e hf hu hb hneeded ih =>
    intro hc depth hend
    obtain ⟨hstep, d, rfl⟩ := resolveWithin_ne_endless_of_gather hend
    have hgather := ih (hc.start b.key) d (gather_ne_endless_of_idle hc hf hu hb hstep)
    refine Access.gather_cons_eq_error_iff.2 (.inl ?_)
    show resolveWithin (d + 1) c contract name = _
    rw [resolveWithin_of_idle hc hf hu hb hgather]
    simp only [Factory.outcome, BuildError.ofContainerError_of_ne hneeded.ne_endless]
    rfl
  | @later c c₁ c' contract name i rest path e hfirst hrest ih =>
    intro hc depth hend
    obtain ⟨hstep, -⟩ := resolveWithin_ne_endless_of_gather hend
    have hone : ((access (resolveWithin depth)).gather [(contract, name)] c).1 ≠
        .error .endless := by
      intro hres
      rcases Access.gather_cons_eq_error_iff.1 (Prod.ext hres rfl) with hres | ⟨j, u, -, hnil⟩
      · exact hstep (congrArg Prod.fst hres)
      · cases hnil
    obtain ⟨j, u, others, hres, hnil, hfound⟩ :=
      Access.gather_cons_eq_ok_iff.1 (hfirst.gather_eq hc depth hone)
    cases hnil
    cases hfound
    refine Access.gather_cons_eq_error_iff.2 (.inr ⟨i, c₁, hres, ?_⟩)
    refine ih (hc.of_shaped hfirst.shaped) depth fun hend' => ?_
    exact hend (congrArg Prod.fst
      (Access.gather_cons_eq_error_iff.2 (.inr ⟨i, c₁, hres, Prod.ext hend' rfl⟩)))

end Container
end ModularHost
