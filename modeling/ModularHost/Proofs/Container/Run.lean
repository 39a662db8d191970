import ModularHost.Proofs.Container.Refinement
/-!
# Runs of calls

Whoever holds a container sees what it answers, call after call. The same calls can be put to a
ledger, and the two are told apart by no run (`ledger_run`): a step answers the same and leaves a
container whose ledger is the one the step leaves.

A ledger is one list, so what a run can come to is read off it (`Ledger.AnswersFromRows`), and what
a run has listed stays (`Ledger.extends_run_calls`).
-/


namespace ModularHost

variable {β : Type}

/-- What a container is asked for. -/
inductive ContainerCall (β : Type) where
  | register (contract : Contract) (name : String) (lifetime : Lifetime) (factory : Factory β)
  /-- Registers an instance the caller has already. -/
  | registerInstance (contract : Contract) (name : String) (made : Instance β)
  /-- Registers an instance the caller makes for the purpose. -/
  | registerNew (contract : Contract) (name : String) (body : β)
  | resolve (contract : Contract) (name : String)
  | resolveAll (contract : Contract)
  | contains (contract : Contract) (name : String)
  | names (contract : Contract)
  | infos
  | size

/-- What it answers. -/
inductive ContainerAnswer (β : Type) where
  | registered
  | refused (e : ContainerError)
  | resolved (i : Instance β)
  | resolvedAll (found : List (String × Instance β))
  | contained (known : Bool)
  | names (found : List String)
  | infos (found : List BindingInfo)
  | size (count : Nat)

namespace ContainerAnswer

/-- The answer to a resolution. -/
def ofResolved : Except ContainerError (Instance β) → ContainerAnswer β
  | .ok i => .resolved i
  | .error e => .refused e

def ofResolvedAll : Except ContainerError (List (String × Instance β)) → ContainerAnswer β
  | .ok found => .resolvedAll found
  | .error e => .refused e

/-- The answer to a registration, and the store afterwards: a refusal leaves the old one. -/
def ofRegistered {σ : Type} (s : σ) : Except ContainerError σ → ContainerAnswer β × σ
  | .ok s' => (.registered, s')
  | .error e => (.refused e, s)

end ContainerAnswer

open ContainerAnswer

def Container.perform (c : Container β) : ContainerCall β → ContainerAnswer β × Container β
  | .register contract name lifetime factory =>
    ofRegistered c (c.register contract name lifetime factory)
  | .registerInstance contract name made => ofRegistered c (c.registerInstance contract name made)
  | .registerNew contract name body => ofRegistered c (c.registerNew contract name body)
  | .resolve contract name => (c.resolve contract name).map ofResolved id
  | .resolveAll contract => (c.resolveAll contract).map ofResolvedAll id
  | .contains contract name => (.contained (c.contains contract name), c)
  | .names contract => (.names (c.names contract), c)
  | .infos => (.infos c.infos, c)
  | .size => (.size c.size, c)

def Ledger.perform (l : Ledger β) : ContainerCall β → ContainerAnswer β × Ledger β
  | .register contract name lifetime factory =>
    ofRegistered l (l.register contract name lifetime factory)
  | .registerInstance contract name made => ofRegistered l (l.registerInstance contract name made)
  | .registerNew contract name body => ofRegistered l (l.registerNew contract name body)
  | .resolve contract name => (l.resolve contract name).map ofResolved id
  | .resolveAll contract => (l.resolveAll contract).map ofResolvedAll id
  | .contains contract name => (.contained (l.rows.any (·.isFor contract name)), l)
  | .names contract => (.names (l.names contract), l)
  | .infos => (.infos (l.rows.map (·.info)), l)
  | .size => (.size l.rows.length, l)

/-- Puts one call after the other, and collects the answers. -/
def performEach {σ : Type} (perform : σ → ContainerCall β → ContainerAnswer β × σ) :
    σ → List (ContainerCall β) → List (ContainerAnswer β) × σ
  | s, [] => ([], s)
  | s, call :: rest =>
    let (answer, s) := perform s call
    let (answers, s) := performEach perform s rest
    (answer :: answers, s)

def Container.run (c : Container β) (calls : List (ContainerCall β)) :
    List (ContainerAnswer β) × Container β :=
  performEach perform c calls

def Ledger.run (l : Ledger β) (calls : List (ContainerCall β)) :
    List (ContainerAnswer β) × Ledger β :=
  performEach perform l calls

/-! ## The two runs -/

namespace Container

theorem ledger_ofRegistered (c : Container β) (outcome : Except ContainerError (Container β)) :
    (ofRegistered c.ledger (outcome.map ledger) : ContainerAnswer β × Ledger β)
      = (ofRegistered c outcome).map id ledger := by
  cases outcome <;> rfl

/-- One call is answered alike, and the two stay together. -/
theorem ledger_perform (c : Container β) (call : ContainerCall β) :
    c.ledger.perform call = (c.perform call).map id ledger := by
  cases call with
  | register contract name lifetime factory =>
    rw [Ledger.perform, perform, ledger_register, ledger_ofRegistered]
  | registerInstance contract name made =>
    rw [Ledger.perform, perform, ledger_registerInstance, ledger_ofRegistered]
  | registerNew contract name body =>
    rw [Ledger.perform, perform, ledger_registerNew, ledger_ofRegistered]
  | resolve contract name => rw [Ledger.perform, perform, ledger_resolve]; rfl
  | resolveAll contract => rw [Ledger.perform, perform, ledger_resolveAll]; rfl
  | contains contract name => rw [Ledger.perform, perform, ledger_any]; rfl
  | names contract => rw [Ledger.perform, perform, ledger_names]; rfl
  | infos => rw [Ledger.perform, perform, ledger_infos]; rfl
  | size => rw [Ledger.perform, perform, ledger_size]; rfl

/-- **No run tells a container from its ledger.** -/
theorem ledger_run (calls : List (ContainerCall β)) :
    ∀ c : Container β, c.ledger.run calls = (c.run calls).map id ledger := by
  induction calls with
  | nil => intro c; rfl
  | cons call rest ih =>
    intro c
    have hrest := ih (c.perform call).2
    rw [Ledger.run, run] at hrest ⊢
    simp only [performEach, ledger_perform, Prod.map, id] at hrest ⊢
    rw [hrest]

end Container

/-! ## What a ledger keeps -/

namespace Ledger

variable {l : Ledger β}

/-- What registering a row comes to, in this order: a blank name is refused, then a contract and
name that are listed already, and nothing changes; any other row goes to the end of the list. -/
def Registers (l : Ledger β) (r : Row β) (outcome : ContainerAnswer β × Ledger β) : Prop :=
  (Text.isBlank r.name = true ∧ outcome = (.refused (.invalidName r.contract.name), l)) ∨
  (Text.isBlank r.name = false ∧ (∃ old ∈ l.rows, old.isFor r.contract r.name = true) ∧
    outcome = (.refused (.duplicateName r.contract.name r.name), l)) ∨
  (Text.isBlank r.name = false ∧ (∀ old ∈ l.rows, old.isFor r.contract r.name = false) ∧
    outcome.1 = .registered ∧ outcome.2.rows = l.rows ++ [r])

/-- What every call finds and leaves behind, said of the list. -/
structure AnswersFromRows (l : Ledger β) : Prop where
  /-- No two rows are for one contract and name. -/
  distinct : l.rows.Pairwise fun a b => b.isFor a.contract a.name = false
  register : ∀ contract name lifetime factory,
    l.Registers (.new contract name lifetime factory)
      (l.perform (.register contract name lifetime factory))
  registerInstance : ∀ contract name made,
    l.Registers (.ofInstance contract name made)
      (l.perform (.registerInstance contract name made))
  registerNew : ∀ contract name body,
    l.Registers (.ofInstance contract name ⟨l.minted, body⟩)
      (l.perform (.registerNew contract name body))
  /-- A name that is not listed under the contract is found under no other. -/
  absent : ∀ contract name, (∀ r ∈ l.rows, r.isFor contract name = false) →
    l.perform (.contains contract name) = (.contained false, l) ∧
    l.perform (.resolve contract name) = (.refused (.unresolvedName contract.name name), l)
  present : ∀ contract name, (∃ r ∈ l.rows, r.isFor contract name = true) →
    l.perform (.contains contract name) = (.contained true, l) ∧
    (l.perform (.resolve contract name)).1 ≠ .refused (.unresolvedName contract.name name)
  /-- What is handed out is what the row of that contract and name holds from then on. -/
  resolved : ∀ contract name i, (l.perform (.resolve contract name)).1 = .resolved i →
    ∃ r ∈ (l.perform (.resolve contract name)).2.rows, r.isFor contract name = true ∧
      (r.lifetime = .singleton → r.made = some i)
  resolvedAll : ∀ contract found, (l.perform (.resolveAll contract)).1 = .resolvedAll found →
    found.map (·.1) = l.names contract
  /-- No call takes a row away, moves one or changes what one says. -/
  extends_perform : ∀ call, l.Extends (l.perform call).2

/-- A registration answers for the rows there are, however many instances have been made. -/
theorem registers_add {l' : Ledger β} (h : l'.rows = l.rows) (r : Row β) :
    l.Registers r (ofRegistered l (l'.add r)) := by
  unfold add
  rw [h]
  by_cases hb : Text.isBlank r.name = true
  · rw [if_pos hb]
    exact .inl ⟨hb, rfl⟩
  · rw [if_neg hb]
    have hb' : Text.isBlank r.name = false := by simpa using hb
    by_cases ht : l.rows.any (·.isFor r.contract r.name) = true
    · rw [if_pos ht]
      exact .inr (.inl ⟨hb', List.any_eq_true.1 ht, rfl⟩)
    · rw [if_neg ht]
      refine .inr (.inr ⟨hb', fun old hmem => ?_, rfl, rfl⟩)
      have hall := List.any_eq_false.1 (by simpa using ht) old hmem
      simpa using hall

theorem registers_registerNew (l : Ledger β) (contract : Contract) (name : String) (body : β) :
    l.Registers (.ofInstance contract name ⟨l.minted, body⟩)
      (l.perform (.registerNew contract name body)) := by
  have hrows : (l.mint body).2.rows = l.rows := rfl
  exact registers_add hrows _

theorem extends_ofRegistered {outcome : Except ContainerError (Ledger β)}
    (h : ∀ l', outcome = .ok l' → Extends l l') :
    Extends l (ofRegistered l outcome : ContainerAnswer β × Ledger β).2 := by
  cases outcome with
  | error e => exact .refl l
  | ok l' => exact h l' rfl

theorem extends_perform (l : Ledger β) (call : ContainerCall β) :
    Extends l (l.perform call).2 := by
  cases call with
  | register => exact extends_ofRegistered fun _ => extends_add
  | registerInstance => exact extends_ofRegistered fun _ => extends_add
  | registerNew => exact extends_ofRegistered fun _ => extends_add
  | resolve contract name => exact extends_resolve l contract name
  | resolveAll contract => exact extends_resolveEach contract _ l
  | contains | names | infos | size => exact .refl l

/-- What the list does not have for a contract and name is answered so. -/
theorem perform_of_absent {contract : Contract} {name : String}
    (h : ∀ r ∈ l.rows, r.isFor contract name = false) :
    l.perform (.contains contract name) = (.contained false, l) ∧
    l.perform (.resolve contract name)
      = (.refused (.unresolvedName contract.name name), l) := by
  have hany : l.rows.any (·.isFor contract name) = false :=
    List.any_eq_false.2 fun r hr => by simp [h r hr]
  have hfind : l.find? contract name = none :=
    List.find?_eq_none.2 fun r hr => by simp [h r hr]
  refine ⟨by rw [perform, hany], ?_⟩
  rw [perform, resolve_of_find?_eq_none hfind]
  rfl

theorem perform_of_present {contract : Contract} {name : String}
    (h : ∃ r ∈ l.rows, r.isFor contract name = true) :
    l.perform (.contains contract name) = (.contained true, l) ∧
    (l.perform (.resolve contract name)).1
      ≠ .refused (.unresolvedName contract.name name) := by
  obtain ⟨r, hf⟩ := Option.isSome_iff_exists.1 (List.find?_isSome.2 h)
  refine ⟨by rw [perform, List.any_eq_true.2 h], ?_⟩
  have hne := resolve_ne_unresolvedName hf contract.name name
  rw [perform]
  rcases hres : l.resolve contract name with ⟨e | i, l'⟩ <;> rw [hres] at hne
  · simpa [ofResolved] using hne
  · simp [ofResolved]

theorem perform_resolved {contract : Contract} {name : String} {i : Instance β}
    (h : (l.perform (.resolve contract name)).1 = .resolved i) :
    ∃ r ∈ (l.perform (.resolve contract name)).2.rows, r.isFor contract name = true ∧
      (r.lifetime = .singleton → r.made = some i) := by
  rw [perform] at h ⊢
  have hok : (l.resolve contract name).1 = .ok i := by
    rcases hres : l.resolve contract name with ⟨e | j, l'⟩ <;>
      rw [hres] at h <;> simp_all [ofResolved]
  obtain ⟨r, hf, hmade⟩ := made_of_resolve hok
  exact ⟨r, List.mem_of_find?_eq_some hf, List.find?_some hf, hmade⟩

theorem perform_resolvedAll {contract : Contract} {found : List (String × Instance β)}
    (h : (l.perform (.resolveAll contract)).1 = .resolvedAll found) :
    found.map (·.1) = l.names contract := by
  rw [perform] at h
  have hok : (l.resolveAll contract).1 = .ok found := by
    rcases hres : l.resolveAll contract with ⟨e | others, l'⟩ <;>
      rw [hres] at h <;> simp_all [ofResolvedAll]
  exact names_of_resolveEach contract _ l found hok

end Ledger

namespace Container

variable {c : Container β}

/-- A container has no two bindings for one contract and name, so neither has its ledger. -/
theorem ledger_distinct :
    c.ledger.rows.Pairwise fun a b => b.isFor a.contract a.name = false := by
  rw [ledger, List.pairwise_map]
  refine (List.pairwise_map.1 (c.keys_bindings_nodup)).imp fun {a b} hne => ?_
  have hfor : b.row.isFor a.contract a.name = (b.key == a.key) := Binding.isFor_row
  have hne' : (b.key == a.key) = false := by simpa using hne.symm
  exact hfor.trans hne'

theorem ledger_answersFromRows (c : Container β) : c.ledger.AnswersFromRows where
  distinct := ledger_distinct
  register _ _ _ _ := Ledger.registers_add rfl _
  registerInstance _ _ _ := Ledger.registers_add rfl _
  registerNew := c.ledger.registers_registerNew
  absent _ _ := Ledger.perform_of_absent
  present _ _ := Ledger.perform_of_present
  resolved _ _ _ := Ledger.perform_resolved
  resolvedAll _ _ := Ledger.perform_resolvedAll
  extends_perform := c.ledger.extends_perform

end Container

/-! ## From the start -/

theorem performEach_append {σ : Type} (perform : σ → ContainerCall β → ContainerAnswer β × σ)
    (earlier later : List (ContainerCall β)) : ∀ s : σ,
      performEach perform s (earlier ++ later) =
        ((performEach perform s earlier).1
            ++ (performEach perform (performEach perform s earlier).2 later).1,
          (performEach perform (performEach perform s earlier).2 later).2) := by
  induction earlier with
  | nil => intro s; rfl
  | cons call rest ih =>
    intro s
    simp only [List.cons_append, performEach, ih]

theorem Container.run_append (c : Container β) (earlier later : List (ContainerCall β)) :
    (c.run (earlier ++ later)).2 = ((c.run earlier).2.run later).2 := by
  rw [run, performEach_append]
  rfl

theorem Ledger.extends_run_calls (calls : List (ContainerCall β)) :
    ∀ l : Ledger β, Extends l (l.run calls).2 := by
  induction calls with
  | nil => intro l; exact .refl l
  | cons call rest ih =>
    intro l
    exact (l.extends_perform call).trans (ih (l.perform call).2)

/-- **A container is one list that only grows.** Every run of calls on an empty container is
answered as the same calls on an empty ledger are, and leaves the container whose ledger that run
leaves. What a call finds and does there is said of the list, and whatever an earlier part of the
run listed is listed still, in its place. The factories may build or fail in any way, on any of
their runs; what they resolve and register on the way is laid down beforehand (`Factory`). -/
theorem run_eq_ledger_run (calls : List (ContainerCall β)) :
    (Container.empty.run calls).1 = (Ledger.empty.run calls).1 ∧
    (Container.empty.run calls).2.ledger = (Ledger.empty.run calls).2 ∧
    (Ledger.empty.run calls).2.AnswersFromRows ∧
    ∀ earlier later, calls = earlier ++ later →
      (Ledger.empty.run earlier).2.Extends (Ledger.empty.run calls).2 := by
  have hrun : (Ledger.empty : Ledger β).run calls
      = ((Container.empty : Container β).run calls).map id Container.ledger := by
    rw [← Container.ledger_empty, Container.ledger_run]
  refine ⟨by rw [hrun]; rfl, by rw [hrun]; rfl, ?_, ?_⟩
  · rw [hrun]
    exact Container.ledger_answersFromRows _
  · rintro earlier later rfl
    have hsplit := performEach_append Ledger.perform earlier later (Ledger.empty : Ledger β)
    rw [Ledger.run, Ledger.run, hsplit]
    exact Ledger.extends_run_calls later _

end ModularHost
