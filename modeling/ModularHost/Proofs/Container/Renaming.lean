import Mathlib.Logic.Equiv.Basic
import ModularHost.Proofs.Container.Run
/-!
# Instances under other numbers

The number of an instance stands for its identity and for nothing else. Two stores may have the same
instances under different numbers, when the same things were made in another order; if the factories
in the one do to its instances what those in the other do to theirs (`Factory.Alike`), then no
look-up tells the stores apart, now or after any look-ups, but by the numbers of what is handed out
(`Container.answers_alike`).

A ledger is compared by what is found in it, so the order of its rows does not matter.
-/


namespace ModularHost

variable {β : Type} {ρ ρ' : Equiv.Perm Nat}

/-- The same thing under another number. -/
def Instance.rename (ρ : Equiv.Perm Nat) (i : Instance β) : Instance β := ⟨ρ i.serial, i.body⟩

def Product.rename (ρ : Equiv.Perm Nat) : Product β → Product β
  | .fresh body => .fresh body
  | .existing i => .existing (i.rename ρ)

def ContainerAnswer.rename (ρ : Equiv.Perm Nat) : ContainerAnswer β → ContainerAnswer β
  | .resolved i => .resolved (i.rename ρ)
  | .resolvedAll found => .resolvedAll (found.map fun (name, i) => (name, i.rename ρ))
  | answer => answer

/-- Two factories take the same steps, and build the same of instances that differ by their numbers
only. -/
inductive Factory.Alike (ρ : Equiv.Perm Nat) : Factory β → Factory β → Prop
  | make (body : β) : Alike ρ (.make body) (.make body)
  | build {produce produce' : Nat → List (Instance β) → Except String (Product β)}
    (same : ∀ run found, produce' run (found.map (·.rename ρ)) =
      (produce run found).map (·.rename ρ)) : Alike ρ (.build produce) (.build produce')
  | resolve {contract : Contract} {name : String} {next next' : Factory β}
    (rest : Alike ρ next next') :
    Alike ρ (.resolve contract name next) (.resolve contract name next')
  | register {contract : Contract} {name : String} {lifetime : Lifetime}
    {factory factory' next next' : Factory β} (added : Alike ρ factory factory')
    (rest : Alike ρ next next') :
    Alike ρ (.register contract name lifetime factory next)
      (.register contract name lifetime factory' next')
  | registerInstance {contract : Contract} {name : String} {body : β} {next next' : Factory β}
    (rest : Alike ρ next next') :
    Alike ρ (.registerInstance contract name body next) (.registerInstance contract name body next')

/-- A factory that knows no instance by its number, but for those made before so many others. Code
is never told a number: it may keep an instance it has, look into it, and see whether it is the same
as another. -/
def Factory.Blind (made : Nat) (f : Factory β) : Prop :=
  ∀ ρ : Equiv.Perm Nat, (∀ n < made, ρ n = n) → f.Alike ρ f

/-- Two rows say the same but for the numbers of instances. -/
structure Row.Alike (ρ : Equiv.Perm Nat) (r r' : Row β) : Prop where
  contract : r'.contract = r.contract
  name : r'.name = r.name
  lifetime : r'.lifetime = r.lifetime
  factory : r.factory.Alike ρ r'.factory
  runs : r'.runs = r.runs
  busy : r'.busy = r.busy
  made : r'.made = r.made.map (·.rename ρ)

/-- Two ledgers have alike rows for every contract and name, and both will give the same number to
what is made next. -/
structure Ledger.Alike (ρ : Equiv.Perm Nat) (l l' : Ledger β) : Prop where
  found : ∀ contract name,
    Option.Rel (Row.Alike ρ) (l.find? contract name) (l'.find? contract name)
  depth : l'.depth = l.depth
  minted : l'.minted = l.minted
  fixed : ∀ n, l.minted ≤ n → ρ n = n

/-! ## Names and numbers -/

theorem Product.rename_trans (product : Product β) :
    product.rename (ρ.trans ρ') = (product.rename ρ).rename ρ' := by
  cases product <;> rfl

namespace Factory.Alike

variable {f f' f'' : Factory β}

theorem weight_eq (h : f.Alike ρ f') : f'.weight = f.weight := by
  induction h with
  | make body => rfl
  | build same => rfl
  | resolve rest ih => simp only [weight, ih]
  | register added rest ih ih' => simp only [weight, ih, ih']
  | registerInstance rest ih => simp only [weight, ih]

/-- One renaming after the other is a renaming. -/
theorem trans (h : f.Alike ρ f') (h' : f'.Alike ρ' f'') : f.Alike (ρ.trans ρ') f'' := by
  induction h generalizing f'' with
  | make body =>
    cases h' with
    | make => exact .make body
  | @build produce produce' same =>
    cases h' with
    | build same' =>
      refine .build fun run found => ?_
      have hfound : found.map (·.rename (ρ.trans ρ')) =
          (found.map (·.rename ρ)).map (·.rename ρ') := by
        rw [List.map_map]
        rfl
      rw [hfound, same', same]
      cases produce run found with
      | error e => rfl
      | ok product => exact congrArg Except.ok product.rename_trans.symm
  | resolve rest ih =>
    cases h' with
    | resolve rest' => exact .resolve (ih rest')
  | register added rest ih ih' =>
    cases h' with
    | register added' rest' => exact .register (ih added') (ih' rest')
  | registerInstance rest ih =>
    cases h' with
    | registerInstance rest' => exact .registerInstance (ih rest')

end Factory.Alike

namespace Row.Alike

variable {r r' r'' : Row β}

theorem trans (h : r.Alike ρ r') (h' : r'.Alike ρ' r'') : r.Alike (ρ.trans ρ') r'' where
  contract := h'.contract.trans h.contract
  name := h'.name.trans h.name
  lifetime := h'.lifetime.trans h.lifetime
  factory := h.factory.trans h'.factory
  runs := h'.runs.trans h.runs
  busy := h'.busy.trans h.busy
  made := by
    rw [h'.made, h.made, Option.map_map]
    rfl

theorem isFor_eq (h : r.Alike ρ r') (contract : Contract) (name : String) :
    r'.isFor contract name = r.isFor contract name := by
  simp only [Row.isFor, h.contract, h.name]

theorem start (h : r.Alike ρ r') : r.start.Alike ρ r'.start :=
  { h with runs := congrArg (· + 1) h.runs, busy := by simp only [Row.start, h.lifetime] }

theorem release (h : r.Alike ρ r') : r.release.Alike ρ r'.release :=
  { h with busy := rfl }

theorem hold (h : r.Alike ρ r') (i : Instance β) :
    (r.hold i).Alike ρ (r'.hold (i.rename ρ)) :=
  { h with busy := rfl, made := rfl }

theorem new (contract : Contract) (name : String) (lifetime : Lifetime) {f f' : Factory β}
    (h : f.Alike ρ f') :
    (Row.new contract name lifetime f).Alike ρ (.new contract name lifetime f') :=
  ⟨rfl, rfl, rfl, h, rfl, rfl, rfl⟩

theorem ofInstance (contract : Contract) (name : String) (i : Instance β) :
    (Row.ofInstance contract name i).Alike ρ (.ofInstance contract name (i.rename ρ)) :=
  ⟨rfl, rfl, rfl, .build fun _ _ => rfl, rfl, rfl, rfl⟩

end Row.Alike

/-! ## Two factories on two stores -/

/-- A registration in two stores is refused for one reason, or leaves related stores. -/
inductive Registered {σ τ : Type} (R : σ → τ → Prop) :
    Except ContainerError σ → Except ContainerError τ → Prop
  | refused (e : ContainerError) : Registered R (.error e) (.error e)
  | done {s : σ} {t : τ} (rel : R s t) : Registered R (.ok s) (.ok t)

/-- Two stores stay related through all they grant, and hand out the same but for the numbers. -/
structure Access.Simulates {σ τ : Type} (ρ : Equiv.Perm Nat) (R : σ → τ → Prop) (A : Access σ β)
    (B : Access τ β) : Prop where
  resolve : ∀ {s t} contract name, R s t →
    (B.resolve t contract name).1 = (A.resolve s contract name).1.map (·.rename ρ) ∧
      R (A.resolve s contract name).2 (B.resolve t contract name).2
  register : ∀ {s t} contract name lifetime {f f'}, R s t → Factory.Alike ρ f f' →
    Registered R (A.register s contract name lifetime f) (B.register t contract name lifetime f')
  registerNew : ∀ {s t} contract name body, R s t →
    Registered R (A.registerNew s contract name body) (B.registerNew t contract name body)

/-- **Factories that are alike come to the same on stores that are.** -/
theorem Factory.Alike.run {σ τ : Type} {R : σ → τ → Prop} {A : Access σ β} {B : Access τ β}
    (hsim : Access.Simulates ρ R A B) (run : Nat) {f f' : Factory β} (h : f.Alike ρ f') :
    ∀ (found : List (Instance β)) {s : σ} {t : τ}, R s t →
      (f'.run B run (found.map (·.rename ρ)) t).1 =
          (f.run A run found s).1.map (·.rename ρ) ∧
        R (f.run A run found s).2 (f'.run B run (found.map (·.rename ρ)) t).2 := by
  induction h with
  | make body => intro found s t hrel; exact ⟨rfl, hrel⟩
  | @build produce produce' same =>
    intro found s t hrel
    refine ⟨?_, hrel⟩
    simp only [Factory.run]
    rw [← List.map_reverse, same]
    cases produce run found.reverse <;> rfl
  | @resolve contract name next next' rest ih =>
    intro found s t hrel
    obtain ⟨hanswer, hrel'⟩ := hsim.resolve contract name hrel
    simp only [Factory.run]
    rcases hs : A.resolve s contract name with ⟨e | i, s'⟩ <;>
      rcases ht : B.resolve t contract name with ⟨e' | i', t'⟩ <;>
      rw [hs, ht] at hanswer hrel' <;> cases hanswer
    · exact ⟨rfl, hrel'⟩
    · exact ih (i :: found) hrel'
  | @register contract name lifetime factory factory' next next' added rest _ ih =>
    intro found s t hrel
    have hreg := hsim.register contract name lifetime hrel added
    simp only [Factory.run]
    revert hreg
    generalize A.register s contract name lifetime factory = outcome
    generalize B.register t contract name lifetime factory' = outcome'
    rintro (e | hrel')
    · exact ⟨rfl, hrel⟩
    · exact ih found hrel'
  | @registerInstance contract name body next next' rest ih =>
    intro found s t hrel
    have hreg := hsim.registerNew contract name body hrel
    simp only [Factory.run]
    revert hreg
    generalize A.registerNew s contract name body = outcome
    generalize B.registerNew t contract name body = outcome'
    rintro (e | hrel')
    · exact ⟨rfl, hrel⟩
    · exact ih found hrel'

/-! ## Two ledgers -/

namespace Ledger

variable {l l' : Ledger β} {r r' : Row β} {f : Row β → Row β}

theorem Alike.any_eq (h : l.Alike ρ l') (contract : Contract) (name : String) :
    l'.rows.any (·.isFor contract name) = l.rows.any (·.isFor contract name) := by
  have hfound := h.found contract name
  rw [find?, find?] at hfound
  rw [← List.isSome_find?, ← List.isSome_find?]
  revert hfound
  generalize l.rows.find? (·.isFor contract name) = row
  generalize l'.rows.find? (·.isFor contract name) = row'
  rintro (- | -)
  · rfl
  · rfl

theorem depth_append (l : Ledger β) (r : Row β) :
    Ledger.depth { l with rows := l.rows ++ [r] } = l.depth + r.factory.weight := by
  have hperm : ((l.rows ++ [r]).map (·.factory)).Perm (r.factory :: l.rows.map (·.factory)) := by
    rw [List.map_append]
    exact List.perm_append_comm
  rw [depth, Factory.totalWeight_perm hperm, depth, Nat.add_comm]
  rfl

theorem depth_update (hf : ∀ r : Row β, (f r).label = r.label) (contract : Contract)
    (name : String) : (l.update contract name f).depth = l.depth := by
  have hfactory : ∀ r : Row β, (f r).factory = r.factory := fun r =>
    congrArg (fun label => label.2.2.2) (hf r)
  rw [depth, update, List.map_map, depth]
  congr 1
  refine List.map_congr_left fun r _ => ?_
  simp only [Function.comp_apply]
  split
  · exact hfactory r
  · rfl

theorem Alike.mint (h : l.Alike ρ l') (body : β) :
    (l'.mint body).1 = (l.mint body).1.rename ρ ∧ (l.mint body).2.Alike ρ (l'.mint body).2 := by
  have hnext : ρ l.minted = l.minted := h.fixed _ (Nat.le_refl _)
  refine ⟨?_, h.found, h.depth, congrArg (· + 1) h.minted, fun n hn => ?_⟩
  · simp only [Ledger.mint, Instance.rename, h.minted, hnext]
  · exact h.fixed n (Nat.le_of_succ_le hn)

/-- A row is refused by both, or enters both. -/
theorem Alike.add (h : l.Alike ρ l') (hr : r.Alike ρ r') :
    Registered (Alike ρ) (l.add r) (l'.add r') := by
  unfold Ledger.add
  rw [hr.name, hr.contract, h.any_eq]
  split
  · exact .refused _
  · split
    · exact .refused _
    · refine .done ⟨fun contract name => ?_, ?_, h.minted, h.fixed⟩
      · have hfound := h.found contract name
        simp only [find?, List.find?_append] at hfound ⊢
        revert hfound
        generalize l.rows.find? (·.isFor contract name) = row
        generalize l'.rows.find? (·.isFor contract name) = row'
        rintro (hrow | -)
        · exact .some hrow
        · simp only [Option.none_or, List.find?_singleton, hr.isFor_eq]
          split
          · exact .some hr
          · exact .none
      · rw [depth_append, depth_append, h.depth, hr.factory.weight_eq]

theorem Alike.registerNew (h : l.Alike ρ l') (contract : Contract) (name : String) (body : β) :
    Registered (Alike ρ) (l.registerNew contract name body)
      (l'.registerNew contract name body) := by
  obtain ⟨hmade, hmint⟩ := h.mint body
  have hrow : (Row.ofInstance contract name (l.mint body).1).Alike ρ
      (.ofInstance contract name (l'.mint body).1) := by
    rw [hmade]
    exact .ofInstance contract name _
  exact hmint.add hrow

/-- A change of alike rows that keeps them alike, and their labels. -/
theorem Alike.update (h : l.Alike ρ l') (contract : Contract) (name : String)
    {f f' : Row β → Row β} (hf : ∀ r, (f r).label = r.label) (hf' : ∀ r, (f' r).label = r.label)
    (hrow : ∀ {r r'}, Row.Alike ρ r r' → (f r).Alike ρ (f' r')) :
    (l.update contract name f).Alike ρ (l'.update contract name f') := by
  refine ⟨fun contract' name' => ?_, ?_, h.minted, h.fixed⟩
  · rw [find?_update hf, find?_update hf']
    have hfound := h.found contract' name'
    revert hfound
    generalize l.find? contract' name' = row
    generalize l'.find? contract' name' = row'
    rintro (hr | -)
    · simp only [Option.map_some, hr.isFor_eq]
      split
      · exact .some (hrow hr)
      · exact .some hr
    · exact .none
  · rw [depth_update hf, depth_update hf', h.depth]

theorem Alike.produce (h : l.Alike ρ l') (product : Product β) :
    (l'.produce (product.rename ρ)).1 = (l.produce product).1.rename ρ ∧
      (l.produce product).2.Alike ρ (l'.produce (product.rename ρ)).2 := by
  cases product with
  | fresh body => exact h.mint body
  | existing i => exact ⟨rfl, h⟩

/-! ## Look-ups -/

/-- Two ways of resolving hand out the same but for the numbers, and leave what is alike alike. -/
def AlikeResolvers (ρ : Equiv.Perm Nat) (resolve : Resolver β) : Prop :=
  ∀ {l l'} contract name, Alike ρ l l' →
    (resolve l' contract name).1 = (resolve l contract name).1.map (·.rename ρ) ∧
      (resolve l contract name).2.Alike ρ (resolve l' contract name).2

variable {resolve : Resolver β}

theorem simulates_access (h : AlikeResolvers ρ resolve) :
    Access.Simulates ρ (Alike ρ) (access resolve) (access resolve) where
  resolve contract name halike := h contract name halike
  register contract name lifetime _ _ halike hf := halike.add (.new contract name lifetime hf)
  registerNew contract name body halike := halike.registerNew contract name body

/-- Alike rows construct the same. -/
theorem Alike.construct (hresolve : AlikeResolvers ρ resolve) (h : l.Alike ρ l')
    (hr : r.Alike ρ r') :
    (l'.construct resolve r').1 = (l.construct resolve r).1.map (·.rename ρ) ∧
      (l.construct resolve r).2.Alike ρ (l'.construct resolve r').2 := by
  have hstart : (l.update r.contract r.name .start).Alike ρ
      (l'.update r.contract r.name .start) :=
    h.update _ _ Row.label_start Row.label_start fun hrow => hrow.start
  obtain ⟨hmade, hrun⟩ := hr.factory.run (simulates_access hresolve) r.runs [] hstart
  unfold Ledger.construct
  rw [hr.contract, hr.name, hr.lifetime, hr.runs]
  rw [List.map_nil] at hmade hrun
  rcases hout : r.factory.run (access resolve) r.runs [] (l.update r.contract r.name .start)
    with ⟨(reason | -) | product, l₁⟩ <;>
  rcases hout' : r'.factory.run (access resolve) r.runs [] (l'.update r.contract r.name .start)
    with ⟨(reason' | -) | product', l₁'⟩ <;>
  rw [hout, hout'] at hmade hrun <;> cases hmade
  · exact ⟨rfl, hrun.update _ _ Row.label_release Row.label_release fun hrow => hrow.release⟩
  · exact ⟨rfl, hrun⟩
  · obtain ⟨hi, hproduce⟩ := hrun.produce product
    dsimp only
    rw [hi]
    cases r.lifetime with
    | singleton =>
      exact ⟨rfl, hproduce.update _ _ (Row.label_hold _) (Row.label_hold _) fun hrow =>
        hrow.hold _⟩
    | transient => exact ⟨rfl, hproduce⟩

theorem Alike.materialize (hresolve : AlikeResolvers ρ resolve) (h : l.Alike ρ l')
    (hr : r.Alike ρ r') :
    (l'.materialize resolve r').1 = (l.materialize resolve r).1.map (·.rename ρ) ∧
      (l.materialize resolve r).2.Alike ρ (l'.materialize resolve r').2 := by
  have hconstruct := h.construct hresolve hr
  have hmake : (if r'.busy then (.error .endless, l') else l'.construct resolve r').1 =
        (if r.busy then (.error .endless, l) else l.construct resolve r).1.map (·.rename ρ) ∧
      (if r.busy then (.error .endless, l) else l.construct resolve r).2.Alike ρ
        (if r'.busy then (.error .endless, l') else l'.construct resolve r').2 := by
    rw [hr.busy]
    split
    · exact ⟨rfl, h⟩
    · exact hconstruct
  unfold Ledger.materialize
  rw [hr.lifetime, hr.made]
  cases r.lifetime with
  | transient => exact hmake
  | singleton =>
    cases r.made with
    | none => exact hmake
    | some i => exact ⟨rfl, h⟩

theorem alikeResolvers_resolveWithin (depth : Nat) :
    AlikeResolvers ρ (resolveWithin (β := β) depth) := by
  induction depth with
  | zero => intro l l' contract name h; exact ⟨rfl, h⟩
  | succ depth ih =>
    intro l l' contract name h
    unfold resolveWithin
    have hfound := h.found contract name
    revert hfound
    generalize l.find? contract name = row
    generalize l'.find? contract name = row'
    rintro (hr | -)
    · exact h.materialize ih hr
    · exact ⟨rfl, h⟩

/-- **Alike ledgers hand out the same but for the numbers, and are alike afterwards.** -/
theorem Alike.resolved (h : l.Alike ρ l') (contract : Contract) (name : String) :
    (l'.resolve contract name).1 = (l.resolve contract name).1.map (·.rename ρ) ∧
      (l.resolve contract name).2.Alike ρ (l'.resolve contract name).2 := by
  rw [Ledger.resolve, Ledger.resolve, h.depth]
  exact alikeResolvers_resolveWithin _ contract name h

end Ledger

/-- Whether a call asks for one instance, or whether there is one to ask for. -/
def ContainerCall.isLookUp : ContainerCall β → Bool
  | .resolve .. | .contains .. => true
  | _ => false

theorem Ledger.Alike.perform {l l' : Ledger β} (h : l.Alike ρ l') {call : ContainerCall β}
    (hcall : call.isLookUp = true) :
    (l'.perform call).1 = (l.perform call).1.rename ρ ∧
      (l.perform call).2.Alike ρ (l'.perform call).2 := by
  cases call with
  | resolve contract name =>
    obtain ⟨hanswer, halike⟩ := h.resolved contract name
    refine ⟨?_, halike⟩
    simp only [Ledger.perform, Prod.map]
    rw [hanswer]
    cases (l.resolve contract name).1 <;> rfl
  | contains contract name =>
    refine ⟨?_, h⟩
    simp only [Ledger.perform, h.any_eq]
    rfl
  | register | registerInstance | registerNew | resolveAll | names | infos | size => cases hcall

theorem Ledger.Alike.run (calls : List (ContainerCall β))
    (hcalls : ∀ call ∈ calls, call.isLookUp = true) : ∀ {l l' : Ledger β}, l.Alike ρ l' →
      (l'.run calls).1 = (l.run calls).1.map (·.rename ρ) := by
  induction calls with
  | nil => intro l l' _; rfl
  | cons call rest ih =>
    intro l l' h
    obtain ⟨hanswer, halike⟩ := h.perform (hcalls call List.mem_cons_self)
    have hrest := ih (fun c hc => hcalls c (List.mem_cons_of_mem _ hc)) halike
    simp only [Ledger.run, performEach, List.map_cons] at hrest ⊢
    rw [hanswer, hrest]

/-- **No look-ups tell containers apart whose ledgers are alike**, but by the numbers of what is
handed out. -/
theorem Container.answers_alike {c c' : Container β} (h : c.ledger.Alike ρ c'.ledger)
    (calls : List (ContainerCall β)) (hcalls : ∀ call ∈ calls, call.isLookUp = true) :
    (c'.run calls).1 = (c.run calls).1.map (·.rename ρ) := by
  have hrun := h.run calls hcalls
  rw [ledger_run, ledger_run] at hrun
  exact hrun

end ModularHost
