import ModularHost.Proofs.Container.Factory
/-!
# Ledgers

A ledger is what a container amounts to: one list of bindings that only ever grows, with their
instances as they are, untagged. It has no keys, no numbers and no types to look at, and a binding
is found by going through the list. Factories are the same programs as before, run on the ledger.

What a row says for good is its label. No operation takes a label away, changes one or moves one
(`Ledger.Extends`), whatever the factories that run on the way resolve, register, build or fail at;
so a row that was there once is found ever after.
-/


namespace ModularHost

/-- A binding as a ledger has it. -/
structure Row (β : Type) where
  contract : Contract
  name : String
  lifetime : Lifetime
  factory : Factory β
  /-- How often the factory has been run. -/
  runs : Nat
  /-- Whether a singleton's factory is running. -/
  busy : Bool
  /-- What a singleton hands out. -/
  made : Option (Instance β)

/-- One list of bindings, in the order they were registered, and how many instances have been
made. -/
structure Ledger (β : Type) where
  rows : List (Row β)
  minted : Nat

namespace Row

variable {β : Type}

/-- A row whose factory has not been run. -/
def new (contract : Contract) (name : String) (lifetime : Lifetime) (factory : Factory β) : Row β :=
  ⟨contract, name, lifetime, factory, 0, false, none⟩

/-- A row of something that exists already. -/
def ofInstance (contract : Contract) (name : String) (i : Instance β) : Row β :=
  ⟨contract, name, .singleton, .build fun _ _ => .ok (.existing i), 0, false, some i⟩

/-- Whether a row is the one of a contract and a name. -/
def isFor (contract : Contract) (name : String) (r : Row β) : Bool :=
  r.contract.same contract && r.name == name

/-- What there is to tell about a row. -/
def info (r : Row β) : BindingInfo := ⟨r.contract.name, r.name, r.lifetime, r.made.isSome⟩

def start (r : Row β) : Row β :=
  { r with runs := r.runs + 1, busy := decide (r.lifetime = .singleton) }

def release (r : Row β) : Row β := { r with busy := false }

def hold (i : Instance β) (r : Row β) : Row β := { r with busy := false, made := some i }

end Row

namespace Ledger

variable {β : Type}

def empty : Ledger β := ⟨[], 0⟩

/-! ## Looking -/

def find? (l : Ledger β) (contract : Contract) (name : String) : Option (Row β) :=
  l.rows.find? (·.isFor contract name)

def names (l : Ledger β) (contract : Contract) : List String :=
  (l.rows.filter (·.contract.same contract)).map (·.name)

/-! ## Registering -/

/-- A row goes to the end of the list, unless its name is blank or it is there already. -/
def add (l : Ledger β) (r : Row β) : Except ContainerError (Ledger β) :=
  if Text.isBlank r.name then .error (.invalidName r.contract.name)
  else if l.rows.any (·.isFor r.contract r.name) then
    .error (.duplicateName r.contract.name r.name)
  else .ok { l with rows := l.rows ++ [r] }

def register (l : Ledger β) (contract : Contract) (name : String) (lifetime : Lifetime)
    (factory : Factory β) : Except ContainerError (Ledger β) :=
  l.add (.new contract name lifetime factory)

def registerInstance (l : Ledger β) (contract : Contract) (name : String) (i : Instance β) :
    Except ContainerError (Ledger β) :=
  l.add (.ofInstance contract name i)

def mint (l : Ledger β) (body : β) : Instance β × Ledger β :=
  (⟨l.minted, body⟩, { l with minted := l.minted + 1 })

def produce (l : Ledger β) : Product β → Instance β × Ledger β
  | .fresh body => l.mint body
  | .existing i => (i, l)

def registerNew (l : Ledger β) (contract : Contract) (name : String) (body : β) :
    Except ContainerError (Ledger β) :=
  (l.mint body).2.registerInstance contract name (l.mint body).1

/-! ## Resolving -/

/-- Changes the row of a contract and a name. -/
def update (l : Ledger β) (contract : Contract) (name : String) (f : Row β → Row β) : Ledger β :=
  { l with rows := l.rows.map fun r => if r.isFor contract name then f r else r }

/-- How a ledger finds an instance. -/
abbrev Resolver (β : Type) :=
  Ledger β → Contract → String → Except ContainerError (Instance β) × Ledger β

def access (resolve : Resolver β) : Access (Ledger β) β := ⟨resolve, register, registerNew⟩

/-- Runs the factory of a row. What a singleton makes is written into its row. -/
def construct (resolve : Resolver β) (l : Ledger β) (r : Row β) :
    Except ContainerError (Instance β) × Ledger β :=
  match r.factory.run (access resolve) r.runs [] (l.update r.contract r.name .start) with
  | (.error .endless, l) => (.error .endless, l)
  | (.error (.failed reason), l) =>
    (.error (.constructionFailed r.contract.name r.name reason),
      l.update r.contract r.name .release)
  | (.ok product, l) =>
    let (i, l) := l.produce product
    match r.lifetime with
    | .singleton => (.ok i, l.update r.contract r.name (.hold i))
    | .transient => (.ok i, l)

/-- What a row hands out: what a singleton has made, and something new otherwise. A singleton that
is being made makes its own factory wait. -/
def materialize (resolve : Resolver β) (l : Ledger β) (r : Row β) :
    Except ContainerError (Instance β) × Ledger β :=
  match r.lifetime, r.made with
  | .singleton, some i => (.ok i, l)
  | _, _ => if r.busy then (.error .endless, l) else l.construct resolve r

/-- Resolves with chains of at most `depth` factories. -/
def resolveWithin : (depth : Nat) → Resolver β
  | 0, l, _, _ => (.error .endless, l)
  | depth + 1, l, contract, name =>
    match l.find? contract name with
    | none => (.error (.unresolvedName contract.name name), l)
    | some r => l.materialize (resolveWithin depth) r

/-- The steps of all factories together. -/
def depth (l : Ledger β) : Nat := Factory.totalWeight (l.rows.map (·.factory))

def resolve (l : Ledger β) (contract : Contract) (name : String) :
    Except ContainerError (Instance β) × Ledger β :=
  resolveWithin (l.depth + 1) l contract name

/-- Resolves some names of a contract one after the other, up to the first that fails. -/
def resolveEach (l : Ledger β) (contract : Contract) :
    List String → Except ContainerError (List (String × Instance β)) × Ledger β
  | [] => (.ok [], l)
  | name :: rest =>
    match l.resolve contract name with
    | (.error e, l) => (.error e, l)
    | (.ok i, l) =>
      match l.resolveEach contract rest with
      | (.error e, l) => (.error e, l)
      | (.ok found, l) => (.ok ((name, i) :: found), l)

def resolveAll (l : Ledger β) (contract : Contract) :
    Except ContainerError (List (String × Instance β)) × Ledger β :=
  l.resolveEach contract (l.names contract)

/-! ## Nothing is lost -/

end Ledger

/-- What a row says for good. -/
def Row.label {β : Type} (r : Row β) : Contract × String × Lifetime × Factory β :=
  (r.contract, r.name, r.lifetime, r.factory)

theorem Row.label_start {β : Type} (r : Row β) : r.start.label = r.label := rfl

theorem Row.label_release {β : Type} (r : Row β) : r.release.label = r.label := rfl

theorem Row.label_hold {β : Type} (i : Instance β) (r : Row β) : (r.hold i).label = r.label := rfl

theorem Row.isFor_congr {β : Type} {r r' : Row β} (h : r.label = r'.label) (contract : Contract)
    (name : String) : r.isFor contract name = r'.isFor contract name := by
  simp only [Row.label, Prod.mk.injEq] at h
  simp [Row.isFor, h]

/-- Asking for what a row says of itself is asking for the row. -/
theorem Row.isFor_self {β : Type} {r : Row β} {contract : Contract} {name : String}
    (h : r.isFor contract name = true) (r' : Row β) :
    r'.isFor r.contract r.name = r'.isFor contract name := by
  simp only [Row.isFor, Contract.same, TypeRef.same, Bool.and_eq_true, beq_iff_eq] at h ⊢
  rw [h.1, h.2]

namespace Ledger

variable {β : Type} {l l' l'' : Ledger β}

/-- The rows of one ledger are, by their labels, the first rows of another. -/
def Extends (l l' : Ledger β) : Prop := l.rows.map Row.label <+: l'.rows.map Row.label

theorem Extends.refl (l : Ledger β) : Extends l l := List.prefix_rfl

theorem Extends.trans (h : Extends l l') (h' : Extends l' l'') : Extends l l'' :=
  List.IsPrefix.trans h h'

/-- Looking a row up looks at labels only. -/
theorem map_label_find? (l : Ledger β) (contract : Contract) (name : String) :
    (l.find? contract name).map Row.label =
      (l.rows.map Row.label).find? fun x => x.1.same contract && x.2.1 == name := by
  rw [List.find?_map]
  rfl

/-- **What is found once is found ever after.** -/
theorem Extends.find? (h : Extends l l') {contract : Contract} {name : String} {r : Row β}
    (hf : l.find? contract name = some r) :
    ∃ r', l'.find? contract name = some r' ∧ r'.label = r.label := by
  have hlabel : (l'.find? contract name).map Row.label = some r.label := by
    rw [map_label_find?]
    refine h.find?_eq_some ?_
    rw [← map_label_find?, hf, Option.map_some]
  exact Option.map_eq_some_iff.1 hlabel

/-- **A registration is refused, or appends its row.** -/
theorem add_cases (l : Ledger β) (r : Row β) :
    (∃ e, l.add r = .error e) ∨ l.add r = .ok { l with rows := l.rows ++ [r] } := by
  unfold add
  split
  · exact .inl ⟨_, rfl⟩
  · split
    · exact .inl ⟨_, rfl⟩
    · exact .inr rfl

theorem extends_add {r : Row β} (h : l.add r = .ok l') : Extends l l' := by
  rcases add_cases l r with ⟨e, he⟩ | hok
  · rw [he] at h; cases h
  · rw [hok] at h
    cases h
    simp [Extends]

theorem extends_update (l : Ledger β) (contract : Contract) (name : String) {f : Row β → Row β}
    (hf : ∀ r, (f r).label = r.label) : Extends l (l.update contract name f) := by
  have h : (l.update contract name f).rows.map Row.label = l.rows.map Row.label := by
    rw [update, List.map_map]
    refine List.map_congr_left fun r _ => ?_
    simp only [Function.comp_apply]
    split
    · exact hf r
    · rfl
  simp [Extends, h]

@[simp] theorem rows_produce (l : Ledger β) (product : Product β) :
    (l.produce product).2.rows = l.rows := by
  cases product <;> rfl

/-- A way of resolving loses nothing. -/
def Grows (resolve : Resolver β) : Prop :=
  ∀ l contract name, Extends l (resolve l contract name).2

variable {resolve : Resolver β}

/-- What a ledger grants its factories loses nothing, if its way of resolving does not. -/
theorem preserves_access (h : Grows resolve) :
    (access resolve).Preserves Extends where
  refl := Extends.refl
  trans := Extends.trans
  resolve := h
  register := extends_add
  registerNew := extends_add

/-- A run of a row's factory loses nothing. -/
theorem extends_run (h : Grows resolve)
    (l : Ledger β) (r : Row β) :
    Extends l (r.factory.run (access resolve) r.runs []
      (l.update r.contract r.name .start)).2 := by
  have hcount := extends_update l r.contract r.name Row.label_start
  exact hcount.trans (r.factory.run_preserves (preserves_access h) r.runs [] _)

theorem extends_construct (h : Grows resolve)
    (l : Ledger β) (r : Row β) : Extends l (l.construct resolve r).2 := by
  have hrun := extends_run h l r
  unfold construct
  rcases hres : r.factory.run (access resolve) r.runs [] (l.update r.contract r.name .start)
    with ⟨(reason | -) | product, l'⟩ <;> rw [hres] at hrun
  · exact hrun.trans (extends_update l' r.contract r.name Row.label_release)
  · exact hrun
  · have hmade : Extends l (l'.produce product).2 := by
      rw [Extends, rows_produce]
      exact hrun
    cases hl : r.lifetime with
    | singleton =>
      have hkeep := extends_update (l'.produce product).2 r.contract r.name
        (Row.label_hold (l'.produce product).1)
      simpa [hl] using hmade.trans hkeep
    | transient => simpa [hl] using hmade

theorem extends_materialize (h : Grows resolve)
    (l : Ledger β) (r : Row β) : Extends l (l.materialize resolve r).2 := by
  unfold materialize
  split
  · exact .refl l
  · split
    · exact .refl l
    · exact extends_construct h l r

theorem grows_resolveWithin (depth : Nat) : Grows (resolveWithin (β := β) depth) := by
  induction depth with
  | zero => intro l contract name; exact .refl l
  | succ depth ih =>
    intro l contract name
    unfold resolveWithin
    split
    · exact .refl l
    · exact extends_materialize ih l _

/-- **Resolving loses nothing.** -/
theorem extends_resolve (l : Ledger β) (contract : Contract) (name : String) :
    Extends l (l.resolve contract name).2 :=
  grows_resolveWithin _ l contract name

theorem extends_resolveEach (contract : Contract) (names : List String) :
    ∀ l : Ledger β, Extends l (l.resolveEach contract names).2 := by
  induction names with
  | nil => intro l; exact .refl l
  | cons name rest ih =>
    intro l
    have hstep := extends_resolve l contract name
    unfold resolveEach
    rcases hres : l.resolve contract name with ⟨e | i, l'⟩ <;> rw [hres] at hstep
    · exact hstep
    · have hrest := ih l'
      rcases hall : l'.resolveEach contract rest with ⟨e | found, l''⟩ <;> rw [hall] at hrest
      · simpa [hall] using hstep.trans hrest
      · simpa [hall] using hstep.trans hrest

/-! ## What resolving finds -/

/-- Nothing is put in the place of a binding that is not there. -/
theorem resolve_of_find?_eq_none {contract : Contract} {name : String}
    (h : l.find? contract name = none) :
    l.resolve contract name = (.error (.unresolvedName contract.name name), l) := by
  simp [resolve, resolveWithin, h]

/-- Of a row that is there, nobody is told that it is not. -/
theorem resolve_ne_unresolvedName {contract : Contract} {name : String} {r : Row β}
    (hf : l.find? contract name = some r) (what which : String) :
    (l.resolve contract name).1 ≠ .error (.unresolvedName what which) := by
  have hconstruct :
      (l.construct (resolveWithin l.depth) r).1 ≠ .error (.unresolvedName what which) := by
    unfold construct
    rcases r.factory.run (access (resolveWithin l.depth)) r.runs []
      (l.update r.contract r.name .start) with ⟨(reason | -) | product, l'⟩
    · simp
    · simp
    · cases hl : r.lifetime <;> simp
  simp only [resolve, resolveWithin, hf, materialize]
  split
  · simp
  · split
    · simp
    · exact hconstruct

/-- A change that keeps labels changes what is found, and not what is found where. -/
theorem find?_update {contract contract' : Contract} {name name' : String} {f : Row β → Row β}
    (hf : ∀ r, (f r).label = r.label) :
    (l.update contract name f).find? contract' name' =
      (l.find? contract' name').map fun r => if r.isFor contract name then f r else r := by
  rw [find?, update, List.find?_map, find?]
  congr 2
  funext r
  simp only [Function.comp_apply]
  split
  · exact Row.isFor_congr (hf r) contract' name'
  · rfl

/-- What a singleton's factory has made is in its row afterwards. -/
theorem made_of_construct (hgrows : Grows resolve)
    {contract : Contract} {name : String} {r : Row β} {i : Instance β}
    (hf : l.find? contract name = some r) (h : (l.construct resolve r).1 = .ok i) :
    ∃ r', (l.construct resolve r).2.find? contract name = some r' ∧
      (r'.lifetime = .singleton → r'.made = some i) := by
  have hrun := extends_run hgrows l r
  unfold construct at h ⊢
  rcases hres : r.factory.run (access resolve) r.runs [] (l.update r.contract r.name .start)
    with ⟨(reason | -) | product, l'⟩ <;> rw [hres] at hrun <;> simp only [hres] at h ⊢
  · cases h
  · cases h
  · -- the row is still there, and the factory's product goes into it
    obtain ⟨r', hf', hlabel⟩ := hrun.find? hf
    have hfor : r'.isFor r.contract r.name = true := by
      rw [Row.isFor_self (List.find?_some hf)]
      exact List.find?_some hf'
    have hlife : r'.lifetime = r.lifetime := by
      simp only [Row.label, Prod.mk.injEq] at hlabel
      exact hlabel.2.2.1
    have hmade : (l'.produce product).2.find? contract name = some r' := by
      rw [find?, rows_produce]
      exact hf'
    cases hl : r.lifetime with
    | singleton =>
      simp only [hl, Except.ok.injEq] at h ⊢
      refine ⟨r'.hold i, ?_, fun _ => rfl⟩
      rw [find?_update (Row.label_hold _), hmade, Option.map_some, if_pos hfor, h]
    | transient =>
      simp only [hl] at h ⊢
      exact ⟨r', hmade, fun hs => by rw [hlife, hl] at hs; cases hs⟩

/-- **A singleton that was found hands out what its row holds from then on.** -/
theorem made_of_resolve {contract : Contract} {name : String} {i : Instance β}
    (h : (l.resolve contract name).1 = .ok i) :
    ∃ r, (l.resolve contract name).2.find? contract name = some r ∧
      (r.lifetime = .singleton → r.made = some i) := by
  cases hf : l.find? contract name with
  | none => simp [resolve_of_find?_eq_none hf] at h
  | some r =>
    have hfor : r.isFor contract name = true := List.find?_some hf
    have hres : l.resolve contract name = l.materialize (resolveWithin l.depth) r := by
      simp [resolve, resolveWithin, hf]
    rw [hres] at h ⊢
    unfold materialize at h ⊢
    split at h
    · -- the row holds an instance already, and nothing is touched
      rename_i j hl hm
      simp only [Except.ok.injEq] at h
      exact ⟨r, hf, fun _ => h ▸ hm⟩
    · split at h
      · cases h
      · rename_i hbusy
        rw [if_neg hbusy]
        exact made_of_construct (grows_resolveWithin l.depth) hf h

/-- All implementations of a contract come under its names, in their order. -/
theorem names_of_resolveEach (contract : Contract) (names : List String) :
    ∀ (l : Ledger β) (found : List (String × Instance β)),
      (l.resolveEach contract names).1 = .ok found → found.map (·.1) = names := by
  induction names with
  | nil =>
    intro l found h
    cases h
    rfl
  | cons name rest ih =>
    intro l found h
    unfold resolveEach at h
    rcases hres : l.resolve contract name with ⟨e | i, l'⟩
    · simp [hres] at h
    · rcases hall : l'.resolveEach contract rest with ⟨e | others, l''⟩
      · simp [hres, hall] at h
      · have hrest := ih l' others (by rw [hall])
        simp only [hres, hall, Except.ok.injEq] at h
        rw [← h, List.map_cons, hrest]

end Ledger
end ModularHost
