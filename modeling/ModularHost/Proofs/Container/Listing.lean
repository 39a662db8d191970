import ModularHost.Container.Resolve
import Mathlib.Data.List.Nodup
/-!
# Containers, read as lists

The entries of a container stand in no order, and a listing sorts them by the numbers of their
registrations. No two numbers are equal, so sorting has one outcome, whatever order the entries
stood in, and every operation can be said of the listing: registering appends to it
(`bindings_add`), changing a binding changes it in place (`bindings_update`), and looking a key up
finds its one place (`get?_eq_find?`).
-/


namespace ModularHost

variable {β : Type}

/-- Two contracts and names make one key exactly when the contracts are the same and the names
equal. -/
theorem Contract.key_eq_iff {a b : Contract} {m n : String} :
    a.key m = b.key n ↔ a.same b = true ∧ m = n := by
  simp [Contract.key, Contract.same_iff]

/-- The steps of factories are counted in any order. -/
theorem Factory.totalWeight_perm {l l' : List (Factory β)} (h : l.Perm l') :
    totalWeight l = totalWeight l' := by
  induction h with
  | nil => rfl
  | cons f _ ih =>
    simp only [totalWeight, List.foldr_cons] at ih ⊢
    omega
  | swap f g l =>
    simp only [totalWeight, List.foldr_cons]
    omega
  | trans _ _ ih ih' => exact ih.trans ih'

namespace Entry

variable {l l' : List (Entry β)} {e : Entry β}

/-! ## Sorting -/

theorem sort_perm : (sort l).Perm l := List.mergeSort_perm _ _

@[simp] theorem mem_sort : e ∈ sort l ↔ e ∈ l := sort_perm.mem_iff

theorem sort_pairwise : (sort l).Pairwise fun a b => a.sequence ≤ b.sequence := by
  have htrans : ∀ a b c : Entry β, a.le b → b.le c → a.le c := by
    intro a b c hab hbc
    simp only [le, decide_eq_true_eq] at hab hbc ⊢
    omega
  have htotal : ∀ a b : Entry β, a.le b || b.le a := by
    intro a b
    simp only [le, Bool.or_eq_true, decide_eq_true_eq]
    omega
  exact (List.pairwise_mergeSort htrans htotal l).imp fun hab => by simpa [le] using hab

/-- Where the numbers are distinct, a listing goes strictly upward. -/
theorem sort_pairwise_lt (hnd : (l.map (·.sequence)).Nodup) :
    (sort l).Pairwise fun a b => a.sequence < b.sequence := by
  have hnd' : (sort l).Pairwise fun a b => a.sequence ≠ b.sequence :=
    List.pairwise_map.1 ((sort_perm.map _).nodup_iff.2 hnd)
  exact (sort_pairwise.and hnd').imp fun ⟨hle, hne⟩ => Nat.lt_of_le_of_ne hle hne

/-- **A listing is fixed by its members.** Entries that go strictly upward are what sorting makes
of them, in whatever order they are met. -/
theorem sort_eq_of_perm (hp : l'.Perm l)
    (hs : l'.Pairwise fun a b => a.sequence < b.sequence) : sort l = l' := by
  have hp' : (sort l).Perm l' := sort_perm.trans hp.symm
  have hs' : (sort l).Pairwise fun a b => a.sequence < b.sequence := by
    refine sort_pairwise_lt ?_
    refine ((hp.map (·.sequence)).nodup_iff).1 (List.pairwise_map.2 (hs.imp ?_))
    exact fun h => Nat.ne_of_lt h
  -- two members of one list cannot each come before the other
  refine List.Perm.eq_of_pairwise (fun a b _ _ hab hba => ?_) hs' hs hp'
  omega

/-- An entry that comes after all others is listed last. -/
theorem sort_cons_of_lt (hnd : (l.map (·.sequence)).Nodup)
    (hlt : ∀ a ∈ l, a.sequence < e.sequence) : sort (e :: l) = sort l ++ [e] := by
  refine sort_eq_of_perm ((List.perm_append_singleton e _).trans (sort_perm.cons e)) ?_
  refine List.pairwise_append.2 ⟨sort_pairwise_lt hnd, List.pairwise_singleton _ _, ?_⟩
  intro a ha b hb
  rw [List.mem_singleton.1 hb]
  exact hlt a (mem_sort.1 ha)

/-- Choosing some entries and listing them is listing all and choosing some. -/
theorem sort_filter (hnd : (l.map (·.sequence)).Nodup) (p : Entry β → Bool) :
    sort (l.filter p) = (sort l).filter p :=
  sort_eq_of_perm (sort_perm.filter p) ((sort_pairwise_lt hnd).filter p)

/-- A change of one binding moves nothing. -/
theorem sort_map_change {key : BindingKey} {f : Binding β → Binding β} :
    sort (l.map (·.change key f)) = (sort l).map (·.change key f) := by
  refine (List.map_mergeSort fun a _ b _ => ?_).symm
  simp [le]

/-! ## Looking up -/

/-- Where keys are distinct, a look-up finds the one entry there is. -/
theorem find?_key_eq_some_iff (hnd : (l.map (·.key)).Nodup) {key : BindingKey} :
    l.find? (·.key == key) = some e ↔ e ∈ l ∧ e.key = key := by
  constructor
  · intro h
    exact ⟨List.mem_of_find?_eq_some h, by simpa using List.find?_some h⟩
  · rintro ⟨he, rfl⟩
    induction l with
    | nil => cases he
    | cons a l ih =>
      rw [List.map_cons, List.nodup_cons] at hnd
      rcases List.mem_cons.1 he with rfl | he
      · simp
      · -- the key of `e` is in the rest, so the first entry has another
        have hne : a.key ≠ e.key := fun h => hnd.1 (h ▸ List.mem_map.2 ⟨e, he, rfl⟩)
        rw [List.find?_cons_of_neg (by simpa using hne)]
        exact ih hnd.2 he

/-- So it finds the same entry in every order. -/
theorem find?_key_sort (hnd : (l.map (·.key)).Nodup) (key : BindingKey) :
    (sort l).find? (·.key == key) = l.find? (·.key == key) := by
  have hnd' : ((sort l).map (·.key)).Nodup := (sort_perm.map _).nodup_iff.2 hnd
  ext e
  rw [find?_key_eq_some_iff hnd', find?_key_eq_some_iff hnd, mem_sort]

end Entry

namespace Container

variable {c c' : Container β} {b : Binding β} {key : BindingKey}

/-! ## The listing -/

/-- An entry of a listing stands under the key of its binding. -/
theorem key_eq_of_mem_sort {e : Entry β} (he : e ∈ Entry.sort c.entries) :
    e.binding.key = e.key :=
  (c.key_eq e (Entry.mem_sort.1 he)).symm

theorem mem_bindings : b ∈ c.bindings ↔ ∃ e ∈ c.entries, e.binding = b := by
  simp [bindings]

/-- **No two bindings share a contract and a name.** -/
theorem keys_bindings_nodup : (c.bindings.map (·.key)).Nodup := by
  have h : c.bindings.map (·.key) = (Entry.sort c.entries).map (·.key) := by
    rw [bindings, List.map_map]
    exact List.map_congr_left fun e he => key_eq_of_mem_sort he
  rw [h]
  exact (Entry.sort_perm.map _).nodup_iff.2 c.keys_nodup

/-- A look-up is a look-up in the listing. -/
theorem get?_eq_find? : c.get? key = c.bindings.find? (·.key == key) := by
  rw [get?, ← Entry.find?_key_sort c.keys_nodup, bindings, List.find?_map, ← List.head?_filter,
    ← List.head?_filter]
  congr 2
  refine List.filter_congr fun e he => ?_
  simp [key_eq_of_mem_sort he]

theorem contains_iff {contract : Contract} {name : String} :
    c.contains contract name = true ↔ ∃ b ∈ c.bindings, b.key = contract.key name := by
  simp only [contains, List.any_eq_true, beq_iff_eq, mem_bindings]
  constructor
  · rintro ⟨e, he, hk⟩
    exact ⟨e.binding, ⟨e, he, rfl⟩, (c.key_eq e he) ▸ hk⟩
  · rintro ⟨_, ⟨e, he, rfl⟩, hk⟩
    exact ⟨e, he, (c.key_eq e he).trans hk⟩

/-- A binding is found by its name under any contract of its contract's type. -/
theorem find?_of_mem (h : b ∈ c.bindings) {contract : Contract}
    (hsame : b.contract.same contract = true) : c.find? contract b.name = some b := by
  obtain ⟨e, he, rfl⟩ := mem_bindings.1 h
  have hkey : e.key = contract.key e.binding.name := by
    rw [c.key_eq e he]
    exact Contract.key_eq_iff.2 ⟨hsame, rfl⟩
  have hfind := (Entry.find?_key_eq_some_iff c.keys_nodup).2 ⟨he, hkey⟩
  rw [find?, get?, hfind]
  rfl

theorem mem_of_mem_entriesOf {contract : Contract} {e : Entry β}
    (he : e ∈ c.entriesOf contract) : e ∈ c.entries :=
  List.mem_of_mem_filter (Entry.mem_sort.1 he)

/-- An entry of a contract stands under the contract's key, whatever contract its binding has. -/
theorem key_eq_of_mem_entriesOf {contract : Contract} {e : Entry β}
    (he : e ∈ c.entriesOf contract) : e.key = contract.key e.binding.name := by
  have hid : e.key.identity = contract.type.identity := by
    simpa using List.of_mem_filter (Entry.mem_sort.1 he)
  have hkey := c.key_eq e (mem_of_mem_entriesOf he)
  rw [hkey] at hid ⊢
  rw [Binding.key, Contract.key, Contract.key, ← hid]
  rfl

theorem keys_entriesOf {contract : Contract} :
    (c.entriesOf contract).map (·.key) = (c.names contract).map contract.key := by
  rw [names, List.map_map]
  exact List.map_congr_left fun e he => key_eq_of_mem_entriesOf he

/-- The bindings of a contract are those of the listing. -/
theorem bindings_entriesOf {contract : Contract} :
    (c.entriesOf contract).map (·.binding) = c.bindings.filter (·.contract.same contract) := by
  rw [entriesOf, Entry.sort_filter c.sequences_nodup, bindings, List.filter_map]
  congr 1
  refine List.filter_congr fun e he => ?_
  simp [← key_eq_of_mem_sort he, Binding.key, Contract.key, Contract.same, TypeRef.same]

theorem names_eq {contract : Contract} :
    c.names contract = (c.bindings.filter (·.contract.same contract)).map (·.name) := by
  rw [names, ← bindings_entriesOf, List.map_map]
  rfl

theorem size_eq : c.size = c.bindings.length := by
  simp [size, bindings, Entry.sort_perm.length_eq]

theorem depth_eq : c.depth = Factory.totalWeight (c.bindings.map (·.factory)) := by
  rw [depth, bindings, List.map_map]
  exact Factory.totalWeight_perm (Entry.sort_perm.map _).symm

/-! ## Registering -/

/-- **What a registration can come to**: it is refused for a blank name first and for a taken key
second, and otherwise appends its binding and touches no other. -/
theorem add_cases (c : Container β) (b : Binding β) :
    (Text.isBlank b.name = true ∧ c.add b = .error (.invalidName b.contract.name)) ∨
    (Text.isBlank b.name = false ∧ c.contains b.contract b.name = true ∧
      c.add b = .error (.duplicateName b.contract.name b.name)) ∨
    (Text.isBlank b.name = false ∧ c.contains b.contract b.name = false ∧
      ∃ c', c.add b = .ok c' ∧ c'.bindings = c.bindings ++ [b] ∧ c'.minted = c.minted) := by
  unfold add
  by_cases hb : Text.isBlank b.name = true
  · exact .inl ⟨hb, by rw [if_pos hb]⟩
  · by_cases ht : c.contains b.contract b.name = true
    · exact .inr (.inl ⟨by simpa using hb, ht, by rw [if_neg hb, dif_pos ht]⟩)
    · refine .inr (.inr ⟨by simpa using hb, by simpa using ht, ?_⟩)
      rw [if_neg hb, dif_neg ht]
      refine ⟨_, rfl, ?_, rfl⟩
      simp only [bindings]
      rw [Entry.sort_cons_of_lt c.sequences_nodup c.sequence_lt, List.map_append]
      rfl

/-- **Registering appends one binding and touches no other.** -/
theorem bindings_add (h : c.add b = .ok c') : c'.bindings = c.bindings ++ [b] := by
  rcases add_cases c b with ⟨-, he⟩ | ⟨-, -, he⟩ | ⟨-, -, c'', hok, hb, -⟩
  · rw [he] at h; cases h
  · rw [he] at h; cases h
  · rw [hok] at h; cases h; exact hb

/-- A binding is entered only where there is none. -/
theorem get?_of_add (h : c.add b = .ok c') : c.get? b.key = none := by
  rcases add_cases c b with ⟨-, he⟩ | ⟨-, -, he⟩ | ⟨-, ht, -⟩
  · rw [he] at h; cases h
  · rw [he] at h; cases h
  · rw [get?_eq_find?, List.find?_eq_none]
    intro old hold hkey
    have hin := contains_iff.2 ⟨old, hold, (by simpa using hkey : old.key = b.key)⟩
    rw [ht] at hin
    cases hin

/-- It is found under its key then, and any other as before. -/
theorem get?_add (h : c.add b = .ok c') (key : BindingKey) :
    c'.get? key = if key = b.key then some b else c.get? key := by
  rw [get?_eq_find?, bindings_add h, List.find?_append, ← get?_eq_find?]
  by_cases hk : key = b.key
  · rw [if_pos hk, hk, get?_of_add h]
    simp
  · have hne : (b.key == key) = false := by simpa using Ne.symm hk
    simp [if_neg hk, hne]

theorem minted_add (h : c.add b = .ok c') : c'.minted = c.minted := by
  rcases add_cases c b with ⟨-, he⟩ | ⟨-, -, he⟩ | ⟨-, -, c'', hok, -, hm⟩
  · rw [he] at h; cases h
  · rw [he] at h; cases h
  · rw [hok] at h; cases h; exact hm

/-! ## Changing a binding -/

/-- **A change of one binding leaves all others, and the order.** -/
theorem bindings_update {f : Binding β → Binding β} {hf : ∀ b, (f b).key = b.key} :
    (c.update key f hf).bindings = c.bindings.map fun b => if b.key = key then f b else b := by
  simp only [bindings, update]
  rw [Entry.sort_map_change, List.map_map, List.map_map]
  refine List.map_congr_left fun e he => ?_
  simp only [Function.comp_apply, Entry.change, key_eq_of_mem_sort he]
  split <;> rfl

/-- What is found has the key it was looked up by. -/
theorem key_of_get?_eq_some (h : c.get? key = some b) : b.key = key := by
  rw [get?_eq_find?] at h
  simpa using List.find?_some h

/-- A change of the binding of a key is seen under that key only. -/
theorem get?_update {f : Binding β → Binding β} {hf : ∀ b, (f b).key = b.key}
    {key' : BindingKey} :
    (c.update key f hf).get? key' = if key' = key then (c.get? key').map f else c.get? key' := by
  have hpred : ((fun b : Binding β => b.key == key') ∘ fun b => if b.key = key then f b else b)
      = fun b => b.key == key' := by
    funext b
    by_cases hk : b.key = key <;> simp [hk, hf]
  rw [get?_eq_find?, bindings_update, List.find?_map, hpred, ← get?_eq_find?]
  cases hg : c.get? key' with
  | none => simp
  | some b =>
    have hkey := key_of_get?_eq_some hg
    by_cases hk : key' = key <;> simp [hk, hkey]

end Container
end ModularHost
