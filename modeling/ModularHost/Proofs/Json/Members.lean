import Mathlib.Data.List.Nodup
import ModularHost.Json.Basic
/-!
# Members of objects

The members of an object are a list, in which a key may come more than once. Where it does not, what
a key is looked up as does not depend on the order (`lookup_perm`), and there is one order by keys
(`KeyOrdered.eq_of_perm`): it is the one in which `sortMembers` puts them.
-/


namespace ModularHost

/-! ## Looking up -/

section Lookup

variable {κ α : Type} [BEq κ] [LawfulBEq κ] {key : κ} {v : α} {ms ms' : List (κ × α)}

/-- A key that comes once is looked up as the value it comes with. -/
theorem lookup_eq_some_iff_mem (h : (ms.map (·.1)).Nodup) :
    ms.lookup key = some v ↔ (key, v) ∈ ms := by
  induction ms with
  | nil => simp
  | cons m rest ih =>
    obtain ⟨k, w⟩ := m
    obtain ⟨hfresh, hrest⟩ := List.nodup_cons.1 h
    by_cases hk : key = k
    · subst hk
      have hnot : (key, v) ∉ rest := fun hmem => hfresh (List.mem_map_of_mem (f := (·.1)) hmem)
      simp [hnot, eq_comm]
    · have hne : (key == k) = false := beq_eq_false_iff_ne.2 hk
      simp [List.lookup_cons, hne, ih hrest, hk]

theorem lookup_eq_none_of_not_mem (h : key ∉ ms.map (·.1)) : ms.lookup key = none := by
  refine List.lookup_eq_none_iff.2 fun m hm => ?_
  simpa using fun heq : key = m.1 => h (heq ▸ List.mem_map_of_mem hm)

/-- The order of the members is nothing that a look-up sees. -/
theorem lookup_perm (h : (ms.map (·.1)).Nodup) (hperm : ms.Perm ms') (key : κ) :
    ms.lookup key = ms'.lookup key := by
  have h' : (ms'.map (·.1)).Nodup := (hperm.map _).nodup_iff.1 h
  refine Option.ext fun v => ?_
  rw [lookup_eq_some_iff_mem h, lookup_eq_some_iff_mem h', hperm.mem_iff]

/-- Nor does it see members with other keys. -/
theorem lookup_filter (ms : List (κ × α)) {p : κ → Bool} (h : p key = true) :
    (ms.filter fun m => p m.1).lookup key = ms.lookup key := by
  induction ms with
  | nil => rfl
  | cons m rest ih =>
    obtain ⟨k, w⟩ := m
    by_cases hk : key = k
    · subst hk
      simp [List.filter_cons_of_pos, h]
    · have hne : (key == k) = false := beq_eq_false_iff_ne.2 hk
      by_cases hp : p k = true
      · simp [List.filter_cons_of_pos, hp, List.lookup_cons, hne, ih]
      · simp [List.filter_cons_of_neg, hp, List.lookup_cons, hne, ih]

omit [BEq κ] [LawfulBEq κ] in
theorem nodup_keys_filter (h : (ms.map (·.1)).Nodup) (p : κ × α → Bool) :
    ((ms.filter p).map (·.1)).Nodup :=
  h.sublist (List.filter_sublist.map _)

/-- Of a key that comes once, a filter keeps the value or not. -/
theorem lookup_filter_of_nodup (h : (ms.map (·.1)).Nodup) (p : κ × α → Bool) :
    (ms.filter p).lookup key = (ms.lookup key).filter fun v => p (key, v) := by
  refine Option.ext fun v => ?_
  rw [lookup_eq_some_iff_mem (nodup_keys_filter h p), List.mem_filter, Option.filter_eq_some_iff,
    lookup_eq_some_iff_mem h]

/-- Members are told by what they are looked up as, but for their order. -/
theorem perm_of_lookup (h : (ms.map (·.1)).Nodup) (h' : (ms'.map (·.1)).Nodup)
    (hlookup : ∀ key, ms.lookup key = ms'.lookup key) : ms.Perm ms' := by
  refine (List.perm_ext_iff_of_nodup (List.Nodup.of_map _ h) (List.Nodup.of_map _ h')).2 ?_
  rintro ⟨key, v⟩
  rw [← lookup_eq_some_iff_mem h, ← lookup_eq_some_iff_mem h', hlookup]

end Lookup

/-! ## Sorting -/

variable {α : Type} {key : String} {value : α} {m : String × α} {ms ms' : List (String × α)}

/-- Each key is before the next one, so none comes twice. -/
def KeyOrdered (ms : List (String × α)) : Prop := ms.Pairwise fun m n => m.1 < n.1

theorem KeyOrdered.nodup_keys (h : KeyOrdered ms) : (ms.map (·.1)).Nodup := by
  rw [List.Nodup, List.pairwise_map]
  refine h.imp fun {m n} hlt (heq : m.1 = n.1) => ?_
  rw [heq] at hlt
  exact String.lt_irrefl n.1 hlt

theorem KeyOrdered.sublist (h : KeyOrdered ms) (hsub : ms'.Sublist ms) : KeyOrdered ms' :=
  List.Pairwise.sublist hsub h

theorem mem_insertMember (h : m ∈ insertMember key value ms) : m = (key, value) ∨ m ∈ ms := by
  induction ms with
  | nil => simpa [insertMember] using h
  | cons n rest ih =>
    obtain ⟨k, w⟩ := n
    rw [insertMember] at h
    split at h
    · exact (List.mem_cons.1 h).imp_right (List.mem_cons_of_mem _)
    · split at h
      · exact List.mem_cons.1 h
      · rcases List.mem_cons.1 h with rfl | hm
        · exact .inr List.mem_cons_self
        · exact (ih hm).imp_right (List.mem_cons_of_mem _)

theorem mem_sortMembers (h : m ∈ sortMembers ms) : m ∈ ms := by
  suffices hfold : ∀ sorted : List (String × α),
      m ∈ ms.foldl (fun sorted m => insertMember m.1 m.2 sorted) sorted → m ∈ sorted ∨ m ∈ ms from
    (hfold [] h).resolve_left List.not_mem_nil
  clear h
  induction ms with
  | nil => exact fun sorted h => .inl h
  | cons n rest ih =>
    intro sorted h
    rcases ih _ h with h | h
    · rcases mem_insertMember h with rfl | h
      · exact .inr List.mem_cons_self
      · exact .inl h
    · exact .inr (List.mem_cons_of_mem _ h)

theorem KeyOrdered.insertMember (h : KeyOrdered ms) (key : String) (value : α) :
    KeyOrdered (insertMember key value ms) := by
  induction ms with
  | nil => exact List.pairwise_singleton _ _
  | cons n rest ih =>
    obtain ⟨k, w⟩ := n
    obtain ⟨hfirst, hrest⟩ := List.pairwise_cons.1 h
    rw [ModularHost.insertMember]
    split
    · rename_i heq
      subst heq
      exact List.pairwise_cons.2 ⟨hfirst, hrest⟩
    · rename_i hne
      split
      · rename_i hlt
        refine List.pairwise_cons.2 ⟨fun m hm => ?_, h⟩
        rcases List.mem_cons.1 hm with rfl | hm
        · exact hlt
        · exact String.lt_trans hlt (hfirst m hm)
      · rename_i hlt
        refine List.pairwise_cons.2 ⟨fun m hm => ?_, ih hrest⟩
        rcases mem_insertMember hm with rfl | hm
        · exact String.not_le.1 fun hle => hne (String.le_antisymm hle (String.not_lt.1 hlt))
        · exact hfirst m hm

/-- A new key is put among the others. -/
theorem insertMember_perm (h : key ∉ ms.map (·.1)) :
    (insertMember key value ms).Perm ((key, value) :: ms) := by
  induction ms with
  | nil => exact .refl _
  | cons n rest ih =>
    obtain ⟨k, w⟩ := n
    simp only [List.map_cons, List.mem_cons, not_or] at h
    obtain ⟨hne, hrest⟩ := h
    rw [insertMember, if_neg hne]
    split
    · exact .refl _
    · exact ((ih hrest).cons (k, w)).trans (.swap _ _ _)

theorem keyOrdered_sortMembers (ms : List (String × α)) : KeyOrdered (sortMembers ms) := by
  suffices h : ∀ sorted : List (String × α), KeyOrdered sorted →
      KeyOrdered (ms.foldl (fun sorted m => insertMember m.1 m.2 sorted) sorted) from
    h [] List.Pairwise.nil
  induction ms with
  | nil => exact fun sorted h => h
  | cons m rest ih => exact fun sorted h => ih _ (h.insertMember m.1 m.2)

/-- **Members without repeated keys are all there when they are sorted.** -/
theorem sortMembers_perm (h : (ms.map (·.1)).Nodup) : (sortMembers ms).Perm ms := by
  suffices hfold : ∀ sorted : List (String × α), ((ms ++ sorted).map (·.1)).Nodup →
      (ms.foldl (fun sorted m => insertMember m.1 m.2 sorted) sorted).Perm (ms ++ sorted) by
    have hall := hfold [] (by rwa [List.append_nil])
    rwa [List.append_nil] at hall
  clear h
  induction ms with
  | nil => exact fun sorted _ => .refl _
  | cons m rest ih =>
    intro sorted h
    -- the member moves to those that are sorted, in front of which its key is new
    have hmove : ((m :: rest) ++ sorted).Perm (rest ++ m :: sorted) := List.perm_middle.symm
    have hmoved : ((rest ++ m :: sorted).map (·.1)).Nodup := (hmove.map _).nodup_iff.1 h
    have hnew : m.1 ∉ sorted.map (·.1) := by
      rw [List.map_append, List.nodup_append] at hmoved
      exact (List.nodup_cons.1 hmoved.2.1).1
    have hput : (rest ++ insertMember m.1 m.2 sorted).Perm (rest ++ m :: sorted) :=
      (insertMember_perm hnew).append_left rest
    rw [List.foldl_cons]
    exact ((ih _ ((hput.map _).nodup_iff.2 hmoved)).trans hput).trans hmove.symm

/-- **There is one order by keys.** -/
theorem KeyOrdered.eq_of_perm (h : KeyOrdered ms) (h' : KeyOrdered ms') (hperm : ms.Perm ms') :
    ms = ms' :=
  hperm.eq_of_pairwise (fun _ _ _ _ hlt hgt => absurd hgt (String.lt_asymm hlt)) h h'

/-- Members are sorted into what is in order and has the same members. -/
theorem KeyOrdered.sortMembers_eq (h : KeyOrdered ms) (hperm : ms'.Perm ms) :
    sortMembers ms' = ms :=
  (keyOrdered_sortMembers ms').eq_of_perm h
    ((sortMembers_perm ((hperm.map _).nodup_iff.2 h.nodup_keys)).trans hperm)

/-- Sorting undoes any order of members without repeated keys. -/
theorem sortMembers_congr (h : (ms.map (·.1)).Nodup) (hperm : ms.Perm ms') :
    sortMembers ms = sortMembers ms' :=
  (keyOrdered_sortMembers ms').sortMembers_eq
    (hperm.trans (sortMembers_perm ((hperm.map _).nodup_iff.1 h)).symm)

/-! ## What a tree means -/

namespace Json

theorem normalItems_eq_map (items : List Json) : normalItems items = items.map normal := by
  induction items with
  | nil => rfl
  | cons v rest ih => rw [normalItems, List.map_cons, ih]

theorem normalMembers_eq_map (ms : List (String × Json)) :
    normalMembers ms = ms.map fun m => (m.1, m.2.normal) := by
  induction ms with
  | nil => rfl
  | cons m rest ih => rw [normalMembers, List.map_cons, ih]

theorem normalMembers_eq_self {ms : List (String × Json)} (h : ∀ m ∈ ms, m.2.normal = m.2) :
    normalMembers ms = ms := by
  induction ms with
  | nil => rfl
  | cons m rest ih =>
    obtain ⟨hm, hrest⟩ := List.forall_mem_cons.1 h
    rw [normalMembers, hm, ih hrest]

theorem map_fst_normalMembers (ms : List (String × Json)) :
    (normalMembers ms).map (·.1) = ms.map (·.1) := by
  rw [normalMembers_eq_map, List.map_map]
  rfl

theorem lookup_normalMembers (ms : List (String × Json)) (key : String) :
    (normalMembers ms).lookup key = (ms.lookup key).map normal := by
  induction ms with
  | nil => rfl
  | cons m rest ih =>
    obtain ⟨k, v⟩ := m
    rw [normalMembers, List.lookup_cons, List.lookup_cons]
    cases key == k with
    | true => rfl
    | false => exact ih

/-- The value that a tree means is what it means itself. -/
theorem normal_normal : ∀ v : Json, v.normal.normal = v.normal
  | .null | .bool _ | .int _ | .str _ => rfl
  | .date _ => rfl
  | .real x => by
    by_cases hx : x.isFinite = true
    · simp [normal, hx]
    · simp [normal, hx]
  | .arr items => by
    have hitems : ∀ v ∈ items, v.normal.normal = v.normal := fun v _ => normal_normal v
    rw [normal, normal, normalItems_eq_map, normalItems_eq_map, List.map_map]
    exact congrArg Json.arr (List.map_congr_left hitems)
  | .obj ms => by
    have hmembers : ∀ m ∈ ms, m.2.normal.normal = m.2.normal := fun (key, v) hm =>
      have hsmaller : sizeOf v < 1 + sizeOf ms := by
        have hmember := List.sizeOf_lt_of_mem hm
        rw [Prod.mk.sizeOf_spec] at hmember
        omega
      normal_normal v
    have hsorted : normalMembers (sortMembers (normalMembers ms)) =
        sortMembers (normalMembers ms) := by
      refine normalMembers_eq_self fun m hm => ?_
      have hm' := mem_sortMembers hm
      rw [normalMembers_eq_map] at hm'
      obtain ⟨n, hn, rfl⟩ := List.mem_map.1 hm'
      exact hmembers n hn
    rw [normal, normal, hsorted, (keyOrdered_sortMembers _).sortMembers_eq (.refl _)]

/-- The members of the object that is meant mean themselves. -/
theorem normal_of_mem_normalMembers (ms : List (String × Json)) (m : String × Json)
    (hm : m ∈ normalMembers ms) : m.2.normal = m.2 := by
  rw [normalMembers_eq_map] at hm
  obtain ⟨n, -, rfl⟩ := List.mem_map.1 hm
  exact normal_normal n.2

/-- **An object means itself** if its keys are in order and its values mean themselves. -/
theorem normal_obj_eq_self_iff {ms : List (String × Json)} :
    (Json.obj ms).normal = .obj ms ↔ KeyOrdered ms ∧ ∀ m ∈ ms, m.2.normal = m.2 := by
  rw [normal, Json.obj.injEq]
  constructor
  · intro h
    rw [← h]
    exact ⟨keyOrdered_sortMembers _,
      fun m hm => normal_of_mem_normalMembers ms m (mem_sortMembers hm)⟩
  · rintro ⟨hordered, hvalues⟩
    rw [normalMembers_eq_self hvalues, hordered.sortMembers_eq (.refl _)]

end Json

end ModularHost
