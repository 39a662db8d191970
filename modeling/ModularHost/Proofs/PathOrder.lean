import Mathlib.Data.List.Basic
import ModularHost.Proofs.FileName
/-!
# The order of texts and paths

Texts that differ are sorted one strictly before the other, and the paths of names in one directory
are in the order of the names (`Path.le_join`). So sorting the paths is sorting the names
(`Path.sort_join`).
-/


namespace ModularHost

/-! ## Texts -/

/-- Different texts are put one strictly before the other. -/
theorem Text.pairwise_lt_sort {names : List String} (h : names.Nodup) :
    (names.mergeSort fun a b => !decide (b < a)).Pairwise (· < ·) := by
  have htrans : ∀ a b c : String, (!decide (b < a)) = true → (!decide (c < b)) = true →
      (!decide (c < a)) = true := by
    intro a b c hab hbc
    simp only [Bool.not_eq_true', decide_eq_false_iff_not, String.not_lt] at hab hbc ⊢
    exact String.le_trans hab hbc
  have htotal : ∀ a b : String, (!decide (b < a) || !decide (a < b)) = true := by
    intro a b
    simp only [Bool.or_eq_true, Bool.not_eq_true', decide_eq_false_iff_not, String.not_lt]
    exact String.le_total a b
  have hsorted := List.pairwise_mergeSort htrans htotal names
  have hnodup := (List.mergeSort_perm names fun a b => !decide (b < a)).nodup_iff.2 h
  refine hsorted.imp₂ (fun a b hle hne => ?_) hnodup
  simp only [Bool.not_eq_true', decide_eq_false_iff_not, String.not_lt] at hle
  exact String.not_le.1 fun hle' => hne (String.le_antisymm hle hle')

/-! ## Paths in one directory -/

namespace Path

variable {directory : Path}

theorem Part.le_total (a b : Part) : a.le b = true ∨ b.le a = true := by
  cases a with
  | root | here | parent => cases b <;> simp [Part.le]
  | named a =>
    cases b with
    | root | here | parent => simp [Part.le]
    | named b =>
      simp only [Part.le, Bool.not_eq_true', decide_eq_false_iff_not]
      by_cases hlt : b < a
      · exact .inr (List.lt_asymm hlt)
      · exact .inl hlt

theorem partsLe_total (as bs : List Part) : partsLe as bs = true ∨ partsLe bs as = true := by
  induction as generalizing bs with
  | nil => exact .inl rfl
  | cons a as ih =>
    cases bs with
    | nil => exact .inr rfl
    | cons b bs =>
      simp only [partsLe]
      by_cases hsame : a = b
      · simpa [hsame] using ih bs
      · simpa [hsame, Ne.symm hsame] using Part.le_total a b

/-- One path comes before another, and is not the same. -/
def Before (p q : Path) : Prop := q.le p = false

theorem Before.asymm {p q : Path} (h : p.Before q) : ¬ q.Before p := by
  intro h'
  rcases partsLe_total p.parts q.parts with hle | hle
  · cases hle.symm.trans (show partsLe p.parts q.parts = false from h')
  · cases hle.symm.trans (show partsLe q.parts p.parts = false from h)

theorem partsLe_append_left (front as bs : List Part) :
    partsLe (front ++ as) (front ++ bs) = partsLe as bs := by
  induction front with
  | nil => rfl
  | cons part front ih => simp [partsLe, ih]

/-- **Paths in one directory are in the order of their names.** -/
theorem le_join {a b : String} (ha : IsName a) (hb : IsName b) :
    (directory.join a).le (directory.join b) = !decide (b < a) := by
  rw [le, parts_join ha, parts_join hb, partsLe_append_left]
  simp only [partsLe, Part.named.injEq, Part.le, String.lt_iff]
  split
  · rename_i hsame
    rw [hsame]
    rw [decide_eq_false (List.lt_irrefl _)]
    rfl
  · rfl

theorem before_join_iff {a b : String} (ha : IsName a) (hb : IsName b) :
    (directory.join a).Before (directory.join b) ↔ a < b := by
  rw [Before, le_join hb ha]
  simp

/-- **Different names make different paths.** -/
theorem join_inj {a b : String} (ha : IsName a) (hb : IsName b) :
    directory.join a = directory.join b ↔ a = b := by
  refine ⟨fun h => ?_, fun h => h ▸ rfl⟩
  have hparts := congrArg parts h
  rw [parts_join ha, parts_join hb] at hparts
  simpa [String.toList_inj] using List.append_cancel_left hparts

/-- Sorting the paths of names is sorting the names. -/
theorem sort_join {names : List String} (h : ∀ name ∈ names, IsName name) :
    (names.map directory.join).mergeSort Path.le =
      (names.mergeSort fun a b => !decide (b < a)).map directory.join :=
  (List.map_mergeSort fun a ha b hb => (le_join (h a ha) (h b hb)).symm).symm

/-- **The paths of different names are sorted** one strictly before the other. -/
theorem pairwise_before_sort {names : List String} (hnodup : names.Nodup)
    (h : ∀ name ∈ names, IsName name) :
    ((names.map directory.join).mergeSort Path.le).Pairwise Before := by
  -- the names are without duplicates, so once sorted they increase strictly
  rw [sort_join h, List.pairwise_map]
  refine (Text.pairwise_lt_sort hnodup).imp_of_mem fun ha hb hlt => ?_
  exact (before_join_iff (h _ (List.mem_mergeSort.1 ha)) (h _ (List.mem_mergeSort.1 hb))).2 hlt

end Path
end ModularHost
