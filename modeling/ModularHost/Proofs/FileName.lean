import Mathlib.Data.List.Basic
import ModularHost.Path
/-!
# File names in directories

A name without slashes that is put into a directory is the file name of the path that comes out,
whatever the directory is called (`Path.fileName?_join`). So the stem and the extension of a path
made of the two are those it was made of.
-/


namespace ModularHost
namespace Path

variable {d : Path} {cs before after : List Char}

/-! ## Pieces -/

theorem splitSlashes_ne_nil (cs : List Char) : splitSlashes cs ≠ [] := by
  cases cs with
  | nil => simp [splitSlashes]
  | cons c cs =>
    unfold splitSlashes
    split
    · simp
    · split <;> simp

theorem splitSlashes_append_slash (before after : List Char) :
    splitSlashes (before ++ '/' :: after) = splitSlashes before ++ splitSlashes after := by
  induction before with
  | nil => simp [splitSlashes]
  | cons c before ih =>
    rw [List.cons_append, splitSlashes, ih, splitSlashes]
    by_cases hc : c = '/'
    · rw [if_pos hc, if_pos hc, List.cons_append]
    · rw [if_neg hc, if_neg hc]
      cases hbefore : splitSlashes before with
      | nil => exact absurd hbefore (splitSlashes_ne_nil before)
      | cons piece pieces => rfl

theorem splitSlashes_of_not_mem (h : '/' ∉ cs) : splitSlashes cs = [cs] := by
  induction cs with
  | nil => rfl
  | cons c cs ih =>
    rw [List.mem_cons, not_or] at h
    rw [splitSlashes, if_neg (Ne.symm h.1), ih h.2]

/-- The pieces of a name in a directory are those of the directory and the name. -/
theorem pieces_join {name : String} (h : '/' ∉ name.toList) :
    (d.text = "" ∧ (d.join name).pieces = [name.toList]) ∨
    ∃ front, front ≠ [] ∧ (d.pieces = front ∨ d.pieces = front ++ [[]]) ∧
      (d.join name).pieces = front ++ [name.toList] ∧ (d.join name).isAbsolute = d.isAbsolute := by
  have hrelative : name.toList.head? ≠ some '/' := fun hhead => h (List.mem_of_mem_head? hhead)
  unfold pieces isAbsolute join
  rw [if_neg hrelative]
  split
  · rename_i hlast
    have hempty : d.text = "" := by simpa using List.getLast?_eq_none_iff.1 hlast
    exact .inl ⟨hempty, by simp [hempty, splitSlashes_of_not_mem h]⟩
  · rename_i hlast
    obtain ⟨before, hbefore⟩ := List.getLast?_eq_some_iff.1 hlast
    refine .inr ⟨splitSlashes before, splitSlashes_ne_nil before, .inr ?_, ?_, ?_⟩
    · rw [hbefore, splitSlashes_append_slash]
      rfl
    · simp [hbefore, splitSlashes_append_slash, splitSlashes_of_not_mem h]
    · cases before <;> simp [hbefore]
  · rename_i c hlast
    have hne : d.text.toList ≠ [] := fun hnil => by simp [hnil] at hlast
    refine .inr ⟨splitSlashes d.text.toList, splitSlashes_ne_nil _, .inl rfl, ?_, ?_⟩
    · simp [splitSlashes_append_slash, splitSlashes_of_not_mem h]
    · obtain ⟨first, others, hfirst⟩ := List.exists_cons_of_ne_nil hne
      simp [hfirst]

/-! ## Names -/

/-- A name that an entry of a directory can have. -/
structure IsName (name : String) : Prop where
  ne_empty : name ≠ ""
  no_slash : '/' ∉ name.toList
  ne_here : name ≠ "."
  ne_parent : name ≠ ".."

namespace IsName

variable {name : String}

theorem toList_ne_here (h : IsName name) : name.toList ≠ ['.'] := fun heq =>
  h.ne_here (String.toList_inj.1 heq)

theorem toList_ne_parent (h : IsName name) : name.toList ≠ ['.', '.'] := fun heq =>
  h.ne_parent (String.toList_inj.1 heq)

/-- A name stands for itself as a part of a path. -/
theorem ofPiece?_eq (h : IsName name) :
    Part.ofPiece? name.toList = some (.named name.toList) := by
  rw [Part.ofPiece?, if_neg (by simp [h.toList_ne_here, h.ne_empty]), if_neg h.toList_ne_parent]

end IsName

/-- **A name put into a directory is one part more**, after those of the directory. -/
theorem parts_join {name : String} (h : IsName name) :
    (d.join name).parts = d.parts ++ [.named name.toList] := by
  have hnamed := h.ofPiece?_eq
  have hnothing : Part.ofPiece? [] = none := rfl
  rcases d.pieces_join h.no_slash with ⟨hempty, hpieces⟩ | ⟨front, hfront, hd, hpieces, habsolute⟩
  · have hdot := h.toList_ne_here
    have habsolute : (d.join name).isAbsolute = false := by
      have hhead : name.toList.head? ≠ some '/' := fun hhead =>
        h.no_slash (List.mem_of_mem_head? hhead)
      simp [join, isAbsolute, hempty, hhead]
    have hd : d.parts = [] := by
      simp [parts, pieces, isAbsolute, hempty, splitSlashes, hnothing]
    rw [hd, List.nil_append]
    simp [parts, habsolute, hpieces, hnamed, hdot]
  · obtain ⟨first, hfirst⟩ := Option.isSome_iff_exists.1 (List.isSome_head?.2 hfront)
    rcases hd with hd | hd <;>
      simp [parts, hd, hpieces, habsolute, hnamed, hnothing, hfirst, List.head?_append]

/-- **A name put into a directory is the file name.** -/
theorem fileName?_join {name : String} (h : IsName name) :
    (d.join name).fileName? = some name.toList := by
  rw [fileName?, parts_join h, List.getLast?_concat]

/-! ## Stems and extensions -/

theorem splitLastDot_eq_none_iff : splitLastDot cs = none ↔ '.' ∉ cs := by
  induction cs with
  | nil => simp [splitLastDot]
  | cons c cs ih =>
    rw [splitLastDot, List.mem_cons, not_or, ← ih]
    cases splitLastDot cs with
    | some split => simp
    | none => simp [eq_comm]

theorem splitLastDot_append_dot (h : '.' ∉ after) :
    splitLastDot (before ++ '.' :: after) = some (before, after) := by
  induction before with
  | nil => simp [splitLastDot, splitLastDot_eq_none_iff.2 h]
  | cons c before ih => rw [List.cons_append, splitLastDot, ih]

/-- What stands before and after the dot of a name is its stem and its extension. -/
theorem splitName_append_dot (hbefore : before ≠ []) (h : '.' ∉ after) :
    splitName (before ++ '.' :: after) = (before, some after) := by
  obtain ⟨c, cs, rfl⟩ := List.exists_cons_of_ne_nil hbefore
  rw [splitName, splitLastDot_append_dot h]

theorem eq_of_splitLastDot (h : splitLastDot cs = some (before, after)) :
    cs = before ++ '.' :: after ∧ '.' ∉ after := by
  induction cs generalizing before with
  | nil => cases h
  | cons c cs ih =>
    rw [splitLastDot] at h
    cases hrest : splitLastDot cs with
    | some split =>
      obtain ⟨front, back⟩ := split
      rw [hrest] at h ih
      cases h
      obtain ⟨rfl, hdot⟩ := ih rfl
      exact ⟨rfl, hdot⟩
    | none =>
      rw [hrest] at h
      dsimp only at h
      split at h
      · rename_i hc
        cases h
        exact ⟨by rw [hc]; rfl, splitLastDot_eq_none_iff.1 hrest⟩
      · cases h

theorem splitName_eq_some_iff : (splitName cs).2 = some after ↔
    ∃ before, before ≠ [] ∧ cs = before ++ '.' :: after ∧ '.' ∉ after := by
  constructor
  · intro h
    unfold splitName at h
    split at h
    · cases h
    · cases h
    · rename_i before after' hne hsplit
      cases h
      obtain ⟨hcs, hdot⟩ := eq_of_splitLastDot hsplit
      exact ⟨before, hne, hcs, hdot⟩
  · rintro ⟨before, hne, rfl, hdot⟩
    rw [splitName_append_dot hne hdot]

/-- **A name's extension** is what follows its last dot, unless that dot comes first. -/
def NameEnds (name extension : String) : Prop :=
  ∃ stem, stem ≠ "" ∧ name = stem ++ "." ++ extension ∧ '.' ∉ extension.toList

/-- **The extension of a path in a directory** is that of the name. -/
theorem extension?_join_eq_some_iff {name extension : String} (h : IsName name) :
    (d.join name).extension? = some extension ↔ NameEnds name extension := by
  rw [extension?, fileName?_join h, Option.bind_some, Option.map_eq_some_iff]
  constructor
  · rintro ⟨after, hafter, rfl⟩
    obtain ⟨before, hne, hname, hdot⟩ := splitName_eq_some_iff.1 hafter
    refine ⟨String.ofList before, by simpa using hne, ?_, by simpa using hdot⟩
    rw [← String.toList_inj, hname]
    simp
  · rintro ⟨stem, hne, rfl, hdot⟩
    refine ⟨extension.toList, splitName_eq_some_iff.2 ⟨stem.toList, by simpa using hne, ?_, hdot⟩,
      String.ofList_toList⟩
    simp

/-- A stem and an extension that can be told apart in a file name. -/
structure Splits (stem extension : String) : Prop where
  stem_ne : stem ≠ ""
  extension_ne : extension ≠ ""
  no_slash : '/' ∉ (stem ++ "." ++ extension).toList
  no_dot : '.' ∉ extension.toList

namespace Splits

variable {stem extension : String}

theorem toList_eq (stem extension : String) :
    (stem ++ "." ++ extension).toList = stem.toList ++ '.' :: extension.toList := by
  simp

/-- A stem and an extension make up a name, however many dots are in it. -/
theorem isName (h : Splits stem extension) : IsName (stem ++ "." ++ extension) := by
  obtain ⟨c, cs, hstem⟩ : ∃ c cs, stem.toList = c :: cs :=
    List.exists_cons_of_ne_nil (by simpa using h.stem_ne)
  obtain ⟨e, es, hextension⟩ : ∃ e es, extension.toList = e :: es :=
    List.exists_cons_of_ne_nil (by simpa using h.extension_ne)
  have hlong : ∀ text : String, text.toList.length ≤ 2 → stem ++ "." ++ extension ≠ text := by
    rintro _ hlen rfl
    rw [toList_eq] at hlen
    simp only [hstem, hextension, List.length_append, List.length_cons] at hlen
    omega
  exact ⟨hlong _ (by decide), h.no_slash, hlong _ (by decide), hlong _ (by decide)⟩

theorem parts_join (h : Splits stem extension) :
    (d.join (stem ++ "." ++ extension)).parts =
      d.parts ++ [.named (stem ++ "." ++ extension).toList] :=
  Path.parts_join h.isName

theorem fileName?_join (h : Splits stem extension) :
    (d.join (stem ++ "." ++ extension)).fileName? =
      some (stem.toList ++ '.' :: extension.toList) := by
  rw [← toList_eq]
  exact Path.fileName?_join h.isName

/-- **The stem of a path is the one it was made of.** -/
theorem stem?_join (h : Splits stem extension) :
    (d.join (stem ++ "." ++ extension)).stem? = some stem := by
  have hstem : stem.toList ≠ [] := by simpa using h.stem_ne
  rw [stem?, h.fileName?_join, Option.map_some, splitName_append_dot hstem h.no_dot]
  exact congrArg some String.ofList_toList

theorem extension?_join (h : Splits stem extension) :
    (d.join (stem ++ "." ++ extension)).extension? = some extension :=
  (extension?_join_eq_some_iff h.isName).2 ⟨stem, h.stem_ne, rfl, h.no_dot⟩

end Splits
end Path
end ModularHost
