import Mathlib.Algebra.GroupWithZero.Nat
import Mathlib.Data.List.Forall2
import ModularHost.Uuid
/-!
# The forms of an identifier

An identifier is read in four forms: its 32 digits, with hyphens between the groups, and with
hyphens also in braces or behind the mark of a name. Letters count in either case. These are all the
forms there are (`Uuid.parse?_eq_some_iff`), and the one in which identifiers are written is one of
them (`Uuid.written_print`).
-/


namespace ModularHost

/-- A character stands for a digit: as it is written, or in upper case. -/
theorem hexDigitOf?_eq_some_iff {c : Char} {d : Fin 16} :
    hexDigitOf? c = some d ↔ c = hexCharOf d ∨ c = (hexCharOf d).toUpper := by
  constructor
  · -- no character beyond `f` is a digit, so there are few to try
    have hall : ∀ n < 103, ∀ d, hexDigitOf? (Char.ofNat n) = some d →
        Char.ofNat n = hexCharOf d ∨ Char.ofNat n = (hexCharOf d).toUpper := by
      decide +kernel
    intro h
    have hsmall : c.toNat < 103 := by
      by_contra hlarge
      simp only [hexDigitOf?] at h
      repeat rw [dif_neg (by omega)] at h
      cases h
    rw [← Char.ofNat_toNat c] at h ⊢
    exact hall c.toNat hsmall d h
  · have hall : ∀ d : Fin 16, hexDigitOf? (hexCharOf d) = some d ∧
        hexDigitOf? (hexCharOf d).toUpper = some d := by
      decide
    rintro (rfl | rfl)
    · exact (hall d).1
    · exact (hall d).2

namespace Uuid

variable {u : Uuid} {cs : List Char}

/-- The digits of an identifier, each in either case. -/
def Spells (u : Uuid) (cs : List Char) : Prop :=
  List.Forall₂ (fun c d => c = hexCharOf d ∨ c = (hexCharOf d).toUpper) cs u.digits

/-- **The forms in which an identifier may be written.** -/
inductive Written (u : Uuid) : List Char → Prop
  | plain {cs : List Char} : u.Spells cs → Written u cs
  | hyphenated {cs : List Char} : u.Spells cs → Written u (hyphenate groups cs)
  | braced {cs : List Char} : u.Spells cs → Written u ('{' :: (hyphenate groups cs ++ ['}']))
  | urn {mark cs : List Char} : mark.map Char.toLower = urnMark → u.Spells cs →
    Written u (mark ++ hyphenate groups cs)

theorem Spells.length_eq (h : u.Spells cs) : cs.length = 32 :=
  (List.Forall₂.length_eq h).trans u.length_digits

/-- Reading some things and keeping those that can be read, if all of them can. -/
theorem mapM_eq_some_iff {α β : Type} {f : α → Option β} {as : List α} {bs : List β} :
    as.mapM f = some bs ↔ List.Forall₂ (fun a b => f a = some b) as bs := by
  induction as generalizing bs with
  | nil => simp [eq_comm]
  | cons a as ih =>
    simp only [List.mapM_cons, Option.bind_eq_bind, Option.bind_eq_some_iff, Option.pure_def,
      Option.some.injEq, ih, List.forall₂_cons_left_iff]
    constructor
    · rintro ⟨b, hb, rest, hrest, rfl⟩
      exact ⟨b, rest, hb, hrest, rfl⟩
    · rintro ⟨b, rest, hb, hrest, rfl⟩
      exact ⟨b, hb, rest, hrest, rfl⟩

theorem parsePlain?_eq_some_iff : parsePlain? cs = some u ↔ u.Spells cs := by
  simp only [parsePlain?, Option.bind_eq_some_iff, mapM_eq_some_iff, hexDigitOf?_eq_some_iff,
    ofDigits?, Spells]
  constructor
  · rintro ⟨ds, hds, hu⟩
    split at hu
    · cases hu
      exact hds
    · cases hu
  · intro h
    exact ⟨u.digits, h, by rw [dif_pos u.length_digits]⟩

/-! ## Hyphens -/

theorem length_hyphenate {ns : List Nat} (hne : ns ≠ []) :
    ∀ cs : List Char, ns.sum ≤ cs.length →
      (hyphenate ns cs).length + 1 = cs.length + ns.length := by
  induction ns with
  | nil => exact absurd rfl hne
  | cons n ns ih =>
    intro cs h
    cases ns with
    | nil => rfl
    | cons m ns =>
      simp only [List.sum_cons] at h ih
      have hrest := ih (List.cons_ne_nil m ns) (cs.drop n) (by rw [List.length_drop]; omega)
      simp only [hyphenate, List.length_append, List.length_take, List.length_cons,
        List.length_drop] at hrest ⊢
      omega

/-- Hyphens that were put in can be taken out. -/
theorem unhyphenate?_hyphenate (ns : List Nat) :
    ∀ cs : List Char, ns.sum ≤ cs.length → unhyphenate? ns (hyphenate ns cs) = some cs := by
  induction ns with
  | nil => intro cs _; rfl
  | cons n ns ih =>
    intro cs h
    cases ns with
    | nil => rfl
    | cons m ns =>
      simp only [List.sum_cons] at h ih
      have hlen : (cs.take n).length = n := by rw [List.length_take]; omega
      have hrest := ih (cs.drop n) (by rw [List.length_drop]; omega)
      rw [hyphenate, unhyphenate?, List.drop_left' hlen, List.take_left' hlen]
      · simp only [hrest, Option.map_some, List.take_append_drop]
      all_goals exact List.cons_ne_nil m ns

/-- Hyphens that are taken out were there. -/
theorem eq_hyphenate_of_unhyphenate? (ns : List Nat) :
    ∀ {cs ds : List Char}, unhyphenate? ns cs = some ds → cs = hyphenate ns ds := by
  induction ns with
  | nil =>
    intro cs ds h
    simpa [unhyphenate?, hyphenate] using h
  | cons n ns ih =>
    intro cs ds h
    cases ns with
    | nil => simpa [unhyphenate?, hyphenate] using h
    | cons m ns =>
      rw [unhyphenate?] at h
      · split at h
        · rename_i rest hdrop
          obtain ⟨rest', hrest, rfl⟩ := Option.map_eq_some_iff.1 h
          have hlen : (cs.take n).length = n := by
            have hlong := congrArg List.length hdrop
            rw [List.length_drop, List.length_cons] at hlong
            rw [List.length_take]
            omega
          rw [hyphenate, List.take_left' hlen, List.drop_left' hlen, ← ih hrest, ← hdrop,
            List.take_append_drop]
          exact List.cons_ne_nil m ns
        · cases h
      · exact List.cons_ne_nil m ns

/-- A spelling with hyphens has four characters more. -/
theorem Spells.length_hyphenate (h : u.Spells cs) : (hyphenate groups cs).length = 36 := by
  have hlen := Uuid.length_hyphenate (by decide : groups ≠ []) cs
    (by rw [h.length_eq]; decide)
  rw [h.length_eq] at hlen
  simpa [groups] using hlen

theorem parseHyphenated?_eq_some_iff :
    parseHyphenated? cs = some u ↔ ∃ ds, u.Spells ds ∧ cs = hyphenate groups ds := by
  unfold parseHyphenated?
  constructor
  · intro h
    split at h
    · obtain ⟨ds, hds, hu⟩ := Option.bind_eq_some_iff.1 h
      exact ⟨ds, parsePlain?_eq_some_iff.1 hu, eq_hyphenate_of_unhyphenate? groups hds⟩
    · cases h
  · rintro ⟨ds, hds, rfl⟩
    have hsum : groups.sum ≤ ds.length := by rw [hds.length_eq]; decide
    rw [if_pos hds.length_hyphenate, unhyphenate?_hyphenate groups ds hsum]
    exact parsePlain?_eq_some_iff.2 hds

/-! ## All forms -/

theorem parse?_of_written (h : u.Written cs) : parse? cs = some u := by
  have hread : ∀ {cs}, u.Spells cs → parseHyphenated? (hyphenate groups cs) = some u := fun h =>
    parseHyphenated?_eq_some_iff.2 ⟨_, h, rfl⟩
  unfold parse?
  cases h with
  | plain h => rw [if_pos h.length_eq, parsePlain?_eq_some_iff.2 h]
  | hyphenated h =>
    rw [if_neg (by rw [h.length_hyphenate]; decide), if_pos h.length_hyphenate, hread h]
  | @braced cs h =>
    have hlen : ('{' :: (hyphenate groups cs ++ ['}'])).length = 38 := by
      simp [h.length_hyphenate]
    rw [if_neg (by rw [hlen]; decide), if_neg (by rw [hlen]; decide),
      if_pos ⟨hlen, rfl, by simp [List.getLast?_cons]⟩]
    simpa using hread h
  | @urn mark cs hmark h =>
    have hnine : mark.length = 9 := by simpa [urnMark] using congrArg List.length hmark
    have hlen : (mark ++ hyphenate groups cs).length = 45 := by
      rw [List.length_append, hnine, h.length_hyphenate]
    rw [if_neg (by rw [hlen]; decide), if_neg (by rw [hlen]; decide),
      if_neg (by rw [hlen]; rintro ⟨h, -⟩; revert h; decide),
      if_pos ⟨hlen, by rw [List.take_left' hnine, hmark]⟩, List.drop_left' hnine, hread h]

/-- **What is read as an identifier is one of its forms**, and each of its forms is read. -/
theorem parse?_eq_some_iff : parse? cs = some u ↔ u.Written cs := by
  refine ⟨fun h => ?_, parse?_of_written⟩
  unfold parse? at h
  split at h
  · exact .plain (parsePlain?_eq_some_iff.1 h)
  · split at h
    · obtain ⟨ds, hds, rfl⟩ := parseHyphenated?_eq_some_iff.1 h
      exact .hyphenated hds
    · split at h
      · rename_i hbraces
        obtain ⟨hlen, hhead, hlast⟩ := hbraces
        obtain ⟨ds, hds, hmid⟩ := parseHyphenated?_eq_some_iff.1 h
        have hcs : cs = '{' :: (hyphenate groups ds ++ ['}']) := by
          rw [← hmid]
          cases cs with
          | nil => cases hhead
          | cons c rest =>
            cases hhead
            have hne : rest ≠ [] := by
              rintro rfl
              cases hlen
            have hend : rest.getLast hne = '}' := by
              rw [List.getLast?_cons, List.getLast?_eq_some_getLast hne] at hlast
              simpa using hlast
            rw [List.drop_one, List.tail_cons, ← hend, List.dropLast_concat_getLast hne]
        rw [hcs]
        exact .braced hds
      · split at h
        · rename_i hmark
          obtain ⟨ds, hds, hrest⟩ := parseHyphenated?_eq_some_iff.1 h
          rw [← List.take_append_drop 9 cs, hrest]
          exact .urn hmark.2 hds
        · cases h

/-- The form in which identifiers are written is one in which they are read. -/
theorem written_print (u : Uuid) : u.Written u.print := by
  refine .hyphenated ?_
  rw [Spells, List.forall₂_map_left_iff]
  exact List.forall₂_same.2 fun d _ => .inl rfl

end Uuid

end ModularHost
