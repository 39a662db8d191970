import Mathlib.Algebra.Group.Int.Defs
import Mathlib.Algebra.Group.Nat.Defs
import Mathlib.Data.List.Basic
import ModularHost.Json.Printer
import ModularHost.Proofs.Json.Agreement
/-!
# Printing and reading back

A value that is printed can be read again, and is then the same value (`readTree_print`), as long as
its numbers are whole and of 64 bits and no more brackets are open at once than the reader allows.
Every character of a string is read back from what it is written as, and every number from its
digits; a container is read element by element, up to the bracket that was printed last.
-/


namespace ModularHost
namespace Json

/-! ## What can be read back -/

mutual

/-- Its numbers are whole and of 64 bits, and there are no dates in it. -/
def Plain : Json → Prop
  | .real _ | .date _ => False
  | .int n => -(2 : Int) ^ 63 ≤ n ∧ n < 2 ^ 64
  | .arr items => PlainItems items
  | .obj members => PlainMembers members
  | .null | .bool _ | .str _ => True

/-- `Plain` for each element. -/
def PlainItems : List Json → Prop
  | [] => True
  | v :: rest => v.Plain ∧ PlainItems rest

/-- `Plain` for each member's value. -/
def PlainMembers : List (String × Json) → Prop
  | [] => True
  | (_, v) :: rest => v.Plain ∧ PlainMembers rest

end

mutual

/-- How many brackets are open at once where the most are. -/
def nesting : Json → Nat
  | .arr items => nestingItems items + 1
  | .obj members => nestingMembers members + 1
  | .date _ => 1
  | .null | .bool _ | .int _ | .real _ | .str _ => 0

/-- The deepest nesting among elements. -/
def nestingItems : List Json → Nat
  | [] => 0
  | v :: rest => max v.nesting (nestingItems rest)

/-- The deepest nesting among members. -/
def nestingMembers : List (String × Json) → Nat
  | [] => 0
  | (_, v) :: rest => max v.nesting (nestingMembers rest)

end

/-- What may stand behind a value: nothing, or a character that no number goes on with. -/
def Stops : List Char → Prop
  | [] => True
  | c :: _ => c = ',' ∨ c = ']' ∨ c = '}'

/-! ## Strings -/

theorem hexValue?_hexDigit : ∀ n < 16, hexValue? (hexDigit n) = some n := by
  decide

/-- A character stands for itself, or behind a backslash for what it is read back as. -/
theorem escapeChar_cases (c : Char) :
    (escapeChar c = [c] ∧ c ≠ '"' ∧ c ≠ '\\' ∧ ¬ c.toNat < 0x20) ∨
      ∃ e, escapeChar c = '\\' :: e ∧ ∀ s, scanEscape (e ++ s) = .ok (c, s) := by
  have hshort : ∀ d e : Char, c = d → escapeChar d = ['\\', e] →
      (∀ s, scanEscape (e :: s) = .ok (d, s)) →
      ∃ e, escapeChar c = '\\' :: e ∧ ∀ s, scanEscape (e ++ s) = .ok (c, s) := by
    rintro d e rfl hd he
    exact ⟨[e], hd, he⟩
  by_cases hquote : c = '"'
  · exact .inr (hshort '"' '"' hquote rfl fun _ => rfl)
  by_cases hslash : c = '\\'
  · exact .inr (hshort '\\' '\\' hslash rfl fun _ => rfl)
  by_cases hb : c = '\x08'
  · exact .inr (hshort '\x08' 'b' hb rfl fun _ => rfl)
  by_cases ht : c = '\t'
  · exact .inr (hshort '\t' 't' ht rfl fun _ => rfl)
  by_cases hn : c = '\n'
  · exact .inr (hshort '\n' 'n' hn rfl fun _ => rfl)
  by_cases hf : c = '\x0c'
  · exact .inr (hshort '\x0c' 'f' hf rfl fun _ => rfl)
  by_cases hr : c = '\r'
  · exact .inr (hshort '\r' 'r' hr rfl fun _ => rfl)
  simp only [escapeChar, if_neg hquote, if_neg hslash, if_neg hb, if_neg ht, if_neg hn, if_neg hf,
    if_neg hr]
  by_cases hcontrol : c.toNat < 0x20
  · rw [if_pos hcontrol]
    refine .inr ⟨_, rfl, fun s => ?_⟩
    have hzero : hexValue? '0' = some 0 := rfl
    have hhigh := hexValue?_hexDigit (c.toNat / 16) (by omega)
    have hlow := hexValue?_hexDigit (c.toNat % 16) (by omega)
    have hsum : ((0 * 16 + 0) * 16 + c.toNat / 16) * 16 + c.toNat % 16 = c.toNat := by omega
    have hhex : scanHex ('0' :: '0' :: hexDigit (c.toNat / 16) :: hexDigit (c.toNat % 16) :: s) =
        .ok (c.toNat, s) := by
      simp only [scanHex, hzero, hhigh, hlow, hsum]
    simp only [List.cons_append, List.nil_append, scanEscape, if_true, scanCodePoint, hhex, ok_bind]
    rw [if_neg (by omega), if_neg (by omega), Char.ofNat_toNat]
    rfl
  · rw [if_neg hcontrol]
    exact .inl ⟨rfl, hquote, hslash, hcontrol⟩

/-- A character is read back from what it is written as. -/
theorem scanCharacters_escapeChar {fuel : Nat} {c : Char} {s rest cs : List Char}
    (h : scanCharacters fuel s = .ok (cs, rest)) :
    scanCharacters (fuel + 1) (escapeChar c ++ s) = .ok (c :: cs, rest) := by
  rcases escapeChar_cases c with ⟨hc, hquote, hslash, hcontrol⟩ | ⟨e, hc, he⟩
  · simp only [hc, List.cons_append, List.nil_append, scanCharacters, if_neg hquote, if_neg hslash,
      if_neg hcontrol, h, ok_bind]
    rfl
  · simp only [hc, List.cons_append, scanCharacters, Char.reduceEq, if_false, if_true, he, h,
      ok_bind]
    rfl

theorem scanCharacters_escaped (cs rest : List Char) :
    ∀ fuel, cs.length < fuel →
      scanCharacters fuel (cs.flatMap escapeChar ++ '"' :: rest) = .ok (cs, rest) := by
  induction cs with
  | nil =>
    intro fuel hfuel
    simp only [List.length_nil] at hfuel
    obtain ⟨fuel, rfl⟩ : ∃ n, fuel = n + 1 := ⟨fuel - 1, by omega⟩
    simp [scanCharacters]
  | cons c cs ih =>
    intro fuel hfuel
    simp only [List.length_cons] at hfuel
    obtain ⟨fuel, rfl⟩ : ∃ n, fuel = n + 1 := ⟨fuel - 1, by omega⟩
    rw [List.flatMap_cons, List.append_assoc]
    exact scanCharacters_escapeChar (ih fuel (by omega))

theorem length_le_escaped (cs : List Char) : cs.length ≤ (cs.flatMap escapeChar).length := by
  induction cs with
  | nil => exact Nat.le_refl _
  | cons c cs ih =>
    have hpos : 0 < (escapeChar c).length := by
      rcases escapeChar_cases c with ⟨hc, -⟩ | ⟨e, hc, -⟩ <;> simp [hc]
    rw [List.flatMap_cons, List.length_append, List.length_cons]
    omega

/-- **A string is read back**, whatever its characters. -/
theorem scanString_printed (s : String) (rest : List Char) :
    scanString (s.toList.flatMap escapeChar ++ '"' :: rest) = .ok (s, rest) := by
  have hlen := length_le_escaped s.toList
  have hscan := scanCharacters_escaped s.toList rest
    ((s.toList.flatMap escapeChar ++ '"' :: rest).length + 1)
    (by rw [List.length_append]; omega)
  rw [scanString, hscan]
  simp only [Except.map, String.ofList_toList]

theorem printString_append (s : String) (rest : List Char) :
    printString s ++ rest = '"' :: (s.toList.flatMap escapeChar ++ '"' :: rest) := by
  simp [printString]

/-! ## Numbers -/

theorem not_isSpace_of_isDigit {c : Char} (hc : c.isDigit = true) : isSpace c = false := by
  cases h : isSpace c with
  | false => rfl
  | true =>
    simp only [isSpace, Bool.or_eq_true, beq_iff_eq] at h
    rcases h with ((rfl | rfl) | rfl) | rfl <;> simp at hc

theorem skipSpaces_of_not {c : Char} {s : List Char} (hc : isSpace c = false) :
    skipSpaces (c :: s) = c :: s :=
  List.dropWhile_cons_of_neg (by simp [hc])

theorem Stops.not_isDigit {c : Char} {s : List Char} (h : Stops (c :: s)) : c.isDigit = false := by
  rcases h with rfl | rfl | rfl <;> rfl

/-- Digits are appended while the number fits 64 bits. -/
theorem appendDigits_of_lt (ds : List Char) : ∀ n, Nat.ofDigitChars 10 ds n < UInt64.size →
    appendDigits n ds = (Nat.ofDigitChars 10 ds n, ds.length, 0) := by
  have hle : ∀ (ds : List Char) (n : Nat), n ≤ Nat.ofDigitChars 10 ds n := by
    intro ds
    induction ds with
    | nil => exact fun n => Nat.le_refl n
    | cons d ds ih =>
      intro n
      have hrest := ih (10 * n + (d.toNat - '0'.toNat))
      rw [Nat.ofDigitChars_cons]
      omega
  induction ds with
  | nil => exact fun n _ => rfl
  | cons d ds ih =>
    intro n hn
    have hnext : n * 10 + digitValue d = 10 * n + (d.toNat - '0'.toNat) := by
      rw [Nat.mul_comm, digitValue]
      rfl
    rw [Nat.ofDigitChars_cons, ← hnext] at hn
    have hlt := Nat.lt_of_le_of_lt (hle ds _) hn
    rw [appendDigits, if_pos hlt, ih _ hn, Nat.ofDigitChars_cons, ← hnext]
    rfl

/-- Only zero begins with a zero. -/
theorem head_toDigits (n : Nat) : n = 0 ∨ (Nat.toDigits 10 n).head? ≠ some '0' := by
  induction n using Nat.strongRecOn with
  | ind n ih =>
    by_cases hn : n < 10
    · have hdigit : ∀ d < 10, d = 0 ∨ [Nat.digitChar d].head? ≠ some '0' := by decide
      rw [Nat.toDigits_of_lt_base hn]
      exact hdigit n hn
    · have hhead := ih (n / 10) (by omega)
      rw [Nat.toDigits_of_base_le (by decide) (by omega),
        List.head?_append_of_ne_nil _ Nat.toDigits_ne_nil]
      exact hhead.imp (by omega) id

theorem scanWhole_toDigits (atEnd : SyntaxError) (n : Nat) {rest : List Char} (h : Stops rest) :
    scanWhole atEnd (Nat.toDigits 10 n ++ rest) = .ok (Nat.toDigits 10 n, rest) := by
  have hdigits : ∀ c ∈ Nat.toDigits 10 n, c.isDigit = true :=
    fun c hc => Nat.isDigit_of_mem_toDigits (by decide) (by decide) hc
  have hspan : (Nat.toDigits 10 n ++ rest).span Char.isDigit = (Nat.toDigits 10 n, rest) := by
    rw [span_isDigit_eq, List.takeWhile_append_of_pos hdigits, List.dropWhile_append_of_pos hdigits]
    cases rest with
    | nil => simp
    | cons c s => simp [h.not_isDigit]
  rcases head_toDigits n with rfl | hhead
  · rw [Nat.toDigits_zero]
    cases rest with
    | nil => rfl
    | cons c s => simp [scanWhole, h.not_isDigit]
  · cases hds : Nat.toDigits 10 n with
    | nil => exact absurd hds Nat.toDigits_ne_nil
    | cons d ds =>
      rw [hds] at hdigits hspan hhead
      have hd := hdigits d List.mem_cons_self
      rw [List.cons_append] at hspan ⊢
      unfold scanWhole
      split
      · rename_i heq
        cases heq
      · rename_i heq
        cases heq
        exact absurd rfl hhead
      · rename_i heq
        cases heq
        rw [if_pos hd, hspan]

theorem scanNumeral_toDigits (atEnd : SyntaxError) (negative : Bool) (n : Nat) {rest : List Char}
    (h : Stops rest) :
    scanNumeral atEnd negative (Nat.toDigits 10 n ++ rest) =
      .ok (⟨negative, Nat.toDigits 10 n, [], none⟩, rest) := by
  have hfraction : scanFraction atEnd rest = .ok ([], rest) := by
    unfold scanFraction
    split
    · rcases h with hc | hc | hc <;> cases hc
    · rfl
  have hexponent : scanExponent atEnd rest = .ok (none, rest) := by
    cases rest with
    | nil => rfl
    | cons c s =>
      have hc : ¬ (c = 'e' ∨ c = 'E') := by
        rcases h with rfl | rfl | rfl <;> decide
      simp only [scanExponent, if_neg hc]
  rw [scanNumeral, scanWhole_toDigits atEnd n h, ok_bind]
  simp only [hfraction, hexponent, ok_bind]
  rfl

/-- The digits of a number that fits mean the number. -/
theorem value_toDigits {n : Nat} (hn : n < 2 ^ 64) :
    Numeral.value ⟨false, Nat.toDigits 10 n, [], none⟩ = .ok (.int n) := by
  have hvalue : Nat.ofDigitChars 10 (Nat.toDigits 10 n) 0 = n :=
    Nat.ofDigitChars_toDigits (by decide) (by decide)
  have happend := appendDigits_of_lt (Nat.toDigits 10 n) 0 (by rw [hvalue]; exact hn)
  simp [Numeral.value, happend, hvalue]

theorem value_negative_toDigits {n : Nat} (hpos : 0 < n) (hn : n ≤ 2 ^ 63) :
    Numeral.value ⟨true, Nat.toDigits 10 n, [], none⟩ = .ok (.int (-n)) := by
  have hvalue : Nat.ofDigitChars 10 (Nat.toDigits 10 n) 0 = n :=
    Nat.ofDigitChars_toDigits (by decide) (by decide)
  have hsize : n < UInt64.size := Nat.lt_of_le_of_lt hn (by decide)
  have happend := appendDigits_of_lt (Nat.toDigits 10 n) 0 (by rw [hvalue]; exact hsize)
  have hfits : n ≤ 9223372036854775808 := by omega
  simp [Numeral.value, happend, hvalue, hpos, signedDepth, hfits]

theorem scanHead_of_isDigit {c : Char} (hc : c.isDigit = true) (s : List Char) :
    scanHead (c :: s) = scanHead.number false (c :: s) := by
  have hs := skipSpaces_of_not (s := s) (not_isSpace_of_isDigit hc)
  unfold scanHead
  rw [hs]
  split <;> simp_all

/-- **A whole number of 64 bits is read back.** -/
theorem scanHead_printInt {n : Int} (hlow : -(2 : Int) ^ 63 ≤ n) (hhigh : n < 2 ^ 64)
    {rest : List Char} (h : Stops rest) :
    scanHead (printInt n ++ rest) = .ok (.scalar (.int n), rest) := by
  by_cases hn : n < 0
  -- the sign is read first, and then the digits of the absolute value
  · have hvalue := value_negative_toDigits (show 0 < n.natAbs by omega) (by omega)
    have hscan := scanNumeral_toDigits .eofValue true n.natAbs h
    have hnumber : scanHead.number true (Nat.toDigits 10 n.natAbs ++ rest) =
        .ok (.scalar (.int (-n.natAbs)), rest) := by
      rw [scanHead.number, hscan, ok_bind]
      simp only [hvalue, ok_bind]
      rfl
    rw [printInt, if_pos hn, List.cons_append]
    change scanHead.number true _ = _
    rw [hnumber, show -(n.natAbs : Int) = n by omega]
  · have hvalue := value_toDigits (show n.natAbs < 2 ^ 64 by omega)
    have hscan := scanNumeral_toDigits .eofValue false n.natAbs h
    have hnumber : scanHead.number false (Nat.toDigits 10 n.natAbs ++ rest) =
        .ok (.scalar (.int n.natAbs), rest) := by
      rw [scanHead.number, hscan, ok_bind]
      simp only [hvalue, ok_bind]
      rfl
    rw [printInt, if_neg hn]
    cases hds : Nat.toDigits 10 n.natAbs with
    | nil => exact absurd hds Nat.toDigits_ne_nil
    | cons d ds =>
      have hd : d.isDigit = true :=
        Nat.isDigit_of_mem_toDigits (by decide) (by decide) (hds ▸ List.mem_cons_self)
      rw [hds, List.cons_append] at hnumber
      rw [List.cons_append, scanHead_of_isDigit hd, hnumber, show (n.natAbs : Int) = n by omega]

/-! ## Values -/

/-- What a printed value begins with neither is passed over nor closes a list. -/
theorem print_head {v : Json} (h : v.Plain) :
    ∃ c s, v.print = c :: s ∧ isSpace c = false ∧ c ≠ ']' := by
  cases v with
  | null => exact ⟨_, _, rfl, rfl, by decide⟩
  | bool b => cases b <;> exact ⟨_, _, rfl, rfl, by decide⟩
  | int n =>
    by_cases hn : n < 0
    · refine ⟨'-', Nat.toDigits 10 n.natAbs, ?_, rfl, by decide⟩
      rw [print, printInt, if_pos hn]
    · cases hds : Nat.toDigits 10 n.natAbs with
      | nil => exact absurd hds Nat.toDigits_ne_nil
      | cons d ds =>
        have hd : d.isDigit = true :=
          Nat.isDigit_of_mem_toDigits (by decide) (by decide) (hds ▸ List.mem_cons_self)
        refine ⟨d, ds, ?_, not_isSpace_of_isDigit hd, ?_⟩
        · rw [print, printInt, if_neg hn, hds]
        · rintro rfl
          cases hd
  | str s => exact ⟨_, _, rfl, rfl, by decide⟩
  | arr items => cases items <;> exact ⟨_, _, rfl, rfl, by decide⟩
  | obj members =>
    cases members with
    | nil => exact ⟨_, _, rfl, rfl, by decide⟩
    | cons m rest => exact ⟨_, _, rfl, rfl, by decide⟩
  | real x => cases h
  | date text => cases h

theorem readTree_of_scalar {s rest : List Char} {v : Json}
    (h : scanHead s = .ok (.scalar v, rest)) (depth : Nat) : readTree depth s = .ok (v, rest) := by
  cases depth <;> rw [readTree, h] <;> rfl

theorem stops_printItems (vs : List Json) (rest : List Char) :
    Stops (printItems vs ++ ']' :: rest) := by
  cases vs with
  | nil => exact .inr (.inl rfl)
  | cons v vs => exact .inl rfl

theorem stops_printMembers (ms : List (String × Json)) (rest : List Char) :
    Stops (printMembers ms ++ '}' :: rest) := by
  cases ms with
  | nil => exact .inr (.inr rfl)
  | cons m ms => exact .inl rfl

theorem length_le_printItems (vs : List Json) : vs.length ≤ (printItems vs).length := by
  induction vs with
  | nil => exact Nat.le_refl _
  | cons v vs ih =>
    simp only [printItems, List.cons_append, List.length_cons, List.length_append]
    omega

theorem length_le_printMembers (ms : List (String × Json)) :
    ms.length ≤ (printMembers ms).length := by
  induction ms with
  | nil => exact Nat.le_refl _
  | cons m ms ih =>
    simp only [printMembers, List.cons_append, List.length_cons, List.length_append]
    omega

/-- An element begins at once where it is the first, and else behind its comma. -/
theorem nextElement_print {v : Json} (h : v.Plain) (rest : List Char) :
    nextElement true (v.print ++ rest) = .ok (.more (v.print ++ rest)) ∧
      nextElement false (',' :: (v.print ++ rest)) = .ok (.more (v.print ++ rest)) := by
  obtain ⟨c, s, hprint, hspace, hclose⟩ := print_head h
  have hs : skipSpaces (c :: (s ++ rest)) = c :: (s ++ rest) := skipSpaces_of_not hspace
  have hcomma : skipSpaces (',' :: c :: (s ++ rest)) = ',' :: c :: (s ++ rest) :=
    skipSpaces_of_not rfl
  rw [hprint, List.cons_append]
  constructor
  · simp only [nextElement, hs, if_true]
  · simp [nextElement, hs, hcomma]

theorem nextMember_print (key : String) (rest : List Char) :
    nextMember true (printString key ++ rest) =
        .ok (.more (key.toList.flatMap escapeChar ++ '"' :: rest)) ∧
      nextMember false (',' :: (printString key ++ rest)) =
        .ok (.more (key.toList.flatMap escapeChar ++ '"' :: rest)) := by
  rw [printString_append]
  exact ⟨rfl, rfl⟩

section Steps

variable {inner fuel : Nat} {first : Bool} {v : Json} {vs : List Json} {key : String}
  {before after : List (String × Json)} {s t rest : List Char}

/-- A printed element is read, and then the elements behind it. -/
theorem readElements_print (hnext : nextElement first s = .ok (.more (v.print ++ t)))
    (hv : readTree inner (v.print ++ t) = .ok (v, t))
    (hvs : readElements (readTree inner) fuel false t = .ok (vs, rest)) :
    readElements (readTree inner) (fuel + 1) first s = .ok (v :: vs, rest) := by
  rw [readElements_of_more hnext, hv, ok_bind]
  simp only [hvs, ok_bind]
  rfl

/-- A printed member is read, and then the members behind it. -/
theorem readMembers_print
    (hnext : nextMember first s =
      .ok (.more (key.toList.flatMap escapeChar ++ '"' :: ':' :: (v.print ++ t))))
    (hv : readTree inner (v.print ++ t) = .ok (v, t))
    (hms : readMembers (readMember (readTree inner)) fuel false ((key, v) :: before) t =
      .ok (after, rest)) :
    readMembers (readMember (readTree inner)) (fuel + 1) first before s = .ok (after, rest) := by
  have hmember : readMember (readTree inner) before key (':' :: (v.print ++ t)) =
      .ok ((key, v) :: before, t) := by
    change readTree inner (v.print ++ t) >>= _ = _
    rw [hv]
    rfl
  rw [readMembers_of_more hnext (scanString_printed key _), hmember]
  exact hms

end Steps

mutual

/-- **What is printed is read back.** -/
theorem readTree_print : ∀ (v : Json) {depth : Nat} {rest : List Char}, v.Plain →
    v.nesting ≤ depth → Stops rest → readTree depth (v.print ++ rest) = .ok (v, rest)
  | .null, depth, rest, _, _, _ => readTree_of_scalar rfl depth
  | .bool true, depth, rest, _, _, _ => readTree_of_scalar rfl depth
  | .bool false, depth, rest, _, _, _ => readTree_of_scalar rfl depth
  | .int n, depth, rest, h, _, hrest => readTree_of_scalar (scanHead_printInt h.1 h.2 hrest) depth
  | .str s, depth, rest, _, _, _ => by
    have hhead : scanHead (printString s ++ rest) = .ok (.scalar (.str s), rest) := by
      rw [printString_append]
      change (scanString _).map _ = _
      rw [scanString_printed]
      rfl
    exact readTree_of_scalar hhead depth
  | .arr [], depth + 1, rest, _, _, _ => rfl
  | .obj [], depth + 1, rest, _, _, _ => rfl
  | .arr (v :: vs), inner + 1, rest, ⟨hplain, hplains⟩, hdepth, _ => by
    simp only [nesting, nestingItems] at hdepth
    have hdeep : v.nesting ≤ inner := by omega
    have hdeeps : nestingItems vs ≤ inner := by omega
    let behind := printItems vs ++ ']' :: rest
    let s := v.print ++ behind
    -- an element takes a character at least, so the fuel lasts for all of them
    have hfuel : vs.length < s.length := by
      have hlen := length_le_printItems vs
      simp only [s, behind, List.length_append, List.length_cons]
      omega
    have hv : readTree inner s = .ok (v, behind) :=
      readTree_print v hplain hdeep (stops_printItems vs rest)
    have hvs : readElements (readTree inner) s.length false behind = .ok (vs, rest) :=
      readElements_printItems vs hplains hdeeps hfuel
    have hread := readElements_print (nextElement_print hplain behind).1 hv hvs
    have hprint : (Json.arr (v :: vs)).print ++ rest = '[' :: s := by
      simp [print, s, behind]
    rw [hprint]
    change readElements (readTree inner) (s.length + 1) true s >>= _ = _
    rw [hread]
    rfl
  | .obj ((key, v) :: ms), inner + 1, rest, ⟨hplain, hplains⟩, hdepth, _ => by
    simp only [nesting, nestingMembers] at hdepth
    have hdeep : v.nesting ≤ inner := by omega
    have hdeeps : nestingMembers ms ≤ inner := by omega
    let behind := printMembers ms ++ '}' :: rest
    let s := printString key ++ ':' :: (v.print ++ behind)
    have hfuel : ms.length < s.length := by
      have hlen := length_le_printMembers ms
      simp only [s, behind, List.length_append, List.length_cons]
      omega
    have hv : readTree inner (v.print ++ behind) = .ok (v, behind) :=
      readTree_print v hplain hdeep (stops_printMembers ms rest)
    have hms : readMembers (readMember (readTree inner)) s.length false [(key, v)] behind =
        .ok (ms.reverse ++ [(key, v)], rest) :=
      readMembers_printMembers ms hplains hdeeps hfuel
    have hread := readMembers_print (nextMember_print key _).1 hv hms
    have hprint : (Json.obj ((key, v) :: ms)).print ++ rest = '\x7b' :: s := by
      simp [print, s, behind]
    rw [hprint]
    change readMembers (readMember (readTree inner)) (s.length + 1) true [] s >>= _ = _
    rw [hread, ok_bind]
    simp [pure, Except.pure]
  | .arr _, 0, _, _, hdepth, _ => by simp [nesting] at hdepth
  | .obj _, 0, _, _, hdepth, _ => by simp [nesting] at hdepth

theorem readElements_printItems : ∀ (vs : List Json) {inner fuel : Nat} {rest : List Char},
    PlainItems vs → nestingItems vs ≤ inner → vs.length < fuel →
    readElements (readTree inner) fuel false (printItems vs ++ ']' :: rest) = .ok (vs, rest)
  | [], inner, fuel + 1, rest, _, _, _ => rfl
  | v :: vs, inner, fuel + 1, rest, ⟨hplain, hplains⟩, hdepth, hfuel => by
    simp only [nestingItems] at hdepth
    have hdeep : v.nesting ≤ inner := by omega
    have hdeeps : nestingItems vs ≤ inner := by omega
    have hv := readTree_print v hplain hdeep (stops_printItems vs rest)
    have hvs : readElements (readTree inner) fuel false (printItems vs ++ ']' :: rest) =
        .ok (vs, rest) :=
      readElements_printItems vs hplains hdeeps (Nat.lt_of_succ_lt_succ hfuel)
    have hread := readElements_print (nextElement_print hplain _).2 hv hvs
    simpa [printItems] using hread

theorem readMembers_printMembers : ∀ (ms : List (String × Json)) {inner fuel : Nat}
    {rest : List Char} {before : List (String × Json)},
    PlainMembers ms → nestingMembers ms ≤ inner → ms.length < fuel →
    readMembers (readMember (readTree inner)) fuel false before (printMembers ms ++ '}' :: rest) =
      .ok (ms.reverse ++ before, rest)
  | [], inner, fuel + 1, rest, before, _, _, _ => rfl
  | (key, v) :: ms, inner, fuel + 1, rest, before, ⟨hplain, hplains⟩, hdepth, hfuel => by
    simp only [nestingMembers] at hdepth
    have hdeep : v.nesting ≤ inner := by omega
    have hdeeps : nestingMembers ms ≤ inner := by omega
    have hv := readTree_print v hplain hdeep (stops_printMembers ms rest)
    have hms : readMembers (readMember (readTree inner)) fuel false ((key, v) :: before)
        (printMembers ms ++ '}' :: rest) = .ok (ms.reverse ++ (key, v) :: before, rest) :=
      readMembers_printMembers ms hplains hdeeps (Nat.lt_of_succ_lt_succ hfuel)
    have hread := readMembers_print (nextMember_print key _).2 hv hms
    simpa [printMembers] using hread

end

/-- **The text of a value means the value.** -/
theorem readTree_text {v : Json} (h : v.Plain) (hdepth : v.nesting ≤ depthLimit) :
    readTree depthLimit v.text.toList = .ok (v, []) := by
  have hread : readTree depthLimit (v.print ++ []) = .ok (v, []) :=
    readTree_print v h hdepth trivial
  rwa [List.append_nil, ← String.toList_ofList (l := v.print)] at hread

/-- **From the text of a value a decoder takes what it takes from the value.** -/
theorem Decoder.decodeText_text {α : Type} {d : Decoder α} (h : d.Agrees) {v : Json}
    (hplain : v.Plain) (hdepth : v.nesting ≤ depthLimit) {a : α} :
    d.decodeText v.text = .ok a ↔ d.decode v = .ok a :=
  decodeText_of_readTree h (readTree_text hplain hdepth) rfl

end Json
end ModularHost
