import ModularHost.Proofs.Json.Printing
import ModularHost.Toml.Numeral
import ModularHost.Toml.Printer
/-!
# Strings, keys and numbers that are printed and read

Every string is read back from between its quotes, and every key with or without them, whatever
their characters (`scanString_printString`, `scanSimpleKey_printKey`). A number of 63 bits is read
back from its digits up to the end of its line (`scanNumber_toDigits`): digits alone are no date, no
time and no real number.
-/


namespace ModularHost
namespace Toml

variable {rest : List Char}

/-! ## Strings -/

theorem hexValue?_hexDigit : ∀ n < 16, hexValue? (Json.hexDigit n) = some n := by
  decide

/-- An escape with four digits stands for a character with a small number. -/
theorem scanCodePoint_hexDigits {c : Char} (hc : c.toNat < 256) (s : List Char) :
    scanCodePoint 4 ('0' :: '0' :: Json.hexDigit (c.toNat / 16) :: Json.hexDigit (c.toNat % 16)
      :: s) = some (c, s) := by
  have hzero : hexValue? '0' = some 0 := rfl
  have hhigh := hexValue?_hexDigit (c.toNat / 16) (by omega)
  have hlow := hexValue?_hexDigit (c.toNat % 16) (by omega)
  have hsum : 16 * (c.toNat / 16) + c.toNat % 16 = c.toNat := by omega
  have hvalid : c.toNat.isValidChar := .inl (by omega)
  simp [scanCodePoint, hzero, hhigh, hlow, hsum, hvalid]

/-- A character stands for itself, or behind a backslash for what it is read back as. -/
theorem escapeChar_cases (c : Char) :
    (escapeChar c = [c] ∧ c ≠ '"' ∧ c ≠ '\\' ∧ isPlain c = true) ∨
      ∃ e, escapeChar c = '\\' :: e ∧ ∀ s, scanEscape (e ++ s) = some (c, s) := by
  have hshort : ∀ d e : Char, c = d → escapeChar d = ['\\', e] →
      (∀ s, scanEscape (e :: s) = some (d, s)) →
      ∃ e, escapeChar c = '\\' :: e ∧ ∀ s, scanEscape (e ++ s) = some (c, s) := by
    rintro d e rfl hd he
    exact ⟨[e], hd, he⟩
  by_cases hquote : c = '"'
  · exact .inr (hshort '"' '"' hquote rfl fun _ => rfl)
  by_cases hslash : c = '\\'
  · exact .inr (hshort '\\' '\\' hslash rfl fun _ => rfl)
  by_cases hb : c = '\x08'
  · exact .inr (hshort '\x08' 'b' hb rfl fun _ => rfl)
  by_cases ht : c = '\t'
  · exact .inr (hshort '\t' 't' ht rfl fun _ => rfl)
  by_cases hn : c = '\n'
  · exact .inr (hshort '\n' 'n' hn rfl fun _ => rfl)
  by_cases hf : c = '\x0c'
  · exact .inr (hshort '\x0c' 'f' hf rfl fun _ => rfl)
  by_cases hr : c = '\r'
  · exact .inr (hshort '\r' 'r' hr rfl fun _ => rfl)
  simp only [escapeChar, if_neg hquote, if_neg hslash, if_neg hb, if_neg ht, if_neg hn, if_neg hf,
    if_neg hr]
  by_cases hplain : isPlain c = true
  · rw [if_pos hplain]
    exact .inl ⟨rfl, hquote, hslash, hplain⟩
  · rw [if_neg hplain]
    have hsmall : c.toNat < 256 := by
      simp only [isPlain, Bool.or_eq_true, Bool.and_eq_true, decide_eq_true_eq, not_or, not_and,
        bne_iff_ne] at hplain
      omega
    exact .inr ⟨_, rfl, fun s => scanCodePoint_hexDigits hsmall s⟩

/-- A character is read back from what it is written as. -/
theorem scanBasic_escapeChar {fuel : Nat} {c : Char} {s cs : List Char}
    (h : scanBasic fuel s = some (cs, rest)) :
    scanBasic (fuel + 1) (escapeChar c ++ s) = some (c :: cs, rest) := by
  rcases escapeChar_cases c with ⟨hc, hquote, hslash, hplain⟩ | ⟨e, hc, he⟩
  · simp [hc, scanBasic, hquote, hslash, hplain, h]
  · simp [hc, scanBasic, he, h]

theorem scanBasic_escaped (cs rest : List Char) :
    ∀ fuel, cs.length < fuel →
      scanBasic fuel (cs.flatMap escapeChar ++ '"' :: rest) = some (cs, rest) := by
  induction cs with
  | nil =>
    intro fuel hfuel
    simp only [List.length_nil] at hfuel
    obtain ⟨fuel, rfl⟩ : ∃ n, fuel = n + 1 := ⟨fuel - 1, by omega⟩
    simp [scanBasic]
  | cons c cs ih =>
    intro fuel hfuel
    simp only [List.length_cons] at hfuel
    obtain ⟨fuel, rfl⟩ : ∃ n, fuel = n + 1 := ⟨fuel - 1, by omega⟩
    rw [List.flatMap_cons, List.append_assoc]
    exact scanBasic_escapeChar (ih fuel (by omega))

theorem length_le_escaped (cs : List Char) : cs.length ≤ (cs.flatMap escapeChar).length := by
  induction cs with
  | nil => exact Nat.le_refl _
  | cons c cs ih =>
    have hpos : 0 < (escapeChar c).length := by
      rcases escapeChar_cases c with ⟨hc, -⟩ | ⟨e, hc, -⟩ <;> simp [hc]
    rw [List.flatMap_cons, List.length_append, List.length_cons]
    omega

theorem printString_append (s : String) (rest : List Char) :
    printString s ++ rest = '"' :: (s.toList.flatMap escapeChar ++ '"' :: rest) := by
  simp [printString]

/-- The characters between two quotes are read back, whatever they are. -/
theorem scanBasic_printed (s : String) (rest : List Char) :
    scanBasic ((s.toList.flatMap escapeChar ++ '"' :: rest).length + 1)
      (s.toList.flatMap escapeChar ++ '"' :: rest) = some (s.toList, rest) := by
  have hlen := length_le_escaped s.toList
  exact scanBasic_escaped s.toList rest _ (by rw [List.length_append]; omega)

/-- **A string is read back**, unless what follows makes its quotes triple ones. -/
theorem scanString_printString (s : String) (hrest : rest.head? ≠ some '"') :
    scanString (printString s ++ rest) = some (s, rest) := by
  have hscan := scanBasic_printed s rest
  have hquotes : ∀ t, s.toList.flatMap escapeChar ++ '"' :: rest ≠ '"' :: '"' :: t := by
    intro t heq
    cases hs : s.toList with
    | nil =>
      rw [hs] at heq
      obtain rfl : rest = '"' :: t := by simpa using heq
      exact hrest rfl
    | cons c cs =>
      rw [hs, List.flatMap_cons] at heq
      rcases escapeChar_cases c with ⟨hc, hquote, -⟩ | ⟨e, hc, -⟩ <;> rw [hc] at heq
      · exact hquote (List.cons.inj heq).1
      · exact absurd (List.cons.inj heq).1 (by decide)
  rw [printString_append, scanString]
  · rw [hscan]
    simp
  · exact hquotes

/-! ## Keys -/

/-- A key begins with a quote, or with a character that needs none. -/
theorem printKey_head (key : String) :
    ∃ c s, printKey key = c :: s ∧ (c = '"' ∨ isBare c = true) := by
  unfold printKey
  split
  · rename_i hbare
    rw [Bool.and_eq_true, List.all_eq_true] at hbare
    cases hkey : key.toList with
    | nil => simp [String.toList_eq_nil_iff.1 hkey] at hbare
    | cons c s => exact ⟨c, s, rfl, .inr (hbare.2 c (hkey ▸ List.mem_cons_self))⟩
  · exact ⟨'"', _, rfl, .inl rfl⟩

theorem ne_of_isBare {c d : Char} (hc : isBare c = true) (hd : isBare d = false) : c ≠ d := by
  rintro rfl
  rw [hd] at hc
  cases hc

/-- What is told from both blanks is none. -/
theorem isBlank_eq_false {c : Char} {p : Char → Bool} (hc : p c = true) (hspace : p ' ' = false)
    (htab : p '\t' = false) : isBlank c = false := by
  cases h : isBlank c with
  | false => rfl
  | true =>
    simp only [isBlank, Bool.or_eq_true, beq_iff_eq] at h
    rcases h with rfl | rfl
    · exact hc.symm.trans hspace
    · exact hc.symm.trans htab

/-- **A key is read back**, with its quotes or without. -/
theorem scanSimpleKey_printKey (key : String) (hrest : ∀ c ∈ rest.head?, isBare c = false) :
    scanSimpleKey (printKey key ++ rest) = some (key, rest) := by
  unfold printKey
  split
  · rename_i hbare
    rw [Bool.and_eq_true, List.all_eq_true] at hbare
    have hnone : rest.takeWhile isBare = [] ∧ rest.dropWhile isBare = rest := by
      cases rest with
      | nil => exact ⟨rfl, rfl⟩
      | cons c s => simp [hrest c rfl]
    have htake : (key.toList ++ rest).takeWhile isBare = key.toList := by
      rw [List.takeWhile_append_of_pos hbare.2, hnone.1, List.append_nil]
    have hdrop : (key.toList ++ rest).dropWhile isBare = rest := by
      rw [List.dropWhile_append_of_pos hbare.2, hnone.2]
    cases hkey : key.toList with
    | nil => simp [String.toList_eq_nil_iff.1 hkey] at hbare
    | cons c s =>
      have hc : isBare c = true := hbare.2 c (hkey ▸ List.mem_cons_self)
      rw [hkey] at htake hdrop
      rw [List.cons_append] at htake hdrop ⊢
      unfold scanSimpleKey
      split
      · rename_i heq
        exact absurd (List.cons.inj heq).1 (ne_of_isBare hc (by decide))
      · rename_i heq
        exact absurd (List.cons.inj heq).1 (ne_of_isBare hc (by decide))
      · rw [htake]
        simp only [hdrop, ← hkey, String.ofList_toList]
  · rw [printString_append, scanSimpleKey, scanBasic_printed]
    simp

/-! ## Numbers -/

theorem isDigit_of_mem_toDigits {n : Nat} {c : Char} (h : c ∈ Nat.toDigits 10 n) :
    c.isDigit = true :=
  Nat.isDigit_of_mem_toDigits (by decide) (by decide) h

/-- A number begins with a digit, and with a zero only if it is zero. -/
theorem exists_toDigits (n : Nat) : ∃ d ds, Nat.toDigits 10 n = d :: ds ∧ d.isDigit = true ∧
    (d = '0' → ds = []) := by
  rcases Json.head_toDigits n with rfl | hhead
  · exact ⟨'0', [], rfl, rfl, fun _ => rfl⟩
  · cases hds : Nat.toDigits 10 n with
    | nil => exact absurd hds Nat.toDigits_ne_nil
    | cons d ds =>
      rw [hds] at hhead
      exact ⟨d, ds, rfl, isDigit_of_mem_toDigits (hds ▸ List.mem_cons_self),
        fun hd => absurd (congrArg some hd) hhead⟩

/-- Digits are read up to the end of the line. -/
theorem scanDigits_append {ds : List Char} (hds : ds ≠ []) (hdigits : ∀ c ∈ ds, c.isDigit = true)
    (rest : List Char) :
    scanDigits Char.isDigit (ds ++ '\n' :: rest) = some (ds, '\n' :: rest) := by
  induction ds with
  | nil => exact absurd rfl hds
  | cons c ds ih =>
    obtain ⟨hc, hlater⟩ := List.forall_mem_cons.1 hdigits
    cases ds with
    | nil => simp [scanDigits, hc]
    | cons d ds =>
      have hd : d.isDigit = true := hlater d List.mem_cons_self
      have hunder : d ≠ '_' := by
        rintro rfl
        cases hd
      have hrec := ih (by simp) hlater
      rw [List.cons_append] at hrec
      rw [List.cons_append, List.cons_append, scanDigits, if_pos hc, if_pos hd]
      · rw [hrec]
        rfl
      · exact fun _ _ h => absurd h hunder

theorem scanDecimal_toDigits (n : Nat) (rest : List Char) :
    scanDecimal (Nat.toDigits 10 n ++ '\n' :: rest) = some (Nat.toDigits 10 n, '\n' :: rest) := by
  have hdigits : ∀ c ∈ Nat.toDigits 10 n, c.isDigit = true := fun c => isDigit_of_mem_toDigits
  have hscan := scanDigits_append Nat.toDigits_ne_nil hdigits rest
  obtain ⟨d, ds, hds, -, hzero⟩ := exists_toDigits n
  rw [hds, List.cons_append] at hscan ⊢
  by_cases hd : d = '0'
  · obtain rfl := hzero hd
    subst hd
    rfl
  · rw [scanDecimal]
    · exact hscan
    · exact fun _ heq => hd (List.cons.inj heq).1

/-- The digits of a number mean the number. -/
theorem digitsValue_toDigits (n : Nat) : digitsValue 10 (Nat.toDigits 10 n) = n := by
  have hvalue : ∀ (ds : List Char), (∀ c ∈ ds, c.isDigit = true) → ∀ m,
      ds.foldl (fun n c => 10 * n + (hexValue? c).getD 0) m = Nat.ofDigitChars 10 ds m := by
    intro ds
    induction ds with
    | nil => exact fun _ _ => rfl
    | cons d ds ih =>
      intro hdigits m
      obtain ⟨hd, hlater⟩ := List.forall_mem_cons.1 hdigits
      have hdigit : (hexValue? d).getD 0 = d.toNat - '0'.toNat := by
        have hbounds : '0' ≤ d ∧ d ≤ '9' := by
          simpa [Char.isDigit, Char.le_def] using hd
        rw [hexValue?, if_pos hbounds]
        rfl
      rw [List.foldl_cons, Nat.ofDigitChars_cons, ih hlater, hdigit]
  rw [digitsValue, hvalue _ fun c hc => isDigit_of_mem_toDigits hc]
  exact Nat.ofDigitChars_toDigits (by decide) (by decide)

/-- Nothing but digits stands before the end of a line. -/
def DigitsUpTo (rest s : List Char) : Prop :=
  ∃ ds : List Char, (∀ c ∈ ds, c.isDigit = true) ∧ s = ds ++ '\n' :: rest

theorem DigitsUpTo.no_mark {s : List Char} (h : DigitsUpTo rest s) {mark : Char}
    (hdigit : mark.isDigit = false) (hend : mark ≠ '\n') : scanMark mark s = none := by
  obtain ⟨ds, hds, rfl⟩ := h
  cases ds with
  | nil => simp [scanMark, hend.symm]
  | cons c ds =>
    have hne : c ≠ mark := by
      rintro rfl
      rw [hds c List.mem_cons_self] at hdigit
      cases hdigit
    simp [scanMark, hne]

theorem DigitsUpTo.of_scanFixed {count n : Nat} {s t : List Char} (h : DigitsUpTo rest s)
    (hscan : scanFixed count s = some (n, t)) : DigitsUpTo rest t := by
  obtain ⟨ds, hds, rfl⟩ := h
  unfold scanFixed at hscan
  dsimp only at hscan
  split at hscan
  · rename_i htake
    cases hscan
    simp only [Bool.and_eq_true, decide_eq_true_eq, List.all_eq_true] at htake
    -- the end of the line is no digit, so it was not reached
    have hle : count ≤ ds.length := by
      by_contra hlt
      obtain ⟨k, hk⟩ : ∃ k, count - ds.length = k + 1 := ⟨count - ds.length - 1, by omega⟩
      have hmem : '\n' ∈ (ds ++ '\n' :: rest).take count := by
        rw [List.take_append, hk, List.take_succ_cons]
        exact List.mem_append_right _ List.mem_cons_self
      exact absurd (htake.2 _ hmem) (by decide)
    refine ⟨ds.drop count, fun c hc => hds c (List.mem_of_mem_drop hc), ?_⟩
    rw [List.drop_append_of_le_length hle]
  · cases hscan

/-- Digits alone are no date and no time. -/
theorem DigitsUpTo.no_datetime {s : List Char} (h : DigitsUpTo rest s) :
    scanDatetime s = none := by
  have hdate : scanDate s = none := by
    unfold scanDate
    cases hyear : scanFixed 4 s with
    | none => rfl
    | some year =>
      have hmark : scanMark '-' year.2 = none :=
        (h.of_scanFixed hyear).no_mark (by decide) (by decide)
      simp [hmark]
  have htime : scanTime s = none := by
    unfold scanTime scanTwo
    cases hhour : scanFixed 2 s with
    | none => rfl
    | some hour =>
      have hmark : scanMark ':' hour.2 = none :=
        (h.of_scanFixed hhour).no_mark (by decide) (by decide)
      by_cases hbounds : 0 ≤ hour.1 ∧ hour.1 ≤ 23 <;> simp [hmark, hbounds]
  simp [scanDatetime, hdate, htime]

theorem scanSign_of_isDigit {d : Char} (hd : d.isDigit = true) (s : List Char) :
    scanSign (d :: s) = (false, d :: s) := by
  unfold scanSign
  split <;> simp_all

/-- Digits that do not begin with a zero, or nothing but a zero, are read as a number to the base of
ten. -/
theorem scanInt_toDigits {n : Nat} (hn : n ≤ 9223372036854775807) (rest : List Char) :
    scanInt (Nat.toDigits 10 n ++ '\n' :: rest) = some (.int n, '\n' :: rest) := by
  have hdecimal := scanDecimal_toDigits n rest
  have hfits : fitInt? n = some (.int n) := by
    rw [fitInt?, if_pos (by omega)]
  obtain ⟨d, ds, hds, hd, hzero⟩ := exists_toDigits n
  have hsign := scanSign_of_isDigit hd (ds ++ '\n' :: rest)
  -- a letter behind a zero would be the mark of another base
  have hbase : ∀ (c : Char) (s : List Char), c ≠ '\n' →
      d :: (ds ++ '\n' :: rest) ≠ '0' :: c :: s := by
    intro c s hc heq
    obtain ⟨rfl, hs⟩ := List.cons.inj heq
    rw [hzero rfl] at hs
    exact hc (List.cons.inj hs).1.symm
  rw [hds, List.cons_append] at hdecimal ⊢
  unfold scanInt
  split
  · exact absurd ‹_› (hbase _ _ (by decide))
  · exact absurd ‹_› (hbase _ _ (by decide))
  · exact absurd ‹_› (hbase _ _ (by decide))
  · simp [hsign, hdecimal, ← hds, digitsValue_toDigits, hfits]

/-- **A number of 63 bits is read back.** -/
theorem scanNumber_toDigits {n : Nat} (hn : n ≤ 9223372036854775807) (rest : List Char) :
    scanNumber (Nat.toDigits 10 n ++ '\n' :: rest) = some (.int n, '\n' :: rest) := by
  have hdatetime : scanDatetime (Nat.toDigits 10 n ++ '\n' :: rest) = none :=
    DigitsUpTo.no_datetime ⟨_, fun c hc => isDigit_of_mem_toDigits hc, rfl⟩
  have hdecimal := scanDecimal_toDigits n rest
  have hint := scanInt_toDigits hn rest
  obtain ⟨d, ds, hds, hd, -⟩ := exists_toDigits n
  rw [hds, List.cons_append] at hdatetime hdecimal hint ⊢
  have hsign := scanSign_of_isDigit hd (ds ++ '\n' :: rest)
  have hreal : scanDecimalReal (d :: (ds ++ '\n' :: rest)) = none := by
    simp [scanDecimalReal, hsign, hdecimal, scanFraction, scanExponent]
  have hspecial : scanSpecial (d :: (ds ++ '\n' :: rest)) = none := by
    unfold scanSpecial
    rw [hsign]
    dsimp only
    split <;> simp_all
  simp [scanNumber, hdatetime, hreal, hspecial, hint]

end Toml
end ModularHost
