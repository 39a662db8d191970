import Mathlib.Data.List.DropRight
import Mathlib.Data.List.TakeDrop
import Mathlib.Data.List.TakeWhile
import ModularHost.Json.Reader
/-!
# What scanning a piece takes

Each scanner leaves fewer characters than it was given. A string or a number that can be read can
also be skipped, with the same characters left: the skipper looks at the same pieces and is held to
less. Where the reader of a list or an object goes on, it goes on behind a certain character.
-/


namespace ModularHost
namespace Json

/-! ## Outcomes -/

theorem bind_eq_ok_iff {ε α β : Type} {x : Except ε α} {f : α → Except ε β} {b : β} :
    x >>= f = .ok b ↔ ∃ a, x = .ok a ∧ f a = .ok b := by
  cases x <;> simp [bind, Except.bind]

theorem ok_bind {ε α β : Type} {a : α} {f : α → Except ε β} : (.ok a : Except ε α) >>= f = f a :=
  rfl

theorem map_eq_ok_iff {ε α β : Type} {x : Except ε α} {f : α → β} {b : β} :
    x.map f = .ok b ↔ ∃ a, x = .ok a ∧ f a = b := by
  cases x <;> simp [Except.map]

theorem lift_ok {α : Type} (a : α) : lift (.ok a) = .ok a := rfl

theorem lift_eq_ok_iff {α : Type} {r : Except SyntaxError α} {a : α} :
    lift r = .ok a ↔ r = .ok a := by
  cases r <;> simp [lift, Except.mapError]

/-! ## Blanks -/

theorem skipSpaces_skipSpaces (s : List Char) : skipSpaces (skipSpaces s) = skipSpaces s :=
  List.dropWhile_idempotent isSpace s

theorem length_skipSpaces_le (s : List Char) : (skipSpaces s).length ≤ s.length :=
  List.length_dropWhile_le _ _

/-- What is left of a text once its blanks and one more character have been passed. -/
theorem length_lt_of_skipSpaces {s rest : List Char} {c : Char} (h : skipSpaces s = c :: rest) :
    rest.length < s.length := by
  have hle := length_skipSpaces_le s
  rw [h] at hle
  exact hle

/-- What begins with no blank is left as it is. -/
theorem skipSpaces_of_eq_cons {s rest : List Char} {c : Char} (h : skipSpaces s = c :: rest) :
    skipSpaces (c :: rest) = c :: rest := by
  rw [← h, skipSpaces_skipSpaces]

/-! ## Literals -/

theorem length_scanLiteral_le {cs s rest : List Char} (h : scanLiteral cs s = .ok rest) :
    rest.length ≤ s.length := by
  induction cs generalizing s with
  | nil =>
    cases h
    exact Nat.le_refl _
  | cons c cs ih =>
    cases s with
    | nil => cases h
    | cons d s =>
      rw [scanLiteral] at h
      split at h
      · exact Nat.le_succ_of_le (ih h)
      · cases h

/-! ## Strings -/

theorem length_scanHex {s rest : List Char} {n : Nat} (h : scanHex s = .ok (n, rest)) :
    rest.length + 4 = s.length := by
  unfold scanHex at h
  split at h
  · split at h
    · cases h
      rfl
    · cases h
  · cases h

theorem scanPair_eq_ok {high : Nat} {s rest : List Char} {c : Char}
    (h : scanPair high s = .ok (c, rest)) :
    ∃ s' low, s = '\\' :: 'u' :: s' ∧ scanHex s' = .ok (low, rest) := by
  unfold scanPair at h
  split at h
  · cases h
  · cases h
  · rename_i s'
    obtain ⟨⟨low, rest'⟩, hhex, h⟩ := bind_eq_ok_iff.1 h
    dsimp only at h
    split at h
    · cases h
    · obtain ⟨-, rfl⟩ := Prod.mk.inj (Except.ok.inj h)
      exact ⟨s', low, rfl, hhex⟩
  · cases h

/-- A hexadecimal escape, or a pair of them. -/
theorem scanCodePoint_eq_ok {s rest : List Char} {c : Char} (h : scanCodePoint s = .ok (c, rest)) :
    ∃ n s', scanHex s = .ok (n, s') ∧
      (s' = rest ∨ ∃ s'' low, s' = '\\' :: 'u' :: s'' ∧ scanHex s'' = .ok (low, rest)) := by
  obtain ⟨⟨n, s'⟩, hhex, h⟩ := bind_eq_ok_iff.1 h
  refine ⟨n, s', hhex, ?_⟩
  dsimp only at h
  split at h
  · cases h
  · split at h
    · exact .inr (scanPair_eq_ok h)
    · obtain ⟨-, rfl⟩ := Prod.mk.inj (Except.ok.inj h)
      exact .inl rfl

/-- What skipping the characters of a string comes to, given enough fuel. -/
def Closes (s rest : List Char) : Prop :=
  rest.length < s.length ∧ ∀ fuel, s.length < fuel → skipCharacters fuel s = .ok rest

namespace Closes

variable {s s' rest : List Char} {c : Char}

theorem quote (rest : List Char) : Closes ('"' :: rest) rest := by
  refine ⟨by simp, fun fuel hfuel => ?_⟩
  obtain ⟨fuel, rfl⟩ : ∃ n, fuel = n + 1 := ⟨fuel - 1, by omega⟩
  simp [skipCharacters]

theorem plain (hquote : c ≠ '"') (hslash : c ≠ '\\') (hcontrol : ¬ c.toNat < 0x20)
    (h : Closes s rest) : Closes (c :: s) rest := by
  obtain ⟨hlen, hskip⟩ := h
  refine ⟨by simp only [List.length_cons]; omega, fun fuel hfuel => ?_⟩
  obtain ⟨fuel, rfl⟩ : ∃ n, fuel = n + 1 := ⟨fuel - 1, by omega⟩
  simp only [skipCharacters, hquote, hslash, hcontrol, if_false]
  exact hskip fuel (by simpa using hfuel)

/-- One escape is passed, whatever it stands for. -/
theorem escape (hescape : skipEscape s = .ok s') (hlen : s'.length < s.length)
    (h : Closes s' rest) : Closes ('\\' :: s) rest := by
  obtain ⟨hlen', hskip⟩ := h
  refine ⟨by simp only [List.length_cons]; omega, fun fuel hfuel => ?_⟩
  obtain ⟨fuel, rfl⟩ : ∃ n, fuel = n + 1 := ⟨fuel - 1, by omega⟩
  simp only [List.length_cons] at hfuel
  simp only [skipCharacters, Char.reduceEq, if_false, if_true, hescape]
  exact hskip fuel (by omega)

theorem hexEscape {n : Nat} (hhex : scanHex s = .ok (n, s')) (h : Closes s' rest) :
    Closes ('\\' :: 'u' :: s) rest := by
  have hlen := length_scanHex hhex
  exact escape (by simp [skipEscape, hhex, Except.map]) (by simp only [List.length_cons]; omega) h

/-- An escape that can be read can be skipped; a pair of escapes is skipped one by one. -/
theorem of_scanEscape {d : Char} (hescape : scanEscape s = .ok (d, s')) (h : Closes s' rest) :
    Closes ('\\' :: s) rest := by
  cases s with
  | nil => cases hescape
  | cons c s =>
    rw [scanEscape] at hescape
    split at hescape
    · rename_i hc
      subst hc
      obtain ⟨n, s₁, hhex, rfl | ⟨s₂, low, rfl, hlow⟩⟩ := scanCodePoint_eq_ok hescape
      · exact hexEscape hhex h
      · exact hexEscape hhex (hexEscape hlow h)
    · rename_i hc
      cases hd : shortEscape? c with
      | none => simp [hd] at hescape
      | some d' =>
        simp only [hd] at hescape
        cases hescape
        exact escape (by simp [skipEscape, hc, hd]) (by simp) h

end Closes

theorem closes_of_scan {fuel : Nat} {s rest cs : List Char}
    (h : scanCharacters fuel s = .ok (cs, rest)) : Closes s rest := by
  induction fuel generalizing s cs with
  | zero => cases h
  | succ n ih =>
    cases s with
    | nil => cases h
    | cons c s =>
      rw [scanCharacters] at h
      split at h
      · rename_i hc
        subst hc
        cases h
        exact .quote _
      · rename_i hquote
        split at h
        · rename_i hc
          subst hc
          obtain ⟨⟨d, s'⟩, hescape, h⟩ := bind_eq_ok_iff.1 h
          obtain ⟨⟨ds, rest'⟩, hmore, h⟩ := bind_eq_ok_iff.1 h
          cases h
          exact .of_scanEscape hescape (ih hmore)
        · rename_i hslash
          split at h
          · cases h
          · rename_i hcontrol
            obtain ⟨⟨ds, rest'⟩, hmore, h⟩ := bind_eq_ok_iff.1 h
            cases h
            exact .plain hquote hslash hcontrol (ih hmore)

/-- **A string that can be read can be skipped.** -/
theorem skipString_of_scan {s rest : List Char} {t : String} (h : scanString s = .ok (t, rest)) :
    skipString s = .ok rest ∧ rest.length < s.length := by
  obtain ⟨⟨cs, rest'⟩, hscan, heq⟩ := map_eq_ok_iff.1 h
  cases heq
  obtain ⟨hlen, hskip⟩ := closes_of_scan hscan
  exact ⟨hskip _ (Nat.lt_succ_self _), hlen⟩

theorem length_skipEscape {s rest : List Char} (h : skipEscape s = .ok rest) :
    rest.length < s.length := by
  cases s with
  | nil => cases h
  | cons c s =>
    rw [skipEscape] at h
    split at h
    · obtain ⟨⟨n, r⟩, hhex, rfl⟩ := map_eq_ok_iff.1 h
      have hlen := length_scanHex hhex
      simp only [List.length_cons]
      omega
    · split at h
      · cases h
        exact Nat.lt_succ_self _
      · cases h

theorem length_skipCharacters {fuel : Nat} :
    ∀ {s rest : List Char}, skipCharacters fuel s = .ok rest → rest.length < s.length := by
  induction fuel with
  | zero =>
    intro s rest h
    cases h
  | succ fuel ih =>
    intro s rest h
    cases s with
    | nil => cases h
    | cons c s =>
      rw [skipCharacters] at h
      split at h
      · cases h
        exact Nat.lt_succ_self _
      · split at h
        · obtain ⟨s', hescape, h⟩ := bind_eq_ok_iff.1 h
          have hlen := length_skipEscape hescape
          have hlen' := ih h
          simp only [List.length_cons]
          omega
        · split at h
          · cases h
          · exact Nat.lt_succ_of_lt (ih h)

/-! ## Numerals

What is wrong with a numeral that ends too soon is no matter where it does not. -/

section Numerals

variable {atEnd : SyntaxError} {s rest ds : List Char}

theorem span_isDigit_eq (s : List Char) :
    s.span Char.isDigit = (s.takeWhile Char.isDigit, s.dropWhile Char.isDigit) :=
  List.span_eq_takeWhile_dropWhile _ s

theorem length_dropWhile_isDigit {c : Char} (hc : c.isDigit = true) (s : List Char) :
    ((c :: s).dropWhile Char.isDigit).length < (c :: s).length := by
  rw [List.dropWhile_cons_of_pos hc, List.length_cons]
  exact Nat.lt_succ_of_le (List.length_dropWhile_le _ _)

theorem scanWhole_congr (h : scanWhole atEnd s = .ok (ds, rest)) (atEnd' : SyntaxError) :
    scanWhole atEnd' s = .ok (ds, rest) ∧ rest.length < s.length := by
  unfold scanWhole at h ⊢
  split at h
  · cases h
  · split at h
    · cases h
      exact ⟨rfl, by simp⟩
    · split at h
      · cases h
      · rename_i hdigit
        cases h
        exact ⟨by simp [hdigit], by simp⟩
  · rename_i c s _
    split at h
    · rename_i hdigit
      rw [span_isDigit_eq] at h
      cases h
      exact ⟨by simp [hdigit], length_dropWhile_isDigit hdigit s⟩
    · cases h

theorem scanDigits_congr (h : scanDigits atEnd s = .ok (ds, rest)) (atEnd' : SyntaxError) :
    scanDigits atEnd' s = .ok (ds, rest) ∧ rest.length < s.length := by
  unfold scanDigits at h ⊢
  split at h
  · cases h
  · rename_i c s
    split at h
    · rename_i hdigit
      rw [span_isDigit_eq] at h
      cases h
      exact ⟨by simp [hdigit], length_dropWhile_isDigit hdigit s⟩
    · cases h

theorem scanFraction_congr (h : scanFraction atEnd s = .ok (ds, rest)) (atEnd' : SyntaxError) :
    scanFraction atEnd' s = .ok (ds, rest) ∧ rest.length ≤ s.length := by
  unfold scanFraction at h ⊢
  split at h
  · obtain ⟨hscan, hlen⟩ := scanDigits_congr h atEnd'
    exact ⟨hscan, by simp only [List.length_cons]; omega⟩
  · cases h
    exact ⟨rfl, Nat.le_refl _⟩

/-- Behind the mark of an exponent there may be a sign, and then there are digits. -/
theorem scanExponent_of_mark {c : Char} (hc : c = 'e' ∨ c = 'E') (s : List Char) :
    ∃ negative s', s'.length ≤ s.length ∧ ∀ atEnd, scanExponent atEnd (c :: s) =
      (scanDigits atEnd s').map fun (ds, r) => (some (negative, ds), r) := by
  simp only [scanExponent, if_pos hc]
  split
  · exact ⟨_, _, Nat.le_succ _, fun _ => rfl⟩
  · exact ⟨_, _, Nat.le_succ _, fun _ => rfl⟩
  · exact ⟨_, _, Nat.le_refl _, fun _ => rfl⟩

theorem scanExponent_congr {exponent : Option (Bool × List Char)}
    (h : scanExponent atEnd s = .ok (exponent, rest)) (atEnd' : SyntaxError) :
    scanExponent atEnd' s = .ok (exponent, rest) ∧ rest.length ≤ s.length := by
  cases s with
  | nil =>
    cases h
    exact ⟨rfl, Nat.le_refl _⟩
  | cons c s =>
    by_cases hc : c = 'e' ∨ c = 'E'
    · obtain ⟨negative, s', hlen, hscan⟩ := scanExponent_of_mark hc s
      rw [hscan] at h ⊢
      obtain ⟨⟨ds, rest'⟩, hdigits, heq⟩ := map_eq_ok_iff.1 h
      obtain ⟨hdigits', hlen'⟩ := scanDigits_congr hdigits atEnd'
      cases heq
      exact ⟨map_eq_ok_iff.2 ⟨_, hdigits', rfl⟩, by simp only [List.length_cons]; omega⟩
    · simp only [scanExponent, if_neg hc] at h ⊢
      cases h
      exact ⟨rfl, Nat.le_refl _⟩

theorem scanNumeral_congr {negative : Bool} {n : Numeral}
    (h : scanNumeral atEnd negative s = .ok (n, rest)) (atEnd' : SyntaxError) :
    scanNumeral atEnd' negative s = .ok (n, rest) ∧ rest.length < s.length := by
  obtain ⟨⟨whole, s₁⟩, hwhole, h⟩ := bind_eq_ok_iff.1 h
  obtain ⟨⟨fraction, s₂⟩, hfraction, h⟩ := bind_eq_ok_iff.1 h
  obtain ⟨⟨exponent, s₃⟩, hexponent, h⟩ := bind_eq_ok_iff.1 h
  cases h
  obtain ⟨hwhole', hlen₁⟩ := scanWhole_congr hwhole atEnd'
  obtain ⟨hfraction', hlen₂⟩ := scanFraction_congr hfraction atEnd'
  obtain ⟨hexponent', hlen₃⟩ := scanExponent_congr hexponent atEnd'
  refine ⟨bind_eq_ok_iff.2 ⟨_, hwhole', ?_⟩, by omega⟩
  exact bind_eq_ok_iff.2 ⟨_, hfraction', bind_eq_ok_iff.2 ⟨_, hexponent', rfl⟩⟩

end Numerals

/-! ## Between elements and members -/

section Between

variable {first : Bool} {s rest : List Char}

theorem nextElement_eq_close (h : nextElement first s = .ok (.close rest)) :
    skipSpaces s = ']' :: rest := by
  unfold nextElement at h
  split at h
  · cases h
  · rename_i hs
    cases h
    exact hs
  · split at h
    · cases h
    · split at h
      · split at h <;> cases h
      · cases h

/-- An element begins with no bracket that would close the list. -/
theorem nextElement_eq_more (h : nextElement first s = .ok (.more rest)) :
    (∃ c t, rest = c :: t ∧ c ≠ ']') ∧
      (first = true ∧ skipSpaces s = rest ∨
        first = false ∧ ∃ t, skipSpaces s = ',' :: t ∧ skipSpaces t = rest) := by
  unfold nextElement at h
  split at h
  · cases h
  · cases h
  · rename_i c t hclose hs
    cases first with
    | true =>
      cases h
      exact ⟨⟨c, t, rfl, hclose⟩, .inl ⟨rfl, hs⟩⟩
    | false =>
      rw [if_neg Bool.false_ne_true] at h
      split at h
      · rename_i hcomma
        subst hcomma
        split at h
        · cases h
        · cases h
        · rename_i d u hclose' ht
          cases h
          exact ⟨⟨d, u, rfl, hclose'⟩, .inr ⟨rfl, t, hs, ht⟩⟩
      · cases h

theorem nextMember_eq_close (h : nextMember first s = .ok (.close rest)) :
    skipSpaces s = '}' :: rest := by
  unfold nextMember at h
  split at h
  · cases h
  · rename_i hs
    cases h
    exact hs
  · split at h
    · split at h <;> cases h
    · split at h
      · split at h <;> cases h
      · cases h

/-- A member begins with the quote of its key. -/
theorem nextMember_eq_more (h : nextMember first s = .ok (.more rest)) :
    first = true ∧ skipSpaces s = '"' :: rest ∨
      first = false ∧ ∃ t, skipSpaces s = ',' :: t ∧ skipSpaces t = '"' :: rest := by
  unfold nextMember at h
  split at h
  · cases h
  · cases h
  · rename_i c t _ hs
    cases first with
    | true =>
      rw [if_pos rfl] at h
      split at h
      · rename_i hquote
        cases h
        exact .inl ⟨rfl, hquote ▸ hs⟩
      · cases h
    | false =>
      rw [if_neg Bool.false_ne_true] at h
      split at h
      · rename_i hcomma
        subst hcomma
        split at h
        · cases h
        · cases h
        · rename_i ht
          cases h
          exact .inr ⟨rfl, t, hs, ht⟩
        · cases h
      · cases h

theorem scanColon_eq_ok (h : scanColon s = .ok rest) : skipSpaces s = ':' :: rest := by
  unfold scanColon at h
  split at h
  · cases h
  · rename_i hs
    cases h
    exact hs
  · cases h

theorem closeList_eq_ok (h : closeList s = .ok rest) : skipSpaces s = ']' :: rest := by
  unfold closeList at h
  split at h
  · cases h
  · rename_i hs
    cases h
    exact hs
  · split at h <;> cases h
  · cases h

end Between

/-! ## Heads -/

/-- What a text can begin with, its blanks aside, and what is read of that. -/
inductive HeadOf (s : List Char) : Head → List Char → Prop
  | null {t rest : List Char} : skipSpaces s = 'n' :: t →
    scanLiteral ['u', 'l', 'l'] t = .ok rest → HeadOf s (.scalar .null) rest
  | trueLiteral {t rest : List Char} : skipSpaces s = 't' :: t →
    scanLiteral ['r', 'u', 'e'] t = .ok rest → HeadOf s (.scalar (.bool true)) rest
  | falseLiteral {t rest : List Char} : skipSpaces s = 'f' :: t →
    scanLiteral ['a', 'l', 's', 'e'] t = .ok rest → HeadOf s (.scalar (.bool false)) rest
  | string {t rest : List Char} {name : String} : skipSpaces s = '"' :: t →
    scanString t = .ok (name, rest) → HeadOf s (.scalar (.str name)) rest
  | list {rest : List Char} : skipSpaces s = '[' :: rest → HeadOf s .openList rest
  | object {rest : List Char} : skipSpaces s = '\x7b' :: rest → HeadOf s .openObject rest
  | negative {t rest : List Char} {n : Numeral} {v : Json} : skipSpaces s = '-' :: t →
    scanNumeral .eofValue true t = .ok (n, rest) → n.value = .ok v → HeadOf s (.scalar v) rest
  | number {c : Char} {t rest : List Char} {n : Numeral} {v : Json} : skipSpaces s = c :: t →
    c.isDigit = true → scanNumeral .eofValue false (c :: t) = .ok (n, rest) → n.value = .ok v →
    HeadOf s (.scalar v) rest

theorem headOf_of_scanHead {s rest : List Char} {head : Head}
    (h : scanHead s = .ok (head, rest)) : HeadOf s head rest := by
  have hnumber : ∀ {negative t}, scanHead.number negative t = .ok (head, rest) →
      ∃ n v, scanNumeral .eofValue negative t = .ok (n, rest) ∧ n.value = .ok v ∧
        head = .scalar v := by
    intro negative t hnumber
    obtain ⟨⟨n, r⟩, hscan, hvalue⟩ := bind_eq_ok_iff.1 hnumber
    obtain ⟨v, hv, heq⟩ := bind_eq_ok_iff.1 hvalue
    cases heq
    exact ⟨n, v, hscan, hv, rfl⟩
  unfold scanHead at h
  split at h
  · cases h
  · rename_i hs
    obtain ⟨r, hscan, heq⟩ := map_eq_ok_iff.1 h
    cases heq
    exact .null hs hscan
  · rename_i hs
    obtain ⟨r, hscan, heq⟩ := map_eq_ok_iff.1 h
    cases heq
    exact .trueLiteral hs hscan
  · rename_i hs
    obtain ⟨r, hscan, heq⟩ := map_eq_ok_iff.1 h
    cases heq
    exact .falseLiteral hs hscan
  · rename_i hs
    obtain ⟨⟨t, r⟩, hscan, heq⟩ := map_eq_ok_iff.1 h
    cases heq
    exact .string hs hscan
  · rename_i hs
    cases h
    exact .list hs
  · rename_i hs
    cases h
    exact .object hs
  · rename_i hs
    obtain ⟨n, v, hscan, hv, rfl⟩ := hnumber h
    exact .negative hs hscan hv
  · rename_i hs
    split at h
    · rename_i hdigit
      obtain ⟨n, v, hscan, hv, rfl⟩ := hnumber h
      exact .number hs hdigit hscan hv
    · cases h

/-- A value is a scalar, or begins with the bracket that it shows. -/
theorem scanHead_cases {s rest : List Char} {head : Head} (h : scanHead s = .ok (head, rest)) :
    (∃ v, head = .scalar v) ∨ (head = .openList ∧ skipSpaces s = '[' :: rest) ∨
      (head = .openObject ∧ skipSpaces s = '\x7b' :: rest) := by
  cases headOf_of_scanHead h with
  | null | trueLiteral | falseLiteral | string | negative | number => exact .inl ⟨_, rfl⟩
  | list hs => exact .inr (.inl ⟨rfl, hs⟩)
  | object hs => exact .inr (.inr ⟨rfl, hs⟩)

/-! ## Containers, one step at a time -/

section Steps

variable {α σ : Type} {element : List Char → Except Fault (α × List Char)}
  {member : σ → String → List Char → Except Fault (σ × List Char)} {fuel : Nat} {first : Bool}
  {s rest : List Char} {state : σ}

theorem readElements_of_close (h : nextElement first s = .ok (.close rest)) :
    readElements element (fuel + 1) first s = .ok ([], rest) := by
  rw [readElements, h]
  rfl

theorem readElements_of_more (h : nextElement first s = .ok (.more rest)) :
    readElements element (fuel + 1) first s =
      element rest >>= fun (a, rest) =>
        readElements element fuel false rest >>= fun (as, rest) => pure (a :: as, rest) := by
  rw [readElements, h]
  rfl

theorem readMembers_of_close (h : nextMember first s = .ok (.close rest)) :
    readMembers member (fuel + 1) first state s = .ok (state, rest) := by
  rw [readMembers, h]
  rfl

theorem readMembers_of_more {key : String} {r : List Char}
    (h : nextMember first s = .ok (.more r)) (hkey : scanString r = .ok (key, rest)) :
    readMembers member (fuel + 1) first state s =
      member state key rest >>= fun (state, rest) =>
        readMembers member fuel false state rest := by
  rw [readMembers, h]
  change lift (scanString r) >>= _ = _
  rw [hkey]
  rfl

/-- A member that has been read stands behind a colon, and comes before the others. -/
theorem readMember_eq_ok {value : List Char → Except Fault (α × List Char)}
    {before after : List (String × α)} {key : String}
    (h : readMember value before key s = .ok (after, rest)) :
    ∃ t a, scanColon s = .ok t ∧ value t = .ok (a, rest) ∧ after = (key, a) :: before := by
  obtain ⟨t, hcolon, h⟩ := bind_eq_ok_iff.1 h
  obtain ⟨⟨a, r⟩, hvalue, h⟩ := bind_eq_ok_iff.1 h
  cases h
  exact ⟨t, a, lift_eq_ok_iff.1 hcolon, hvalue, rfl⟩

end Steps

end Json
end ModularHost
