import ModularHost.Json.Fault
/-!
# Numerals

A number as it is spelled, and the number it means. A numeral without point and exponent is a
whole number as long as it fits 64 bits, signed when it is negative and unsigned otherwise; every
other one is binary64. Of those, at most the digits that fit 64 bits are kept, and the power of ten
is multiplied in, or divided out, by one rounded operation; so a numeral is not always read as the
number nearest to it.
-/

namespace ModularHost
namespace Json

/-- A numeral's sign, the digits before and after the point, and the exponent's sign and digits. -/
structure Numeral where
  negative : Bool
  whole : List Char
  fraction : List Char
  exponent : Option (Bool × List Char)
deriving DecidableEq, Repr

/-- The value of a decimal digit. -/
def digitValue (c : Char) : Nat := c.toNat - 48

/-- The number that decimal digits spell. -/
def digitsValue (cs : List Char) : Nat :=
  cs.foldl (fun n c => 10 * n + digitValue c) 0

/-! ## Scanning

Each step answers what it read and the characters that are left. -/

/-- The digits that a numeral begins with: a single zero, or digits without a leading zero. -/
def scanWhole (atEnd : SyntaxError) : List Char → Except SyntaxError (List Char × List Char)
  | [] => .error atEnd
  | '0' :: rest =>
    match rest with
    | [] => .ok (['0'], [])
    | c :: _ => if c.isDigit then .error .invalidNumber else .ok (['0'], rest)
  | c :: rest =>
    if c.isDigit then .ok ((c :: rest).span Char.isDigit) else .error .invalidNumber

/-- At least one digit. -/
def scanDigits (atEnd : SyntaxError) : List Char → Except SyntaxError (List Char × List Char)
  | [] => .error atEnd
  | c :: rest =>
    if c.isDigit then .ok ((c :: rest).span Char.isDigit) else .error .invalidNumber

/-- The digits after a point, if there is a point. -/
def scanFraction (atEnd : SyntaxError) : List Char → Except SyntaxError (List Char × List Char)
  | '.' :: rest => scanDigits atEnd rest
  | s => .ok ([], s)

/-- The sign and digits after an exponent mark, if there is one. -/
def scanExponent (atEnd : SyntaxError) :
    List Char → Except SyntaxError (Option (Bool × List Char) × List Char)
  | c :: rest =>
    if c = 'e' ∨ c = 'E' then
      let (negative, rest) := match rest with
        | '+' :: r => (false, r)
        | '-' :: r => (true, r)
        | r => (false, r)
      (scanDigits atEnd rest).map fun (ds, r) => (some (negative, ds), r)
    else .ok (none, c :: rest)
  | [] => .ok (none, [])

/-- A numeral after its sign; `atEnd` is what is wrong when the characters run out inside it. -/
def scanNumeral (atEnd : SyntaxError) (negative : Bool) (s : List Char) :
    Except SyntaxError (Numeral × List Char) := do
  let (whole, s) ← scanWhole atEnd s
  let (fraction, s) ← scanFraction atEnd s
  let (exponent, s) ← scanExponent atEnd s
  return (⟨negative, whole, fraction, exponent⟩, s)

/-! ## Meaning -/

/-- Digits appended to a number while it fits 64 bits: the number, how many digits it took, and how
many were left. -/
def appendDigits (n : Nat) : List Char → Nat × Nat × Nat
  | [] => (n, 0, 0)
  | c :: cs =>
    let next := n * 10 + digitValue c
    if next < UInt64.size then
      let (m, taken, left) := appendDigits next cs
      (m, taken + 1, left)
    else (n, 0, (c :: cs).length)

/-- Ten to a power that the format holds. -/
def powerOfTen (n : Nat) : Number.Dyadic :=
  (Number.Dyadic.ofNat false (Nat.pow 10 n)).getD (.zero false)

/-- A number divided by `10 ^ power`, in steps of at most `10 ^ 308`. -/
def divideByTens (x : Number.Dyadic) (power : Nat) : Option Number.Dyadic :=
  if power ≤ 308 then x.div (powerOfTen power)
  else if x.isZero then some x
  else (x.div (powerOfTen 308)).bind fun y => divideByTens y (power - 308)
termination_by power

/-- `significand · 10 ^ power` with one rounding for the significand and one for each step. -/
def scaleByTens (negative : Bool) (significand : Nat) (power : Int) : Option Number.Dyadic :=
  (Number.Dyadic.ofNat negative significand).bind fun x =>
    if power < 0 then divideByTens x power.natAbs
    else if power ≤ 308 then x.mul (powerOfTen power.toNat)
    else if x.isZero then some x
    else none

/-- How far the signed numbers of 64 bits reach below zero. -/
def signedDepth : Nat := 9223372036854775808

/-- The greatest exponent that is counted exactly. -/
def greatestCountedExponent : Nat := 2147483647

/-- The number a numeral means. -/
def Numeral.value (n : Numeral) : Except SyntaxError Json :=
  let (head, _, dropped) := appendDigits 0 n.whole
  if n.fraction = [] ∧ n.exponent = none ∧ dropped = 0 ∧ !n.negative then .ok (.int head)
  else if n.fraction = [] ∧ n.exponent = none ∧ dropped = 0 ∧ 0 < head ∧ head ≤ signedDepth then
    .ok (.int (-head))
  else
    let (significand, taken, _) := appendDigits head n.fraction
    let place : Int := dropped - taken
    let scaled (power : Int) : Except SyntaxError Json :=
      match scaleByTens n.negative significand power with
      | some x => .ok (.real (.finite x))
      | none => .error .numberOutOfRange
    match n.exponent with
    | none => scaled place
    | some (below, digits) =>
      let exponent := digitsValue digits
      if exponent > greatestCountedExponent then
        if significand ≠ 0 ∧ !below then .error .numberOutOfRange
        else .ok (.real (.finite (.zero n.negative)))
      else scaled (if below then place - exponent else place + exponent)

end Json
end ModularHost
