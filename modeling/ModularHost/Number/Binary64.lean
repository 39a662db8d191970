/-!
# Binary64 numbers

The numbers of the binary64 format: the finite ones as a sign, a mantissa below `2 ^ 53` and a
power of two, the two infinities, and the one that is no number. Every operation on finite numbers
goes through one rounding rule: the nearest number of the format, a tie to the even mantissa. All
of it is exact arithmetic on natural numbers.
-/

namespace ModularHost
namespace Number

/-- A finite number `± mantissa · 2 ^ exponent`. The exponent is at least `-1074`, and it is the
least one at which the number's mantissa stays below `2 ^ 53`. -/
structure Dyadic where
  negative : Bool
  mantissa : Nat
  exponent : Int
deriving DecidableEq, Repr, Inhabited

/-- A number of the format. -/
inductive Binary64 where
  | finite (value : Dyadic)
  | infinite (negative : Bool)
  | nan
deriving DecidableEq, Repr, Inhabited

def Binary64.isFinite : Binary64 → Bool
  | .finite _ => true
  | _ => false

/-- `2 ^ 53`, which no mantissa reaches. -/
def mantissaLimit : Nat := 9007199254740992

/-- `2 ^ 52`, the least mantissa of full width. -/
def leastFullMantissa : Nat := 4503599627370496

/-- The least power of two the format has. -/
def leastExponent : Int := -1074

/-- The greatest power of two a mantissa of full width may have. -/
def greatestExponent : Int := 971

/-- `base ^ n` for a positive `n`, and `1` for any other. -/
def powerAbove (base : Nat) (n : Int) : Nat := Nat.pow base n.toNat

/-- The quotient of `num · 2 ^ -e` by `den` and the remainder, with the divisor it was taken by. -/
def scaledQuotient (num den : Nat) (e : Int) : Nat × Nat × Nat :=
  let n := num * powerAbove 2 (-e)
  let d := den * powerAbove 2 e
  (n / d, n % d, d)

/-- The number of the format nearest to `num / den`, a tie to the even mantissa; none when the
nearest would lie beyond the greatest one. -/
def roundRatio (num den : Nat) : Option (Nat × Int) :=
  if num = 0 then some (0, leastExponent)
  else
    let estimate : Int := max ((num.log2 : Int) - den.log2 - 53) leastExponent
    let e :=
      if (scaledQuotient num den estimate).1 ≥ mantissaLimit then estimate + 1 else estimate
    let (q, r, d) := scaledQuotient num den e
    let up := 2 * r > d || (2 * r == d && q % 2 == 1)
    let (m, e) :=
      if !up then (q, e)
      else if q + 1 = mantissaLimit then (leastFullMantissa, e + 1)
      else (q + 1, e)
    if e > greatestExponent then none else some (m, e)

namespace Dyadic

/-- Zero, with a sign. -/
def zero (negative : Bool) : Dyadic := ⟨negative, 0, leastExponent⟩

def isZero (x : Dyadic) : Bool := x.mantissa == 0

/-- The number nearest to `± num / den`. -/
def ofRatio (negative : Bool) (num den : Nat) : Option Dyadic :=
  (roundRatio num den).map fun (m, e) => ⟨negative, m, e⟩

/-- The number nearest to `± n`. -/
def ofNat (negative : Bool) (n : Nat) : Option Dyadic :=
  ofRatio negative n 1

/-- The rounded product of a number and a positive one. -/
def mul (x y : Dyadic) : Option Dyadic :=
  let e := x.exponent + y.exponent
  ofRatio x.negative (x.mantissa * y.mantissa * powerAbove 2 e) (powerAbove 2 (-e))

/-- The rounded quotient of a number by a positive one. -/
def div (x y : Dyadic) : Option Dyadic :=
  let e := x.exponent - y.exponent
  ofRatio x.negative (x.mantissa * powerAbove 2 e) (y.mantissa * powerAbove 2 (-e))

/-- The number nearest to `± digits · 10 ^ power`. Powers far outside the format's range are
settled without being computed. -/
def ofDecimal (negative : Bool) (digits : Nat) (power : Int) : Option Dyadic :=
  let magnitude : Int := (Nat.toDigits 10 digits).length + power
  if digits = 0 then some (zero negative)
  else if magnitude > 310 then none
  else if magnitude < -330 then some (zero negative)
  else ofRatio negative (digits * powerAbove 10 power) (powerAbove 10 (-power))

end Dyadic
end Number
end ModularHost
