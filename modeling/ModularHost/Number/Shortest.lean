import ModularHost.Number.Binary64
/-!
# Shortest decimals

The fewest decimal digits that read back as a given number, the nearest such decimal among those
of that length, and the two ways they are written: positional with a point, or with an exponent.
-/

namespace ModularHost
namespace Number

/-- A positive decimal `digits · 10 ^ power`. -/
structure Decimal where
  digits : Nat
  power : Int
deriving DecidableEq, Repr

/-- The reals that round to a number: from `low / den` to `high / den` around `value / den`, the
ends included or not. -/
structure Interval where
  low : Nat
  value : Nat
  high : Nat
  den : Nat
  closed : Bool

/-- The interval around a positive number. The gap below a mantissa of `2 ^ 52` is half as wide as
the one above it, unless the number has the least exponent. -/
def Interval.around (x : Dyadic) : Interval :=
  let e := x.exponent - 2
  let scale := powerAbove 2 e
  let below := if x.mantissa = leastFullMantissa ∧ x.exponent > leastExponent then 1 else 2
  { low := (4 * x.mantissa - below) * scale
    value := 4 * x.mantissa * scale
    high := (4 * x.mantissa + 2) * scale
    den := powerAbove 2 (-e)
    closed := x.mantissa % 2 == 0 }

/-- Whether `d` lies in the interval. -/
def Interval.contains (i : Interval) (d : Decimal) : Bool :=
  let n := d.digits * powerAbove 10 d.power * i.den
  let scale := powerAbove 10 (-d.power)
  if i.closed then i.low * scale ≤ n && n ≤ i.high * scale
  else i.low * scale < n && n < i.high * scale

/-- How far `d` is from the middle of the interval, in units common to one grid of decimals. -/
def Interval.distance (i : Interval) (d : Decimal) : Nat :=
  let n := d.digits * powerAbove 10 d.power * i.den
  let m := i.value * powerAbove 10 (-d.power)
  (n - m) + (m - n)

/-- The power of ten of a positive ratio's first digit, by an estimate from the power of two and
one step up or down. -/
def decimalExponent (num den : Nat) (estimate : Int) : Int :=
  let reaches (p : Int) : Bool := den * powerAbove 10 p ≤ num * powerAbove 10 (-p)
  if reaches (estimate + 1) then estimate + 1
  else if reaches estimate then estimate
  else estimate - 1

/-- The nearer of the two neighbours of the middle on the grid of `10 ^ power` that read back; of
two at the same distance, the even one. -/
def Interval.onGrid (i : Interval) (power : Int) : Option Decimal :=
  let floor := i.value * powerAbove 10 (-power) / (i.den * powerAbove 10 power)
  let down : Decimal := ⟨floor, power⟩
  let up : Decimal := ⟨floor + 1, power⟩
  match i.contains down && floor != 0, i.contains up with
  | true, true =>
    let a := i.distance down
    let b := i.distance up
    some (if a < b || (a == b && floor % 2 == 0) then down else up)
  | true, false => some down
  | false, true => some up
  | false, false => none

/-- The first grid with a hit, from the coarsest on; `left` is the number of grids still to try. -/
def Interval.search (i : Interval) : (left : Nat) → (power : Int) → Decimal
  | 0, power => ⟨i.value * powerAbove 10 (-power) / (i.den * powerAbove 10 power), power⟩
  | left + 1, power => (i.onGrid power).getD (i.search left (power - 1))

/-- The shortest decimal that reads back as the positive number. Seventeen digits always do. -/
def shortest (x : Dyadic) : Decimal :=
  let i := Interval.around x
  let estimate := ((x.mantissa.log2 : Int) + x.exponent) * 30103 / 100000
  i.search 17 (decimalExponent i.value i.den estimate)

/-- The digits of a decimal without trailing zeros, and the place of the point: the value is
`0.d₁d₂… · 10 ^ place`. -/
def Decimal.parts (d : Decimal) : List Char × Int :=
  let digits := Nat.toDigits 10 d.digits
  ((digits.reverse.dropWhile (· == '0')).reverse, digits.length + d.power)

/-- The digits with the point at its place, and at least one digit on either side of it. -/
def positional (digits : List Char) (place : Int) : List Char :=
  if place ≤ 0 then ['0', '.'] ++ List.replicate (-place).toNat '0' ++ digits
  else
    let n := place.toNat
    let whole := digits.take n ++ List.replicate (n - digits.length) '0'
    let fraction := digits.drop n
    whole ++ ['.'] ++ (if fraction.isEmpty then ['0'] else fraction)

/-- One digit before the point, a point only if more digits follow, and a signed exponent where
it is negative or `plus` asks for it. -/
def scientific (plus : Bool) (digits : List Char) (place : Int) : List Char :=
  let exponent := place - 1
  let sign := if exponent < 0 then ['-'] else if plus then ['+'] else []
  digits.take 1 ++ (if digits.length ≤ 1 then [] else '.' :: digits.drop 1)
    ++ ['e'] ++ sign ++ Nat.toDigits 10 exponent.natAbs

/-- When a number is written with the point at its place, and whether a positive exponent carries
its sign. -/
structure DecimalStyle where
  positionalAt : Int → Bool
  plus : Bool

/-- The shortest text of a finite number: with the point at its place where the place lies in the
style's range, with an exponent elsewhere. -/
def Dyadic.write (style : DecimalStyle) (x : Dyadic) : List Char :=
  let sign := if x.negative then ['-'] else []
  if x.isZero then sign ++ ['0', '.', '0']
  else
    let (digits, place) := (shortest x).parts
    sign ++ (if style.positionalAt place then positional digits place
      else scientific style.plus digits place)

/-- The shortest text of a number. -/
def Binary64.write (style : DecimalStyle) : Binary64 → String
  | .finite x => String.ofList (x.write style)
  | .infinite false => "inf"
  | .infinite true => "-inf"
  | .nan => "NaN"

end Number
end ModularHost
