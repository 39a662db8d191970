import ModularHost.Toml.Scanner
/-!
# Numbers and dates in TOML

Whole numbers in four bases, other numbers, and dates and times. Digits may have an underscore
between them. A date is kept as the text that it is written as.
-/

namespace ModularHost
namespace Toml

open Number

/-! ## Digits -/

/-- Digits of a class with single underscores between them; at least one, underscores left out. -/
def scanDigits (isDigit : Char → Bool) : List Char → Option (List Char × List Char)
  | [] => none
  | c :: rest =>
    if isDigit c then
      match rest with
      | '_' :: d :: rest' =>
        if isDigit d then
          (scanDigits isDigit (d :: rest')).map fun (ds, rest) => (c :: ds, rest)
        else some ([c], rest)
      | d :: rest' =>
        if isDigit d then
          (scanDigits isDigit (d :: rest')).map fun (ds, rest) => (c :: ds, rest)
        else some ([c], rest)
      | [] => some ([c], [])
    else none

/-- The number that digits spell in a base. -/
def digitsValue (base : Nat) (ds : List Char) : Nat :=
  ds.foldl (fun n c => base * n + (hexValue? c).getD 0) 0

/-- An optional sign, true for minus. -/
def scanSign : List Char → Bool × List Char
  | '+' :: rest => (false, rest)
  | '-' :: rest => (true, rest)
  | s => (false, s)

/-- Decimal digits without a leading zero. -/
def scanDecimal : List Char → Option (List Char × List Char)
  | '0' :: rest => some (['0'], rest)
  | s => scanDigits Char.isDigit s

/-! ## Whole numbers -/

/-- A whole number that fits 64 bits. -/
def fitInt? (n : Int) : Option Json :=
  if -9223372036854775808 ≤ n ∧ n ≤ 9223372036854775807 then some (.int n) else none

/-- A number behind the mark of its base. -/
def scanBased (base : Nat) (isDigit : Char → Bool) (s : List Char) : Option (Json × List Char) := do
  let (ds, rest) ← scanDigits isDigit s
  return (← fitInt? (digitsValue base ds), rest)

def scanInt (s : List Char) : Option (Json × List Char) :=
  match s with
  | '0' :: 'x' :: rest => scanBased 16 (fun c => (hexValue? c).isSome) rest
  | '0' :: 'o' :: rest => scanBased 8 (fun c => '0' ≤ c && c ≤ '7') rest
  | '0' :: 'b' :: rest => scanBased 2 (fun c => c == '0' || c == '1') rest
  | s => do
    let (negative, s) := scanSign s
    let (ds, rest) ← scanDecimal s
    let n : Int := digitsValue 10 ds
    return (← fitInt? (if negative then -n else n), rest)

/-! ## Other numbers -/

/-- Digits behind a point. -/
def scanFraction : List Char → Option (List Char × List Char)
  | '.' :: rest => scanDigits Char.isDigit rest
  | _ => none

/-- An exponent with its mark. -/
def scanExponent : List Char → Option (Int × List Char)
  | c :: rest =>
    if c = 'e' ∨ c = 'E' then do
      let (negative, rest) := scanSign rest
      let (ds, rest) ← scanDigits Char.isDigit rest
      let n : Int := digitsValue 10 ds
      return (if negative then -n else n, rest)
    else none
  | [] => none

/-- The number nearest to a decimal. One too great for the format is malformed, one too small is
minus infinity. -/
def nearest (negative : Bool) (digits : List Char) (power : Int) : Option Json :=
  match Dyadic.ofDecimal negative (digitsValue 10 digits) power with
  | some x => some (.real (.finite x))
  | none => if negative then some (.real (.infinite true)) else none

/-- A number with a fraction, an exponent or both. -/
def scanDecimalReal (s : List Char) : Option (Json × List Char) := do
  let (negative, s) := scanSign s
  let (whole, s) ← scanDecimal s
  match scanFraction s with
  | some (fraction, s) =>
    let (exponent, s) := (scanExponent s).getD (0, s)
    return (← nearest negative (whole ++ fraction) (exponent - fraction.length), s)
  | none =>
    let (exponent, s) ← scanExponent s
    return (← nearest negative whole exponent, s)

/-- Infinity, or what is no number. -/
def scanSpecial (s : List Char) : Option (Json × List Char) :=
  let (negative, s) := scanSign s
  match s with
  | 'i' :: 'n' :: 'f' :: rest => some (.real (.infinite negative), rest)
  | 'n' :: 'a' :: 'n' :: rest => some (.real .nan, rest)
  | _ => none

/-! ## Dates and times -/

/-- Exactly some number of decimal digits, and their value. -/
def scanFixed (count : Nat) (s : List Char) : Option (Nat × List Char) :=
  let ds := s.take count
  if ds.length = count && ds.all Char.isDigit then some (digitsValue 10 ds, s.drop count) else none

/-- Two digits within bounds. -/
def scanTwo (least greatest : Nat) (s : List Char) : Option (Nat × List Char) := do
  let (n, rest) ← scanFixed 2 s
  if least ≤ n ∧ n ≤ greatest then some (n, rest) else none

/-- A given character. -/
def scanMark (mark : Char) : List Char → Option (List Char)
  | c :: rest => if c = mark then some rest else none
  | [] => none

/-- Two digits of a number below a hundred. -/
def twoDigits (n : Nat) : List Char :=
  [Char.ofNat (48 + n / 10 % 10), Char.ofNat (48 + n % 10)]

def isLeapYear (year : Nat) : Bool :=
  year % 4 == 0 && (year % 100 != 0 || year % 400 == 0)

def daysInMonth (year month : Nat) : Nat :=
  if month = 2 then if isLeapYear year then 29 else 28
  else if month = 4 ∨ month = 6 ∨ month = 9 ∨ month = 11 then 30
  else 31

/-- A date, as it is written. -/
def scanDate (s : List Char) : Option (List Char × List Char) := do
  let (year, s) ← scanFixed 4 s
  let s ← scanMark '-' s
  let (month, s) ← scanTwo 1 12 s
  let s ← scanMark '-' s
  let (day, s) ← scanTwo 1 31 s
  if day ≤ daysInMonth year month then
    let text := twoDigits (year / 100) ++ twoDigits year
    some (text ++ '-' :: twoDigits month ++ '-' :: twoDigits day, s)
  else none

/-- The fraction of a second to the nanosecond, without trailing zeros, as it is written. -/
def writeFraction (ds : List Char) : List Char :=
  match ((ds.take 9).reverse.dropWhile (· == '0')).reverse with
  | [] => []
  | ds => '.' :: ds

/-- A time of day, as it is written. -/
def scanTime (s : List Char) : Option (List Char × List Char) := do
  let (hour, s) ← scanTwo 0 23 s
  let s ← scanMark ':' s
  let (minute, s) ← scanTwo 0 59 s
  let s ← scanMark ':' s
  let (second, s) ← scanTwo 0 60 s
  let text := twoDigits hour ++ ':' :: twoDigits minute ++ ':' :: twoDigits second
  match s with
  | '.' :: rest =>
    match rest.span Char.isDigit with
    | ([], _) => return (text, s)
    | (ds, rest) => return (text ++ writeFraction ds, rest)
  | s => return (text, s)

/-- An offset from universal time, as it is written. -/
def scanOffset : List Char → Option (List Char × List Char)
  | c :: rest =>
    if c = 'Z' ∨ c = 'z' then some (['Z'], rest)
    else if c = '+' ∨ c = '-' then do
      let (hours, rest) ← scanTwo 0 23 rest
      let rest ← scanMark ':' rest
      let (minutes, rest) ← scanTwo 0 59 rest
      let sign := if hours = 0 ∧ minutes = 0 then '+' else c
      return (sign :: twoDigits hours ++ ':' :: twoDigits minutes, rest)
    else none
  | [] => none

/-- A time behind a date, with its mark and an offset if there is one. -/
def scanTimeOfDate : List Char → Option (List Char × List Char)
  | c :: rest =>
    if c = 'T' ∨ c = 't' ∨ c = ' ' then do
      let (time, rest) ← scanTime rest
      let (offset, rest) := (scanOffset rest).getD ([], rest)
      return ('T' :: time ++ offset, rest)
    else none
  | [] => none

/-- A date, a time, or both. -/
def scanDatetime (s : List Char) : Option (Json × List Char) :=
  (match scanDate s with
    | some (date, s) =>
      match scanTimeOfDate s with
      | some (time, s) => some (date ++ time, s)
      | none => some (date, s)
    | none => scanTime s).map fun (text, s) => (.date (String.ofList text), s)

/-- What begins with a digit or a sign. -/
def scanNumber (s : List Char) : Option (Json × List Char) :=
  (scanDatetime s).or ((scanDecimalReal s).or ((scanSpecial s).or (scanInt s)))

end Toml
end ModularHost
