import ModularHost.Json.Basic
import ModularHost.Number.Shortest
/-!
# Printing JSON

The compact text of a value: no blanks, strings with the short escapes where there is one and
`\u00xx` for the other control characters, and numbers in their shortest form.
-/

namespace ModularHost
namespace Json

/-- Numbers from `0.00001` to below `10 ^ 16` have the point at its place, and a positive exponent
carries its sign. -/
def numberStyle : Number.DecimalStyle := ⟨fun place => -4 ≤ place && place ≤ 16, true⟩

/-- A digit of a hexadecimal number, lower case. -/
def hexDigit (n : Nat) : Char :=
  if n < 10 then Char.ofNat (48 + n) else Char.ofNat (87 + n)

/-- One character as it stands in a string. -/
def escapeChar (c : Char) : List Char :=
  if c = '"' then ['\\', '"']
  else if c = '\\' then ['\\', '\\']
  else if c = '\x08' then ['\\', 'b']
  else if c = '\t' then ['\\', 't']
  else if c = '\n' then ['\\', 'n']
  else if c = '\x0c' then ['\\', 'f']
  else if c = '\r' then ['\\', 'r']
  else if c.toNat < 0x20 then
    ['\\', 'u', '0', '0', hexDigit (c.toNat / 16), hexDigit (c.toNat % 16)]
  else [c]

/-- A string between its quotes. -/
def printString (s : String) : List Char :=
  '"' :: s.toList.flatMap escapeChar ++ ['"']

/-- A whole number. -/
def printInt (n : Int) : List Char :=
  if n < 0 then '-' :: Nat.toDigits 10 n.natAbs else Nat.toDigits 10 n.natAbs

mutual

/-- The text of a value. -/
def print : Json → List Char
  | .null => ['n', 'u', 'l', 'l']
  | .bool true => ['t', 'r', 'u', 'e']
  | .bool false => ['f', 'a', 'l', 's', 'e']
  | .int n => printInt n
  | .real (.finite x) => x.write numberStyle
  | .real _ => ['n', 'u', 'l', 'l']
  | .str s => printString s
  | .arr [] => ['[', ']']
  | .arr (v :: rest) => '[' :: print v ++ printItems rest ++ [']']
  | .obj [] => ['{', '}']
  | .obj ((k, v) :: rest) => '{' :: printString k ++ ':' :: print v ++ printMembers rest ++ ['}']
  | .date text => '{' :: printString dateKey ++ ':' :: printString text ++ ['}']

/-- The elements after the first, each behind its comma. -/
def printItems : List Json → List Char
  | [] => []
  | v :: rest => ',' :: print v ++ printItems rest

/-- The members after the first, each behind its comma. -/
def printMembers : List (String × Json) → List Char
  | [] => []
  | (k, v) :: rest => ',' :: printString k ++ ':' :: print v ++ printMembers rest

end

/-- The text of a value as a string. -/
def text (v : Json) : String :=
  String.ofList v.print

end Json
end ModularHost
