/-!
# UUIDs

An identifier of 128 bits, kept as its 32 hexadecimal digits. It is written in lower case with
hyphens; it is read with or without hyphens, and with hyphens also in braces or behind `urn:uuid:`.
-/

namespace ModularHost

/-- A hexadecimal digit as it is written. -/
def hexCharOf (d : Fin 16) : Char :=
  if d.val < 10 then Char.ofNat (48 + d.val) else Char.ofNat (87 + d.val)

/-- The digit a character stands for, in either case. -/
def hexDigitOf? (c : Char) : Option (Fin 16) :=
  let n := c.toNat
  if h : 48 ≤ n ∧ n ≤ 57 then some ⟨n - 48, by omega⟩
  else if h : 97 ≤ n ∧ n ≤ 102 then some ⟨n - 87, by omega⟩
  else if h : 65 ≤ n ∧ n ≤ 70 then some ⟨n - 55, by omega⟩
  else none

/-- An identifier: 32 hexadecimal digits. -/
structure Uuid where
  digits : List (Fin 16)
  length_digits : digits.length = 32
deriving DecidableEq

namespace Uuid

/-- The identifier that stands for none. -/
def nil : Uuid := ⟨List.replicate 32 0, by decide⟩

instance : Inhabited Uuid := ⟨nil⟩

/-- The identifier of 32 digits, if there are 32. -/
def ofDigits? (ds : List (Fin 16)) : Option Uuid :=
  if h : ds.length = 32 then some ⟨ds, h⟩ else none

/-- The groups of digits between the hyphens. -/
def groups : List Nat := [8, 4, 4, 4, 12]

/-- Characters cut into groups, with a hyphen between one group and the next. -/
def hyphenate : List Nat → List Char → List Char
  | [], cs => cs
  | [_], cs => cs
  | n :: ns, cs => cs.take n ++ '-' :: hyphenate ns (cs.drop n)

/-- The reverse of `hyphenate`: none where a hyphen is missing. -/
def unhyphenate? : List Nat → List Char → Option (List Char)
  | [], cs => some cs
  | [_], cs => some cs
  | n :: ns, cs =>
    match cs.drop n with
    | '-' :: rest => (unhyphenate? ns rest).map (cs.take n ++ ·)
    | _ => none

/-- The identifier in lower case with hyphens. -/
def print (u : Uuid) : List Char :=
  hyphenate groups (u.digits.map hexCharOf)

def text (u : Uuid) : String :=
  String.ofList u.print

/-- Reads 32 digits. -/
def parsePlain? (cs : List Char) : Option Uuid :=
  (cs.mapM hexDigitOf?).bind ofDigits?

/-- Reads 32 digits with the four hyphens. -/
def parseHyphenated? (cs : List Char) : Option Uuid :=
  if cs.length = 36 then (unhyphenate? groups cs).bind parsePlain? else none

/-- The mark of an identifier written as a name. -/
def urnMark : List Char := ['u', 'r', 'n', ':', 'u', 'u', 'i', 'd', ':']

/-- Reads an identifier in any of its forms. -/
def parse? (cs : List Char) : Option Uuid :=
  if cs.length = 32 then parsePlain? cs
  else if cs.length = 36 then parseHyphenated? cs
  else if cs.length = 38 ∧ cs.head? = some '{' ∧ cs.getLast? = some '}' then
    parseHyphenated? (cs.drop 1).dropLast
  else if cs.length = 45 ∧ (cs.take 9).map Char.toLower = urnMark then
    parseHyphenated? (cs.drop 9)
  else none

end Uuid
end ModularHost
