import ModularHost.Json.Printer
import ModularHost.Toml.Scanner
/-!
# Printing TOML

A document as a list of sections, each a header with its keys and values, a blank line between one
section and the next. Containers are written on one line. A key without a value is left out: TOML
has no null.
-/

namespace ModularHost
namespace Toml

/-- One character between double quotes. -/
def escapeChar (c : Char) : List Char :=
  if c = '"' then ['\\', '"']
  else if c = '\\' then ['\\', '\\']
  else if c = '\x08' then ['\\', 'b']
  else if c = '\t' then ['\\', 't']
  else if c = '\n' then ['\\', 'n']
  else if c = '\x0c' then ['\\', 'f']
  else if c = '\r' then ['\\', 'r']
  else if isPlain c then [c]
  else ['\\', 'u', '0', '0', Json.hexDigit (c.toNat / 16), Json.hexDigit (c.toNat % 16)]

def printString (s : String) : List Char :=
  '"' :: s.toList.flatMap escapeChar ++ ['"']

/-- A key, without quotes where it can do without. -/
def printKey (key : String) : List Char :=
  if !key.isEmpty && key.toList.all isBare then key.toList else printString key

/-- Numbers have the point at its place, whatever their size. -/
def numberStyle : Number.DecimalStyle := ⟨fun _ => true, false⟩

/-- A number; infinity and what is no number have names. -/
def printReal : Number.Binary64 → List Char
  | .finite x => x.write numberStyle
  | .infinite false => ['i', 'n', 'f']
  | .infinite true => ['-', 'i', 'n', 'f']
  | .nan => ['n', 'a', 'n']

mutual

/-- A value on one line; nothing for null. -/
def printValue? : Json → Option (List Char)
  | .null => none
  | .bool b => some (if b then ['t', 'r', 'u', 'e'] else ['f', 'a', 'l', 's', 'e'])
  | .int n => some (Json.printInt n)
  | .real x => some (printReal x)
  | .str s => some (printString s)
  | .arr items => some (['['] ++ (", ".toList.intercalate (printItems items)) ++ [']'])
  | .obj members =>
    match printMembers members with
    | [] => some ['{', '}']
    | shown => some (['{', ' '] ++ (", ".toList.intercalate shown) ++ [' ', '}'])
  | .date text => some text.toList

/-- The elements that have a value. -/
def printItems : List Json → List (List Char)
  | [] => []
  | v :: rest => (printValue? v).toList ++ printItems rest

/-- The members that have a value, each behind its key. -/
def printMembers : List (String × Json) → List (List Char)
  | [] => []
  | (k, v) :: rest =>
    ((printValue? v).map fun shown => printKey k ++ [' ', '=', ' '] ++ shown).toList
      ++ printMembers rest

end

/-- A header, and the keys with their values below it. -/
structure Section where
  header : List String
  members : List (String × Json)

/-- A section, each line with its end. -/
def Section.print (s : Section) : List Char :=
  ['['] ++ ['.'].intercalate (s.header.map printKey) ++ [']', '\n']
    ++ (printMembers s.members).flatMap (· ++ ['\n'])

/-- A document. -/
def printDocument (sections : List Section) : String :=
  String.ofList (['\n'].intercalate (sections.map (·.print)))

end Toml
end ModularHost
