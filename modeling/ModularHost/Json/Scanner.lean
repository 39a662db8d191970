import ModularHost.Json.Numeral
/-!
# Scanning

The pieces a JSON text is made of, read off the front of a list of characters: blanks, literals,
strings, and the punctuation between elements and members. Each step answers with the characters
that are left. A string can be read or only skipped; skipped text is held to less.
-/

namespace ModularHost
namespace Json

/-- The four blanks between the pieces of a text. -/
def isSpace (c : Char) : Bool :=
  c == ' ' || c == '\n' || c == '\t' || c == '\r'

def skipSpaces (s : List Char) : List Char :=
  s.dropWhile isSpace

/-- The rest of a literal whose first character has been read. -/
def scanLiteral : (rest : List Char) → List Char → Except SyntaxError (List Char)
  | [], s => .ok s
  | _ :: _, [] => .error .eofValue
  | c :: cs, d :: s => if c = d then scanLiteral cs s else .error .expectedIdent

/-! ## Strings -/

/-- The value of a hexadecimal digit. -/
def hexValue? (c : Char) : Option Nat :=
  if '0' ≤ c ∧ c ≤ '9' then some (c.toNat - 48)
  else if 'a' ≤ c ∧ c ≤ 'f' then some (c.toNat - 87)
  else if 'A' ≤ c ∧ c ≤ 'F' then some (c.toNat - 55)
  else none

/-- The four digits of a hexadecimal escape. Fewer than four bytes are a string cut short. -/
def scanHex (s : List Char) : Except SyntaxError (Nat × List Char) :=
  match s with
  | a :: b :: c :: d :: rest =>
    match hexValue? a, hexValue? b, hexValue? c, hexValue? d with
    | some a, some b, some c, some d => .ok (((a * 16 + b) * 16 + c) * 16 + d, rest)
    | _, _, _, _ => .error .invalidEscape
  | _ => .error (if (String.ofList s).utf8ByteSize < 4 then .eofString else .invalidEscape)

/-- The second escape of a pair, which a first escape in the upper range must have behind it. -/
def scanPair (high : Nat) : List Char → Except SyntaxError (Char × List Char)
  | [] => .error .eofString
  | '\\' :: [] => .error .eofString
  | '\\' :: 'u' :: rest => do
    let (low, rest) ← scanHex rest
    if low < 0xDC00 ∨ 0xDFFF < low then .error .loneSurrogate
    else return (Char.ofNat ((high - 0xD800) * 0x400 + (low - 0xDC00) + 0x10000), rest)
  | _ => .error .unpairedEscape

/-- The character of a hexadecimal escape, whose backslash and letter have been read. -/
def scanCodePoint (s : List Char) : Except SyntaxError (Char × List Char) := do
  let (n, rest) ← scanHex s
  if 0xDC00 ≤ n ∧ n ≤ 0xDFFF then .error .loneSurrogate
  else if 0xD800 ≤ n ∧ n ≤ 0xDBFF then scanPair n rest
  else return (Char.ofNat n, rest)

/-- The character a short escape stands for. -/
def shortEscape? (c : Char) : Option Char :=
  if c = '"' then some '"'
  else if c = '\\' then some '\\'
  else if c = '/' then some '/'
  else if c = 'b' then some '\x08'
  else if c = 'f' then some '\x0c'
  else if c = 'n' then some '\n'
  else if c = 'r' then some '\r'
  else if c = 't' then some '\t'
  else none

/-- The character an escape stands for, whose backslash has been read. -/
def scanEscape : List Char → Except SyntaxError (Char × List Char)
  | [] => .error .eofString
  | c :: rest =>
    if c = 'u' then scanCodePoint rest
    else match shortEscape? c with
      | some d => .ok (d, rest)
      | none => .error .invalidEscape

/-- The characters of a string up to its closing quote; `fuel` bounds their number. -/
def scanCharacters : (fuel : Nat) → List Char → Except SyntaxError (List Char × List Char)
  | 0, _ => .error .eofString
  | _, [] => .error .eofString
  | fuel + 1, c :: rest =>
    if c = '"' then .ok ([], rest)
    else if c = '\\' then do
      let (d, rest) ← scanEscape rest
      let (ds, rest) ← scanCharacters fuel rest
      return (d :: ds, rest)
    else if c.toNat < 0x20 then .error .controlCharacter
    else do
      let (cs, rest) ← scanCharacters fuel rest
      return (c :: cs, rest)

/-- A string whose opening quote has been read. -/
def scanString (s : List Char) : Except SyntaxError (String × List Char) :=
  (scanCharacters (s.length + 1) s).map fun (cs, rest) => (String.ofList cs, rest)

/-- Skips an escape, whose backslash has been read. Any four hexadecimal digits will do. -/
def skipEscape : List Char → Except SyntaxError (List Char)
  | [] => .error .eofString
  | c :: rest =>
    if c = 'u' then (scanHex rest).map (·.2)
    else if (shortEscape? c).isSome then .ok rest
    else .error .invalidEscape

/-- Skips the characters of a string up to its closing quote. -/
def skipCharacters : (fuel : Nat) → List Char → Except SyntaxError (List Char)
  | 0, _ => .error .eofString
  | _, [] => .error .eofString
  | fuel + 1, c :: rest =>
    if c = '"' then .ok rest
    else if c = '\\' then do
      let rest ← skipEscape rest
      skipCharacters fuel rest
    else if c.toNat < 0x20 then .error .controlCharacter
    else skipCharacters fuel rest

/-- Skips a string whose opening quote has been read. -/
def skipString (s : List Char) : Except SyntaxError (List Char) :=
  skipCharacters (s.length + 1) s

/-! ## Between elements and members -/

/-- Either the container closes here, or one more element or member begins. -/
inductive Next where
  | close (rest : List Char)
  | more (rest : List Char)

/-- What comes next in a list; `first` before its first element. -/
def nextElement (first : Bool) (s : List Char) : Except SyntaxError Next :=
  match skipSpaces s with
  | [] => .error .eofList
  | ']' :: rest => .ok (.close rest)
  | c :: rest =>
    if first then .ok (.more (c :: rest))
    else if c = ',' then
      match skipSpaces rest with
      | [] => .error .eofValue
      | ']' :: _ => .error .trailingComma
      | d :: rest => .ok (.more (d :: rest))
    else .error .expectedListCommaOrEnd

/-- What comes next in an object; a member begins behind the opening quote of its key. -/
def nextMember (first : Bool) (s : List Char) : Except SyntaxError Next :=
  match skipSpaces s with
  | [] => .error .eofObject
  | '}' :: rest => .ok (.close rest)
  | c :: rest =>
    if first then if c = '"' then .ok (.more rest) else .error .keyMustBeString
    else if c = ',' then
      match skipSpaces rest with
      | [] => .error .eofValue
      | '}' :: _ => .error .trailingComma
      | '"' :: rest => .ok (.more rest)
      | _ :: _ => .error .keyMustBeString
    else .error .expectedObjectCommaOrEnd

/-- The end of a list whose reader wants no more elements. -/
def closeList (s : List Char) : Except SyntaxError (List Char) :=
  match skipSpaces s with
  | [] => .error .eofList
  | ']' :: rest => .ok rest
  | ',' :: rest =>
    match skipSpaces rest with
    | ']' :: _ => .error .trailingComma
    | _ => .error .trailingCharacters
  | _ => .error .trailingCharacters

/-- The colon between a key and its value. -/
def scanColon (s : List Char) : Except SyntaxError (List Char) :=
  match skipSpaces s with
  | [] => .error .eofObject
  | ':' :: rest => .ok rest
  | _ => .error .expectedColon

/-! ## The head of a value -/

/-- A value's first piece: all of a scalar, or the bracket that opens a container. -/
inductive Head where
  | scalar (value : Json)
  | openList
  | openObject

/-- Reads a value's head. -/
def scanHead (s : List Char) : Except SyntaxError (Head × List Char) :=
  match skipSpaces s with
  | [] => .error .eofValue
  | 'n' :: rest => (scanLiteral ['u', 'l', 'l'] rest).map (.scalar .null, ·)
  | 't' :: rest => (scanLiteral ['r', 'u', 'e'] rest).map (.scalar (.bool true), ·)
  | 'f' :: rest => (scanLiteral ['a', 'l', 's', 'e'] rest).map (.scalar (.bool false), ·)
  | '"' :: rest => (scanString rest).map fun (t, rest) => (.scalar (.str t), rest)
  | '[' :: rest => .ok (.openList, rest)
  | '{' :: rest => .ok (.openObject, rest)
  | '-' :: rest => number true rest
  | c :: rest => if c.isDigit then number false (c :: rest) else .error .expectedValue
where
  number (negative : Bool) (s : List Char) : Except SyntaxError (Head × List Char) := do
    let (numeral, rest) ← scanNumeral .eofValue negative s
    let value ← numeral.value
    return (.scalar value, rest)

/-- What a head shows of its value. -/
def Head.found : Head → Found
  | .scalar v => Json.found v
  | .openList => .list
  | .openObject => .map

end Json
end ModularHost
