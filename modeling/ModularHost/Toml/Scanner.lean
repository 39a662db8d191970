import ModularHost.Json.Basic
/-!
# Scanning TOML

The pieces a TOML document is made of, read off the front of a list of characters: blanks, comments,
line ends, strings and keys. Each step answers what it read and the characters that are left, or
nothing when the document is malformed.
-/

namespace ModularHost
namespace Toml

/-- A blank within a line. -/
def isBlank (c : Char) : Bool := c == ' ' || c == '\t'

def skipBlanks (s : List Char) : List Char := s.dropWhile isBlank

/-- A character that may stand in comments and strings as it is: no control character but the
tab. -/
def isPlain (c : Char) : Bool := c == '\t' || (0x20 ≤ c.toNat && c.toNat != 0x7F)

/-- The end of a line: a line feed, also behind a carriage return. -/
def scanNewline : List Char → Option (List Char)
  | '\n' :: rest => some rest
  | '\r' :: '\n' :: rest => some rest
  | _ => none

/-- What may follow on a line that is complete: blanks and a comment, up to the end of the line or
of the document. -/
def scanLineEnd (s : List Char) : Option (List Char) :=
  let s := match skipBlanks s with
    | '#' :: rest => rest.dropWhile isPlain
    | s => s
  match s with
  | [] => some []
  | s => scanNewline s

/-- Skips blanks, line ends and comments; a comment has to end with its line. -/
def skipFiller : (inComment : Bool) → List Char → Option (List Char)
  | true, [] => none
  | false, [] => some []
  | _, '\n' :: rest => skipFiller false rest
  | _, '\r' :: '\n' :: rest => skipFiller false rest
  | true, c :: rest => if isPlain c then skipFiller true rest else none
  | false, c :: rest =>
    if isBlank c then skipFiller false rest
    else if c = '#' then skipFiller true rest
    else some (c :: rest)

/-! ## Strings -/

/-- The value of a hexadecimal digit, in either case. -/
def hexValue? (c : Char) : Option Nat :=
  if '0' ≤ c ∧ c ≤ '9' then some (c.toNat - 48)
  else if 'a' ≤ c ∧ c ≤ 'f' then some (c.toNat - 87)
  else if 'A' ≤ c ∧ c ≤ 'F' then some (c.toNat - 55)
  else none

/-- The character of an escape with a number of hexadecimal digits. -/
def scanCodePoint (digits : Nat) (s : List Char) : Option (Char × List Char) := do
  let values ← (s.take digits).mapM hexValue?
  if values.length = digits then
    let n := values.foldl (fun n d => 16 * n + d) 0
    if n.isValidChar then some (Char.ofNat n, s.drop digits) else none
  else none

/-- The character an escape stands for, whose backslash has been read. -/
def scanEscape : List Char → Option (Char × List Char)
  | 'b' :: rest => some ('\x08', rest)
  | 't' :: rest => some ('\t', rest)
  | 'n' :: rest => some ('\n', rest)
  | 'f' :: rest => some ('\x0c', rest)
  | 'r' :: rest => some ('\r', rest)
  | '"' :: rest => some ('"', rest)
  | '\\' :: rest => some ('\\', rest)
  | 'u' :: rest => scanCodePoint 4 rest
  | 'U' :: rest => scanCodePoint 8 rest
  | _ => none

/-- The characters of a string with escapes, up to its closing quote; `fuel` bounds their number. -/
def scanBasic : (fuel : Nat) → List Char → Option (List Char × List Char)
  | 0, _ | _, [] => none
  | fuel + 1, c :: rest =>
    if c = '"' then some ([], rest)
    else if c = '\\' then do
      let (d, rest) ← scanEscape rest
      let (ds, rest) ← scanBasic fuel rest
      return (d :: ds, rest)
    else if isPlain c then do
      let (cs, rest) ← scanBasic fuel rest
      return (c :: cs, rest)
    else none

/-- The characters of a string without escapes, up to its closing quote. -/
def scanLiteral : List Char → Option (List Char × List Char)
  | [] => none
  | c :: rest =>
    if c = '\'' then some ([], rest)
    else if isPlain c then (scanLiteral rest).map fun (cs, rest) => (c :: cs, rest)
    else none

/-- Skips blanks and line ends. -/
def skipBlankLines : List Char → List Char
  | '\r' :: '\n' :: rest => skipBlankLines rest
  | c :: rest => if isBlank c || c == '\n' then skipBlankLines rest else c :: rest
  | [] => []

/-- A line end hidden behind a backslash, which has been read: it goes, and all blanks and line ends
behind it. -/
def scanHiddenLineEnd (s : List Char) : Option (List Char) :=
  (scanNewline (skipBlanks s)).map skipBlankLines

/-- The characters of a string over several lines, between triple quotes. At most two quotes stand
side by side inside it, and up to two may stand before the closing ones. -/
def scanLines (quote : Char) (escapes : Bool) :
    (fuel : Nat) → List Char → Option (List Char × List Char)
  | 0, _ | _, [] => none
  | fuel + 1, c :: rest =>
    if c = quote then
      let quotes := ((c :: rest).takeWhile (· == quote)).length
      if quotes < 3 then do
        let (cs, rest) ← scanLines quote escapes fuel rest
        return (c :: cs, rest)
      else
        let inside := min (quotes - 3) 2
        some (List.replicate inside quote, (c :: rest).drop (inside + 3))
    else if escapes && c == '\\' then
      match scanHiddenLineEnd rest with
      | some rest => scanLines quote escapes fuel rest
      | none => do
        let (d, rest) ← scanEscape rest
        let (ds, rest) ← scanLines quote escapes fuel rest
        return (d :: ds, rest)
    else if isPlain c then do
      let (cs, rest) ← scanLines quote escapes fuel rest
      return (c :: cs, rest)
    else do
      let rest ← scanNewline (c :: rest)
      let (cs, rest) ← scanLines quote escapes fuel rest
      return ('\n' :: cs, rest)

/-- A string in any of its four forms. A line end right behind triple quotes is not part of it. -/
def scanString (s : List Char) : Option (String × List Char) :=
  (match s with
    | '"' :: '"' :: '"' :: rest =>
      scanLines '"' true (rest.length + 1) ((scanNewline rest).getD rest)
    | '\'' :: '\'' :: '\'' :: rest =>
      scanLines '\'' false (rest.length + 1) ((scanNewline rest).getD rest)
    | '"' :: rest => scanBasic (rest.length + 1) rest
    | '\'' :: rest => scanLiteral rest
    | _ => none).map fun (cs, rest) => (String.ofList cs, rest)

/-! ## Keys -/

/-- A character of a key without quotes. -/
def isBare (c : Char) : Bool := c.isAlphanum || c == '_' || c == '-'

/-- One key: quoted on one line, or bare. -/
def scanSimpleKey : List Char → Option (String × List Char)
  | '"' :: rest => (scanBasic (rest.length + 1) rest).map fun (cs, rest) => (String.ofList cs, rest)
  | '\'' :: rest => (scanLiteral rest).map fun (cs, rest) => (String.ofList cs, rest)
  | s =>
    match s.takeWhile isBare with
    | [] => none
    | cs => some (String.ofList cs, s.dropWhile isBare)

/-- The greatest number of keys in a path, and of brackets around a value. -/
def depthLimit : Nat := 79

/-- Keys with dots between them, blanks around each; `room` is how many there may still be. -/
def scanPath : (room : Nat) → List Char → Option (List String × List Char)
  | 0, _ => none
  | room + 1, s => do
    let (key, s) ← scanSimpleKey (skipBlanks s)
    match skipBlanks s with
    | '.' :: rest => do
      let (keys, rest) ← scanPath room rest
      return (key :: keys, rest)
    | s => return ([key], s)

end Toml
end ModularHost
