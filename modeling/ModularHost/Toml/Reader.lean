import ModularHost.Toml.Numeral
import ModularHost.Toml.Document
/-!
# Reading TOML

A document is read line by line into the tree it means. Numbers that are not finite and dates have
their place in the tree, too; the order of keys is the order they came in, except that a table moves
to where its header stands.
-/

namespace ModularHost
namespace Toml

/-- How a value is read off the front of some characters. -/
abbrev ReadValue := List Char → Option (Json × List Char)

/-- The elements of a list whose bracket has been read. -/
def readElements (read : ReadValue) : (fuel : Nat) → List Char → Option (List Json × List Char)
  | 0, _ => none
  | fuel + 1, s => do
    let s ← skipFiller false s
    match s with
    | ']' :: rest => return ([], rest)
    | s =>
      let (v, s) ← read s
      let s ← skipFiller false s
      match s with
      | ',' :: rest => do
        let (vs, rest) ← readElements read fuel rest
        return (v :: vs, rest)
      | ']' :: rest => return ([v], rest)
      | _ => none

/-- A path of keys with its value; blanks may stand around the sign between them. -/
def readPair (read : ReadValue) (s : List Char) : Option ((List String × Json) × List Char) := do
  let (path, s) ← scanPath depthLimit s
  let s ← scanMark '=' s
  let (v, s) ← read (skipBlanks s)
  return ((path, v), s)

/-- The pairs of a table between braces, from the first pair on. -/
def readPairs (read : ReadValue) :
    (fuel : Nat) → List Char → Option (List (List String × Json) × List Char)
  | 0, _ => none
  | fuel + 1, s => do
    let (pair, s) ← readPair read s
    match skipBlanks s with
    | ',' :: rest => do
      let (pairs, rest) ← readPairs read fuel rest
      return (pair :: pairs, rest)
    | '}' :: rest => return ([pair], rest)
    | _ => none

/-- A value, with `depth` brackets still allowed. -/
def readValue : (depth : Nat) → ReadValue
  | depth, s =>
    match s with
    | '"' :: _ | '\'' :: _ => (scanString s).map fun (text, rest) => (.str text, rest)
    | '[' :: rest =>
      match depth with
      | 0 => none
      | depth + 1 =>
        (readElements (readValue depth) (rest.length + 1) rest).map fun (vs, rest) =>
          (.arr vs, rest)
    | '{' :: rest =>
      match depth with
      | 0 => none
      | depth + 1 =>
        match skipBlanks rest with
        | '}' :: rest => some (.obj [], rest)
        | rest => do
          let (pairs, rest) ← readPairs (readValue depth) (rest.length + 1) rest
          return (← inlineTable pairs, rest)
    | 't' :: 'r' :: 'u' :: 'e' :: rest => some (.bool true, rest)
    | 'f' :: 'a' :: 'l' :: 's' :: 'e' :: rest => some (.bool false, rest)
    | s => scanNumber s

/-- A header, between one pair of brackets or two. -/
def readHeader (d : Draft) : List Char → Option (Draft × List Char)
  | '[' :: '[' :: rest => do
    let (path, rest) ← scanPath depthLimit rest
    let rest ← scanMark ']' rest
    let rest ← scanMark ']' rest
    return (← d.openElement path, rest)
  | '[' :: rest => do
    let (path, rest) ← scanPath depthLimit rest
    let rest ← scanMark ']' rest
    return (← d.openTable path, rest)
  | _ => none

/-- One line: a header, a pair, or neither. -/
def readLine (d : Draft) (s : List Char) : Option (Draft × List Char) :=
  match skipBlanks s with
  | [] | '#' :: _ | '\n' :: _ | '\r' :: _ => (scanLineEnd s).map (d, ·)
  | '[' :: rest => do
    let (d, s) ← readHeader d ('[' :: rest)
    return (d, ← scanLineEnd s)
  | s => do
    let ((path, v), s) ← readPair (readValue depthLimit) s
    return (← d.add path v, ← scanLineEnd s)

/-- The lines of a document; there are at most as many as characters. -/
def readLines : (fuel : Nat) → Draft → List Char → Option Draft
  | _, d, [] => some d
  | 0, _, _ => none
  | fuel + 1, d, s => do
    let (d, s) ← readLine d s
    readLines fuel d s

/-- The tree of a document, which may begin with a byte order mark. -/
def parse (text : String) : Option Json := do
  let s := match text.toList with
    | '\uFEFF' :: rest => rest
    | s => s
  let d ← readLines (s.length + 1) .empty s
  let root ← d.finish
  return .obj (Entries.toMembers root)

end Toml
end ModularHost
