import ModularHost.Json.Scanner
/-!
# Reading JSON

Reading a text as a free-form value, and skipping a value nobody asked for. Reading allows
`depthLimit` brackets to be open at once; skipping sets no limit, does not look at the size of
numbers, and takes any hexadecimal escape.
-/

namespace ModularHost
namespace Json

/-- How many brackets may be open at once. -/
def depthLimit : Nat := 127

/-- An error of the characters as a fault of the document. -/
def lift {α : Type} (r : Except SyntaxError α) : Except Fault α :=
  r.mapError .malformed

/-- The elements of a list whose bracket has been read; `fuel` bounds their number. -/
def readElements {α : Type} (element : List Char → Except Fault (α × List Char)) :
    (fuel : Nat) → (first : Bool) → List Char → Except Fault (List α × List Char)
  | 0, _, _ => .error (.malformed .eofList)
  | fuel + 1, first, s => do
    match ← lift (nextElement first s) with
    | .close rest => return ([], rest)
    | .more rest =>
      let (v, rest) ← element rest
      let (vs, rest) ← readElements element fuel false rest
      return (v :: vs, rest)

/-- The members of an object whose bracket has been read, folded into a state by `member`, which
gets the key and the characters after it. -/
def readMembers {σ : Type} (member : σ → String → List Char → Except Fault (σ × List Char)) :
    (fuel : Nat) → (first : Bool) → σ → List Char → Except Fault (σ × List Char)
  | 0, _, _, _ => .error (.malformed .eofObject)
  | fuel + 1, first, state, s => do
    match ← lift (nextMember first s) with
    | .close rest => return (state, rest)
    | .more rest =>
      let (key, rest) ← lift (scanString rest)
      let (state, rest) ← member state key rest
      readMembers member fuel false state rest

/-- One member of a free-form object, put before those already read. -/
def readMember {α : Type} (value : List Char → Except Fault (α × List Char))
    (before : List (String × α)) (key : String) (s : List Char) :
    Except Fault (List (String × α) × List Char) := do
  let s ← lift (scanColon s)
  let (v, s) ← value s
  return ((key, v) :: before, s)

/-- Reads a value with `depth` more brackets allowed. Members stay in the order of the text, and
repeated keys stay too. -/
def readTree : (depth : Nat) → List Char → Except Fault (Json × List Char)
  | 0, s => do
    let (head, rest) ← lift (scanHead s)
    match head with
    | .scalar v => return (v, rest)
    | .openList | .openObject => .error (.malformed .recursionLimit)
  | depth + 1, s => do
    let (head, rest) ← lift (scanHead s)
    match head with
    | .scalar v => return (v, rest)
    | .openList =>
      let (vs, rest) ← readElements (readTree depth) (rest.length + 1) true rest
      return (.arr vs, rest)
    | .openObject =>
      let (ms, rest) ← readMembers (readMember (readTree depth)) (rest.length + 1) true [] rest
      return (.obj ms.reverse, rest)

/-- Nothing but blanks may follow a document. -/
def endDocument (s : List Char) : Except Fault Unit :=
  match skipSpaces s with
  | [] => .ok ()
  | _ :: _ => .error (.malformed .trailingCharacters)

/-- The value a whole text means. -/
def parse (s : String) : Except Fault Json := do
  let (v, rest) ← readTree depthLimit s.toList
  endDocument rest
  return v.normal

/-! ## Skipping -/

mutual

/-- Skips a value. -/
def skipValue : (fuel : Nat) → List Char → Except SyntaxError (List Char)
  | 0, _ => .error .eofValue
  | fuel + 1, s =>
    match skipSpaces s with
    | [] => .error .eofValue
    | 'n' :: rest => scanLiteral ['u', 'l', 'l'] rest
    | 't' :: rest => scanLiteral ['r', 'u', 'e'] rest
    | 'f' :: rest => scanLiteral ['a', 'l', 's', 'e'] rest
    | '"' :: rest => skipString rest
    | '[' :: rest =>
      match skipSpaces rest with
      | [] => .error .eofList
      | ']' :: rest => .ok rest
      | c :: rest => skipElements fuel (c :: rest)
    | '{' :: rest =>
      match skipSpaces rest with
      | [] => .error .eofObject
      | '}' :: rest => .ok rest
      | c :: rest => skipMembers fuel (c :: rest)
    | '-' :: rest => (scanNumeral .invalidNumber true rest).map (·.2)
    | c :: rest =>
      if c.isDigit then (scanNumeral .invalidNumber false (c :: rest)).map (·.2)
      else .error .expectedValue

/-- Skips the elements of a list up to its end. -/
def skipElements : (fuel : Nat) → List Char → Except SyntaxError (List Char)
  | 0, _ => .error .eofList
  | fuel + 1, s => do
    let s ← skipValue fuel s
    match skipSpaces s with
    | [] => .error .eofList
    | ']' :: rest => return rest
    | ',' :: rest => skipElements fuel rest
    | _ => .error .expectedListCommaOrEnd

/-- Skips the members of an object up to its end. -/
def skipMembers : (fuel : Nat) → List Char → Except SyntaxError (List Char)
  | 0, _ => .error .eofObject
  | fuel + 1, s =>
    match skipSpaces s with
    | [] => .error .eofObject
    | '"' :: rest => do
      let s ← skipString rest
      let s ← scanColon s
      let s ← skipValue fuel s
      match skipSpaces s with
      | [] => .error .eofObject
      | '}' :: rest => return rest
      | ',' :: rest => skipMembers fuel rest
      | _ => .error .expectedObjectCommaOrEnd
    | _ => .error .keyMustBeString

end

/-- Skips the value in front. Two steps for each character are enough. -/
def skip (s : List Char) : Except Fault (List Char) :=
  lift (skipValue (2 * s.length + 2) s)

end Json
end ModularHost
