/-!
# Paths

A path is a text whose parts are separated by slashes. Repeated slashes, and parts that are a
single dot after the first, name nothing of their own; the last part that names something is the
file name, and its last dot ends the stem and begins the extension. Paths are ordered part by part.
-/

namespace ModularHost

/-- A path as it was written. -/
structure Path where
  text : String
deriving DecidableEq, Repr, Inhabited

namespace Path

/-- What stands between the slashes of a text, in order; always at least one piece. -/
def splitSlashes : List Char → List (List Char)
  | [] => [[]]
  | c :: cs =>
    if c = '/' then [] :: splitSlashes cs
    else match splitSlashes cs with
      | [] => [[c]]
      | piece :: pieces => (c :: piece) :: pieces

/-- A part of a path. -/
inductive Part where
  | root
  | here
  | parent
  | named (name : List Char)
deriving DecidableEq, Repr

/-- The part a piece stands for, if it stands for one. -/
def Part.ofPiece? (piece : List Char) : Option Part :=
  if piece = [] ∨ piece = ['.'] then none
  else if piece = ['.', '.'] then some .parent
  else some (.named piece)

/-- What stands between the slashes. -/
def pieces (p : Path) : List (List Char) :=
  splitSlashes p.text.toList

def isAbsolute (p : Path) : Bool :=
  p.text.toList.head? == some '/'

/-- The parts of a path. A dot counts only as the first part, a leading slash as the root. -/
def parts (p : Path) : List Part :=
  let first : List Part :=
    if p.isAbsolute then [.root] else if p.pieces.head? = some ['.'] then [.here] else []
  first ++ p.pieces.filterMap Part.ofPiece?

/-- The name the last part gives, if it gives one. -/
def fileName? (p : Path) : Option (List Char) :=
  match p.parts.getLast? with
  | some (.named name) => some name
  | _ => none

/-- What stands before and after the last dot. -/
def splitLastDot : List Char → Option (List Char × List Char)
  | [] => none
  | c :: cs =>
    match splitLastDot cs with
    | some (before, after) => some (c :: before, after)
    | none => if c = '.' then some ([], cs) else none

/-- A file name's stem and extension. A name whose only dot is its first character has no
extension. -/
def splitName (name : List Char) : List Char × Option (List Char) :=
  match splitLastDot name with
  | none | some ([], _) => (name, none)
  | some (before, after) => (before, some after)

/-- The file name without its extension. -/
def stem? (p : Path) : Option String :=
  p.fileName?.map fun name => String.ofList (splitName name).1

/-- What follows the last dot of the file name. -/
def extension? (p : Path) : Option String :=
  p.fileName?.bind fun name => (splitName name).2.map String.ofList

/-- The path of `name` inside a directory; a `name` that is itself absolute stands alone. -/
def join (directory : Path) (name : String) : Path :=
  if name.toList.head? = some '/' then ⟨name⟩
  else match directory.text.toList.getLast? with
    | none | some '/' => ⟨directory.text ++ name⟩
    | some _ => ⟨directory.text ++ "/" ++ name⟩

/-- The order of parts: the root, the dot, the parent, then names by their characters. -/
def Part.le : Part → Part → Bool
  | .root, _ => true
  | .here, p => p != .root
  | .parent, p => p != .root && p != .here
  | .named a, .named b => !decide (b < a)
  | .named _, _ => false

/-- Lists of parts in dictionary order. -/
def partsLe : List Part → List Part → Bool
  | [], _ => true
  | _ :: _, [] => false
  | a :: as, b :: bs => if a = b then partsLe as bs else a.le b

/-- Paths in the order of their parts. -/
def le (p q : Path) : Bool :=
  partsLe p.parts q.parts

end Path
end ModularHost
