import ModularHost.Path
/-!
# File trees

Files, below a working directory and below the root. A path is walked piece by piece, and every
piece but the last must name a directory; a slash at the end asks that the last one does, too.
Where the working directory lies is not known: steps that leave it upwards lead to directories of
their own, and absolute paths to places that no other path leads to.
-/

namespace ModularHost

/-- What a name in a directory stands for. A library holds a content of type `γ`. -/
inductive FileNode (γ : Type) where
  | directory
  | text (content : String)
  | library (content : γ)

/-- A directory that is always there. -/
inductive Anchor where
  | root
  /-- Some levels above the working directory; zero is the working directory itself. -/
  | above (levels : Nat)
deriving DecidableEq, Repr

/-- What lies above an anchor. The root lies above itself. -/
def Anchor.parent : Anchor → Anchor
  | .root => .root
  | .above levels => .above (levels + 1)

/-- A place in a tree: downwards by name from an anchor. -/
structure Location where
  anchor : Anchor
  names : List String
deriving DecidableEq, Repr

namespace Location

/-- The working directory. -/
def here : Location := ⟨.above 0, []⟩

/-- Where the pieces of a path are walked from. -/
def start (p : Path) : Location := if p.isAbsolute then ⟨.root, []⟩ else here

def parent (l : Location) : Location :=
  if l.names.isEmpty then ⟨l.anchor.parent, []⟩ else ⟨l.anchor, l.names.dropLast⟩

def child (l : Location) (name : String) : Location := ⟨l.anchor, l.names ++ [name]⟩

/-- Whether a place lies directly in a directory, and its name there. -/
def childName? (directory l : Location) : Option String :=
  match l.names.getLast? with
  | some name => if directory.child name = l then some name else none
  | none => none

end Location

/-- The places at which something stands. -/
structure FileTree (γ : Type) where
  entries : List (Location × FileNode γ)

namespace FileTree

variable {γ : Type}

def empty : FileTree γ := ⟨[]⟩

instance : Inhabited (FileTree γ) := ⟨empty⟩

/-- What stands at a place. The anchors are always there. -/
def get? (t : FileTree γ) (l : Location) : Option (FileNode γ) :=
  if l.names.isEmpty then some .directory
  else (t.entries.find? (·.1 = l)).map (·.2)

def isDirectory (t : FileTree γ) (l : Location) : Bool :=
  match t.get? l with
  | some .directory => true
  | _ => false

/-- The greatest number of bytes in a name, and in a path. -/
def longestName : Nat := 255
def longestPath : Nat := 4095

/-- Whether a path can be asked for at all. -/
def isNameable (p : Path) : Bool :=
  !p.text.isEmpty && !p.text.toList.contains '\x00' && p.text.utf8ByteSize ≤ longestPath
    && p.pieces.all fun piece => (String.ofList piece).utf8ByteSize ≤ longestName

/-- The place one piece leads to; a step down need not lead to anything that exists. -/
def step (l : Location) (piece : List Char) : Location :=
  if piece = [] ∨ piece = ['.'] then l
  else if piece = ['.', '.'] then l.parent
  else l.child (String.ofList piece)

/-- Walks along pieces. Whatever is left behind must be a directory, and what is reached exist. -/
def walk (t : FileTree γ) : Location → List (List Char) → Option Location
  | l, [] => some l
  | l, piece :: rest =>
    if t.isDirectory l && (t.get? (step l piece)).isSome then t.walk (step l piece) rest else none

/-- Where a path leads. -/
def locate (t : FileTree γ) (p : Path) : Option Location :=
  if isNameable p then t.walk (.start p) p.pieces else none

/-- What a path leads to. -/
def find? (t : FileTree γ) (p : Path) : Option (FileNode γ) :=
  (t.locate p).bind t.get?

def «exists» (t : FileTree γ) (p : Path) : Bool :=
  (t.find? p).isSome

/-- Whether a path leads to something other than a directory. -/
def isFile (t : FileTree γ) (p : Path) : Bool :=
  match t.find? p with
  | some .directory | none => false
  | some _ => true

/-- The names in a directory. -/
def children (t : FileTree γ) (l : Location) : List String :=
  t.entries.filterMap fun entry => l.childName? entry.1

/-! ## Changing the tree -/

/-- Puts something at a place. -/
def put (t : FileTree γ) (l : Location) (node : FileNode γ) : FileTree γ :=
  ⟨t.entries.filter (·.1 ≠ l) ++ [(l, node)]⟩

/-- Makes the directories that pieces lead through, where nothing stands yet. A step upwards does
not undo what was made on the way down. -/
def makeWay (t : FileTree γ) : Location → List (List Char) → FileTree γ
  | _, [] => t
  | l, piece :: rest =>
    let next := step l piece
    (if (t.get? next).isSome then t else t.put next .directory).makeWay next rest

/-- Makes the directories on the way to where a path points. -/
def makeParents (t : FileTree γ) (p : Path) : FileTree γ :=
  t.makeWay (.start p) p.pieces.dropLast

/-- The place a path points to, whether anything stands there or not. -/
def place (p : Path) : Location := p.pieces.foldl step (.start p)

/-- Puts something where a path points, and makes the directories on the way. -/
def plant (t : FileTree γ) (p : Path) (node : FileNode γ) : FileTree γ :=
  (t.makeParents p).put (place p) node

/-- Writes a text: into a file that is there, or as a new file in a directory that is there. -/
def write? (t : FileTree γ) (p : Path) (content : String) : Option (FileTree γ) :=
  if !isNameable p then none
  else
    match p.pieces.getLast? with
    | none => none
    | some name =>
      if name = [] ∨ name = ['.'] ∨ name = ['.', '.'] then none
      else
        (t.walk (.start p) p.pieces.dropLast).bind fun directory =>
          if !t.isDirectory directory then none
          else
            let l := directory.child (String.ofList name)
            if t.isDirectory l then none else some (t.put l (.text content))

end FileTree
end ModularHost
