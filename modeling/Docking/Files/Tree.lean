import Docking.Text

/-! Path texts, a tree of folders and files, and the operations programs use on it. -/
namespace Docking

namespace Path

/-- A right side that starts at the root stands alone. -/
def join (base name : String) : String :=
  if name.toList.head? = some '/' then name
  else if base.toList.getLast?.all fun c => c = '/' then base ++ name
  else base ++ "/" ++ name

/-- The parts between separators, empty ones included. -/
def pieces : List Char → List (List Char)
  | [] => [[]]
  | c :: rest =>
    if c = '/' then [] :: pieces rest
    else
      match pieces rest with
      | [] => [[c]]
      | piece :: more => (c :: piece) :: more

/-- A point names the folder itself, and only the last one says anything: what stands before it is a
folder. -/
def dropInnerPoints : List (List Char) → List (List Char)
  | [] => []
  | [last] => [last]
  | piece :: rest => if piece = ['.'] then dropInnerPoints rest else piece :: dropInnerPoints rest

/-- The names a path goes through. Repeated separators add nothing. -/
def names (path : String) : List String :=
  (dropInnerPoints ((pieces path.toList).filter fun piece => piece ≠ [])).map String.ofList

end Path

inductive Contents where
  | text (value : String)
  | bytes (value : List UInt8)
  deriving DecidableEq, Repr

namespace Contents

def ofBytes (bytes : List UInt8) : Contents :=
  match Utf8.decode? bytes with
  | some value => text value
  | none => .bytes bytes

def shown : Contents → String
  | text value => value
  | bytes value => Utf8.decode value

end Contents

inductive FileEntry where
  | folder
  | file (contents : Contents)
  deriving DecidableEq, Repr

inductive FileFault where
  | notFound
  | notFolder
  | isFolder
  | tooLong
  /-- No path has a NUL in it. -/
  | notAPath
  | notText
  deriving DecidableEq, Repr

/-- Where an entry is: the names that lead there from the root, the last one first, and how many
there are. -/
structure Place where
  depth : Nat
  names : List String
  deriving DecidableEq, Repr

namespace Place

def nameLimit : Nat := 255

def root : Place := ⟨0, []⟩

def child (p : Place) (name : String) : Place := ⟨p.depth + 1, name :: p.names⟩

/-- The folder around. The root is around itself. -/
def parent (p : Place) : Place := ⟨p.depth - 1, p.names.tail⟩

/-- Where a name leads from a folder: a point stays, two points lead back. -/
def follow (p : Place) (name : String) : Except FileFault Place :=
  if name = "." then .ok p
  else if name = ".." then .ok p.parent
  else if nameLimit < name.utf8ByteSize then .error .tooLong
  else .ok (p.child name)

def namesFrom? (folder p : Place) : Option (List String) :=
  let below := p.depth - folder.depth
  if folder.depth < p.depth && p.names.drop below = folder.names then
    some (p.names.take below).reverse
  else none

end Place

/-- Entries by their places. The root is always there. -/
structure FileTree where
  entries : List (Place × FileEntry)
  deriving DecidableEq, Repr

namespace FileTree

def empty : FileTree := ⟨[]⟩

def pathLimit : Nat := 4095

def entry? (t : FileTree) (p : Place) : Option FileEntry :=
  if p = .root then some .folder else (t.entries.find? fun e => e.1 = p).map Prod.snd

def put (t : FileTree) (p : Place) (entry : FileEntry) : FileTree :=
  ⟨(p, entry) :: t.entries.filter fun e => e.1 ≠ p⟩

def remove (t : FileTree) (p : Place) : FileTree := ⟨t.entries.filter fun e => e.1 ≠ p⟩

/-- The names of a path that can be one. -/
def namesOf (path : String) : Except FileFault (List String) :=
  if path.toList.contains '\x00' then .error .notAPath
  else if pathLimit < path.utf8ByteSize then .error .tooLong
  else .ok (Path.names path)

def walk (t : FileTree) (p : Place) : List String → Except FileFault Place
  | [] => .ok p
  | name :: rest =>
    match p.follow name with
    | .error fault => .error fault
    | .ok next =>
      match t.entry? next with
      | none => .error .notFound
      | some (.file _) => .error .notFolder
      | some .folder => t.walk next rest

/-- The place a path names, whether or not something is there. Only the last name may be free. -/
def locate (t : FileTree) (path : String) : Except FileFault Place := do
  let names ← namesOf path
  let folder ← t.walk .root names.dropLast
  match names.getLast? with
  | none => return folder
  | some name => folder.follow name

def find (t : FileTree) (path : String) : Except FileFault FileEntry := do
  match t.entry? (← t.locate path) with
  | none => throw .notFound
  | some entry => return entry

def contains (t : FileTree) (path : String) : Bool := (t.find path).toBool

def readText (t : FileTree) (path : String) : Except FileFault String := do
  match ← t.find path with
  | .folder => throw .isFolder
  | .file (.bytes _) => throw .notText
  | .file (.text value) => return value

/-- Follows names from a folder and makes the missing ones folders, but not one that a last point
claims to be there. -/
def extend (t : FileTree) (p : Place) : List String → FileTree × Option FileFault
  | [] => (t, none)
  | name :: rest =>
    match p.follow name with
    | .error fault => (t, some fault)
    | .ok next =>
      match t.entry? next with
      | some .folder => t.extend next rest
      | some (.file _) => (t, some .notFolder)
      | none => if rest = ["."] then (t, some .notFound) else (t.put next .folder).extend next rest

/-- Makes a folder with the missing ones above it. Folders made before a failure stay. -/
def makeFolders (t : FileTree) (path : String) : FileTree × Option FileFault :=
  match namesOf path with
  | .error fault => (t, some fault)
  | .ok names => t.extend .root names

def writeFile (t : FileTree) (path : String) (contents : Contents) :
    Except FileFault FileTree := do
  let p ← t.locate path
  if t.entry? p = some .folder then throw .isFolder
  return t.put p (.file contents)

def rename (t : FileTree) (source target : String) : Except FileFault FileTree := do
  let origin ← t.locate source
  let goal ← t.locate target
  match t.entry? origin with
  | none => throw .notFound
  | some .folder => throw .isFolder
  | some (.file contents) =>
    if t.entry? goal = some .folder then throw .isFolder
    return (t.remove origin).put goal (.file contents)

/-- What lies below a folder, with the path from there. Folders end in a separator, and the order
is that of the characters. -/
def listing (t : FileTree) (folder : Place) : List (String × Option Contents) :=
  let below := t.entries.filterMap fun (p, entry) =>
    (folder.namesFrom? p).map fun names =>
      let path := String.intercalate "/" names
      match entry with
      | .folder => (path ++ "/", none)
      | .file contents => (path, some contents)
  below.mergeSort fun a b => a.1 ≤ b.1

end FileTree

end Docking
