import Docking.Files.Logs
import Docking.Store.Basic

/-! A store that keeps each text in a file of one folder. -/
namespace Docking

namespace WriteStep

def run (t : FileTree) : WriteStep → FileTree × Option FileFault
  | makeFolders folder => t.makeFolders folder
  | writeText path text =>
    match t.writeFile path (.text text) with
    | .ok written => (written, none)
    | .error fault => (t, some fault)
  | rename source target =>
    match t.rename source target with
    | .ok renamed => (renamed, none)
    | .error fault => (t, some fault)

def runAll (t : FileTree) : List WriteStep → FileTree × Option WriteStep
  | [] => (t, none)
  | step :: rest =>
    match step.run t with
    | (after, none) => runAll after rest
    | (after, some _) => (after, some step)

end WriteStep

structure FolderStore where
  folder : String
  tree : FileTree

namespace FolderStore

def inConfigFolder (e : Environment) (tree : FileTree) : Option FolderStore :=
  e.layoutFolder.map fun folder => ⟨folder, tree⟩

def keyStem (key : String) : String :=
  String.ofList <| key.toList.map fun c =>
    if c.isAlphanum || c = '.' || c = '-' || c = '_' then c else '_'

def fileName (key : String) : String := keyStem key ++ ".json"

/-- The file written before the real one: the same name with another ending. A name that is all
ending keeps it and gets the other one behind it. Behind a single point no ending can be put, for
two points name the folder above; a write under such a key fails. -/
def draftName (key : String) : String :=
  if (keyStem key).isEmpty then fileName key ++ ".json.tmp"
  else if keyStem key = "." then ".."
  else fileName key ++ ".tmp"

def path (s : FolderStore) (key : String) : String := Path.join s.folder (fileName key)

def draftPath (s : FolderStore) (key : String) : String := Path.join s.folder (draftName key)

def readResult (s : FolderStore) (key : String) : Except FileFault String :=
  s.tree.readText (s.path key)

def read (s : FolderStore) (key : String) : Option String :=
  match s.readResult key with
  | .ok text => some text
  | .error _ => none

def steps (s : FolderStore) (key value : String) : List WriteStep :=
  [.makeFolders s.folder, .writeText (s.draftPath key) value,
    .rename (s.draftPath key) (s.path key)]

def write (s : FolderStore) (key value : String) : FolderStore × Option StoreError :=
  let (tree, failed) := WriteStep.runAll s.tree (s.steps key value)
  ({ s with tree := tree }, failed.map .failed)

instance : Store FolderStore := ⟨read, write⟩

end FolderStore

end Docking
