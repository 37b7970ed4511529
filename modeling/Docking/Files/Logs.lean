import Docking.Files.Tree

/-! Where the application keeps its files, and the folder for those of its logs. -/
namespace Docking

structure Environment where
  xdgConfigHome : Option String
  home : Option String

namespace Environment

/-- Configured folders come first, then the usual place in the home folder. A home that is empty is
no home. -/
def configFolder (e : Environment) : Option String :=
  let base := e.xdgConfigHome <|>
    (e.home.filter fun home => !home.isEmpty).map fun home => Path.join home ".config"
  base.map fun base => Path.join base "panel-dock"

def catalogueFile (e : Environment) : Option String :=
  e.configFolder.map fun folder => Path.join folder "panels.yaml"

def layoutFolder (e : Environment) : Option String :=
  e.configFolder.map fun folder => Path.join folder "layout"

def logsFolder (e : Environment) : Option String :=
  e.configFolder.map fun folder => Path.join folder "logs"

end Environment

inductive LogsError where
  | noConfigFolder
  | notMade (folder : String)
  deriving DecidableEq, Repr

def LogsError.message : LogsError → String
  | noConfigFolder => "No config directory available"
  | notMade folder => "Failed to create directory " ++ folder

/-- Makes the folder with those above it. Folders made before a failure stay. -/
def FileTree.ensureLogs (t : FileTree) (e : Environment) : FileTree × Except LogsError String :=
  match e.logsFolder with
  | none => (t, .error .noConfigFolder)
  | some folder =>
    match t.makeFolders folder with
    | (t, none) => (t, .ok folder)
    | (t, some _) => (t, .error (.notMade folder))

def FileTree.startsLog (t : FileTree) (e : Environment) : Bool := (t.ensureLogs e).2.toBool

end Docking
