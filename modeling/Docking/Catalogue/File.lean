import Docking.Catalogue.Override
import Docking.Files.Logs
import Docking.Trace.Event
import Docking.Yaml.Decode

/-! Catalogues from the user's configuration file. -/
namespace Docking

open Yaml (Node Decode)
open Yaml.Decode

def PanelOverride.decode (n : Node) : Decode PanelOverride := do
  let fields ← fields n
  let some id ← field? "id" text fields | failure
  return {
    id := id
    home := ← optionalField "default_slot" text fields
    shown := ← optionalField "default_visible" bool fields
    size := ← optionalField "size" pixels fields
    lower := ← optionalField "min_size" pixels fields
    upper := ← optionalField "max_size" pixels fields
    allowed := ← optionalField "allowed_slots" (list text) fields
    preferred := ← optionalField "preferred_slot" text fields
    modal := ← optionalField "can_be_modal" bool fields
    priority := ← optionalField "priority" int32 fields }

namespace Catalogue

def decodeOverrides (n : Node) : Decode (List PanelOverride) := do
  return (← field? "panels" (list PanelOverride.decode) (← fields n)).getD []

def ofText (text : String) : Except CatalogueError Catalogue :=
  match Yaml.decode? [] decodeOverrides text with
  | some overrides => builtin.override overrides
  | none => .error .malformed

def ofFile (tree : FileTree) (path : String) : Except CatalogueError Catalogue :=
  match tree.readText path with
  | .ok text => ofText text
  | .error _ => .error .unreadable

/-- The user's catalogue; the built-in one if there is none or it cannot be used. -/
def load (e : Environment) (tree : FileTree) : Catalogue :=
  match e.catalogueFile with
  | none => builtin
  | some path => (ofFile tree path).toOption.getD builtin

def loadEvents (e : Environment) (tree : FileTree) : List Event :=
  match e.catalogueFile with
  | none => [.configFolderMissing]
  | some path =>
    if tree.contains path then
      match ofFile tree path with
      | .ok _ => [.catalogueLoaded path]
      | .error _ => [.catalogueRefused path]
    else [.catalogueMissing path]

end Catalogue

end Docking
