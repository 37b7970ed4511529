import Docking.Manager
import Docking.Store.Folder
import Docking.Trace.Layout

/-! The events of stores and of a manager's operations, from the store or the manager before them.
Memory is silent; a folder tells of texts it saved and of files it could not read, but not of files
that are not there. -/
namespace Docking

class TracedStore (σ : Type) extends Store σ where
  readEvents : σ → String → List Event
  writeEvents : σ → String → String → List Event

instance : TracedStore MemoryStore where
  readEvents _ _ := []
  writeEvents _ _ _ := []

namespace FolderStore

def readEvents (s : FolderStore) (key : String) : List Event :=
  match s.readResult key with
  | .ok _ | .error .notFound => []
  | .error _ => [.layoutUnreadable (s.path key)]

def writeEvents (s : FolderStore) (key value : String) : List Event :=
  match s.write key value with
  | (_, none) => [.layoutSaved (s.path key)]
  | (_, some _) => []

instance : TracedStore FolderStore := ⟨readEvents, writeEvents⟩

end FolderStore

instance {σ : Type} [TracedStore σ] : TracedStore (MeteredStore σ) where
  readEvents s key := TracedStore.readEvents s.inner key
  writeEvents s key value :=
    if s.refusing s.attempts then [] else TracedStore.writeEvents s.inner key value

namespace Manager

variable {σ : Type} [TracedStore σ]

def startEvents (c : Catalogue) (store : σ) : List Event :=
  TracedStore.readEvents store storageKey ++
    match Store.read store storageKey with
    | some text => .layoutRestored :: Layout.restoreEvents c text
    | none => []

def saveEvents (m : Manager σ) : List Event :=
  TracedStore.writeEvents m.store storageKey m.layout.storedText

def executeEvents (m : Manager σ) : Option Command → List Event
  | some .save => m.saveEvents ++ if m.save.2.isSome then [.saveFailed] else []
  | some (.report rejection) => [.moveReported rejection]
  | none => []

def dispatchEvents (m : Manager σ) (message : Message) : List Event :=
  let (layout, command) := m.layout.handle message
  m.layout.handleEvents message ++ ({ m with layout := layout } : Manager σ).executeEvents command

def moveNamedEvents (m : Manager σ) (name : String) (slot : Slot) (options : MoveOptions) :
    List Event :=
  match PanelId.ofName? name with
  | some id => m.dispatchEvents (.move id slot options)
  | none => []

end Manager

end Docking
