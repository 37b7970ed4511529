import Docking.Message
import Docking.Store.Basic
import Docking.Stored

/-! The live layout together with the store it is kept in. It restores the stored layout at the
start, sends every change through the messages, and saves after each change. -/
namespace Docking

structure Manager (σ : Type) where
  layout : Layout
  store : σ

namespace Manager

variable {σ : Type} [Store σ]

/-- The stored layout, or the layout of the catalogue if nothing is stored. -/
def start (c : Catalogue) (store : σ) : Manager σ where
  layout :=
    match Store.read store storageKey with
    | some text => .restore c text
    | none => .ofCatalogue c
  store := store

def save (m : Manager σ) : Manager σ × Option StoreError :=
  let (store, error) := Store.write m.store storageKey m.layout.storedText
  ({ m with store := store }, error)

/-- A failed save changes nothing but the store. -/
def execute (m : Manager σ) : Option Command → Manager σ
  | some .save => m.save.1
  | _ => m

def dispatch (m : Manager σ) (message : Message) : Manager σ × Option Command :=
  let (layout, command) := m.layout.handle message
  (({ m with layout := layout } : Manager σ).execute command, command)

def request (m : Manager σ) (message : Message) : Manager σ × Bool :=
  let (after, command) := m.dispatch message
  (after, command.any Command.needsSave)

def move (m : Manager σ) (id : PanelId) (slot : Slot) (options : MoveOptions) :
    Manager σ × Except MoveRejection MovePlan :=
  let (layout, result, command) := m.layout.handleMove id slot options
  (({ m with layout := layout } : Manager σ).execute command, result)

def moveNamed (m : Manager σ) (name : String) (slot : Slot) (options : MoveOptions) :
    Manager σ × Except MoveRejection MovePlan :=
  match PanelId.ofName? name with
  | some id => m.move id slot options
  | none => (m, .error (.unknown name))

end Manager

end Docking
