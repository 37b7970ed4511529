import Docking.Stored
import Docking.Trace.Event

/-! Snapshots of a layout with their difference, and the events of its operations: the message, what
came of it, what changed and which invariants are broken afterwards. -/
namespace Docking

structure Standing where
  id : PanelId
  slot : Slot
  visible : Bool
  size : Option Size
  deriving BEq

structure Snapshot where
  panels : List Standing
  deriving BEq

inductive Change where
  | removed (id : PanelId)
  | placed (before after : Standing)
  | resized (id : PanelId) (before after : Option Size)

namespace Standing

def ofPanel (p : Panel) : Standing := ⟨p.id, p.slot, p.visible, p.size⟩

def placement (s : Standing) : String :=
  (if s.visible then "visible" else "hidden") ++ "@" ++ s.slot.name

/-- A change of place comes before a change of size. -/
def changes (before after : Standing) : List Change :=
  (if before.slot = after.slot && before.visible = after.visible then []
    else [.placed before after]) ++
    if before.size == after.size then [] else [.resized before.id before.size after.size]

end Standing

namespace Change

def sizeText (size : Option Size) : String := (size.map Number.text).getD "none"

def message : Change → String
  | removed id => id.name ++ ": removed"
  | placed before after => before.id.name ++ ": " ++ before.placement ++ " → " ++ after.placement
  | resized id before after => id.name ++ ": size " ++ sizeText before ++ " → " ++ sizeText after

end Change

namespace Snapshot

def ofLayout (l : Layout) : Snapshot := ⟨l.panels.map Standing.ofPanel⟩

/-- The changes of the panels of the first snapshot, in its order. -/
def changes (before after : Snapshot) : List Change :=
  before.panels.flatMap fun s =>
    match after.panels.find? fun t => t.id = s.id with
    | none => [.removed s.id]
    | some t => s.changes t

def diff (before after : Snapshot) : Option String :=
  match before.changes after with
  | [] => none
  | changes => some (String.intercalate "; " (changes.map Change.message))

end Snapshot

namespace Layout

def revealEvents (l : Layout) (id : PanelId) : List Event :=
  match l.panel? id with
  | none => []
  | some p =>
    if p.visible then []
    else
      match l.occupant? p.slot id with
      | none => []
      | some occupant => [.revealRefused id p.slot occupant.id]

def toggleEvents (l : Layout) (id : PanelId) : List Event :=
  if l.visible id then [] else l.revealEvents id

def moveEvents (l : Layout) (id : PanelId) (slot : Slot) (options : MoveOptions) : List Event :=
  match l.plan id slot options with
  | .ok plan => [.moveApplied plan]
  | .error rejection => [.moveRejected id slot rejection]

def moveNamedEvents (l : Layout) (name : String) (slot : Slot) (options : MoveOptions) :
    List Event :=
  match PanelId.ofName? name with
  | some id => l.moveEvents id slot options
  | none => []

def operationEvents (l : Layout) : Message → List Event
  | .toggle id => l.toggleEvents id
  | .reveal id => l.revealEvents id
  | .move id slot options => l.moveEvents id slot options
  | _ => []

/-- The message, its operation, what changed, and which invariants are broken afterwards. -/
def handleEvents (l : Layout) (m : Message) : List Event :=
  let after := (l.handle m).1
  let changed := (Snapshot.ofLayout l).diff (Snapshot.ofLayout after)
  .messageReceived m :: l.operationEvents m ++ (changed.map Event.layoutChanged).toList ++
    after.violations.map fun v => .invariantBroken m v.message

end Docking.Layout

namespace Docking.Panel

def overlayEvents (p : Panel) (stored : Json) : List Event :=
  match storedSlot? stored with
  | some slot => if p.placement.allows slot then [] else [.storedSlotRefused p.id slot]
  | none => []

end Docking.Panel

namespace Docking.Layout

def storedPanelEvents (l : Layout) (stored : Json) : List Event :=
  match storedName? stored with
  | none => []
  | some name =>
    match PanelId.ofName? name with
    | none => [.storedPanelUnknown name]
    | some id =>
      match l.panel? id with
      | none => []
      | some p => p.overlayEvents stored

/-- A stored panel is judged by placements alone, which restoring leaves as they are. -/
def restoreEvents (c : Catalogue) (text : String) : List Event :=
  match storedPanels text with
  | .error .malformed => [.storedMalformed]
  | .error .noPanels => [.storedWithoutPanels]
  | .ok items =>
    let hidden := (overlaid c items).thinDocks.2
    items.flatMap (ofCatalogue c).storedPanelEvents ++
      if hidden.isEmpty then [] else [.storedCrowded hidden]

end Layout

end Docking
