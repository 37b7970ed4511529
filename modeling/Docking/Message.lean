import Docking.Layout.Change
import Docking.Layout.Move

/-! Messages, the one way a layout changes, and the commands that follow from them. -/
namespace Docking

inductive Message where
  | toggle (id : PanelId)
  | reveal (id : PanelId)
  | hide (id : PanelId)
  | setSize (id : PanelId) (size : Size)
  | resizeBy (id : PanelId) (delta : Size)
  | setSlot (id : PanelId) (slot : Slot)
  | move (id : PanelId) (slot : Slot) (options : MoveOptions)
  | hideAll
  | reset

inductive Command where
  | save
  | report (rejection : MoveRejection)
  deriving DecidableEq, Repr

def Command.needsSave : Command → Bool
  | save => true
  | report _ => false

namespace Layout

def saveIf (changed : Layout × Bool) : Layout × Option Command :=
  (changed.1, if changed.2 then some .save else none)

def standing (l : Layout) (id : PanelId) : Option (Slot × Bool) :=
  (l.panel? id).map fun p => (p.slot, p.visible)

/-- A move with the command that follows. Moving a visible panel onto its own slot changes nothing,
and a rejected move is reported. -/
def handleMove (l : Layout) (id : PanelId) (slot : Slot) (options : MoveOptions) :
    Layout × Except MoveRejection MovePlan × Option Command :=
  match l.move id slot options with
  | (after, .ok plan) =>
    let idle := plan.displaced.isNone && l.standing id = after.standing id
    (after, .ok plan, if idle then none else some .save)
  | (after, .error rejection) => (after, .error rejection, some (.report rejection))

def handle (l : Layout) : Message → Layout × Option Command
  | .toggle id => saveIf (l.toggle id)
  | .reveal id => saveIf (l.reveal id)
  | .hide id => saveIf (l.hide id)
  | .setSize id size => saveIf (l.setSize id size)
  | .resizeBy id delta => saveIf (l.resizeBy id delta)
  | .setSlot id slot => saveIf (l.setSlot id slot)
  | .move id slot options =>
    let (after, _, command) := l.handleMove id slot options
    (after, command)
  | .hideAll => saveIf l.hideAll
  | .reset => saveIf l.reset

end Layout

end Docking
