import Docking.Layout.Basic

/-! Moving a panel to a slot. A move lands in a free slot, lands by pushing out one occupant, or is
rejected with a slot to try instead. Planning looks at the layout only; a plan is carried out as a
whole, so no layout shows the target moved and the occupant still in place. -/
namespace Docking

structure MoveOptions where
  /-- Win the slot whatever the priorities. -/
  force : Bool := false
  deriving DecidableEq, Repr

def MoveOptions.forced : MoveOptions := ⟨true⟩

inductive Fate where
  | relocated (slot : Slot)
  | hidden
  deriving DecidableEq, Repr

structure Displacement where
  panel : PanelId
  fate : Fate
  deriving DecidableEq, Repr

structure MovePlan where
  target : PanelId
  slot : Slot
  displaced : Option Displacement
  deriving DecidableEq, Repr

/-- The target, also where it stays in place, and then the panel it displaces. -/
def MovePlan.moved (plan : MovePlan) : List PanelId :=
  plan.target :: (plan.displaced.map Displacement.panel).toList

inductive MoveFailure where
  | panelNotFound (name : String)
  | slotNotAllowed (panel : PanelId) (slot : Slot)
  | positionOccupied (slot : Slot) (occupant : PanelId)
  deriving DecidableEq, Repr

def MoveFailure.message : MoveFailure → String
  | panelNotFound name => "Panel " ++ name ++ " not found"
  | slotNotAllowed panel slot => "Panel " ++ panel.name ++ " cannot be positioned at " ++ slot.name
  | positionOccupied slot occupant =>
    "Position " ++ slot.name ++ " is occupied by higher priority panel " ++ occupant.name

structure MoveRejection where
  reason : MoveFailure
  suggestion : Option Slot
  deriving DecidableEq, Repr

namespace MoveRejection

def unknown (name : String) : MoveRejection := ⟨.panelNotFound name, none⟩

def occupant? (r : MoveRejection) : Option PanelId :=
  match r.reason with
  | .positionOccupied _ occupant => some occupant
  | _ => none

def message (r : MoveRejection) : String :=
  match r.suggestion with
  | some slot => r.reason.message ++ " (try " ++ slot.name ++ ")"
  | none => r.reason.message

end MoveRejection

namespace Layout

/-- The occupant goes to its preferred slot if that is another slot than the contested one and no
third panel holds it; the slot that the target leaves counts as free. Otherwise it is hidden. -/
def fate (l : Layout) (target : PanelId) (contested : Slot) (occupant : Panel) : Fate :=
  let preferred := occupant.placement.preferred
  if preferred ≠ contested && preferred ≠ .hidden &&
      (l.occupant? preferred occupant.id).all fun p => p.id = target then
    .relocated preferred
  else .hidden

def plan (l : Layout) (target : PanelId) (slot : Slot) (options : MoveOptions) :
    Except MoveRejection MovePlan :=
  match l.panel? target with
  | none => .error (.unknown target.name)
  | some p =>
    if !p.placement.allows slot then
      .error ⟨.slotNotAllowed target slot, some p.placement.preferred⟩
    else
      match l.occupant? slot target with
      | none => .ok ⟨target, slot, none⟩
      | some occupant =>
        if options.force || occupant.priority < p.priority then
          .ok ⟨target, slot, some ⟨occupant.id, l.fate target slot occupant⟩⟩
        else
          .error ⟨.positionOccupied slot occupant.id,
            p.placement.allowed.find? fun free => (l.occupant? free target).isNone⟩

/-- A displaced panel that is relocated stays visible, a hidden one keeps its slot. -/
def settle (l : Layout) (displaced : Displacement) : Layout :=
  match displaced.fate with
  | .relocated slot => l.modify displaced.panel fun p => { p with slot := slot, visible := true }
  | .hidden => l.modify displaced.panel fun p => { p with visible := false }

def carryOut (l : Layout) (plan : MovePlan) : Layout :=
  let moved := l.modify plan.target fun p =>
    { p with slot := plan.slot, visible := plan.slot ≠ .hidden }
  match plan.displaced with
  | some displaced => moved.settle displaced
  | none => moved

/-- A rejected move leaves the layout as it is. -/
def move (l : Layout) (target : PanelId) (slot : Slot) (options : MoveOptions) :
    Layout × Except MoveRejection MovePlan :=
  match l.plan target slot options with
  | .ok plan => (l.carryOut plan, .ok plan)
  | .error rejection => (l, .error rejection)

def moveNamed (l : Layout) (name : String) (slot : Slot) (options : MoveOptions) :
    Layout × Except MoveRejection MovePlan :=
  match PanelId.ofName? name with
  | some id => l.move id slot options
  | none => (l, .error (.unknown name))

end Layout

end Docking
