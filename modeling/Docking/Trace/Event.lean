import Docking.Message

/-! Trace events by cause, and the line each one becomes. Panels, slots and messages are named as
terms, with the parts of a record in braces. -/
namespace Docking

def PanelId.term : PanelId → String
  | fileTree => "FileTree"
  | terminal => "Terminal"
  | docs => "Docs"
  | search => "Search"
  | settings => "Settings"
  | commandPalette => "CommandPalette"

def Slot.term : Slot → String
  | left => "Left"
  | right => "Right"
  | bottom => "Bottom"
  | center => "Center"
  | hidden => "Hidden"

def application (head part : String) : String := head ++ "(" ++ part ++ ")"

def record (head : String) (parts : List (String × String)) : String :=
  head ++ " \x7b " ++ String.intercalate ", " (parts.map fun p => p.1 ++ ": " ++ p.2) ++ " \x7d"

def sequence (parts : List String) : String := "[" ++ String.intercalate ", " parts ++ "]"

def Fate.term : Fate → String
  | relocated slot => application "Relocated" slot.term
  | hidden => "Hidden"

def Displacement.term (d : Displacement) : String :=
  record "Displacement" [("panel", d.panel.term), ("to", d.fate.term)]

def displacedTerm : Option Displacement → String
  | none => "None"
  | some d => application "Some" d.term

def MoveOptions.term (o : MoveOptions) : String :=
  record "MoveOptions" [("force", if o.force then "true" else "false")]

def Message.term : Message → String
  | toggle id => "Panel::" ++ application "Toggle" id.term
  | reveal id => "Panel::" ++ application "Show" id.term
  | hide id => "Panel::" ++ application "Hide" id.term
  | setSize id size =>
    "Panel::" ++ record "SetSize" [("id", id.term), ("size", Spelling.trace.text size)]
  | resizeBy id delta =>
    "Panel::" ++ record "ResizeBy" [("id", id.term), ("delta", Spelling.trace.text delta)]
  | setSlot id slot => "Panel::" ++ record "SetSlot" [("id", id.term), ("slot", slot.term)]
  | move id slot options =>
    "Panel::" ++
      record "Move" [("id", id.term), ("slot", slot.term), ("options", options.term)]
  | hideAll => "Layout::HideAll"
  | reset => "Layout::ResetToDefaults"

inductive Level where
  | debug
  | info
  | warn
  | error
  deriving DecidableEq, Repr

inductive Event where
  | moveApplied (plan : MovePlan)
  | moveRejected (panel : PanelId) (slot : Slot) (rejection : MoveRejection)
  | revealRefused (panel : PanelId) (slot : Slot) (occupant : PanelId)
  | storedMalformed
  | storedWithoutPanels
  | storedPanelUnknown (name : String)
  | storedSlotRefused (panel : PanelId) (slot : Slot)
  | storedCrowded (hidden : List PanelId)
  | messageReceived (message : Message)
  | layoutChanged (diff : String)
  | invariantBroken (message : Message) (violation : String)
  | layoutRestored
  | moveReported (rejection : MoveRejection)
  | saveFailed
  | layoutSaved (path : String)
  | layoutUnreadable (path : String)
  | configFolderMissing
  | catalogueMissing (path : String)
  | catalogueLoaded (path : String)
  | catalogueRefused (path : String)

namespace Event

def level : Event → Level
  | storedMalformed | saveFailed | layoutUnreadable _ | catalogueRefused _ => .warn
  | layoutRestored | catalogueLoaded _ => .info
  | invariantBroken .. => .error
  | _ => .debug

def target : Event → String
  | moveApplied _ | moveRejected .. => "panel::resolver"
  | revealRefused .. => "panel::state"
  | storedMalformed | storedWithoutPanels | storedPanelUnknown _ | storedSlotRefused ..
  | storedCrowded _ => "panel::codec"
  | messageReceived _ => "message"
  | layoutChanged _ | invariantBroken .. => "layout"
  | layoutRestored | moveReported _ | saveFailed => "runtime"
  | layoutSaved _ | layoutUnreadable _ => "storage"
  | configFolderMissing | catalogueMissing _ | catalogueLoaded _ | catalogueRefused _ => "config"

def text : Event → String
  | moveApplied _ => "move applied"
  | moveRejected .. | moveReported _ => "move rejected"
  | revealRefused .. => "show refused, slot occupied"
  | storedMalformed => "Failed to parse stored layout, using defaults"
  | storedWithoutPanels => "Stored layout has no panel list, using defaults"
  | storedPanelUnknown name => "Ignoring stored layout for unknown panel " ++ name
  | storedSlotRefused .. => "Ignoring stored slot not allowed by catalogue"
  | storedCrowded _ => "Stored layout had conflicting panels"
  | messageReceived _ => "processing"
  | layoutChanged _ => "state changed"
  | invariantBroken .. => "layout invariant broken"
  | layoutRestored => "Restoring stored panel layout"
  | saveFailed => "Failed to persist panel layout"
  | layoutSaved path => "Saved layout to " ++ path
  | layoutUnreadable path => "Failed to read layout at " ++ path
  | configFolderMissing => "No config directory available, using built-in panels"
  | catalogueMissing path => "Panel config not found at " ++ path ++ ", using built-in panels"
  | catalogueLoaded path => "Loaded panel config from " ++ path
  | catalogueRefused path => "Failed to load panel config at " ++ path

def fields : Event → List (String × String)
  | moveApplied plan =>
    [("panel", plan.target.name), ("slot", plan.slot.name),
      ("displaced", displacedTerm plan.displaced)]
  | moveRejected panel slot rejection =>
    [("panel", panel.name), ("slot", slot.name), ("reason", rejection.message)]
  | revealRefused panel slot occupant =>
    [("panel", panel.name), ("slot", slot.name), ("occupant", occupant.name)]
  | storedSlotRefused panel slot => [("panel", panel.name), ("slot", slot.name)]
  | storedCrowded hidden => [("hidden", sequence (hidden.map PanelId.term))]
  | messageReceived message => [("msg", message.term)]
  | layoutChanged diff => [("diff", diff)]
  | invariantBroken message violation => [("msg", message.term), ("violation", violation)]
  | moveReported rejection => [("reason", rejection.message)]
  | _ => []

end Event

end Docking
