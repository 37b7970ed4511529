import Docking.Json.Reader
import Docking.Layout.Change

/-! The stored form of a layout, and restoring one on top of a catalogue. What the catalogue owns is
not stored, so that a stored layout outlives a change of the catalogue. Restoring never fails: what
a stored panel says wrongly is skipped, a text without a list of panels gives the layout of the
catalogue, and crowded docks are thinned out. -/
namespace Docking

def storageKey : String := "panel-dock.panelState"

namespace Panel

def storedSize (size : Option Size) : String :=
  match size with
  | none => ""
  | some size => ",\"size\":" ++ Spelling.stored.text size

def storedText (p : Panel) : String :=
  "\x7b\"id\":\"" ++ p.id.name ++ "\",\"slot\":\"" ++ p.slot.name ++ "\",\"isVisible\":" ++
    (if p.visible then "true" else "false") ++ storedSize p.size ++ "\x7d"

end Panel

def Layout.storedText (l : Layout) : String :=
  "\x7b\"panels\":[" ++ String.intercalate "," (l.panels.map Panel.storedText) ++ "]\x7d"

/-- Clamps before rounding, so that a number beyond the range of sizes lands on a bound. -/
def Bounds.clampWide (b : Bounds) (x : Wide) : Size :=
  let lower : Wide := (b.lower.map (Number.convert .double)).getD 0
  let upper : Wide := (b.upper.getD Number.top).convert .double
  ((x.max lower).min upper).convert .single

namespace Panel

/-- The known slot that a stored panel names. -/
def storedSlot? (stored : Json) : Option Slot :=
  ((stored.member? "slot").bind Json.string?).bind Slot.ofName?

def overlaySlot (p : Panel) (stored : Json) : Slot :=
  match storedSlot? stored with
  | some slot => if p.placement.allows slot then slot else p.slot
  | none => p.slot

def overlaySize (p : Panel) (stored : Json) : Option Size :=
  match p.size, (stored.member? "size").bind Json.number? with
  | some size, some x => some (if x.isFinite then p.bounds.clampWide x else size)
  | size, _ => size

def overlay (p : Panel) (stored : Json) : Panel :=
  { p with
    slot := p.overlaySlot stored
    visible := ((stored.member? "isVisible").bind Json.bool?).getD p.visible
    size := p.overlaySize stored }

end Panel

inductive StoredFault where
  | malformed
  | noPanels
  deriving DecidableEq, Repr

def storedPanels (text : String) : Except StoredFault (List Json) :=
  match Json.ofText? text with
  | none => .error .malformed
  | some value =>
    match (value.member? "panels").bind Json.array? with
    | none => .error .noPanels
    | some items => .ok items

def storedName? (stored : Json) : Option String := (stored.member? "id").bind Json.string?

namespace Layout

def overlay (l : Layout) (stored : Json) : Layout :=
  match (storedName? stored).bind PanelId.ofName? with
  | some id => l.modify id fun p => p.overlay stored
  | none => l

/-- The layout of the catalogue under the stored panels, each in turn, docks still crowded. -/
def overlaid (c : Catalogue) (items : List Json) : Layout := items.foldl overlay (ofCatalogue c)

def restore (c : Catalogue) (text : String) : Layout :=
  match storedPanels text with
  | .ok items => (overlaid c items).thinDocks.1
  | .error _ => ofCatalogue c

end Layout

end Docking
