import Docking.Catalogue.Basic

/-! The live layout: one panel for each entry of the catalogue, in catalogue order. Panels that are
not in the catalogue are ignored by every operation. A dock holds at most one visible panel; center
and hidden are never occupied. The check lists every way in which a layout fails its invariants. -/
namespace Docking

structure Panel where
  id : PanelId
  slot : Slot
  visible : Bool
  size : Option Size
  bounds : Bounds
  placement : Placement
  priority : Int
  deriving BEq

namespace Panel

def ofSpec (s : PanelSpec) : Panel where
  id := s.id
  slot := s.home
  visible := s.shown
  size := s.size
  bounds := s.bounds
  placement := s.placement
  priority := s.priority

def resizable (p : Panel) : Bool := p.size.isSome

def visibleAt (p : Panel) (slot : Slot) : Bool := p.visible && p.slot = slot

end Panel

structure Layout where
  catalogue : Catalogue
  panels : List Panel
  deriving BEq

namespace Layout

def ofCatalogue (c : Catalogue) : Layout := ⟨c, c.specs.map Panel.ofSpec⟩

/-- The panels stand for the entries of the catalogue, one each and in the same order, and no
entry repeats. -/
def WellFormed (l : Layout) : Prop :=
  l.panels.map Panel.id = l.catalogue.ids ∧ l.catalogue.ids.Nodup

def panel? (l : Layout) (id : PanelId) : Option Panel := l.panels.find? fun p => p.id = id

def contains (l : Layout) (id : PanelId) : Bool := (l.panel? id).isSome

def visible (l : Layout) (id : PanelId) : Bool := (l.panel? id).any Panel.visible

def modify (l : Layout) (id : PanelId) (change : Panel → Panel) : Layout :=
  { l with panels := l.panels.map fun p => if p.id = id then change p else p }

/-- The visible panels in a slot, in catalogue order. -/
def holders (l : Layout) (slot : Slot) : List Panel := l.panels.filter fun p => p.visibleAt slot

/-- The first visible panel in a dock other than the excluded one. -/
def occupant? (l : Layout) (slot : Slot) (excluded : PanelId) : Option Panel :=
  if slot.isDock then l.panels.find? fun p => p.id ≠ excluded && p.visibleAt slot else none

def panelAt? (l : Layout) (slot : Slot) : Option Panel :=
  if slot.isDock then l.panels.find? fun p => p.visibleAt slot else none

/-- The allowed slots that a panel could take without a conflict. -/
def availableSlots (l : Layout) (id : PanelId) : List Slot :=
  match l.panel? id with
  | none => []
  | some p => p.placement.allowed.filter fun slot => (l.occupant? slot id).isNone

/-- No dock holds two visible panels. -/
def ConflictFree (l : Layout) : Prop := ∀ slot ∈ Slot.docks, (l.holders slot).length ≤ 1

instance (l : Layout) : Decidable l.ConflictFree :=
  inferInstanceAs (Decidable (∀ slot ∈ Slot.docks, (l.holders slot).length ≤ 1))

end Layout

inductive Violation where
  | missing (id : PanelId)
  | misplaced (id : PanelId) (slot : Slot)
  | outOfBounds (id : PanelId) (size : Size)
  | crowded (slot : Slot) (holders : List PanelId)

def Violation.message : Violation → String
  | missing id => id.name ++ " has no configuration"
  | misplaced id slot => id.name ++ " sits in disallowed slot " ++ slot.name
  | outOfBounds id size => id.name ++ " size " ++ size.text ++ " outside bounds"
  | crowded slot holders =>
    slot.name ++ " held by " ++ String.intercalate ", " (holders.map PanelId.name)

def Panel.violations (p : Panel) : List Violation :=
  (if p.placement.allows p.slot then [] else [.misplaced p.id p.slot]) ++
    match p.size with
    | none => []
    | some size => if p.bounds.clamp size == size then [] else [.outOfBounds p.id size]

namespace Layout

def crowding (l : Layout) (slot : Slot) : List Violation :=
  let ids := (l.holders slot).map Panel.id
  if 1 < ids.length then [.crowded slot ids] else []

def violations (l : Layout) : List Violation :=
  (l.catalogue.ids.filter fun id => !l.contains id).map .missing ++
    l.panels.flatMap Panel.violations ++ Slot.docks.flatMap l.crowding

end Layout

end Docking
