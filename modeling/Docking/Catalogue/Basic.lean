import Docking.Number.Text
import Docking.Panels

/-! The catalogue: which panels there are, where each may go and starts, and how large it may be. A
catalogue is built once from checked entries and never changes. In the shipped one all panels start
hidden; the command palette has a fixed size and outranks every docked panel. -/
namespace Docking

/-- The sizes a panel may have. An absent lower bound is zero, an absent upper bound is infinite. -/
structure Bounds where
  lower : Option Size
  upper : Option Size
  deriving BEq

namespace Bounds

/-- The bound that stands for an absent one is an operand like any other, so a size that is not a
number becomes the lower bound. -/
def clamp (b : Bounds) (size : Size) : Size :=
  (size.max (b.lower.getD 0)).min (b.upper.getD (.infinite false))

end Bounds

structure Placement where
  allowed : List Slot
  /-- Where the panel goes when it is pushed out of its slot. -/
  preferred : Slot
  modal : Bool
  deriving DecidableEq

/-- Every panel may be put away. -/
def Placement.allows (p : Placement) (slot : Slot) : Bool :=
  slot = .hidden || p.allowed.contains slot

theorem Placement.allows_iff {p : Placement} {slot : Slot} :
    p.allows slot = true ↔ slot = .hidden ∨ slot ∈ p.allowed := by
  simp [Placement.allows]

/-- An entry of the catalogue. A panel without a size cannot be resized. -/
structure PanelSpec where
  id : PanelId
  home : Slot
  shown : Bool
  size : Option Size
  bounds : Bounds
  placement : Placement
  /-- The higher one wins a contested slot. -/
  priority : Int
  deriving BEq

inductive CatalogueError where
  | duplicatePanel (id : PanelId)
  | unknownPanel (text : String)
  | unknownSlot (text : String)
  | disallowedSlot (id : PanelId) (slot : Slot)
  | invalidBounds (id : PanelId) (lower upper : Size)
  | unreadable
  | malformed

def CatalogueError.message : CatalogueError → String
  | duplicatePanel id => "Duplicate panel: " ++ id.name
  | unknownPanel text => "Unknown panel: " ++ text
  | unknownSlot text => "Unknown slot: " ++ text
  | disallowedSlot id slot => "Panel " ++ id.name ++ " cannot be positioned at " ++ slot.name
  | invalidBounds id lower upper =>
    "Panel " ++ id.name ++ " has min size " ++ lower.text ++ " above max size " ++ upper.text
  | unreadable => "IO error"
  | malformed => "Parse error"

namespace PanelSpec

/-- The first slot of the entry that its placement forbids, the starting slot before the preferred
one. -/
def misplaced? (s : PanelSpec) : Option Slot :=
  [s.home, s.placement.preferred].find? fun slot => !s.placement.allows slot

/-- Bounds are compared only when both are given. -/
def check (s : PanelSpec) : Except CatalogueError Unit :=
  match s.misplaced? with
  | some slot => .error (.disallowedSlot s.id slot)
  | none =>
    match s.bounds.lower, s.bounds.upper with
    | some lower, some upper =>
      if upper.lt lower then .error (.invalidBounds s.id lower upper) else .ok ()
    | _, _ => .ok ()

def clamped (s : PanelSpec) : PanelSpec := { s with size := s.size.map s.bounds.clamp }

/-- Checks entries in order against the panels already seen. -/
def settle (seen : List PanelId) : List PanelSpec → Except CatalogueError (List PanelSpec)
  | [] => .ok []
  | s :: rest =>
    if s.id ∈ seen then .error (.duplicatePanel s.id)
    else
      match s.check with
      | .error e => .error e
      | .ok () => (settle (s.id :: seen) rest).map (s.clamped :: ·)

end PanelSpec

structure Catalogue where
  specs : List PanelSpec
  deriving BEq

namespace Catalogue

/-- The catalogue of the given entries, their sizes clamped into their bounds, or the first fault
found. -/
def ofSpecs (specs : List PanelSpec) : Except CatalogueError Catalogue :=
  (PanelSpec.settle [] specs).map .mk

def ids (c : Catalogue) : List PanelId := c.specs.map PanelSpec.id

def spec? (c : Catalogue) (id : PanelId) : Option PanelSpec := c.specs.find? fun s => s.id = id

def contains (c : Catalogue) (id : PanelId) : Bool := (c.spec? id).isSome

/-- The place of a panel in catalogue order, by which ties are broken. -/
def index? (c : Catalogue) (id : PanelId) : Option Nat := c.ids.idxOf? id

def restrict (c : Catalogue) (ids : List PanelId) : Catalogue :=
  ⟨c.specs.filter fun s => ids.contains s.id⟩

end Catalogue

/-- The size a docked panel starts with and its bounds: a width at the sides, a height at the
bottom. -/
structure SizeRange where
  start : Size
  lower : Size
  upper : Size

namespace SizeRange

def left : SizeRange := ⟨250, 200, 600⟩

def right : SizeRange := ⟨400, 300, 800⟩

def bottom : SizeRange := ⟨300, 150, 600⟩

end SizeRange

namespace PanelSpec

def docked (id : PanelId) (home : Slot) (range : SizeRange) (allowed : List Slot) (modal : Bool)
    (priority : Int) : PanelSpec where
  id := id
  home := home
  shown := false
  size := some range.start
  bounds := ⟨some range.lower, some range.upper⟩
  placement := ⟨allowed, home, modal⟩
  priority := priority

end PanelSpec

def Catalogue.builtin : Catalogue where
  specs := [
    .docked .fileTree .left .left [.left, .right] false 100,
    .docked .terminal .bottom .bottom [.bottom, .left, .right] false 90,
    .docked .docs .right .right [.right, .left, .center] true 70,
    .docked .search .left .left [.left, .right, .bottom, .center] true 60,
    .docked .settings .right .right [.right, .left, .center] true 50,
    { id := .commandPalette
      home := .center
      shown := false
      size := none
      bounds := ⟨none, none⟩
      placement := ⟨[.center], .center, true⟩
      priority := 999 }]

end Docking
