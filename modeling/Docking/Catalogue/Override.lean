import Docking.Catalogue.Basic

/-! User settings for single panels on top of a catalogue. A field that is not set keeps its
value, and the result is checked as a whole. -/
namespace Docking

structure PanelOverride where
  id : String
  home : Option String := none
  shown : Option Bool := none
  size : Option Size := none
  lower : Option Size := none
  upper : Option Size := none
  allowed : Option (List String) := none
  preferred : Option String := none
  modal : Option Bool := none
  priority : Option Int := none

namespace PanelOverride

def readSlot (text : String) : Except CatalogueError Slot :=
  match Slot.ofAnyCase? text with
  | some slot => .ok slot
  | none => .error (.unknownSlot text)

def readIf {α β : Type} (read : α → Except CatalogueError β) (given : Option α) (old : β) :
    Except CatalogueError β :=
  match given with
  | some text => read text
  | none => .ok old

/-- The allowed slots are read before the starting slot, and that one before the preferred slot. -/
def patch (o : PanelOverride) (s : PanelSpec) : Except CatalogueError PanelSpec := do
  let allowed ← readIf (List.mapM readSlot) o.allowed s.placement.allowed
  let home ← readIf readSlot o.home s.home
  let preferred ← readIf readSlot o.preferred s.placement.preferred
  return {
    id := s.id
    home := home
    shown := o.shown.getD s.shown
    size := o.size <|> s.size
    bounds := ⟨o.lower <|> s.bounds.lower, o.upper <|> s.bounds.upper⟩
    placement := ⟨allowed, preferred, o.modal.getD s.placement.modal⟩
    priority := o.priority.getD s.priority }

/-- Patches the first entry of the named panel; a panel that has no entry is unknown. -/
def patchAt (o : PanelOverride) (id : PanelId) :
    List PanelSpec → Except CatalogueError (List PanelSpec)
  | [] => .error (.unknownPanel o.id)
  | s :: rest =>
    if s.id = id then (o.patch s).map (· :: rest) else (o.patchAt id rest).map (s :: ·)

def patchList (o : PanelOverride) (specs : List PanelSpec) :
    Except CatalogueError (List PanelSpec) :=
  match PanelId.ofName? o.id with
  | none => .error (.unknownPanel o.id)
  | some id => o.patchAt id specs

end PanelOverride

/-- The catalogue with the settings applied in order; only the final entries are checked. -/
def Catalogue.override (c : Catalogue) (overrides : List PanelOverride) :
    Except CatalogueError Catalogue := do
  let specs ← overrides.foldlM (fun specs o => o.patchList specs) c.specs
  ofSpecs specs

end Docking
