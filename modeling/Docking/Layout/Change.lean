import Docking.Layout.Basic

/-! Changes of a layout that touch one panel each, or treat all panels alike; each returns the
layout after it and whether it changed anything. Crowded docks are thinned out: the panel of highest
priority stays visible, among equals the one that comes first in the catalogue. -/
namespace Docking

namespace Layout

def hide (l : Layout) (id : PanelId) : Layout × Bool :=
  if l.visible id then (l.modify id fun p => { p with visible := false }, true) else (l, false)

/-- Refused while another visible panel sits in the panel's dock. -/
def reveal (l : Layout) (id : PanelId) : Layout × Bool :=
  match l.panel? id with
  | none => (l, false)
  | some p =>
    if p.visible || (l.occupant? p.slot id).isSome then (l, false)
    else (l.modify id fun p => { p with visible := true }, true)

def toggle (l : Layout) (id : PanelId) : Layout × Bool :=
  if l.visible id then l.hide id else l.reveal id

/-- The requested size goes through the panel's bounds. Fixed panels keep having no size, and a
request that is not finite is ignored. -/
def setSize (l : Layout) (id : PanelId) (requested : Size) : Layout × Bool :=
  match l.panel? id with
  | none => (l, false)
  | some p =>
    if !requested.isFinite || !p.resizable then (l, false)
    else if p.size == some (p.bounds.clamp requested) then (l, false)
    else (l.modify id fun p => { p with size := some (p.bounds.clamp requested) }, true)

def resizeBy (l : Layout) (id : PanelId) (delta : Size) : Layout × Bool :=
  match (l.panel? id).bind Panel.size with
  | none => (l, false)
  | some current => l.setSize id (current.add delta)

/-- Assigns an allowed slot whoever sits there. -/
def setSlot (l : Layout) (id : PanelId) (slot : Slot) : Layout × Bool :=
  match l.panel? id with
  | none => (l, false)
  | some p =>
    if p.placement.allows slot && p.slot ≠ slot then
      (l.modify id fun p => { p with slot := slot }, true)
    else (l, false)

/-- Slots and sizes stay for a later restore. -/
def hideAll (l : Layout) : Layout × Bool :=
  ({ l with panels := l.panels.map fun p => { p with visible := false } },
    l.panels.any Panel.visible)

/-- Back to the entries of the catalogue. Sizes are compared as values. -/
def reset (l : Layout) : Layout × Bool :=
  (ofCatalogue l.catalogue, (ofCatalogue l.catalogue).panels != l.panels)

/-- The visible panels in a slot by falling priority. The sort is stable, so equals stay in
catalogue order. -/
def ranked (l : Layout) (slot : Slot) : List Panel :=
  (l.holders slot).mergeSort fun a b => b.priority ≤ a.priority

def outranked (l : Layout) (slot : Slot) : List PanelId := ((l.ranked slot).drop 1).map Panel.id

def hideEach (l : Layout) (ids : List PanelId) : Layout :=
  ids.foldl (fun l id => (l.hide id).1) l

/-- Thins out the given slots in turn and lists the panels hidden. -/
def thin (l : Layout) : List Slot → Layout × List PanelId
  | [] => (l, [])
  | slot :: rest =>
    let losers := l.outranked slot
    let (after, hidden) := (l.hideEach losers).thin rest
    (after, losers ++ hidden)

def thinDocks (l : Layout) : Layout × List PanelId := l.thin Slot.docks

end Layout

end Docking
