/-! The regions of the window a panel can be anchored to, and the panels the application knows. Both
sets are closed: nothing is added to them while it runs. -/
namespace Docking

inductive Slot where
  | left
  | right
  | bottom
  | center
  | hidden
  deriving DecidableEq, Repr

namespace Slot

def all : List Slot := [left, right, bottom, center, hidden]

/-- The slots that hold at most one visible panel. -/
def docks : List Slot := [left, right, bottom]

def isDock : Slot → Bool
  | left | right | bottom => true
  | center | hidden => false

def name : Slot → String
  | left => "left"
  | right => "right"
  | bottom => "bottom"
  | center => "center"
  | hidden => "hidden"

def ofName? (text : String) : Option Slot := all.find? fun slot => slot.name == text

/-- Configuration files may write slot names in capitals. No letter outside ASCII turns into a
letter of a slot name alone, so folding ASCII capitals is enough. -/
def ofAnyCase? (text : String) : Option Slot := ofName? (text.map Char.toLower)

theorem mem_all (slot : Slot) : slot ∈ all := by cases slot <;> decide

theorem mem_docks_iff (slot : Slot) : slot ∈ docks ↔ slot.isDock = true := by
  cases slot <;> decide

theorem ofName?_name (slot : Slot) : ofName? slot.name = some slot := by cases slot <;> decide

theorem ofName?_eq_some_iff {text : String} {slot : Slot} :
    ofName? text = some slot ↔ text = slot.name := by
  constructor
  · intro h
    unfold ofName? at h
    have hname := List.find?_some h
    exact (beq_iff_eq.mp hname).symm
  · rintro rfl
    exact ofName?_name slot

end Slot

inductive PanelId where
  | fileTree
  | terminal
  | docs
  | search
  | settings
  | commandPalette
  deriving DecidableEq, Repr

namespace PanelId

def all : List PanelId := [fileTree, terminal, docs, search, settings, commandPalette]

def name : PanelId → String
  | fileTree => "file-tree"
  | terminal => "terminal"
  | docs => "docs"
  | search => "search"
  | settings => "settings"
  | commandPalette => "command-palette"

def title : PanelId → String
  | fileTree => "Explorer"
  | terminal => "Terminal"
  | docs => "Docs"
  | search => "Search"
  | settings => "Settings"
  | commandPalette => "Command Palette"

def ofName? (text : String) : Option PanelId := all.find? fun id => id.name == text

theorem mem_all (id : PanelId) : id ∈ all := by cases id <;> decide

theorem ofName?_name (id : PanelId) : ofName? id.name = some id := by cases id <;> decide

theorem ofName?_eq_some_iff {text : String} {id : PanelId} :
    ofName? text = some id ↔ text = id.name := by
  constructor
  · intro h
    unfold ofName? at h
    have hname := List.find?_some h
    exact (beq_iff_eq.mp hname).symm
  · rintro rfl
    exact ofName?_name id

theorem eq_of_name_eq {a b : PanelId} (h : a.name = b.name) : a = b :=
  Option.some.inj ((ofName?_name a).symm.trans (ofName?_eq_some_iff.mpr h))

end PanelId

end Docking
