import Docking.Proofs.Json.Spells
import Docking.Stored
import Mathlib.Data.List.Forall2

/-! What a stored layout reads as. Its text spells an object with one item for each panel, in order,
provided that the sizes survive the way through text; how numbers are written is not looked into. -/
namespace Docking

namespace Number

/-- The number that the stored text of a size reads as. -/
def reread? (x : Size) : Option Wide :=
  match Json.readNumber (Spelling.stored.text x).toList with
  | some (w, []) => some w
  | _ => none

/-- The stored text of the size reads as a number that rounds to the size. -/
def Survives (x : Size) : Prop := x.reread?.any (fun w => w.convert .single == x) = true

instance (x : Size) : Decidable x.Survives :=
  inferInstanceAs (Decidable (x.reread?.any (fun w => w.convert .single == x) = true))

theorem Survives.exists_reread {x : Size} (h : x.Survives) :
    ∃ w, x.reread? = some w ∧ (w.convert .single == x) = true :=
  (Option.any_eq_true _ _).mp h

theorem readNumber_of_reread {x : Size} {w : Wide} (h : x.reread? = some w) :
    Json.readNumber (Spelling.stored.text x).toList = some (w, []) := by
  unfold reread? at h
  split at h
  · next hread =>
    obtain rfl := Option.some.inj h
    exact hread
  · simp at h

end Number

open Json

theorem plain_panelName (id : PanelId) : id.name.toList.all isPlain = true := by
  cases id <;> decide

theorem plain_slotName (slot : Slot) : slot.name.toList.all isPlain = true := by
  cases slot <;> decide

namespace Panel

variable {p : Panel}

def storedMembers (p : Panel) : List (String × Json) :=
  [("id", .string p.id.name), ("slot", .string p.slot.name), ("isVisible", .bool p.visible)] ++
    match p.size with
    | none => []
    | some x => [("size", .number (x.reread?.getD .nan))]

def storedJson (p : Panel) : Json := .object p.storedMembers

def memberTexts (p : Panel) : List (List Char) :=
  [("\"id\":\"" ++ p.id.name ++ "\"").toList, ("\"slot\":\"" ++ p.slot.name ++ "\"").toList,
    ("\"isVisible\":" ++ if p.visible then "true" else "false").toList] ++
    match p.size with
    | none => []
    | some x => [("\"size\":" ++ Spelling.stored.text x).toList]

theorem toList_storedText (p : Panel) :
    p.storedText.toList = '\x7b' :: ([','].intercalate p.memberTexts ++ ['\x7d']) := by
  unfold storedText memberTexts storedSize
  cases p.size <;> simp [String.toList_append, List.intercalate_cons_cons]

theorem spells_members (h : ∀ x ∈ p.size, x.Survives) :
    List.Forall₂ (SpellsMember 1 0) p.memberTexts p.storedMembers := by
  have hid : SpellsMember 1 0 ("\"id\":\"" ++ p.id.name ++ "\"").toList
      ("id", .string p.id.name) :=
    ⟨show "id".toList.all isPlain = true by decide, _, by simp [String.toList_append],
      spells_string (plain_panelName p.id)⟩
  have hslot : SpellsMember 1 0 ("\"slot\":\"" ++ p.slot.name ++ "\"").toList
      ("slot", .string p.slot.name) :=
    ⟨show "slot".toList.all isPlain = true by decide, _, by simp [String.toList_append],
      spells_string (plain_slotName p.slot)⟩
  have hvisible : SpellsMember 1 0
      ("\"isVisible\":" ++ if p.visible then "true" else "false").toList
      ("isVisible", .bool p.visible) :=
    ⟨show "isVisible".toList.all isPlain = true by decide, _, by cases p.visible <;> simp,
      spells_bool p.visible⟩
  refine .cons hid (.cons hslot (.cons hvisible ?_))
  cases hp : p.size with
  | none => exact .nil
  | some x =>
    obtain ⟨w, hw, -⟩ := (h x hp).exists_reread
    have hread := Number.readNumber_of_reread hw
    have hsize : SpellsMember 1 0 ("\"size\":" ++ Spelling.stored.text x).toList
        ("size", .number (x.reread?.getD .nan)) := by
      rw [hw, Option.getD_some]
      exact ⟨show "size".toList.all isPlain = true by decide, _, by simp [String.toList_append],
        spells_number hread⟩
    exact .cons hsize .nil

theorem spells (h : ∀ x ∈ p.size, x.Survives) : Spells 6 1 p.storedText.toList p.storedJson := by
  have hobject := spells_object (spells_members h)
  rw [← toList_storedText] at hobject
  have hlength : p.memberTexts.length ≤ 4 := by
    unfold memberTexts
    cases p.size <;> simp
  exact hobject.mono (by omega) (by omega)

end Panel

theorem length_le_intercalate {α : Type} (sep : List α) {texts : List (List α)}
    (h : ∀ text ∈ texts, text ≠ []) : texts.length ≤ (sep.intercalate texts).length := by
  induction texts with
  | nil => exact Nat.zero_le _
  | cons text texts ih =>
    obtain ⟨htext, htexts⟩ := List.forall_mem_cons.mp h
    have hpos := List.length_pos_iff.mpr htext
    by_cases hlast : texts = []
    · subst hlast
      simp only [List.intercalate_singleton, List.length_singleton]
      omega
    · have hle := ih htexts
      rw [intercalate_cons hlast]
      simp only [List.length_append, List.length_cons]
      omega

namespace Layout

variable {l : Layout}

def storedItems (l : Layout) : List Json := l.panels.map Panel.storedJson

theorem toList_storedText (l : Layout) : l.storedText.toList =
    '\x7b' :: ('"' :: ("panels".toList ++ '"' :: ':' :: '[' ::
      ([','].intercalate (l.panels.map fun p => p.storedText.toList) ++ [']'])) ++ ['\x7d']) := by
  simp [storedText, String.toList_append, String.toList_intercalate, Function.comp_def]

theorem spells (h : ∀ p ∈ l.panels, ∀ x ∈ p.size, x.Survives) :
    Spells (l.panels.length + 9) 3 l.storedText.toList
      (.object [("panels", .array l.storedItems)]) := by
  have hitems : List.Forall₂ (Spells 6 1) (l.panels.map fun p => p.storedText.toList)
      l.storedItems := by
    rw [storedItems, List.forall₂_map_left_iff, List.forall₂_map_right_iff, List.forall₂_same]
    intro p hp
    exact p.spells (h p hp)
  have hmember : SpellsMember _ _ _ ("panels", .array l.storedItems) :=
    ⟨show "panels".toList.all isPlain = true by decide, _, rfl, spells_array hitems⟩
  have hobject := spells_object (.cons hmember .nil)
  rw [List.intercalate_singleton] at hobject
  rw [toList_storedText]
  refine hobject.mono ?_ ?_
  · simp only [List.length_map, List.length_cons, List.length_nil]
    omega
  · omega

theorem storedPanels_storedText (h : ∀ p ∈ l.panels, ∀ x ∈ p.size, x.Survives) :
    storedPanels l.storedText = .ok l.storedItems := by
  have hlength : l.panels.length + 9 ≤ 2 * l.storedText.toList.length + 1 := by
    have hsolid : ∀ text ∈ l.panels.map fun p => p.storedText.toList, text ≠ [] := by
      intro text htext
      obtain ⟨p, -, rfl⟩ := List.mem_map.mp htext
      rw [p.toList_storedText]
      exact List.cons_ne_nil _ _
    have hle := length_le_intercalate [','] hsolid
    rw [toList_storedText]
    simp only [List.length_cons, List.length_append, List.length_map] at hle ⊢
    omega
  have hread := ofText?_eq_some (spells h) hlength (by decide)
  simp only [storedPanels, hread]
  rfl

end Layout

end Docking
