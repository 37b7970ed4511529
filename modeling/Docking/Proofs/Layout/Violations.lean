import Docking.Proofs.Layout.SizeBounds
import Docking.Proofs.Layout.Structure

/-! What the check of the layout invariants finds. A panel of a session is never missing, never in a
forbidden slot and never out of its bounds, so over finite sizes and bounds all that the check can
list is crowded docks, and it lists every one of them once. -/
namespace Docking

theorem Panel.violations_eq_nil_iff {p : Panel} : p.violations = [] ↔
    p.placement.allows p.slot = true ∧ ∀ x ∈ p.size, (p.bounds.clamp x == x) = true := by
  unfold violations
  cases p.size <;> simp

namespace Layout

variable {c : Catalogue} {l : Layout} {slot : Slot}

def visibleIn (l : Layout) (slot : Slot) : List PanelId :=
  l.catalogue.ids.filter fun id => (l.panel? id).any fun p => p.visibleAt slot

theorem WellFormed.map_id_holders (h : l.WellFormed) (slot : Slot) :
    (l.holders slot).map Panel.id = l.visibleIn slot := by
  rw [visibleIn, ← h.1, List.filter_map, holders]
  congr 1
  refine List.filter_congr fun p hp => ?_
  rw [Function.comp_apply, h.panel?_of_mem hp, Option.any_some]

theorem WellFormed.length_visibleIn (h : l.WellFormed) (slot : Slot) :
    (l.visibleIn slot).length = (l.holders slot).length := by
  rw [← h.map_id_holders, List.length_map]

/-- Every entry has its panel, so none is reported missing. -/
theorem WellFormed.missing_eq_nil (h : l.WellFormed) :
    (l.catalogue.ids.filter fun id => !l.contains id) = [] := by
  refine List.filter_eq_nil_iff.mpr fun id hid => ?_
  have hsome : l.panel? id ≠ none := mt h.panel?_eq_none_iff.mp (not_not.mpr hid)
  simp [contains, Option.isSome_iff_ne_none.mpr hsome]

theorem WellFormed.crowding_eq (h : l.WellFormed) (slot : Slot) : l.crowding slot =
    if 2 ≤ (l.visibleIn slot).length then [.crowded slot (l.visibleIn slot)] else [] := by
  simp only [crowding, h.map_id_holders]
  rfl

theorem WellFormed.flatMap_crowding (h : l.WellFormed) (slots : List Slot) :
    slots.flatMap l.crowding = (slots.filter fun slot => 2 ≤ (l.visibleIn slot).length).map
      fun slot => .crowded slot (l.visibleIn slot) := by
  induction slots with
  | nil => rfl
  | cons slot slots ih =>
    rw [List.flatMap_cons, h.crowding_eq, ih, List.filter_cons]
    by_cases hcrowded : 2 ≤ (l.visibleIn slot).length
    · simp only [hcrowded, if_true, decide_true, List.map_cons, List.singleton_append]
    · simp only [hcrowded, if_false, decide_false, Bool.false_eq_true, List.nil_append]

/-- What the check finds where every panel is as it should be. -/
theorem WellFormed.violations_eq (h : l.WellFormed) (hp : ∀ p ∈ l.panels, p.violations = []) :
    l.violations = (Slot.docks.filter fun slot => 2 ≤ (l.visibleIn slot).length).map
      fun slot => .crowded slot (l.visibleIn slot) := by
  rw [violations, h.missing_eq_nil, List.flatMap_eq_nil_iff.mpr hp, h.flatMap_crowding]
  rfl

/-- However a session goes, its panels are in allowed slots and within their bounds. -/
theorem Reachable.violations_panel (hl : Reachable c l) (hc : c.Valid) (hf : c.FiniteSizes) :
    ∀ p ∈ l.panels, p.violations = [] := by
  intro p hp
  refine Panel.violations_eq_nil_iff.mpr ⟨?_, fun x hx => ?_⟩
  · obtain ⟨s, -, hfollows⟩ := (hl.structured hc).follows p hp
    rw [hfollows.placement]
    exact hfollows.allowed
  · obtain ⟨s, -, hbounds, hfixes⟩ := (hl.sized (givenSizes_fixes hc hf)).panels p hp
    rw [hbounds]
    exact (hfixes x hx).2

/-- In every layout of a session over a catalogue of finite sizes and bounds the check lists the
docks that hold two visible panels or more, from left to bottom, each once and with its visible
panels as the catalogue orders them, and it lists nothing else. So it finds nothing exactly in the
layouts without conflict. -/
theorem violations_eq_crowded {c : Catalogue} (hc : c.Obtainable) (hf : c.FiniteSizes) {l : Layout}
    (hl : Reachable c l) :
    l.violations = ((Slot.docks.filter fun slot => 2 ≤ (l.visibleIn slot).length).map
        fun slot => .crowded slot (l.visibleIn slot)) ∧
      l.violations.map Violation.message =
        ((Slot.docks.filter fun slot => 2 ≤ (l.visibleIn slot).length).map fun slot =>
          slot.name ++ " held by " ++
            String.intercalate ", " ((l.visibleIn slot).map PanelId.name)) ∧
      (l.violations = [] ↔ l.ConflictFree) := by
  have hwell := (hl.structured hc.valid).wellFormed
  have heq := hwell.violations_eq (hl.violations_panel hc.valid hf)
  refine ⟨heq, ?_, ?_⟩
  · rw [heq, List.map_map]
    rfl
  · simp only [heq, List.map_eq_nil_iff, List.filter_eq_nil_iff, hwell.length_visibleIn,
      decide_eq_true_eq, Nat.not_le, Nat.lt_succ_iff]
    rfl

/-- The file tree, docs and the search restored to docks of their own; then docs are put with the
file tree and the terminal with the search, whoever sits there. -/
def piledUp : Layout :=
  (restore .builtin
    ("\x7b\"panels\":[\x7b\"id\":\"file-tree\",\"isVisible\":true\x7d," ++
      "\x7b\"id\":\"docs\",\"isVisible\":true,\"size\":1e300\x7d," ++
      "\x7b\"id\":\"search\",\"slot\":\"bottom\",\"isVisible\":true\x7d]\x7d")).run
    [.setSlot .docs .left, .setSlot .terminal .right, .reveal .terminal, .setSlot .terminal .bottom]

theorem violations_eq_crowded_piledUp :
    Catalogue.builtin.Obtainable ∧ Catalogue.builtin.FiniteSizes ∧ Reachable .builtin piledUp ∧
      piledUp.violations.map Violation.message =
        ["left held by file-tree, docs", "bottom held by terminal, search"] ∧
      (piledUp.violations = [] ↔ piledUp.ConflictFree) := by
  have hl : Reachable .builtin piledUp := (Reachable.restored _).run _
  obtain ⟨-, hlines, hnone⟩ := violations_eq_crowded .builtin Catalogue.builtin_finiteSizes hl
  refine ⟨.builtin, Catalogue.builtin_finiteSizes, hl, hlines.trans ?_, hnone⟩
  decide +kernel

end Layout

end Docking
