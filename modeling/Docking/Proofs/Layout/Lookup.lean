import Docking.Layout.Basic
import Mathlib.Data.List.Nodup

/-! Panels looked up by name. In a well-formed layout every name stands for at most one panel, a
change of one panel is seen under its own name only, and the look-ups together determine the
layout. -/
namespace Docking

/-- What comes earlier in a list without repetitions has the lower index. -/
theorem pairwise_idxOf {α : Type} [DecidableEq α] {xs : List α} (h : xs.Nodup) :
    xs.Pairwise fun a b => xs.idxOf a < xs.idxOf b := by
  rw [List.pairwise_iff_getElem]
  intro i j hi hj hij
  rwa [h.idxOf_getElem, h.idxOf_getElem]

namespace Layout

variable {l m : Layout} {id other : PanelId} {p : Panel} {change : Panel → Panel}

instance (l : Layout) : Decidable l.WellFormed :=
  inferInstanceAs (Decidable (l.panels.map Panel.id = l.catalogue.ids ∧ l.catalogue.ids.Nodup))

theorem panel?_id (h : l.panel? id = some p) : p.id = id := by
  simpa using List.find?_some h

theorem mem_of_panel? (h : l.panel? id = some p) : p ∈ l.panels := List.mem_of_find?_eq_some h

theorem panel?_eq_none_iff : l.panel? id = none ↔ ∀ p ∈ l.panels, p.id ≠ id := by
  simp [panel?]

theorem WellFormed.nodup (h : l.WellFormed) : (l.panels.map Panel.id).Nodup := h.1 ▸ h.2

theorem WellFormed.eq_of_id_eq (h : l.WellFormed) {p q : Panel} (hp : p ∈ l.panels)
    (hq : q ∈ l.panels) (hid : p.id = q.id) : p = q :=
  List.inj_on_of_nodup_map h.nodup hp hq hid

theorem WellFormed.panel?_of_mem (h : l.WellFormed) (hp : p ∈ l.panels) :
    l.panel? p.id = some p := by
  cases hf : l.panel? p.id with
  | none => exact absurd rfl (panel?_eq_none_iff.mp hf p hp)
  | some q => rw [h.eq_of_id_eq (mem_of_panel? hf) hp (panel?_id hf)]

/-- A name stands for the one panel that has it. -/
theorem WellFormed.eq_of_panel? (h : l.WellFormed) (hp : l.panel? id = some p) {q : Panel}
    (hq : q ∈ l.panels) (hid : q.id = id) : q = p :=
  h.eq_of_id_eq hq (mem_of_panel? hp) (hid.trans (panel?_id hp).symm)

theorem WellFormed.panel?_eq_none_iff (h : l.WellFormed) :
    l.panel? id = none ↔ id ∉ l.catalogue.ids := by
  rw [Layout.panel?_eq_none_iff, ← h.1]
  simp

/-- The panels are the look-ups of the catalogue's names, in catalogue order. -/
theorem WellFormed.panels_eq (h : l.WellFormed) :
    l.panels = l.catalogue.ids.filterMap l.panel? := by
  rw [← h.1, List.filterMap_map]
  have hself : ∀ p ∈ l.panels, (l.panel? ∘ Panel.id) p = some p := fun p hp => h.panel?_of_mem hp
  rw [List.filterMap_congr hself, List.filterMap_some]

theorem WellFormed.ext (hl : l.WellFormed) (hm : m.WellFormed) (hc : l.catalogue = m.catalogue)
    (h : ∀ id, l.panel? id = m.panel? id) : l = m := by
  have hp : l.panels = m.panels := by rw [hl.panels_eq, hm.panels_eq, hc, funext h]
  cases l
  cases m
  simp_all

def KeepsId (change : Panel → Panel) : Prop := ∀ p, (change p).id = p.id

theorem panels_modify (l : Layout) (id : PanelId) (change : Panel → Panel) :
    (l.modify id change).panels = l.panels.map fun p => if p.id = id then change p else p := rfl

@[simp] theorem catalogue_modify : (l.modify id change).catalogue = l.catalogue := rfl

theorem map_id_modify (hc : KeepsId change) :
    (l.modify id change).panels.map Panel.id = l.panels.map Panel.id := by
  rw [panels_modify, List.map_map]
  refine List.map_congr_left fun p _ => ?_
  simp only [Function.comp_apply]
  split
  · exact hc p
  · rfl

theorem WellFormed.modify (h : l.WellFormed) (hc : KeepsId change) :
    (l.modify id change).WellFormed :=
  ⟨(map_id_modify hc).trans h.1, h.2⟩

/-- A change is seen under the name it is made for and under no other. -/
theorem panel?_modify (hc : KeepsId change) :
    (l.modify id change).panel? other =
      if other = id then (l.panel? other).map change else l.panel? other := by
  have hid : ∀ p : Panel, (if p.id = id then change p else p).id = p.id := by
    intro p
    split
    · exact hc p
    · rfl
  simp only [panel?, panels_modify, List.find?_map, Function.comp_def, hid]
  cases hf : l.panels.find? fun p => p.id = other with
  | none => simp
  | some p =>
    obtain rfl : p.id = other := by simpa using List.find?_some hf
    by_cases h : p.id = id <;> simp [h]

theorem panel?_modify_self (hc : KeepsId change) (h : l.panel? id = some p) :
    (l.modify id change).panel? id = some (change p) := by
  rw [panel?_modify hc, if_pos rfl, h, Option.map_some]

theorem panel?_modify_of_ne (hc : KeepsId change) (h : other ≠ id) :
    (l.modify id change).panel? other = l.panel? other := by
  rw [panel?_modify hc, if_neg h]

theorem modify_eq_self (h : ∀ p ∈ l.panels, p.id = id → change p = p) :
    l.modify id change = l := by
  have hpanels : (l.panels.map fun p => if p.id = id then change p else p) = l.panels := by
    refine (List.map_congr_left fun p hp => ?_).trans (List.map_id l.panels)
    split
    · next hid => exact h p hp hid
    · rfl
  exact congrArg (Layout.mk l.catalogue) hpanels

/-- Two changes of one panel in turn are one change of it. -/
theorem modify_modify (hc : KeepsId change) (second : Panel → Panel) :
    (l.modify id change).modify id second = l.modify id (second ∘ change) := by
  simp only [modify, List.map_map]
  congr 1
  refine List.map_congr_left fun p _ => ?_
  by_cases hid : p.id = id
  · simp [hid, hc p]
  · simp [hid]

/-- A change that leaves the panel of that name as it is changes nothing. -/
theorem WellFormed.modify_eq_self_of_panel? (h : l.WellFormed) (hp : l.panel? id = some p)
    (hsame : change p = p) : l.modify id change = l := by
  refine modify_eq_self fun q hq hid => ?_
  rwa [h.eq_of_panel? hp hq hid]

theorem mem_modify {q : Panel} (h : q ∈ (l.modify id change).panels) :
    (∃ p ∈ l.panels, p.id = id ∧ q = change p) ∨ (q ∈ l.panels ∧ q.id ≠ id) := by
  obtain ⟨p, hp, rfl⟩ := List.mem_map.mp h
  by_cases hid : p.id = id
  · rw [if_pos hid]
    exact .inl ⟨p, hp, hid, rfl⟩
  · rw [if_neg hid]
    exact .inr ⟨hp, hid⟩

end Layout

end Docking
