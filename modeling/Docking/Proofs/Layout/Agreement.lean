import Docking.Proofs.Layout.Numeric
import Docking.Proofs.Layout.Structure

/-! Layouts that agree and layouts that differ, sizes as values. Two layouts with the same panels
differ when some panel sits elsewhere, is seen in one only, or has another size; else they agree. -/
namespace Docking

/-- The same panel, in the same place, of the same size as a value. -/
structure Panel.Agrees (p q : Panel) : Prop where
  id : p.id = q.id
  slot : p.slot = q.slot
  visible : p.visible = q.visible
  size : (p.size == q.size) = true
  bounds : p.bounds = q.bounds
  placement : p.placement = q.placement
  priority : p.priority = q.priority

structure Layout.Agrees (l m : Layout) : Prop where
  catalogue : l.catalogue = m.catalogue
  panels : List.Forall₂ Panel.Agrees l.panels m.panels

instance : PartialEquivBEq (Option Size) where
  symm {x y} h := by
    rcases x with _ | x <;> rcases y with _ | y <;> try contradiction
    · rfl
    · have hxy : (x == y) = true := h
      exact (BEq.symm hxy : (y == x) = true)
  trans {x y z} hxy hyz := by
    rcases x with _ | x <;> rcases y with _ | y <;> try contradiction
    · exact hyz
    · rcases z with _ | z
      · contradiction
      · have hxy : (x == y) = true := hxy
        exact (BEq.trans hxy hyz : (x == z) = true)

theorem exists_of_size_beq {x : Size} {size : Option Size} (h : (some x == size) = true) :
    ∃ y, size = some y ∧ (x == y) = true := by
  cases size with
  | none => contradiction
  | some y => exact ⟨y, rfl, h⟩

namespace Panel

variable {p q r : Panel}

/-- In another slot, seen on one side only, or of another size. -/
def Differs (p q : Panel) : Prop :=
  p.slot ≠ q.slot ∨ p.visible ≠ q.visible ∨ (p.size == q.size) = false

instance (p q : Panel) : Decidable (p.Differs q) := inferInstanceAs (Decidable (_ ∨ _))

theorem Agrees.symm (h : p.Agrees q) : q.Agrees p :=
  ⟨h.id.symm, h.slot.symm, h.visible.symm, BEq.symm h.size, h.bounds.symm, h.placement.symm,
    h.priority.symm⟩

theorem Agrees.trans (hpq : p.Agrees q) (hqr : q.Agrees r) : p.Agrees r :=
  ⟨hpq.id.trans hqr.id, hpq.slot.trans hqr.slot, hpq.visible.trans hqr.visible,
    BEq.trans hpq.size hqr.size, hpq.bounds.trans hqr.bounds, hpq.placement.trans hqr.placement,
    hpq.priority.trans hqr.priority⟩

theorem Agrees.visibleAt (h : p.Agrees q) (slot : Slot) : p.visibleAt slot = q.visibleAt slot := by
  simp only [Panel.visibleAt, h.visible, h.slot]

theorem not_differs_iff : ¬ p.Differs q ↔
    p.slot = q.slot ∧ p.visible = q.visible ∧ (p.size == q.size) = true := by
  simp [Differs]

end Panel

namespace Layout

variable {c : Catalogue} {l m n : Layout} {id : PanelId} {p q : Panel}

/-- Some panel of both layouts is in another slot, seen in one of them only, or of another size. -/
def Differs (l m : Layout) : Prop :=
  ∃ id p q, l.panel? id = some p ∧ m.panel? id = some q ∧ p.Differs q

/-- Only panels of both layouts are compared. -/
def differsAt (l m : Layout) (id : PanelId) : Bool :=
  match l.panel? id, m.panel? id with
  | some p, some q => p.Differs q
  | _, _ => false

theorem differsAt_iff : l.differsAt m id = true ↔
    ∃ p q, l.panel? id = some p ∧ m.panel? id = some q ∧ p.Differs q := by
  unfold differsAt
  cases l.panel? id <;> cases m.panel? id <;> simp

instance (l m : Layout) : Decidable (l.Differs m) :=
  decidable_of_iff (∃ id ∈ PanelId.all, l.differsAt m id = true) <| by
    simp only [Layout.Differs, differsAt_iff, PanelId.mem_all, true_and]

theorem Numeric.agrees_self (h : l.Numeric) : l.Agrees l where
  catalogue := rfl
  panels := List.forall₂_same.mpr fun _ hp => ⟨rfl, rfl, rfl, h.size_beq_self hp, rfl, rfl, rfl⟩

theorem Agrees.symm (h : l.Agrees m) : m.Agrees l where
  catalogue := h.catalogue.symm
  panels := (h.panels.imp fun _ _ hpq => Panel.Agrees.symm hpq).flip

theorem Agrees.trans (hlm : l.Agrees m) (hmn : m.Agrees n) : l.Agrees n where
  catalogue := hlm.catalogue.trans hmn.catalogue
  panels := by
    obtain ⟨hlen, hrel⟩ := List.forall₂_iff_get.mp hlm.panels
    obtain ⟨hlen', hrel'⟩ := List.forall₂_iff_get.mp hmn.panels
    refine List.forall₂_iff_get.mpr ⟨hlen.trans hlen', fun i hi hi' => ?_⟩
    exact (hrel i hi (hlen ▸ hi)).trans (hrel' i (hlen ▸ hi) hi')

theorem Agrees.exists_panel (h : l.Agrees m) (hp : p ∈ l.panels) :
    ∃ q ∈ m.panels, p.Agrees q := by
  obtain ⟨hlen, hrel⟩ := List.forall₂_iff_get.mp h.panels
  obtain ⟨i, hi, rfl⟩ := List.getElem_of_mem hp
  exact ⟨_, List.get_mem _ _, hrel i hi (hlen ▸ hi)⟩

/-- Panels related one by one, each to one of its own name, are related under every name. -/
theorem rel_panel? {R : Panel → Panel → Prop} (hid : ∀ p q, R p q → p.id = q.id)
    (h : List.Forall₂ R l.panels m.panels) (id : PanelId) :
    Option.Rel R (l.panel? id) (m.panel? id) := by
  unfold panel?
  generalize l.panels = ps at h
  generalize m.panels = qs at h
  induction h with
  | nil => exact .none
  | @cons p q ps qs hpq _ ih =>
    rw [List.find?_cons, List.find?_cons, hid p q hpq]
    split
    · exact .some hpq
    · exact ih

theorem Agrees.not_differs (h : l.Agrees m) : ¬ l.Differs m := by
  rintro ⟨id, p, q, hp, hq, hdiff⟩
  have hrel := rel_panel? (fun _ _ => Panel.Agrees.id) h.panels id
  rw [hp, hq] at hrel
  obtain ⟨hpq⟩ := hrel
  exact Panel.not_differs_iff.mpr ⟨hpq.slot, hpq.visible, hpq.size⟩ hdiff

/-- Agreement need only be seen under each name. -/
theorem agrees_of_panel? (hl : l.WellFormed) (hm : m.WellFormed) (hcat : l.catalogue = m.catalogue)
    (h : ∀ id, Option.Rel Panel.Agrees (l.panel? id) (m.panel? id)) : l.Agrees m where
  catalogue := hcat
  panels := by
    rw [hl.panels_eq, hm.panels_eq, hcat]
    refine List.rel_filterMap ?_ (List.forall₂_same.mpr fun id _ => rfl)
    rintro id _ rfl
    exact h id

theorem Agrees.length_holders (h : l.Agrees m) (slot : Slot) :
    (l.holders slot).length = (m.holders slot).length := by
  have hpanels := h.panels
  unfold holders
  generalize l.panels = ps at hpanels
  generalize m.panels = qs at hpanels
  induction hpanels with
  | nil => rfl
  | @cons p q ps qs hpq _ ih =>
    rw [List.filter_cons, List.filter_cons, hpq.visibleAt slot]
    split
    · rw [List.length_cons, List.length_cons, ih]
    · exact ih

theorem Agrees.conflictFree (h : l.Agrees m) (hm : m.ConflictFree) : l.ConflictFree :=
  fun slot hslot => (h.length_holders slot).trans_le (hm slot hslot)

/-- Two layouts over one catalogue have the same panels, and these stand for the same entries. -/
theorem Structured.counterpart (hl : Structured c l) (hm : Structured c m)
    (hp : l.panel? id = some p) :
    ∃ q s, m.panel? id = some q ∧ p.Follows s ∧ q.Follows s := by
  obtain ⟨s, hs, hf⟩ := hl.follows p (mem_of_panel? hp)
  obtain ⟨q, hq, hg⟩ := hm.exists_panel hs
  rw [← hf.id, panel?_id hp] at hq
  exact ⟨q, s, hq, hf, hg⟩

/-- Over one catalogue, slots, visibility and sizes are all that layouts can differ in. -/
theorem Structured.agrees_iff (hl : Structured c l) (hm : Structured c m) :
    l.Agrees m ↔ ¬ l.Differs m := by
  constructor
  · exact Agrees.not_differs
  · intro h
    refine agrees_of_panel? hl.wellFormed hm.wellFormed (hl.catalogue.trans hm.catalogue.symm)
      fun id => ?_
    cases hp : l.panel? id with
    | none =>
      have hmissing : id ∉ c.ids := hl.panel?_eq_none_iff.mp hp
      rw [hm.panel?_eq_none_iff.mpr hmissing]
      exact .none
    | some p =>
      obtain ⟨q, s, hq, hf, hg⟩ := hl.counterpart hm hp
      obtain ⟨hslot, hvisible, hsize⟩ :=
        Panel.not_differs_iff.mp fun hdiff => h ⟨id, p, q, hp, hq, hdiff⟩
      rw [hq]
      exact .some ⟨hf.id.trans hg.id.symm, hslot, hvisible, hsize, hf.bounds.trans hg.bounds.symm,
        hf.placement.trans hg.placement.symm, hf.priority.trans hg.priority.symm⟩

end Layout

end Docking
