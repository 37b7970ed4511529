import Docking.Proofs.Layout.Structure
import Docking.Proofs.Layout.Thinning

/-! The layouts a session starts with. A stored list of panels is thinned out, whatever it says, so
it starts without conflict. The layout of the catalogue is taken as it stands, and it is without
conflict exactly when no two entries start visible in one dock. -/
namespace Docking

/-- No two entries start visible in one dock. -/
def Catalogue.StartsApart (c : Catalogue) : Prop :=
  ∀ s ∈ c.specs, ∀ t ∈ c.specs, s.shown = true → t.shown = true → s.home = t.home →
    s.home.isDock = true → s.id = t.id

instance (c : Catalogue) : Decidable c.StartsApart :=
  inferInstanceAs (Decidable (∀ s ∈ c.specs, ∀ t ∈ c.specs, _))

namespace Layout

variable {c : Catalogue} {slot : Slot}

theorem mem_holders_ofCatalogue {p : Panel} : p ∈ (ofCatalogue c).holders slot ↔
    ∃ s ∈ c.specs, Panel.ofSpec s = p ∧ s.shown = true ∧ s.home = slot := by
  rw [mem_holders, ofCatalogue, List.mem_map]
  constructor
  · rintro ⟨⟨s, hs, rfl⟩, hv⟩
    exact ⟨s, hs, rfl, visibleAt_iff.mp hv⟩
  · rintro ⟨s, hs, rfl, hv⟩
    exact ⟨⟨s, hs, rfl⟩, visibleAt_iff.mpr hv⟩

theorem conflictFree_ofCatalogue_iff (hc : c.ids.Nodup) :
    (ofCatalogue c).ConflictFree ↔ c.StartsApart := by
  rw [(ofCatalogue_wellFormed hc).conflictFree_iff]
  constructor
  · intro hone s hs t ht hshown hshown' hhome hd
    exact hone s.home hd (.ofSpec s) (mem_holders_ofCatalogue.mpr ⟨s, hs, rfl, hshown, rfl⟩)
      (.ofSpec t) (mem_holders_ofCatalogue.mpr ⟨t, ht, rfl, hshown', hhome.symm⟩)
  · intro hapart slot hd p hp q hq
    obtain ⟨s, hs, rfl, hshown, rfl⟩ := mem_holders_ofCatalogue.mp hp
    obtain ⟨t, ht, rfl, hshown', hhome⟩ := mem_holders_ofCatalogue.mp hq
    exact hapart s hs t ht hshown hshown' hhome.symm hd

theorem overlaid_wellFormed (hc : c.ids.Nodup) (items : List Json) :
    (overlaid c items).WellFormed := by
  refine overlaid_preserves (fun l stored h => ?_) (ofCatalogue_wellFormed hc) items
  rcases overlay_cases l stored with heq | ⟨id, -, heq⟩
  · rwa [heq]
  · rw [heq]
    exact h.modify fun _ => rfl

/-- Restoring a list of panels ends without conflict, whatever the catalogue starts with. -/
theorem conflictFree_restore {text : String} {items : List Json} (hc : c.ids.Nodup)
    (h : storedPanels text = .ok items) : (restore c text).ConflictFree := by
  simp only [restore, h]
  exact (overlaid_wellFormed hc items).conflictFree_thinDocks

theorem restore_of_error {text : String} {fault : StoredFault}
    (h : storedPanels text = .error fault) : restore c text = ofCatalogue c := by
  simp only [restore, h]

/-- Which starting layouts are conflict-free: those restored from a list of panels always, the
catalogue's own, by whatever way it is reached, exactly if no two entries start visible in one
dock. -/
theorem conflictFree_start_iff {specs : List PanelSpec} {c : Catalogue}
    (hc : Catalogue.ofSpecs specs = .ok c) :
    ((ofCatalogue c).ConflictFree ↔ c.StartsApart) ∧
      (∀ l : Layout, l.catalogue = c → (l.reset.1.ConflictFree ↔ c.StartsApart)) ∧
      ∀ text, (restore c text).ConflictFree ↔
        (∃ items, storedPanels text = .ok items) ∨ c.StartsApart := by
  have hnodup := (Catalogue.valid_of_ofSpecs hc).nodup
  have hfresh := conflictFree_ofCatalogue_iff hnodup
  refine ⟨hfresh, ?_, ?_⟩
  · rintro l rfl
    exact hfresh
  · intro text
    cases h : storedPanels text with
    | ok items => simp [conflictFree_restore hnodup h]
    | error fault => simp [restore_of_error h, hfresh]

end Layout

namespace Catalogue

def showing (c : Catalogue) (ids : List PanelId) : Catalogue :=
  ⟨c.specs.map fun s => { s with shown := s.shown || ids.contains s.id }⟩

/-- Which panels start visible is not checked. -/
theorem Valid.showing {c : Catalogue} (h : c.Valid) (ids : List PanelId) :
    (c.showing ids).Valid where
  nodup := by
    rw [Catalogue.ids, Catalogue.showing, List.map_map]
    exact h.nodup
  checked := by
    intro s hs
    obtain ⟨t, ht, rfl⟩ := List.mem_map.mp hs
    exact h.checked t ht
  clamped := by
    intro s hs
    obtain ⟨t, ht, rfl⟩ := List.mem_map.mp hs
    have hsize : t.clamped.size = t.size := congrArg PanelSpec.size (h.clamped t ht)
    simp only [PanelSpec.clamped] at hsize ⊢
    rw [hsize]

end Catalogue

namespace Layout

/-- The shipped catalogue, the file tree and the search visible on the left from the start. -/
def leftShared : Catalogue := Catalogue.builtin.showing [.fileTree, .search]

theorem leftShared_valid : leftShared.Valid := Catalogue.builtin_valid.showing _

theorem conflictFree_start_iff_leftShared :
    Catalogue.ofSpecs leftShared.specs = .ok leftShared ∧
      ((restore leftShared "").ConflictFree ↔
        (∃ items, storedPanels "" = .ok items) ∨ leftShared.StartsApart) :=
  have hc := leftShared_valid.ofSpecs_specs
  ⟨hc, (conflictFree_start_iff hc).2.2 ""⟩

/-- Not every starting layout is conflict-free: two entries may start visible in one dock, and only
a stored list of panels is thinned out. -/
theorem start_in_conflict :
    Catalogue.ofSpecs leftShared.specs = .ok leftShared ∧
      ¬ (ofCatalogue leftShared).ConflictFree ∧
      ¬ (ofCatalogue leftShared).reset.1.ConflictFree ∧
      ¬ (restore leftShared "").ConflictFree ∧
      ¬ (restore leftShared "\x7b\x7d").ConflictFree := by
  have hfresh : ¬ (ofCatalogue leftShared).ConflictFree := by decide +kernel
  have hempty : storedPanels "" = .error .malformed := rfl
  have hlistless : storedPanels "\x7b\x7d" = .error .noPanels := rfl
  refine ⟨leftShared_valid.ofSpecs_specs, hfresh, hfresh, ?_, ?_⟩
  · rwa [restore_of_error hempty]
  · rwa [restore_of_error hlistless]

end Layout

end Docking
