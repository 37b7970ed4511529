import Docking.Proofs.Catalogue.Obtainable
import Docking.Proofs.Layout.Reachable

/-! What the catalogue fixes about a layout. Every layout a session can come to has one panel for
each entry and no other; a panel keeps what its entry owns, has a size exactly when the entry has
one, and sits in an allowed slot or is put away. -/
namespace Docking

variable {c : Catalogue} {l after : Layout} {id : PanelId} {p : Panel} {s : PanelSpec} {slot : Slot}

structure Panel.Follows (p : Panel) (s : PanelSpec) : Prop where
  id : p.id = s.id
  priority : p.priority = s.priority
  bounds : p.bounds = s.bounds
  placement : p.placement = s.placement
  sized : p.size.isSome = s.size.isSome
  allowed : s.placement.allows p.slot = true

namespace Panel.Follows

theorem ofSpec (h : s.check = .ok ()) : (Panel.ofSpec s).Follows s :=
  ⟨rfl, rfl, rfl, rfl, rfl, (PanelSpec.check_eq_ok_iff.mp h).1⟩

theorem concealed (h : p.Follows s) : p.concealed.Follows s := { h with }

theorem revealed (h : p.Follows s) : p.revealed.Follows s := { h with }

theorem assigned (h : p.Follows s) (ha : p.placement.allows slot = true) :
    (p.assigned slot).Follows s := { h with allowed := h.placement ▸ ha }

theorem placed (h : p.Follows s) (ha : p.placement.allows slot = true) :
    (p.placed slot).Follows s := { h with allowed := h.placement ▸ ha }

theorem resized (h : p.Follows s) (hs : p.size.isSome = true) (requested : Size) :
    (p.resized requested).Follows s := { h with sized := hs.symm.trans h.sized }

theorem overlay (h : p.Follows s) (stored : Json) : (p.overlay stored).Follows s where
  id := h.id
  priority := h.priority
  bounds := h.bounds
  placement := h.placement
  sized := by
    rw [← h.sized]
    simp only [Panel.overlay, overlaySize]
    split <;> simp_all
  allowed := by
    rw [← h.placement]
    have hold := h.placement ▸ h.allowed
    simp only [Panel.overlay, overlaySlot]
    split
    · split <;> assumption
    · exact hold

end Panel.Follows

namespace Layout

structure Structured (c : Catalogue) (l : Layout) : Prop where
  catalogue : l.catalogue = c
  wellFormed : l.WellFormed
  follows : ∀ p ∈ l.panels, ∃ s ∈ c.specs, p.Follows s

/-- A name stands for no panel exactly if the catalogue does not have it. -/
theorem Structured.panel?_eq_none_iff (h : Structured c l) : l.panel? id = none ↔ id ∉ c.ids := by
  rw [h.wellFormed.panel?_eq_none_iff, h.catalogue]

/-- Every entry has its panel. -/
theorem Structured.exists_panel (h : Structured c l) (hs : s ∈ c.specs) :
    ∃ p, l.panel? s.id = some p ∧ p.Follows s := by
  have hmem : s.id ∈ c.ids := List.mem_map_of_mem hs
  cases hp : l.panel? s.id with
  | none => exact absurd hmem (h.panel?_eq_none_iff.mp hp)
  | some p =>
    obtain ⟨t, ht, hf⟩ := h.follows p (mem_of_panel? hp)
    have hnodup : c.ids.Nodup := h.catalogue ▸ h.wellFormed.2
    obtain rfl := List.inj_on_of_nodup_map hnodup ht hs (hf.id.symm.trans (panel?_id hp))
    exact ⟨p, rfl, hf⟩

theorem structured_ofCatalogue (hc : c.Valid) : Structured c (ofCatalogue c) where
  catalogue := rfl
  wellFormed := ofCatalogue_wellFormed hc.nodup
  follows := by
    intro p hp
    obtain ⟨s, hs, rfl⟩ := List.mem_map.mp hp
    exact ⟨s, hs, .ofSpec (hc.checked s hs)⟩

theorem Structured.modify (h : Structured c l) {change : Panel → Panel} (hk : KeepsId change)
    (hchange : ∀ p ∈ l.panels, p.id = id → ∀ s ∈ c.specs, p.Follows s → (change p).Follows s) :
    Structured c (l.modify id change) where
  catalogue := h.catalogue
  wellFormed := h.wellFormed.modify hk
  follows := by
    intro q hq
    rcases mem_modify hq with ⟨p, hp, hid, rfl⟩ | ⟨hp, -⟩
    · obtain ⟨s, hs, hf⟩ := h.follows p hp
      exact ⟨s, hs, hchange p hp hid s hs hf⟩
    · exact h.follows q hp

/-- A change of the panel that a name stands for need only be judged at that panel. -/
theorem Structured.modify_of_panel? (h : Structured c l) (hp : l.panel? id = some p)
    {change : Panel → Panel} (hk : KeepsId change)
    (hchange : ∀ s ∈ c.specs, p.Follows s → (change p).Follows s) :
    Structured c (l.modify id change) := by
  refine h.modify hk fun q hq hid => ?_
  obtain rfl : q = p := h.wellFormed.eq_of_panel? hp hq hid
  exact hchange

theorem Structured.overlay (h : Structured c l) (stored : Json) :
    Structured c (l.overlay stored) := by
  rcases overlay_cases l stored with heq | ⟨id, -, heq⟩
  · rwa [heq]
  · rw [heq]
    exact h.modify (fun _ => rfl) fun p _ _ s _ hf => hf.overlay stored

/-- An occupant that makes room goes to its preferred slot, which its entry was checked to allow. -/
theorem Structured.allows_preferred (hc : c.Valid) (h : Structured c l) (hp : p ∈ l.panels) :
    p.placement.allows p.placement.preferred = true := by
  obtain ⟨s, hs, hf⟩ := h.follows p hp
  rw [hf.placement]
  exact (PanelSpec.check_eq_ok_iff.mp (hc.checked s hs)).2.1

theorem Structured.step (hc : c.Valid) {m : Message} (h : Structured c l) (hs : l.Step m after) :
    Structured c after := by
  cases hs with
  | idle => exact h
  | conceal _ hp _ =>
    exact h.modify_of_panel? hp Panel.keepsId_concealed fun _ _ hf => hf.concealed
  | reveal _ hp _ _ =>
    exact h.modify_of_panel? hp Panel.keepsId_revealed fun _ _ hf => hf.revealed
  | resize _ hp hsize _ =>
    exact h.modify_of_panel? hp (Panel.keepsId_resized _)
      fun _ _ hf => hf.resized (by simp [hsize]) _
  | assign hp ha =>
    exact h.modify_of_panel? hp (Panel.keepsId_assigned _) fun _ _ hf => hf.assigned ha
  | land hp ha _ =>
    exact h.modify_of_panel? hp (Panel.keepsId_placed _) fun _ _ hf => hf.placed ha
  | @relocate id slot _ p o hp ha ho =>
    obtain ⟨-, hmem, hne⟩ := occupant?_eq_some ho
    have hplaced := h.modify_of_panel? hp (Panel.keepsId_placed slot) fun _ _ hf => hf.placed ha
    have hstay : (l.modify id (Panel.placed slot)).panel? o.id = some o :=
      (panel?_modify_of_ne (Panel.keepsId_placed slot) hne).trans
        (h.wellFormed.panel?_of_mem (mem_holders.mp hmem).1)
    exact hplaced.modify_of_panel? hstay (Panel.keepsId_placed _)
      fun _ _ hf => hf.placed (h.allows_preferred hc (mem_holders.mp hmem).1)
  | evict hp ha _ _ =>
    have hplaced := h.modify_of_panel? hp (Panel.keepsId_placed _) fun _ _ hf => hf.placed ha
    exact hplaced.modify Panel.keepsId_concealed fun _ _ _ _ _ hf => hf.concealed
  | hideAll =>
    refine ⟨h.catalogue, h.wellFormed.concealAll, ?_⟩
    intro p hp
    obtain ⟨q, hq, rfl⟩ := List.mem_map.mp hp
    obtain ⟨s, hs, hf⟩ := h.follows q hq
    exact ⟨s, hs, hf.concealed⟩
  | reset =>
    rw [h.catalogue]
    exact structured_ofCatalogue hc

theorem Reachable.structured (hl : Reachable c l) (hc : c.Valid) : Structured c l :=
  hl.preserves (fun _ stored h => h.overlay stored) (fun _ _ _ h hs => h.step hc hs)
    (structured_ofCatalogue hc)

/-- In every layout of a session over a catalogue that can be built there is one panel for each
entry, under its own name, and no other. It has the entry's priority, bounds and placement, a size
exactly when the entry has one, and it is put away or in an allowed slot. -/
theorem reachable_structure {c : Catalogue} (hc : c.Obtainable) {l : Layout}
    (hl : Reachable c l) :
    l.catalogue = c ∧ l.panels.map Panel.id = c.ids ∧ c.ids.Nodup ∧
      (∀ id, l.panel? id = none ↔ c.spec? id = none) ∧
      ∀ id p s, l.panel? id = some p → c.spec? id = some s →
        p.id = id ∧ p.priority = s.priority ∧ p.bounds = s.bounds ∧ p.placement = s.placement ∧
          (p.size.isSome ↔ s.size.isSome) ∧
          (p.slot = .hidden ∨ p.slot ∈ s.placement.allowed) := by
  have hs := hl.structured hc.valid
  obtain ⟨hids, hnodup⟩ := hs.wellFormed
  rw [hs.catalogue] at hids hnodup
  refine ⟨hs.catalogue, hids, hnodup, ?_, ?_⟩
  · intro id
    rw [hs.wellFormed.panel?_eq_none_iff, hs.catalogue, spec?_eq_none_iff]
  · intro id p s hp hspec
    obtain ⟨hmem, rfl⟩ := spec?_eq_some hspec
    obtain ⟨t, ht, hf⟩ := hs.follows p (mem_of_panel? hp)
    have hst : t = s :=
      List.inj_on_of_nodup_map hnodup ht hmem (hf.id.symm.trans (panel?_id hp))
    subst hst
    exact ⟨hf.id, hf.priority, hf.bounds, hf.placement, by rw [hf.sized],
      Placement.allows_iff.mp hf.allowed⟩

/-- Docs restored on the left, where the terminal is then forced in and docs give way. -/
def restoredDocs : Layout :=
  (restore .builtin
    "\x7b\"panels\":[\x7b\"id\":\"docs\",\"slot\":\"left\",\"isVisible\":true\x7d]\x7d").perform
    (.move .terminal .left .forced)

theorem reachable_structure_restored :
    Catalogue.builtin.Obtainable ∧ Reachable .builtin restoredDocs ∧
      restoredDocs.panels.map Panel.id = Catalogue.builtin.ids :=
  have hl : Reachable .builtin restoredDocs := .performed _ (.restored _)
  ⟨.builtin, hl, (reachable_structure .builtin hl).2.1⟩

end Layout

end Docking
