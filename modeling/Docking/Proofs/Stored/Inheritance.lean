import Docking.Proofs.Layout.SizeBounds
import Docking.Proofs.Layout.Start
import Docking.Proofs.Stored.RoundTrip

/-! Stored layouts under another catalogue. Of the panels that both catalogues have, the new layout
takes over what the new catalogue allows; new panels start as their entries say, and panels that are
gone leave no trace. Then every dock goes to the panel that the new catalogue ranks first. -/
namespace Docking

open Number

/-- The panel of the entry, with what is left of an old panel of that name: its slot if the entry
allows it, whether it is visible, and its size within the entry's bounds if the entry has one. -/
def PanelSpec.inherit (s : PanelSpec) : Option Panel → Panel
  | none => .ofSpec s
  | some old =>
    { id := s.id
      slot := if s.placement.allows old.slot then old.slot else s.home
      visible := old.visible
      size := s.size.map fun start =>
        match old.size with
        | some x => s.bounds.clamp x
        | none => start
      bounds := s.bounds
      placement := s.placement
      priority := s.priority }

@[simp] theorem PanelSpec.id_inherit (s : PanelSpec) (old : Option Panel) :
    (s.inherit old).id = s.id := by
  cases old <;> rfl

namespace Layout

/-- Every entry's panel with what is left of an old layout, docks still crowded. -/
def inherited (c : Catalogue) (old : Layout) : Layout :=
  ⟨c, c.specs.map fun s => s.inherit (old.panel? s.id)⟩

/-- Of the visible panels in a dock only the one that outranks the others stays visible. -/
def prevailing (l : Layout) : Layout :=
  { l with panels := l.panels.map fun p => { p with visible := p.visible && l.Prevails p } }

end Layout

/-- On a size that survives in text, clamping what is read back is clamping the size. -/
theorem Bounds.Finite.clampWide_agrees_clamp {b : Bounds} {x : Size} {w : Wide} (h : b.Finite)
    (hx : x.isFinite = true) (hw : (w.convert .single == x) = true) :
    (b.clampWide w == b.clamp x) = true := by
  obtain ⟨k, hwk, hxk⟩ := agrees_iff.mp hw
  have hrank : (b.clampWide w).rank = (b.clamp x).rank := by
    rw [b.rank_clampWide, rank_clampFinite_congr (hwk.trans hxk.symm), h.rank_clamp hx]
  exact beq_of_rank_eq hrank (h.fixes_clamp hx).1

namespace Panel

variable {p : Panel} {s : PanelSpec}

/-- What is stored of an old panel, laid over the entry's panel, gives what is left of it. -/
theorem overlay_agrees_inherit (hb : s.bounds.Finite) (hs : ∀ x ∈ s.size, x.isFinite = true)
    (hsize : ∀ x ∈ p.size, x.isFinite = true ∧ x.Survives) :
    ((Panel.ofSpec s).overlay p.storedJson).Agrees (s.inherit (some p)) where
  id := rfl
  slot := by
    simp only [overlay, overlaySlot, storedSlot?_storedJson]
    rfl
  visible := p.overlay_visible_storedJson (.ofSpec s)
  size := by
    cases hstart : s.size with
    | none => simp [overlay, overlaySize, ofSpec, PanelSpec.inherit, hstart]
    | some start =>
      cases hx : p.size with
      | none =>
        simp only [overlay, overlaySize, ofSpec, PanelSpec.inherit, hstart, hx,
          storedSize?_of_fixed hx]
        exact beq_of_rank_eq rfl (hs start hstart)
      | some x =>
        -- the new bounds clamp what is read back while it is wide, and only then it is rounded
        obtain ⟨hfinite, hsurvives⟩ := hsize x hx
        obtain ⟨w, hw, hround⟩ := hsurvives.exists_reread
        have hwide := isFinite_of_convert_agrees hfinite hround
        simp only [overlay, overlaySize, ofSpec, PanelSpec.inherit, hstart, hx,
          storedSize?_storedJson hx hw, hwide, if_true]
        exact hb.clampWide_agrees_clamp hfinite hround
  bounds := rfl
  placement := rfl
  priority := rfl

theorem agrees_ofSpec (hs : ∀ x ∈ s.size, x.isFinite = true) :
    (Panel.ofSpec s).Agrees (.ofSpec s) := by
  refine ⟨rfl, rfl, rfl, ?_, rfl, rfl, rfl⟩
  change (s.size == s.size) = true
  cases hstart : s.size with
  | none => rfl
  | some start => exact beq_of_rank_eq rfl (hs start hstart)

end Panel

namespace Layout

variable {c : Catalogue} {l m : Layout} {p q : Panel}

theorem inherited_wellFormed (hc : c.ids.Nodup) (old : Layout) : (inherited c old).WellFormed :=
  ⟨List.map_map.trans (List.map_congr_left fun s _ => s.id_inherit _), hc⟩

theorem panel?_inherited {s : PanelSpec} (hc : c.ids.Nodup) (old : Layout) (hs : s ∈ c.specs) :
    (inherited c old).panel? s.id = some (s.inherit (old.panel? s.id)) := by
  have hlook := (inherited_wellFormed hc old).panel?_of_mem (List.mem_map_of_mem hs)
  rwa [PanelSpec.id_inherit] at hlook

/-- Before docks are thinned out, the stored panels laid over the new catalogue's are what it
inherits. -/
theorem overlaid_agrees_inherited (hc : c.Valid) (hf : c.FiniteSizes) (h : l.WellFormed)
    (hsizes : ∀ p ∈ l.panels, ∀ x ∈ p.size, x.isFinite = true ∧ x.Survives) :
    (overlaid c l.storedItems).Agrees (inherited c l) := by
  have hlaid := overlaid_structured hc l.storedItems
  have hleft := inherited_wellFormed hc.nodup l
  refine agrees_of_panel? hlaid.wellFormed hleft hlaid.catalogue fun id => ?_
  by_cases hid : id ∈ c.ids
  · obtain ⟨s, hs, rfl⟩ := List.mem_map.mp hid
    obtain ⟨hbounds, hstart⟩ := hf s hs
    have hentry := panel?_ofCatalogue hc.nodup hs
    rw [panel?_inherited hc.nodup l hs, panel?_overlaid_storedItems h, hentry]
    cases hp : l.panel? s.id with
    | none => exact .some (Panel.agrees_ofSpec hstart)
    | some p =>
      have hread := hsizes p (mem_of_panel? hp)
      exact .some (Panel.overlay_agrees_inherit hbounds hstart hread)
  · have hnone : (inherited c l).panel? id = none := hleft.panel?_eq_none_iff.mpr hid
    rw [hlaid.panel?_eq_none_iff.mpr hid, hnone]
    exact .none

theorem outranks_congr {r t : Panel} (hpq : p.Agrees q) (hrt : r.Agrees t) :
    p.Outranks c r ↔ q.Outranks c t := by
  unfold Panel.Outranks
  rw [hpq.id, hpq.priority, hrt.id, hrt.priority]

theorem Agrees.prevails (h : l.Agrees m) (hpq : p.Agrees q) (hp : l.Prevails p) : m.Prevails q := by
  unfold Prevails at hp ⊢
  rw [← hpq.slot, ← hpq.id, ← h.catalogue]
  refine hp.imp_right fun hall t ht hne => ?_
  obtain ⟨hmem, hv⟩ := mem_holders.mp ht
  obtain ⟨r, hr, htr⟩ := h.symm.exists_panel hmem
  have hat : r.visibleAt p.slot = true := (htr.visibleAt p.slot).symm.trans hv
  have hranked := hall r (mem_holders.mpr ⟨hr, hat⟩) (htr.id ▸ hne)
  exact (outranks_congr hpq htr.symm).mp hranked

/-- Layouts that agree are thinned out alike. -/
theorem Agrees.prevailing (h : l.Agrees m) : l.prevailing.Agrees m.prevailing where
  catalogue := h.catalogue
  panels := by
    unfold Layout.prevailing
    rw [List.forall₂_map_left_iff, List.forall₂_map_right_iff]
    refine h.panels.imp fun p q hpq => { hpq with visible := ?_ }
    have hprevails : l.Prevails p ↔ m.Prevails q := ⟨h.prevails hpq, h.symm.prevails hpq.symm⟩
    simp only [hpq.visible, hprevails]

theorem restore_storedText_eq (hc : c.Valid)
    (h : ∀ p ∈ l.panels, ∀ x ∈ p.size, x.isFinite = true ∧ x.Survives) :
    restore c l.storedText = (overlaid c l.storedItems).prevailing := by
  have hread : storedPanels l.storedText = .ok l.storedItems :=
    storedPanels_storedText fun p hp x hx => (h p hp x hx).2
  simp only [restore, hread]
  exact (overlaid_structured hc l.storedItems).wellFormed.thinDocks_eq

/-- Panels that the catalogue does not have make no difference. -/
theorem overlaid_storedItems_congr (hc : c.Valid) (hl : l.WellFormed) (hm : m.WellFormed)
    (h : ∀ id ∈ c.ids, m.panel? id = l.panel? id) :
    overlaid c m.storedItems = overlaid c l.storedItems := by
  have hleft := overlaid_structured hc m.storedItems
  have hright := overlaid_structured hc l.storedItems
  refine hleft.wellFormed.ext hright.wellFormed (hleft.catalogue.trans hright.catalogue.symm)
    fun id => ?_
  by_cases hid : id ∈ c.ids
  · rw [panel?_overlaid_storedItems hm, panel?_overlaid_storedItems hl, h id hid]
  · rw [hleft.panel?_eq_none_iff.mpr hid, hright.panel?_eq_none_iff.mpr hid]

/-- What a layout of one catalogue stored, restored over another one. Laid over the new catalogue's
panels it gives what they inherit; a panel that the old catalogue does not have starts as its entry
says. Of the panels then visible in a dock the one that the new catalogue ranks first stays so.
Panels that the new catalogue does not have make no difference, whatever else was stored. -/
theorem restore_storedText_across {old new : Catalogue} (hold : old.Obtainable)
    (hnew : new.Obtainable) (hf : new.FiniteSizes) {l : Layout} (hl : Reachable old l)
    (hsizes : ∀ p ∈ l.panels, ∀ x ∈ p.size, x.isFinite = true ∧ x.Survives) :
    (∃ items, storedPanels l.storedText = .ok items ∧
      (overlaid new items).Agrees (inherited new l)) ∧
    (∀ s ∈ new.specs, s.id ∉ old.ids → (inherited new l).panel? s.id = some (.ofSpec s)) ∧
    (restore new l.storedText).Agrees (inherited new l).prevailing ∧
    ∀ m : Layout, m.WellFormed →
      (∀ p ∈ m.panels, ∀ x ∈ p.size, x.isFinite = true ∧ x.Survives) →
      (∀ id ∈ new.ids, m.panel? id = l.panel? id) →
        restore new m.storedText = restore new l.storedText := by
  have hs := hl.structured hold.valid
  have hlaid := overlaid_agrees_inherited hnew.valid hf hs.wellFormed hsizes
  refine ⟨⟨l.storedItems, ?_, hlaid⟩, ?_, ?_, ?_⟩
  · exact storedPanels_storedText fun p hp x hx => (hsizes p hp x hx).2
  · intro s hspec hmissing
    have hnone : l.panel? s.id = none := hs.panel?_eq_none_iff.mpr hmissing
    rw [panel?_inherited hnew.valid.nodup l hspec, hnone]
    rfl
  · rw [restore_storedText_eq hnew.valid hsizes]
    exact hlaid.prevailing
  · intro m hm hstored hsame
    rw [restore_storedText_eq hnew.valid hstored, restore_storedText_eq hnew.valid hsizes,
      overlaid_storedItems_congr hnew.valid hs.wellFormed hm hsame]

def earlier : Catalogue := Catalogue.builtin.restrict [.terminal, .docs, .settings]

/-- Docs wide in the center, settings on the right and the terminal, all of them visible. -/
def outgrown : Layout := (ofCatalogue earlier).run
  [.setSlot .docs .center, .reveal .docs, .setSize .docs 700, .reveal .settings, .reveal .terminal]

/-- Docs kept to the sides, narrower and ranked below settings, and the file tree shown. -/
def tightened : List PanelOverride :=
  [{ id := "docs", upper := some 450, allowed := some ["right", "left"], priority := some 40 },
    { id := "file-tree", shown := some true }]

def later : Catalogue :=
  ((Catalogue.builtin.override tightened).toOption.getD .builtin).restrict
    [.fileTree, .docs, .settings]

theorem later_obtainable : later.Obtainable := by
  refine .restrict _ ?_
  cases h : Catalogue.builtin.override tightened with
  | ok c => exact .override .builtin h
  | error _ => exact .builtin

theorem restore_storedText_across_outgrown :
    (restore later outgrown.storedText).Agrees (inherited later outgrown).prevailing ∧
      ((inherited later outgrown).prevailing.panels.map fun p => (p.id, p.slot, p.visible)) =
        [(.fileTree, .left, true), (.docs, .right, false), (.settings, .right, true)] ∧
      ((inherited later outgrown).panel? .docs).any (fun p => p.size == some 450) = true :=
  have hl : Reachable earlier outgrown := Reachable.fresh.run _
  have hf : later.FiniteSizes := by decide +kernel
  have hsizes : ∀ p ∈ outgrown.panels, ∀ x ∈ p.size, x.isFinite = true ∧ x.Survives := by
    decide +kernel
  have hacross :=
    restore_storedText_across (.restrict _ .builtin) later_obtainable hf hl hsizes
  ⟨hacross.2.2.1, by decide +kernel, by decide +kernel⟩

end Layout

end Docking
