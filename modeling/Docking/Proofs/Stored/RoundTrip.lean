import Docking.Proofs.Layout.Agreement
import Docking.Proofs.Stored.Clamp
import Docking.Proofs.Stored.Reading

/-! A layout stored and restored is the layout. What is stored of a panel, laid over the panel that
the catalogue starts with, gives the panel back, and in a conflict-free layout nothing is thinned
out. -/
namespace Docking

open Number

/-- A size that is clamped already comes back from its stored text as it was. -/
theorem Bounds.clampWide_agrees {b : Bounds} {x : Size} {w : Wide} (hfinite : x.isFinite = true)
    (hb : b.Holds x) (hw : (w.convert .single == x) = true) : (b.clampWide w == x) = true := by
  obtain ⟨k, hwk, hxk⟩ := agrees_iff.mp hw
  rw [agrees_iff]
  refine ⟨k, ?_, hxk⟩
  rw [b.rank_clampWide, rank_clampFinite_congr (hwk.trans hxk.symm), hb hfinite, hxk]

/-- What rounds to a finite size is finite itself. -/
theorem isFinite_of_convert_agrees {x : Size} {w : Wide} (hfinite : x.isFinite = true)
    (hw : (w.convert .single == x) = true) : w.isFinite = true := by
  cases w with
  | nan => exact absurd hw (by simp [agrees_iff, convert, rank])
  | infinite negative =>
    obtain ⟨k, hwk, hxk⟩ := agrees_iff.mp hw
    obtain ⟨m, hm, hle⟩ := isFinite_iff.mp hfinite
    obtain rfl := Option.some.inj (hm.symm.trans hxk)
    have hconvert := isFinite_iff.mpr ⟨m, hwk, hle⟩
    simp [convert, isFinite] at hconvert
  | finite => rfl

namespace Panel

variable {p q : Panel} {s : PanelSpec}

theorem storedName?_storedJson (p : Panel) : storedName? p.storedJson = some p.id.name := by
  simp only [storedName?, storedJson, storedMembers]
  cases p.size <;> rfl

theorem storedSlot?_storedJson (p : Panel) : storedSlot? p.storedJson = some p.slot := by
  rw [← Slot.ofName?_name p.slot]
  simp only [storedSlot?, storedJson, storedMembers]
  cases p.size <;> rfl

theorem storedSize?_storedJson {x : Size} {w : Wide} (hx : p.size = some x)
    (hw : x.reread? = some w) :
    (p.storedJson.member? "size").bind Json.number? = some w := by
  simp only [storedJson, storedMembers, hx, hw, Option.getD_some]
  rfl

theorem storedSize?_of_fixed (hx : p.size = none) :
    (p.storedJson.member? "size").bind Json.number? = none := by
  simp only [storedJson, storedMembers, hx]
  rfl

theorem overlay_visible_storedJson (p q : Panel) :
    (q.overlay p.storedJson).visible = p.visible := by
  simp only [overlay, storedJson, storedMembers]
  cases p.size <;> rfl

theorem overlay_storedJson (hp : p.Follows s) (hq : q.Follows s)
    (hsize : ∀ x ∈ p.size, x.isFinite = true ∧ x.Survives ∧ p.bounds.Holds x) :
    (q.overlay p.storedJson).Agrees p where
  id := hq.id.trans hp.id.symm
  slot := by
    have hallowed : q.placement.allows p.slot = true := hq.placement ▸ hp.allowed
    simp [overlay, overlaySlot, storedSlot?_storedJson, hallowed]
  visible := p.overlay_visible_storedJson q
  size := by
    have hsized : q.size.isSome = p.size.isSome := hq.sized.trans hp.sized.symm
    cases hx : p.size with
    | none =>
      rw [hx, Option.isSome_none, Option.isSome_eq_false_iff, Option.isNone_iff_eq_none] at hsized
      simp [overlay, overlaySize, hsized]
    | some x =>
      rw [hx, Option.isSome_some, Option.isSome_iff_exists] at hsized
      obtain ⟨y, hy⟩ := hsized
      obtain ⟨hfinite, hsurvives, hholds⟩ := hsize x hx
      obtain ⟨w, hw, hround⟩ := hsurvives.exists_reread
      have hwide := isFinite_of_convert_agrees hfinite hround
      have hbounds : q.bounds = p.bounds := hq.bounds.trans hp.bounds.symm
      simp only [overlay, overlaySize, hy, storedSize?_storedJson hx hw, hwide, if_true, hbounds]
      exact Bounds.clampWide_agrees hfinite hholds hround
  bounds := hq.bounds.trans hp.bounds.symm
  placement := hq.placement.trans hp.placement.symm
  priority := hq.priority.trans hp.priority.symm

end Panel

namespace Layout

variable {c : Catalogue} {l m : Layout} {id : PanelId}

theorem overlay_storedJson (l : Layout) (p : Panel) :
    l.overlay p.storedJson = l.modify p.id fun q => q.overlay p.storedJson := by
  simp [overlay, p.storedName?_storedJson, PanelId.ofName?_name]

/-- Each stored panel is laid over the panel of its name, and no other one touches that panel. -/
theorem panel?_foldl_overlay {ps : List Panel} (h : (ps.map Panel.id).Nodup) (l : Layout)
    (id : PanelId) : ((ps.map Panel.storedJson).foldl overlay l).panel? id =
      match ps.find? fun p => p.id = id with
      | some p => (l.panel? id).map fun q => q.overlay p.storedJson
      | none => l.panel? id := by
  induction ps generalizing l with
  | nil => rfl
  | cons p ps ih =>
    obtain ⟨hfresh, hnodup⟩ := List.nodup_cons.mp h
    have hk : KeepsId fun q => q.overlay p.storedJson := fun _ => rfl
    rw [List.map_cons, List.foldl_cons, ih hnodup, l.overlay_storedJson, panel?_modify hk]
    by_cases hid : p.id = id
    · subst hid
      have hnone : ps.find? (fun q => q.id = p.id) = none := by
        simp only [List.find?_eq_none, decide_eq_true_eq]
        exact fun q hq hid => hfresh (hid ▸ List.mem_map_of_mem hq)
      simp [hnone]
    · simp [hid, Ne.symm hid]

/-- What is stored of a layout, laid over a catalogue's panels, name by name. -/
theorem panel?_overlaid_storedItems (h : l.WellFormed) (c : Catalogue) (id : PanelId) :
    (overlaid c l.storedItems).panel? id =
      match l.panel? id with
      | some p => ((ofCatalogue c).panel? id).map fun q => q.overlay p.storedJson
      | none => (ofCatalogue c).panel? id :=
  panel?_foldl_overlay h.nodup (ofCatalogue c) id

theorem overlaid_structured (hc : c.Valid) (items : List Json) :
    Structured c (overlaid c items) :=
  overlaid_preserves (fun _ stored h => h.overlay stored) (structured_ofCatalogue hc) items

theorem panel?_ofCatalogue {s : PanelSpec} (hc : c.ids.Nodup) (hs : s ∈ c.specs) :
    (ofCatalogue c).panel? s.id = some (.ofSpec s) :=
  (ofCatalogue_wellFormed hc).panel?_of_mem (p := .ofSpec s) (List.mem_map_of_mem hs)

/-- Before any thinning out, the stored panels laid over the catalogue's give the layout back. -/
theorem overlaid_storedItems (hc : c.Valid) (hs : Structured c l) (hclamped : Clamped c l)
    (hsizes : ∀ p ∈ l.panels, ∀ x ∈ p.size, x.isFinite = true ∧ x.Survives) :
    (overlaid c l.storedItems).Agrees l := by
  have hlaid := overlaid_structured hc l.storedItems
  refine agrees_of_panel? hlaid.wellFormed hs.wellFormed
    (hlaid.catalogue.trans hs.catalogue.symm) fun id => ?_
  rw [panel?_overlaid_storedItems hs.wellFormed]
  cases hp : l.panel? id with
  | none =>
    have hmissing : id ∉ c.ids := hs.panel?_eq_none_iff.mp hp
    have hnone : (ofCatalogue c).panel? id = none :=
      (structured_ofCatalogue hc).panel?_eq_none_iff.mpr hmissing
    rw [hnone]
    exact .none
  | some p =>
    have hmem := mem_of_panel? hp
    obtain ⟨s, hspec, hf⟩ := hs.follows p hmem
    obtain rfl : s.id = id := hf.id.symm.trans (panel?_id hp)
    rw [panel?_ofCatalogue hc.nodup hspec]
    refine .some (Panel.overlay_storedJson hf (.ofSpec (hc.checked s hspec)) fun x hx => ?_)
    obtain ⟨hfinite, hsurvives⟩ := hsizes p hmem x hx
    exact ⟨hfinite, hsurvives, hclamped.holds p hmem x hx⟩

/-- Stored and restored, a conflict-free layout of a session is the layout, sizes as values. Of
numbers it takes only that the text of each size reads back as a number that rounds to the size. -/
theorem restore_storedText (hc : c.Obtainable) (hl : Reachable c l) (hfree : l.ConflictFree)
    (hsizes : ∀ p ∈ l.panels, ∀ x ∈ p.size, x.isFinite = true ∧ x.Survives) :
    (restore c l.storedText).Agrees l := by
  have hread : storedPanels l.storedText = .ok l.storedItems :=
    storedPanels_storedText fun p hp x hx => (hsizes p hp x hx).2
  have hlaid := overlaid_storedItems hc.valid (hl.structured hc.valid) (hl.clamped hc.valid) hsizes
  simp only [restore, hread, (hlaid.conflictFree hfree).thinDocks_eq]
  exact hlaid

/-- The terminal at a size that no binary fraction equals, and docs in the center. -/
def rearranged : Layout := (ofCatalogue .builtin).run
  [.reveal .terminal, .setSize .terminal (.ofDecimal false 3331 (-1)), .setSlot .docs .center,
    .reveal .docs]

theorem restore_storedText_rearranged :
    rearranged.ConflictFree ∧
      (∀ p ∈ rearranged.panels, ∀ x ∈ p.size, x.isFinite = true ∧ x.Survives) ∧
      (restore .builtin rearranged.storedText).Agrees rearranged :=
  have hl : Reachable .builtin rearranged := Reachable.fresh.run _
  have hfree : rearranged.ConflictFree := by decide +kernel
  have hsizes : ∀ p ∈ rearranged.panels, ∀ x ∈ p.size, x.isFinite = true ∧ x.Survives := by
    decide +kernel
  ⟨hfree, hsizes, restore_storedText .builtin hl hfree hsizes⟩

end Layout

end Docking
