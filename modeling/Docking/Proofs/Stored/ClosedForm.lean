import Docking.Proofs.Json.Finite
import Docking.Proofs.Layout.Start

/-! Restoring in closed form. Of each field of a panel the last stored value that is well given
counts, and of the panels then asked to be visible in a dock the one that outranks the others is.
The layout so described is said without laying entries over panels in turn and without sorting. -/
namespace Docking

structure Remark where
  slot : Option Slot
  visible : Option Bool
  size : Option Wide

namespace Remark

/-- A field of another type than it should have is left out, and so is a text that is the name of no
slot. -/
def read (entry : Json) : Remark where
  slot := Slot.all.find? fun slot => (entry.member? "slot").bind Json.string? = some slot.name
  visible := (entry.member? "isVisible").bind Json.bool?
  size := (entry.member? "size").bind Json.number?

/-- What the entries with the name of the panel say of it, in their order. -/
def about (entries : List Json) (id : PanelId) : List Remark :=
  (entries.filter fun entry => (entry.member? "id").bind Json.string? = some id.name).map read

/-- The last value that a remark gives, or else the default. -/
def last {α : Type} (field : Remark → Option α) (rs : List Remark) (default : α) : α :=
  (rs.filterMap field).getLast?.getD default

end Remark

namespace PanelSpec

/-- The least size of the entry as a wide number, zero if it gives none. -/
def least (s : PanelSpec) : Wide :=
  match s.bounds.lower with
  | some lower => lower.convert .double
  | none => 0

def greatest (s : PanelSpec) : Wide :=
  match s.bounds.upper with
  | some upper => upper.convert .double
  | none => (Number.top : Size).convert .double

/-- The panel as the remarks ask for it. A slot counts if the panel may go there. A size counts if
the panel has one; it is brought between the bounds and rounded then. -/
def asked (s : PanelSpec) (rs : List Remark) : Panel where
  id := s.id
  slot := Remark.last (fun r => r.slot.filter s.placement.allows) rs s.home
  visible := Remark.last Remark.visible rs s.shown
  size := s.size.map (Remark.last
    (fun r => r.size.map fun x => ((x.max s.least).min s.greatest).convert .single) rs)
  bounds := s.bounds
  placement := s.placement
  priority := s.priority

end PanelSpec

namespace Layout

/-- Every panel as the entries ask for it, docks still crowded. -/
def requested (c : Catalogue) (entries : List Json) : Layout :=
  ⟨c, c.specs.map fun s => s.asked (Remark.about entries s.id)⟩

/-- Of the panels asked to be visible those are that prevail. -/
def settled (c : Catalogue) (entries : List Json) : Layout :=
  let l := requested c entries
  { l with panels := l.panels.map fun p => { p with visible := p.visible && l.Prevails p } }

end Layout

/-- The text is a JSON object whose panels are the list of these entries. -/
def ListsPanels (text : String) (entries : List Json) : Prop :=
  ∃ members, Json.ofText? text = some (.object members) ∧
    (Json.object members).member? "panels" = some (.array entries)

theorem listsPanels_iff {text : String} {entries : List Json} :
    ListsPanels text entries ↔ storedPanels text = .ok entries := by
  unfold storedPanels
  constructor
  · rintro ⟨members, htext, hpanels⟩
    simp [htext, hpanels, Json.array?]
  · intro h
    split at h
    · simp at h
    · next value htext =>
      split at h
      · simp at h
      · next hitems =>
        obtain rfl := Except.ok.inj h
        obtain ⟨field, hfield, harray⟩ := Option.bind_eq_some_iff.mp hitems
        cases field with
        | array items =>
          obtain rfl := Option.some.inj harray
          cases value with
          | object members => exact ⟨members, htext, hfield⟩
          | _ => simp [Json.member?] at hfield
        | _ => simp [Json.array?] at harray

namespace Remark

variable {α : Type} {entry : Json} {id : PanelId}

theorem last_append (field : Remark → Option α) (rs : List Remark) (r : Remark) (default : α) :
    last field (rs ++ [r]) default = (field r).getD (last field rs default) := by
  unfold last
  cases h : field r <;> simp [h]

/-- The texts that are read as a slot are the names of slots. -/
theorem slot_read (entry : Json) : (read entry).slot = Panel.storedSlot? entry := by
  rw [read, Panel.storedSlot?]
  cases (entry.member? "slot").bind Json.string? with
  | none => rfl
  | some text =>
    simp only [Option.bind_some, Option.some.injEq, Slot.ofName?, eq_comm (a := text)]
    rfl

theorem about_append_of_named (h : storedName? entry = some id.name) (entries : List Json) :
    about (entries ++ [entry]) id = about entries id ++ [read entry] := by
  rw [storedName?] at h
  simp [about, h]

theorem about_append_of_unnamed (h : storedName? entry ≠ some id.name) (entries : List Json) :
    about (entries ++ [entry]) id = about entries id := by
  rw [storedName?] at h
  simp [about, h]

end Remark

namespace PanelSpec

variable {entry : Json}

theorem clampWide_eq (s : PanelSpec) (x : Wide) :
    s.bounds.clampWide x = ((x.max s.least).min s.greatest).convert .single := by
  unfold Bounds.clampWide least greatest
  cases s.bounds.lower <;> cases s.bounds.upper <;> rfl

/-- A further remark is laid over the panel as the earlier ones ask for it. -/
theorem asked_append (hfinite : ∀ x, (entry.member? "size").bind Json.number? = some x →
    x.isFinite = true) (s : PanelSpec) (rs : List Remark) :
    s.asked (rs ++ [Remark.read entry]) = (s.asked rs).overlay entry := by
  unfold asked Panel.overlay
  simp only [Remark.last_append, Panel.mk.injEq, true_and, and_true]
  refine ⟨?_, rfl, ?_⟩
  · rw [Remark.slot_read, Panel.overlaySlot]
    split
    · next slot hslot =>
      rw [hslot]
      by_cases ha : s.placement.allows slot = true <;> simp [Option.filter, ha]
    · next hslot => simp [hslot]
  · simp only [Panel.overlaySize, Remark.read]
    cases hsize : s.size with
    | none => rfl
    | some size =>
      cases hx : (entry.member? "size").bind Json.number? with
      | none => simp [Remark.last_append]
      | some x => simp [Remark.last_append, hfinite x hx, clampWide_eq]

theorem asked_nil (s : PanelSpec) : s.asked [] = .ofSpec s := by
  simp only [asked, Panel.ofSpec, Panel.mk.injEq, true_and, and_true]
  exact ⟨rfl, rfl, Option.map_id'⟩

end PanelSpec

namespace Layout

variable {c : Catalogue} {entries : List Json} {entry : Json}

theorem overlaid_append (c : Catalogue) (entries : List Json) (entry : Json) :
    overlaid c (entries ++ [entry]) = (overlaid c entries).overlay entry := by
  simp [overlaid]

theorem requested_nil (c : Catalogue) : requested c [] = ofCatalogue c := by
  simp only [requested, ofCatalogue, Remark.about, List.filter_nil, List.map_nil,
    PanelSpec.asked_nil]

theorem requested_append (hentry : entry.Finite) (c : Catalogue) (entries : List Json) :
    requested c (entries ++ [entry]) = (requested c entries).overlay entry := by
  have hsize : ∀ x, (entry.member? "size").bind Json.number? = some x → x.isFinite = true := by
    intro x hx
    obtain ⟨field, hfield, hx⟩ := Option.bind_eq_some_iff.mp hx
    exact (hentry.member? hfield).number? hx
  unfold overlay
  cases hid : (storedName? entry).bind PanelId.ofName? with
  | none =>
    have hunnamed : ∀ id : PanelId, storedName? entry ≠ some id.name := by
      intro id hname
      simp [hname, PanelId.ofName?_name] at hid
    simp only [requested, Remark.about_append_of_unnamed (hunnamed _)]
  | some id =>
    obtain ⟨text, hname, htext⟩ := Option.bind_eq_some_iff.mp hid
    rw [PanelId.ofName?_eq_some_iff.mp htext] at hname
    simp only [requested, Layout.modify, List.map_map, Layout.mk.injEq, true_and]
    refine List.map_congr_left fun s _ => ?_
    have hself : (s.asked (Remark.about entries s.id)).id = s.id := rfl
    rw [Function.comp_apply, hself]
    by_cases hs : s.id = id
    · rw [if_pos hs, Remark.about_append_of_named (hs ▸ hname), PanelSpec.asked_append hsize]
    · have hother : storedName? entry ≠ some s.id.name := fun h =>
        hs (PanelId.eq_of_name_eq (Option.some.inj (h.symm.trans hname)))
      rw [if_neg hs, Remark.about_append_of_unnamed hother]

/-- Laying the entries over the catalogue's panels in turn gives every panel as they ask for it. -/
theorem overlaid_eq_requested (c : Catalogue) (h : ∀ entry ∈ entries, entry.Finite) :
    overlaid c entries = requested c entries := by
  induction entries using List.reverseRecOn with
  | nil => exact (requested_nil c).symm
  | append_singleton entries entry ih =>
    have hearlier := ih fun e he => h e (List.mem_append_left _ he)
    rw [overlaid_append, hearlier, requested_append (h entry (by simp))]

/-- A list of panels restored is the layout that its entries settle on. -/
theorem restore_eq_settled {text : String} (hc : c.ids.Nodup) (h : ListsPanels text entries) :
    restore c text = settled c entries := by
  have hread := listsPanels_iff.mp h
  obtain ⟨members, htext, hpanels⟩ := h
  have hfinite : ∀ entry ∈ entries, entry.Finite :=
    ((Json.finite_of_text htext).member? hpanels).array? rfl
  simp only [restore, hread, (overlaid_wellFormed hc entries).thinDocks_eq]
  rw [overlaid_eq_requested c hfinite]
  rfl

/-- What a list settles on depends on nothing but what its entries say of each panel. -/
theorem settled_congr {others : List Json}
    (h : ∀ id, Remark.about entries id = Remark.about others id) :
    settled c entries = settled c others := by
  have hrequested : requested c entries = requested c others := by
    simp only [requested, h]
  rw [settled, settled, hrequested]

/-- Restoring a JSON object with a list of panels gives the layout that the list settles on, which
is conflict-free and depends on what the entries say of each panel alone: not on other entries, not
on other fields, and not on how entries of different panels stand among one another. Any other text
gives the layout of the catalogue. -/
theorem restore_closed_form {c : Catalogue} (hc : c.Obtainable) (text : String) :
    (∀ entries, ListsPanels text entries →
      restore c text = settled c entries ∧ (restore c text).ConflictFree ∧
        ∀ text' others, ListsPanels text' others →
          (∀ id, Remark.about others id = Remark.about entries id) →
            restore c text' = restore c text) ∧
      ((∀ entries, ¬ ListsPanels text entries) → restore c text = ofCatalogue c) := by
  have hnodup := hc.valid.nodup
  constructor
  · intro entries h
    refine ⟨restore_eq_settled hnodup h, conflictFree_restore hnodup (listsPanels_iff.mp h), ?_⟩
    intro text' others h' habout
    rw [restore_eq_settled hnodup h, restore_eq_settled hnodup h', settled_congr habout]
  · intro hnone
    cases hread : storedPanels text with
    | ok entries => exact absurd (listsPanels_iff.mpr hread) (hnone entries)
    | error fault => exact restore_of_error hread

/-- Docs twice, the second time for a slot they may not take, settings asked to be visible with them
on the left, and an entry that is no object. -/
def contestedText : String :=
  "\x7b\"panels\":[\x7b\"id\":\"docs\",\"slot\":\"left\"\x7d,7," ++
    "\x7b\"id\":\"docs\",\"slot\":\"bottom\",\"isVisible\":true\x7d," ++
    "\x7b\"id\":\"settings\",\"slot\":\"left\",\"isVisible\":true\x7d]\x7d"

def contestedPlaces : List (PanelId × Slot × Bool) :=
  [(.fileTree, .left, false), (.terminal, .bottom, false), (.docs, .left, true),
    (.search, .left, false), (.settings, .left, false), (.commandPalette, .center, false)]

theorem restore_closed_form_contestedText :
    ∃ entries, ListsPanels contestedText entries ∧
      restore .builtin contestedText = settled .builtin entries ∧
      (restore .builtin contestedText).panels.map (fun p => (p.id, p.slot, p.visible)) =
        contestedPlaces := by
  have hplaces : (storedPanels contestedText).toOption.map (fun entries =>
      (settled .builtin entries).panels.map fun p => (p.id, p.slot, p.visible)) =
        some contestedPlaces := by decide +kernel
  cases hread : storedPanels contestedText with
  | error fault => simp [hread, Except.toOption] at hplaces
  | ok entries =>
    have h := listsPanels_iff.mpr hread
    have hsettled := ((restore_closed_form .builtin contestedText).1 entries h).1
    rw [hread] at hplaces
    exact ⟨entries, h, hsettled, hsettled ▸ Option.some.inj hplaces⟩

end Layout

end Docking
