import Docking.Proofs.Layout.Thinning

/-! Hiding and revealing undo each other. In a conflict-free layout a panel that has been hidden can
be revealed where it is, since nobody else is visible in its dock, and a reveal that is refused is
refused again. So two toggles of a panel come to nothing, and after all panels have been hidden,
revealing those that were visible brings the layout back, in whatever order it is done. -/
namespace Docking

namespace Panel

variable {p : Panel}

theorem revealed_concealed (h : p.visible = true) : p.concealed.revealed = p := by
  cases p
  simp_all [concealed, revealed]

theorem concealed_revealed (h : p.visible = false) : p.revealed.concealed = p := by
  cases p
  simp_all [concealed, revealed]

end Panel

namespace Layout

variable {l : Layout} {id : PanelId} {p : Panel} {ids : List PanelId}

theorem toggle_of_visible (hp : l.panel? id = some p) (hv : p.visible = true) :
    l.toggle id = (l.modify id Panel.concealed, true) := by
  unfold toggle
  rw [if_pos (visible_iff.mpr ⟨p, hp, hv⟩), hide_of_visible hp hv]

theorem toggle_of_hidden (hp : l.panel? id = some p) (hv : p.visible = false) :
    l.toggle id = l.reveal id := by
  simp [toggle, visible, hp, hv]

theorem toggle_of_missing (hp : l.panel? id = none) : l.toggle id = (l, false) := by
  simp [toggle, visible, hp, reveal_of_missing hp]

/-- A panel that a toggle has hidden is revealed by the next one: its dock has no other holder. -/
theorem WellFormed.toggle_concealed (h : l.WellFormed) (hf : l.ConflictFree)
    (hp : l.panel? id = some p) (hv : p.visible = true) :
    (l.modify id Panel.concealed).toggle id = (l, true) := by
  have hk := Panel.keepsId_concealed
  have hfree : (l.modify id Panel.concealed).FreeFor p.slot id :=
    (hf.freeFor hp (visibleAt_iff.mpr ⟨hv, rfl⟩)).modify hk
  have hafter := panel?_modify_self hk hp
  rw [toggle_of_hidden hafter rfl, reveal_of_free hafter rfl hfree, modify_modify hk,
    h.modify_eq_self_of_panel? hp (Panel.revealed_concealed hv)]

theorem WellFormed.toggle_revealed (h : l.WellFormed) (hp : l.panel? id = some p)
    (hv : p.visible = false) : (l.modify id Panel.revealed).toggle id = (l, true) := by
  have hk := Panel.keepsId_revealed
  rw [toggle_of_visible (panel?_modify_self hk hp) rfl, modify_modify hk,
    h.modify_eq_self_of_panel? hp (Panel.concealed_revealed hv)]

/-- A refused toggle is refused again, since it leaves the layout as it was. -/
theorem WellFormed.toggle_back (h : l.WellFormed) (hf : l.ConflictFree) (id : PanelId) :
    (l.toggle id).1.toggle id = (l, (l.toggle id).2) := by
  cases hp : l.panel? id with
  | none => simp only [toggle_of_missing hp]
  | some p =>
    cases hv : p.visible with
    | true => rw [toggle_of_visible hp hv, h.toggle_concealed hf hp hv]
    | false =>
      have hreveal := toggle_of_hidden hp hv
      by_cases hfree : l.FreeFor p.slot id
      · rw [hreveal, reveal_of_free hp hv hfree, h.toggle_revealed hp hv]
      · rw [hreveal, reveal_of_held hp hfree, hreveal, reveal_of_held hp hfree]

/-- Toggling does nothing exactly for a panel that the catalogue does not have, and for a hidden one
in whose dock another panel is visible. -/
theorem WellFormed.toggle_idle_iff (h : l.WellFormed) : (l.toggle id).2 = false ↔
    id ∉ l.catalogue.ids ∨ ∃ p, l.panel? id = some p ∧ p.visible = false ∧
      p.slot.isDock = true ∧ ∃ q ∈ l.holders p.slot, q.id ≠ id := by
  rw [← h.panel?_eq_none_iff]
  simp only [← not_freeFor_iff]
  cases hp : l.panel? id with
  | none => simp [toggle_of_missing hp]
  | some p =>
    cases hv : p.visible with
    | true => simp [toggle_of_visible hp hv, hv]
    | false =>
      rw [toggle_of_hidden hp hv]
      by_cases hfree : l.FreeFor p.slot id
      · simp [reveal_of_free hp hv hfree, hfree]
      · simp [reveal_of_held hp hfree, hfree, hv]

/-- In a conflict-free layout two toggles of one panel bring back the layout and answer the same.
They change nothing exactly for a panel that the catalogue does not have, and for a hidden one in
whose dock another panel is visible. -/
theorem toggle_toggle {l : Layout} (h : l.WellFormed) (hf : l.ConflictFree) (id : PanelId) :
    (l.toggle id).1.toggle id = (l, (l.toggle id).2) ∧
      ((l.toggle id).2 = false ↔ id ∉ l.catalogue.ids ∨
        ∃ p, l.panel? id = some p ∧ p.visible = false ∧ p.slot.isDock = true ∧
          ∃ q ∈ l.holders p.slot, q.id ≠ id) :=
  ⟨h.toggle_back hf id, h.toggle_idle_iff⟩

/-- The file tree on the left, search and docs together in the center. -/
def treeAndCenter : Layout :=
  (ofCatalogue .builtin).run
    [.reveal .fileTree, .move .docs .center ⟨false⟩, .move .search .center ⟨false⟩]

/-- Search hidden in the left slot, where the file tree is in sight. -/
def searchBehindTree : Layout := treeAndCenter.run [.hide .search, .setSlot .search .left]

/-- The file tree can be put away and got back; search is refused twice. -/
theorem toggle_toggle_searchBehindTree :
    (searchBehindTree.toggle .fileTree).1.toggle .fileTree = (searchBehindTree, true) ∧
      (searchBehindTree.toggle .search).1.toggle .search = (searchBehindTree, false) :=
  ⟨(toggle_toggle (by decide +kernel) (by decide +kernel) .fileTree).1,
    (toggle_toggle (by decide +kernel) (by decide +kernel) .search).1⟩

/-- Reveals the panels in turn and lists the answers. -/
def revealEach (l : Layout) : List PanelId → Layout × List Bool
  | [] => (l, [])
  | id :: ids =>
    let (after, changed) := l.reveal id
    let (last, answers) := after.revealEach ids
    (last, changed :: answers)

/-- Of the visible panels only those listed stay in sight. -/
def keeping (l : Layout) (ids : List PanelId) : Layout := l.concealIf fun p => !ids.contains p.id

theorem keeping_nil (l : Layout) : l.keeping [] = l.hideAll.1 := by
  simp [keeping, concealIf, hideAll, Panel.concealed]

/-- Nothing is lost where every visible panel is listed. -/
theorem WellFormed.keeping_eq_self (h : l.WellFormed)
    (hids : ∀ id, l.visible id = true → id ∈ ids) : l.keeping ids = l := by
  have hself : ∀ p ∈ l.panels, (if !ids.contains p.id then p.concealed else p) = p := by
    intro p hp
    cases hv : p.visible with
    | false => rw [Panel.concealed_eq_self hv, ite_self]
    | true =>
      have hmem := hids p.id (visible_iff.mpr ⟨p, h.panel?_of_mem hp, hv⟩)
      simp [hmem]
  exact congrArg (Layout.mk l.catalogue) ((List.map_congr_left hself).trans (List.map_id _))

theorem panel?_keeping (ids : List PanelId) (hp : l.panel? id = some p) :
    (l.keeping ids).panel? id = some (if id ∈ ids then p else p.concealed) := by
  rw [keeping, panel?_concealIf, hp, Option.map_some, panel?_id hp]
  by_cases hid : id ∈ ids <;> simp [hid]

theorem WellFormed.modify_keeping (h : l.WellFormed) (hp : l.panel? id = some p)
    (hv : p.visible = true) (hid : id ∉ ids) :
    (l.keeping ids).modify id Panel.revealed = l.keeping (ids ++ [id]) := by
  simp only [keeping, Layout.concealIf, Layout.modify, List.map_map]
  congr 1
  refine List.map_congr_left fun q hq => ?_
  simp only [Function.comp_apply]
  have hname := Panel.keepsId_concealed q
  by_cases hqp : q.id = id
  · obtain rfl : q = p := h.eq_of_panel? hp hq hqp
    simp [hqp, hid, hname, Panel.revealed_concealed hv]
  · by_cases hkept : q.id ∈ ids
    · simp [hqp, hkept]
    · simp [hqp, hkept, hname]

/-- Revealing a panel that is visible in a conflict-free layout is never refused while others of its
panels are out of sight. -/
theorem WellFormed.reveal_keeping (h : l.WellFormed) (hf : l.ConflictFree)
    (hp : l.panel? id = some p) (hv : p.visible = true) (ids : List PanelId) :
    (l.keeping ids).reveal id = (l.keeping (ids ++ [id]), decide (id ∉ ids)) := by
  have hlook := panel?_keeping ids hp
  by_cases hid : id ∈ ids
  · have hsame : l.keeping (ids ++ [id]) = l.keeping ids := by
      refine concealIf_congr fun q _ => ?_
      by_cases hq : q.id = id <;> simp [hq, hid]
    rw [if_pos hid] at hlook
    rw [reveal_of_visible hlook hv, hsame]
    simp [hid]
  · have hfree : (l.keeping ids).FreeFor p.slot id :=
      (hf.freeFor hp (visibleAt_iff.mpr ⟨hv, rfl⟩)).concealIf _
    rw [if_neg hid] at hlook
    rw [reveal_of_free hlook rfl hfree, h.modify_keeping hp hv hid]
    simp [hid]

/-- The invariant is that the panels revealed so far are those of the original layout that have been
named. -/
theorem WellFormed.revealEach_keeping (h : l.WellFormed) (hf : l.ConflictFree)
    (hids : ∀ id ∈ ids, l.visible id = true) (done : List PanelId) :
    (l.keeping done).revealEach ids =
      (l.keeping (done ++ ids), ids.mapIdx fun i id => decide (id ∉ done ++ ids.take i)) := by
  induction ids generalizing done with
  | nil => simp [revealEach]
  | cons id ids ih =>
    obtain ⟨hid, hids⟩ := List.forall_mem_cons.mp hids
    obtain ⟨p, hp, hv⟩ := visible_iff.mp hid
    simp only [revealEach, h.reveal_keeping hf hp hv, ih hids]
    simp [List.mapIdx_cons]

/-- In a conflict-free layout, hiding all panels and then revealing those that were visible brings
back the layout, in any order and with any repetitions. Each panel is revealed the first time it is
named, and no other time. -/
theorem revealEach_hideAll {l : Layout} (h : l.WellFormed) (hf : l.ConflictFree)
    {ids : List PanelId} (hids : ∀ id, id ∈ ids ↔ l.visible id = true) :
    l.hideAll.1.revealEach ids = (l, ids.mapIdx fun i id => decide (id ∉ ids.take i)) := by
  have hrevealed := h.revealEach_keeping hf (fun id => (hids id).mp) []
  rwa [keeping_nil, List.nil_append, h.keeping_eq_self fun id => (hids id).mpr] at hrevealed

/-- Search and docs are named twice and the file tree last. -/
theorem revealEach_hideAll_treeAndCenter :
    treeAndCenter.hideAll.1.revealEach [.search, .docs, .search, .fileTree, .docs] =
      (treeAndCenter, [true, true, false, true, false]) :=
  revealEach_hideAll (by decide +kernel) (by decide +kernel)
    (by intro id; cases id <;> decide +kernel)

end Layout

end Docking
