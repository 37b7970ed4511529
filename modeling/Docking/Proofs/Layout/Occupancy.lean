import Docking.Layout.Change
import Docking.Proofs.Layout.Lookup

/-! Who holds a dock, and how many. A change of one panel moves the number of visible panels in a
slot by that panel alone, and a dock has no occupant but the excluded panel exactly when nobody
else is visible there. Where no dock is crowded there is nothing to thin out. -/
namespace Docking

namespace Layout

variable {l : Layout} {slot : Slot} {id : PanelId} {p o : Panel} {change : Panel → Panel}

theorem visibleAt_iff : p.visibleAt slot = true ↔ p.visible = true ∧ p.slot = slot := by
  simp [Panel.visibleAt]

theorem mem_holders : p ∈ l.holders slot ↔ p ∈ l.panels ∧ p.visibleAt slot = true := by
  simp [holders]

/-- Nobody but the given panel is visible in the slot, or the slot is no dock. -/
def FreeFor (l : Layout) (slot : Slot) (id : PanelId) : Prop :=
  slot.isDock = true → ∀ q ∈ l.holders slot, q.id = id

instance (l : Layout) (slot : Slot) (id : PanelId) : Decidable (l.FreeFor slot id) :=
  inferInstanceAs (Decidable (slot.isDock = true → ∀ q ∈ l.holders slot, q.id = id))

theorem not_freeFor_iff : ¬ l.FreeFor slot id ↔
    slot.isDock = true ∧ ∃ q ∈ l.holders slot, q.id ≠ id := by
  simp [FreeFor]

/-- A slot stays free for a panel whatever becomes of the panel itself. -/
theorem FreeFor.modify (h : l.FreeFor slot id) (hc : KeepsId change) :
    (l.modify id change).FreeFor slot id := by
  intro hd q hq
  obtain ⟨hmem, hv⟩ := mem_holders.mp hq
  rcases mem_modify hmem with ⟨r, -, hid, rfl⟩ | ⟨hmem, -⟩
  · exact (hc r).trans hid
  · exact h hd q (mem_holders.mpr ⟨hmem, hv⟩)

theorem occupant?_eq_none_iff : l.occupant? slot id = none ↔ l.FreeFor slot id := by
  unfold occupant? FreeFor
  cases slot.isDock
  · simp
  · simp only [if_true, List.find?_eq_none, mem_holders, forall_const]
    constructor
    · intro h q hq
      by_contra hne
      exact h q hq.1 (by simp [hne, hq.2])
    · intro h q hq hv
      simp only [Bool.and_eq_true, decide_eq_true_eq] at hv
      exact hv.1 (h q ⟨hq, hv.2⟩)

theorem isNone_occupant? (l : Layout) (slot : Slot) (id : PanelId) :
    (l.occupant? slot id).isNone = decide (l.FreeFor slot id) := by
  rw [Bool.eq_iff_iff, Option.isNone_iff_eq_none, decide_eq_true_iff, occupant?_eq_none_iff]

theorem occupant?_eq_some (h : l.occupant? slot id = some o) :
    slot.isDock = true ∧ o ∈ l.holders slot ∧ o.id ≠ id := by
  unfold occupant? at h
  split at h
  · next hd =>
    have hv := List.find?_some h
    simp only [Bool.and_eq_true, decide_eq_true_eq] at hv
    exact ⟨hd, mem_holders.mpr ⟨List.mem_of_find?_eq_some h, hv.2⟩, hv.1⟩
  · simp at h

/-- Changing the one panel of a name moves a count of panels by that panel alone. -/
theorem countP_change {ps : List Panel} (hn : (ps.map Panel.id).Nodup) (hp : p ∈ ps)
    (v : Panel → Bool) :
    (ps.map fun q => if q.id = p.id then change q else q).countP v + (v p).toNat =
      ps.countP v + (v (change p)).toNat := by
  induction ps with
  | nil => simp at hp
  | cons q ps ih =>
    simp only [List.map_cons, List.nodup_cons] at hn
    rw [List.map_cons, List.countP_cons, List.countP_cons]
    rcases List.mem_cons.mp hp with rfl | hp
    · have hrest : (ps.map fun q => if q.id = p.id then change q else q) = ps := by
        refine (List.map_congr_left fun q hq => if_neg ?_).trans (List.map_id ps)
        intro hid
        exact hn.1 (hid ▸ List.mem_map_of_mem hq)
      rw [hrest, if_pos rfl]
      cases v p <;> cases v (change p) <;> simp
    · have hne : q.id ≠ p.id := fun hid => hn.1 (hid ▸ List.mem_map_of_mem hp)
      have hcount := ih hn.2 hp
      rw [if_neg hne]
      omega

theorem WellFormed.length_holders_modify (h : l.WellFormed) (hp : l.panel? id = some p)
    (change : Panel → Panel) (slot : Slot) :
    ((l.modify id change).holders slot).length + (p.visibleAt slot).toNat =
      (l.holders slot).length + ((change p).visibleAt slot).toNat := by
  obtain rfl := panel?_id hp
  simpa only [holders, panels_modify, List.countP_eq_length_filter] using
    countP_change h.nodup (mem_of_panel? hp) fun q => q.visibleAt slot

/-- A slot that nobody else holds has at most the panel itself. -/
theorem WellFormed.length_holders_of_free (h : l.WellFormed) (hp : l.panel? id = some p)
    (hd : slot.isDock = true) (hfree : l.FreeFor slot id) :
    (l.holders slot).length = (p.visibleAt slot).toNat := by
  have hcount := h.length_holders_modify hp (fun q => { q with visible := false }) slot
  have hnone : (l.modify id fun q => { q with visible := false }).holders slot = [] := by
    rw [List.eq_nil_iff_forall_not_mem]
    intro q hq
    rw [mem_holders] at hq
    rcases mem_modify hq.1 with ⟨r, -, -, rfl⟩ | ⟨hmem, hne⟩
    · simp [Panel.visibleAt] at hq
    · exact hne (hfree hd q (mem_holders.mpr ⟨hmem, hq.2⟩))
  rw [hnone] at hcount
  simpa [Panel.visibleAt] using hcount.symm

theorem ConflictFree.length_holders_le (hf : l.ConflictFree) (hd : slot.isDock = true) :
    (l.holders slot).length ≤ 1 := hf slot ((Slot.mem_docks_iff slot).mpr hd)

/-- A conflict-free dock has one holder at most. -/
theorem ConflictFree.holder_unique (hf : l.ConflictFree) (hd : slot.isDock = true)
    (hp : p ∈ l.holders slot) (ho : o ∈ l.holders slot) : p = o := by
  have hlen := hf.length_holders_le hd
  obtain ⟨i, hi, rfl⟩ := List.getElem_of_mem hp
  obtain ⟨j, hj, rfl⟩ := List.getElem_of_mem ho
  have hij : i = j := by omega
  subst hij
  rfl

/-- In a conflict-free layout the slot in which a panel is visible is free for it. -/
theorem ConflictFree.freeFor (hf : l.ConflictFree) (hp : l.panel? id = some p)
    (hv : p.visibleAt slot = true) : l.FreeFor slot id := by
  intro hd q hq
  rw [hf.holder_unique hd hq (mem_holders.mpr ⟨mem_of_panel? hp, hv⟩), panel?_id hp]

theorem length_le_one_of_nodup {ps : List Panel} (hn : ps.Nodup)
    (h : ∀ p ∈ ps, ∀ q ∈ ps, p = q) : ps.length ≤ 1 := by
  rcases ps with _ | ⟨p, _ | ⟨q, ps⟩⟩
  · exact Nat.zero_le _
  · exact Nat.le_refl _
  · have heq := h p (by simp) q (by simp)
    simp [heq] at hn

/-- No two panels of a conflict-free layout are visible in one dock. -/
theorem WellFormed.conflictFree_iff (h : l.WellFormed) : l.ConflictFree ↔
    ∀ slot, slot.isDock = true → ∀ p ∈ l.holders slot, ∀ q ∈ l.holders slot, p.id = q.id := by
  constructor
  · intro hf slot hd p hp q hq
    rw [hf.holder_unique hd hp hq]
  · intro hone slot hslot
    refine length_le_one_of_nodup ((List.Nodup.of_map _ h.nodup).filter _) fun p hp q hq => ?_
    exact h.eq_of_id_eq (mem_holders.mp hp).1 (mem_holders.mp hq).1
      (hone slot ((Slot.mem_docks_iff slot).mp hslot) p hp q hq)

@[simp] theorem length_ranked (l : Layout) (slot : Slot) :
    (l.ranked slot).length = (l.holders slot).length := List.length_mergeSort _

theorem outranked_eq_nil (h : (l.holders slot).length ≤ 1) : l.outranked slot = [] := by
  rw [← length_ranked] at h
  rw [outranked, List.drop_eq_nil_of_le h, List.map_nil]

theorem thin_of_uncrowded {slots : List Slot} (h : ∀ slot ∈ slots, (l.holders slot).length ≤ 1) :
    l.thin slots = (l, []) := by
  induction slots with
  | nil => rfl
  | cons slot slots ih =>
    obtain ⟨hslot, hslots⟩ := List.forall_mem_cons.mp h
    simp [thin, outranked_eq_nil hslot, hideEach, ih hslots]

theorem ConflictFree.thinDocks_eq (h : l.ConflictFree) : l.thinDocks = (l, []) :=
  thin_of_uncrowded h

end Layout

end Docking
