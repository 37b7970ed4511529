import Docking.Proofs.Layout.Step

/-! Single occupancy. Apart from raw slot assignments and going back to the catalogue, no operation
puts a second visible panel into a dock, and a dock that is crowded already gets no worse. -/
namespace Docking

/-- Raw assignments look at no occupant, and the catalogue may start with a crowded dock. -/
def Message.heedsDocks : Message → Bool
  | .setSlot .. | .reset => false
  | _ => true

namespace Layout

variable {l after : Layout} {m : Message} {id : PanelId} {slot target : Slot} {p o : Panel}

theorem ne_hidden_of_isDock (hd : slot.isDock = true) : slot ≠ .hidden := by
  rintro rfl
  simp [Slot.isDock] at hd

/-- A panel put into a slot that is free for it is alone there; other docks can only lose it. -/
theorem WellFormed.length_holders_land (h : l.WellFormed) (hp : l.panel? id = some p)
    (hd : slot.isDock = true) (hfree : l.FreeFor target id) :
    ((l.modify id (Panel.placed target)).holders slot).length ≤ max 1 (l.holders slot).length := by
  have hcount := h.length_holders_modify hp (Panel.placed target) slot
  rw [Panel.visibleAt_placed p (ne_hidden_of_isDock hd)] at hcount
  by_cases hs : target = slot
  · subst hs
    have hbefore := h.length_holders_of_free hp hd hfree
    simp only [decide_true, Bool.toNat_true] at hcount
    omega
  · simp only [hs, decide_false, Bool.toNat_false] at hcount
    omega

/-- The count of a dock when a panel is put into a slot and its occupant is changed in turn. -/
theorem WellFormed.length_holders_displace (h : l.WellFormed) (hp : l.panel? id = some p)
    (ho : l.occupant? target id = some o) (hd : slot.isDock = true) (change : Panel → Panel) :
    (((l.modify id (Panel.placed target)).modify o.id change).holders slot).length +
        (p.visibleAt slot).toNat + (o.visibleAt slot).toNat =
      (l.holders slot).length + (decide (target = slot)).toNat +
        ((change o).visibleAt slot).toNat := by
  obtain ⟨-, hmem, hne⟩ := occupant?_eq_some ho
  have hwf : (l.modify id (Panel.placed target)).WellFormed :=
    h.modify (Panel.keepsId_placed target)
  have hstay : (l.modify id (Panel.placed target)).panel? o.id = some o := by
    rw [panel?_modify_of_ne (Panel.keepsId_placed target) hne]
    exact h.panel?_of_mem (mem_holders.mp hmem).1
  have hfirst := h.length_holders_modify hp (Panel.placed target) slot
  have hsecond := hwf.length_holders_modify hstay change slot
  rw [Panel.visibleAt_placed p (ne_hidden_of_isDock hd)] at hfirst
  omega

/-- No operation that heeds the docks leaves a dock with more visible panels than it had, one panel
excepted. -/
theorem WellFormed.length_holders_step (h : l.WellFormed) (hs : l.Step m after)
    (hm : m.heedsDocks = true) (hd : slot.isDock = true) :
    (after.holders slot).length ≤ max 1 (l.holders slot).length := by
  cases hs with
  | idle => exact Nat.le_max_right _ _
  | conceal _ hp _ =>
    have hcount := h.length_holders_modify hp Panel.concealed slot
    simp only [Panel.visibleAt_concealed, Bool.toNat_false] at hcount
    omega
  | @reveal _ _ p _ hp hv hfree =>
    have hcount := h.length_holders_modify hp Panel.revealed slot
    rw [Panel.visibleAt_revealed] at hcount
    by_cases hslot : p.slot = slot
    · subst hslot
      have hbefore := h.length_holders_of_free hp hd hfree
      simp only [Panel.visibleAt, hv, Bool.false_and, Bool.toNat_false] at hbefore hcount
      simp only [decide_true, Bool.toNat_true] at hcount
      omega
    · simp only [hslot, decide_false, Bool.toNat_false] at hcount
      omega
  | @resize _ _ _ _ requested _ hp _ _ =>
    have hcount := h.length_holders_modify hp (Panel.resized requested) slot
    rw [Panel.visibleAt_resized] at hcount
    omega
  | assign => simp [Message.heedsDocks] at hm
  | land hp _ hfree => exact h.length_holders_land hp hd hfree
  | @relocate _ target _ p o hp _ ho _ hother hseen hroom =>
    have hcount := h.length_holders_displace hp ho hd (Panel.placed o.placement.preferred)
    rw [Panel.visibleAt_placed o (ne_hidden_of_isDock hd)] at hcount
    obtain ⟨-, hmem, hne⟩ := occupant?_eq_some ho
    obtain ⟨hmem, hat⟩ := mem_holders.mp hmem
    have hslot := (visibleAt_iff.mp hat).2
    by_cases ht : target = slot
    · subst ht
      simp only [hat, hother, decide_true, decide_false, Bool.toNat_true, Bool.toNat_false]
        at hcount
      omega
    · by_cases hpref : o.placement.preferred = slot
      · subst hpref
        have haway : o.visibleAt o.placement.preferred = false := by
          simp [Panel.visibleAt, hslot, ht]
        simp only [haway, ht, decide_true, decide_false, Bool.toNat_true, Bool.toNat_false]
          at hcount
        cases hq : l.occupant? o.placement.preferred o.id with
        | none =>
          have hbefore :=
            h.length_holders_of_free (h.panel?_of_mem hmem) hd (occupant?_eq_none_iff.mp hq)
          simp only [haway, Bool.toNat_false] at hbefore
          omega
        | some q =>
          -- only the first holder is looked at; if it is the target, it makes room by leaving
          obtain ⟨-, hqmem, -⟩ := occupant?_eq_some hq
          obtain ⟨hqmem, hqat⟩ := mem_holders.mp hqmem
          have hqp : q = p := h.eq_of_panel? hp hqmem (hroom q hq)
          rw [← hqp, hqat, Bool.toNat_true] at hcount
          omega
      · simp only [ht, hpref, decide_false, Bool.toNat_false] at hcount
        omega
  | @evict _ target _ p o hp _ ho _ =>
    obtain ⟨-, hmem, -⟩ := occupant?_eq_some ho
    have hcount := h.length_holders_displace hp ho hd Panel.concealed
    rw [Panel.visibleAt_concealed] at hcount
    by_cases ht : target = slot
    · subst ht
      simp only [(mem_holders.mp hmem).2, decide_true, Bool.toNat_true, Bool.toNat_false] at hcount
      omega
    · simp only [ht, decide_false, Bool.toNat_false] at hcount
      omega
  | hideAll =>
    have hnone : l.concealAll.holders slot = [] := by
      simp [holders, Layout.concealAll]
    simp [hnone]
  | reset => simp [Message.heedsDocks] at hm

theorem WellFormed.perform (h : l.WellFormed) (m : Message) : (l.perform m).WellFormed :=
  h.step (step_perform l m)

/-- A dock without conflict stays without conflict. -/
theorem ConflictFree.perform (hf : l.ConflictFree) (h : l.WellFormed) (hm : m.heedsDocks = true) :
    (l.perform m).ConflictFree := by
  intro slot hslot
  have hle := h.length_holders_step (step_perform l m) hm ((Slot.mem_docks_iff slot).mp hslot)
  have hbefore := hf slot hslot
  omega

/-- Single occupancy is never made worse: after an operation a dock has no more visible panels than
before, or a single one. From a layout without conflict no run of such operations ends in one. -/
theorem docks_never_crowded :
    (∀ (l : Layout) (m : Message) (slot : Slot), l.WellFormed → m.heedsDocks = true →
      slot.isDock = true →
        ((l.perform m).holders slot).length ≤ max 1 (l.holders slot).length) ∧
    ∀ (l : Layout) (ms : List Message), l.WellFormed → l.ConflictFree →
      (∀ m ∈ ms, m.heedsDocks = true) → (l.run ms).ConflictFree := by
  constructor
  · intro l m slot h hm hd
    exact h.length_holders_step (step_perform l m) hm hd
  · intro l ms h hf hms
    have hrun := run_preserves (fun l => l.WellFormed ∧ l.ConflictFree)
      (fun m => m.heedsDocks = true)
      (fun l m hm hl => ⟨hl.1.perform m, hl.2.perform hl.1 hm⟩) hms ⟨h, hf⟩
    exact hrun.2

def crowdedLeft : Layout :=
  (ofCatalogue .builtin).run [.reveal .fileTree, .reveal .terminal, .setSlot .terminal .left]

/-- A forced move into the crowded dock, and a run that contests one dock twice. -/
theorem docks_never_crowded_builtin :
    (crowdedLeft.holders .left).length = 2 ∧
    ((crowdedLeft.perform (.move .docs .left .forced)).holders .left).length ≤
      max 1 (crowdedLeft.holders .left).length ∧
    ((ofCatalogue .builtin).run [.reveal .search, .move .fileTree .left ⟨false⟩,
      .move .settings .left .forced, .toggle .search]).ConflictFree := by
  refine ⟨by decide +kernel, ?_, ?_⟩
  · exact docks_never_crowded.1 _ _ _ (by decide +kernel) rfl rfl
  · exact docks_never_crowded.2 _ _ (by decide +kernel) (by decide +kernel) (by decide)

end Layout

end Docking
