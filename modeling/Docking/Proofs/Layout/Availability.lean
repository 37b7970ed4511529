import Docking.Proofs.Layout.Step

/-! The slots open to a panel. Listing them and planning a move find out separately who is in the
way, and they agree: a move to an allowed slot goes through with nobody pushed out exactly if the
slot is listed. -/
namespace Docking.Layout

variable {l : Layout} {id : PanelId} {slot : Slot} {p : Panel}

theorem availableSlots_of_missing (hp : l.panel? id = none) : l.availableSlots id = [] := by
  simp [availableSlots, hp]

theorem availableSlots_eq (hp : l.panel? id = some p) :
    l.availableSlots id = p.placement.allowed.filter fun slot => decide (l.FreeFor slot id) := by
  simp only [availableSlots, hp, isNone_occupant?]

theorem mem_availableSlots (hp : l.panel? id = some p) :
    slot ∈ l.availableSlots id ↔ slot ∈ p.placement.allowed ∧ l.FreeFor slot id := by
  simp [availableSlots_eq hp]

theorem exists_of_mem_availableSlots (h : slot ∈ l.availableSlots id) :
    ∃ p, l.panel? id = some p ∧ slot ∈ p.placement.allowed ∧ l.FreeFor slot id := by
  cases hp : l.panel? id with
  | none => simp [availableSlots_of_missing hp] at h
  | some p => exact ⟨p, rfl, (mem_availableSlots hp).mp h⟩

theorem availableSlots_sublist (hp : l.panel? id = some p) :
    (l.availableSlots id).Sublist p.placement.allowed := by
  rw [availableSlots_eq hp]
  exact List.filter_sublist

/-- An allowed slot is listed as often as it is allowed, or not at all. -/
theorem count_availableSlots (hp : l.panel? id = some p) (h : slot ∈ l.availableSlots id) :
    (l.availableSlots id).count slot = p.placement.allowed.count slot := by
  have hfree := ((mem_availableSlots hp).mp h).2
  rw [availableSlots_eq hp]
  exact List.count_filter (by simpa using hfree)

/-- A dock that is not free for a panel has an occupant, the one that a plan deals with. -/
theorem exists_occupant (h : ¬ l.FreeFor slot id) : ∃ o, l.occupant? slot id = some o := by
  rw [← Option.ne_none_iff_exists', ne_eq, occupant?_eq_none_iff]
  exact h

theorem plan_of_mem_availableSlots {options : MoveOptions} (h : slot ∈ l.availableSlots id) :
    l.plan id slot options = .ok ⟨id, slot, none⟩ := by
  obtain ⟨p, hp, ha, hfree⟩ := exists_of_mem_availableSlots h
  exact plan_of_free hp (Placement.allows_iff.mpr (.inr ha)) hfree

/-- A move goes through undisturbed exactly to an allowed slot that is free for the panel. -/
theorem plan_undisturbed_iff {options : MoveOptions} :
    l.plan id slot options = .ok ⟨id, slot, none⟩ ↔
      ∃ p, l.panel? id = some p ∧ p.placement.allows slot = true ∧ l.FreeFor slot id := by
  constructor
  · intro h
    obtain ⟨p, hp, ha, ⟨hfree, -⟩ | ⟨o, -, -, hplan⟩⟩ := plan_eq_ok h
    · exact ⟨p, hp, ha, hfree⟩
    · cases hplan
  · rintro ⟨p, hp, ha, hfree⟩
    exact plan_of_free hp ha hfree

/-- An unforced move to an allowed slot that is not listed pushes out a panel of lower priority or
is turned down for the panel that holds the slot. -/
theorem plan_of_unlisted (hp : l.panel? id = some p) (ha : slot ∈ p.placement.allowed)
    (h : slot ∉ l.availableSlots id) :
    ∃ o ∈ l.holders slot, slot.isDock = true ∧ o.id ≠ id ∧
      ((o.priority < p.priority ∧
          ∃ fate, l.plan id slot ⟨false⟩ = .ok ⟨id, slot, some ⟨o.id, fate⟩⟩) ∨
        (p.priority ≤ o.priority ∧
          ∃ suggestion,
            l.plan id slot ⟨false⟩ = .error ⟨.positionOccupied slot o.id, suggestion⟩)) := by
  have hallows : p.placement.allows slot = true := Placement.allows_iff.mpr (.inr ha)
  have hheld : ¬ l.FreeFor slot id := fun hfree => h ((mem_availableSlots hp).mpr ⟨ha, hfree⟩)
  obtain ⟨o, ho⟩ := exists_occupant hheld
  obtain ⟨hdock, hmem, hne⟩ := occupant?_eq_some ho
  refine ⟨o, hmem, hdock, hne, ?_⟩
  by_cases hwin : o.priority < p.priority
  · exact .inl ⟨hwin, _, plan_of_win hp hallows ho (.inr hwin)⟩
  · refine .inr ⟨Int.not_lt.mp hwin, _, plan_of_loss hp hallows ho ?_⟩
    rintro (hforce | hless)
    · cases hforce
    · exact hwin hless

/-- In every layout, docks crowded or not, a slot is listed for a panel exactly if it is one of its
allowed slots and a move there is accepted without displacing anybody, forced or unforced. The list
has the order and the repetitions of the allowed slots; to one that is left out an unforced move
displaces a panel of strictly lower priority, or it is turned down because the slot is held. -/
theorem availableSlots_agree (l : Layout) (id : PanelId) :
    (∀ slot, slot ∈ l.availableSlots id ↔
      (∃ p, l.panel? id = some p ∧ slot ∈ p.placement.allowed) ∧
        ∀ options, l.plan id slot options = .ok ⟨id, slot, none⟩) ∧
    ∀ p, l.panel? id = some p →
      (l.availableSlots id).Sublist p.placement.allowed ∧
      (∀ slot ∈ l.availableSlots id,
        (l.availableSlots id).count slot = p.placement.allowed.count slot) ∧
      ∀ slot ∈ p.placement.allowed, slot ∉ l.availableSlots id →
        ∃ o ∈ l.holders slot, slot.isDock = true ∧ o.id ≠ id ∧
          ((o.priority < p.priority ∧
              ∃ fate, l.plan id slot ⟨false⟩ = .ok ⟨id, slot, some ⟨o.id, fate⟩⟩) ∨
            (p.priority ≤ o.priority ∧
              ∃ suggestion,
                l.plan id slot ⟨false⟩ = .error ⟨.positionOccupied slot o.id, suggestion⟩)) := by
  constructor
  · intro slot
    constructor
    · intro h
      obtain ⟨p, hp, ha, -⟩ := exists_of_mem_availableSlots h
      exact ⟨⟨p, hp, ha⟩, fun options => plan_of_mem_availableSlots h⟩
    · rintro ⟨⟨p, hp, ha⟩, hplan⟩
      obtain ⟨-, -, -, hfree⟩ := plan_undisturbed_iff.mp (hplan ⟨false⟩)
      exact (mem_availableSlots hp).mpr ⟨ha, hfree⟩
  · intro p hp
    exact ⟨availableSlots_sublist hp, fun slot h => count_availableSlots hp h,
      fun slot ha h => plan_of_unlisted hp ha h⟩

/-- The terminal and docs crowded on the left, settings in the center. -/
def sharedLeft : Layout :=
  (ofCatalogue .builtin).run [.reveal .terminal, .reveal .docs, .setSlot .terminal .left,
    .setSlot .docs .left, .move .settings .center ⟨false⟩]

/-- Search can go anywhere but to the left, where the terminal stands in front of docs. -/
theorem availableSlots_agree_sharedLeft :
    (sharedLeft.holders .left).map Panel.id = [.terminal, .docs] ∧
      (∀ options, sharedLeft.plan .search .center options = .ok ⟨.search, .center, none⟩) ∧
      ∃ p, sharedLeft.panel? .search = some p ∧
        (sharedLeft.availableSlots .search).Sublist p.placement.allowed ∧
        ∃ o ∈ sharedLeft.holders .left, o.id ≠ .search := by
  obtain ⟨hlisted, hrest⟩ := availableSlots_agree sharedLeft .search
  refine ⟨by decide +kernel, ((hlisted .center).mp (by decide +kernel)).2, ?_⟩
  have hsome : (sharedLeft.panel? .search).isSome = true := by decide +kernel
  obtain ⟨p, hp⟩ := Option.isSome_iff_exists.mp hsome
  have hallowed : (sharedLeft.panel? .search).any (fun p => p.placement.allowed.contains .left) =
      true := by decide +kernel
  rw [hp, Option.any_some, List.contains_iff_mem] at hallowed
  obtain ⟨hsub, -, hunlisted⟩ := hrest p hp
  obtain ⟨o, ho, -, hne, -⟩ := hunlisted .left hallowed (by decide +kernel)
  exact ⟨p, hp, hsub, o, ho, hne⟩

end Docking.Layout
