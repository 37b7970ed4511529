import Docking.Proofs.Layout.Availability
import Docking.Proofs.Layout.Structure

/-! Rejected moves. A rejection names what stands in the way, and another try gets further: force
takes the contested dock, and the suggested slot is open to the panel. A move that needs no force is
planned the same with it. -/
namespace Docking.Layout

variable {l : Layout} {id : PanelId} {slot : Slot} {options : MoveOptions} {p : Panel}

/-- A slot held by a panel that the target does not outrank: who holds it, and where else the target
can go. -/
structure Held (l : Layout) (p : Panel) (slot : Slot) (options : MoveOptions)
    (occupant : PanelId) (suggestion : Option Slot) : Prop where
  unforced : options.force = false
  dock : slot.isDock = true
  occupant : ∃ o ∈ l.holders slot, o.id = occupant ∧ o.id ≠ p.id ∧ p.priority ≤ o.priority
  first : suggestion = (l.availableSlots p.id).head?
  retry : ∀ other ∈ suggestion, other ≠ slot ∧
    (l.move p.id other ⟨false⟩).2 = .ok ⟨p.id, other, none⟩
  exhausted : suggestion = none →
    ∀ other ∈ p.placement.allowed, other.isDock = true ∧ ∃ q ∈ l.holders other, q.id ≠ p.id
  forced : ∃ plan, (l.move p.id slot .forced).2 = .ok plan

/-- A move answers with its plan, and it changes nothing if there is none. -/
theorem move_eq_error {after : Layout} {r : MoveRejection} :
    l.move id slot options = (after, .error r) ↔
      after = l ∧ l.plan id slot options = .error r := by
  unfold move
  cases l.plan id slot options with
  | ok plan => simp
  | error rejection => simp [eq_comm]

theorem move_snd (l : Layout) (id : PanelId) (slot : Slot) (options : MoveOptions) :
    (l.move id slot options).2 = l.plan id slot options := by
  unfold move
  cases l.plan id slot options <;> rfl

/-- The two reasons for which a move of a panel that is there is turned down. -/
theorem plan_eq_error {r : MoveRejection} (hp : l.panel? id = some p)
    (h : l.plan id slot options = .error r) :
    (p.placement.allows slot = false ∧
        r = ⟨.slotNotAllowed id slot, some p.placement.preferred⟩) ∨
      ∃ o, p.placement.allows slot = true ∧ l.occupant? slot id = some o ∧
        ¬ (options.force = true ∨ o.priority < p.priority) ∧
        r = ⟨.positionOccupied slot o.id, (l.availableSlots id).head?⟩ := by
  cases ha : p.placement.allows slot with
  | false =>
    rw [plan_of_forbidden hp ha] at h
    exact .inl ⟨rfl, (Except.error.inj h).symm⟩
  | true =>
    by_cases hfree : l.FreeFor slot id
    · rw [plan_of_free hp ha hfree] at h
      cases h
    · obtain ⟨o, ho⟩ := exists_occupant hfree
      by_cases hwin : options.force = true ∨ o.priority < p.priority
      · rw [plan_of_win hp ha ho hwin] at h
        cases h
      · refine .inr ⟨o, rfl, ho, hwin, ?_⟩
        rw [plan_of_loss hp ha ho hwin] at h
        rw [availableSlots_eq hp, List.head?_filter]
        exact (Except.error.inj h).symm

/-- A panel with no available slot finds another one in each dock it may take. -/
theorem held_of_availableSlots_eq_nil (hp : l.panel? id = some p) (h : l.availableSlots id = [])
    (ha : slot ∈ p.placement.allowed) :
    slot.isDock = true ∧ ∃ q ∈ l.holders slot, q.id ≠ id := by
  obtain ⟨o, ho, hdock, hne, -⟩ := plan_of_unlisted hp ha (by simp [h])
  exact ⟨hdock, o, ho, hne⟩

theorem held_of_occupant {o : Panel} (hp : l.panel? id = some p)
    (ha : p.placement.allows slot = true) (ho : l.occupant? slot id = some o)
    (hloss : ¬ (options.force = true ∨ o.priority < p.priority)) :
    l.Held p slot options o.id (l.availableSlots id).head? := by
  obtain ⟨hdock, hmem, hne⟩ := occupant?_eq_some ho
  obtain rfl := panel?_id hp
  rw [not_or, Bool.not_eq_true, Int.not_lt] at hloss
  refine
    { unforced := hloss.1
      dock := hdock
      occupant := ⟨o, hmem, rfl, hne, hloss.2⟩
      first := rfl
      retry := ?_
      exhausted := fun h _ hother =>
        held_of_availableSlots_eq_nil hp (List.head?_eq_none_iff.mp h) hother
      forced := ⟨_, (move_snd l p.id slot .forced).trans (plan_of_win hp ha ho (.inl rfl))⟩ }
  intro other hother
  have hlisted := List.mem_of_mem_head? hother
  refine ⟨?_, (move_snd l p.id other ⟨false⟩).trans (plan_of_mem_availableSlots hlisted)⟩
  -- the contested slot has an occupant, so it is not among those available
  rintro rfl
  have hfree := ((mem_availableSlots hp).mp hlisted).2
  rw [occupant?_eq_none_iff.mpr hfree] at ho
  cases ho

/-- A slot that the panel may take is never answered to be forbidden. -/
theorem reason_of_allowed {r : MoveRejection} (hp : l.panel? id = some p)
    (ha : p.placement.allows slot = true) (h : l.plan id slot options = .error r)
    (q : PanelId) (t : Slot) : r.reason ≠ .slotNotAllowed q t := by
  rcases plan_eq_error hp h with ⟨hforbidden, -⟩ | ⟨o, -, -, -, rfl⟩
  · rw [ha] at hforbidden
    cases hforbidden
  · simp

/-- A plan made without force is the plan made with it. -/
theorem plan_forced {plan : MovePlan} (h : l.plan id slot options = .ok plan) :
    l.plan id slot .forced = .ok plan := by
  obtain ⟨p, hp, ha, ⟨hfree, rfl⟩ | ⟨o, ho, -, rfl⟩⟩ := plan_eq_ok h
  · exact plan_of_free hp ha hfree
  · exact plan_of_win hp ha ho (.inl rfl)

/-- In every layout of a session a rejected move of a catalogue panel changes nothing and has one of
two reasons. The slot is held: then the move was unforced, the occupant named is another panel,
visible in that dock and of no lower priority, and force gets the target in; the suggestion is the
first available slot, where an unforced move is accepted and displaces nobody, and without one
every allowed slot is a dock with another visible panel in it. Or the slot is not allowed: then
there is a suggestion, and no move to it is turned down for that reason. A move that is accepted
unforced is planned the same with force. -/
theorem rejections_actionable {c : Catalogue} (hc : c.Obtainable) {l : Layout}
    (hl : Reachable c l) {id : PanelId} (hid : id ∈ c.ids) (slot : Slot) :
    ∃ p, l.panel? id = some p ∧
      (∀ options after r, l.move id slot options = (after, .error r) →
        after = l ∧
          ((∃ occupant, r.reason = .positionOccupied slot occupant ∧
              l.Held p slot options occupant r.suggestion) ∨
            (r.reason = .slotNotAllowed id slot ∧ p.placement.allows slot = false ∧
              ∃ other, r.suggestion = some other ∧
                ∀ again r', (l.move id other again).2 = .error r' →
                  ∀ q t, r'.reason ≠ .slotNotAllowed q t))) ∧
      ∀ plan, l.plan id slot ⟨false⟩ = .ok plan → l.plan id slot .forced = .ok plan := by
  have hs := hl.structured hc.valid
  obtain ⟨p, hp⟩ : ∃ p, l.panel? id = some p := by
    rw [← Option.ne_none_iff_exists', ne_eq, hs.panel?_eq_none_iff, not_not]
    exact hid
  refine ⟨p, hp, ?_, fun plan h => plan_forced h⟩
  intro options after r h
  obtain ⟨rfl, hplan⟩ := move_eq_error.mp h
  refine ⟨rfl, ?_⟩
  rcases plan_eq_error hp hplan with ⟨hforbidden, rfl⟩ | ⟨o, ha, ho, hloss, rfl⟩
  · refine .inr ⟨rfl, hforbidden, _, rfl, fun again r' h' => ?_⟩
    have hpreferred := hs.allows_preferred hc.valid (mem_of_panel? hp)
    exact reason_of_allowed hp hpreferred ((move_snd _ _ _ _).symm.trans h')
  · exact .inl ⟨o.id, rfl, held_of_occupant hp ha ho hloss⟩

/-- On the left settings make way for the terminal, at the bottom they are not allowed; either way
they are sent to the right. -/
theorem rejections_actionable_sharedLeft :
    sharedLeft.move .settings .left ⟨false⟩ =
        (sharedLeft, .error ⟨.positionOccupied .left .terminal, some .right⟩) ∧
      ∃ p, sharedLeft.panel? .settings = some p ∧
        sharedLeft.Held p .left ⟨false⟩ .terminal (some .right) ∧
        ∀ again r', (sharedLeft.move .settings .right again).2 = .error r' →
          ∀ q t, r'.reason ≠ .slotNotAllowed q t := by
  have hl : Reachable .builtin sharedLeft := Reachable.fresh.run _
  have hleft : sharedLeft.plan .settings .left ⟨false⟩ =
      .error ⟨.positionOccupied .left .terminal, some .right⟩ := by decide +kernel
  have hbottom : sharedLeft.plan .settings .bottom .forced =
      .error ⟨.slotNotAllowed .settings .bottom, some .right⟩ := by decide +kernel
  have hmove := move_eq_error.mpr ⟨rfl, hleft⟩
  refine ⟨hmove, ?_⟩
  have hid : PanelId.settings ∈ Catalogue.builtin.ids := by decide
  obtain ⟨p, hp, hreject, -⟩ := rejections_actionable .builtin hl hid .left
  obtain ⟨q, -, hforbid, -⟩ := rejections_actionable .builtin hl hid .bottom
  obtain ⟨-, ⟨occupant, hreason, hheld⟩ | ⟨hreason, -⟩⟩ := hreject _ _ _ hmove
  · obtain ⟨-, ⟨_, hreason', -⟩ | ⟨-, -, other, hother, hretry⟩⟩ :=
      hforbid _ _ _ (move_eq_error.mpr ⟨rfl, hbottom⟩)
    · cases hreason'
    · cases hreason
      cases hother
      exact ⟨p, hp, hheld, hretry⟩
  · cases hreason

end Docking.Layout
