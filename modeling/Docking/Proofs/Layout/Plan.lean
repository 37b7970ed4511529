import Docking.Layout.Move
import Docking.Proofs.Layout.Occupancy

/-! Plans of moves. One lemma for each branch of a plan, the branches read back from an accepted
plan, and the fate of a displaced panel. -/
namespace Docking

namespace Panel

def concealed (p : Panel) : Panel := { p with visible := false }

def revealed (p : Panel) : Panel := { p with visible := true }

/-- In the slot, and visible unless the slot is the hidden one. -/
def placed (slot : Slot) (p : Panel) : Panel := { p with slot := slot, visible := slot ≠ .hidden }

def assigned (slot : Slot) (p : Panel) : Panel := { p with slot := slot }

def resized (requested : Size) (p : Panel) : Panel :=
  { p with size := some (p.bounds.clamp requested) }

theorem keepsId_concealed : Layout.KeepsId concealed := fun _ => rfl

theorem keepsId_revealed : Layout.KeepsId revealed := fun _ => rfl

theorem keepsId_placed (slot : Slot) : Layout.KeepsId (placed slot) := fun _ => rfl

theorem keepsId_assigned (slot : Slot) : Layout.KeepsId (assigned slot) := fun _ => rfl

theorem keepsId_resized (requested : Size) : Layout.KeepsId (resized requested) := fun _ => rfl

theorem concealed_eq_self {p : Panel} (h : p.visible = false) : p.concealed = p := by
  cases p
  simp_all [concealed]

@[simp] theorem visibleAt_concealed (p : Panel) (slot : Slot) :
    p.concealed.visibleAt slot = false := by simp [visibleAt, concealed]

@[simp] theorem visibleAt_revealed (p : Panel) (slot : Slot) :
    p.revealed.visibleAt slot = decide (p.slot = slot) := Bool.true_and _

@[simp] theorem visibleAt_resized (size : Size) (p : Panel) (slot : Slot) :
    (p.resized size).visibleAt slot = p.visibleAt slot := rfl

theorem visibleAt_placed (p : Panel) {target slot : Slot} (h : slot ≠ .hidden) :
    (p.placed target).visibleAt slot = decide (target = slot) := by
  by_cases ht : target = slot
  · simp [visibleAt, placed, ht, h]
  · simp [visibleAt, placed, ht]

end Panel

namespace Layout

variable {l : Layout} {id : PanelId} {slot : Slot} {options : MoveOptions} {p o : Panel}

theorem plan_of_missing (hp : l.panel? id = none) :
    l.plan id slot options = .error ⟨.panelNotFound id.name, none⟩ := by
  simp [plan, hp, MoveRejection.unknown]

theorem plan_of_forbidden (hp : l.panel? id = some p) (ha : p.placement.allows slot = false) :
    l.plan id slot options = .error ⟨.slotNotAllowed id slot, some p.placement.preferred⟩ := by
  simp [plan, hp, ha]

theorem plan_of_free (hp : l.panel? id = some p) (ha : p.placement.allows slot = true)
    (hfree : l.FreeFor slot id) : l.plan id slot options = .ok ⟨id, slot, none⟩ := by
  simp [plan, hp, ha, occupant?_eq_none_iff.mpr hfree]

theorem plan_of_win (hp : l.panel? id = some p) (ha : p.placement.allows slot = true)
    (ho : l.occupant? slot id = some o)
    (hwin : options.force = true ∨ o.priority < p.priority) :
    l.plan id slot options = .ok ⟨id, slot, some ⟨o.id, l.fate id slot o⟩⟩ := by
  simp [plan, hp, ha, ho, hwin]

/-- The suggestion is the first allowed slot that is free for the panel. -/
theorem plan_of_loss (hp : l.panel? id = some p) (ha : p.placement.allows slot = true)
    (ho : l.occupant? slot id = some o)
    (hloss : ¬ (options.force = true ∨ o.priority < p.priority)) :
    l.plan id slot options = .error ⟨.positionOccupied slot o.id,
      p.placement.allowed.find? fun free => decide (l.FreeFor free id)⟩ := by
  simp [plan, hp, ha, ho, hloss, isNone_occupant?]

/-- An accepted plan lands in a slot that is free for the panel or pushes out its occupant. -/
theorem plan_eq_ok {plan : MovePlan} (h : l.plan id slot options = .ok plan) :
    ∃ p, l.panel? id = some p ∧ p.placement.allows slot = true ∧
      ((l.FreeFor slot id ∧ plan = ⟨id, slot, none⟩) ∨
        ∃ o, l.occupant? slot id = some o ∧ (options.force = true ∨ o.priority < p.priority) ∧
          plan = ⟨id, slot, some ⟨o.id, l.fate id slot o⟩⟩) := by
  unfold Layout.plan at h
  split at h
  · simp at h
  · next p hp =>
    split at h
    · simp at h
    · next ha =>
      refine ⟨p, hp, by simpa using ha, ?_⟩
      split at h
      · next ho => exact .inl ⟨occupant?_eq_none_iff.mp ho, (Except.ok.inj h).symm⟩
      · next o ho =>
        split at h
        · next hwin =>
          exact .inr ⟨o, ho, by simpa using hwin, (Except.ok.inj h).symm⟩
        · simp at h

/-- A displaced panel is relocated only to another slot, in sight and not held by a third panel. -/
theorem fate_cases (l : Layout) (id : PanelId) (slot : Slot) (o : Panel) :
    (l.fate id slot o = .relocated o.placement.preferred ∧ o.placement.preferred ≠ slot ∧
      o.placement.preferred ≠ .hidden ∧
      ∀ q, l.occupant? o.placement.preferred o.id = some q → q.id = id) ∨
    l.fate id slot o = .hidden := by
  unfold fate
  dsimp only
  split
  · next h =>
    simp only [Bool.and_eq_true, decide_eq_true_eq, Option.all_eq_true] at h
    exact .inl ⟨rfl, h.1.1, h.1.2, h.2⟩
  · exact .inr rfl

/-- A relocated panel is placed like a moved one. -/
theorem settle_relocated (h : slot ≠ .hidden) :
    l.settle ⟨id, .relocated slot⟩ = l.modify id (Panel.placed slot) := by
  have hplaced : (fun q : Panel => { q with slot := slot, visible := true }) =
      Panel.placed slot := by
    funext q
    simp [Panel.placed, h]
  simp only [settle, hplaced]

end Layout

end Docking
