import Docking.Proofs.Layout.SingleOccupancy
import Docking.Proofs.Layout.Verdict

/-! Moves made twice. An accepted move leaves the target in the slot it was sent to, alone there if
the slot is a dock, whoever was displaced and wherever to. So the same move lands again, with force
or without, and finds nothing to do. -/
namespace Docking.Layout

variable {l after : Layout} {id other : PanelId} {slot : Slot} {options : MoveOptions} {p : Panel}

theorem panel?_settle_of_ne {displaced : Displacement} (h : other ≠ displaced.panel) :
    (l.settle displaced).panel? other = l.panel? other := by
  unfold settle
  split
  · exact panel?_modify_of_ne (fun _ => rfl) h
  · exact panel?_modify_of_ne (fun _ => rfl) h

/-- An accepted move puts the target into its slot, whatever becomes of the occupant. -/
theorem panel?_of_move {plan : MovePlan} (h : l.move id slot options = (after, .ok plan)) :
    ∃ p : Panel, p.placement.allows slot = true ∧ after.panel? id = some (p.placed slot) := by
  unfold move at h
  cases hplan : l.plan id slot options with
  | error r => simp [hplan] at h
  | ok planned =>
    obtain ⟨p, hp, ha, hcases⟩ := plan_eq_ok hplan
    have hland := panel?_modify_self (Panel.keepsId_placed slot) hp
    rw [hplan] at h
    obtain ⟨rfl, -⟩ := Prod.mk.inj h
    refine ⟨p, ha, ?_⟩
    obtain ⟨-, rfl⟩ | ⟨o, ho, -, rfl⟩ := hcases
    · exact hland
    · obtain ⟨-, -, hne⟩ := occupant?_eq_some ho
      exact (panel?_settle_of_ne hne.symm).trans hland

theorem visibleAt_placed_self (hd : slot.isDock = true) :
    (p.placed slot).visibleAt slot = true := by
  simp [Panel.visibleAt_placed p (ne_hidden_of_isDock hd)]

/-- In a conflict-free layout a panel that has been placed in a dock has it to itself. -/
theorem ConflictFree.freeFor_placed (hf : l.ConflictFree)
    (hp : l.panel? id = some (p.placed slot)) : l.FreeFor slot id :=
  fun hd => hf.freeFor hp (visibleAt_placed_self hd) hd

theorem WellFormed.move_placed (h : l.WellFormed) (hp : l.panel? id = some (p.placed slot))
    (ha : p.placement.allows slot = true) (hfree : l.FreeFor slot id) :
    l.move id slot options = (l, .ok ⟨id, slot, none⟩) := by
  have hsame : l.modify id (Panel.placed slot) = l := h.modify_eq_self_of_panel? hp rfl
  rw [move, plan_of_free hp ha hfree]
  exact congrArg (·, Except.ok _) hsame

theorem handleMove_of_unchanged (h : l.move id slot options = (l, .ok ⟨id, slot, none⟩)) :
    l.handleMove id slot options = (l, .ok ⟨id, slot, none⟩, none) := by
  simp [handleMove, h]

theorem panelAt?_of_isDock (hd : slot.isDock = true) :
    l.panelAt? slot = (l.holders slot).head? := by
  rw [panelAt?, if_pos hd, holders, List.head?_filter]

/-- The one holder of a dock is the panel that is found there. -/
theorem ConflictFree.panelAt?_eq (hf : l.ConflictFree) (hd : slot.isDock = true)
    (hp : l.panel? id = some p) (hv : p.visibleAt slot = true) : l.panelAt? slot = some p := by
  have hholds := mem_holders.mpr ⟨mem_of_panel? hp, hv⟩
  rw [panelAt?_of_isDock hd]
  cases hfirst : (l.holders slot).head? with
  | none => simp [List.head?_eq_none_iff.mp hfirst] at hholds
  | some q => rw [hf.holder_unique hd (List.mem_of_head? hfirst) hholds]

/-- An accepted move of a conflict-free layout is accepted again with any options. The second one
displaces nobody, changes nothing and calls for no command. If the slot is a dock, the target is the
panel found there. -/
theorem move_again {l after : Layout} (h : l.WellFormed) (hf : l.ConflictFree) {id : PanelId}
    {slot : Slot} {options : MoveOptions} {plan : MovePlan}
    (hmove : l.move id slot options = (after, .ok plan)) :
    (∀ again : MoveOptions, after.move id slot again = (after, .ok ⟨id, slot, none⟩) ∧
      after.handleMove id slot again = (after, .ok ⟨id, slot, none⟩, none) ∧
      after.handle (.move id slot again) = (after, none)) ∧
    (slot.isDock = true → ∃ p, after.panelAt? slot = some p ∧ after.panel? id = some p) := by
  obtain ⟨p, ha, hp⟩ := panel?_of_move hmove
  have hperform : l.perform (.move id slot options) = after := congrArg Prod.fst hmove
  have hwf : after.WellFormed := hperform ▸ h.perform _
  have hafter : after.ConflictFree := hperform ▸ hf.perform h rfl
  constructor
  · intro again
    have hsame : after.move id slot again = (after, .ok ⟨id, slot, none⟩) :=
      hwf.move_placed hp ha (hafter.freeFor_placed hp)
    have hhandle := handleMove_of_unchanged hsame
    exact ⟨hsame, hhandle, by rw [handle, hhandle]⟩
  · intro hd
    exact ⟨_, hafter.panelAt?_eq hd hp (visibleAt_placed_self hd), hp⟩

/-- Docs take the left slot and settings go to the right one, which docs have left. Docs can be sent
to the left again by force, and settings stay. -/
theorem move_again_settingsAndDocs :
    ∃ after, settingsAndDocs.move .docs .left ⟨false⟩ =
        (after, .ok ⟨.docs, .left, some ⟨.settings, .relocated .right⟩⟩) ∧
      after.move .docs .left .forced = (after, .ok ⟨.docs, .left, none⟩) ∧
      ∃ p, after.panelAt? .left = some p ∧ after.panel? .docs = some p :=
  have hmove : settingsAndDocs.move .docs .left ⟨false⟩ = (_, .ok _) := rfl
  have hagain := move_again (by decide +kernel) (by decide +kernel) hmove
  ⟨_, hmove, (hagain.1 .forced).1, hagain.2 rfl⟩

end Docking.Layout
