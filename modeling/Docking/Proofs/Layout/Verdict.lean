import Docking.Proofs.Layout.Step

/-! What a move does, said without the resolver. `Verdict` gives for each class of request its
answer and the layout after it, panel by panel; on a conflict-free layout a move meets its verdict
and nothing else does. -/
namespace Docking.Layout

variable {l mid after : Layout} {id target : PanelId} {slot : Slot} {options : MoveOptions}
  {p o : Panel} {change : Panel → Panel}

/-- `after` has the given panels in place of those of their names, and all else is as before. -/
structure Replaced (before after : Layout) (given : List Panel) : Prop where
  catalogue : after.catalogue = before.catalogue
  names : after.panels.map Panel.id = before.panels.map Panel.id
  stands : ∀ p ∈ given, after.panel? p.id = some p
  kept : ∀ id, (∀ p ∈ given, p.id ≠ id) → after.panel? id = before.panel? id

theorem Replaced.wellFormed {given : List Panel} (h : Replaced l after given)
    (hl : l.WellFormed) : after.WellFormed := by
  unfold WellFormed
  rw [h.names, h.catalogue]
  exact hl

/-- The given panels determine the layout after the replacement. -/
theorem Replaced.unique {given : List Panel} (hl : l.WellFormed) (ha : Replaced l after given)
    (hm : Replaced l mid given) : after = mid := by
  refine (ha.wellFormed hl).ext (hm.wellFormed hl) (ha.catalogue.trans hm.catalogue.symm) ?_
  intro id
  by_cases hid : ∃ q ∈ given, q.id = id
  · obtain ⟨q, hq, rfl⟩ := hid
    rw [ha.stands q hq, hm.stands q hq]
  · have hout : ∀ q ∈ given, q.id ≠ id := fun q hq heq => hid ⟨q, hq, heq⟩
    rw [ha.kept id hout, hm.kept id hout]

theorem replaced_modify (hc : KeepsId change) (hp : l.panel? id = some p) :
    Replaced l (l.modify id change) [change p] where
  catalogue := rfl
  names := map_id_modify hc
  stands := by
    simp only [List.mem_singleton, forall_eq, hc p, panel?_id hp]
    exact panel?_modify_self hc hp
  kept := by
    intro other hne
    simp only [List.mem_singleton, forall_eq, hc p, panel?_id hp] at hne
    exact panel?_modify_of_ne hc (Ne.symm hne)

theorem replaced_modify_modify {second : Panel → Panel} (hc : KeepsId change)
    (hs : KeepsId second) (hp : l.panel? id = some p) (ho : l.panel? o.id = some o)
    (hne : o.id ≠ id) :
    Replaced l ((l.modify id change).modify o.id second) [change p, second o] where
  catalogue := rfl
  names := (map_id_modify hs).trans (map_id_modify hc)
  stands := by
    simp only [List.mem_cons, List.not_mem_nil, or_false, forall_eq_or_imp, forall_eq, hc p, hs o,
      panel?_id hp]
    constructor
    · rw [panel?_modify_of_ne hs hne.symm]
      exact panel?_modify_self hc hp
    · exact panel?_modify_self hs ((panel?_modify_of_ne hc hne).trans ho)
  kept := by
    intro other hout
    simp only [List.mem_cons, List.not_mem_nil, or_false, forall_eq_or_imp, forall_eq, hc p, hs o,
      panel?_id hp] at hout
    rw [panel?_modify_of_ne hs hout.2.symm, panel?_modify_of_ne hc hout.1.symm]

/-- The slot is a dock, and this panel, another than the target, is visible in it. -/
def Contested (l : Layout) (slot : Slot) (target : PanelId) (o : Panel) : Prop :=
  slot.isDock = true ∧ o ∈ l.panels ∧ o.visible = true ∧ o.slot = slot ∧ o.id ≠ target

/-- The preferred slot of a displaced panel is another one than the contested slot, in sight, and
the center or held by nobody else. -/
def Relocatable (l : Layout) (contested : Slot) (o : Panel) : Prop :=
  o.placement.preferred ≠ contested ∧ o.placement.preferred ≠ .hidden ∧
    (o.placement.preferred = .center ∨ ∀ q ∈ l.holders o.placement.preferred, q.id = o.id)

/-- The answer to a request to move a panel, and the layout after it. -/
inductive Verdict (l : Layout) (target : PanelId) (slot : Slot) (options : MoveOptions) :
    Layout × Except MoveRejection MovePlan → Prop
  /-- The catalogue has no such panel. -/
  | missing (hp : target ∉ l.catalogue.ids) :
      Verdict l target slot options (l, .error ⟨.panelNotFound target.name, none⟩)
  /-- Not even force gets a panel into a slot that is not allowed. -/
  | forbidden {p : Panel} (hp : l.panel? target = some p)
      (ha : ¬ (slot = .hidden ∨ slot ∈ p.placement.allowed)) :
      Verdict l target slot options
        (l, .error ⟨.slotNotAllowed target slot, some p.placement.preferred⟩)
  | landed {p : Panel} {after : Layout} (hp : l.panel? target = some p)
      (ha : slot = .hidden ∨ slot ∈ p.placement.allowed)
      (hfree : slot = .center ∨ slot = .hidden ∨ ∀ q ∈ l.holders slot, q.id = target)
      (hafter : Replaced l after [{ p with slot := slot, visible := slot ≠ .hidden }]) :
      Verdict l target slot options (after, .ok ⟨target, slot, none⟩)
  /-- The occupant's new slot is judged in the layout in which the target has already moved. -/
  | relocated {p o : Panel} {mid after : Layout} (hp : l.panel? target = some p)
      (ha : slot = .hidden ∨ slot ∈ p.placement.allowed) (ho : l.Contested slot target o)
      (hwin : options.force = true ∨ o.priority < p.priority)
      (hmid : Replaced l mid [{ p with slot := slot, visible := slot ≠ .hidden }])
      (hroom : mid.Relocatable slot o)
      (hafter : Replaced l after [{ p with slot := slot, visible := slot ≠ .hidden },
        { o with slot := o.placement.preferred, visible := true }]) :
      Verdict l target slot options
        (after, .ok ⟨target, slot, some ⟨o.id, .relocated o.placement.preferred⟩⟩)
  | evicted {p o : Panel} {mid after : Layout} (hp : l.panel? target = some p)
      (ha : slot = .hidden ∨ slot ∈ p.placement.allowed) (ho : l.Contested slot target o)
      (hwin : options.force = true ∨ o.priority < p.priority)
      (hmid : Replaced l mid [{ p with slot := slot, visible := slot ≠ .hidden }])
      (hroom : ¬ mid.Relocatable slot o)
      (hafter : Replaced l after [{ p with slot := slot, visible := slot ≠ .hidden },
        { o with visible := false }]) :
      Verdict l target slot options (after, .ok ⟨target, slot, some ⟨o.id, .hidden⟩⟩)
  /-- The suggestion is the first allowed slot that is no dock or is held by nobody else. -/
  | occupied {p o : Panel} (hp : l.panel? target = some p)
      (ha : slot = .hidden ∨ slot ∈ p.placement.allowed) (ho : l.Contested slot target o)
      (hloss : ¬ (options.force = true ∨ o.priority < p.priority)) :
      Verdict l target slot options (l, .error ⟨.positionOccupied slot o.id,
        p.placement.allowed.find? fun free => decide (l.FreeFor free target)⟩)

theorem freeFor_iff : l.FreeFor slot id ↔
    slot = .center ∨ slot = .hidden ∨ ∀ q ∈ l.holders slot, q.id = id := by
  cases slot <;> simp [FreeFor, Slot.isDock]

theorem relocatable_iff : l.Relocatable slot o ↔ o.placement.preferred ≠ slot ∧
    o.placement.preferred ≠ .hidden ∧ l.FreeFor o.placement.preferred o.id := by
  unfold Relocatable
  rw [freeFor_iff]
  tauto

/-- In a conflict-free layout a contested dock has one occupant, the one the resolver finds. -/
theorem ConflictFree.occupant?_eq_some_iff (hf : l.ConflictFree) :
    l.occupant? slot target = some o ↔ l.Contested slot target o := by
  constructor
  · intro ho
    obtain ⟨hd, hmem, hne⟩ := occupant?_eq_some ho
    obtain ⟨hmem, hat⟩ := mem_holders.mp hmem
    exact ⟨hd, hmem, (visibleAt_iff.mp hat).1, (visibleAt_iff.mp hat).2, hne⟩
  · rintro ⟨hd, hmem, hv, hslot, hne⟩
    have hholds : o ∈ l.holders slot := mem_holders.mpr ⟨hmem, visibleAt_iff.mpr ⟨hv, hslot⟩⟩
    cases hq : l.occupant? slot target with
    | none => exact absurd (occupant?_eq_none_iff.mp hq hd o hholds) hne
    | some q => rw [hf.holder_unique hd (occupant?_eq_some hq).2.1 hholds]

/-- The resolver judges a relocation before the target moves and leaves the target out of account;
on a conflict-free layout this is the same as judging it afterwards. -/
theorem fate_of_relocatable
    (hroom : (l.modify target (Panel.placed slot)).Relocatable slot o) :
    l.fate target slot o = .relocated o.placement.preferred := by
  obtain ⟨hother, hseen, hfree⟩ := relocatable_iff.mp hroom
  have hall : ∀ q, l.occupant? o.placement.preferred o.id = some q → q.id = target := by
    intro q hq
    obtain ⟨hd, hmem, hne⟩ := occupant?_eq_some hq
    obtain ⟨hmem, hat⟩ := mem_holders.mp hmem
    by_contra hqt
    have hstay : q ∈ (l.modify target (Panel.placed slot)).panels :=
      List.mem_map.mpr ⟨q, hmem, if_neg hqt⟩
    exact hne (hfree hd q (mem_holders.mpr ⟨hstay, hat⟩))
  simpa [fate, hother, hseen, Option.all_eq_true] using hall

theorem ConflictFree.fate_of_not_relocatable (hf : l.ConflictFree)
    (hroom : ¬ (l.modify target (Panel.placed slot)).Relocatable slot o) :
    l.fate target slot o = .hidden := by
  rcases fate_cases l target slot o with ⟨-, hother, hseen, hall⟩ | hfate
  · refine absurd (relocatable_iff.mpr ⟨hother, hseen, ?_⟩) hroom
    intro hd q hq
    obtain ⟨hmem, hat⟩ := mem_holders.mp hq
    rcases mem_modify hmem with ⟨r, -, -, rfl⟩ | ⟨hmem, hne⟩
    · exact absurd (visibleAt_iff.mp hat).2 hother.symm
    · have hholds := mem_holders.mpr ⟨hmem, hat⟩
      cases hocc : l.occupant? o.placement.preferred o.id with
      | none => exact occupant?_eq_none_iff.mp hocc hd q hholds
      | some r =>
        have hqr := hf.holder_unique hd hholds (occupant?_eq_some hocc).2.1
        exact absurd (hqr ▸ hall r hocc) hne
  · exact hfate

theorem replaced_placed (hp : l.panel? target = some p) :
    Replaced l (l.modify target (Panel.placed slot))
      [{ p with slot := slot, visible := slot ≠ .hidden }] :=
  replaced_modify (Panel.keepsId_placed slot) hp

/-- The layout after a relocation has the target and the occupant in their new slots. -/
theorem replaced_relocated (slot : Slot) (hp : l.panel? target = some p)
    (ho : l.panel? o.id = some o) (hne : o.id ≠ target) (hseen : o.placement.preferred ≠ .hidden) :
    Replaced l (l.carryOut ⟨target, slot, some ⟨o.id, .relocated o.placement.preferred⟩⟩)
      [{ p with slot := slot, visible := slot ≠ .hidden },
        { o with slot := o.placement.preferred, visible := true }] := by
  have hplaced : o.placed o.placement.preferred =
      { o with slot := o.placement.preferred, visible := true } := by simp [Panel.placed, hseen]
  simp only [carryOut, settle_relocated hseen]
  rw [← hplaced]
  exact replaced_modify_modify (Panel.keepsId_placed slot) (Panel.keepsId_placed _) hp ho hne

theorem replaced_evicted (slot : Slot) (hp : l.panel? target = some p)
    (ho : l.panel? o.id = some o) (hne : o.id ≠ target) :
    Replaced l (l.carryOut ⟨target, slot, some ⟨o.id, .hidden⟩⟩)
      [{ p with slot := slot, visible := slot ≠ .hidden }, { o with visible := false }] :=
  replaced_modify_modify (Panel.keepsId_placed slot) Panel.keepsId_concealed hp ho hne

/-- A verdict is what the move does: the conditions of the classes lead into the branches of the
resolver, and the layout after it is the only one with the panels in those places. -/
theorem Verdict.eq_move {r : Layout × Except MoveRejection MovePlan} (h : l.WellFormed)
    (hf : l.ConflictFree) (hv : Verdict l target slot options r) :
    r = l.move target slot options := by
  cases hv with
  | missing hp => simp [move, plan_of_missing (h.panel?_eq_none_iff.mpr hp)]
  | forbidden hp ha =>
    rw [← Placement.allows_iff, Bool.not_eq_true] at ha
    simp [move, plan_of_forbidden hp ha]
  | landed hp ha hfree hafter =>
    rw [move, plan_of_free hp (Placement.allows_iff.mpr ha) (freeFor_iff.mpr hfree)]
    rw [hafter.unique h (replaced_placed hp)]
    rfl
  | @relocated p o mid after hp ha ho hwin hmid hroom hafter =>
    rw [hmid.unique h (replaced_placed hp)] at hroom
    rw [move, plan_of_win hp (Placement.allows_iff.mpr ha) (hf.occupant?_eq_some_iff.mpr ho) hwin,
      fate_of_relocatable hroom]
    have hplaced := replaced_relocated slot hp (h.panel?_of_mem ho.2.1) ho.2.2.2.2 hroom.2.1
    rw [hafter.unique h hplaced]
  | @evicted p o mid after hp ha ho hwin hmid hroom hafter =>
    rw [hmid.unique h (replaced_placed hp)] at hroom
    rw [move, plan_of_win hp (Placement.allows_iff.mpr ha) (hf.occupant?_eq_some_iff.mpr ho) hwin,
      hf.fate_of_not_relocatable hroom]
    have hplaced := replaced_evicted slot hp (h.panel?_of_mem ho.2.1) ho.2.2.2.2
    rw [hafter.unique h hplaced]
  | occupied hp ha ho hloss =>
    simp [move, plan_of_loss hp (Placement.allows_iff.mpr ha) (hf.occupant?_eq_some_iff.mpr ho)
      hloss]

/-- The classes of requests leave none out. -/
theorem exists_verdict (h : l.WellFormed) (hf : l.ConflictFree) (target : PanelId) (slot : Slot)
    (options : MoveOptions) : ∃ r, Verdict l target slot options r := by
  cases hp : l.panel? target with
  | none => exact ⟨_, .missing (h.panel?_eq_none_iff.mp hp)⟩
  | some p =>
    by_cases ha : slot = .hidden ∨ slot ∈ p.placement.allowed
    · cases ho : l.occupant? slot target with
      | none =>
        exact ⟨_, .landed hp ha (freeFor_iff.mp (occupant?_eq_none_iff.mp ho))
          (replaced_placed hp)⟩
      | some o =>
        have hcontested := hf.occupant?_eq_some_iff.mp ho
        have hself := h.panel?_of_mem hcontested.2.1
        have hne := hcontested.2.2.2.2
        by_cases hwin : options.force = true ∨ o.priority < p.priority
        · by_cases hroom : (l.modify target (Panel.placed slot)).Relocatable slot o
          · exact ⟨_, .relocated hp ha hcontested hwin (replaced_placed hp) hroom
              (replaced_relocated slot hp hself hne hroom.2.1)⟩
          · exact ⟨_, .evicted hp ha hcontested hwin (replaced_placed hp) hroom
              (replaced_evicted slot hp hself hne)⟩
        · exact ⟨_, .occupied hp ha hcontested hwin⟩
    · exact ⟨_, .forbidden hp ha⟩

/-- The panels moved are the target and, where it pushes one out, the occupant behind it. No other
panel is touched. -/
theorem Verdict.moved {plan : MovePlan} (hv : Verdict l target slot options (after, .ok plan)) :
    ((slot = .center ∨ slot = .hidden ∨ ∀ q ∈ l.holders slot, q.id = target) ∧
        plan.moved = [target] ∨
      ∃ o, l.Contested slot target o ∧ plan.moved = [target, o.id]) ∧
    ∀ id ∉ plan.moved, after.panel? id = l.panel? id := by
  cases hv with
  | landed hp ha hfree hafter =>
    refine ⟨.inl ⟨hfree, rfl⟩, fun id hid => hafter.kept id ?_⟩
    simpa [MovePlan.moved, panel?_id hp, eq_comm] using hid
  | relocated hp ha ho hwin hmid hroom hafter =>
    refine ⟨.inr ⟨_, ho, rfl⟩, fun id hid => hafter.kept id ?_⟩
    simpa [MovePlan.moved, panel?_id hp, eq_comm] using hid
  | evicted hp ha ho hwin hmid hroom hafter =>
    refine ⟨.inr ⟨_, ho, rfl⟩, fun id hid => hafter.kept id ?_⟩
    simpa [MovePlan.moved, panel?_id hp, eq_comm] using hid

/-- On a conflict-free layout the verdict of every request is what the move does, layout and
answer, and there is no other. -/
theorem verdict_iff_move (l : Layout) (h : l.WellFormed) (hf : l.ConflictFree) (target : PanelId)
    (slot : Slot) (options : MoveOptions) (r : Layout × Except MoveRejection MovePlan) :
    Verdict l target slot options r ↔ r = l.move target slot options := by
  constructor
  · exact Verdict.eq_move h hf
  · rintro rfl
    obtain ⟨r, hv⟩ := exists_verdict h hf target slot options
    exact hv.eq_move h hf ▸ hv

def settingsAndDocs : Layout :=
  (ofCatalogue .builtin).run [.setSlot .settings .left, .reveal .settings, .reveal .docs]

/-- The occupant takes the slot that the target leaves. -/
theorem verdict_iff_move_swap :
    Verdict settingsAndDocs .docs .left ⟨false⟩ (settingsAndDocs.move .docs .left ⟨false⟩) ∧
    (settingsAndDocs.move .docs .left ⟨false⟩).2 =
      .ok ⟨.docs, .left, some ⟨.settings, .relocated .right⟩⟩ :=
  ⟨(verdict_iff_move settingsAndDocs (by decide +kernel) (by decide +kernel) _ _ _ _).mpr rfl, rfl⟩

end Docking.Layout
