import Docking.Proofs.Layout.Snapshot

/-! What follows from a message. Each operation decides in its own way whether it changed anything;
whichever way it goes, a save is asked for exactly when the layout differs afterwards, and a report
is made exactly of a rejected move. -/
namespace Docking

namespace Panel

variable {p q : Panel} {slot : Slot}

theorem differs_concealed (h : p.visible = true) : p.Differs p.concealed :=
  .inr (.inl (by simp [h, concealed]))

theorem placed_eq_self (h : (p.slot, p.visible) = ((p.placed slot).slot, (p.placed slot).visible)) :
    p.placed slot = p := by
  cases p
  simp_all [placed]

theorem differs_placed
    (h : (p.slot, p.visible) ≠ ((p.placed slot).slot, (p.placed slot).visible)) :
    p.Differs (p.placed slot) := by
  rcases Decidable.not_and_iff_or_not.mp fun heq => h (Prod.ext heq.1 heq.2) with hslot | hvisible
  · exact .inl hslot
  · exact .inr (.inl hvisible)

theorem beq_iff : (p == q) = true ↔ p.id = q.id ∧ p.slot = q.slot ∧ p.visible = q.visible ∧
    (p.size == q.size) = true ∧ (p.bounds == q.bounds) = true ∧ p.placement = q.placement ∧
    p.priority = q.priority := by
  change (p.id == q.id && (p.slot == q.slot && (p.visible == q.visible && (p.size == q.size &&
    (p.bounds == q.bounds &&
      (p.placement == q.placement && p.priority == q.priority)))))) = true ↔ _
  simp only [Bool.and_eq_true, beq_iff_eq]

theorem Agrees.beq (h : p.Agrees q) (hb : p.bounds.Numeric) : (p == q) = true :=
  beq_iff.mpr ⟨h.id, h.slot, h.visible, h.size, h.bounds ▸ hb.beq_self, h.placement, h.priority⟩

end Panel

namespace Layout

variable {c : Catalogue} {l m : Layout} {id : PanelId} {slot : Slot} {options : MoveOptions}
  {p o : Panel} {change : Panel → Panel} {rejection : MoveRejection}

/-- The flag of an operation: raised it means a difference, down it means the same layout. -/
structure Flagged (l : Layout) (changed : Layout × Bool) : Prop where
  differs : changed.2 = true → l.Differs changed.1
  same : changed.2 = false → changed.1 = l

theorem flagged_idle (l : Layout) : l.Flagged (l, false) := ⟨nofun, fun _ => rfl⟩

theorem differs_modify (hk : KeepsId change) (hp : l.panel? id = some p)
    (hdiff : p.Differs (change p)) : l.Differs (l.modify id change) :=
  ⟨id, p, change p, hp, panel?_modify_self hk hp, hdiff⟩

theorem flagged_modify (hk : KeepsId change) (hp : l.panel? id = some p)
    (hdiff : p.Differs (change p)) : l.Flagged (l.modify id change, true) :=
  ⟨fun _ => differs_modify hk hp hdiff, nofun⟩

theorem flagged_hide (l : Layout) (id : PanelId) : l.Flagged (l.hide id) := by
  unfold hide
  split
  · next hv =>
    obtain ⟨p, hp, hv⟩ := visible_iff.mp hv
    exact flagged_modify Panel.keepsId_concealed hp (Panel.differs_concealed hv)
  · exact flagged_idle l

theorem flagged_reveal (l : Layout) (id : PanelId) : l.Flagged (l.reveal id) := by
  unfold reveal
  split
  · exact flagged_idle l
  · next p hp =>
    split
    · exact flagged_idle l
    · next hv =>
      simp only [Bool.or_eq_true, not_or, Bool.not_eq_true] at hv
      exact flagged_modify Panel.keepsId_revealed hp (.inr (.inl (by simp [hv.1])))

theorem flagged_toggle (l : Layout) (id : PanelId) : l.Flagged (l.toggle id) := by
  unfold toggle
  split
  · exact flagged_hide l id
  · exact flagged_reveal l id

theorem flagged_setSize (l : Layout) (id : PanelId) (requested : Size) :
    l.Flagged (l.setSize id requested) := by
  unfold setSize
  split
  · exact flagged_idle l
  · next p hp =>
    split
    · exact flagged_idle l
    · split
      · exact flagged_idle l
      · next hsize =>
        exact flagged_modify (Panel.keepsId_resized requested) hp
          (.inr (.inr (Bool.not_eq_true _ ▸ hsize)))

theorem flagged_resizeBy (l : Layout) (id : PanelId) (delta : Size) :
    l.Flagged (l.resizeBy id delta) := by
  unfold resizeBy
  split
  · exact flagged_idle l
  · exact flagged_setSize l id _

theorem flagged_setSlot (l : Layout) (id : PanelId) (slot : Slot) :
    l.Flagged (l.setSlot id slot) := by
  unfold setSlot
  split
  · exact flagged_idle l
  · next p hp =>
    split
    · next h =>
      simp only [Bool.and_eq_true, decide_eq_true_eq] at h
      exact flagged_modify (Panel.keepsId_assigned slot) hp (.inl h.2)
    · exact flagged_idle l

theorem WellFormed.flagged_hideAll (h : l.WellFormed) : l.Flagged l.hideAll where
  differs := by
    intro hany
    obtain ⟨p, hp, hv⟩ := List.any_eq_true.mp hany
    have hlook := h.panel?_of_mem hp
    have hafter : l.concealAll.panel? p.id = some p.concealed := by
      rw [panel?_concealAll, hlook, Option.map_some]
    exact ⟨p.id, p, p.concealed, hlook, hafter, Panel.differs_concealed hv⟩
  same := by
    intro hnone
    have hself : ∀ p ∈ l.panels, p.concealed = p := fun p hp =>
      Panel.concealed_eq_self (Bool.not_eq_true _ ▸ List.any_eq_false.mp hnone p hp)
    exact congrArg (Layout.mk l.catalogue) ((List.map_congr_left hself).trans (List.map_id _))

theorem standing_of_panel? (hp : l.panel? id = some p) :
    l.standing id = some (p.slot, p.visible) := by
  rw [standing, hp, Option.map_some]

/-- A panel that lands is flagged when its slot or its visibility is another one. -/
theorem WellFormed.flagged_land (h : l.WellFormed) (hp : l.panel? id = some p) (slot : Slot) :
    l.Flagged (l.modify id (Panel.placed slot),
      !decide (l.standing id = (l.modify id (Panel.placed slot)).standing id)) := by
  have hafter := panel?_modify_self (Panel.keepsId_placed slot) hp
  rw [standing_of_panel? hp, standing_of_panel? hafter]
  by_cases hsame : (p.slot, p.visible) = ((p.placed slot).slot, (p.placed slot).visible)
  · rw [decide_eq_true (congrArg some hsame)]
    exact ⟨nofun, fun _ => h.modify_eq_self_of_panel? hp (Panel.placed_eq_self hsame)⟩
  · rw [decide_eq_false fun heq => hsame (Option.some.inj heq)]
    exact flagged_modify (Panel.keepsId_placed slot) hp (Panel.differs_placed hsame)

/-- A displaced panel differs, whatever becomes of it, so such a move is never idle. -/
theorem WellFormed.differs_displaced (h : l.WellFormed) (ho : l.occupant? slot id = some o)
    (hk : KeepsId change) (hdiff : o.Differs (change o)) :
    l.Differs ((l.modify id (Panel.placed slot)).modify o.id change) := by
  obtain ⟨-, hmem, hne⟩ := occupant?_eq_some ho
  have hlook := h.panel?_of_mem (mem_holders.mp hmem).1
  have hstay : (l.modify id (Panel.placed slot)).panel? o.id = some o :=
    (panel?_modify_of_ne (Panel.keepsId_placed slot) hne).trans hlook
  exact ⟨o.id, o, change o, hlook, panel?_modify_self hk hstay, hdiff⟩

/-- Whether an accepted move is idle is read off its target, unless it displaces another panel. -/
theorem WellFormed.flagged_carryOut (h : l.WellFormed) {plan : MovePlan}
    (hplan : l.plan id slot options = .ok plan) :
    l.Flagged (l.carryOut plan,
      !(plan.displaced.isNone && l.standing id = (l.carryOut plan).standing id)) := by
  obtain ⟨p, hp, -, ⟨-, rfl⟩ | ⟨o, ho, -, rfl⟩⟩ := plan_eq_ok hplan
  · exact h.flagged_land hp slot
  · refine ⟨fun _ => ?_, nofun⟩
    obtain ⟨-, hmem, -⟩ := occupant?_eq_some ho
    have hv := visibleAt_iff.mp (mem_holders.mp hmem).2
    -- the occupant leaves its slot for another one, or stays there out of sight
    rcases fate_cases l id slot o with ⟨hf, hother, hseen, -⟩ | hf
    · simp only [carryOut, hf, settle_relocated hseen]
      exact h.differs_displaced ho (Panel.keepsId_placed _) (.inl (hv.2 ▸ hother.symm))
    · simp only [carryOut, settle, hf]
      exact h.differs_displaced ho Panel.keepsId_concealed (Panel.differs_concealed hv.1)

theorem handle_of_rejected (hplan : l.plan id slot options = .error rejection) :
    l.handle (.move id slot options) = (l, some (.report rejection)) := by
  simp [handle, handleMove, move, hplan]

/-- A message is a rejected move or a reset, or it saves what an exact flag tells. -/
theorem WellFormed.handle_cases (h : l.WellFormed) (m : Message) :
    (∃ id slot options rejection, m = .move id slot options ∧
      l.plan id slot options = .error rejection) ∨
    m = .reset ∨ ∃ changed, l.handle m = saveIf changed ∧ l.Flagged changed := by
  cases m with
  | toggle id => exact .inr (.inr ⟨_, rfl, flagged_toggle l id⟩)
  | reveal id => exact .inr (.inr ⟨_, rfl, flagged_reveal l id⟩)
  | hide id => exact .inr (.inr ⟨_, rfl, flagged_hide l id⟩)
  | setSize id requested => exact .inr (.inr ⟨_, rfl, flagged_setSize l id requested⟩)
  | resizeBy id delta => exact .inr (.inr ⟨_, rfl, flagged_resizeBy l id delta⟩)
  | setSlot id slot => exact .inr (.inr ⟨_, rfl, flagged_setSlot l id slot⟩)
  | hideAll => exact .inr (.inr ⟨_, rfl, h.flagged_hideAll⟩)
  | reset => exact .inr (.inl rfl)
  | move id slot options =>
    cases hplan : l.plan id slot options with
    | error rejection => exact .inl ⟨id, slot, options, rejection, rfl, hplan⟩
    | ok plan =>
      refine .inr (.inr ⟨_, ?_, h.flagged_carryOut hplan⟩)
      simp only [handle, handleMove, move, hplan, saveIf]
      cases plan.displaced.isNone && decide (l.standing id = (l.carryOut plan).standing id) <;> rfl

theorem saveIf_eq_save {changed : Layout × Bool} :
    (saveIf changed).2 = some .save ↔ changed.2 = true := by
  unfold saveIf
  split <;> simp_all

theorem saveIf_eq_none {changed : Layout × Bool} :
    (saveIf changed).2 = none ↔ changed.2 = false := by
  unfold saveIf
  split <;> simp_all

theorem saveIf_ne_report {changed : Layout × Bool} :
    (saveIf changed).2 ≠ some (.report rejection) := by
  unfold saveIf
  split <;> simp

theorem beq_panels_iff {ps qs : List Panel} :
    (ps == qs) = true ↔ List.Forall₂ (fun p q => (p == q) = true) ps qs := by
  induction ps generalizing qs with
  | nil => cases qs <;> simp
  | cons p ps ih =>
    cases qs with
    | nil => simp
    | cons q qs => rw [List.cons_beq_cons, Bool.and_eq_true, ih, List.forall₂_cons]

/-- Compared as a whole, panels over one catalogue are equal when slots, visibility and sizes are:
the bounds of an entry that holds numbers never tell a panel from itself. -/
theorem Structured.beq_iff (hl : Structured c l) (hm : Structured c m) (hn : l.Numeric) :
    (l.panels == m.panels) = true ↔ l.Agrees m := by
  rw [beq_panels_iff]
  constructor
  · intro h
    refine (hl.agrees_iff hm).mpr ?_
    rintro ⟨id, p, q, hp, hq, hdiff⟩
    have hrel := rel_panel? (fun _ _ hpq => (Panel.beq_iff.mp hpq).1) h id
    rw [hp, hq] at hrel
    obtain ⟨hpq⟩ := hrel
    obtain ⟨-, hslot, hvisible, hsize, -⟩ := Panel.beq_iff.mp hpq
    exact Panel.not_differs_iff.mpr ⟨hslot, hvisible, hsize⟩ hdiff
  · intro h
    -- bounds are compared as values too, so they have to be numbers to equal themselves
    have hboth := (List.forall₂_and_left l.panels m.panels).mpr ⟨hn.bounds, h.panels⟩
    exact hboth.imp fun _ _ hpq => hpq.2.beq hpq.1

theorem Structured.reset_changed_iff (h : Structured c l) (hc : c.Valid) (hn : c.Numeric) :
    l.reset.2 = true ↔ l.Differs l.reset.1 := by
  have hfresh := structured_ofCatalogue hc
  have hnum : (ofCatalogue c).Numeric := Reachable.fresh.numeric hn
  have hsymm : (ofCatalogue c).Agrees l ↔ l.Agrees (ofCatalogue c) := ⟨.symm, .symm⟩
  simp only [reset, h.catalogue]
  rw [bne, Bool.not_eq_true', ← Bool.not_eq_true, hfresh.beq_iff h hnum, hsymm,
    h.agrees_iff hfresh, not_not]

theorem Structured.handle_save_iff (h : Structured c l) (hc : c.Valid) (hn : c.Numeric)
    (hnum : l.Numeric) (m : Message) :
    (l.handle m).2 = some .save ↔ l.Differs (l.handle m).1 := by
  have hself := hnum.agrees_self.not_differs
  rcases h.wellFormed.handle_cases m with
    ⟨id, slot, options, rejection, rfl, hplan⟩ | rfl | ⟨changed, heq, hflag⟩
  · rw [handle_of_rejected hplan]
    simp [hself]
  · exact saveIf_eq_save.trans (h.reset_changed_iff hc hn)
  · rw [heq, saveIf_eq_save]
    refine ⟨hflag.differs, fun hdiff => ?_⟩
    by_contra hdown
    exact hself (hflag.same (Bool.not_eq_true _ ▸ hdown) ▸ hdiff)

theorem WellFormed.handle_report_iff (h : l.WellFormed) (m : Message) :
    (l.handle m).2 = some (.report rejection) ↔ ∃ id slot options, m = .move id slot options ∧
      l.plan id slot options = .error rejection := by
  constructor
  · intro hreport
    rcases h.handle_cases m with
      ⟨id, slot, options, other, rfl, hplan⟩ | rfl | ⟨changed, heq, -⟩
    · rw [handle_of_rejected hplan] at hreport
      cases hreport
      exact ⟨id, slot, options, rfl, hplan⟩
    · exact absurd hreport saveIf_ne_report
    · exact absurd (heq ▸ hreport) saveIf_ne_report
  · rintro ⟨id, slot, options, rfl, hplan⟩
    rw [handle_of_rejected hplan]

theorem WellFormed.handle_of_report (h : l.WellFormed) {m : Message}
    (hreport : (l.handle m).2 = some (.report rejection)) : (l.handle m).1 = l := by
  obtain ⟨id, slot, options, rfl, hplan⟩ := (h.handle_report_iff m).mp hreport
  rw [handle_of_rejected hplan]

theorem WellFormed.handle_of_none (h : l.WellFormed) {m : Message} (hm : m ≠ .reset)
    (hnone : (l.handle m).2 = none) : (l.handle m).1 = l := by
  rcases h.handle_cases m with
    ⟨id, slot, options, rejection, rfl, hplan⟩ | rfl | ⟨changed, heq, hflag⟩
  · rw [handle_of_rejected hplan]
  · exact absurd rfl hm
  · rw [heq] at hnone ⊢
    exact hflag.same (saveIf_eq_none.mp hnone)

/-- Over a catalogue of numbers a save is asked for exactly when the layout differs afterwards,
that is, when the difference of the snapshots is a text and the trace carries it. A rejection is
reported exactly of a move that planning rejects, and leaves the layout as it was. Without a
command nothing has changed; a reset may still have turned one zero into the other. A move that
returns its outcome has the same layout and command. -/
theorem handle_reports {c : Catalogue} (hc : c.Obtainable) (hn : c.Numeric) {l : Layout}
    (hl : Reachable c l) (m : Message) :
    ((l.handle m).2 = some .save ↔ l.Differs (l.handle m).1) ∧
    (l.Differs (l.handle m).1 ↔
      ((Snapshot.ofLayout l).diff (.ofLayout (l.handle m).1)).isSome = true) ∧
    (l.Differs (l.handle m).1 ↔ ∃ text, Event.layoutChanged text ∈ l.handleEvents m) ∧
    (∀ rejection, (l.handle m).2 = some (.report rejection) ↔
      ∃ id slot options, m = .move id slot options ∧ l.plan id slot options = .error rejection) ∧
    (∀ rejection, (l.handle m).2 = some (.report rejection) → (l.handle m).1 = l) ∧
    ((l.handle m).2 = none → l.Agrees (l.handle m).1 ∧ (m ≠ .reset → (l.handle m).1 = l)) ∧
    ∀ id slot options, l.handleMove id slot options =
      ((l.handle (.move id slot options)).1, (l.move id slot options).2,
        (l.handle (.move id slot options)).2) := by
  have hs := hl.structured hc.valid
  have hafter : Structured c (l.handle m).1 := by
    rw [handle_fst]
    exact (Reachable.performed m hl).structured hc.valid
  have hsave := hs.handle_save_iff hc.valid hn (hl.numeric hn) m
  have hdiff := Snapshot.isSome_diff_ofLayout hs hafter
  refine ⟨hsave, hdiff.symm, ?_, fun _ => hs.wellFormed.handle_report_iff m,
    fun _ => hs.wellFormed.handle_of_report, ?_, ?_⟩
  · simp only [layoutChanged_mem_handleEvents, ← Option.isSome_iff_exists, hdiff]
  · intro hnone
    have hsame : ¬ l.Differs (l.handle m).1 := fun h => by simp [hsave.mpr h] at hnone
    exact ⟨(hs.agrees_iff hafter).mpr hsame, fun hm => hs.wellFormed.handle_of_none hm hnone⟩
  · intro id slot options
    simp only [handle, handleMove]
    cases hplan : l.plan id slot options <;> simp [move, hplan]

/-- Docs moved back where they were forced out ask for a save, so docs or the terminal differ. -/
theorem handle_reports_restoredDocs :
    Catalogue.builtin.Obtainable ∧ Catalogue.builtin.Numeric ∧ Reachable .builtin restoredDocs ∧
      restoredDocs.Differs (restoredDocs.handle (.move .docs .left .forced)).1 :=
  have hl : Reachable .builtin restoredDocs := .performed _ (.restored _)
  have hsave : (restoredDocs.handle (.move .docs .left .forced)).2 = some .save := by
    decide +kernel
  ⟨.builtin, Catalogue.builtin_numeric, hl,
    (handle_reports .builtin Catalogue.builtin_numeric hl _).1.mp hsave⟩

end Layout

end Docking
