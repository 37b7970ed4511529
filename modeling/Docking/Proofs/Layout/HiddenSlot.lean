import Docking.Proofs.Layout.SingleOccupancy

/-! Panels in sight although they are put away. Moves tie visibility to the slot, so a panel that is
moved into the hidden slot goes out of sight, and no panel is pushed out into it. Bringing a panel
into sight looks at the docks alone: it is the one way by which a panel in the hidden slot becomes
visible. -/
namespace Docking.Layout

variable {l after : Layout} {m : Message} {id : PanelId} {change : Panel → Panel}

/-- No panel is visible in the hidden slot. -/
def HiddenUnseen (l : Layout) : Prop := ∀ p ∈ l.panels, p.visibleAt .hidden = false

instance (l : Layout) : Decidable l.HiddenUnseen :=
  inferInstanceAs (Decidable (∀ p ∈ l.panels, p.visibleAt .hidden = false))

/-- The message asks to bring into sight a panel that sits in the hidden slot. -/
def uncovers (l : Layout) : Message → Bool
  | .toggle id | .reveal id => (l.panel? id).any fun p => p.slot = .hidden
  | _ => false

theorem uncovers_eq_true_iff : l.uncovers m = true ↔
    ∃ id p, (m = .toggle id ∨ m = .reveal id) ∧ l.panel? id = some p ∧ p.slot = .hidden := by
  constructor
  · intro h
    cases m with
    | toggle id | reveal id =>
      obtain ⟨p, hp, hslot⟩ := (Option.any_eq_true _ _).mp h
      exact ⟨id, p, by simp, hp, by simpa using hslot⟩
    | _ => cases h
  · rintro ⟨id, p, rfl | rfl, hp, hslot⟩ <;> simp [uncovers, hp, hslot]

theorem HiddenUnseen.modify (h : l.HiddenUnseen)
    (hchange : ∀ p ∈ l.panels, p.id = id → (change p).visibleAt .hidden = false) :
    (l.modify id change).HiddenUnseen := by
  intro q hq
  rcases mem_modify hq with ⟨p, hp, hid, rfl⟩ | ⟨hmem, -⟩
  · exact hchange p hp hid
  · exact h q hmem

theorem visibleAt_placed_hidden (p : Panel) (slot : Slot) :
    (p.placed slot).visibleAt .hidden = false := by
  by_cases hs : slot = .hidden <;> simp [Panel.visibleAt, Panel.placed, hs]

theorem HiddenUnseen.place (h : l.HiddenUnseen) (slot : Slot) :
    (l.modify id (Panel.placed slot)).HiddenUnseen :=
  h.modify fun p _ _ => visibleAt_placed_hidden p slot

/-- A change that heeds the docks exposes no panel, unless it brings one out of the hidden slot. -/
theorem HiddenUnseen.step (h : l.HiddenUnseen) (hwf : l.WellFormed) (hs : l.Step m after)
    (hm : m.heedsDocks = true) (hcover : l.uncovers m = false) : after.HiddenUnseen := by
  cases hs with
  | idle => exact h
  | conceal => exact h.modify fun p _ _ => Panel.visibleAt_concealed p .hidden
  | @reveal _ id p hm hp _ _ =>
    have hslot : p.slot ≠ .hidden := by
      intro hslot
      rw [uncovers_eq_true_iff.mpr ⟨id, p, hm, hp, hslot⟩] at hcover
      cases hcover
    refine h.modify fun q hq hid => ?_
    obtain rfl : q = p := hwf.eq_of_panel? hp hq hid
    rw [Panel.visibleAt_revealed, decide_eq_false hslot]
  | resize => exact h.modify fun p hp _ => (Panel.visibleAt_resized _ p .hidden).trans (h p hp)
  | assign => simp [Message.heedsDocks] at hm
  | land => exact h.place _
  | relocate => exact (h.place _).place _
  | evict => exact (h.place _).modify fun p _ _ => Panel.visibleAt_concealed p .hidden
  | hideAll =>
    intro q hq
    obtain ⟨p, -, rfl⟩ := List.mem_map.mp hq
    exact Panel.visibleAt_concealed p .hidden
  | reset => simp [Message.heedsDocks] at hm

/-- Nothing stands in the way of a panel that is brought out of the hidden slot, since that is no
dock. -/
theorem HiddenUnseen.reveal_eq (h : l.HiddenUnseen) {p : Panel} (hp : l.panel? id = some p)
    (hslot : p.slot = .hidden) :
    l.visible id = false ∧ (l.reveal id).1 = l.modify id Panel.revealed := by
  have hunseen : p.visible = false := by
    simpa [Panel.visibleAt, hslot] using h p (mem_of_panel? hp)
  have hfree : l.FreeFor p.slot id := by simp [FreeFor, hslot, Slot.isDock]
  exact ⟨by simp [visible, hp, hunseen], congrArg Prod.fst (reveal_of_free hp hunseen hfree)⟩

theorem HiddenUnseen.perform_of_uncovers (h : l.HiddenUnseen) (hcover : l.uncovers m = true) :
    ¬ (l.perform m).HiddenUnseen := by
  obtain ⟨id, p, hm, hp, hslot⟩ := uncovers_eq_true_iff.mp hcover
  obtain ⟨hunseen, hrevealed⟩ := h.reveal_eq hp hslot
  have hperform : l.perform m = l.modify id Panel.revealed := by
    rcases hm with rfl | rfl
    · simpa [perform, toggle, hunseen] using hrevealed
    · exact hrevealed
  rw [hperform]
  intro hafter
  have hstill := hafter p.revealed (mem_of_panel? (panel?_modify_self Panel.keepsId_revealed hp))
  simp [hslot] at hstill

theorem HiddenUnseen.perform_iff (h : l.HiddenUnseen) (hwf : l.WellFormed)
    (hm : m.heedsDocks = true) : (l.perform m).HiddenUnseen ↔ l.uncovers m = false := by
  constructor
  · intro hafter
    by_contra hcover
    exact h.perform_of_uncovers (by simpa using hcover) hafter
  · exact h.step hwf (step_perform l m) hm

/-- A run passes only through layouts that expose no panel exactly if no message of it brings a
panel out of the hidden slot. -/
theorem HiddenUnseen.run_iff {ms : List Message} (h : l.HiddenUnseen) (hwf : l.WellFormed)
    (hms : ∀ m ∈ ms, m.heedsDocks = true) :
    (∀ i ≤ ms.length, (l.run (ms.take i)).HiddenUnseen) ↔
      ∀ i (hi : i < ms.length), (l.run (ms.take i)).uncovers ms[i] = false := by
  induction ms generalizing l with
  | nil =>
    simp only [List.length_nil, List.take_nil, Nat.not_lt_zero, IsEmpty.forall_iff, forall_const,
      iff_true]
    exact fun _ _ => h
  | cons m ms ih =>
    have hm := hms m List.mem_cons_self
    have hrest : ∀ n ∈ ms, n.heedsDocks = true := fun n hn => hms n (List.mem_cons_of_mem _ hn)
    -- either side says of the first message that the next layout exposes nothing, which is what the
    -- rest of the run has to start with
    constructor
    · intro hall i hi
      have hafter : (l.perform m).HiddenUnseen := hall 1 (by simp)
      cases i with
      | zero => exact (h.perform_iff hwf hm).mp hafter
      | succ i =>
        refine (ih hafter (hwf.perform m) hrest).mp (fun j hj => ?_) i (Nat.lt_of_succ_lt_succ hi)
        exact hall (j + 1) (Nat.succ_le_succ hj)
    · intro hall i hi
      have hafter : (l.perform m).HiddenUnseen :=
        (h.perform_iff hwf hm).mpr (hall 0 (Nat.zero_lt_succ _))
      cases i with
      | zero => exact h
      | succ i =>
        refine (ih hafter (hwf.perform m) hrest).mpr (fun j hj => ?_) i (Nat.le_of_succ_le_succ hi)
        exact hall (j + 1) (Nat.succ_lt_succ hj)

/-- As long as the docks are heeded, a panel becomes visible in the hidden slot just when a toggle
or a reveal names one that sits there. So a run in which none does, at the point it is reached,
comes to no layout with such a panel, and a run in which one does passes through one. -/
theorem exposed_iff_uncovered :
    (∀ (l : Layout) (m : Message), l.WellFormed → l.HiddenUnseen → m.heedsDocks = true →
      ((l.perform m).HiddenUnseen ↔ l.uncovers m = false)) ∧
    ∀ (l : Layout) (ms : List Message), l.WellFormed → l.HiddenUnseen →
      (∀ m ∈ ms, m.heedsDocks = true) →
        ((∀ i ≤ ms.length, (l.run (ms.take i)).HiddenUnseen) ↔
          ∀ i (hi : i < ms.length), (l.run (ms.take i)).uncovers ms[i] = false) :=
  ⟨fun _ _ hwf h hm => h.perform_iff hwf hm, fun _ _ hwf h hms => h.run_iff hwf hms⟩

/-- Settings are shown and make way for docs, the terminal is put away, and settings return. -/
def putAway : List Message :=
  [.reveal .settings, .move .terminal .hidden ⟨false⟩, .move .docs .right .forced,
    .hide .docs, .toggle .settings]

theorem exposed_iff_uncovered_putAway :
    (((ofCatalogue .builtin).run putAway).perform (.resizeBy .terminal 20)).HiddenUnseen ∧
      ∀ i ≤ putAway.length, ((ofCatalogue .builtin).run (putAway.take i)).HiddenUnseen := by
  constructor
  · exact (exposed_iff_uncovered.1 _ _ (by decide +kernel) (by decide +kernel) rfl).mpr rfl
  · exact (exposed_iff_uncovered.2 _ _ (by decide +kernel) (by decide +kernel) (by decide)).mpr
      (by decide +kernel)

/-- The terminal is moved into the hidden slot, unseen, and revealed there. -/
theorem revealed_in_hidden_slot :
    ¬ ∀ (l : Layout) (ms : List Message), l.WellFormed → l.HiddenUnseen →
      (∀ m ∈ ms, m.heedsDocks = true) → (l.run ms).HiddenUnseen := by
  intro h
  have hrun := h (ofCatalogue .builtin) [.move .terminal .hidden ⟨false⟩, .reveal .terminal]
    (by decide +kernel) (by decide +kernel) (by decide)
  exact absurd hrun (by decide +kernel)

end Docking.Layout
