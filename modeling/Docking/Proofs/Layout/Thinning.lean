import Docking.Proofs.Layout.Step

/-! What thinning out leaves. The visible panels of a slot are ranked by priority, equals in
catalogue order. All but the first are hidden where they are, other panels are left alone, and so
every dock that is thinned out ends with one visible panel at most. -/
namespace Docking

/-- Of higher priority, or of the same and earlier in the catalogue. -/
def Panel.Outranks (c : Catalogue) (p q : Panel) : Prop :=
  q.priority < p.priority ∨ q.priority = p.priority ∧ c.ids.idxOf p.id < c.ids.idxOf q.id

instance (c : Catalogue) (p q : Panel) : Decidable (p.Outranks c q) :=
  inferInstanceAs (Decidable (_ ∨ _))

theorem Panel.Outranks.asymm {c : Catalogue} {p q : Panel} (h : p.Outranks c q) :
    ¬ q.Outranks c p := by
  unfold Outranks at h ⊢
  omega

/-- A stable sort by falling priority leaves equals in the order they had. -/
theorem pairwise_mergeSort_priority {before : Panel → Panel → Prop} {ps : List Panel}
    (h : ps.Pairwise before) :
    (ps.mergeSort fun a b => decide (b.priority ≤ a.priority)).Pairwise fun p q =>
      q.priority < p.priority ∨ q.priority = p.priority ∧ before p q := by
  have htrans : ∀ a b c : Panel, decide (b.priority ≤ a.priority) = true →
      decide (c.priority ≤ b.priority) = true → decide (c.priority ≤ a.priority) = true := by
    simp only [decide_eq_true_eq]
    omega
  have htotal : ∀ a b : Panel,
      (decide (b.priority ≤ a.priority) || decide (a.priority ≤ b.priority)) = true := by
    simp only [Bool.or_eq_true, decide_eq_true_eq]
    omega
  induction ps with
  | nil => simp
  | cons p ps ih =>
    obtain ⟨hfirst, hrest⟩ := List.pairwise_cons.mp h
    obtain ⟨higher, lower, hsort, hsorted, hhigher⟩ := List.mergeSort_cons htrans htotal p ps
    have hfalling := List.pairwise_mergeSort htrans htotal (p :: ps)
    have hmem : ∀ q ∈ lower, q ∈ ps := by
      intro q hq
      have hin := List.mem_append_right higher hq
      rwa [← hsorted, List.mem_mergeSort] at hin
    specialize ih hrest
    rw [hsorted, List.pairwise_append] at ih
    rw [hsort] at hfalling ⊢
    simp only [List.pairwise_append, List.pairwise_cons, decide_eq_true_eq] at hfalling ⊢
    refine ⟨ih.1, ⟨?_, ih.2.1⟩, ?_⟩
    · intro q hq
      rcases Int.lt_or_eq_of_le (hfalling.2.1.1 q hq) with hlt | heq
      · exact .inl hlt
      · exact .inr ⟨heq, hfirst q (hmem q hq)⟩
    · intro r hr q hq
      -- what the sort puts before the first panel is strictly higher than it
      rcases List.mem_cons.mp hq with rfl | hq
      · have hlt := hhigher r hr
        simp only [Bool.not_eq_true', decide_eq_false_iff_not] at hlt
        exact .inl (by omega)
      · exact ih.2.2 r hr q hq

namespace Layout

variable {l : Layout} {slot : Slot} {p q : Panel} {ids : List PanelId}

theorem WellFormed.pairwise_before (h : l.WellFormed) :
    l.panels.Pairwise fun p q => l.catalogue.ids.idxOf p.id < l.catalogue.ids.idxOf q.id := by
  have hids := pairwise_idxOf h.2
  rwa [← h.1, List.pairwise_map, h.1] at hids

theorem WellFormed.pairwise_ranked (h : l.WellFormed) (slot : Slot) :
    (l.ranked slot).Pairwise (Panel.Outranks l.catalogue) :=
  pairwise_mergeSort_priority (h.pairwise_before.sublist List.filter_sublist)

theorem mem_ranked : p ∈ l.ranked slot ↔ p ∈ l.holders slot := List.mem_mergeSort

/-- Of two panels one outranks the other. -/
theorem WellFormed.outranks_or_outranks (h : l.WellFormed) (hp : p ∈ l.panels)
    (hne : p.id ≠ q.id) : p.Outranks l.catalogue q ∨ q.Outranks l.catalogue p := by
  have hplace : l.catalogue.ids.idxOf p.id ≠ l.catalogue.ids.idxOf q.id := by
    rw [Ne, List.idxOf_inj (h.1 ▸ List.mem_map_of_mem hp)]
    exact hne
  unfold Panel.Outranks
  omega

/-- A visible panel loses its slot exactly when another one there outranks it. -/
theorem WellFormed.mem_outranked_iff (h : l.WellFormed) (hp : p ∈ l.holders slot) :
    p.id ∈ l.outranked slot ↔ ∃ q ∈ l.holders slot, q.Outranks l.catalogue p := by
  have hrank := h.pairwise_ranked slot
  have hfind : ∀ {q}, q ∈ l.holders slot ↔ q ∈ l.ranked slot := mem_ranked.symm
  unfold outranked
  rw [hfind] at hp
  simp only [hfind]
  have hpanels : ∀ q ∈ l.ranked slot, q ∈ l.panels := fun q hq =>
    (mem_holders.mp (mem_ranked.mp hq)).1
  generalize l.ranked slot = ps at hp hrank hpanels
  cases ps with
  | nil => simp at hp
  | cons first rest =>
    obtain ⟨hfirst, -⟩ := List.pairwise_cons.mp hrank
    rw [List.drop_one, List.tail_cons]
    constructor
    · intro hid
      obtain ⟨q, hq, hqp⟩ := List.mem_map.mp hid
      obtain rfl : q = p :=
        h.eq_of_id_eq (hpanels q (List.mem_cons_of_mem _ hq)) (hpanels p hp) hqp
      exact ⟨first, List.mem_cons_self, hfirst q hq⟩
    · rintro ⟨q, hq, hqp⟩
      rcases List.mem_cons.mp hp with rfl | hp
      · rcases List.mem_cons.mp hq with rfl | hq
        · exact absurd hqp hqp.asymm
        · exact absurd hqp (hfirst q hq).asymm
      · exact List.mem_map_of_mem hp

/-- Only visible panels of the slot lose it. -/
theorem WellFormed.visibleAt_of_mem_outranked (h : l.WellFormed) (hp : p ∈ l.panels)
    (hid : p.id ∈ l.outranked slot) : p.visibleAt slot = true := by
  obtain ⟨q, hq, hqp⟩ := List.mem_map.mp hid
  obtain ⟨hmem, hv⟩ := mem_holders.mp (mem_ranked.mp (List.mem_of_mem_drop hq))
  rwa [h.eq_of_id_eq hp hmem hqp.symm]

/-- The panels that the test picks out of sight, the others as they are. -/
def concealIf (l : Layout) (test : Panel → Bool) : Layout :=
  { l with panels := l.panels.map fun p => if test p then p.concealed else p }

theorem WellFormed.concealIf (h : l.WellFormed) (test : Panel → Bool) :
    (l.concealIf test).WellFormed := by
  refine ⟨Eq.trans ?_ h.1, h.2⟩
  rw [Layout.concealIf, List.map_map]
  refine List.map_congr_left fun p _ => ?_
  simp only [Function.comp_apply]
  split <;> rfl

theorem concealIf_congr {test other : Panel → Bool} (h : ∀ p ∈ l.panels, test p = other p) :
    l.concealIf test = l.concealIf other := by
  unfold Layout.concealIf
  congr 1
  exact List.map_congr_left fun p hp => by rw [h p hp]

/-- Hiding in two rounds is hiding in one. -/
theorem concealIf_concealIf (l : Layout) (first second : Panel → Bool) :
    (l.concealIf first).concealIf second = l.concealIf fun p => first p || second p := by
  simp only [Layout.concealIf, List.map_map]
  congr 1
  refine List.map_congr_left fun p _ => ?_
  simp only [Function.comp_apply]
  by_cases hf : first p = true
  · simp [hf, Panel.concealed]
  · simp [hf]

theorem holders_concealIf (l : Layout) (test : Panel → Bool) (slot : Slot) :
    (l.concealIf test).holders slot = (l.holders slot).filter fun p => !test p := by
  unfold Layout.concealIf holders
  induction l.panels with
  | nil => rfl
  | cons p ps ih =>
    rw [List.map_cons, List.filter_cons, List.filter_cons, ih]
    cases ht : test p <;> cases hv : p.visibleAt slot <;> simp [ht, hv]

theorem FreeFor.concealIf {id : PanelId} (h : l.FreeFor slot id) (test : Panel → Bool) :
    (l.concealIf test).FreeFor slot id := by
  intro hd q hq
  rw [holders_concealIf] at hq
  exact h hd q (List.mem_of_mem_filter hq)

theorem panel?_concealIf (l : Layout) (test : Panel → Bool) (id : PanelId) :
    (l.concealIf test).panel? id =
      (l.panel? id).map fun p => if test p then p.concealed else p := by
  have hid : ∀ p : Panel, (if test p then p.concealed else p).id = p.id := by
    intro p
    split <;> rfl
  simp only [panel?, Layout.concealIf, List.find?_map, Function.comp_def, hid]

/-- Hiding a panel that is hidden changes nothing, so hiding is always the same change. -/
theorem WellFormed.hide_eq (h : l.WellFormed) (id : PanelId) :
    (l.hide id).1 = l.concealIf fun p => p.id = id := by
  have hmodify : l.modify id Panel.concealed = l.concealIf fun p => p.id = id := by
    simp [Layout.modify, Layout.concealIf]
  unfold hide
  split
  · exact hmodify
  · next hv =>
    rw [← hmodify]
    refine (modify_eq_self fun p hp hid => Panel.concealed_eq_self ?_).symm
    rw [← Bool.not_eq_true]
    exact fun hp' => hv (visible_iff.mpr ⟨p, hid ▸ h.panel?_of_mem hp, hp'⟩)

theorem WellFormed.hideEach_eq (h : l.WellFormed) (ids : List PanelId) :
    l.hideEach ids = l.concealIf fun p => ids.contains p.id := by
  induction ids generalizing l with
  | nil => simp [hideEach, Layout.concealIf]
  | cons id ids ih =>
    rw [hideEach, List.foldl_cons, h.hide_eq, ← hideEach, ih (h.concealIf _),
      concealIf_concealIf]
    refine concealIf_congr fun p _ => ?_
    rw [List.contains_cons, Bool.beq_eq_decide_eq]

theorem outranked_congr {m : Layout} (h : l.holders slot = m.holders slot) :
    l.outranked slot = m.outranked slot := by
  rw [outranked, ranked, h, ← ranked, ← outranked]

/-- Thinning out one slot leaves who is outranked in another as it is. -/
theorem WellFormed.outranked_concealIf (h : l.WellFormed) {other : Slot} (hne : other ≠ slot) :
    (l.concealIf fun p => (l.outranked slot).contains p.id).outranked other =
      l.outranked other := by
  refine outranked_congr ((l.holders_concealIf _ other).trans (List.filter_eq_self.mpr ?_))
  intro p hp
  obtain ⟨hmem, hv⟩ := mem_holders.mp hp
  simp only [Bool.not_eq_true', List.contains_eq_mem, decide_eq_false_iff_not]
  intro hid
  have hslot := (visibleAt_iff.mp (h.visibleAt_of_mem_outranked hmem hid)).2
  exact hne ((visibleAt_iff.mp hv).2.symm.trans hslot)

/-- Thinning out hides in each of the slots the panels that are outranked there, and lists them
slot by slot, in the order of their rank. -/
theorem WellFormed.thin_eq (h : l.WellFormed) {slots : List Slot} (hn : slots.Nodup) :
    l.thin slots =
      (l.concealIf fun p => slots.contains p.slot && (l.outranked p.slot).contains p.id,
        slots.flatMap l.outranked) := by
  induction slots generalizing l with
  | nil => simp [thin, Layout.concealIf]
  | cons slot slots ih =>
    obtain ⟨hslot, hn⟩ := List.nodup_cons.mp hn
    have hsame : ∀ other ∈ slots,
        (l.concealIf fun p => (l.outranked slot).contains p.id).outranked other =
          l.outranked other :=
      fun other hother => h.outranked_concealIf fun heq => hslot (heq ▸ hother)
    rw [thin, h.hideEach_eq, ih (h.concealIf _) hn]
    refine Prod.ext ?_ ?_
    · rw [concealIf_concealIf]
      refine concealIf_congr fun p hp => ?_
      by_cases hp' : p.slot = slot
      · simp [hp', hslot]
      · have hid : p.id ∉ l.outranked slot := fun hid =>
          hp' (visibleAt_iff.mp (h.visibleAt_of_mem_outranked hp hid)).2
        by_cases hmem : p.slot ∈ slots
        · rw [hsame p.slot hmem]
          simp [hid, hmem]
        · simp [hid, hmem, hp']
    · rw [List.flatMap_cons, List.flatMap_congr hsame]

theorem WellFormed.holders_thin (h : l.WellFormed) {slots : List Slot} (hn : slots.Nodup)
    (hslot : slot ∈ slots) : (l.thin slots).1.holders slot =
      (l.holders slot).filter fun p => !(l.outranked slot).contains p.id := by
  rw [h.thin_eq hn, holders_concealIf]
  refine List.filter_congr fun p hp => ?_
  have hp' := (visibleAt_iff.mp (mem_holders.mp hp).2).2
  simp [hp', hslot]

theorem nodup_docks : Slot.docks.Nodup := by decide

/-- A dock that has been thinned out has at most one visible panel. -/
theorem WellFormed.conflictFree_thinDocks (h : l.WellFormed) : l.thinDocks.1.ConflictFree := by
  have hafter : l.thinDocks.1.WellFormed := by
    rw [thinDocks, h.thin_eq nodup_docks]
    exact h.concealIf _
  refine hafter.conflictFree_iff.mpr fun slot hd p hp q hq => ?_
  rw [thinDocks, h.holders_thin nodup_docks ((Slot.mem_docks_iff slot).mpr hd)] at hp hq
  simp only [List.mem_filter, Bool.not_eq_true', List.contains_eq_mem,
    decide_eq_false_iff_not] at hp hq
  by_contra hne
  rcases h.outranks_or_outranks (mem_holders.mp hp.1).1 hne with hpq | hqp
  · exact hq.2 ((h.mem_outranked_iff hq.1).mpr ⟨p, hp.1, hpq⟩)
  · exact hp.2 ((h.mem_outranked_iff hp.1).mpr ⟨q, hq.1, hqp⟩)

/-- The panel is in no dock, or it outranks every other panel visible in its dock. -/
def Prevails (l : Layout) (p : Panel) : Prop :=
  p.slot.isDock = false ∨ ∀ q ∈ l.holders p.slot, q.id ≠ p.id → p.Outranks l.catalogue q

instance (l : Layout) (p : Panel) : Decidable (l.Prevails p) :=
  inferInstanceAs (Decidable (_ ∨ ∀ q ∈ l.holders p.slot, _))

/-- A panel prevails in its slot exactly if thinning out does not hide it. -/
theorem WellFormed.prevails_iff (h : l.WellFormed) (hp : p ∈ l.panels) (hv : p.visible = true) :
    l.Prevails p ↔ ¬ (p.slot ∈ Slot.docks ∧ p.id ∈ l.outranked p.slot) := by
  have hholds : p ∈ l.holders p.slot := mem_holders.mpr ⟨hp, visibleAt_iff.mpr ⟨hv, rfl⟩⟩
  rw [h.mem_outranked_iff hholds, Slot.mem_docks_iff, not_and, Prevails, ← Bool.not_eq_true,
    imp_iff_not_or]
  refine or_congr_right ⟨?_, ?_⟩
  · rintro hall ⟨q, hq, hqp⟩
    by_cases hid : q.id = p.id
    · obtain rfl := h.eq_of_id_eq (mem_holders.mp hq).1 hp hid
      exact hqp.asymm hqp
    · exact (hall q hq hid).asymm hqp
  · intro hnone q hq hid
    refine (h.outranks_or_outranks hp (Ne.symm hid)).resolve_right fun hqp => hnone ⟨q, hq, hqp⟩

theorem visible_and (p : Panel) (b : Bool) :
    { p with visible := p.visible && b } = if b then p else p.concealed := by
  cases b <;> simp [Panel.concealed]

/-- Thinning out keeps of the visible panels those that prevail. -/
theorem WellFormed.thinDocks_eq (h : l.WellFormed) : l.thinDocks.1 =
    { l with panels := l.panels.map fun p => { p with visible := p.visible && l.Prevails p } } := by
  simp only [thinDocks, h.thin_eq nodup_docks, Layout.concealIf,
    Layout.mk.injEq, true_and]
  refine List.map_congr_left fun p hp => ?_
  rw [visible_and]
  cases hv : p.visible with
  | false => rw [Panel.concealed_eq_self hv, ite_self, ite_self]
  | true =>
    have hkeep := h.prevails_iff hp hv
    by_cases hprevails : l.Prevails p <;> simp_all

end Layout

end Docking
