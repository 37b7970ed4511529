import Docking.Proofs.Layout.Thinning

/-! Thinning out as a repair. However crowded the docks are, each of them keeps its highest panel
and no other, the rest of the layout stays as it is, and the panels that lose their place are listed
dock by dock in the order of their rank. A repaired layout needs no second repair. -/
namespace Docking

namespace Panel

variable {c : Catalogue} {p q : Panel}

theorem Outranks.ne (h : p.Outranks c q) : p ≠ q := by
  rintro rfl
  exact h.asymm h

/-- In a dock that comes first, or in the same one and of higher rank. -/
def ListedBefore (c : Catalogue) (p q : Panel) : Prop :=
  Slot.docks.idxOf p.slot < Slot.docks.idxOf q.slot ∨ p.slot = q.slot ∧ p.Outranks c q

instance (c : Catalogue) (p q : Panel) : Decidable (p.ListedBefore c q) :=
  inferInstanceAs (Decidable (_ ∨ _))

theorem ListedBefore.asymm (h : p.ListedBefore c q) : ¬ q.ListedBefore c p := by
  rcases h with hdock | ⟨hslot, hrank⟩
  · rintro (hback | ⟨hslot, -⟩)
    · exact Nat.lt_asymm hdock hback
    · exact Nat.lt_irrefl _ (hslot ▸ hdock)
  · rintro (hback | ⟨-, hback⟩)
    · exact Nat.lt_irrefl _ (hslot ▸ hback)
    · exact hrank.asymm hback

theorem ListedBefore.ne (h : p.ListedBefore c q) : p ≠ q := by
  rintro rfl
  exact h.asymm h

/-- There is one way only to list panels in this order. -/
theorem eq_of_listedBefore {ps qs : List Panel} (hps : ps.Pairwise (ListedBefore c))
    (hqs : qs.Pairwise (ListedBefore c)) (h : ∀ p, p ∈ ps ↔ p ∈ qs) : ps = qs := by
  have hperm := (List.perm_ext_iff_of_nodup (hps.imp ListedBefore.ne)
    (hqs.imp ListedBefore.ne)).mpr h
  exact hperm.eq_of_pairwise (fun _ _ _ _ hpq hqp => absurd hqp hpq.asymm) hps hqs

end Panel

namespace Layout

variable {l : Layout} {slot : Slot} {p q : Panel}

/-- A slot that anyone holds has a holder that outranks all others. -/
theorem WellFormed.exists_highest (h : l.WellFormed) (hheld : l.holders slot ≠ []) :
    ∃ p ∈ l.holders slot, ∀ q ∈ l.holders slot, q ≠ p → p.Outranks l.catalogue q := by
  have hrank := h.pairwise_ranked slot
  have hlength := l.length_ranked slot
  simp only [← mem_ranked]
  cases hranked : l.ranked slot with
  | nil =>
    rw [hranked] at hlength
    exact absurd (List.length_eq_zero_iff.mp hlength.symm) hheld
  | cons first rest =>
    rw [hranked] at hrank
    refine ⟨first, List.mem_cons_self, fun q hq hne => ?_⟩
    exact (List.pairwise_cons.mp hrank).1 q ((List.mem_cons.mp hq).resolve_left hne)

/-- A dock is left to the holder that outranks all others. -/
theorem WellFormed.holders_thinDocks (h : l.WellFormed) (hslot : slot ∈ Slot.docks)
    (hp : p ∈ l.holders slot)
    (hhighest : ∀ q ∈ l.holders slot, q ≠ p → p.Outranks l.catalogue q) :
    l.thinDocks.1.holders slot = [p] := by
  have hkept : p ∈ l.thinDocks.1.holders slot := by
    rw [thinDocks, h.holders_thin nodup_docks hslot, List.mem_filter]
    refine ⟨hp, ?_⟩
    simp only [Bool.not_eq_true', List.contains_eq_mem, decide_eq_false_iff_not,
      h.mem_outranked_iff hp, not_exists, not_and]
    intro q hq hqp
    exact (hhighest q hq hqp.ne).asymm hqp
  have hone := h.conflictFree_thinDocks slot hslot
  obtain ⟨only, honly⟩ := List.length_eq_one_iff.mp
    (Nat.le_antisymm hone (List.length_pos_of_mem hkept))
  rw [honly] at hkept ⊢
  rw [List.mem_singleton.mp hkept]

/-- The panels that lose their place, dock by dock. -/
def losers (l : Layout) : List Panel := Slot.docks.flatMap fun slot => (l.ranked slot).drop 1

theorem mem_holders_of_mem_drop (h : p ∈ (l.ranked slot).drop 1) : p ∈ l.holders slot :=
  mem_ranked.mp (List.mem_of_mem_drop h)

theorem slot_of_mem_drop (h : p ∈ (l.ranked slot).drop 1) : p.slot = slot :=
  (visibleAt_iff.mp (mem_holders.mp (mem_holders_of_mem_drop h)).2).2

/-- Among the lowered ranks is exactly who is outranked. -/
theorem WellFormed.mem_drop_ranked_iff (h : l.WellFormed) (hp : p ∈ l.holders slot) :
    p ∈ (l.ranked slot).drop 1 ↔ ∃ q ∈ l.holders slot, q.Outranks l.catalogue p := by
  rw [← h.mem_outranked_iff hp]
  constructor
  · exact fun hdrop => List.mem_map_of_mem hdrop
  · intro hid
    obtain ⟨q, hq, hqp⟩ := List.mem_map.mp hid
    have hpanel := (mem_holders.mp (mem_holders_of_mem_drop hq)).1
    rwa [← h.eq_of_id_eq hpanel (mem_holders.mp hp).1 hqp]

theorem WellFormed.mem_losers_iff (h : l.WellFormed) : p ∈ l.losers ↔
    p.slot.isDock = true ∧ p ∈ l.holders p.slot ∧
      ∃ q ∈ l.holders p.slot, q.Outranks l.catalogue p := by
  rw [losers, List.mem_flatMap]
  constructor
  · rintro ⟨slot, hslot, hdrop⟩
    obtain rfl := slot_of_mem_drop hdrop
    have hp := mem_holders_of_mem_drop hdrop
    exact ⟨(Slot.mem_docks_iff _).mp hslot, hp, (h.mem_drop_ranked_iff hp).mp hdrop⟩
  · rintro ⟨hd, hp, houtranked⟩
    exact ⟨p.slot, (Slot.mem_docks_iff _).mpr hd, (h.mem_drop_ranked_iff hp).mpr houtranked⟩

theorem WellFormed.pairwise_losers (h : l.WellFormed) :
    l.losers.Pairwise (Panel.ListedBefore l.catalogue) := by
  rw [losers, List.pairwise_flatMap]
  constructor
  · intro slot _
    refine ((h.pairwise_ranked slot).sublist (List.drop_sublist 1 _)).imp_of_mem ?_
    intro p q hp hq hpq
    exact .inr ⟨(slot_of_mem_drop hp).trans (slot_of_mem_drop hq).symm, hpq⟩
  · refine (pairwise_idxOf nodup_docks).imp fun hbefore p hp q hq => .inl ?_
    rwa [slot_of_mem_drop hp, slot_of_mem_drop hq]

theorem WellFormed.nodup_map_id_losers (h : l.WellFormed) : (l.losers.map Panel.id).Nodup := by
  refine List.Nodup.map_on (fun p hp q hq hid => ?_) (h.pairwise_losers.imp Panel.ListedBefore.ne)
  have hpanel : ∀ {r}, r ∈ l.losers → r ∈ l.panels := fun hr =>
    (mem_holders.mp (h.mem_losers_iff.mp hr).2.1).1
  exact h.eq_of_id_eq (hpanel hp) (hpanel hq) hid

theorem WellFormed.thinDocks_eq_losers (h : l.WellFormed) : l.thinDocks =
    (l.concealIf fun p => (l.losers.map Panel.id).contains p.id, l.losers.map Panel.id) := by
  have hnames : Slot.docks.flatMap l.outranked = l.losers.map Panel.id := List.map_flatMap.symm
  rw [thinDocks, h.thin_eq nodup_docks, hnames]
  congr 1
  refine concealIf_congr fun p hp => ?_
  -- a panel is outranked in its own slot or nowhere
  rw [Bool.eq_iff_iff, ← hnames]
  simp only [Bool.and_eq_true, List.contains_eq_mem, decide_eq_true_eq, List.mem_flatMap]
  constructor
  · exact fun hown => ⟨p.slot, hown⟩
  · rintro ⟨slot, hslot, hid⟩
    obtain rfl := (visibleAt_iff.mp (h.visibleAt_of_mem_outranked hp hid)).2
    exact ⟨hslot, hid⟩

/-- Thinning out a layout, however crowded its docks are, leaves in each dock that anyone holds the
panel of highest rank. The others who hold it, in the order of the docks and there by rank, are the
panels listed, each once; they go out of sight where they are, and all else stays. Then there is
nothing more to thin out. -/
theorem thinDocks_minimal {l : Layout} (h : l.WellFormed) :
    (∀ slot ∈ Slot.docks, l.holders slot ≠ [] → ∃ p ∈ l.holders slot,
      l.thinDocks.1.holders slot = [p] ∧
        ∀ q ∈ l.holders slot, q ≠ p → p.Outranks l.catalogue q) ∧
    (∃ losers : List Panel, l.thinDocks.2 = losers.map Panel.id ∧
      losers.Pairwise (Panel.ListedBefore l.catalogue) ∧
      ∀ p, p ∈ losers ↔ p.slot.isDock = true ∧ p ∈ l.holders p.slot ∧
        ∃ q ∈ l.holders p.slot, q.Outranks l.catalogue p) ∧
    l.thinDocks.2.Nodup ∧
    l.thinDocks.1 = { l with panels := l.panels.map fun p =>
      if p.id ∈ l.thinDocks.2 then { p with visible := false } else p } ∧
    l.thinDocks.1.thinDocks = (l.thinDocks.1, []) := by
  refine ⟨?_, ?_, ?_, ?_, h.conflictFree_thinDocks.thinDocks_eq⟩
  · intro slot hslot hheld
    obtain ⟨p, hp, hhighest⟩ := h.exists_highest hheld
    exact ⟨p, hp, h.holders_thinDocks hslot hp hhighest, hhighest⟩
  · refine ⟨l.losers, ?_, h.pairwise_losers, fun p => h.mem_losers_iff⟩
    rw [h.thinDocks_eq_losers]
  · rw [h.thinDocks_eq_losers]
    exact h.nodup_map_id_losers
  · rw [h.thinDocks_eq_losers]
    simp only [concealIf, List.contains_eq_mem, decide_eq_true_eq]
    rfl

/-- Every panel visible, three of them on the left and two on the right, with the terminal above all
others. -/
def heaped : Layout :=
  { ofCatalogue .builtin with
    panels := (ofCatalogue .builtin).panels.map fun p =>
      { p with
        visible := true
        slot := if p.id ∈ [.fileTree, .terminal, .search] then .left else p.slot
        priority := if p.id = .terminal then 7 else 5 } }

theorem thinDocks_minimal_heaped :
    heaped.WellFormed ∧ heaped.thinDocks.2 = [.fileTree, .search, .settings] ∧
      heaped.thinDocks.2.Nodup ∧ heaped.thinDocks.1.thinDocks = (heaped.thinDocks.1, []) := by
  have hwell : heaped.WellFormed := by decide +kernel
  obtain ⟨-, ⟨losers, hnames, hlisted, hmem⟩, hnodup, -, hagain⟩ := thinDocks_minimal hwell
  have hlow : ∀ p ∈ heaped.panels, p.id ∈ [.fileTree, .search, .settings] ↔
      p.slot.isDock = true ∧ p.visibleAt p.slot = true ∧
        ∃ q ∈ heaped.holders p.slot, q.Outranks heaped.catalogue p := by decide +kernel
  have hlosers : losers = [.fileTree, .search, .settings].filterMap heaped.panel? := by
    refine Panel.eq_of_listedBefore hlisted (by decide +kernel) fun p => ?_
    rw [hmem, mem_holders, List.mem_filterMap]
    constructor
    · rintro ⟨hdock, ⟨hp, hseen⟩, hoverruled⟩
      exact ⟨p.id, (hlow p hp).mpr ⟨hdock, hseen, hoverruled⟩, hwell.panel?_of_mem hp⟩
    · rintro ⟨id, hid, hp⟩
      rw [← panel?_id hp] at hid
      obtain ⟨hdock, hseen, hoverruled⟩ := (hlow p (mem_of_panel? hp)).mp hid
      exact ⟨hdock, ⟨mem_of_panel? hp, hseen⟩, hoverruled⟩
  refine ⟨hwell, ?_, hnodup, hagain⟩
  rw [hnames, hlosers]
  decide +kernel

end Layout

end Docking
