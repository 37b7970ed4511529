import Docking.Proofs.Layout.Snapshot

/-! How far the difference of two snapshots can be trusted. It names every panel of the first
snapshot that the second one lacks or has otherwise, each change once and in the order of the first
snapshot. Panels that only the second snapshot has are never named, so no difference does not yet
mean the same panels. -/
namespace Docking

open Layout

namespace Standing

structure Matches (s t : Standing) : Prop where
  id : s.id = t.id
  slot : s.slot = t.slot
  visible : s.visible = t.visible
  size : (s.size == t.size) = true

variable {s t : Standing} {c : Change}

theorem mem_changes_iff : c ∈ s.changes t ↔
    (c = .placed s t ∧ (s.slot ≠ t.slot ∨ s.visible ≠ t.visible)) ∨
      (c = .resized s.id s.size t.size ∧ (s.size == t.size) = false) := by
  unfold changes
  rw [List.mem_append]
  by_cases hslot : s.slot = t.slot <;> by_cases hvisible : s.visible = t.visible <;>
    cases s.size == t.size <;> simp [hslot, hvisible]

end Standing

namespace Change

def panel : Change → PanelId
  | removed id => id
  | placed before _ => before.id
  | resized id _ _ => id

def isResize : Change → Bool
  | removed _ | placed _ _ => false
  | resized _ _ _ => true

/-- The changes that lead from one snapshot to another: a panel that is gone, one that is in another
slot or seen in one snapshot only, and one of another size. -/
inductive Leads (a b : Snapshot) : Change → Prop
  | removed {s : Standing} (hs : s ∈ a.panels) (hgone : ∀ t ∈ b.panels, t.id ≠ s.id) :
      Leads a b (.removed s.id)
  | placed {s t : Standing} (hs : s ∈ a.panels) (ht : t ∈ b.panels) (hid : t.id = s.id)
      (hmoved : s.slot ≠ t.slot ∨ s.visible ≠ t.visible) : Leads a b (.placed s t)
  | resized {s t : Standing} (hs : s ∈ a.panels) (ht : t ∈ b.panels) (hid : t.id = s.id)
      (hsize : (s.size == t.size) = false) : Leads a b (.resized s.id s.size t.size)

/-- About a panel that the snapshot has earlier, or about the same one and of its place before its
size. -/
def Precedes (a : Snapshot) (c d : Change) : Prop :=
  (a.panels.map Standing.id).idxOf c.panel < (a.panels.map Standing.id).idxOf d.panel ∨
    c.panel = d.panel ∧ c.isResize = false ∧ d.isResize = true

end Change

namespace Snapshot

variable {a b : Snapshot} {s t : Standing} {c : Change}

def Distinct (a : Snapshot) : Prop := (a.panels.map Standing.id).Nodup

instance (a : Snapshot) : Decidable a.Distinct :=
  inferInstanceAs (Decidable (a.panels.map Standing.id).Nodup)

def Same (a b : Snapshot) : Prop :=
  (∀ s ∈ a.panels, ∃ t ∈ b.panels, s.Matches t) ∧ ∀ t ∈ b.panels, ∃ s ∈ a.panels, s.Matches t

theorem Distinct.eq_of_id_eq (h : a.Distinct) (hs : s ∈ a.panels) (ht : t ∈ a.panels)
    (hid : s.id = t.id) : s = t :=
  List.inj_on_of_nodup_map h hs ht hid

theorem distinct_ofLayout {l : Layout} (h : l.WellFormed) : (ofLayout l).Distinct := by
  rw [Distinct, ofLayout, List.map_map]
  exact h.nodup

/-- What becomes of one panel of the first snapshot. -/
def changesOf (b : Snapshot) (s : Standing) : List Change :=
  match b.panels.find? fun t => t.id = s.id with
  | none => [.removed s.id]
  | some t => s.changes t

theorem changes_eq_flatMap (a b : Snapshot) : a.changes b = a.panels.flatMap b.changesOf := rfl

theorem changesOf_of_gone (h : ∀ t ∈ b.panels, t.id ≠ s.id) : b.changesOf s = [.removed s.id] := by
  have hnone : (b.panels.find? fun t => t.id = s.id) = none := by simpa using h
  rw [changesOf, hnone]

theorem Distinct.changesOf_eq (hb : b.Distinct) (ht : t ∈ b.panels) (hid : t.id = s.id) :
    b.changesOf s = s.changes t := by
  unfold changesOf
  split
  · next hnone => simpa [hid] using List.find?_eq_none.mp hnone t ht
  · next u hu =>
    have huid : u.id = s.id := by simpa using List.find?_some hu
    rw [hb.eq_of_id_eq (List.mem_of_find?_eq_some hu) ht (huid.trans hid.symm)]

theorem Distinct.mem_changesOf_iff (hb : b.Distinct) : c ∈ b.changesOf s ↔
    (c = .removed s.id ∧ ∀ t ∈ b.panels, t.id ≠ s.id) ∨
      ∃ t ∈ b.panels, t.id = s.id ∧ c ∈ s.changes t := by
  by_cases hgone : ∀ t ∈ b.panels, t.id ≠ s.id
  · rw [changesOf_of_gone hgone, List.mem_singleton]
    constructor
    · exact fun h => .inl ⟨h, hgone⟩
    · rintro (⟨h, -⟩ | ⟨t, ht, hid, -⟩)
      · exact h
      · exact absurd hid (hgone t ht)
  · obtain ⟨t, ht, hid⟩ : ∃ t ∈ b.panels, t.id = s.id := by simpa using hgone
    rw [hb.changesOf_eq ht hid]
    constructor
    · exact fun h => .inr ⟨t, ht, hid, h⟩
    · rintro (⟨-, hnone⟩ | ⟨u, hu, huid, h⟩)
      · exact absurd hid (hnone t ht)
      · rwa [hb.eq_of_id_eq ht hu (hid.trans huid.symm)]

/-- The changes listed are all that lead from the first snapshot to the second, and no others. -/
theorem Distinct.mem_changes_iff (hb : b.Distinct) : c ∈ a.changes b ↔ Change.Leads a b c := by
  rw [changes_eq_flatMap, List.mem_flatMap]
  simp only [hb.mem_changesOf_iff, Standing.mem_changes_iff]
  constructor
  · rintro ⟨s, hs, ⟨rfl, hgone⟩ | ⟨t, ht, hid, ⟨rfl, hmoved⟩ | ⟨rfl, hsize⟩⟩⟩
    · exact .removed hs hgone
    · exact .placed hs ht hid hmoved
    · exact .resized hs ht hid hsize
  · rintro (⟨hs, hgone⟩ | ⟨hs, ht, hid, hmoved⟩ | ⟨hs, ht, hid, hsize⟩)
    · exact ⟨_, hs, .inl ⟨rfl, hgone⟩⟩
    · exact ⟨_, hs, .inr ⟨_, ht, hid, .inl ⟨rfl, hmoved⟩⟩⟩
    · exact ⟨_, hs, .inr ⟨_, ht, hid, .inr ⟨rfl, hsize⟩⟩⟩

theorem panel_of_mem_changesOf (h : c ∈ b.changesOf s) : c.panel = s.id := by
  unfold changesOf at h
  split at h
  · rw [List.mem_singleton.mp h]
    rfl
  · rcases Standing.mem_changes_iff.mp h with ⟨rfl, -⟩ | ⟨rfl, -⟩
    · rfl
    · rfl

theorem pairwise_changesOf (a b : Snapshot) (s : Standing) :
    (b.changesOf s).Pairwise (Change.Precedes a) := by
  unfold changesOf
  split
  · exact List.pairwise_singleton _ _
  · unfold Standing.changes
    split <;> split <;> simp [Change.Precedes, Change.panel, Change.isResize]

/-- The changes come in the order of the first snapshot, for each panel its place before its
size. -/
theorem Distinct.pairwise_changes (ha : a.Distinct) (b : Snapshot) :
    (a.changes b).Pairwise (Change.Precedes a) := by
  rw [changes_eq_flatMap, List.pairwise_flatMap]
  refine ⟨fun s _ => pairwise_changesOf a b s, ?_⟩
  refine (List.pairwise_map.mp (pairwise_idxOf ha)).imp ?_
  intro s t hbefore c hc d hd
  refine .inl ?_
  rwa [panel_of_mem_changesOf hc, panel_of_mem_changesOf hd]

theorem diff_eq_none_iff : a.diff b = none ↔ a.changes b = [] := by
  rw [← Option.not_isSome_iff_eq_none, isSome_diff_iff, not_not]

/-- Nothing leads from one snapshot to another exactly if the other has every panel just so. -/
theorem Distinct.changes_eq_nil_iff_matches (hb : b.Distinct) :
    a.changes b = [] ↔ ∀ s ∈ a.panels, ∃ t ∈ b.panels, s.Matches t := by
  simp only [List.eq_nil_iff_forall_not_mem, hb.mem_changes_iff]
  constructor
  · intro hnone s hs
    obtain ⟨t, ht, hid⟩ : ∃ t ∈ b.panels, t.id = s.id := by
      by_contra hgone
      exact hnone _ (.removed hs fun t ht hid => hgone ⟨t, ht, hid⟩)
    refine ⟨t, ht, hid.symm, ?_, ?_, ?_⟩
    · by_contra hslot
      exact hnone _ (.placed hs ht hid (.inl hslot))
    · by_contra hvisible
      exact hnone _ (.placed hs ht hid (.inr hvisible))
    · by_contra hsize
      exact hnone _ (.resized hs ht hid (Bool.not_eq_true _ ▸ hsize))
  · intro hall c hc
    -- the panel that a change is about is matched by no other than its counterpart
    have hcounterpart : ∀ {s t}, s ∈ a.panels → t ∈ b.panels → t.id = s.id → s.Matches t := by
      intro s t hs ht hid
      obtain ⟨u, hu, hmatch⟩ := hall s hs
      rwa [hb.eq_of_id_eq ht hu (hid.trans hmatch.id)]
    rcases hc with ⟨hs, hgone⟩ | ⟨hs, ht, hid, hmoved⟩ | ⟨hs, ht, hid, hsize⟩
    · obtain ⟨t, ht, hmatch⟩ := hall _ hs
      exact hgone t ht hmatch.id.symm
    · have hmatch := hcounterpart hs ht hid
      exact hmoved.elim (fun h => h hmatch.slot) fun h => h hmatch.visible
    · have hmatch := hcounterpart hs ht hid
      exact absurd hmatch.size (by simp [hsize])

/-- Two snapshots are the same exactly if nothing leads from the first to the second and the second
has no further panels. -/
theorem Distinct.same_iff (hb : b.Distinct) : a.Same b ↔
    a.changes b = [] ∧ ∀ t ∈ b.panels, ∃ s ∈ a.panels, s.id = t.id := by
  rw [hb.changes_eq_nil_iff_matches]
  constructor
  · rintro ⟨hforth, hback⟩
    refine ⟨hforth, fun t ht => ?_⟩
    obtain ⟨s, hs, hmatch⟩ := hback t ht
    exact ⟨s, hs, hmatch.id⟩
  · rintro ⟨hforth, hback⟩
    refine ⟨hforth, fun t ht => ?_⟩
    obtain ⟨s, hs, hid⟩ := hback t ht
    obtain ⟨u, hu, hmatch⟩ := hforth s hs
    obtain rfl := hb.eq_of_id_eq hu ht (hmatch.id.symm.trans hid)
    exact ⟨s, hs, hmatch⟩

/-- There is no difference exactly if every panel of the first snapshot is in the second one, in the
same place and of the same size; the snapshots are the same if besides the second one has no further
panels. A difference that is told names each change that leads from the first snapshot to the second
once, in the order of the first one, and no other. -/
theorem diff_exact {a b : Snapshot} (ha : a.Distinct) (hb : b.Distinct) :
    (a.diff b = none ↔ ∀ s ∈ a.panels, ∃ t ∈ b.panels, s.Matches t) ∧
    (a.Same b ↔ a.diff b = none ∧ ∀ t ∈ b.panels, ∃ s ∈ a.panels, s.id = t.id) ∧
    ∀ text, a.diff b = some text → ∃ parts : List Change,
      text = String.intercalate "; " (parts.map Change.message) ∧
        parts.Pairwise (Change.Precedes a) ∧ ∀ c, c ∈ parts ↔ Change.Leads a b c := by
  refine ⟨?_, ?_, ?_⟩
  · rw [diff_eq_none_iff, hb.changes_eq_nil_iff_matches]
  · rw [diff_eq_none_iff, hb.same_iff]
  · intro text htext
    refine ⟨a.changes b, ?_, ha.pairwise_changes b, fun c => hb.mem_changes_iff⟩
    unfold diff at htext
    split at htext
    · cases htext
    · exact (Option.some.inj htext).symm

def searchless : Layout :=
  (ofCatalogue (Catalogue.builtin.restrict
    [.fileTree, .terminal, .docs, .settings, .commandPalette])).run
    [.reveal .fileTree, .setSize .terminal 350]

theorem diff_exact_searchless :
    (ofLayout (ofCatalogue .builtin)).Distinct ∧ (ofLayout searchless).Distinct ∧
      (ofLayout (ofCatalogue .builtin)).diff (ofLayout searchless) =
        some ("file-tree: hidden@left → visible@left; " ++
          "terminal: size 300 → 350; search: removed") ∧
      ¬ (ofLayout (ofCatalogue .builtin)).Same (ofLayout searchless) := by
  have ha : (ofLayout (ofCatalogue .builtin)).Distinct := by decide +kernel
  have hb : (ofLayout searchless).Distinct := by decide +kernel
  obtain ⟨-, hsame, -⟩ := diff_exact ha hb
  refine ⟨ha, hb, by decide +kernel, fun h => ?_⟩
  have hnone := (hsame.mp h).1
  exact absurd hnone (by decide +kernel)

def treeOnly : Layout := ofCatalogue (Catalogue.builtin.restrict [.fileTree])

/-- Between a layout and one with further panels there is no difference. -/
theorem addition_unseen :
    ¬ ∀ l m : Layout, l.WellFormed → m.WellFormed → l.Numeric → m.Numeric →
      ((ofLayout l).diff (ofLayout m) = none ↔ (ofLayout l).Same (ofLayout m)) := by
  intro h
  have htree : (Catalogue.builtin.restrict [.fileTree]).Numeric := by
    unfold Catalogue.Numeric
    decide +kernel
  have hwell : (ofCatalogue .builtin).WellFormed := by decide +kernel
  have hdiff : (ofLayout treeOnly).diff (ofLayout (ofCatalogue .builtin)) = none := by
    decide +kernel
  have hsame := (h treeOnly (ofCatalogue .builtin) (by decide +kernel) hwell
    (Reachable.fresh.numeric htree) (Reachable.fresh.numeric Catalogue.builtin_numeric)).mp hdiff
  have hfurther := ((distinct_ofLayout hwell).same_iff.mp hsame).2
  exact absurd hfurther (by decide +kernel)

end Snapshot

end Docking
