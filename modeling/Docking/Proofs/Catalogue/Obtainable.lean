import Docking.Catalogue.Override
import Docking.Proofs.Number.Order
import Mathlib.Data.List.Nodup

/-! Catalogues that can be built. Every one of them has one entry for a panel, its entries pass
their check, and their sizes are clamped; and the check of a list of entries asks for no more. -/
namespace Docking

theorem map_eq_ok_iff {ε α β : Type} {x : Except ε α} {g : α → β} {b : β} :
    x.map g = .ok b ↔ ∃ a, x = .ok a ∧ g a = b := by
  cases x <;> simp [Except.map]

theorem bind_eq_ok_iff {ε α β : Type} {x : Except ε α} {f : α → Except ε β} {b : β} :
    (x >>= f) = .ok b ↔ ∃ a, x = .ok a ∧ f a = .ok b := by
  cases x <;> simp [bind, Except.bind]

section LookUp

variable {c : Catalogue} {id : PanelId} {s : PanelSpec}

theorem spec?_eq_some (h : c.spec? id = some s) : s ∈ c.specs ∧ s.id = id :=
  ⟨List.mem_of_find?_eq_some h, by simpa using List.find?_some h⟩

theorem spec?_eq_none_iff : c.spec? id = none ↔ id ∉ c.ids := by
  simp [Catalogue.spec?, Catalogue.ids]

end LookUp

namespace PanelSpec

variable {s : PanelSpec} {seen : List PanelId} {specs out : List PanelSpec}

theorem misplaced?_eq_none_iff : s.misplaced? = none ↔
    s.placement.allows s.home = true ∧ s.placement.allows s.placement.preferred = true := by
  simp [misplaced?]

theorem check_eq_ok_iff : s.check = .ok () ↔
    s.placement.allows s.home = true ∧ s.placement.allows s.placement.preferred = true ∧
      ∀ lower upper, s.bounds.lower = some lower → s.bounds.upper = some upper →
        upper.lt lower = false := by
  unfold check
  rw [← and_assoc, ← misplaced?_eq_none_iff]
  cases s.misplaced? with
  | some slot => simp
  | none =>
    cases hl : s.bounds.lower with
    | none => simp
    | some lower =>
      cases hu : s.bounds.upper with
      | none => simp
      | some upper => cases h : upper.lt lower <;> simp [h]

theorem check_clamped (s : PanelSpec) : s.clamped.check = s.check := rfl

theorem clamped_clamped (s : PanelSpec) : s.clamped.clamped = s.clamped := by
  unfold clamped
  cases s.size <;> simp [Bounds.clamp_clamp]

/-- A list of entries is accepted exactly when no panel repeats and every entry passes its check;
the entries come out clamped. -/
theorem settle_eq_ok_iff : settle seen specs = .ok out ↔
    (∀ s ∈ specs, s.id ∉ seen ∧ s.check = .ok ()) ∧ (specs.map PanelSpec.id).Nodup ∧
      out = specs.map clamped := by
  induction specs generalizing seen out with
  | nil => simp [settle, eq_comm]
  | cons s rest ih =>
    unfold settle
    by_cases hseen : s.id ∈ seen
    · simp [hseen]
    · rw [if_neg hseen]
      cases hc : s.check with
      | error e => simp [hc]
      | ok u =>
        rw [map_eq_ok_iff]
        simp only [ih, List.mem_cons, not_or, forall_eq_or_imp, List.map_cons, List.nodup_cons]
        constructor
        · rintro ⟨tail, ⟨hrest, hnodup, rfl⟩, rfl⟩
          refine ⟨⟨⟨hseen, hc⟩, fun t ht => ⟨(hrest t ht).1.2, (hrest t ht).2⟩⟩, ⟨?_, hnodup⟩, rfl⟩
          intro hmem
          obtain ⟨t, ht, hid⟩ := List.mem_map.mp hmem
          exact (hrest t ht).1.1 hid
        · rintro ⟨⟨-, hrest⟩, ⟨hfresh, hnodup⟩, rfl⟩
          refine ⟨_, ⟨fun t ht => ⟨⟨?_, (hrest t ht).1⟩, (hrest t ht).2⟩, hnodup, rfl⟩, rfl⟩
          intro hid
          exact hfresh (hid ▸ List.mem_map_of_mem ht)

end PanelSpec

namespace Catalogue

variable {c : Catalogue} {specs : List PanelSpec}

/-- One entry for a panel, every entry checked and clamped. -/
structure Valid (c : Catalogue) : Prop where
  nodup : c.ids.Nodup
  checked : ∀ s ∈ c.specs, s.check = .ok ()
  clamped : ∀ s ∈ c.specs, s.clamped = s

/-- The catalogues that can be built: the one shipped, checked lists of entries, and those under
user settings or restricted to some panels. -/
inductive Obtainable : Catalogue → Prop
  | builtin : Obtainable .builtin
  | ofSpecs {specs : List PanelSpec} {c : Catalogue} (h : ofSpecs specs = .ok c) : Obtainable c
  | override {overrides : List PanelOverride} {base c : Catalogue} (hbase : Obtainable base)
      (h : base.override overrides = .ok c) : Obtainable c
  | restrict {base : Catalogue} (ids : List PanelId) (hbase : Obtainable base) :
      Obtainable (base.restrict ids)

/-- A list of entries makes a catalogue exactly when no panel repeats and every entry passes its
check. -/
theorem ofSpecs_eq_ok_iff : ofSpecs specs = .ok c ↔
    (∀ s ∈ specs, s.check = .ok ()) ∧ (specs.map PanelSpec.id).Nodup ∧
      c = ⟨specs.map PanelSpec.clamped⟩ := by
  unfold ofSpecs
  simp only [map_eq_ok_iff, PanelSpec.settle_eq_ok_iff, List.not_mem_nil, not_false_eq_true,
    true_and]
  constructor
  · rintro ⟨out, ⟨hcheck, hnodup, rfl⟩, rfl⟩
    exact ⟨hcheck, hnodup, rfl⟩
  · rintro ⟨hcheck, hnodup, rfl⟩
    exact ⟨_, ⟨hcheck, hnodup, rfl⟩, rfl⟩

theorem valid_of_ofSpecs (h : ofSpecs specs = .ok c) : c.Valid := by
  obtain ⟨hcheck, hnodup, rfl⟩ := ofSpecs_eq_ok_iff.mp h
  refine ⟨?_, ?_, ?_⟩
  · rw [ids, List.map_map]
    exact hnodup
  · intro s hs
    obtain ⟨t, ht, rfl⟩ := List.mem_map.mp hs
    exact (t.check_clamped).trans (hcheck t ht)
  · intro s hs
    obtain ⟨t, -, rfl⟩ := List.mem_map.mp hs
    exact t.clamped_clamped

theorem valid_of_override {base : Catalogue} {overrides : List PanelOverride}
    (h : base.override overrides = .ok c) : c.Valid := by
  unfold override at h
  obtain ⟨specs, -, hbuilt⟩ := bind_eq_ok_iff.mp h
  exact valid_of_ofSpecs hbuilt

/-- An entry's own size has been clamped. -/
theorem Valid.clamp_size (h : c.Valid) {s : PanelSpec} (hs : s ∈ c.specs) {x : Size}
    (hx : s.size = some x) : s.bounds.clamp x = x := by
  have hclamped : s.size.map s.bounds.clamp = s.size := congrArg PanelSpec.size (h.clamped s hs)
  rwa [hx, Option.map_some, Option.some.injEq] at hclamped

theorem Valid.restrict (h : c.Valid) (ids : List PanelId) : (c.restrict ids).Valid where
  nodup := h.nodup.sublist (List.filter_sublist.map PanelSpec.id)
  checked := fun s hs => h.checked s (List.mem_of_mem_filter hs)
  clamped := fun s hs => h.clamped s (List.mem_of_mem_filter hs)

/-- The entries of such a catalogue make it up again. -/
theorem Valid.ofSpecs_specs (h : c.Valid) : ofSpecs c.specs = .ok c := by
  have hsame : c.specs.map PanelSpec.clamped = c.specs :=
    (List.map_congr_left h.clamped).trans (List.map_id c.specs)
  exact ofSpecs_eq_ok_iff.mpr ⟨h.checked, h.nodup, by rw [hsame]⟩

theorem builtin_valid : builtin.Valid where
  nodup := by decide
  checked := by
    intro s hs
    simp [builtin] at hs
    rcases hs with rfl | rfl | rfl | rfl | rfl | rfl
    all_goals rfl
  clamped := by
    intro s hs
    simp [builtin] at hs
    rcases hs with rfl | rfl | rfl | rfl | rfl | rfl
    all_goals rfl

theorem Obtainable.valid (h : c.Obtainable) : c.Valid := by
  induction h with
  | builtin => exact builtin_valid
  | ofSpecs h => exact valid_of_ofSpecs h
  | override _ h _ => exact valid_of_override h
  | restrict ids _ ih => exact ih.restrict ids

end Catalogue

end Docking
