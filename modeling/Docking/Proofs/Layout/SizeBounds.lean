import Docking.Proofs.Stored.Clamp

/-! Sizes within their bounds. Over a catalogue of finite sizes and bounds a session only ever gives
a panel sizes that are finite and that the panel's own bounds leave alone, also where a sum
overflows or a stored number lies beyond the range of sizes. -/
namespace Docking

namespace Number

variable {f : Format} {a b : Number f}

def le (a b : Number f) : Bool :=
  match a.rank, b.rank with
  | some x, some y => x ≤ y
  | _, _ => false

theorem le_iff : a.le b = true ↔ ∃ j k, a.rank = some j ∧ b.rank = some k ∧ j ≤ k := by
  unfold le
  cases a.rank <;> cases b.rank <;> simp

/-- Two numbers are in order unless the second one is strictly below the first. -/
theorem le_iff_lt_eq_false :
    a.le b = true ↔ a.isNaN = false ∧ b.isNaN = false ∧ b.lt a = false := by
  constructor
  · intro h
    obtain ⟨j, k, hj, hk, hle⟩ := le_iff.mp h
    exact ⟨isNaN_of_rank hj, isNaN_of_rank hk, by simpa [lt, hj, hk] using hle⟩
  · rintro ⟨ha, hb, hlt⟩
    obtain ⟨j, hj⟩ := isNaN_eq_false_iff.mp ha
    obtain ⟨k, hk⟩ := isNaN_eq_false_iff.mp hb
    exact le_iff.mpr ⟨j, k, hj, hk, by simpa [lt, hj, hk] using hlt⟩

theorem le_of_not_lt (ha : a.isFinite = true) (hb : b.isFinite = true) (h : b.lt a = false) :
    a.le b = true := by
  obtain ⟨j, hj, -⟩ := isFinite_iff.mp ha
  obtain ⟨k, hk, -⟩ := isFinite_iff.mp hb
  exact le_iff_lt_eq_false.mpr ⟨isNaN_of_rank hj, isNaN_of_rank hk, h⟩

theorem isFinite_congr (h : a.rank = b.rank) (hb : b.isFinite = true) : a.isFinite = true := by
  rw [isFinite_iff] at hb ⊢
  rwa [h]

theorem beq_of_rank_eq (h : a.rank = b.rank) (hb : b.isFinite = true) : (a == b) = true := by
  obtain ⟨k, hk, -⟩ := isFinite_iff.mp hb
  exact agrees_iff.mpr ⟨k, h.trans hk, hk⟩

end Number

open Number

structure Bounds.Finite (b : Bounds) : Prop where
  lower : ∀ x ∈ b.lower, x.isFinite = true
  upper : ∀ x ∈ b.upper, x.isFinite = true

def Catalogue.FiniteSizes (c : Catalogue) : Prop :=
  ∀ s ∈ c.specs, s.bounds.Finite ∧ ∀ x ∈ s.size, x.isFinite = true

namespace Bounds

variable {b : Bounds} {x : Size}

instance (b : Bounds) : Decidable b.Finite :=
  decidable_of_iff ((∀ x ∈ b.lower, x.isFinite = true) ∧ ∀ x ∈ b.upper, x.isFinite = true)
    ⟨fun h => ⟨h.1, h.2⟩, fun h => ⟨h.lower, h.upper⟩⟩

instance (c : Catalogue) : Decidable c.FiniteSizes :=
  inferInstanceAs (Decidable (∀ s ∈ c.specs, s.bounds.Finite ∧ ∀ x ∈ s.size, x.isFinite = true))

/-- The lower bound that clamping uses is finite, given or not. -/
theorem Finite.exists_lower (h : b.Finite) :
    ∃ k : Int, (b.lower.getD 0).rank = some k ∧ k.natAbs ≤ Format.single.largest := by
  refine isFinite_iff.mp ?_
  cases hl : b.lower with
  | none => rfl
  | some lower => exact h.lower lower hl

/-- So is the upper bound that stored sizes are clamped to. -/
theorem Finite.exists_upper (h : b.Finite) :
    ∃ k : Int, (b.upper.getD Number.top).rank = some k ∧ k.natAbs ≤ Format.single.largest := by
  refine isFinite_iff.mp ?_
  cases hu : b.upper with
  | none => rfl
  | some upper => exact h.upper upper hu

/-- Whatever is clamped as stored sizes are comes out finite, infinities included. -/
theorem Finite.isFinite_clampFinite (h : b.Finite) (x : Size) :
    (b.clampFinite x).isFinite = true := by
  obtain ⟨lower, hlower, hlo⟩ := h.exists_lower
  obtain ⟨upper, hupper, hhi⟩ := h.exists_upper
  refine isFinite_iff.mpr ?_
  unfold clampFinite
  rw [rank_min, rank_max, hlower, hupper]
  cases x.rank with
  | none =>
    refine ⟨_, rfl, ?_⟩
    omega
  | some k =>
    refine ⟨_, rfl, ?_⟩
    omega

/-- On finite sizes both ways of clamping agree: nothing finite lies between the largest size and
infinity. -/
theorem Finite.rank_clamp (h : b.Finite) (hx : x.isFinite = true) :
    (b.clamp x).rank = (b.clampFinite x).rank := by
  obtain ⟨lower, hlower, hlo⟩ := h.exists_lower
  obtain ⟨k, hk, hle⟩ := isFinite_iff.mp hx
  unfold clamp clampFinite
  cases b.upper with
  | some upper => rfl
  | none =>
    simp only [Option.getD_none, rank_min, rank_max, hk, hlower, Number.rank_top, rank_infinity,
      Option.merge_some_some, Option.some.injEq]
    omega

/-- The size is finite, and clamping leaves its value alone. -/
def Fixes (b : Bounds) (x : Size) : Prop := x.isFinite = true ∧ (b.clamp x == x) = true

theorem Finite.fixes_of_rank (h : b.Finite) (hx : x.isFinite = true)
    (hrank : (b.clampFinite x).rank = x.rank) : b.Fixes x :=
  ⟨hx, beq_of_rank_eq ((h.rank_clamp hx).trans hrank) hx⟩

theorem Finite.fixes_clamp (h : b.Finite) (hx : x.isFinite = true) : b.Fixes (b.clamp x) := by
  have hfinite : (b.clamp x).isFinite = true :=
    isFinite_congr (h.rank_clamp hx) (h.isFinite_clampFinite x)
  exact h.fixes_of_rank hfinite (b.holds_clamp x hfinite)

/-- A stored number is clamped before it is rounded, and rounding keeps it within the bounds. -/
theorem Finite.fixes_clampWide (h : b.Finite) (x : Wide) : b.Fixes (b.clampWide x) := by
  have hfinite : (b.clampWide x).isFinite = true :=
    isFinite_congr (b.rank_clampWide x) (h.isFinite_clampFinite _)
  exact h.fixes_of_rank hfinite (b.holds_clampWide x hfinite)

/-- Between two bounds that are in order a size that clamping leaves alone lies between them. -/
theorem Fixes.between {lower upper : Size} (h : b.Fixes x) (hb : b.Finite)
    (hlower : b.lower = some lower) (hupper : b.upper = some upper)
    (horder : upper.lt lower = false) : lower.le x = true ∧ x.le upper = true := by
  obtain ⟨k, hclamp, hk⟩ := agrees_iff.mp h.2
  obtain ⟨lo, hi, hlo, hhi, hle⟩ :=
    le_iff.mp (le_of_not_lt (hb.lower lower hlower) (hb.upper upper hupper) horder)
  simp only [clamp, hlower, hupper, Option.getD_some, rank_min, rank_max, hk, hlo, hhi,
    Option.merge_some_some, Option.some.injEq] at hclamp
  constructor
  · exact le_iff.mpr ⟨lo, k, hlo, hk, by omega⟩
  · exact le_iff.mpr ⟨k, hi, hk, hhi, by omega⟩

end Bounds

theorem Catalogue.builtin_finiteSizes : Catalogue.builtin.FiniteSizes := by decide +kernel

namespace Layout

variable {c : Catalogue} {l : Layout}

/-- However a size is given to a session, the bounds of its entry leave it alone. -/
theorem givenSizes_fixes (hc : c.Valid) (hf : c.FiniteSizes) : GivenSizes Bounds.Fixes c where
  entry := by
    intro s hs x hx
    obtain ⟨hbounds, hsize⟩ := hf s hs
    rw [← hc.clamp_size hs hx]
    exact hbounds.fixes_clamp (hsize x hx)
  requested := by
    intro s hs x hx
    exact (hf s hs).1.fixes_clamp hx
  stored := by
    intro s hs x _
    exact (hf s hs).1.fixes_clampWide x

/-- In every layout of a session over a catalogue of finite sizes and bounds, a size is finite and
left alone by the panel's own clamp, and it lies between the panel's bounds where both are given. -/
theorem reachable_sizes_fixed {c : Catalogue} (hc : c.Obtainable) (hf : c.FiniteSizes) {l : Layout}
    (hl : Reachable c l) :
    ∀ p ∈ l.panels, ∀ x ∈ p.size, x.isFinite = true ∧ (p.bounds.clamp x == x) = true ∧
      ∀ lower ∈ p.bounds.lower, ∀ upper ∈ p.bounds.upper,
        lower.le x = true ∧ x.le upper = true := by
  intro p hp x hx
  obtain ⟨s, hs, hbounds, hfixes⟩ := (hl.sized (givenSizes_fixes hc.valid hf)).panels p hp
  have hfixed : s.bounds.Fixes x := hfixes x hx
  rw [hbounds]
  refine ⟨hfixed.1, hfixed.2, ?_⟩
  intro lower hlower upper hupper
  obtain ⟨-, -, horder⟩ := PanelSpec.check_eq_ok_iff.mp (hc.valid.checked s hs)
  exact hfixed.between (hf s hs).1 hlower hupper (horder lower upper hlower hupper)

/-- Docs stored at a size beyond the range of sizes and then grown by the largest size there is, and
a terminal that is asked to take no number for its size. -/
def overgrown : Layout :=
  (restore .builtin "\x7b\"panels\":[\x7b\"id\":\"docs\",\"size\":1e300\x7d]\x7d").run
    [.resizeBy .docs Number.top, .setSize .terminal .nan]

theorem reachable_sizes_fixed_overgrown :
    Catalogue.builtin.Obtainable ∧ Catalogue.builtin.FiniteSizes ∧ Reachable .builtin overgrown ∧
      (overgrown.panel? .docs).any (fun p => p.size == some 800) = true ∧
      ∀ p ∈ overgrown.panels, ∀ x ∈ p.size, ∀ lower ∈ p.bounds.lower, ∀ upper ∈ p.bounds.upper,
        lower.le x = true ∧ x.le upper = true := by
  have hl : Reachable .builtin overgrown := (Reachable.restored _).run _
  refine ⟨.builtin, Catalogue.builtin_finiteSizes, hl, by decide +kernel, ?_⟩
  intro p hp x hx
  exact (reachable_sizes_fixed .builtin Catalogue.builtin_finiteSizes hl p hp x hx).2.2

end Layout

end Docking
