import Docking.Proofs.Layout.Numeric
import Docking.Proofs.Stored.Clamp

/-! Stored sizes beside live ones. A stored number is clamped before it is rounded and a request is
clamped as it is; both come to the same size, also for numbers beyond the range of sizes. They part
only under an infinite lower bound without an upper one, which no finite size meets. -/
namespace Docking

open Number

namespace Number

variable {f : Format} {a b : Number f}

theorem isNaN_of_isFinite (h : a.isFinite = true) : a.isNaN = false := by
  obtain ⟨k, hk, -⟩ := isFinite_iff.mp h
  exact isNaN_of_rank hk

theorem eq_infinite (hnum : a.isNaN = false) (h : a.isFinite = false) :
    ∃ negative, a = infinite negative := by
  cases a with
  | nan => cases hnum
  | infinite negative => exact ⟨negative, rfl⟩
  | finite negative units fits => cases h

theorem eq_infinite_of_rank (h : a.rank = some ((f.largest + 1 : Nat) : Int)) :
    a = infinite false := by
  rcases eq_or_eq_zero (agrees_iff.mpr ⟨_, h, rank_infinity⟩) with heq | ⟨negative, rfl⟩
  · exact heq
  · rw [zero, rank_finite, Option.some.injEq] at h
    cases negative <;> simp [signed] at h <;> omega

/-- No number ranks beyond the infinities. -/
theorem exists_rank_le (h : a.isNaN = false) :
    ∃ k : Int, a.rank = some k ∧ k.natAbs ≤ f.largest + 1 := by
  cases hfinite : a.isFinite with
  | true =>
    obtain ⟨k, hk, hle⟩ := isFinite_iff.mp hfinite
    exact ⟨k, hk, Nat.le_succ_of_le hle⟩
  | false =>
    obtain ⟨negative, rfl⟩ := eq_infinite h hfinite
    refine ⟨_, rank_infinite negative, ?_⟩
    cases negative <;> simp [signed] <;> omega

theorem beq_iff_rank_eq (ha : a.isNaN = false) : (a == b) = true ↔ a.rank = b.rank := by
  obtain ⟨k, hk⟩ := isNaN_eq_false_iff.mp ha
  rw [agrees_iff]
  constructor
  · rintro ⟨m, ham, hbm⟩
    exact ham.trans hbm.symm
  · intro h
    exact ⟨k, hk, h.symm.trans hk⟩

end Number

namespace Bounds

variable {b : Bounds} {x : Wide} {y : Size}

/-- What live clamping makes of a stored number: it clamps the nearest size, and the largest one on
that side in place of a number beyond the range of sizes, unless an infinite bound is given
there. -/
def live (b : Bounds) (x : Wide) : Size :=
  match (x.convert .single : Size) with
  | .infinite false => (b.upper.filter fun bound => !bound.isFinite).getD (b.clamp Number.top)
  | .infinite true => (b.lower.filter fun bound => !bound.isFinite).getD (b.clamp Number.top.neg)
  | nearest => b.clamp nearest

/-- An infinite lower bound and no upper one. -/
def OutOfReach (b : Bounds) : Prop := b.lower = some (.infinite false) ∧ b.upper = none

def Ordered (b : Bounds) : Prop :=
  ∀ lower ∈ b.lower, ∀ upper ∈ b.upper, upper.lt lower = false

/-- Where the bounds stand: the lower one, and the upper one for stored and for live sizes. The two
differ if there is none, by the one step from the largest size to infinity. -/
structure Ends (b : Bounds) (lower stored live : Int) : Prop where
  lower_rank : (b.lower.getD 0).rank = some lower
  stored_rank : (b.upper.getD Number.top).rank = some stored
  live_rank : (b.upper.getD (.infinite false)).rank = some live
  lower_le : lower.natAbs ≤ Format.single.largest + 1
  stored_le : stored.natAbs ≤ Format.single.largest + 1
  apart : (live = stored ∧ b.upper.isSome = true) ∨
    (b.upper = none ∧ stored = Format.single.largest ∧ live = Format.single.largest + 1)

theorem Numeric.exists_ends (h : b.Numeric) : ∃ lower stored live, b.Ends lower stored live := by
  have hlower : (b.lower.getD 0).isNaN = false := by
    cases hl : b.lower with
    | none => rfl
    | some lower => exact h.lower lower hl
  obtain ⟨lower, hlower, hlo⟩ := exists_rank_le hlower
  cases hu : b.upper with
  | none =>
    refine ⟨lower, Format.single.largest, Format.single.largest + 1, hlower, ?_, ?_, hlo, ?_, ?_⟩
    · rw [hu]
      rfl
    · rw [hu]
      rfl
    · omega
    · exact .inr ⟨hu, rfl, rfl⟩
  | some upper =>
    obtain ⟨k, hk, hle⟩ := exists_rank_le (h.upper upper hu)
    refine ⟨lower, k, k, hlower, ?_, ?_, hlo, hle, .inl ⟨rfl, by simp [hu]⟩⟩
    · rw [hu]
      exact hk
    · rw [hu]
      exact hk

section

variable {lower stored upper k : Int}

theorem Ends.outOfReach_iff (h : b.Ends lower stored upper) :
    b.OutOfReach ↔ lower = Format.single.largest + 1 ∧ upper ≠ stored := by
  have hrank := h.lower_rank
  constructor
  · rintro ⟨hl, hu⟩
    rcases h.apart with ⟨-, hsome⟩ | ⟨-, hstored, hlive⟩
    · simp [hu] at hsome
    · rw [hl, Option.getD_some, rank_infinity, Option.some.injEq] at hrank
      omega
  · rintro ⟨hlower, hne⟩
    rcases h.apart with ⟨heq, -⟩ | ⟨hu, -, -⟩
    · exact absurd heq hne
    · refine ⟨?_, hu⟩
      cases hl : b.lower with
      | none =>
        have hzero : (0 : Size).rank = some 0 := rfl
        rw [hl, Option.getD_none, hzero, Option.some.injEq] at hrank
        omega
      | some bound =>
        rw [hl, Option.getD_some, hlower] at hrank
        rw [eq_infinite_of_rank hrank]

theorem Ends.rank_clamp (h : b.Ends lower stored upper) (hy : y.rank = some k) :
    (b.clamp y).rank = some (Min.min (Max.max k lower) upper) := by
  unfold clamp
  rw [rank_min, rank_max, hy, h.lower_rank, h.live_rank]
  rfl

theorem Ends.rank_clampWide (h : b.Ends lower stored upper)
    (hx : (x.convert .single : Size).rank = some k) :
    (b.clampWide x).rank = some (Min.min (Max.max k lower) stored) := by
  rw [Bounds.rank_clampWide, clampFinite, rank_min, rank_max, hx, h.lower_rank, h.stored_rank]
  rfl

/-- Where there is a reachable size, an upper bound is given or the lower one is not infinite. -/
theorem Ends.reachable (h : b.Ends lower stored upper) (hreach : ¬ b.OutOfReach) :
    upper = stored ∨ (lower ≤ Format.single.largest ∧ stored = Format.single.largest ∧
      upper = Format.single.largest + 1) := by
  have hle := h.lower_le
  rw [h.outOfReach_iff] at hreach
  rcases h.apart with ⟨heq, -⟩ | ⟨-, hstored, hupper⟩
  · exact .inl heq
  · exact .inr ⟨by omega, hstored, hupper⟩

/-- Bounds in order leave an infinite lower bound only an upper one as high. -/
theorem Ends.lower_le_stored (h : b.Ends lower stored upper) (hreach : ¬ b.OutOfReach)
    (horder : b.Ordered) {bound : Size} (hl : b.lower = some bound) : lower ≤ stored := by
  have hlower := h.lower_rank
  have hstored := h.stored_rank
  rw [hl, Option.getD_some] at hlower
  cases hu : b.upper with
  | none =>
    rcases h.apart with ⟨-, hsome⟩ | ⟨-, hlargest, hupper⟩
    · simp [hu] at hsome
    · rcases h.reachable hreach with heq | ⟨hle, -, -⟩ <;> omega
  | some bound' =>
    rw [hu, Option.getD_some] at hstored
    simpa [lt, hlower, hstored] using horder bound hl bound' hu

/-- A number beyond the largest size ends at the upper bound, live and stored. -/
theorem Ends.rank_live_above (h : b.Ends lower stored upper) (hreach : ¬ b.OutOfReach)
    (hx : (x.convert .single : Size) = .infinite false) : (b.live x).rank = some stored := by
  have hstored := h.stored_rank
  have hclamp := h.rank_clamp Number.rank_top
  simp only [live, hx]
  cases hu : b.upper with
  | none =>
    rw [Option.filter_none, Option.getD_none, hclamp, Option.some.injEq]
    rw [hu, Option.getD_none, Number.rank_top, Option.some.injEq] at hstored
    rcases h.reachable hreach with heq | ⟨hlower, -, hupper⟩ <;> omega
  | some bound =>
    rw [hu, Option.getD_some] at hstored
    cases hfinite : bound.isFinite with
    | false => simpa [Option.filter, hfinite] using hstored
    | true =>
      obtain ⟨k, hk, hle⟩ := isFinite_iff.mp hfinite
      obtain rfl : k = stored := Option.some.inj (hk.symm.trans hstored)
      rcases h.apart with ⟨heq, -⟩ | ⟨hnone, -, -⟩
      · simp only [Option.filter, hfinite, Bool.not_true, Bool.false_eq_true, if_false,
          Option.getD_none, hclamp, Option.some.injEq]
        omega
      · simp [hu] at hnone

/-- A number below all sizes ends at the lower bound, as far as the upper one lets it. -/
theorem Ends.rank_live_below (h : b.Ends lower stored upper) (hreach : ¬ b.OutOfReach)
    (horder : b.Ordered) (hx : (x.convert .single : Size) = .infinite true) :
    (b.live x).rank = some (Min.min lower stored) := by
  have hlower := h.lower_rank
  have hbottom : (Number.top.neg : Size).rank = some (-(Format.single.largest : Int)) := rfl
  have hclamp := h.rank_clamp hbottom
  have hle := h.lower_le
  simp only [live, hx]
  cases hl : b.lower with
  | none =>
    have hzero : (0 : Size).rank = some 0 := rfl
    rw [hl, Option.getD_none, hzero, Option.some.injEq] at hlower
    rw [Option.filter_none, Option.getD_none, hclamp, Option.some.injEq]
    rcases h.reachable hreach with heq | ⟨-, hstored, hupper⟩ <;> omega
  | some bound =>
    rw [hl, Option.getD_some] at hlower
    cases hfinite : bound.isFinite with
    | false =>
      have hunder := h.lower_le_stored hreach horder hl
      simp only [Option.filter, hfinite, Bool.not_false, if_true, Option.getD_some, hlower,
        Option.some.injEq]
      omega
    | true =>
      obtain ⟨k, hk, hle⟩ := isFinite_iff.mp hfinite
      obtain rfl : k = lower := Option.some.inj (hk.symm.trans hlower)
      simp only [Option.filter, hfinite, Bool.not_true, Bool.false_eq_true, if_false,
        Option.getD_none, hclamp, Option.some.injEq]
      rcases h.reachable hreach with heq | ⟨-, hstored, hupper⟩ <;> omega

/-- Stored and live clamping agree on every finite number that is not out of reach. -/
theorem Ends.rank_clampWide_eq (h : b.Ends lower stored upper) (hreach : ¬ b.OutOfReach)
    (horder : b.Ordered) (hx : x.isFinite = true) : (b.clampWide x).rank = (b.live x).rank := by
  have hstored := h.stored_le
  have hlower := h.lower_le
  cases hnearest : (x.convert .single : Size) with
  | nan =>
    have hnum := (isNaN_convert (g := .single) x).trans (isNaN_of_isFinite hx)
    rw [hnearest] at hnum
    cases hnum
  | infinite negative =>
    have hrank : (x.convert .single : Size).rank = _ := hnearest ▸ rank_infinite negative
    rw [h.rank_clampWide hrank]
    cases negative with
    | false =>
      rw [h.rank_live_above hreach hnearest]
      simp only [signed, Bool.false_eq_true, if_false, Option.some.injEq]
      omega
    | true =>
      rw [h.rank_live_below hreach horder hnearest]
      simp only [signed, if_true, Option.some.injEq]
      omega
  | finite negative units fits =>
    have hfinite : (x.convert .single : Size).isFinite = true := by
      rw [hnearest]
      rfl
    obtain ⟨k, hk, hle⟩ := isFinite_iff.mp hfinite
    have hlive : b.live x = b.clamp (x.convert .single) := by
      simp only [live, hnearest]
    rw [hlive, h.rank_clampWide hk, h.rank_clamp hk, Option.some.injEq]
    rcases h.reachable hreach with heq | ⟨hlow, hlargest, hupper⟩ <;> omega

/-- A stored size within reach is one that the live clamp leaves alone. -/
theorem Ends.rank_clamp_clampWide (h : b.Ends lower stored upper) (hreach : ¬ b.OutOfReach)
    (hx : x.isNaN = false) : (b.clamp (b.clampWide x)).rank = (b.clampWide x).rank := by
  obtain ⟨k, hk⟩ := isNaN_eq_false_iff.mp ((isNaN_convert (g := .single) x).trans hx)
  have hwide := h.rank_clampWide hk
  rw [h.rank_clamp hwide, hwide, Option.some.injEq]
  rcases h.reachable hreach with heq | ⟨hlow, hlargest, hupper⟩ <;> omega

end

theorem OutOfReach.clamp_eq (h : b.OutOfReach) (y : Size) : b.clamp y = .infinite false := by
  obtain ⟨hlower, hupper⟩ := h
  apply eq_infinite_of_rank
  simp only [clamp, hlower, hupper, Option.getD_some, Option.getD_none, rank_min, rank_max,
    rank_infinity]
  cases y.rank with
  | none => simp
  | some k =>
    simp only [Option.merge_some_some, Option.some.injEq]
    omega

theorem OutOfReach.live_eq (h : b.OutOfReach) (x : Wide) : b.live x = .infinite false := by
  have hlower : (b.lower.filter fun bound => !bound.isFinite) = some (.infinite false) := by
    rw [h.1]
    rfl
  unfold live
  split
  · rw [h.2, Option.filter_none, Option.getD_none, h.clamp_eq]
  · rw [hlower, Option.getD_some]
  · exact h.clamp_eq _

/-- A stored number out of reach becomes the largest size, whatever it was. -/
theorem OutOfReach.rank_clampWide (h : b.OutOfReach) (x : Wide) :
    (b.clampWide x).rank = some (Format.single.largest : Int) := by
  obtain ⟨hlower, hupper⟩ := h
  rw [Bounds.rank_clampWide]
  simp only [clampFinite, hlower, hupper, Option.getD_some, Option.getD_none, rank_min, rank_max,
    rank_infinity, Number.rank_top]
  cases (x.convert .single : Size).rank with
  | none =>
    simp only [Option.merge_none_left, Option.merge_some_some, Option.some.injEq]
    omega
  | some k =>
    simp only [Option.merge_some_some, Option.some.injEq]
    omega

/-- Stored and live clamping agree exactly where some size is within reach. -/
theorem Numeric.clampWide_beq_live_iff (h : b.Numeric) (horder : b.Ordered)
    (hx : x.isFinite = true) : (b.clampWide x == b.live x) = true ↔ ¬ b.OutOfReach := by
  rw [beq_iff_rank_eq (h.isNaN_clampWide x)]
  constructor
  · intro heq hreach
    rw [hreach.rank_clampWide, hreach.live_eq, rank_infinity, Option.some.injEq] at heq
    omega
  · intro hreach
    obtain ⟨lower, stored, upper, hends⟩ := h.exists_ends
    exact hends.rank_clampWide_eq hreach horder hx

theorem Numeric.clamp_clampWide_beq_iff (h : b.Numeric) (hx : x.isNaN = false) :
    (b.clamp (b.clampWide x) == b.clampWide x) = true ↔ ¬ b.OutOfReach := by
  rw [beq_iff_rank_eq (h.isNaN_clamp _)]
  constructor
  · intro heq hreach
    rw [hreach.rank_clampWide, hreach.clamp_eq, rank_infinity, Option.some.injEq] at heq
    omega
  · intro hreach
    obtain ⟨lower, stored, upper, hends⟩ := h.exists_ends
    exact hends.rank_clamp_clampWide hreach hx

end Bounds

namespace Panel

variable {c : Catalogue} {s : PanelSpec} {p : Panel} {stored : Json} {x : Wide}

theorem overlay_size (hsize : p.resizable = true)
    (hstored : (stored.member? "size").bind Json.number? = some x) (hx : x.isFinite = true) :
    (p.overlay stored).size = some (p.bounds.clampWide x) := by
  obtain ⟨size, hsize⟩ := Option.isSome_iff_exists.mp hsize
  simp [overlay, overlaySize, hsize, hstored, hx]

end Panel

/-- Over a catalogue whose fields are numbers, a resizable panel takes over a finite stored number
as the size that live clamping makes of it, and as one that the panel's own clamp leaves alone: both
hold for all bounds but an infinite lower one without an upper one, and never for those. The size is
the largest there is then, below its lower bound. -/
theorem overlay_size_live_iff {c : Catalogue} (hc : c.Obtainable) (hn : c.Numeric)
    {s : PanelSpec} (hs : s ∈ c.specs) {p : Panel} (hbounds : p.bounds = s.bounds)
    (hsize : p.resizable = true) {stored : Json} {x : Wide}
    (hstored : (stored.member? "size").bind Json.number? = some x) (hx : x.isFinite = true) :
    ∃ y, (p.overlay stored).size = some y ∧
      ((y == p.bounds.live x) = true ↔ ¬ p.bounds.OutOfReach) ∧
      ((p.bounds.clamp y == y) = true ↔ ¬ p.bounds.OutOfReach) ∧
      (p.bounds.OutOfReach → (y == Number.top) = true ∧ p.bounds.clamp y = .infinite false) := by
  have hnumeric : p.bounds.Numeric := hbounds ▸ (hn s hs).1
  have horder : p.bounds.Ordered := by
    obtain ⟨-, -, hordered⟩ := PanelSpec.check_eq_ok_iff.mp (hc.valid.checked s hs)
    rw [hbounds]
    exact fun lower hlower upper hupper => hordered lower upper hlower hupper
  refine ⟨_, p.overlay_size hsize hstored hx, hnumeric.clampWide_beq_live_iff horder hx,
    hnumeric.clamp_clampWide_beq_iff (isNaN_of_isFinite hx), fun hreach => ⟨?_, hreach.clamp_eq _⟩⟩
  exact (beq_iff_rank_eq (hnumeric.isNaN_clampWide x)).mpr (hreach.rank_clampWide x)

def tallTerminal : PanelSpec :=
  { PanelSpec.docked .terminal .bottom .bottom [.bottom] false 90 with
    bounds := ⟨some 150, some (.infinite false)⟩ }

/-- Docs that have to be infinitely wide and are given no upper bound. -/
def endlessDocs : PanelSpec :=
  { PanelSpec.docked .docs .right .right [.right] true 70 with
    size := some (.infinite false)
    bounds := ⟨some (.infinite false), none⟩ }

def stretched : Catalogue := ⟨[tallTerminal, endlessDocs]⟩

theorem stretched_obtainable : stretched.Obtainable := by
  have h : Catalogue.ofSpecs stretched.specs = .ok stretched := rfl
  exact .ofSpecs h

theorem stretched_numeric : stretched.Numeric := by
  unfold Catalogue.Numeric
  decide +kernel

def hugeHeight : Json := .object [("size", .number (.ofDecimal false 1 300))]

/-- A stored height beyond the range of sizes becomes the infinite one that the terminal may
have. -/
theorem overlay_size_live_iff_tallTerminal :
    ∃ y, ((Panel.ofSpec tallTerminal).overlay hugeHeight).size = some y ∧
      (y == .infinite false) = true ∧ (tallTerminal.bounds.clamp y == y) = true := by
  have hmem : tallTerminal ∈ stretched.specs := by simp [stretched]
  have hbounds : (Panel.ofSpec tallTerminal).bounds = tallTerminal.bounds := rfl
  have hstored : (hugeHeight.member? "size").bind Json.number? = some (.ofDecimal false 1 300) :=
    rfl
  have hx : (.ofDecimal false 1 300 : Wide).isFinite = true := by decide +kernel
  have hlive : (tallTerminal.bounds.live (.ofDecimal false 1 300) == .infinite false) = true := by
    decide +kernel
  have hreach : ¬ tallTerminal.bounds.OutOfReach := fun h => by cases h.2
  obtain ⟨y, hy, hagree, hfixed, -⟩ :=
    overlay_size_live_iff stretched_obtainable stretched_numeric hmem hbounds rfl hstored hx
  exact ⟨y, hy, PartialEquivBEq.trans (hagree.mpr hreach) hlive, hfixed.mpr hreach⟩

/-- Docs stored at a width of 500 come out at the largest width, which is not wide enough. -/
theorem stored_size_out_of_reach :
    ¬ ∀ (c : Catalogue) (s : PanelSpec) (stored : Json) (x : Wide), c.Obtainable → c.Numeric →
      s ∈ c.specs → s.size.isSome = true →
        (stored.member? "size").bind Json.number? = some x → x.isFinite = true →
          ∃ y, ((Panel.ofSpec s).overlay stored).size = some y ∧ (y == s.bounds.live x) = true ∧
            (s.bounds.clamp y == y) = true := by
  intro h
  have hmem : endlessDocs ∈ stretched.specs := by simp [stretched]
  have hx : (500 : Wide).isFinite = true := by decide +kernel
  obtain ⟨y, hy, hlive, -⟩ := h stretched endlessDocs (.object [("size", .number 500)]) 500
    stretched_obtainable stretched_numeric hmem rfl rfl hx
  rw [Panel.overlay_size rfl rfl hx, Option.some.injEq] at hy
  subst hy
  have hdiffers : (endlessDocs.bounds.clampWide 500 == endlessDocs.bounds.live 500) = false := by
    decide +kernel
  exact Bool.false_ne_true (hdiffers.symm.trans hlive)

end Docking
