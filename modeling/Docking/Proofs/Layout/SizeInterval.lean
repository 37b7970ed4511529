import Docking.Proofs.Layout.Agreement
import Docking.Proofs.Layout.SizeBounds
import Docking.Proofs.Stored.LiveClamp

/-! Sizes between their bounds. The check of an entry compares bounds that are given both, while
clamping puts zero and infinity in the place of absent ones. So an entry may pass with bounds that
no size lies between, but only if a bound is no number or the upper one is below zero and alone;
under all others the entry's own size and every size that is set later lie between them. -/
namespace Docking

open Number

theorem Number.infinity_lt_eq_false {f : Format} (a : Number f) :
    (infinite false).lt a = false := by
  unfold lt
  cases ha : a.isNaN with
  | true => simp [rank_eq_none_iff.mpr ha]
  | false =>
    obtain ⟨k, hk, hle⟩ := exists_rank_le ha
    simp only [rank_infinity, hk, decide_eq_false_iff_not]
    omega

namespace Bounds

variable {b : Bounds} {x y : Size}

/-- The lower end that clamping uses, given or not. -/
def lowest (b : Bounds) : Size := b.lower.getD 0

def highest (b : Bounds) : Size := b.upper.getD (.infinite false)

def Admits (b : Bounds) (x : Size) : Prop := b.lowest.le x = true ∧ x.le b.highest = true

def Satisfiable (b : Bounds) : Prop := b.lowest.le b.highest = true

/-- A bound is no number, or the upper one is below zero and no lower one is given. -/
def Vacant (b : Bounds) : Prop :=
  ¬ b.Numeric ∨ b.lower = none ∧ ∃ upper ∈ b.upper, upper.lt 0 = true

instance (b : Bounds) (x : Size) : Decidable (b.Admits x) :=
  inferInstanceAs (Decidable (_ ∧ _))

instance (b : Bounds) : Decidable b.Satisfiable :=
  inferInstanceAs (Decidable (_ = true))

theorem admits_iff : b.Admits x ↔ ∃ lo k hi, b.lowest.rank = some lo ∧ x.rank = some k ∧
    b.highest.rank = some hi ∧ lo ≤ k ∧ k ≤ hi := by
  unfold Admits
  rw [le_iff, le_iff]
  constructor
  · rintro ⟨⟨lo, k, hlo, hk, hle⟩, ⟨k', hi, hk', hhi, hle'⟩⟩
    obtain rfl := Option.some.inj (hk.symm.trans hk')
    exact ⟨lo, k, hi, hlo, hk, hhi, hle, hle'⟩
  · rintro ⟨lo, k, hi, hlo, hk, hhi, hle, hle'⟩
    exact ⟨⟨lo, k, hlo, hk, hle⟩, ⟨k, hi, hk, hhi, hle'⟩⟩

theorem Admits.congr (h : b.Admits x) (hrank : y.rank = x.rank) : b.Admits y := by
  rw [admits_iff] at h ⊢
  rwa [hrank]

theorem Admits.satisfiable (h : b.Admits x) : b.Satisfiable := by
  obtain ⟨lo, k, hi, hlo, -, hhi, hle, hle'⟩ := admits_iff.mp h
  exact le_iff.mpr ⟨lo, hi, hlo, hhi, hle.trans hle'⟩

/-- Clamping lands between ends that are in order, also from what is no number. -/
theorem Satisfiable.admits_clamp (h : b.Satisfiable) (x : Size) : b.Admits (b.clamp x) := by
  obtain ⟨lo, hi, hlo, hhi, hle⟩ := le_iff.mp h
  have hclamp : (b.clamp x).rank =
      Option.merge Min.min (Option.merge Max.max x.rank (some lo)) (some hi) := by
    rw [← hlo, ← hhi, ← rank_max, ← rank_min]
    rfl
  rw [admits_iff, hclamp]
  cases x.rank with
  | none => exact ⟨lo, min lo hi, hi, hlo, rfl, hhi, by omega, by omega⟩
  | some k => exact ⟨lo, min (max k lo) hi, hi, hlo, rfl, hhi, by omega, by omega⟩

/-- A size that has been clamped lies between the ends exactly if some size does. -/
theorem admits_iff_satisfiable (h : x.rank = (b.clamp y).rank) : b.Admits x ↔ b.Satisfiable :=
  ⟨Admits.satisfiable, fun hs => (hs.admits_clamp y).congr h⟩

/-- What the comparison of the bounds that are given leaves to chance: beside bounds with their ends
in order it lets just the vacant ones pass. -/
theorem Ordered.satisfiable_iff (h : b.Ordered) : b.Satisfiable ↔ ¬ b.Vacant := by
  have hnumeric : b.Numeric ↔
      (∀ lower ∈ b.lower, lower.isNaN = false) ∧ ∀ upper ∈ b.upper, upper.isNaN = false :=
    ⟨fun hn => ⟨hn.lower, hn.upper⟩, fun hn => ⟨hn.1, hn.2⟩⟩
  have hzero : (0 : Size).isNaN = false := rfl
  have hinfinity : (.infinite false : Size).isNaN = false := rfl
  unfold Satisfiable Vacant lowest highest
  rw [le_iff_lt_eq_false, hnumeric]
  cases hl : b.lower with
  | none =>
    cases hu : b.upper with
    | none => simp [hzero, hinfinity, infinity_lt_eq_false]
    | some upper => simp [hzero]
  | some lower =>
    cases hu : b.upper with
    | none => simp [hinfinity, infinity_lt_eq_false]
    | some upper => simp [h lower hl upper hu]

end Bounds

theorem PanelSpec.ordered_of_check {s : PanelSpec} (h : s.check = .ok ()) : s.bounds.Ordered := by
  obtain ⟨-, -, hordered⟩ := check_eq_ok_iff.mp h
  exact fun lower hlower upper hupper => hordered lower upper hlower hupper

namespace Layout

variable {l : Layout} {id : PanelId} {p : Panel} {requested : Size}

/-- After a finite request a resizable panel has the clamped size, whether that is a new one or
not. -/
theorem exists_size_setSize (hp : l.panel? id = some p) (hsize : p.resizable = true)
    (hfinite : requested.isFinite = true) :
    ∃ x, ((l.setSize id requested).1.panel? id).bind Panel.size = some x ∧
      x.rank = (p.bounds.clamp requested).rank := by
  simp only [setSize, hp, hsize, hfinite, Bool.not_true, Bool.or_self, Bool.false_eq_true, if_false]
  split
  · next hsame =>
    obtain ⟨x, hx, hbeq⟩ := exists_of_size_beq (BEq.symm hsame)
    obtain ⟨k, hk, hxk⟩ := agrees_iff.mp hbeq
    exact ⟨x, by rw [hp, Option.bind_some, hx], hxk.trans hk.symm⟩
  · have hafter := panel?_modify_self (Panel.keepsId_resized requested) hp
    exact ⟨_, congrArg (Option.bind · Panel.size) hafter, rfl⟩

/-- For every entry of a catalogue that can be built, the lower end of its bounds is at most the
upper one exactly if the bounds are not vacant. Its own size lies between the ends exactly then, and
so does, in every layout of a session, the size that a request for a finite one leaves. -/
theorem sizes_admitted_iff {c : Catalogue} (hc : c.Obtainable) {s : PanelSpec} (hs : s ∈ c.specs) :
    (s.bounds.Satisfiable ↔ ¬ s.bounds.Vacant) ∧
    (∀ x ∈ s.size, (s.bounds.Admits x ↔ ¬ s.bounds.Vacant)) ∧
    (s.size.isSome = true → ∀ l, Reachable c l → ∀ requested : Size, requested.isFinite = true →
      ∃ x, ((l.setSize s.id requested).1.panel? s.id).bind Panel.size = some x ∧
        (s.bounds.Admits x ↔ ¬ s.bounds.Vacant)) := by
  have hsat := (PanelSpec.ordered_of_check (hc.valid.checked s hs)).satisfiable_iff
  refine ⟨hsat, ?_, ?_⟩
  · intro x hx
    have hrank : x.rank = (s.bounds.clamp x).rank := by rw [hc.valid.clamp_size hs hx]
    exact (Bounds.admits_iff_satisfiable hrank).trans hsat
  · intro hsized l hl requested hfinite
    obtain ⟨p, hp, hf⟩ := (hl.structured hc.valid).exists_panel hs
    have hresizable : p.resizable = true := hf.sized.trans hsized
    obtain ⟨x, hx, hrank⟩ := exists_size_setSize hp hresizable hfinite
    rw [hf.bounds] at hrank
    exact ⟨x, hx, (Bounds.admits_iff_satisfiable hrank).trans hsat⟩

/-- The palette is given a size and an upper bound below zero, docs are asked to be too wide, and
the terminal has a lower bound that is no number. -/
def narrowing : List PanelOverride :=
  [{ id := "command-palette", size := some 10, upper := some (neg 5) },
    { id := "docs", size := some 1000 }, { id := "terminal", lower := some .nan }]

def narrowPalette : PanelSpec where
  id := .commandPalette
  home := .center
  shown := false
  size := some (neg 5)
  bounds := ⟨none, some (neg 5)⟩
  placement := ⟨[.center], .center, true⟩
  priority := 999

def wideDocs : PanelSpec :=
  { PanelSpec.docked .docs .right .right [.right, .left, .center] true 70 with size := some 800 }

def narrowed : Catalogue :=
  ⟨Catalogue.builtin.specs.map fun s =>
    match s.id with
    | .commandPalette => narrowPalette
    | .docs => wideDocs
    | .terminal => { s with bounds := ⟨some .nan, s.bounds.upper⟩ }
    | _ => s⟩

theorem narrowed_obtainable : narrowed.Obtainable := by
  have h : Catalogue.builtin.override narrowing = .ok narrowed := rfl
  exact .override .builtin h

theorem narrowPalette_mem : narrowPalette ∈ narrowed.specs :=
  have hlast : narrowed.specs[5]? = some narrowPalette := rfl
  List.mem_of_getElem? hlast

/-- Docs take the width that they may have at least; the palette has no size it may have. -/
theorem sizes_admitted_iff_narrowed :
    narrowed.Obtainable ∧ wideDocs ∈ narrowed.specs ∧ narrowPalette ∈ narrowed.specs ∧
      (∃ x, (((ofCatalogue narrowed).setSize .docs 10).1.panel? .docs).bind Panel.size = some x ∧
        wideDocs.bounds.Admits x) ∧
      ∃ x, (((ofCatalogue narrowed).setSize .commandPalette 10).1.panel? .commandPalette).bind
        Panel.size = some x ∧ ¬ narrowPalette.bounds.Admits x := by
  have hthird : narrowed.specs[2]? = some wideDocs := rfl
  have hdocs := List.mem_of_getElem? hthird
  refine ⟨narrowed_obtainable, hdocs, narrowPalette_mem, ?_, ?_⟩
  · obtain ⟨hsat, -, hset⟩ := sizes_admitted_iff narrowed_obtainable hdocs
    obtain ⟨x, hx, hadmits⟩ := hset rfl _ .fresh 10 rfl
    exact ⟨x, hx, hadmits.mpr (hsat.mp (by decide +kernel))⟩
  · obtain ⟨-, -, hset⟩ := sizes_admitted_iff narrowed_obtainable narrowPalette_mem
    obtain ⟨x, hx, hadmits⟩ := hset rfl _ .fresh 10 rfl
    have hvacant : narrowPalette.bounds.Vacant := .inr ⟨rfl, neg 5, rfl, rfl⟩
    exact ⟨x, hx, fun h => hadmits.mp h hvacant⟩

/-- Settings can leave a panel with a size below zero and no size that it may have. -/
theorem lone_upper_bound_below_zero :
    ¬ ∀ (c : Catalogue) (s : PanelSpec), c.Obtainable → s ∈ c.specs →
      s.bounds.Satisfiable ∧ (∀ x ∈ s.size, s.bounds.Admits x) ∧
        (s.size.isSome = true → ∀ l, Reachable c l → ∀ requested : Size,
          requested.isFinite = true →
            ∃ x, ((l.setSize s.id requested).1.panel? s.id).bind Panel.size = some x ∧
              s.bounds.Admits x) := by
  intro h
  have hsat := (h narrowed narrowPalette narrowed_obtainable narrowPalette_mem).1
  exact absurd hsat (by decide +kernel)

end Layout

end Docking
