import Docking.Proofs.Catalogue.Obtainable

/-! What the check of a catalogue asks for. A list of entries is accepted exactly when no panel
repeats and every entry is sound, and only sizes are changed then; any other list is turned down for
its earliest entry at fault. Every catalogue that can be built comes out of the check as it is. -/
namespace Docking

namespace PanelSpec

variable {s : PanelSpec} {before rest specs out : List PanelSpec}
  {seen earlier : List PanelId} {e : CatalogueError}

structure Sound (s : PanelSpec) : Prop where
  home : s.home = .hidden ∨ s.home ∈ s.placement.allowed
  preferred : s.placement.preferred = .hidden ∨ s.placement.preferred ∈ s.placement.allowed
  bounds : ∀ lower ∈ s.bounds.lower, ∀ upper ∈ s.bounds.upper, upper.lt lower = false

instance (s : PanelSpec) : Decidable s.Sound :=
  decidable_of_iff
    ((s.home = .hidden ∨ s.home ∈ s.placement.allowed) ∧
      (s.placement.preferred = .hidden ∨ s.placement.preferred ∈ s.placement.allowed) ∧
      ∀ lower ∈ s.bounds.lower, ∀ upper ∈ s.bounds.upper, upper.lt lower = false)
    ⟨fun ⟨home, preferred, bounds⟩ => ⟨home, preferred, bounds⟩,
      fun h => ⟨h.home, h.preferred, h.bounds⟩⟩

theorem sound_iff_check : s.Sound ↔ s.check = .ok () := by
  rw [check_eq_ok_iff, Placement.allows_iff, Placement.allows_iff]
  constructor
  · intro h
    exact ⟨h.home, h.preferred, fun lower upper hl hu => h.bounds lower hl upper hu⟩
  · rintro ⟨hhome, hpreferred, hbounds⟩
    exact ⟨hhome, hpreferred, fun lower hl upper hu => hbounds lower upper hl hu⟩

/-- What is wrong with an entry behind others of the given panels: the first of the things that can
be. -/
inductive Offends (earlier : List PanelId) (s : PanelSpec) : CatalogueError → Prop
  | repeated (h : s.id ∈ earlier) : Offends earlier s (.duplicatePanel s.id)
  | home (hfresh : s.id ∉ earlier)
      (h : ¬ (s.home = .hidden ∨ s.home ∈ s.placement.allowed)) :
      Offends earlier s (.disallowedSlot s.id s.home)
  | preferred (hfresh : s.id ∉ earlier)
      (hhome : s.home = .hidden ∨ s.home ∈ s.placement.allowed)
      (h : ¬ (s.placement.preferred = .hidden ∨
        s.placement.preferred ∈ s.placement.allowed)) :
      Offends earlier s (.disallowedSlot s.id s.placement.preferred)
  | bounds {lower upper : Size} (hfresh : s.id ∉ earlier)
      (hhome : s.home = .hidden ∨ s.home ∈ s.placement.allowed)
      (hpreferred : s.placement.preferred = .hidden ∨
        s.placement.preferred ∈ s.placement.allowed)
      (hlower : s.bounds.lower = some lower) (hupper : s.bounds.upper = some upper)
      (h : upper.lt lower = true) : Offends earlier s (.invalidBounds s.id lower upper)

theorem check_of_home (h : ¬ (s.home = .hidden ∨ s.home ∈ s.placement.allowed)) :
    s.check = .error (.disallowedSlot s.id s.home) := by
  rw [← Placement.allows_iff] at h
  simp [check, misplaced?, h]

theorem check_of_preferred (hhome : s.home = .hidden ∨ s.home ∈ s.placement.allowed)
    (h : ¬ (s.placement.preferred = .hidden ∨ s.placement.preferred ∈ s.placement.allowed)) :
    s.check = .error (.disallowedSlot s.id s.placement.preferred) := by
  rw [← Placement.allows_iff] at hhome h
  simp [check, misplaced?, hhome, h]

theorem check_of_bounds {lower upper : Size}
    (hhome : s.home = .hidden ∨ s.home ∈ s.placement.allowed)
    (hpreferred : s.placement.preferred = .hidden ∨ s.placement.preferred ∈ s.placement.allowed)
    (hlower : s.bounds.lower = some lower) (hupper : s.bounds.upper = some upper)
    (h : upper.lt lower = true) : s.check = .error (.invalidBounds s.id lower upper) := by
  rw [← Placement.allows_iff] at hhome hpreferred
  simp [check, misplaced?, hhome, hpreferred, hlower, hupper, h]

/-- An entry that is not sound fails its check, for the first of the reasons there are. -/
theorem check_eq_error_iff : s.check = .error e ↔ s.Offends [] e := by
  constructor
  · intro hc
    by_cases hhome : s.home = .hidden ∨ s.home ∈ s.placement.allowed
    · by_cases hpreferred : s.placement.preferred = .hidden ∨
          s.placement.preferred ∈ s.placement.allowed
      · by_cases hb : ∃ lower upper, s.bounds.lower = some lower ∧ s.bounds.upper = some upper ∧
            upper.lt lower = true
        · obtain ⟨lower, upper, hlower, hupper, h⟩ := hb
          rw [check_of_bounds hhome hpreferred hlower hupper h] at hc
          cases hc
          exact .bounds List.not_mem_nil hhome hpreferred hlower hupper h
        · have hs : s.Sound := by
            refine ⟨hhome, hpreferred, fun lower hl upper hu => Bool.not_eq_true _ ▸ fun h => ?_⟩
            exact hb ⟨lower, upper, hl, hu, h⟩
          rw [sound_iff_check.mp hs] at hc
          cases hc
      · rw [check_of_preferred hhome hpreferred] at hc
        cases hc
        exact .preferred List.not_mem_nil hhome hpreferred
    · rw [check_of_home hhome] at hc
      cases hc
      exact .home List.not_mem_nil hhome
  · intro h
    cases h with
    | repeated h => exact absurd h List.not_mem_nil
    | home _ h => exact check_of_home h
    | preferred _ hhome h => exact check_of_preferred hhome h
    | bounds _ hhome hpreferred hlower hupper h =>
      exact check_of_bounds hhome hpreferred hlower hupper h

/-- What is wrong with an entry is that it repeats a panel, or else what its own check says. -/
theorem offends_iff : s.Offends earlier e ↔
    (s.id ∈ earlier ∧ e = .duplicatePanel s.id) ∨
      (s.id ∉ earlier ∧ s.check = .error e) := by
  rw [check_eq_error_iff]
  constructor
  · intro h
    cases h with
    | repeated h => exact .inl ⟨h, rfl⟩
    | home hfresh h => exact .inr ⟨hfresh, .home List.not_mem_nil h⟩
    | preferred hfresh hhome h => exact .inr ⟨hfresh, .preferred List.not_mem_nil hhome h⟩
    | bounds hfresh hhome hpreferred hlower hupper h =>
      exact .inr ⟨hfresh, .bounds List.not_mem_nil hhome hpreferred hlower hupper h⟩
  · rintro (⟨h, rfl⟩ | ⟨hfresh, h⟩)
    · exact .repeated h
    · cases h with
      | repeated h => exact absurd h List.not_mem_nil
      | home _ h => exact .home hfresh h
      | preferred _ hhome h => exact .preferred hfresh hhome h
      | bounds _ hhome hpreferred hlower hupper h =>
        exact .bounds hfresh hhome hpreferred hlower hupper h

/-- Only which panels come before counts, not their order. -/
theorem offends_reverse : s.Offends earlier.reverse e ↔ s.Offends earlier e := by
  simp only [offends_iff, List.mem_reverse]

theorem settle_cons (hfresh : s.id ∉ seen) (hcheck : s.check = .ok ()) :
    settle seen (s :: rest) = (settle (s.id :: seen) rest).map (s.clamped :: ·) := by
  simp [settle, hfresh, hcheck]

/-- The entry in front is refused exactly when it offends against the panels seen. -/
theorem settle_cons_of_offends (h : s.Offends seen e) : settle seen (s :: rest) = .error e := by
  rcases offends_iff.mp h with ⟨hseen, rfl⟩ | ⟨hfresh, hcheck⟩
  · simp [settle, hseen]
  · simp [settle, hfresh, hcheck]

/-- The entries in front that are accepted count as seen for the rest. -/
theorem settle_append (hbefore : settle seen before = .ok out) :
    settle seen (before ++ rest) =
      (settle ((before.map PanelSpec.id).reverse ++ seen) rest).map (out ++ ·) := by
  induction before generalizing seen out with
  | nil =>
    cases hbefore
    cases h : settle seen rest <;> simp [h, Except.map]
  | cons s before ih =>
    obtain ⟨hall, hnodup, rfl⟩ := settle_eq_ok_iff.mp hbefore
    obtain ⟨hfresh, hcheck⟩ := hall s List.mem_cons_self
    rw [settle_cons hfresh hcheck, map_eq_ok_iff] at hbefore
    obtain ⟨tail, htail, hout⟩ := hbefore
    rw [List.cons_append, settle_cons hfresh hcheck, ih htail, ← hout]
    simp only [List.map_cons, List.reverse_cons, List.append_assoc, List.singleton_append]
    cases settle ((before.map PanelSpec.id).reverse ++ s.id :: seen) rest <;> rfl

/-- A list is turned down for the first entry that offends against the ones before it. -/
theorem settle_eq_error_iff : settle seen specs = .error e ↔
    ∃ before s after out, specs = before ++ s :: after ∧ settle seen before = .ok out ∧
      s.Offends ((before.map PanelSpec.id).reverse ++ seen) e := by
  constructor
  · intro h
    induction specs generalizing seen with
    | nil => cases h
    | cons s rest ih =>
      -- the entry in front is the one at fault, or it counts as seen for the search in the rest
      by_cases hs : ∃ e', s.Offends seen e'
      · obtain ⟨e', hs⟩ := hs
        rw [settle_cons_of_offends hs] at h
        cases h
        exact ⟨[], s, rest, [], rfl, rfl, hs⟩
      · have hfresh : s.id ∉ seen := fun hseen => hs ⟨_, .repeated hseen⟩
        have hcheck : s.check = .ok () := by
          cases hc : s.check with
          | ok u => rfl
          | error e' => exact absurd ⟨e', offends_iff.mpr (.inr ⟨hfresh, hc⟩)⟩ hs
        rw [settle_cons hfresh hcheck] at h
        have hrest : settle (s.id :: seen) rest = .error e := by
          cases hr : settle (s.id :: seen) rest with
          | ok out => simp [hr, Except.map] at h
          | error e' => simpa [hr, Except.map] using h
        obtain ⟨before, t, after, out, rfl, hbefore, ht⟩ := ih hrest
        refine ⟨s :: before, t, after, s.clamped :: out, rfl, ?_, ?_⟩
        · rw [settle_cons hfresh hcheck, hbefore]
          rfl
        · simpa using ht
  · rintro ⟨before, s, after, out, rfl, hbefore, hs⟩
    rw [settle_append hbefore, settle_cons_of_offends hs]
    rfl

end PanelSpec

namespace Catalogue

variable {c : Catalogue} {specs : List PanelSpec} {e : CatalogueError}

theorem ofSpecs_eq_ok_iff_sound : ofSpecs specs = .ok c ↔
    (specs.map PanelSpec.id).Nodup ∧ (∀ s ∈ specs, s.Sound) ∧
      c = ⟨specs.map PanelSpec.clamped⟩ := by
  simp only [ofSpecs_eq_ok_iff, PanelSpec.sound_iff_check, and_left_comm]

theorem ofSpecs_eq_error_iff : ofSpecs specs = .error e ↔
    ∃ before s after, specs = before ++ s :: after ∧ (before.map PanelSpec.id).Nodup ∧
      (∀ t ∈ before, t.Sound) ∧ s.Offends (before.map PanelSpec.id) e := by
  have hmap : ofSpecs specs = .error e ↔ PanelSpec.settle [] specs = .error e := by
    unfold ofSpecs
    cases PanelSpec.settle [] specs <;> simp [Except.map]
  rw [hmap, PanelSpec.settle_eq_error_iff]
  simp only [PanelSpec.settle_eq_ok_iff, List.append_nil, PanelSpec.offends_reverse,
    List.not_mem_nil, not_false_eq_true, true_and, PanelSpec.sound_iff_check]
  constructor
  · rintro ⟨before, s, after, out, hspecs, ⟨hcheck, hnodup, -⟩, hs⟩
    exact ⟨before, s, after, hspecs, hnodup, hcheck, hs⟩
  · rintro ⟨before, s, after, hspecs, hnodup, hcheck, hs⟩
    exact ⟨before, s, after, _, hspecs, ⟨hcheck, hnodup, rfl⟩, hs⟩

/-- No settings at all leave a catalogue that is valid as it is. -/
theorem Valid.override_nil (h : c.Valid) : c.override [] = .ok c := by
  simpa [override, bind, Except.bind, pure, Except.pure] using h.ofSpecs_specs

/-- Building a catalogue from the entries of one that can be built gives that catalogue back, and so
does applying no settings. Any list of entries makes a catalogue of just those entries, their sizes
clamped, if its panels are distinct and its entries are sound; otherwise it is turned down for the
first entry that offends, with the first of the faults of that entry. -/
theorem ofSpecs_fixes_obtainable :
    (∀ c : Catalogue, c.Obtainable →
      c.ids.Nodup ∧ (∀ s ∈ c.specs, s.Sound) ∧ ofSpecs c.specs = .ok c ∧
        c.override [] = .ok c) ∧
    (∀ specs c, ofSpecs specs = .ok c ↔
      (specs.map PanelSpec.id).Nodup ∧ (∀ s ∈ specs, s.Sound) ∧
        c = ⟨specs.map PanelSpec.clamped⟩) ∧
    (∀ specs e, ofSpecs specs = .error e ↔
      ∃ before s after, specs = before ++ s :: after ∧ (before.map PanelSpec.id).Nodup ∧
        (∀ t ∈ before, t.Sound) ∧ s.Offends (before.map PanelSpec.id) e) := by
  refine ⟨fun c hc => ?_, fun specs c => ofSpecs_eq_ok_iff_sound,
    fun specs e => ofSpecs_eq_error_iff⟩
  have hvalid := hc.valid
  exact ⟨hvalid.nodup, fun s hs => PanelSpec.sound_iff_check.mpr (hvalid.checked s hs),
    hvalid.ofSpecs_specs, hvalid.override_nil⟩

/-- A terminal without a lower bound under an upper bound below zero. -/
def sunken : PanelSpec :=
  { PanelSpec.docked .terminal .bottom .bottom [.bottom] false 90 with
    bounds := ⟨none, some (Number.neg 5)⟩ }

/-- That terminal and the shipped docs, of which the docs are kept and made narrower. -/
def nested : Catalogue :=
  ((((ofSpecs [sunken, .docked .docs .right .right [.right, .center] true 70]).toOption.getD
    builtin).restrict [.docs, .terminal]).override
      [{ id := "docs", upper := some 350 }, { id := "terminal", preferred := some "hidden" }]
    ).toOption.getD builtin

theorem nested_obtainable : nested.Obtainable := by
  have hbase : ((ofSpecs [sunken, .docked .docs .right .right [.right, .center] true 70]
      ).toOption.getD builtin).Obtainable := by
    cases h : ofSpecs [sunken, .docked .docs .right .right [.right, .center] true 70] with
    | ok c => exact .ofSpecs h
    | error _ => exact .builtin
  unfold nested
  cases h : Catalogue.override _ _ with
  | ok c => exact .override (.restrict _ hbase) h
  | error _ => exact .builtin

theorem ofSpecs_fixes_obtainable_nested :
    (ofSpecs nested.specs = .ok nested ∧ nested.override [] = .ok nested) ∧
      (nested.specs.map fun s => (s.id, s.placement.preferred)) =
        [(.terminal, .hidden), (.docs, .right)] ∧
      (nested.specs.map PanelSpec.size == [some (Number.neg 5), some 350]) = true :=
  have hfixed := (ofSpecs_fixes_obtainable.1 nested nested_obtainable).2.2
  ⟨hfixed, by decide +kernel, by decide +kernel⟩

end Catalogue

end Docking
