import Docking.Proofs.Catalogue.Validation

/-! User settings in closed form. A panel takes each field from the last settings for it that give
the field, or else from the catalogue. Entries as they are between two patches do not come in, and
settings for different panels do not get in each other's way. -/
namespace Docking

namespace PanelOverride

/-- The text is a slot name once its capitals are folded. -/
def NamesSlot (text : String) : Prop := ∃ slot : Slot, text.map Char.toLower = slot.name

structure Readable (o : PanelOverride) : Prop where
  home : ∀ text ∈ o.home, NamesSlot text
  preferred : ∀ text ∈ o.preferred, NamesSlot text
  allowed : ∀ texts ∈ o.allowed, ∀ text ∈ texts, NamesSlot text

/-- What the last of the settings for the panel that give the field say of it. -/
def last? {α : Type} (id : PanelId) (field : PanelOverride → Option α)
    (os : List PanelOverride) : Option α :=
  ((os.filter fun o => o.id = id.name).filterMap field).getLast?

end PanelOverride

/-- The entry under the settings for its panel. A text that names no slot gives no field. -/
def PanelSpec.merged (s : PanelSpec) (os : List PanelOverride) : PanelSpec where
  id := s.id
  home := (PanelOverride.last? s.id (·.home.bind Slot.ofAnyCase?) os).getD s.home
  shown := (PanelOverride.last? s.id (·.shown) os).getD s.shown
  size := PanelOverride.last? s.id (·.size) os <|> s.size
  bounds :=
    ⟨PanelOverride.last? s.id (·.lower) os <|> s.bounds.lower,
      PanelOverride.last? s.id (·.upper) os <|> s.bounds.upper⟩
  placement :=
    ⟨(PanelOverride.last? s.id (·.allowed.bind (List.mapM Slot.ofAnyCase?)) os).getD
        s.placement.allowed,
      (PanelOverride.last? s.id (·.preferred.bind Slot.ofAnyCase?) os).getD s.placement.preferred,
      (PanelOverride.last? s.id (·.modal) os).getD s.placement.modal⟩
  priority := (PanelOverride.last? s.id (·.priority) os).getD s.priority

namespace PanelOverride

variable {α : Type} {o : PanelOverride} {os os' : List PanelOverride} {id : PanelId}
  {field : PanelOverride → Option α}

theorem last?_append (id : PanelId) (field : PanelOverride → Option α)
    (os os' : List PanelOverride) :
    last? id field (os ++ os') = (last? id field os' <|> last? id field os) := by
  simp [last?]

theorem last?_of_unnamed (h : ∀ o ∈ os, o.id ≠ id.name) : last? id field os = none := by
  have hnone : (os.filter fun o => o.id = id.name) = [] := by simpa using h
  simp [last?, hnone]

theorem last?_singleton (h : o.id = id.name) : last? id field [o] = field o := by
  cases hfield : field o <;> simp [last?, h, hfield]

theorem last?_congr (h : ∀ name, os.filter (·.id = name) = os'.filter (·.id = name)) :
    last? id field os = last? id field os' := by
  unfold last?
  rw [h]

end PanelOverride

namespace PanelSpec

variable {s : PanelSpec} {o : PanelOverride} {os os' : List PanelOverride} {id : PanelId}

theorem merged_append (s : PanelSpec) (os os' : List PanelOverride) :
    s.merged (os ++ os') = (s.merged os).merged os' := by
  simp [merged, PanelOverride.last?_append, Option.getD_or, Option.or_assoc]

theorem merged_of_unnamed (h : ∀ o ∈ os, o.id ≠ s.id.name) : s.merged os = s := by
  simp [merged, PanelOverride.last?_of_unnamed h]

theorem merged_nil (s : PanelSpec) : s.merged [] = s := merged_of_unnamed (by simp)

theorem merged_singleton_of_ne (hid : o.id = id.name) (h : s.id ≠ id) : s.merged [o] = s := by
  refine merged_of_unnamed fun o' ho' hname => h ?_
  rw [List.mem_singleton.mp ho', hid] at hname
  exact (PanelId.eq_of_name_eq hname).symm

/-- Settings for other panels do not count, and so neither does their place. -/
theorem merged_congr (h : ∀ name, os.filter (·.id = name) = os'.filter (·.id = name)) :
    s.merged os = s.merged os' := by
  simp only [merged, PanelOverride.last?_congr h]

end PanelSpec

namespace PanelOverride

variable {α β : Type} {o : PanelOverride} {os : List PanelOverride} {id : PanelId}
  {s t : PanelSpec} {specs out : List PanelSpec} {text : String} {texts : List String}

theorem readSlot_eq_ok_iff {slot : Slot} :
    readSlot text = .ok slot ↔ Slot.ofAnyCase? text = some slot := by
  unfold readSlot
  cases Slot.ofAnyCase? text <;> simp

theorem isSome_ofAnyCase?_iff : (Slot.ofAnyCase? text).isSome ↔ NamesSlot text := by
  rw [Option.isSome_iff_exists]
  simp only [Slot.ofAnyCase?, Slot.ofName?_eq_some_iff, NamesSlot]

instance (text : String) : Decidable (NamesSlot text) :=
  decidable_of_iff _ isSome_ofAnyCase?_iff

instance (o : PanelOverride) : Decidable o.Readable :=
  decidable_of_iff
    ((∀ text ∈ o.home, NamesSlot text) ∧ (∀ text ∈ o.preferred, NamesSlot text) ∧
      ∀ texts ∈ o.allowed, ∀ text ∈ texts, NamesSlot text)
    ⟨fun ⟨home, preferred, allowed⟩ => ⟨home, preferred, allowed⟩,
      fun h => ⟨h.home, h.preferred, h.allowed⟩⟩

theorem mapM_readSlot_eq_ok_iff {slots : List Slot} :
    texts.mapM readSlot = .ok slots ↔ texts.mapM Slot.ofAnyCase? = some slots := by
  induction texts generalizing slots with
  | nil => simp [pure, Except.pure]
  | cons text texts ih =>
    simp only [List.mapM_cons, bind_eq_ok_iff, Option.bind_eq_bind, Option.bind_eq_some_iff,
      readSlot_eq_ok_iff, ih]
    simp [pure, Except.pure]

theorem isSome_mapM_ofAnyCase?_iff :
    (texts.mapM Slot.ofAnyCase?).isSome ↔ ∀ text ∈ texts, NamesSlot text := by
  induction texts with
  | nil => simp
  | cons text texts ih =>
    rw [List.forall_mem_cons, ← isSome_ofAnyCase?_iff, ← ih, List.mapM_cons]
    cases Slot.ofAnyCase? text <;> cases texts.mapM Slot.ofAnyCase? <;> simp

theorem readIf_eq_ok_iff {read : α → Except CatalogueError β} {read? : α → Option β}
    (h : ∀ {a b}, read a = .ok b ↔ read? a = some b) {given : Option α} {old new : β} :
    readIf read given old = .ok new ↔
      (∀ a ∈ given, (read? a).isSome) ∧ (given.bind read?).getD old = new := by
  cases given with
  | none => simp [readIf]
  | some a =>
    rw [readIf, h]
    cases hread : read? a <;> simp [hread]

theorem patch_eq_ok_iff (h : o.id = s.id.name) :
    o.patch s = .ok t ↔ o.Readable ∧ s.merged [o] = t := by
  simp only [patch, bind_eq_ok_iff, readIf_eq_ok_iff readSlot_eq_ok_iff,
    readIf_eq_ok_iff mapM_readSlot_eq_ok_iff, isSome_ofAnyCase?_iff, isSome_mapM_ofAnyCase?_iff,
    PanelSpec.merged, last?_singleton h]
  constructor
  · rintro ⟨_, ⟨hallowed, rfl⟩, _, ⟨hhome, rfl⟩, _, ⟨hpreferred, rfl⟩, hpatch⟩
    exact ⟨⟨hhome, hpreferred, hallowed⟩, Except.ok.inj hpatch⟩
  · rintro ⟨hread, rfl⟩
    exact ⟨_, ⟨hread.allowed, rfl⟩, _, ⟨hread.home, rfl⟩, _, ⟨hread.preferred, rfl⟩, rfl⟩

/-- The first entry of the panel is its only one, so merging every entry changes no more. -/
theorem patchAt_eq_ok_iff (hid : o.id = id.name) (hnodup : (specs.map PanelSpec.id).Nodup) :
    o.patchAt id specs = .ok out ↔
      id ∈ specs.map PanelSpec.id ∧ o.Readable ∧ (specs.map fun s => s.merged [o]) = out := by
  induction specs generalizing out with
  | nil => simp [patchAt]
  | cons s rest ih =>
    obtain ⟨hfresh, hrest⟩ := List.nodup_cons.mp hnodup
    unfold patchAt
    by_cases hs : s.id = id
    · subst hs
      have hothers : (rest.map fun t => t.merged [o]) = rest := by
        refine (List.map_congr_left fun t ht => ?_).trans (List.map_id rest)
        exact PanelSpec.merged_singleton_of_ne hid fun h => hfresh (h ▸ List.mem_map_of_mem ht)
      rw [if_pos rfl, map_eq_ok_iff]
      simp [patch_eq_ok_iff hid, hothers, and_assoc]
    · rw [if_neg hs, map_eq_ok_iff]
      simp only [ih hrest, List.map_cons, PanelSpec.merged_singleton_of_ne hid hs, List.mem_cons,
        Ne.symm hs, false_or]
      simp [and_assoc]

theorem patchList_eq_ok_iff (hnodup : (specs.map PanelSpec.id).Nodup) :
    o.patchList specs = .ok out ↔ (∃ id ∈ specs.map PanelSpec.id, o.id = id.name) ∧ o.Readable ∧
      (specs.map fun s => s.merged [o]) = out := by
  unfold patchList
  cases hname : PanelId.ofName? o.id with
  | none =>
    have hunknown : ∀ id : PanelId, o.id ≠ id.name := by
      intro id hid
      rw [PanelId.ofName?_eq_some_iff.mpr hid] at hname
      cases hname
    simp [hunknown]
  | some id =>
    have hid := PanelId.ofName?_eq_some_iff.mp hname
    have hnamed : (∃ id' ∈ specs.map PanelSpec.id, o.id = id'.name) ↔
        id ∈ specs.map PanelSpec.id := by
      constructor
      · rintro ⟨id', hmem, hid'⟩
        exact PanelId.eq_of_name_eq (hid.symm.trans hid') ▸ hmem
      · intro hmem
        exact ⟨id, hmem, hid⟩
    rw [hnamed]
    exact patchAt_eq_ok_iff hid hnodup

/-- Patching in turn gives the merged entries. The panels stay the same on the way, so it can be
said beforehand which settings will find theirs. -/
theorem foldlM_patchList_eq_ok_iff (hnodup : (specs.map PanelSpec.id).Nodup) :
    os.foldlM (fun specs o => o.patchList specs) specs = .ok out ↔
      (∀ o ∈ os, ∃ id ∈ specs.map PanelSpec.id, o.id = id.name) ∧ (∀ o ∈ os, o.Readable) ∧
        (specs.map fun s => s.merged os) = out := by
  induction os generalizing specs with
  | nil => simp [pure, Except.pure, PanelSpec.merged_nil]
  | cons o os ih =>
    have hids : (specs.map fun s => s.merged [o]).map PanelSpec.id = specs.map PanelSpec.id :=
      List.map_map
    have hmerged : ((specs.map fun s => s.merged [o]).map fun s => s.merged os) =
        specs.map fun s => s.merged (o :: os) := by
      rw [List.map_map]
      exact List.map_congr_left fun s _ => (PanelSpec.merged_append s [o] os).symm
    have hrest := ih (hids.symm ▸ hnodup)
    rw [hids, hmerged] at hrest
    rw [List.foldlM_cons, bind_eq_ok_iff]
    simp only [patchList_eq_ok_iff hnodup, List.forall_mem_cons]
    constructor
    · rintro ⟨_, ⟨hnamed, hread, rfl⟩, hfold⟩
      obtain ⟨hnamed', hread', hout⟩ := hrest.mp hfold
      exact ⟨⟨hnamed, hnamed'⟩, ⟨hread, hread'⟩, hout⟩
    · rintro ⟨⟨hnamed, hnamed'⟩, ⟨hread, hread'⟩, hout⟩
      exact ⟨_, ⟨hnamed, hread, rfl⟩, hrest.mpr ⟨hnamed', hread', hout⟩⟩

end PanelOverride

namespace Catalogue

variable {c d : Catalogue} {os os' : List PanelOverride}

theorem Valid.override_eq_ok_iff (h : c.Valid) : c.override os = .ok d ↔
    (∀ o ∈ os, ∃ id ∈ c.ids, o.id = id.name) ∧ (∀ o ∈ os, o.Readable) ∧
      (∀ s ∈ c.specs, (s.merged os).Sound) ∧
        d = ⟨c.specs.map fun s => (s.merged os).clamped⟩ := by
  have hids : (c.specs.map fun s => s.merged os).map PanelSpec.id = c.ids := List.map_map
  have hbuild : ofSpecs (c.specs.map fun s => s.merged os) = .ok d ↔
      (∀ s ∈ c.specs, (s.merged os).Sound) ∧
        d = ⟨c.specs.map fun s => (s.merged os).clamped⟩ := by
    rw [ofSpecs_eq_ok_iff_sound, hids, List.forall_mem_map, List.map_map]
    exact and_iff_right h.nodup
  unfold override
  rw [bind_eq_ok_iff]
  simp only [PanelOverride.foldlM_patchList_eq_ok_iff h.nodup]
  constructor
  · rintro ⟨_, ⟨hnamed, hread, rfl⟩, hbuilt⟩
    exact ⟨hnamed, hread, hbuild.mp hbuilt⟩
  · rintro ⟨hnamed, hread, hbuilt⟩
    exact ⟨_, ⟨hnamed, hread, rfl⟩, hbuild.mpr hbuilt⟩

theorem ids_of_override_eq_ok (h : c.Valid) (hok : c.override os = .ok d) : d.ids = c.ids := by
  obtain ⟨-, -, -, rfl⟩ := h.override_eq_ok_iff.mp hok
  exact List.map_map

theorem spec?_of_override_eq_ok (h : c.Valid) (hok : c.override os = .ok d) (id : PanelId) :
    d.spec? id = (c.spec? id).map fun s => (s.merged os).clamped := by
  obtain ⟨-, -, -, rfl⟩ := h.override_eq_ok_iff.mp hok
  exact List.find?_map

/-- Entries of a catalogue are clamped as they are, so clamping them again is not seen. -/
theorem spec?_of_override_eq_ok_of_unnamed (h : c.Valid) (hok : c.override os = .ok d)
    {id : PanelId} (hid : ∀ o ∈ os, o.id ≠ id.name) : d.spec? id = c.spec? id := by
  rw [spec?_of_override_eq_ok h hok]
  cases hs : c.spec? id with
  | none => rfl
  | some s =>
    obtain ⟨hmem, rfl⟩ := spec?_eq_some hs
    rw [Option.map_some, PanelSpec.merged_of_unnamed hid, h.clamped s hmem]

theorem override_eq_ok_congr (h : c.Valid)
    (hsame : ∀ name, os.filter (·.id = name) = os'.filter (·.id = name)) :
    c.override os = .ok d ↔ c.override os' = .ok d := by
  have hmem : ∀ o, o ∈ os ↔ o ∈ os' := by
    intro o
    have ho : o ∈ os.filter (·.id = o.id) ↔ o ∈ os'.filter (·.id = o.id) := by rw [hsame]
    simpa using ho
  simp only [h.override_eq_ok_iff, hmem, PanelSpec.merged_congr hsame]

/-- Settings on top of a catalogue that can be built are accepted exactly when each of them is for a
panel of the catalogue, each slot text names a slot, also where a later one takes its place, and the
merged entries are sound. The result is the merged entries in their old order with their sizes
clamped; a panel without settings is as it was. Settings that keep their order for each panel give
the same result in any order. -/
theorem override_merges {c : Catalogue} (h : c.Obtainable) (os : List PanelOverride) :
    (∀ d, c.override os = .ok d ↔
      (∀ o ∈ os, ∃ id ∈ c.ids, o.id = id.name) ∧ (∀ o ∈ os, o.Readable) ∧
        (∀ s ∈ c.specs, (s.merged os).Sound) ∧
          d = ⟨c.specs.map fun s => (s.merged os).clamped⟩) ∧
    (∀ d, c.override os = .ok d →
      d.ids = c.ids ∧
        (∀ id, d.spec? id = (c.spec? id).map fun s => (s.merged os).clamped) ∧
        ∀ id : PanelId, (∀ o ∈ os, o.id ≠ id.name) → d.spec? id = c.spec? id) ∧
    ∀ os', (∀ name, os.filter (·.id = name) = os'.filter (·.id = name)) →
      ∀ d, c.override os = .ok d ↔ c.override os' = .ok d := by
  have hvalid := h.valid
  refine ⟨fun d => hvalid.override_eq_ok_iff, fun d hok => ⟨?_, ?_, ?_⟩, ?_⟩
  · exact ids_of_override_eq_ok hvalid hok
  · exact spec?_of_override_eq_ok hvalid hok
  · exact fun id hid => spec?_of_override_eq_ok_of_unnamed hvalid hok hid
  · exact fun os' hsame d => override_eq_ok_congr hvalid hsame

/-- Settings for the terminal in three parts, of which the last makes the entry sound. -/
def retuned : List PanelOverride :=
  [{ id := "terminal", home := "LEFT", size := some 900, allowed := some ["Center"] },
    { id := "terminal", lower := some 700, upper := some 450, allowed := some ["Left", "RIGHT"],
      preferred := "Hidden" },
    { id := "terminal", lower := some 100 }]

def laterDocs : PanelOverride := { id := "docs", priority := some 5 }

theorem filter_retuned (name : String) :
    (laterDocs :: retuned).filter (·.id = name) =
      (retuned ++ [laterDocs]).filter (·.id = name) := by
  by_cases hdocs : "docs" = name
  · subst hdocs
    rfl
  · simp [laterDocs, hdocs]

theorem override_merges_retuned :
    ((builtin.override (retuned.take 1)).isOk = false ∧
      (builtin.override (retuned.take 2)).isOk = false) ∧
    ∃ d, builtin.override (laterDocs :: retuned) = .ok d ∧
      builtin.override (retuned ++ [laterDocs]) = .ok d ∧
      d.ids = builtin.ids ∧ d.spec? .search = builtin.spec? .search ∧
      (d.spec? .terminal == some
        { id := .terminal
          home := .left
          shown := false
          size := some 450
          bounds := ⟨some 100, some 450⟩
          placement := ⟨[.left, .right], .hidden, false⟩
          priority := 90 }) = true := by
  obtain ⟨hiff, hsuccess, hmoved⟩ := override_merges .builtin (laterDocs :: retuned)
  have hok : builtin.override (laterDocs :: retuned) =
      .ok ⟨builtin.specs.map fun s => (s.merged (laterDocs :: retuned)).clamped⟩ :=
    (hiff _).mpr ⟨by decide, by decide +kernel, by decide +kernel, rfl⟩
  obtain ⟨hids, -, hkept⟩ := hsuccess _ hok
  exact ⟨by decide +kernel, _, hok, (hmoved _ filter_retuned _).mp hok, hids,
    hkept .search (by decide), by decide +kernel⟩

end Catalogue

end Docking
