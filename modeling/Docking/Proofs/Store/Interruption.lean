import Docking.Proofs.Files.Ways
import Docking.Proofs.Store.Names

/-! Writes that do not come to their end. A write is cut short by a fault or a crash in any of its
steps: some of its folders are made, its draft is begun or complete, or the draft is still to take
the place of the file. None of this shows in what is read, as long as the folders made do not by
themselves bring a file into sight. -/
namespace Docking

namespace WriteStep

variable {t after : FileTree} {step : WriteStep} {steps : List WriteStep}

/-- What a step that fails or is cut short may leave behind: some of the folders made, the file not
begun or with any contents in it. A renaming takes place or does not. -/
def Leaves (t : FileTree) (step : WriteStep) (after : FileTree) : Prop :=
  match step with
  | makeFolders folder => t.Within after ∧ after.Within (t.makeFolders folder).1
  | writeText path _ => after = t ∨ ∃ contents, t.writeFile path contents = .ok after
  | rename _ _ => after = t

/-- What is left of a tree when a run of steps comes to a stop within one of them. -/
def Interrupted (t : FileTree) : List WriteStep → FileTree → Prop
  | [], _ => False
  | step :: rest, after =>
    Leaves t step after ∨ ∃ next, step.run t = (next, none) ∧ Interrupted next rest after

theorem leaves_of_fault {fault : FileFault} (h : step.run t = (after, some fault)) :
    Leaves t step after := by
  cases step with
  | makeFolders folder =>
    obtain rfl : (t.makeFolders folder).1 = after := congrArg Prod.fst h
    exact ⟨t.makeFolders_within folder, fun _ _ hentry => hentry⟩
  | writeText path text =>
    rw [run] at h
    split at h
    · cases h
    · cases h
      exact .inl rfl
  | rename source target =>
    rw [run] at h
    split at h
    · cases h
    · cases h
      exact rfl

/-- A run that reports the failure of a step has stopped within it. -/
theorem interrupted_of_runAll (h : runAll t steps = (after, some step)) :
    Interrupted t steps after := by
  induction steps generalizing t with
  | nil => cases h
  | cons first rest ih =>
    rw [runAll] at h
    cases hrun : first.run t with
    | mk next fault =>
      cases fault with
      | none => exact .inr ⟨next, hrun, ih (by simpa [hrun] using h)⟩
      | some fault =>
        rw [hrun] at h
        obtain rfl : next = after := congrArg Prod.fst h
        exact .inl (leaves_of_fault hrun)

end WriteStep

namespace FolderStore

open WriteStep

variable {s : FolderStore} {d : Place} {key other value : String} {after : FileTree}

/-- Making the folder brings no file into sight. -/
def Steady (s : FolderStore) : Prop := ∀ key, s.opened.read key = s.read key

theorem read_eq_some_iff : s.read key = some value ↔
    ∃ p, s.tree.locate (s.path key) = .ok p ∧ s.tree.text? p = some value := by
  rw [read_eq_toOption, FileTree.toOption_readText]
  cases s.tree.locate (s.path key) <;> simp [Except.toOption]

/-- What can be read can be read in a tree that has more. -/
theorem read_of_within (h : s.tree.Within after) (hread : s.read key = some value) :
    ({ s with tree := after } : FolderStore).read key = some value := by
  rw [read_eq_toOption] at hread ⊢
  exact h.readText hread

theorem OpenAt.steady (h : s.OpenAt d) : s.Steady := fun key => by rw [h.opened]

/-- In a tree where everything lies in a folder, nothing but a way back can lead through a folder
that was missing to a file that was there. -/
theorem steady_of_rooted (h : s.tree.Rooted) (hdown : ".." ∉ Path.names s.folder) : s.Steady := by
  intro key
  refine Option.ext fun value => ⟨fun hread => ?_, read_opened_of_read⟩
  have hname := plain_fileName key
  obtain ⟨p, hplace, htext⟩ := read_eq_some_iff.mp hread
  obtain ⟨d, hway, hin⟩ := (FileTree.locate_join_eq_ok hname.ne_empty hname.separator).mp hplace
  have hfile : s.tree.text? p = some value := FileTree.text?_of_makeFolders htext
  obtain rfl := placeIn_fileName hin
  have hfolder : s.tree.entry? d = some .folder := by
    refine h d (fileName key) fun hnone => ?_
    simp [FileTree.text?, hnone] at hfile
  have hnames : ∀ name ∈ Path.through s.folder, name ≠ "." ∧ name ≠ ".." := by
    intro name hmem
    refine ⟨Path.ne_point_of_mem_through hmem, ?_⟩
    rintro rfl
    exact hdown (Path.through_subset_names hmem)
  have hway' := h.walk hnames hway hfolder
  exact read_eq_some_iff.mpr ⟨_, (FileTree.locate_join_eq_ok hname.ne_empty hname.separator).mpr
    ⟨d, hway', hin⟩, hfile⟩

-- through a missing folder and back there is no way to a file, until the folder is made
example :
    let s : FolderStore := ⟨"a/../b",
      ⟨[(⟨1, ["b"]⟩, .folder), (⟨2, ["k.json", "b"]⟩, .file (.text "old"))]⟩⟩
    s.read "k" = none ∧ s.opened.read "k" = some "old" := by
  decide +kernel

/-- Where an interrupted write stops: while it makes the folder, or with the folder made and
something in the draft. -/
theorem interrupted_cases (h : Interrupted s.tree (s.steps key value) after) :
    (s.tree.Within after ∧ after.Within s.opened.tree) ∨
      s.tree.makeFolders s.folder = (s.opened.tree, none) ∧
        ∃ contents, s.opened.tree.writeFile (s.draftPath key) contents = .ok after := by
  simp only [steps, Interrupted, Leaves, run_writeText_eq_none, and_false, exists_false,
    or_false] at h
  rcases h with hfolders | ⟨made, hmade, hrest⟩
  · exact .inl hfolders
  · obtain rfl : s.opened.tree = made := congrArg Prod.fst hmade
    rcases hrest with (rfl | hdraft) | ⟨written, hdraft, rfl⟩
    · exact .inl ⟨s.tree.makeFolders_within s.folder, fun _ _ hentry => hentry⟩
    · exact .inr ⟨hmade, hdraft⟩
    · exact .inr ⟨hmade, _, hdraft⟩

/-- Whatever is in a draft, it is read under no key. -/
theorem read_of_draft {contents : Contents}
    (hmade : s.tree.makeFolders s.folder = (s.opened.tree, none))
    (hdraft : s.opened.tree.writeFile (s.draftPath key) contents = .ok after) (other : String) :
    ({ s with tree := after } : FolderStore).read other = s.opened.read other := by
  obtain ⟨d, draft, hopen, hplaced, hnodraft, rfl, hkept⟩ := exists_drafted hmade hdraft
  rw [hkept.read_eq, hopen.read_eq]
  show (FileTree.placeIn s.folder d (fileName other)).toOption.bind _ =
    (FileTree.placeIn s.folder d (fileName other)).toOption.bind _
  cases hfile : FileTree.placeIn s.folder d (fileName other) with
  | error fault => rfl
  | ok q =>
    have hne : q ≠ draft := by
      rw [placeIn_fileName hfile]
      exact (placeIn_draftName hplaced other).symm
    simp [Except.toOption, FileTree.text?, FileTree.entry?_put (FileTree.ne_root hnodraft), hne]

theorem Steady.read_of_interrupted (hs : s.Steady)
    (h : Interrupted s.tree (s.steps key value) after) (other : String) :
    ({ s with tree := after } : FolderStore).read other = s.read other := by
  rcases interrupted_cases h with ⟨hmore, hmost⟩ | ⟨hmade, contents, hdraft⟩
  · refine Option.ext fun held => ⟨fun hread => ?_, read_of_within hmore⟩
    rw [← hs other]
    exact read_of_within (s := { s with tree := after }) hmost hread
  · rw [read_of_draft hmade hdraft, hs other]

/-- A write can be stopped once it has made the folder. -/
theorem interrupted_opened (s : FolderStore) (key value : String) :
    Interrupted s.tree (s.steps key value) s.opened.tree :=
  .inl ⟨s.tree.makeFolders_within s.folder, fun _ _ hentry => hentry⟩

theorem interrupted_of_write (h : (s.write key value).2 ≠ none) :
    Interrupted s.tree (s.steps key value) (s.write key value).1.tree := by
  unfold write at h ⊢
  cases hrun : runAll s.tree (s.steps key value) with
  | mk tree failed =>
    cases failed with
    | none => simp [hrun] at h
    | some step => exact interrupted_of_runAll hrun

/-- Under the single point nothing is ever written: its draft would be the folder around. -/
theorem write_point (s : FolderStore) (value : String) : (s.write "." value).2 ≠ none := by
  intro h
  obtain ⟨d, draft, file, hw⟩ := exists_written h
  rcases FileTree.placeIn_eq_ok (plain_draftName ".").ne_point hw.draft_place with
    ⟨-, rfl⟩ | ⟨hback, -⟩
  · exact hw.draft_ne_folder (FileTree.entry?_parent_of_walk hw.openAt.way)
  · exact hback rfl

/-- Where a write under a key goes, and what it leaves to be read if it is stopped, fails or
succeeds. -/
structure ConfinedAndAtomic (s : FolderStore) (key value : String) : Prop where
  file_ordinary : ∃ stem, Ordinary (stem ++ ".json") ∧
    s.path key = Path.join s.folder (stem ++ ".json")
  draft_beside : s.InFolder (s.draftPath key) ↔ key ≠ "."
  draft_apart : ∀ other, s.draftPath key ≠ s.path other
  point_fails : key = "." → (s.write key value).2 ≠ none
  stopped : (∀ after, Interrupted s.tree (s.steps key value) after →
    ∀ other, ({ s with tree := after } : FolderStore).read other = s.read other) ↔ s.Steady
  failed : (s.write key value).2 ≠ none →
    Interrupted s.tree (s.steps key value) (s.write key value).1.tree
  succeeded : (s.write key value).2 = none → ∀ other, (s.write key value).1.read other =
    if s.path other = s.path key then some value else s.opened.read other
  steady : (∃ d, s.OpenAt d) ∨ s.tree.Rooted ∧ ".." ∉ Path.names s.folder → s.Steady

/-- The file of a key has an ordinary name in the folder, and its draft is the file of no key. The
draft has an ordinary name there too unless the key is a single point, under which no write ever
succeeds. A write that stops within one of its steps, or that returns an error, leaves every read as
it was, exactly if making the folder does; this holds if the folder is there, and of folders without
a way back in trees where everything lies in a folder. A write that succeeds is read under the keys
of its path, and all other keys read as before it, the folder made. -/
theorem write_confined_and_atomic (s : FolderStore) (key value : String) :
    s.ConfinedAndAtomic key value where
  file_ordinary := s.path_eq_join key
  draft_beside := inFolder_draftPath_iff
  draft_apart := s.draftPath_ne_path key
  point_fails := by
    rintro rfl
    exact s.write_point value
  stopped := by
    constructor
    · exact fun hall other => hall _ (s.interrupted_opened key value) other
    · exact fun hs after h other => hs.read_of_interrupted h other
  failed := interrupted_of_write
  succeeded := by
    intro h other
    simp only [read_write h, path_inj, fileName_inj]
  steady := by
    rintro (⟨d, hopen⟩ | ⟨hrooted, hdown⟩)
    · exact hopen.steady
    · exact steady_of_rooted hrooted hdown

def unborn : FolderStore := ⟨"layouts/left", .empty⟩

def kept : FolderStore := (unborn.write "k" "old").1

theorem kept_openAt : kept.OpenAt ⟨2, ["left", "layouts"]⟩ := ⟨⟨_, rfl⟩, rfl⟩

def halfway : FileTree :=
  kept.tree.put ⟨3, ["k.json.tmp", "left", "layouts"]⟩ (.file (.text "ne"))

theorem write_confined_and_atomic_halfway :
    unborn.Steady ∧ Interrupted kept.tree (kept.steps "k" "new") halfway ∧
      ({ kept with tree := halfway } : FolderStore).read "k" = kept.read "k" ∧
      kept.read "k" = some "old" ∧ (kept.write "k" "new").1.read "k" = some "new" := by
  have hdown : ".." ∉ Path.names unborn.folder := by decide +kernel
  have hmade : (WriteStep.makeFolders kept.folder).run kept.tree = (kept.tree, none) := by
    decide +kernel
  have hdraft : kept.tree.writeFile (kept.draftPath "k") (.text "ne") = .ok halfway := by
    decide +kernel
  have hhalf : Interrupted kept.tree (kept.steps "k" "new") halfway :=
    .inr ⟨_, hmade, .inl (.inr ⟨_, hdraft⟩)⟩
  have hunborn := (write_confined_and_atomic unborn "k" "old").steady
  have hkept := write_confined_and_atomic kept "k" "new"
  have hread := hkept.stopped.mpr (hkept.steady (.inl ⟨_, kept_openAt⟩)) halfway hhalf "k"
  refine ⟨hunborn (.inr ⟨FileTree.rooted_empty, hdown⟩), hhalf, hread, by decide +kernel, ?_⟩
  rw [hkept.succeeded (by decide +kernel), if_pos rfl]

/-- Not every draft is written beside the file: that of the single point is the folder around. -/
theorem point_drafted_above :
    ¬ ∀ (s : FolderStore) (key : String), s.InFolder (s.path key) ∧ s.InFolder (s.draftPath key) ∧
      ∀ other, s.draftPath key ≠ s.path other := by
  intro h
  exact inFolder_draftPath_iff.mp (h ⟨"layouts", .empty⟩ ".").2.1 rfl

end FolderStore

end Docking
