import Docking.Proofs.Files.Tree
import Docking.Store.Folder

/-! Reading and writing in a folder. The files of two keys are the same exactly if the keys have the
same stem, and a draft is the file of no key. So a write that succeeds is read back under the keys
of its stem, and under every other key the folder reads as before. -/
namespace Docking

namespace WriteStep

variable {t after : FileTree} {step : WriteStep} {rest : List WriteStep}
  {path text source target : String}

theorem runAll_cons_eq_none : runAll t (step :: rest) = (after, none) ↔
    ∃ next, step.run t = (next, none) ∧ runAll next rest = (after, none) := by
  rw [runAll]
  cases step.run t with
  | mk next fault => cases fault <;> simp

theorem run_writeText_eq_none : (writeText path text).run t = (after, none) ↔
    t.writeFile path (.text text) = .ok after := by
  rw [run]
  cases t.writeFile path (.text text) <;> simp

theorem run_rename_eq_none : (rename source target).run t = (after, none) ↔
    t.rename source target = .ok after := by
  rw [run]
  cases t.rename source target <;> simp

end WriteStep

namespace FolderStore

variable {s : FolderStore} {d q : Place} {key other value name : String}

/-- What the name of a file in the folder has to be like: a path into the folder ends in it. -/
structure Plain (name : String) : Prop where
  ne_empty : name ≠ ""
  ne_point : name ≠ "."
  separator : '/' ∉ name.toList

theorem plain_of_getLast? {last : Char} (hlast : name.toList.getLast? = some last)
    (hpoint : last ≠ '.') (hsep : '/' ∉ name.toList) : Plain name where
  ne_empty h := by simp [h] at hlast
  ne_point h := hpoint (by simpa [h] using hlast.symm)
  separator := hsep

theorem separator_not_mem_keyStem (key : String) : '/' ∉ (keyStem key).toList := by
  simp only [keyStem, String.toList_ofList, List.mem_map, not_exists, not_and]
  intro c _ hc
  split at hc
  · next h =>
    subst hc
    simp at h
  · cases hc

theorem toList_fileName (key : String) :
    (fileName key).toList = (keyStem key).toList ++ ['.', 'j', 's', 'o', 'n'] := by
  simp [fileName, String.toList_append]

theorem getLast?_fileName (key : String) : (fileName key).toList.getLast? = some 'n' := by
  simp [toList_fileName]

theorem separator_not_mem_fileName (key : String) : '/' ∉ (fileName key).toList := by
  simp [toList_fileName, separator_not_mem_keyStem]

theorem plain_fileName (key : String) : Plain (fileName key) :=
  plain_of_getLast? (getLast?_fileName key) (by decide) (separator_not_mem_fileName key)

theorem fileName_ne_back (key : String) : fileName key ≠ ".." := by
  intro h
  have hlast := getLast?_fileName key
  simp [h] at hlast

/-- Keys share a file exactly if they have the same stem. -/
theorem fileName_inj : fileName key = fileName other ↔ keyStem key = keyStem other := by
  rw [← String.toList_inj, toList_fileName, toList_fileName, List.append_cancel_right_eq,
    String.toList_inj]

/-- A draft has an ending of its own, but for the key that is a single point. -/
theorem draftName_cases (key : String) : draftName key = ".." ∨
    ((draftName key).toList.getLast? = some 'p' ∧ '/' ∉ (draftName key).toList) := by
  have hsep := separator_not_mem_fileName key
  unfold draftName
  split
  · exact .inr ⟨by simp [String.toList_append], by simp [String.toList_append, hsep]⟩
  · split
    · exact .inl rfl
    · exact .inr ⟨by simp [String.toList_append], by simp [String.toList_append, hsep]⟩

theorem plain_draftName (key : String) : Plain (draftName key) := by
  rcases draftName_cases key with h | ⟨hlast, hsep⟩
  · rw [h]
    exact ⟨by decide, by decide, by decide⟩
  · exact plain_of_getLast? hlast (by decide) hsep

/-- No draft has the name of a file of a key. -/
theorem draftName_ne_fileName (key other : String) : draftName key ≠ fileName other := by
  intro h
  rcases draftName_cases key with hback | ⟨hlast, -⟩
  · exact fileName_ne_back other (h.symm.trans hback)
  · rw [h, getLast?_fileName] at hlast
    cases hlast

/-- The store with its folder made, as a write begins. -/
def opened (s : FolderStore) : FolderStore :=
  { s with tree := (s.tree.makeFolders s.folder).1 }

structure OpenAt (s : FolderStore) (d : Place) : Prop where
  named : ∃ names, FileTree.namesOf s.folder = .ok names
  way : s.tree.walk .root (Path.names s.folder) = .ok d

theorem OpenAt.opened (h : s.OpenAt d) : s.opened = s := by
  obtain ⟨names, hpath⟩ := h.named
  rw [FolderStore.opened, FileTree.makeFolders_of_walk hpath h.way]

theorem OpenAt.locate (h : s.OpenAt d) (hname : Plain name) :
    s.tree.locate (Path.join s.folder name) = FileTree.placeIn s.folder d name :=
  FileTree.locate_join hname.ne_empty hname.separator (FileTree.walk_through h.way)

/-- The folder stays where it is as long as no folder goes. -/
theorem OpenAt.of_folders {tree : FileTree} (h : s.OpenAt d)
    (hfolders : ∀ q, s.tree.entry? q = some .folder → tree.entry? q = some .folder) :
    ({ s with tree := tree } : FolderStore).OpenAt d :=
  ⟨h.named, FileTree.walk_of_folders hfolders h.way⟩

theorem read_eq_toOption (s : FolderStore) (key : String) :
    s.read key = (s.tree.readText (s.path key)).toOption := by
  unfold read readResult
  cases s.tree.readText (s.path key) <;> rfl

theorem OpenAt.read_eq (h : s.OpenAt d) (key : String) :
    s.read key = (FileTree.placeIn s.folder d (fileName key)).toOption.bind s.tree.text? := by
  rw [read_eq_toOption, FileTree.toOption_readText, path, h.locate (plain_fileName key)]

theorem placeIn_fileName (h : FileTree.placeIn s.folder d (fileName key) = .ok q) :
    q = d.child (fileName key) := by
  rcases FileTree.placeIn_eq_ok (plain_fileName key).ne_point h with ⟨hback, -⟩ | ⟨-, hq⟩
  · exact absurd hback (fileName_ne_back key)
  · exact hq

theorem placeIn_draftName (h : FileTree.placeIn s.folder d (draftName key) = .ok q)
    (other : String) : q ≠ d.child (fileName other) := by
  rcases FileTree.placeIn_eq_ok (plain_draftName key).ne_point h with ⟨-, rfl⟩ | ⟨-, rfl⟩
  · exact Place.parent_ne_child d _
  · exact fun hchild => draftName_ne_fileName key other (Place.child_inj hchild)

/-- Writing a draft in the folder made leaves the folder where it is: the draft is no folder itself,
so the paths of the store lead to the same places as before. -/
theorem exists_drafted {contents : Contents} {after : FileTree}
    (hmade : s.tree.makeFolders s.folder = (s.opened.tree, none))
    (hdraft : s.opened.tree.writeFile (s.draftPath key) contents = .ok after) :
    ∃ d draft, s.opened.OpenAt d ∧ FileTree.placeIn s.folder d (draftName key) = .ok draft ∧
      s.opened.tree.entry? draft ≠ some .folder ∧
      after = s.opened.tree.put draft (.file contents) ∧
      ({ s with tree := after } : FolderStore).OpenAt d := by
  obtain ⟨names, d, hnames, hway⟩ := FileTree.makeFolders_eq_none hmade
  have hopen : s.opened.OpenAt d := ⟨⟨names, hnames⟩, hway⟩
  obtain ⟨draft, hplace, hnodraft, rfl⟩ := FileTree.writeFile_eq_ok.mp hdraft
  have hplaced := (hopen.locate (plain_draftName key)).symm.trans hplace
  exact ⟨d, draft, hopen, hplaced, hnodraft, rfl,
    hopen.of_folders fun q => FileTree.folder_put_file hnodraft⟩

/-- A write that succeeded, with the places of the folder, the draft and the file: it has made the
folder, put the text into the draft and moved the draft to the file. -/
structure Written (s : FolderStore) (key value : String) (d draft file : Place) : Prop where
  openAt : s.opened.OpenAt d
  draft_place : FileTree.placeIn s.folder d (draftName key) = .ok draft
  file_place : FileTree.placeIn s.folder d (fileName key) = .ok file
  draft_ne_folder : s.opened.tree.entry? draft ≠ some .folder
  file_ne_folder : s.opened.tree.entry? file ≠ some .folder
  result : (s.write key value).1 = { s with
    tree := ((s.opened.tree.put draft (.file (.text value))).remove draft).put file
      (.file (.text value)) }

theorem exists_written (h : (s.write key value).2 = none) :
    ∃ d draft file, s.Written key value d draft file := by
  obtain ⟨after, hrun⟩ : ∃ after, WriteStep.runAll s.tree (s.steps key value) = (after, none) :=
    ⟨_, Prod.ext rfl (by simpa [write] using h)⟩
  have hafter : (s.write key value).1 = { s with tree := after } := by simp only [write, hrun]
  simp only [steps, WriteStep.runAll_cons_eq_none, WriteStep.run_writeText_eq_none,
    WriteStep.run_rename_eq_none] at hrun
  obtain ⟨made, hmade, written, hwritten, renamed, hrenamed, hdone⟩ := hrun
  obtain rfl : renamed = after := (Prod.mk.inj hdone).1
  obtain rfl : s.opened.tree = made := congrArg Prod.fst hmade
  obtain ⟨d, draft, hopen, hplaced, hnodraft, rfl, hkept⟩ := exists_drafted hmade hwritten
  obtain ⟨origin, file, contents, horigin, hfile, hentry, htarget, rfl⟩ :=
    FileTree.rename_eq_ok.mp hrenamed
  have hfilePlaced := (hkept.locate (plain_fileName key)).symm.trans hfile
  obtain rfl : draft = origin :=
    Except.ok.inj (hplaced.symm.trans ((hkept.locate (plain_draftName key)).symm.trans horigin))
  have hne : file ≠ draft := by
    rw [placeIn_fileName hfilePlaced]
    exact (placeIn_draftName hplaced key).symm
  rw [FileTree.entry?_put (FileTree.ne_root hnodraft)] at hentry htarget
  rw [if_neg hne] at htarget
  obtain rfl : .text value = contents := by simpa using hentry
  exact ⟨d, draft, file, hopen, hplaced, hfilePlaced, hnodraft, htarget, hafter⟩

namespace Written

variable {draft file : Place}

/-- The text is in the file, the draft is gone, and all else is as it was once the folder was
made. -/
theorem entry?_eq (h : s.Written key value d draft file) (q : Place) :
    FileTree.entry? (s.write key value).1.tree q =
      if q = file then some (.file (.text value)) else if q = draft then none
      else s.opened.tree.entry? q := by
  rw [h.result]
  simp only [FileTree.entry?_put (FileTree.ne_root h.file_ne_folder),
    FileTree.entry?_remove (FileTree.ne_root h.draft_ne_folder),
    FileTree.entry?_put (FileTree.ne_root h.draft_ne_folder)]
  by_cases hq : q = draft <;> simp [hq]

theorem openAt_write (h : s.Written key value d draft file) : (s.write key value).1.OpenAt d := by
  have hfolders : ∀ q, s.opened.tree.entry? q = some .folder →
      FileTree.entry? (s.write key value).1.tree q = some .folder := by
    intro q hq
    have hqfile : q ≠ file := fun heq => h.file_ne_folder (heq ▸ hq)
    have hqdraft : q ≠ draft := fun heq => h.draft_ne_folder (heq ▸ hq)
    rw [h.entry?_eq, if_neg hqfile, if_neg hqdraft, hq]
  rw [h.result] at hfolders ⊢
  exact h.openAt.of_folders hfolders

theorem folder_write (h : s.Written key value d draft file) :
    (s.write key value).1.folder = s.folder := by
  rw [h.result]

end Written

/-- A text that was written is read under the keys of its stem; under other keys the store reads as
it did once its folder was made. -/
theorem read_write (h : (s.write key value).2 = none) (other : String) :
    (s.write key value).1.read other =
      if keyStem other = keyStem key then some value else s.opened.read other := by
  obtain ⟨d, draft, file, hw⟩ := exists_written h
  rw [hw.openAt_write.read_eq, hw.openAt.read_eq, hw.folder_write]
  show _ = if keyStem other = keyStem key then some value
    else (FileTree.placeIn s.folder d (fileName other)).toOption.bind s.opened.tree.text?
  by_cases hstem : keyStem other = keyStem key
  · rw [if_pos hstem, fileName_inj.mpr hstem, hw.file_place]
    simp [Except.toOption, FileTree.text?, hw.entry?_eq]
  · rw [if_neg hstem]
    cases hplace : FileTree.placeIn s.folder d (fileName other) with
    | error fault => rfl
    | ok q =>
      have hqdraft : q ≠ draft := by
        rw [placeIn_fileName hplace]
        exact (placeIn_draftName hw.draft_place other).symm
      have hqfile : q ≠ file := by
        rw [placeIn_fileName hplace, placeIn_fileName hw.file_place]
        exact fun heq => hstem (fileName_inj.mp (Place.child_inj heq))
      simp [Except.toOption, FileTree.text?, hw.entry?_eq, hqfile, hqdraft]

/-- A write that succeeded leaves the folder made. -/
theorem opened_write (h : (s.write key value).2 = none) :
    (s.write key value).1.opened = (s.write key value).1 := by
  obtain ⟨d, draft, file, hw⟩ := exists_written h
  exact hw.openAt_write.opened

/-- Making the folder takes nothing away that could be read before. -/
theorem read_opened_of_read (h : s.read key = some value) : s.opened.read key = some value := by
  rw [read_eq_toOption] at h ⊢
  exact (FileTree.makeFolders_within s.tree s.folder).readText h

end FolderStore

end Docking
