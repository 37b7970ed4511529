import Docking.Proofs.Files.Tree
import Mathlib.Data.List.Induction
import Mathlib.Logic.Function.Iterate

/-! Ways through a tree. A folder that can be reached lies in folders all the way up, so stepping
back from it never leads to a file. Making folders adds no file, and in a tree where everything lies
in a folder a way that leads down only is there as soon as there is a folder at its end. -/
namespace Docking

namespace Path

variable {folder name : String}

theorem through_subset_names (h : name ∈ through folder) : name ∈ names folder := by
  rcases names_cases folder with hnames | hnames
  · rwa [hnames]
  · rw [hnames]
    exact List.mem_append_left _ h

theorem ne_point_of_mem_through (h : name ∈ through folder) : name ≠ "." := by
  rintro rfl
  obtain ⟨piece, hpiece, hname⟩ := List.mem_map.mp h
  have hne : piece ≠ ['.'] := by simpa using (List.mem_filter.mp hpiece).2
  exact hne (String.ofList_inj.mp hname)

end Path

namespace FileTree

variable {t after : FileTree} {p q d : Place} {names : List String} {contents : Contents}
  {folder name : String}

/-- A folder in folders all the way up. -/
def Lodged (t : FileTree) (p : Place) : Prop := ∀ n, t.entry? (Place.parent^[n] p) = some .folder

theorem lodged_root (t : FileTree) : t.Lodged .root := by
  intro n
  rw [Function.iterate_fixed (show Place.root.parent = .root from rfl)]
  exact t.entry?_root

theorem Lodged.follow (h : t.Lodged p) (hfollow : p.follow name = .ok q)
    (hentry : t.entry? q = some .folder) : t.Lodged q := by
  by_cases hpoint : name = "."
  · subst hpoint
    cases hfollow
    exact h
  · rcases Place.follow_eq_ok hpoint hfollow with ⟨-, rfl⟩ | ⟨-, rfl⟩
    · exact fun n => h (n + 1)
    · intro n
      cases n with
      | zero => exact hentry
      | succ n => exact h n

theorem Lodged.walk (h : t.Lodged p) (hwalk : t.walk p names = .ok q) : t.Lodged q := by
  induction names generalizing p with
  | nil =>
    cases hwalk
    exact h
  | cons name rest ih =>
    obtain ⟨next, hfollow, hentry, hrest⟩ := walk_cons_eq_ok.mp hwalk
    exact ih (h.follow hfollow hentry) hrest

/-- Where a way has led there is a folder around. -/
theorem entry?_parent_of_walk (h : t.walk .root names = .ok d) :
    t.entry? d.parent = some .folder := t.lodged_root.walk h 1

/-- Everything lies in a folder. -/
def Rooted (t : FileTree) : Prop :=
  ∀ p name, t.entry? (p.child name) ≠ none → t.entry? p = some .folder

theorem rooted_empty : Rooted .empty := by
  intro p name hentry
  have hne : p.child name ≠ .root := fun h => Nat.succ_ne_zero _ (congrArg Place.depth h)
  exact absurd (if_neg hne) hentry

/-- A way that never leads back is there as soon as its end is a folder. -/
theorem Rooted.walk (h : t.Rooted) (hdown : ∀ name ∈ names, name ≠ "." ∧ name ≠ "..")
    (hway : after.walk .root names = .ok d) (hd : t.entry? d = some .folder) :
    t.walk .root names = .ok d := by
  induction names using List.reverseRecOn generalizing d with
  | nil => exact hway
  | append_singleton front last ih =>
    obtain ⟨e, hfront, hlast⟩ := walk_append.mp hway
    obtain ⟨next, hfollow, -, hend⟩ := walk_cons_eq_ok.mp hlast
    cases hend
    obtain ⟨hpoint, hback⟩ := hdown last (by simp)
    obtain ⟨hback', -⟩ | ⟨-, rfl⟩ := Place.follow_eq_ok hpoint hfollow
    · exact absurd hback' hback
    · have he : t.entry? e = some .folder := h e last (by simp [hd])
      have hway' := ih (fun name hname => hdown name (List.mem_append_left _ hname)) hfront he
      exact walk_append.mpr ⟨e, hway', walk_cons_eq_ok.mpr ⟨_, hfollow, hd, rfl⟩⟩

/-- Among the folders made there is no new file. -/
theorem file_of_extend (h : FileTree.entry? (t.extend p names).1 q = some (.file contents)) :
    t.entry? q = some (.file contents) := by
  induction names generalizing t p with
  | nil => exact h
  | cons name rest ih =>
    rw [extend] at h
    split at h
    · exact h
    · next next _ =>
      split at h
      · exact ih h
      · exact h
      · next hnone =>
        split at h
        · exact h
        · have hput := ih h
          rw [entry?_put (ne_root_of_none hnone)] at hput
          split at hput
          · cases hput
          · exact hput

theorem text?_of_makeFolders {value : String}
    (h : (t.makeFolders folder).1.text? p = some value) : t.text? p = some value := by
  unfold text? at h ⊢
  split at h
  · next held hentry =>
    obtain rfl := Option.some.inj h
    unfold makeFolders at hentry
    split at hentry
    · simp only [hentry]
    · simp only [file_of_extend hentry]
  · cases h

/-- A path into a folder leads somewhere exactly if there is a way to the folder. -/
theorem locate_join_eq_ok (hne : name ≠ "") (hsep : '/' ∉ name.toList) :
    t.locate (Path.join folder name) = .ok q ↔
      ∃ d, t.walk .root (Path.through folder) = .ok d ∧ placeIn folder d name = .ok q := by
  constructor
  · intro h
    cases hwalk : t.walk .root (Path.through folder) with
    | ok d => exact ⟨d, rfl, locate_join hne hsep hwalk ▸ h⟩
    | error fault =>
      unfold locate at h
      cases hnames : namesOf (Path.join folder name) with
      | error other => simp [hnames] at h
      | ok names =>
        obtain rfl := (namesOf_eq_ok hnames).trans (Path.names_join hne hsep)
        simp [hnames, hwalk] at h
  · rintro ⟨d, hwalk, hplace⟩
    rw [locate_join hne hsep hwalk, hplace]

end FileTree

end Docking
