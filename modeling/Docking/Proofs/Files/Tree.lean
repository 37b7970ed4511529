import Docking.Files.Tree
import Mathlib.Data.List.Basic

/-! What the operations on a tree do to the look-up of entries. A file that is put, removed or
renamed is seen at its own place only, folders that are made are added to what is there, and a path
that leads through folders goes on leading to the same place as long as these folders stay. -/
namespace Docking

section Results

variable {ε α β : Type}

@[simp] theorem ok_bind (a : α) (f : α → Except ε β) : (Except.ok a >>= f) = f a := rfl

@[simp] theorem error_bind (e : ε) (f : α → Except ε β) : (Except.error e >>= f) = .error e := rfl

@[simp] theorem pure_eq_ok (a : α) : (pure a : Except ε α) = .ok a := rfl

@[simp] theorem throw_eq_error (e : ε) : (throw e : Except ε α) = .error e := rfl

end Results

/-- Dropping the entries of one key does not show under another. -/
theorem find?_filter_fst_ne {α β : Type} [DecidableEq α] {entries : List (α × β)} {a b : α}
    (h : b ≠ a) : (entries.filter fun e => e.1 ≠ a).find? (fun e => e.1 = b) =
      entries.find? fun e => e.1 = b := by
  rw [List.find?_filter]
  congr 1
  funext e
  by_cases he : e.1 = b <;> simp [he, h]

namespace Path

variable {cs ds : List Char} {base name : String}

theorem pieces_ne_nil (cs : List Char) : pieces cs ≠ [] := by
  cases cs with
  | nil => simp [pieces]
  | cons c rest =>
    unfold pieces
    split
    · simp
    · split <;> simp

theorem pieces_of_not_mem (h : '/' ∉ cs) : pieces cs = [cs] := by
  induction cs with
  | nil => rfl
  | cons c rest ih =>
    obtain ⟨hc, hrest⟩ := not_or.mp (mt List.mem_cons.mpr h)
    simp only [pieces, if_neg (Ne.symm hc), ih hrest]

theorem pieces_append_separator (cs ds : List Char) :
    pieces (cs ++ '/' :: ds) = pieces cs ++ pieces ds := by
  induction cs with
  | nil => simp [pieces]
  | cons c rest ih =>
    rw [List.cons_append, pieces, pieces, ih]
    split
    · rfl
    · cases h : pieces rest with
      | nil => exact absurd h (pieces_ne_nil rest)
      | cons piece more => rfl

def parts (path : String) : List (List Char) :=
  (pieces path.toList).filter fun piece => piece ≠ []

theorem parts_of_not_mem (hne : name ≠ "") (h : '/' ∉ name.toList) :
    parts name = [name.toList] := by
  have hchars : name.toList ≠ [] := fun hnil => hne (String.toList_eq_nil_iff.mp hnil)
  simp [parts, pieces_of_not_mem h, hchars]

/-- Whichever way the separator comes in, a joined path has the parts of both sides. -/
theorem parts_join (h : '/' ∉ name.toList) : parts (join base name) = parts base ++ parts name := by
  have hstart : name.toList.head? ≠ some '/' := fun hhead => h (List.mem_of_head? hhead)
  unfold join
  rw [if_neg hstart]
  split
  · next hend =>
    cases hlast : base.toList.getLast? with
    | none =>
      have hbase : base.toList = [] := List.getLast?_eq_none_iff.mp hlast
      simp [parts, String.toList_append, hbase, pieces]
    | some c =>
      rw [hlast] at hend
      obtain ⟨front, hfront⟩ := List.getLast?_eq_some_iff.mp hlast
      obtain rfl : c = '/' := by simpa using hend
      have hjoined : (base ++ name).toList = front ++ '/' :: name.toList := by
        simp [String.toList_append, hfront]
      rw [parts, parts, hjoined, hfront, pieces_append_separator, pieces_append_separator]
      simp [parts, pieces]
  · have hjoined : (base ++ "/" ++ name).toList = base.toList ++ '/' :: name.toList := by
      simp [String.toList_append]
    rw [parts, hjoined, pieces_append_separator, List.filter_append]
    rfl

theorem dropInnerPoints_concat (front : List (List Char)) (last : List Char) :
    dropInnerPoints (front ++ [last]) = front.filter (fun piece => piece ≠ ['.']) ++ [last] := by
  induction front with
  | nil => rfl
  | cons piece rest ih =>
    have hcons : dropInnerPoints (piece :: (rest ++ [last])) =
        if piece = ['.'] then dropInnerPoints (rest ++ [last])
        else piece :: dropInnerPoints (rest ++ [last]) := by
      cases h : rest ++ [last] with
      | nil => simp at h
      | cons next more => rfl
    rw [List.cons_append, hcons, ih]
    by_cases hp : piece = ['.'] <;> simp [hp]

def through (folder : String) : List String :=
  ((parts folder).filter fun piece => piece ≠ ['.']).map String.ofList

theorem names_eq (path : String) : names path = (dropInnerPoints (parts path)).map String.ofList :=
  rfl

theorem names_join (hne : name ≠ "") (h : '/' ∉ name.toList) :
    names (join base name) = through base ++ [name] := by
  rw [names_eq, parts_join h, parts_of_not_mem hne h, dropInnerPoints_concat, List.map_append,
    through, List.map_singleton, String.ofList_toList]

/-- A folder is reached by the names that lead into it, but for a point at the end. -/
theorem names_cases (path : String) :
    names path = through path ∨ names path = through path ++ ["."] := by
  rw [names_eq, through]
  rcases List.eq_nil_or_concat (parts path) with h | ⟨front, last, h⟩
  · left
    simp [h, dropInnerPoints]
  · rw [h, List.concat_eq_append, dropInnerPoints_concat]
    by_cases hlast : last = ['.']
    · right
      subst hlast
      simp
    · left
      simp [hlast]

end Path

namespace Place

variable {p q : Place} {name : String}

theorem child_inj {other : String} (h : p.child name = p.child other) : name = other := by
  simpa [child] using h

theorem parent_ne_child (p : Place) (name : String) : p.parent ≠ p.child name := by
  intro h
  have hdepth : p.depth - 1 = p.depth + 1 := congrArg depth h
  omega

theorem follow_eq_ok (hpoint : name ≠ ".") (h : p.follow name = .ok q) :
    (name = ".." ∧ q = p.parent) ∨ (name ≠ ".." ∧ q = p.child name) := by
  unfold follow at h
  rw [if_neg hpoint] at h
  split at h
  · next hback => exact .inl ⟨hback, (Except.ok.inj h).symm⟩
  · next hback =>
    split at h
    · cases h
    · exact .inr ⟨hback, (Except.ok.inj h).symm⟩

end Place

namespace FileTree

variable {t after : FileTree} {p q d : Place} {entry : FileEntry} {contents : Contents}
  {names rest : List String} {name path source target folder : String}

theorem entry?_root (t : FileTree) : t.entry? .root = some .folder := if_pos rfl

theorem ne_root (h : t.entry? p ≠ some .folder) : p ≠ .root := by
  rintro rfl
  exact h t.entry?_root

theorem ne_root_of_none (h : t.entry? p = none) : p ≠ .root :=
  ne_root (h.trans_ne (Option.some_ne_none _).symm)

theorem entry?_put (hp : p ≠ .root) :
    FileTree.entry? (t.put p entry) q = if q = p then some entry else t.entry? q := by
  by_cases hq : q = p
  · simp [put, hq, hp, entry?]
  · simp only [put, List.find?_cons, decide_eq_false (Ne.symm hq), find?_filter_fst_ne hq,
      if_neg hq, entry?]

theorem entry?_remove (hp : p ≠ .root) :
    FileTree.entry? (t.remove p) q = if q = p then none else t.entry? q := by
  by_cases hq : q = p
  · simp [remove, hq, hp, entry?]
  · simp only [remove, find?_filter_fst_ne hq, if_neg hq, entry?]

/-- A file takes no folder's place. -/
theorem folder_put_file (hp : t.entry? p ≠ some .folder) (hq : t.entry? q = some .folder) :
    FileTree.entry? (t.put p (.file contents)) q = some .folder := by
  have hne : q ≠ p := by
    rintro rfl
    exact hp hq
  rw [entry?_put (ne_root hp), if_neg hne, hq]

/-- Whatever is in the first tree is in the second one. -/
def Within (t after : FileTree) : Prop :=
  ∀ p entry, t.entry? p = some entry → after.entry? p = some entry

theorem within_put_folder (h : t.entry? p = none) : t.Within (t.put p .folder) := by
  intro q entry hq
  have hne : q ≠ p := by
    rintro rfl
    rw [h] at hq
    cases hq
  rw [entry?_put (ne_root_of_none h), if_neg hne]
  exact hq

theorem walk_cons_eq_ok : t.walk p (name :: rest) = .ok q ↔
    ∃ next, p.follow name = .ok next ∧ t.entry? next = some .folder ∧ t.walk next rest = .ok q := by
  rw [walk]
  cases p.follow name with
  | error fault => simp
  | ok next =>
    cases he : t.entry? next with
    | none => simp [he]
    | some entry => cases entry <;> simp [he]

theorem walk_append : t.walk p (names ++ rest) = .ok q ↔
    ∃ d, t.walk p names = .ok d ∧ t.walk d rest = .ok q := by
  induction names generalizing p with
  | nil => simp [walk]
  | cons name names ih =>
    simp only [List.cons_append, walk_cons_eq_ok, ih]
    constructor
    · rintro ⟨next, hfollow, hentry, d, hnames, hrest⟩
      exact ⟨d, ⟨next, hfollow, hentry, hnames⟩, hrest⟩
    · rintro ⟨d, ⟨next, hfollow, hentry, hnames⟩, hrest⟩
      exact ⟨next, hfollow, hentry, d, hnames, hrest⟩

/-- A way through folders is there as long as the folders are. -/
theorem walk_of_folders (hfolders : ∀ q, t.entry? q = some .folder → after.entry? q = some .folder)
    (h : t.walk p names = .ok q) : after.walk p names = .ok q := by
  induction names generalizing p with
  | nil => exact h
  | cons name rest ih =>
    obtain ⟨next, hfollow, hentry, hrest⟩ := walk_cons_eq_ok.mp h
    exact walk_cons_eq_ok.mpr ⟨next, hfollow, hfolders next hentry, ih hrest⟩

theorem extend_within (t : FileTree) (p : Place) (names : List String) :
    t.Within (t.extend p names).1 := by
  induction names generalizing t p with
  | nil => exact fun _ _ h => h
  | cons name rest ih =>
    rw [extend]
    split
    · exact fun _ _ h => h
    · next next _ =>
      split
      · exact ih t next
      · exact fun _ _ h => h
      · next hnone =>
        split
        · exact fun _ _ h => h
        · exact fun q entry h => ih _ next q entry (within_put_folder hnone q entry h)

/-- Once folders are made, there is a way through them. -/
theorem walk_of_extend (h : t.extend p names = (after, none)) :
    ∃ q, after.walk p names = .ok q := by
  induction names generalizing t p with
  | nil => exact ⟨p, rfl⟩
  | cons name rest ih =>
    rw [extend] at h
    split at h
    · cases h
    · next next hfollow =>
      split at h
      · next hfolder =>
        obtain ⟨q, hq⟩ := ih h
        have hkept := extend_within t next rest next .folder hfolder
        rw [h] at hkept
        exact ⟨q, walk_cons_eq_ok.mpr ⟨next, hfollow, hkept, hq⟩⟩
      · cases h
      · next hnone =>
        split at h
        · cases h
        · obtain ⟨q, hq⟩ := ih h
          have hmade : FileTree.entry? (t.put next .folder) next = some .folder := by
            rw [entry?_put (ne_root_of_none hnone), if_pos rfl]
          have hkept := extend_within (t.put next .folder) next rest next .folder hmade
          rw [h] at hkept
          exact ⟨q, walk_cons_eq_ok.mpr ⟨next, hfollow, hkept, hq⟩⟩

/-- Where there is a way already, no folder is made. -/
theorem extend_of_walk (h : t.walk p names = .ok q) : t.extend p names = (t, none) := by
  induction names generalizing p with
  | nil => rfl
  | cons name rest ih =>
    obtain ⟨next, hfollow, hentry, hrest⟩ := walk_cons_eq_ok.mp h
    simp only [extend, hfollow, hentry]
    exact ih hrest

theorem namesOf_eq_ok {path : String} {names : List String} (h : namesOf path = .ok names) :
    names = Path.names path := by
  unfold namesOf at h
  split at h
  · cases h
  · split at h
    · cases h
    · exact (Except.ok.inj h).symm

/-- The way to a folder is the way to what lies in it. -/
theorem walk_through (h : t.walk .root (Path.names folder) = .ok d) :
    t.walk .root (Path.through folder) = .ok d := by
  rcases Path.names_cases folder with hnames | hnames
  · rwa [hnames] at h
  · rw [hnames, walk_append] at h
    obtain ⟨q, hq, hpoint⟩ := h
    obtain ⟨next, hfollow, -, hnext⟩ := walk_cons_eq_ok.mp hpoint
    cases hfollow
    cases hnext
    exact hq

/-- The folder can be made where there is a way to it already, and this changes nothing. -/
theorem makeFolders_of_walk (hpath : namesOf folder = .ok names)
    (h : t.walk .root (Path.names folder) = .ok d) : t.makeFolders folder = (t, none) := by
  rw [← namesOf_eq_ok hpath] at h
  simp only [makeFolders, hpath, extend_of_walk h]

theorem makeFolders_within (t : FileTree) (folder : String) :
    t.Within (t.makeFolders folder).1 := by
  unfold makeFolders
  split
  · exact fun _ _ h => h
  · exact extend_within t _ _

theorem makeFolders_eq_none (h : t.makeFolders folder = (after, none)) :
    ∃ names d, namesOf folder = .ok names ∧ after.walk .root (Path.names folder) = .ok d := by
  unfold makeFolders at h
  split at h
  · cases h
  · next names hpath =>
    obtain ⟨d, hd⟩ := walk_of_extend h
    rw [namesOf_eq_ok hpath] at hd
    exact ⟨names, d, hpath, hd⟩

/-- Where a path into a folder leads, if the path can be one at all. -/
def placeIn (folder : String) (d : Place) (name : String) : Except FileFault Place := do
  let _ ← namesOf (Path.join folder name)
  d.follow name

theorem locate_join (hne : name ≠ "") (hsep : '/' ∉ name.toList)
    (h : t.walk .root (Path.through folder) = .ok d) :
    t.locate (Path.join folder name) = placeIn folder d name := by
  unfold locate placeIn
  cases hnames : namesOf (Path.join folder name) with
  | error fault => rfl
  | ok names =>
    obtain rfl := (namesOf_eq_ok hnames).trans (Path.names_join hne hsep)
    simp [h]

theorem placeIn_eq_ok (hpoint : name ≠ ".") (h : placeIn folder d name = .ok q) :
    (name = ".." ∧ q = d.parent) ∨ (name ≠ ".." ∧ q = d.child name) := by
  unfold placeIn at h
  cases hnames : namesOf (Path.join folder name) with
  | error fault => simp [hnames] at h
  | ok names => exact Place.follow_eq_ok hpoint (by simpa [hnames] using h)

def text? (t : FileTree) (p : Place) : Option String :=
  match t.entry? p with
  | some (.file (.text value)) => some value
  | _ => none

/-- Where there are folders only, there is no text. -/
theorem text?_of_folders (h : ∀ e ∈ t.entries, e.2 = .folder) (p : Place) : t.text? p = none := by
  unfold text? entry?
  split
  · next value hentry =>
    split at hentry
    · cases hentry
    · obtain ⟨e, he, hfile⟩ := Option.map_eq_some_iff.mp hentry
      rw [h e (List.mem_of_find?_eq_some he)] at hfile
      cases hfile
  · rfl

theorem toOption_readText :
    (t.readText path).toOption = (t.locate path).toOption.bind t.text? := by
  unfold readText find text?
  cases t.locate path with
  | error fault => rfl
  | ok p =>
    cases he : t.entry? p with
    | none => simp [he, Except.toOption]
    | some entry =>
      rcases entry with _ | ⟨_ | _⟩ <;> simp [he, Except.toOption]

theorem Within.locate (h : t.Within after) (hp : t.locate path = .ok p) :
    after.locate path = .ok p := by
  unfold FileTree.locate at hp ⊢
  cases hnames : namesOf path with
  | error fault => simp [hnames] at hp
  | ok names =>
    cases hwalk : t.walk .root names.dropLast with
    | error fault => simp [hnames, hwalk] at hp
    | ok d =>
      have hway := walk_of_folders (fun q hq => h q .folder hq) hwalk
      simpa [hnames, hwalk, hway] using hp

theorem Within.text? {value : String} (h : t.Within after) (hp : t.text? p = some value) :
    after.text? p = some value := by
  unfold FileTree.text? at hp ⊢
  split at hp
  · next held hentry => simpa [h p _ hentry] using hp
  · cases hp

/-- A text that can be read can be read in a tree that has more. -/
theorem Within.readText {value : String} (h : t.Within after)
    (hread : (t.readText path).toOption = some value) :
    (after.readText path).toOption = some value := by
  rw [toOption_readText] at hread ⊢
  cases hp : t.locate path with
  | error fault => simp [hp, Except.toOption] at hread
  | ok p =>
    rw [h.locate hp]
    rw [hp] at hread
    exact h.text? hread

theorem writeFile_eq_ok : t.writeFile path contents = .ok after ↔
    ∃ p, t.locate path = .ok p ∧ t.entry? p ≠ some .folder ∧ after = t.put p (.file contents) := by
  unfold writeFile
  cases t.locate path with
  | error fault => simp
  | ok p =>
    by_cases he : t.entry? p = some .folder
    · simp [he]
    · simp [he, eq_comm (a := after)]

theorem rename_eq_ok : t.rename source target = .ok after ↔
    ∃ p q contents, t.locate source = .ok p ∧ t.locate target = .ok q ∧
      t.entry? p = some (.file contents) ∧ t.entry? q ≠ some .folder ∧
      after = (t.remove p).put q (.file contents) := by
  unfold rename
  cases t.locate source with
  | error fault => simp
  | ok p =>
    cases t.locate target with
    | error fault => simp
    | ok q =>
      cases hp : t.entry? p with
      | none => simp [hp]
      | some entry =>
        cases entry with
        | folder => simp [hp]
        | file contents =>
          by_cases hq : t.entry? q = some .folder
          · simp [hp, hq]
          · simp [hp, hq, eq_comm (a := after)]

end FileTree

end Docking
