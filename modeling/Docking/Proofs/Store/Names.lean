import Docking.Proofs.Store.Folder

/-! The names of the files of a store. Whatever a key is, its file has an ordinary name in the
folder. The draft beside it has one too, but for the key that is a single point: what would be its
draft is the folder around, where no text can be written. -/
namespace Docking

namespace Path

variable {base name other : String}

/-- The same folder, the same path, the same name. -/
theorem join_inj (hname : '/' ∉ name.toList) (hother : '/' ∉ other.toList) :
    join base name = join base other ↔ name = other := by
  have hstart : ∀ {text : String}, '/' ∉ text.toList → text.toList.head? ≠ some '/' :=
    fun htext hhead => htext (List.mem_of_head? hhead)
  refine ⟨fun h => ?_, fun h => h ▸ rfl⟩
  unfold join at h
  rw [if_neg (hstart hname), if_neg (hstart hother)] at h
  split at h
  · exact String.append_right_inj _ |>.mp h
  · exact String.append_right_inj _ |>.mp h

end Path

namespace FolderStore

variable {s : FolderStore} {key other name : String}

/-- An ASCII letter or digit, a point, a hyphen or an underscore. -/
def NameChar (c : Char) : Prop := c.isAlphanum = true ∨ c = '.' ∨ c = '-' ∨ c = '_'

/-- A name made of such characters that stands for neither the folder itself nor the one around. -/
structure Ordinary (name : String) : Prop extends Plain name where
  chars : ∀ c ∈ name.toList, NameChar c
  ne_back : name ≠ ".."

def InFolder (s : FolderStore) (path : String) : Prop :=
  ∃ name, Ordinary name ∧ path = Path.join s.folder name

theorem nameChar_of_mem_keyStem {c : Char} (h : c ∈ (keyStem key).toList) : NameChar c := by
  rw [keyStem, String.toList_ofList] at h
  obtain ⟨d, -, rfl⟩ := List.mem_map.mp h
  split
  · next hd => simpa [NameChar, or_assoc] using hd
  · exact .inr (.inr (.inr rfl))

theorem nameChar_of_mem_fileName {c : Char} (h : c ∈ (fileName key).toList) : NameChar c := by
  have hending : ∀ c ∈ ['.', 'j', 's', 'o', 'n'], NameChar c := by simp [NameChar]
  rw [toList_fileName, List.mem_append] at h
  exact h.elim nameChar_of_mem_keyStem (hending c)

theorem ordinary_fileName (key : String) : Ordinary (fileName key) where
  toPlain := plain_fileName key
  chars _ h := nameChar_of_mem_fileName h
  ne_back := fileName_ne_back key

/-- Only the single point keeps a single point as its stem. -/
theorem keyStem_eq_point_iff : keyStem key = "." ↔ key = "." := by
  constructor
  · intro h
    have hchars := congrArg String.toList h
    rw [keyStem, String.toList_ofList] at hchars
    obtain ⟨c, hkey, hc⟩ := List.map_eq_singleton_iff.mp hchars
    split at hc
    · rw [← String.toList_inj, hkey, hc]
      rfl
    · cases hc
  · rintro rfl
    rfl

theorem draftName_eq_append (h : key ≠ ".") :
    ∃ ending, draftName key = fileName key ++ ending ∧ ∀ c ∈ ending.toList, NameChar c := by
  unfold draftName
  split
  · exact ⟨".json.tmp", rfl, by simp [NameChar]⟩
  · rw [if_neg (mt keyStem_eq_point_iff.mp h)]
    exact ⟨".tmp", rfl, by simp [NameChar]⟩

theorem ordinary_draftName (h : key ≠ ".") : Ordinary (draftName key) where
  toPlain := plain_draftName key
  chars c hc := by
    obtain ⟨ending, hname, hending⟩ := draftName_eq_append h
    rw [hname, String.toList_append, List.mem_append] at hc
    exact hc.elim nameChar_of_mem_fileName (hending c)
  ne_back hback := by
    obtain ⟨ending, hname, -⟩ := draftName_eq_append h
    have hlength := congrArg (fun text => text.toList.length) (hname.symm.trans hback)
    simp only [String.toList_append, toList_fileName, List.length_append, List.length_cons,
      List.length_nil, String.reduceToList] at hlength
    omega

/-- The file of a key is in the folder, under a name that ends as the files of a store do. -/
theorem path_eq_join (s : FolderStore) (key : String) :
    ∃ stem, Ordinary (stem ++ ".json") ∧ s.path key = Path.join s.folder (stem ++ ".json") :=
  ⟨keyStem key, ordinary_fileName key, rfl⟩

/-- Keys share a path exactly if they share a name. -/
theorem path_inj : s.path key = s.path other ↔ fileName key = fileName other :=
  Path.join_inj (separator_not_mem_fileName key) (separator_not_mem_fileName other)

/-- The draft is in the folder, but for the key that is a single point. -/
theorem inFolder_draftPath_iff : s.InFolder (s.draftPath key) ↔ key ≠ "." := by
  constructor
  · rintro ⟨name, hname, hpath⟩ rfl
    have hback := (Path.join_inj (plain_draftName ".").separator hname.separator).mp hpath
    exact hname.ne_back hback.symm
  · exact fun h => ⟨draftName key, ordinary_draftName h, rfl⟩

theorem draftPath_ne_path (s : FolderStore) (key other : String) : s.draftPath key ≠ s.path other :=
  mt (Path.join_inj (plain_draftName key).separator (plain_fileName other).separator).mp
    (draftName_ne_fileName key other)

end FolderStore

end Docking
