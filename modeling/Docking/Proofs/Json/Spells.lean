import Docking.Json.Reader
import Mathlib.Data.List.Basic

/-! Texts that spell a JSON value. A text spells a value when reading takes it whole and leaves
alone what stands behind it. Strings, words and numbers spell theirs, and arrays and objects are
spelled by the texts of what they hold. -/
namespace Docking.Json

variable {cs rest tail : List Char} {w : Wide} {n k : Nat}

/-- What may stand right behind a value: nothing, or a character that continues no number. -/
def Ends (tail : List Char) : Prop :=
  ∀ c ∈ tail.head?, isDigit c = false ∧ c ≠ '.' ∧ c ≠ 'e' ∧ c ≠ 'E'

theorem ends_nil : Ends [] := by simp [Ends]

theorem ends_cons {c : Char} : Ends (c :: tail) ↔
    isDigit c = false ∧ c ≠ '.' ∧ c ≠ 'e' ∧ c ≠ 'E' := by
  simp [Ends]

theorem spanDigits_append (ht : Ends tail) (cs : List Char) :
    spanDigits (cs ++ tail) = ((spanDigits cs).1, (spanDigits cs).2 ++ tail) := by
  unfold spanDigits
  induction cs with
  | nil =>
    cases tail with
    | nil => rfl
    | cons c tail => simp [(ends_cons.mp ht).1]
  | cons d cs ih =>
    by_cases hd : isDigit d = true
    · simp_all
    · simp [hd]

theorem takeSign_append {d : Char} : takeSign (d :: cs ++ tail) =
    ((takeSign (d :: cs)).1, (takeSign (d :: cs)).2 ++ tail) := by
  rw [List.cons_append]
  unfold takeSign
  split <;> simp_all

theorem map_rest_append {x : Option Wide} (h : x.map (·, cs) = some (w, rest)) :
    x.map (·, cs ++ tail) = some (w, rest ++ tail) := by
  obtain ⟨y, rfl, hy⟩ := Option.map_eq_some_iff.mp h
  obtain ⟨rfl, rfl⟩ := Prod.mk.inj hy
  rfl

theorem readExponent_append {significand : Nat} {places : Int} (ht : Ends tail)
    (h : readExponent significand places cs = some (w, rest)) :
    readExponent significand places (cs ++ tail) = some (w, rest ++ tail) := by
  cases cs with
  | nil =>
    cases tail with
    | nil => simpa using h
    | cons c tail =>
      obtain ⟨-, -, he, hE⟩ := ends_cons.mp ht
      simp_all [readExponent]
  | cons d cs =>
    rw [List.cons_append]
    simp only [readExponent] at h ⊢
    split at h
    · next hd =>
      rw [if_pos hd]
      cases cs with
      | nil => simp [takeSign, spanDigits] at h
      | cons d' cs =>
        rw [takeSign_append]
        simp only [spanDigits_append ht]
        split at h
        · simp at h
        · next hdigits =>
          rw [if_neg hdigits]
          exact map_rest_append h
    · next hd =>
      rw [if_neg hd]
      exact map_rest_append h

theorem readFraction_of_ne {significand dropped : Nat} (h : cs.head? ≠ some '.') :
    readFraction significand dropped cs = readExponent significand dropped cs := by
  unfold readFraction
  split
  · simp at h
  · rfl

theorem readFraction_append {significand dropped : Nat} (ht : Ends tail)
    (h : readFraction significand dropped cs = some (w, rest)) :
    readFraction significand dropped (cs ++ tail) = some (w, rest ++ tail) := by
  by_cases hpoint : cs.head? = some '.'
  · obtain ⟨cs, rfl⟩ := List.head?_eq_some_iff.mp hpoint
    rw [List.cons_append]
    simp only [readFraction, spanDigits_append ht] at h ⊢
    split at h
    · simp at h
    · next hdecimals =>
      rw [if_neg hdecimals]
      exact readExponent_append ht h
  · have hpoint' : (cs ++ tail).head? ≠ some '.' := by
      cases cs with
      | nil => exact fun hdot => (ht '.' hdot).2.1 rfl
      | cons d cs => exact hpoint
    rw [readFraction_of_ne hpoint] at h
    rw [readFraction_of_ne hpoint']
    exact readExponent_append ht h

theorem readMagnitude_eq (cs : List Char) : readMagnitude cs =
    if (spanDigits cs).1 = [] ∨ ((spanDigits cs).1.head? = some '0' ∧ 1 < (spanDigits cs).1.length)
    then none
    else readFraction (gather 0 (spanDigits cs).1).1 (gather 0 (spanDigits cs).1).2.length
      (spanDigits cs).2 := by
  unfold readMagnitude
  generalize spanDigits cs = span
  obtain ⟨whole, left⟩ := span
  split
  · simp_all
  · simp_all
  · next hnil hzero heq =>
    obtain ⟨rfl, rfl⟩ := Prod.mk.inj heq
    rw [if_neg]
    rintro (rfl | ⟨hhead, hlen⟩)
    · exact hnil rfl
    · obtain ⟨ds, rfl⟩ := List.head?_eq_some_iff.mp hhead
      cases ds with
      | nil => simp at hlen
      | cons d ds => exact hzero _ _ rfl

theorem readMagnitude_append (ht : Ends tail) (h : readMagnitude cs = some (w, rest)) :
    readMagnitude (cs ++ tail) = some (w, rest ++ tail) := by
  rw [readMagnitude_eq] at h ⊢
  rw [spanDigits_append ht]
  split at h
  · simp at h
  · next hwhole =>
    rw [if_neg hwhole]
    exact readFraction_append ht h

def beginsNumber (c : Char) : Bool := c = '-' || isDigit c

theorem isBlank_of_beginsNumber {c : Char} (h : beginsNumber c = true) : isBlank c = false := by
  by_contra hblank
  simp only [isBlank, Bool.not_eq_false, Bool.or_eq_true, decide_eq_true_eq] at hblank
  rcases hblank with ((rfl | rfl) | rfl) | rfl <;> exact absurd h (by decide)

theorem head_of_readMagnitude (h : readMagnitude cs = some (w, rest)) :
    ∃ d ds, cs = d :: ds ∧ isDigit d = true := by
  rw [readMagnitude_eq] at h
  cases cs with
  | nil => simp [spanDigits] at h
  | cons d ds =>
    by_cases hd : isDigit d = true
    · exact ⟨d, ds, rfl, hd⟩
    · simp [spanDigits, hd] at h

theorem readNumber_of_ne (h : cs.head? ≠ some '-') : readNumber cs = readMagnitude cs := by
  unfold readNumber
  split
  · simp at h
  · rfl

theorem readNumber_cases (h : readNumber cs = some (w, rest)) :
    (∃ ds w', cs = '-' :: ds ∧ readMagnitude ds = some (w', rest) ∧ w = w'.neg) ∨
      cs.head? ≠ some '-' ∧ readMagnitude cs = some (w, rest) := by
  by_cases hsign : cs.head? = some '-'
  · obtain ⟨ds, rfl⟩ := List.head?_eq_some_iff.mp hsign
    obtain ⟨⟨w', rest'⟩, hread, heq⟩ := Option.map_eq_some_iff.mp h
    obtain ⟨rfl, rfl⟩ := Prod.mk.inj heq
    exact .inl ⟨ds, w', rfl, hread, rfl⟩
  · exact .inr ⟨hsign, readNumber_of_ne hsign ▸ h⟩

/-- A number is read the same whatever stands behind it. -/
theorem readNumber_append (ht : Ends tail) (h : readNumber cs = some (w, rest)) :
    readNumber (cs ++ tail) = some (w, rest ++ tail) := by
  rcases readNumber_cases h with ⟨ds, w', rfl, hread, rfl⟩ | ⟨hsign, hread⟩
  · rw [List.cons_append, readNumber, readMagnitude_append ht hread, Option.map_some]
  · obtain ⟨d, ds, rfl, -⟩ := head_of_readMagnitude hread
    rw [← readMagnitude_append ht hread]
    exact readNumber_of_ne hsign

theorem head_of_readNumber (h : readNumber cs = some (w, rest)) :
    ∃ d ds, cs = d :: ds ∧ beginsNumber d = true := by
  rcases readNumber_cases h with ⟨ds, -, rfl, -, -⟩ | ⟨-, hread⟩
  · exact ⟨'-', ds, rfl, rfl⟩
  · obtain ⟨d, ds, rfl, hd⟩ := head_of_readMagnitude hread
    exact ⟨d, ds, rfl, by simp [beginsNumber, hd]⟩

def isPlain (c : Char) : Bool := 0x20 ≤ c.toNat && c ≠ '"' && c ≠ '\\'

theorem readPieces_plain (h : cs.all isPlain = true) :
    readPieces (cs ++ '"' :: rest) = some (cs.map Piece.char, rest) := by
  induction cs with
  | nil => rfl
  | cons c cs ih =>
    rw [List.all_cons, Bool.and_eq_true] at h
    have hread := ih h.2
    have hplain := h.1
    simp only [isPlain, Bool.and_eq_true, decide_eq_true_eq] at hplain
    rw [List.cons_append]
    unfold readPieces
    split <;> simp_all

theorem joinPieces_char (cs : List Char) : joinPieces (cs.map Piece.char) = some cs := by
  induction cs with
  | nil => rfl
  | cons c cs ih => rw [List.map_cons, joinPieces, ih, Option.map_some]

theorem readString_plain {s : String} (h : s.toList.all isPlain = true) :
    readString (s.toList ++ '"' :: rest) = some (s, rest) := by
  simp [readString, readPieces_plain h, joinPieces_char]

theorem skipBlanks_cons {c : Char} (h : isBlank c = false) : skipBlanks (c :: cs) = c :: cs := by
  simp [skipBlanks, h]

/-- The characters spell the value for every reader that has the fuel and may still open that many
arrays and objects. -/
structure Spells (fuel depth : Nat) (cs : List Char) (value : Json) : Prop where
  head : ∃ c rest, cs = c :: rest ∧ isBlank c = false ∧ c ≠ ']'
  reads : ∀ n k tail, fuel ≤ n → depth ≤ k → Ends tail →
    readValue n k (cs ++ tail) = some (value, tail)

theorem Spells.mono {fuel' depth' : Nat} {value : Json} (h : Spells n k cs value)
    (hn : n ≤ fuel') (hk : k ≤ depth') : Spells fuel' depth' cs value where
  head := h.head
  reads := fun _ _ _ hf hd => h.reads _ _ _ (Nat.le_trans hn hf) (Nat.le_trans hk hd)

theorem spells_string {s : String} (h : s.toList.all isPlain = true) :
    Spells 1 0 ('"' :: (s.toList ++ ['"'])) (.string s) where
  head := ⟨_, _, rfl, rfl, by decide⟩
  reads := by
    intro n k tail hn _ _
    obtain ⟨n, rfl⟩ := Nat.exists_eq_add_of_le' hn
    rw [List.cons_append, List.append_assoc]
    simp (disch := decide) only [readValue, skipBlanks_cons]
    rw [List.singleton_append, readString_plain h, Option.map_some]

theorem spells_bool (b : Bool) :
    Spells 1 0 (if b then ['t', 'r', 'u', 'e'] else ['f', 'a', 'l', 's', 'e']) (.bool b) where
  head := by cases b <;> exact ⟨_, _, rfl, rfl, by decide⟩
  reads := by
    intro n k tail hn _ _
    obtain ⟨n, rfl⟩ := Nat.exists_eq_add_of_le' hn
    cases b <;> rfl

theorem readValue_number {c : Char} (h : beginsNumber c = true) : readValue (n + 1) k (c :: cs) =
    (readNumber (c :: cs)).map fun (x, rest) => (.number x, rest) := by
  simp only [readValue, skipBlanks_cons (isBlank_of_beginsNumber h)]
  split <;> simp_all [beginsNumber, isDigit]

theorem spells_number (h : readNumber cs = some (w, [])) : Spells 1 0 cs (.number w) := by
  obtain ⟨c, cs, rfl, hc⟩ := head_of_readNumber h
  have hclose : c ≠ ']' := by
    rintro rfl
    exact absurd hc (by decide)
  refine ⟨⟨c, cs, rfl, isBlank_of_beginsNumber hc, hclose⟩, ?_⟩
  intro n k tail hn _ ht
  obtain ⟨n, rfl⟩ := Nat.exists_eq_add_of_le' hn
  have hread := readNumber_append ht h
  rw [List.cons_append] at hread ⊢
  rw [readValue_number hc, hread, Option.map_some, List.nil_append]

theorem intercalate_cons {α : Type} {sep a : List α} {as : List (List α)} (h : as ≠ []) :
    sep.intercalate (a :: as) = a ++ sep ++ sep.intercalate as := by
  cases as with
  | nil => exact absurd rfl h
  | cons b bs => rw [List.intercalate_cons_cons]

theorem readItems_spelled {texts : List (List Char)} {values : List Json}
    (h : List.Forall₂ (Spells n k) texts values) (hne : texts ≠ []) (tail : List Char)
    (fuel depth : Nat) (hf : n + texts.length ≤ fuel) (hd : k ≤ depth) :
    readItems fuel depth ([','].intercalate texts ++ ']' :: tail) = some (values, tail) := by
  induction h generalizing fuel with
  | nil => exact absurd rfl hne
  | @cons text value texts values hv hrest ih =>
    rw [List.length_cons] at hf
    obtain ⟨fuel, rfl⟩ := Nat.exists_eq_add_of_le' (show 1 ≤ fuel by omega)
    rw [readItems]
    by_cases hlast : texts = []
    · subst hlast
      cases hrest
      have hitem := hv.reads fuel depth (']' :: tail) (by omega) hd (ends_cons.mpr (by decide))
      simp (disch := decide) [hitem, skipBlanks_cons]
    · have hitem := hv.reads fuel depth (',' :: ([','].intercalate texts ++ ']' :: tail))
        (by omega) hd (ends_cons.mpr (by decide))
      have hitems := ih hlast fuel (by omega)
      rw [intercalate_cons hlast]
      simp (disch := decide) [hitem, hitems, skipBlanks_cons]

def SpellsMember (fuel depth : Nat) (cs : List Char) (m : String × Json) : Prop :=
  m.1.toList.all isPlain = true ∧
    ∃ text, cs = '"' :: (m.1.toList ++ '"' :: ':' :: text) ∧ Spells fuel depth text m.2

theorem readMembers_spelled {texts : List (List Char)} {members : List (String × Json)}
    (h : List.Forall₂ (SpellsMember n k) texts members) (hne : texts ≠ []) (tail : List Char)
    (fuel depth : Nat) (hf : n + texts.length ≤ fuel) (hd : k ≤ depth) :
    readMembers fuel depth ([','].intercalate texts ++ '\x7d' :: tail) = some (members, tail) := by
  induction h generalizing fuel with
  | nil => exact absurd rfl hne
  | @cons cs m texts members hm hrest ih =>
    obtain ⟨hkey, text, rfl, hv⟩ := hm
    rw [List.length_cons] at hf
    obtain ⟨fuel, rfl⟩ := Nat.exists_eq_add_of_le' (show 1 ≤ fuel by omega)
    rw [readMembers]
    by_cases hlast : texts = []
    · subst hlast
      cases hrest
      have hvalue := hv.reads fuel depth ('\x7d' :: tail) (by omega) hd (ends_cons.mpr (by decide))
      simp (disch := decide) [hvalue, readString_plain hkey, skipBlanks_cons]
    · have hvalue := hv.reads fuel depth (',' :: ([','].intercalate texts ++ '\x7d' :: tail))
        (by omega) hd (ends_cons.mpr (by decide))
      have hmembers := ih hlast fuel (by omega)
      rw [intercalate_cons hlast]
      simp (disch := decide) [hvalue, hmembers, readString_plain hkey, skipBlanks_cons]

theorem spells_array {texts : List (List Char)} {values : List Json}
    (h : List.Forall₂ (Spells n k) texts values) :
    Spells (n + texts.length + 1) (k + 1) ('[' :: ([','].intercalate texts ++ [']']))
      (.array values) where
  head := ⟨_, _, rfl, rfl, by decide⟩
  reads := by
    intro fuel depth tail hf hd _
    obtain ⟨fuel, rfl⟩ := Nat.exists_eq_add_of_le' (show 1 ≤ fuel by omega)
    obtain ⟨depth, rfl⟩ := Nat.exists_eq_add_of_le' (show 1 ≤ depth by omega)
    simp (disch := decide) only [List.cons_append, List.append_assoc, List.nil_append, readValue,
      skipBlanks_cons]
    cases h with
    | nil => rfl
    | @cons text value texts values hv hrest =>
      have hitems := readItems_spelled (.cons hv hrest) (by simp) tail fuel depth (by omega)
        (by omega)
      obtain ⟨c, rest, rfl, hblank, hclose⟩ := hv.head
      obtain ⟨more, hmore⟩ : ∃ more, [','].intercalate ((c :: rest) :: texts) = c :: more := by
        cases texts <;> simp [List.intercalate_cons_cons]
      rw [hmore, List.cons_append] at hitems ⊢
      rw [skipBlanks_cons hblank]
      simp [hitems, hclose]

theorem spells_object {texts : List (List Char)} {members : List (String × Json)}
    (h : List.Forall₂ (SpellsMember n k) texts members) :
    Spells (n + texts.length + 1) (k + 1) ('\x7b' :: ([','].intercalate texts ++ ['\x7d']))
      (.object members) where
  head := ⟨_, _, rfl, rfl, by decide⟩
  reads := by
    intro fuel depth tail hf hd _
    obtain ⟨fuel, rfl⟩ := Nat.exists_eq_add_of_le' (show 1 ≤ fuel by omega)
    obtain ⟨depth, rfl⟩ := Nat.exists_eq_add_of_le' (show 1 ≤ depth by omega)
    simp (disch := decide) only [List.cons_append, List.append_assoc, List.nil_append, readValue,
      skipBlanks_cons]
    cases h with
    | nil => rfl
    | @cons text m texts members hm hrest =>
      have hmembers := readMembers_spelled (.cons hm hrest) (by simp) tail fuel depth (by omega)
        (by omega)
      obtain ⟨-, value, rfl, -⟩ := hm
      obtain ⟨more, hmore⟩ : ∃ more, [','].intercalate
          (('"' :: (m.1.toList ++ '"' :: ':' :: value)) :: texts) = '"' :: more := by
        cases texts <;> simp [List.intercalate_cons_cons]
      rw [hmore, List.cons_append] at hmembers ⊢
      rw [skipBlanks_cons rfl]
      simp [hmembers]

/-- A text that spells a value is that value's text, if it is not nested too deeply. -/
theorem ofText?_eq_some {text : String} {value : Json} (h : Spells n k text.toList value)
    (hn : n ≤ 2 * text.toList.length + 1) (hk : k ≤ depthLimit) : ofText? text = some value := by
  have hread := h.reads _ _ [] hn hk ends_nil
  rw [List.append_nil] at hread
  simp only [ofText?, hread]
  rfl

end Docking.Json
