import Keytape.Proofs.Text.Trim

/-! The words of a text.

Main statement: a text is split into the words that are laid out in it, with blanks between any
two of them, and into no others. Which blanks these are, and how many, does not matter.
-/

set_option autoImplicit false

namespace Keytape.Text

/-- A text whose words these are: each is a run of characters that are not blank, and blanks
stand between any two of them, perhaps before the first and perhaps after the last. -/
inductive Laid : List Char → List String → Prop
  | blank {gap : List Char} : (∀ c ∈ gap, isBlank c = true) → Laid gap []
  | word {gap rest : List Char} {w : String} {ws : List String} :
      (∀ c ∈ gap, isBlank c = true) → w ≠ "" → (∀ c ∈ w.toList, isBlank c = false) →
      (∀ c ∈ rest.head?, isBlank c = true) → Laid rest ws → Laid (gap ++ (w.toList ++ rest)) (w :: ws)

/-! ## Runs -/

theorem runs_ne_nil (cs : List Char) : runs cs ≠ [] := by
  cases cs with
  | nil => exact List.cons_ne_nil _ _
  | cons c rest =>
    rw [runs]
    split
    · exact List.cons_ne_nil _ _
    · cases runs rest <;> exact List.cons_ne_nil _ _

theorem extendFirst_append (c : Char) {first : List (List Char)} (nonempty : first ≠ [])
    (later : List (List Char)) : extendFirst c (first ++ later) = extendFirst c first ++ later := by
  cases first with
  | nil => exact absurd rfl nonempty
  | cons w rest => rfl

theorem runs_append_blank (before : List Char) {c : Char} (blank : isBlank c = true)
    (after : List Char) : runs (before ++ c :: after) = runs before ++ runs after := by
  induction before with
  | nil => simp [runs, blank]
  | cons d rest ih =>
    rw [List.cons_append, runs, runs, ih]
    split
    · rfl
    · exact extendFirst_append d (runs_ne_nil rest) _

theorem runs_unbroken {cs : List Char} (solid : ∀ c ∈ cs, isBlank c = false) : runs cs = [cs] := by
  induction cs with
  | nil => rfl
  | cons c rest ih =>
    obtain ⟨first, later⟩ := List.forall_mem_cons.1 solid
    rw [runs, if_neg (by simp [first]), ih later]
    rfl

/-! ## Words -/

def charWords (cs : List Char) : List (List Char) := (runs cs).filter fun w => !w.isEmpty

theorem words_eq (s : String) : words s = (charWords s.toList).map String.ofList := rfl

theorem charWords_append_blank (before : List Char) {c : Char} (blank : isBlank c = true)
    (after : List Char) : charWords (before ++ c :: after) = charWords before ++ charWords after := by
  rw [charWords, runs_append_blank before blank after, List.filter_append]
  rfl

theorem charWords_cons_blank {c : Char} (blank : isBlank c = true) (cs : List Char) :
    charWords (c :: cs) = charWords cs :=
  charWords_append_blank [] blank cs

theorem charWords_gap_append {gap : List Char} (blank : ∀ c ∈ gap, isBlank c = true)
    (cs : List Char) : charWords (gap ++ cs) = charWords cs := by
  induction gap with
  | nil => rfl
  | cons c rest ih =>
    obtain ⟨first, later⟩ := List.forall_mem_cons.1 blank
    rw [List.cons_append, charWords_cons_blank first, ih later]

theorem charWords_word_append {w rest : List Char} (nonempty : w ≠ [])
    (solid : ∀ c ∈ w, isBlank c = false) (broken : ∀ c ∈ rest.head?, isBlank c = true) :
    charWords (w ++ rest) = w :: charWords rest := by
  have alone : charWords w = [w] := by
    rw [charWords, runs_unbroken solid]
    simp [nonempty]
  cases rest with
  | nil => rw [List.append_nil, alone]; rfl
  | cons c later =>
    have blank := broken c rfl
    rw [charWords_append_blank w blank, charWords_cons_blank blank, alone, List.singleton_append]

theorem charWords_of_laid {cs : List Char} {ws : List String} (laid : Laid cs ws) :
    (charWords cs).map String.ofList = ws := by
  induction laid with
  | @blank gap blank =>
    have none := charWords_gap_append blank []
    rw [List.append_nil] at none
    rw [none]
    rfl
  | word blank nonempty solid broken _ ih =>
    have shown := mt String.toList_eq_nil_iff.1 nonempty
    rw [charWords_gap_append blank, charWords_word_append shown solid broken, List.map_cons,
      String.ofList_toList, ih]

theorem exists_first_word {c : Char} (first : isBlank c = false) (later : List Char) :
    ∃ w rest : List Char, c :: later = w ++ rest ∧ w ≠ [] ∧ (∀ d ∈ w, isBlank d = false) ∧
      ∀ d ∈ rest.head?, isBlank d = true := by
  refine ⟨(c :: later).takeWhile (!isBlank ·), (c :: later).dropWhile (!isBlank ·),
    List.takeWhile_append_dropWhile.symm, by simp [first], ?_, fun d mem => ?_⟩
  · simpa using List.all_eq_true.1 (List.all_takeWhile (p := (!isBlank ·)) (l := c :: later))
  · have stop := List.head?_dropWhile_not (!isBlank ·) (c :: later)
    rw [mem] at stop
    simpa using stop

theorem laid_charWords (cs : List Char) : Laid cs ((charWords cs).map String.ofList) := by
  -- What follows the first gap and the first word is a shorter text.
  induction shorter : cs.length using Nat.strongRecOn generalizing cs with
  | ind n ih =>
    have gap := blank_takeWhile cs
    have split := List.takeWhile_append_dropWhile (p := isBlank) (l := cs)
    rw [← split, charWords_gap_append gap]
    cases tail : cs.dropWhile isBlank with
    | nil =>
      rw [List.append_nil]
      exact .blank gap
    | cons c later =>
      have first : isBlank c = false := head_dropWhile cs c (by rw [tail]; rfl)
      obtain ⟨w, rest, word, nonempty, solid, broken⟩ := exists_first_word first later
      have fewer : rest.length < n := by
        have lengths := congrArg List.length split
        have some := List.length_pos_iff.2 nonempty
        rw [tail, word, List.length_append, List.length_append] at lengths
        omega
      rw [word, charWords_word_append nonempty solid broken, List.map_cons]
      rw [← String.toList_ofList (l := w)] at nonempty solid
      have built := Laid.word gap (mt String.toList_eq_nil_iff.2 nonempty) solid broken
        (ih _ fewer rest rfl)
      rwa [String.toList_ofList] at built

/-- A text is split into the words that are laid out in it. -/
theorem words_eq_iff (text : String) (ws : List String) : words text = ws ↔ Laid text.toList ws :=
  ⟨fun same => same ▸ laid_charWords text.toList, charWords_of_laid⟩

end Keytape.Text
