import Keytape.Text.Blank

/-! Blanks around a text.

Main statement: what is left of a text when the blanks at its ends are trimmed is the part of it
between two runs of blanks that neither starts nor ends with one.
-/

set_option autoImplicit false

namespace Keytape.Text

/-- No blank stands at either end. -/
structure Tight (cs : List Char) : Prop where
  first : ∀ c ∈ cs.head?, isBlank c = false
  last : ∀ c ∈ cs.getLast?, isBlank c = false

/-- The text is `inner` with nothing but blanks around it, and `inner` has none to spare. -/
def Trimmed (cs inner : List Char) : Prop :=
  ∃ before after, cs = before ++ (inner ++ after) ∧ (∀ c ∈ before, isBlank c = true) ∧
    (∀ c ∈ after, isBlank c = true) ∧ Tight inner

variable {cs inner : List Char}

theorem Tight.reverse (tight : Tight cs) : Tight cs.reverse :=
  ⟨by simpa using tight.last, by simpa using tight.first⟩

theorem blank_takeWhile (cs : List Char) : ∀ c ∈ cs.takeWhile isBlank, isBlank c = true :=
  List.all_eq_true.1 List.all_takeWhile

theorem dropWhile_eq_self (cs : List Char) (first : ∀ c ∈ cs.head?, isBlank c = false) :
    cs.dropWhile isBlank = cs := by
  cases cs with
  | nil => rfl
  | cons c rest => rw [List.dropWhile_cons, first c rfl]; rfl

theorem head_dropWhile (cs : List Char) :
    ∀ c ∈ (cs.dropWhile isBlank).head?, isBlank c = false := by
  intro c first
  have stop := List.head?_dropWhile_not isBlank cs
  rw [first] at stop
  simpa using stop

theorem trim_surrounded {before after : List Char} (leading : ∀ c ∈ before, isBlank c = true)
    (trailing : ∀ c ∈ after, isBlank c = true) (tight : Tight inner) :
    trim (before ++ (inner ++ after)) = inner := by
  rw [trim, List.dropWhile_append_of_pos leading]
  have backwards : ∀ c ∈ after.reverse, isBlank c = true := by simpa using trailing
  cases inner with
  | nil =>
    rw [List.nil_append, ← List.append_nil after, List.dropWhile_append_of_pos trailing]
    rfl
  | cons c rest =>
    rw [dropWhile_eq_self (c :: rest ++ after) tight.first, List.reverse_append,
      List.dropWhile_append_of_pos backwards, dropWhile_eq_self _ tight.reverse.first,
      List.reverse_reverse]

theorem trimmed_trim (cs : List Char) : Trimmed cs (trim cs) := by
  have leading := blank_takeWhile cs
  have split := List.takeWhile_append_dropWhile (p := isBlank) (l := cs)
  have first := head_dropWhile cs
  rw [trim]
  generalize cs.takeWhile isBlank = before at leading split
  generalize cs.dropWhile isBlank = rest at split first ⊢
  have trailing := blank_takeWhile rest.reverse
  have last := head_dropWhile rest.reverse
  have turned := congrArg List.reverse
    (List.takeWhile_append_dropWhile (p := isBlank) (l := rest.reverse))
  rw [List.reverse_append, List.reverse_reverse] at turned
  generalize rest.reverse.takeWhile isBlank = after at trailing turned
  generalize rest.reverse.dropWhile isBlank = kept at turned last ⊢
  refine ⟨before, after.reverse, by rw [turned, split], leading, by simpa using trailing, ?_, ?_⟩
  · -- The rest begins where what is kept of it does, if anything is.
    intro c start
    refine first c ?_
    rw [← turned, List.head?_append, start]
    rfl
  · simpa using last

theorem trim_eq_iff : trim cs = inner ↔ Trimmed cs inner := by
  constructor
  · rintro rfl
    exact trimmed_trim cs
  · rintro ⟨before, after, rfl, leading, trailing, tight⟩
    exact trim_surrounded leading trailing tight

theorem tight_trim (cs : List Char) : Tight (trim cs) := by
  obtain ⟨_, _, _, _, _, tight⟩ := trimmed_trim cs
  exact tight

end Keytape.Text
