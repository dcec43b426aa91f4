import Keytape.Proofs.Numeral
import Keytape.Report

/-! Emphasis and the text under it.

Emphasis is written as escape sequences around a text, and a sequence goes from an escape character
to the next letter `m`. Main statement: what is left of an emphasised report or summary when these
are deleted is the one without emphasis.
-/

set_option autoImplicit false

namespace Keytape

namespace Text

/-! ## Escape sequences -/

def escape : Char := '\x1b'

def isParameter (c : Char) : Bool := c.isDigit || c == ';'

/-- How many characters belong to an escape sequence that the text starts with. -/
def escapeLength : List Char → Nat
  | first :: '[' :: cs =>
    let parameters := (cs.takeWhile isParameter).length
    if first = escape ∧ cs[parameters]? = some 'm' then parameters + 3 else 0
  | _ => 0

/-- The text without escape sequences, and without its first characters as many as `n`. -/
def deleteEscapes (n : Nat) : List Char → List Char
  | [] => []
  | c :: cs =>
    match n with
    | n + 1 => deleteEscapes n cs
    | 0 =>
      match escapeLength (c :: cs) with
      | n + 1 => deleteEscapes n cs
      | 0 => c :: deleteEscapes 0 cs

def withoutEscapes (s : String) : String := String.ofList (deleteEscapes 0 s.toList)

variable {cs parameters : List Char}

theorem escapeLength_of_ne {c : Char} (other : c ≠ escape) (cs : List Char) :
    escapeLength (c :: cs) = 0 := by
  unfold escapeLength
  split
  · rename_i shape
    cases shape
    exact if_neg fun found => other found.1
  · rfl

theorem escapeLength_sequence (all : parameters.all isParameter = true) (rest : List Char) :
    escapeLength (escape :: '[' :: (parameters ++ 'm' :: rest)) = parameters.length + 3 := by
  have stop : ('m' :: rest).takeWhile isParameter = [] := List.takeWhile_cons_of_neg (by decide)
  have taken : (parameters ++ 'm' :: rest).takeWhile isParameter = parameters := by
    rw [List.takeWhile_append_of_pos (List.all_eq_true.1 all), stop, List.append_nil]
  simp [escapeLength, taken]

theorem deleteEscapes_drop (n : Nat) (cs : List Char) :
    deleteEscapes n cs = deleteEscapes 0 (cs.drop n) := by
  induction cs generalizing n with
  | nil => rw [List.drop_nil]; rfl
  | cons c rest ih =>
    cases n with
    | zero => rfl
    | succ n => exact ih n

theorem deleteEscapes_plain (plain : escape ∉ cs) (rest : List Char) :
    deleteEscapes 0 (cs ++ rest) = cs ++ deleteEscapes 0 rest := by
  induction cs with
  | nil => rfl
  | cons c later ih =>
    obtain ⟨first, others⟩ := not_or.1 (mt List.mem_cons.2 plain)
    rw [List.cons_append, deleteEscapes, escapeLength_of_ne (Ne.symm first)]
    exact congrArg (c :: ·) (ih others)

theorem deleteEscapes_sequence (parameters : List Char) (all : parameters.all isParameter = true)
    (rest : List Char) :
    deleteEscapes 0 (escape :: '[' :: (parameters ++ 'm' :: rest)) = deleteEscapes 0 rest := by
  -- One character is gone with the first step, and the other two go with the parameters.
  rw [deleteEscapes, escapeLength_sequence all]
  change deleteEscapes (parameters.length + 2) _ = _
  rw [deleteEscapes_drop]
  simp

/-! ## Texts that show as others -/

/-- Without escape sequences the text reads `shown`, whatever follows it. -/
def ShowsAs (s shown : String) : Prop :=
  ∀ rest, deleteEscapes 0 (s.toList ++ rest) = shown.toList ++ deleteEscapes 0 rest

namespace ShowsAs

variable {s s' shown shown' : String}

theorem withoutEscapes_eq (shows : ShowsAs s shown) : withoutEscapes s = shown := by
  have alone := shows []
  rw [List.append_nil] at alone
  rw [withoutEscapes, alone, deleteEscapes, List.append_nil, String.ofList_toList]

theorem plain (unescaped : escape ∉ s.toList) : ShowsAs s s := deleteEscapes_plain unescaped

theorem append (first : ShowsAs s shown) (later : ShowsAs s' shown') :
    ShowsAs (s ++ s') (shown ++ shown') := by
  intro rest
  rw [String.toList_append, List.append_assoc, first, later, String.toList_append, List.append_assoc]

/-- Each opening is one or two sequences, and the closing is another. -/
theorem emphasize (unescaped : escape ∉ s.toList) (painted : Bool) (e : Emphasis) :
    ShowsAs (emphasize painted e s) s := by
  have opens : ShowsAs e.opening "" := by
    intro rest
    cases e with
    | bold => exact deleteEscapes_sequence ['1'] rfl rest
    | dim => exact deleteEscapes_sequence ['2'] rfl rest
    | alarm =>
      exact (deleteEscapes_sequence ['3', '1'] rfl _).trans
        (deleteEscapes_sequence ['1'] rfl rest)
  have closes : ShowsAs closing "" := deleteEscapes_sequence ['0'] rfl
  cases painted with
  | false => exact plain unescaped
  | true =>
    change ShowsAs (e.opening ++ s ++ closing) s
    simpa using (opens.append (plain unescaped)).append closes

end ShowsAs

end Text

open Text (escape ShowsAs)

theorem Numeral.escape_not_mem_write (x : Float) : escape ∉ (write x).toList := fun mem =>
  absurd (plain_write mem) (by decide)

theorem Text.ShowsAs.numeral (x : Float) : ShowsAs (Numeral.write x) (Numeral.write x) :=
  .plain (Numeral.escape_not_mem_write x)

namespace Report

/-- None of the texts in the display has an escape character. -/
structure Unescaped (r : Report) : Prop where
  main : ∀ text ∈ r.display.main, escape ∉ text.toList
  caption : escape ∉ r.display.caption.toList

theorem Unescaped.showsAs_text {r : Report} (unescaped : r.Unescaped) (painted : Bool) :
    ShowsAs (r.text painted) (r.text false) := by
  have main : escape ∉ (r.display.main.getD "").toList := by
    cases shown : r.display.main with
    | none => simp
    | some text => exact unescaped.main text shown
  unfold text
  refine .append (.append (.emphasize main painted _) ?_) ?_
  · split
    · exact .plain (by simp)
    · exact .append (.plain (by decide)) (.emphasize unescaped.caption painted _)
  · cases r.memory with
    | none => exact .plain (by simp)
    | some x => exact .append (.plain (by decide)) (.numeral x)

end Report

namespace Summary

theorem showsAs_crossings (xs : List Float) :
    ShowsAs (", ".intercalate (xs.map Numeral.write)) (", ".intercalate (xs.map Numeral.write)) := by
  induction xs with
  | nil => exact .plain (by simp)
  | cons x rest ih =>
    cases rest with
    | nil => simpa using ShowsAs.numeral x
    | cons y later =>
      rw [List.map_cons, String.intercalate_cons_of_ne_nil (by simp)]
      exact .append (.append (.numeral x) (.plain (by decide))) ih

theorem showsAs_text {s : Summary} (unescaped : escape ∉ s.title.toList) (painted : Bool) :
    ShowsAs (s.text painted) (s.text false) := by
  unfold text
  refine .append (.append (.append (.append (.emphasize unescaped painted _) ?_) ?_) ?_) ?_
  · exact .plain (by decide)
  · exact .numeral _
  · exact .plain (by decide)
  · exact showsAs_crossings _

end Summary

/-- Where no text has an escape character of its own, deleting the escape sequences of an
emphasised report or summary leaves the one without emphasis. In JSON nothing is emphasised. -/
theorem withoutEscapes_render :
    (∀ r : Report, r.Unescaped → Text.withoutEscapes (r.render .text true) = r.render .text false) ∧
    (∀ s : Summary, escape ∉ s.title.toList →
      Text.withoutEscapes (s.render .text true) = s.render .text false) ∧
    (∀ (r : Report) painted, r.render .json painted = r.render .json false) ∧
    ∀ (s : Summary) painted, s.render .json painted = s.render .json false :=
  ⟨fun _ unescaped => (unescaped.showsAs_text true).withoutEscapes_eq,
    fun _ unescaped => (Summary.showsAs_text unescaped true).withoutEscapes_eq,
    fun _ _ => rfl, fun _ _ => rfl⟩

/-- A failed report, with the memory shown below it, and a title with a name in another script. -/
theorem withoutEscapes_render_of_failure :
    let display : Display := ⟨some "Division by 0", "é ÷ 0.0 =", false, some .divisionByZero⟩
    let r : Report := ⟨display, ⟨none, false, "", none⟩, some 2.0⟩
    let s : Summary := ⟨"(é)²", 0.0, [0.0, 1.0], .default⟩
    r.render .text true = "\x1b[31m\x1b[1mDivision by 0\x1b[0m\n\x1b[2mé ÷ 0.0 =\x1b[0m\nM: 2.0" ∧
      Text.withoutEscapes (r.render .text true) = "Division by 0\né ÷ 0.0 =\nM: 2.0" ∧
    s.render .text true = "\x1b[1m(é)²\x1b[0m\nY: 0.0\nX: 0.0, 1.0" ∧
      Text.withoutEscapes (s.render .text true) = "(é)²\nY: 0.0\nX: 0.0, 1.0" := by
  intro display r s
  obtain ⟨report, summary, _⟩ := withoutEscapes_render
  have unescaped : r.Unescaped := by
    refine ⟨?_, by decide⟩
    rintro _ ⟨⟩
    decide
  refine ⟨by decide, ?_, by decide, ?_⟩
  · rw [report r unescaped]
    decide
  · rw [summary s (by decide)]
    decide

end Keytape
