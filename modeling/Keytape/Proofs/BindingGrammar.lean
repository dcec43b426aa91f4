import Keytape.Proofs.Bindings
import Keytape.Proofs.Literal
import Keytape.Proofs.Text.Trim

/-! The grammar of bindings.

A binding is written as a name and a numeral with an equals sign between them, and blanks around
both. Main statement: the texts of this grammar are the ones that are parsed, each as the binding
it describes, so a binding that is printed in any such form is parsed again as it was.
-/

set_option autoImplicit false

namespace Keytape.Binding

open Text (Tight Trimmed isBlank)

/-- What can be bound by an argument: a text with something in it, no equals sign, and no blank at
either end. -/
structure IsName (name : String) : Prop where
  nonempty : name ≠ ""
  unsplit : '=' ∉ name.toList
  tight : Tight name.toList

/-- The text describes the binding. Only the first equals sign splits it. -/
def Describes (input : String) (b : Binding) : Prop :=
  ∃ before after literal, input.toList = before ++ '=' :: after ∧ '=' ∉ before ∧
    Trimmed before b.name.toList ∧ b.name ≠ "" ∧
    Trimmed after literal ∧ Numeral.Denotes literal b.value

variable {cs before after : List Char} {b : Binding} {input : String}

/-! ## Parsing -/

theorem split?_eq_some_iff :
    split? cs = some (before, after) ↔ cs = before ++ '=' :: after ∧ '=' ∉ before := by
  constructor
  · intro parted
    have whole := List.takeWhile_append_dropWhile (p := (· != '=')) (l := cs)
    have stop := List.head?_dropWhile_not (· != '=') cs
    have unsplit : '=' ∉ cs.takeWhile (· != '=') := fun mem => by
      simpa using List.all_eq_true.1 List.all_takeWhile _ mem
    unfold split? at parted
    split at parted
    · cases parted
    · rename_i shape
      cases parted
      rw [shape] at whole stop
      have sign := by simpa using stop
      rw [sign] at whole
      exact ⟨whole.symm, unsplit⟩
  · rintro ⟨rfl, unsplit⟩
    have passed : ∀ c ∈ before, (c != '=') = true := fun c mem =>
      bne_iff_ne.2 fun same => unsplit (same ▸ mem)
    rw [split?, List.dropWhile_append_of_pos passed, List.takeWhile_append_of_pos passed]
    simp

theorem ofChars_eq_ok_iff : ofChars cs = .ok b ↔
    ∃ before after, split? cs = some (before, after) ∧ Text.trim before = b.name.toList ∧
      b.name ≠ "" ∧ Numeral.readChars? (Text.trim after) = some b.value := by
  rw [ofChars]
  cases split? cs with
  | none =>
    constructor
    · rintro ⟨⟩
    · rintro ⟨_, _, ⟨⟩, _⟩
  | some parts =>
    obtain ⟨before, after⟩ := parts
    dsimp only
    constructor
    · intro parsed
      split at parsed
      · cases parsed
      · rename_i named
        split at parsed
        · rename_i read
          cases parsed
          exact ⟨before, after, rfl, String.toList_ofList.symm, by simpa using named, read⟩
        · cases parsed
    · rintro ⟨_, _, ⟨⟩, named, nonempty, read⟩
      have shown : (Text.trim before).isEmpty = false := by simpa [named] using nonempty
      rw [shown, if_neg Bool.false_ne_true, read, named, String.ofList_toList]

theorem parse_eq_ok_iff_describes : parse input = .ok b ↔ Describes input b := by
  rw [parse_eq_ok_iff, ofChars_eq_ok_iff]
  constructor
  · rintro ⟨before, after, parted, named, nonempty, read⟩
    obtain ⟨whole, unsplit⟩ := split?_eq_some_iff.1 parted
    exact ⟨before, after, _, whole, unsplit, Text.trim_eq_iff.1 named, nonempty,
      Text.trimmed_trim after, Numeral.readChars?_eq_some_iff.1 read⟩
  · rintro ⟨before, after, literal, whole, unsplit, named, nonempty, valued, denotes⟩
    refine ⟨before, after, split?_eq_some_iff.2 ⟨whole, unsplit⟩, Text.trim_eq_iff.2 named,
      nonempty, ?_⟩
    rw [Text.trim_eq_iff.2 valued]
    exact Numeral.readChars?_eq_some_iff.2 denotes

theorem Describes.isName (described : Describes input b) : IsName b.name := by
  obtain ⟨_, _, _, _, unsplit, ⟨w, w', rfl, _, _, tight⟩, nonempty, _⟩ := described
  exact ⟨nonempty, fun mem => unsplit (by simp [mem]), tight⟩

/-! ## Printing -/

theorem isBlank_of_plain {c : Char} (plain : Numeral.IsPlain c) : isBlank c = false := by
  rcases plain with digit | other
  · have ends : 48 ≤ c.toNat ∧ c.toNat ≤ 57 := by
      simpa [Char.isDigit, UInt32.le_iff_toNat_le] using digit
    simp only [isBlank, Text.blankRanges, List.any_cons, List.any_nil, Bool.or_false,
      Bool.or_eq_false_iff, Bool.and_eq_false_iff, decide_eq_false_iff_not]
    omega
  · have visible : ".-+einfNa".toList.all (!isBlank ·) = true := rfl
    simpa using List.all_eq_true.1 visible c other

theorem tight_chars (x : Float) : Tight (Numeral.chars x) :=
  ⟨fun _ first => isBlank_of_plain (Numeral.plain_chars (List.mem_of_head? first)),
    fun _ last => isBlank_of_plain (Numeral.plain_chars (List.mem_of_getLast? last))⟩

theorem not_mem_blank {w : List Char} (blank : ∀ c ∈ w, isBlank c = true) : '=' ∉ w := fun mem =>
  absurd (blank _ mem) (by decide)

theorem describes_printed {name w₁ w₂ w₃ w₄ : String} (isName : IsName name) (x : Float)
    (b₁ : ∀ c ∈ w₁.toList, isBlank c = true) (b₂ : ∀ c ∈ w₂.toList, isBlank c = true)
    (b₃ : ∀ c ∈ w₃.toList, isBlank c = true) (b₄ : ∀ c ∈ w₄.toList, isBlank c = true) :
    Describes (w₁ ++ name ++ w₂ ++ "=" ++ w₃ ++ Numeral.write x ++ w₄) ⟨name, x⟩ := by
  refine ⟨w₁.toList ++ (name.toList ++ w₂.toList), w₃.toList ++ (Numeral.chars x ++ w₄.toList),
    Numeral.chars x, ?_, ?_, ⟨_, _, rfl, b₁, b₂, isName.tight⟩, isName.nonempty,
    ⟨_, _, rfl, b₃, b₄, tight_chars x⟩, ?_⟩
  · simp [Numeral.write]
  · -- The sign that was printed is the first, as neither names nor blanks have one.
    simp [not_mem_blank b₁, not_mem_blank b₂, isName.unsplit]
  · exact Numeral.readChars?_eq_some_iff.1 (Numeral.readChars?_chars x)

/-- The texts that describe a binding are parsed as it, and of every other text it is reported what
it was. Printing a value behind a name, whatever blanks are put around the two, is undone by
parsing, and no other names are ever parsed. -/
theorem parse_grammar :
    (∀ input b, parse input = .ok b ↔ Describes input b) ∧
    (∀ input, (∀ b, ¬ Describes input b) →
      ∃ reason, parse input = .error (.invalidBinding input reason)) ∧
    (∀ name, IsName name → ∀ (x : Float) (w₁ w₂ w₃ w₄ : String),
      (∀ c ∈ w₁.toList ++ w₂.toList ++ w₃.toList ++ w₄.toList, isBlank c = true) →
        parse (w₁ ++ name ++ w₂ ++ "=" ++ w₃ ++ Numeral.write x ++ w₄) = .ok ⟨name, x⟩) ∧
    ∀ input b, parse input = .ok b → IsName b.name := by
  refine ⟨fun input b => parse_eq_ok_iff_describes, fun input none => ?_,
    fun name isName x w₁ w₂ w₃ w₄ blank => ?_,
    fun input b parsed => (parse_eq_ok_iff_describes.1 parsed).isName⟩
  · cases parsed : parse input with
    | ok b => exact absurd (parse_eq_ok_iff_describes.1 parsed) (none b)
    | error e =>
      obtain ⟨reason, rfl⟩ := eq_invalidBinding_of_parse parsed
      exact ⟨reason, rfl⟩
  · simp only [List.forall_mem_append] at blank
    obtain ⟨⟨⟨b₁, b₂⟩, b₃⟩, b₄⟩ := blank
    exact parse_eq_ok_iff_describes.2 (describes_printed isName x b₁ b₂ b₃ b₄)

/-- A name with a blank inside and a value of negative zero among blanks of several kinds; a
numeral with a sign and an exponent; and a text with two equals signs, the second of which is no
part of a numeral. -/
theorem parse_grammar_among_blanks :
    parse ("\u3000" ++ "a b" ++ " " ++ "=" ++ "\t" ++ Numeral.write (-0.0) ++ "\u00a0") =
      .ok ⟨"a b", -0.0⟩ ∧
    parse "x= +1E1\n" = .ok ⟨"x", 10.0⟩ ∧ IsName "x" ∧
    ∃ reason, parse "n = M = 1" = .error (.invalidBinding "n = M = 1" reason) := by
  obtain ⟨parsed, refused, printed, named⟩ := parse_grammar
  have isName : IsName "a b" := ⟨by decide, by decide, Text.tight_trim "a b".toList⟩
  have scale : Decimal.IsScale ('E' :: ([] ++ ['1'])) 1 := .marked (.inr rfl) .absent rfl (by decide)
  have text : Decimal.IsText (['1'] ++ 'E' :: ([] ++ ['1'])) ⟨1, 1⟩ := .whole rfl (by decide) scale
  have ten : Numeral.Denotes "+1E1".toList 10.0 :=
    ⟨['+'], _, .positive, rfl, .plus, .decimal text (Decimal.rounds_toFloat ⟨1, 1⟩)⟩
  have described : Describes "x= +1E1\n" ⟨"x", 10.0⟩ :=
    ⟨"x".toList, " +1E1\n".toList, "+1E1".toList, rfl, by decide,
      Text.trim_eq_iff.1 rfl, by decide, Text.trim_eq_iff.1 rfl, ten⟩
  have read := (parsed _ _).2 described
  refine ⟨printed "a b" isName _ _ _ _ _ (List.all_eq_true.1 rfl), read, named _ _ read, ?_⟩
  exact refused _ fun b described => nomatch (parsed _ b).2 described

end Keytape.Binding
