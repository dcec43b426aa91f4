import Keytape.Program
import Keytape.Proofs.Decimal.Place
import Keytape.Proofs.Key
import Keytape.Proofs.Mention
import Keytape.Proofs.Report

/-! Numerals among the arguments.

An argument that starts with a minus is a word only if the rest looks like a number, and that
test knows neither signs of exponents nor names. The main statement says which numerals pass as
words: all but those of negative infinity and of the negative values that are shown with an
exponent below zero.
-/

set_option autoImplicit false

namespace Keytape

open Decimal (StartsPlain digitsOf Style)

/-! ## What looks like a number -/

section
variable {whole after exponent : List Char}

theorem looksNumeric_pointed (digits : whole.all Char.isDigit = true) (nonempty : whole ≠ [])
    (more : after.all Char.isDigit = true) : looksNumeric (whole ++ '.' :: after) = true := by
  have shown : whole.isEmpty = false := by simpa using nonempty
  have plain : StartsPlain ('.' :: after) := Decimal.startsPlain_cons (by decide) after
  have rest := Decimal.dropWhile_digits more Decimal.startsPlain_nil
  rw [List.append_nil] at rest
  simp only [looksNumeric, Decimal.takeWhile_digits digits plain,
    Decimal.dropWhile_digits digits plain, shown, Bool.false_eq_true, if_false, rest]

theorem looksNumeric_exponent (digits : whole.all Char.isDigit = true) (nonempty : whole ≠ []) :
    looksNumeric (whole ++ 'e' :: exponent) = (!exponent.isEmpty && exponent.all Char.isDigit) := by
  have shown : whole.isEmpty = false := by simpa using nonempty
  have plain : StartsPlain ('e' :: exponent) := Decimal.startsPlain_cons (by decide) exponent
  simp only [looksNumeric, Decimal.takeWhile_digits digits plain,
    Decimal.dropWhile_digits digits plain, shown]
  rfl

theorem looksNumeric_pointed_exponent (digits : whole.all Char.isDigit = true)
    (nonempty : whole ≠ []) (more : after.all Char.isDigit = true) :
    looksNumeric (whole ++ '.' :: (after ++ 'e' :: exponent)) =
      (!exponent.isEmpty && exponent.all Char.isDigit) := by
  have shown : whole.isEmpty = false := by simpa using nonempty
  have plain : StartsPlain ('.' :: (after ++ 'e' :: exponent)) :=
    Decimal.startsPlain_cons (by decide) _
  have mark : StartsPlain ('e' :: exponent) := Decimal.startsPlain_cons (by decide) exponent
  have rest := Decimal.dropWhile_digits more mark
  simp only [looksNumeric, Decimal.takeWhile_digits digits plain,
    Decimal.dropWhile_digits digits plain, shown, Bool.false_eq_true, if_false, rest]
  rfl

end

namespace Decimal

theorem looksNumeric_positional (n : Nat) (e : Int) :
    looksNumeric (positional (digitsOf n) e) = true := by
  obtain ⟨whole, after, text, digits, nonempty, more⟩ := exists_positional_eq n e
  rw [text, looksNumeric_pointed digits nonempty more]

/-- The sign of an exponent is not expected. -/
theorem looksNumeric_scientific (n : Nat) (e : Int) :
    looksNumeric (Numeral.style.scientific (digitsOf n) e) = decide (0 ≤ e) := by
  have mark : Numeral.style.exponentPart e =
      'e' :: ((if e < 0 then ['-'] else []) ++ digitsOf e.natAbs) := rfl
  have unsigned : (!((if e < 0 then ['-'] else []) ++ digitsOf e.natAbs).isEmpty &&
      ((if e < 0 then ['-'] else []) ++ digitsOf e.natAbs).all Char.isDigit) = decide (0 ≤ e) := by
    have digits := all_digitsOf e.natAbs
    have shown := digitsOf_ne_nil e.natAbs
    split
    · rename_i negative
      have sign : decide (0 ≤ e) = false := decide_eq_false (by omega)
      rw [sign]
      rfl
    · rename_i positive
      have sign : decide (0 ≤ e) = true := decide_eq_true (by omega)
      rw [List.nil_append, sign, digits]
      simp [shown]
  have digits := all_digitsOf n
  have nonempty := digitsOf_ne_nil n
  revert digits nonempty
  generalize digitsOf n = ds
  intro digits nonempty
  match ds with
  | [] => exact absurd rfl nonempty
  | [c] =>
    rw [← unsigned, ← looksNumeric_exponent digits nonempty]
    rfl
  | c :: c' :: rest =>
    rw [List.all_cons, Bool.and_eq_true] at digits
    have first : [c].all Char.isDigit = true := by simpa using digits.1
    rw [← unsigned, ← looksNumeric_pointed_exponent first (List.cons_ne_nil _ _) digits.2]
    rfl

/-- Exponents are written from the sixteenth place on and below the fourth behind the point. -/
theorem looksNumeric_layout (d : Decimal) :
    looksNumeric (Numeral.style.layout d) = decide (-4 ≤ d.leading) := by
  unfold Style.layout
  dsimp only
  split
  · rename_i near
    rw [looksNumeric_positional]
    exact (decide_eq_true near.1).symm
  · rename_i far
    rw [looksNumeric_scientific]
    have ends : ¬ (-4 ≤ d.leading ∧ d.leading < 16) := far
    refine decide_eq_decide.2 ?_
    change 0 ≤ d.leading ↔ -4 ≤ d.leading
    omega

end Decimal

/-! ## Values that are written with a sign in their exponent -/

open Float.Model Float.Model.UnpackedFloat
open Binary (lt_iff_compare)

namespace Numeral

/-- The value `m * 2 ^ q` is below the one that is read for a ten-thousandth. -/
def IsTiny (m : Nat) (q : Int) : Prop := q < -66 ∨ q = -66 ∧ m < 7378697629483821

instance (m : Nat) (q : Int) : Decidable (IsTiny m q) :=
  inferInstanceAs (Decidable (_ ∨ _ ∧ _))

variable {x : Float} {s : Sign} {m : Nat} {q : Int} {pos : 0 < m}

theorem small_negative_iff (fields : x.toModel.unpack = .finite s m q pos) :
    x < 0.0 ∧ -1e-4 < x ↔ s = .negative ∧ IsTiny m q := by
  have zero : (0.0 : Float).toModel.unpack = .zero .positive := rfl
  have bound : (-1e-4 : Float).toModel.unpack =
      .finite .negative 7378697629483821 (-66) (by decide) := rfl
  rw [lt_iff_compare, lt_iff_compare, fields, zero, bound]
  cases s with
  | positive => simp [UnpackedFloat.compare]
  | negative =>
    simp only [UnpackedFloat.compare, true_and, Option.some.injEq, IsTiny]
    rw [Ordering.swap_eq_lt, Ordering.then_eq_gt]
    simp only [Int.compare_eq_gt, Int.compare_eq_eq, Nat.compare_eq_gt]
    omega

theorem leading_lt_iff (h : Binary.Canonical m q) {d : Decimal}
    (short : Decimal.shortest? .up m q = some d) :
    d.leading < -4 ↔ IsTiny m q := by
  refine Decimal.leading_lt_iff_below (by constructor <;> decide) (by decide) (by norm_num)
    (by norm_num) (fun d' found => ?_) h short
  have itself : Decimal.shortest? .up 7378697629483821 (-66) = some ⟨1, -4⟩ := by decide
  cases itself.symm.trans found
  decide

end Numeral

/-! ## Single words -/

def ArgumentForm.isWord : ArgumentForm → Bool
  | .bundle flags => looksNumeric flags
  | .plain => true
  | _ => false

def ArgumentForm.isStray : ArgumentForm → Bool
  | .bundle (c :: rest) => !looksNumeric (c :: rest) && (Opt.ofShort? (some .eval) c).isNone
  | _ => false

theorem ArgumentForm.of_plain {w : String} {c : Char} {rest : List Char} (shape : w.toList = c :: rest)
    (other : c ≠ '-') : ArgumentForm.of w = .plain := by
  unfold ArgumentForm.of
  rw [shape]
  grind

theorem ArgumentForm.of_minus {w : String} {c : Char} {rest : List Char}
    (shape : w.toList = '-' :: c :: rest) (other : c ≠ '-') :
    ArgumentForm.of w = .bundle (c :: rest) := by
  unfold ArgumentForm.of
  rw [shape]
  grind

theorem Opt.ofShort?_digit (level : Option CommandName) {c : Char} (digit : c.isDigit = true) :
    Opt.ofShort? level c = none := by
  refine List.find?_eq_none.2 fun o _ same => ?_
  have short := beq_iff_eq.1 same
  cases o <;> cases short <;> exact absurd digit (by decide)

namespace Invocation

theorem parse_eval (args : List String) :
    parse ("eval" :: args) = (parseCommand .eval args).map (ofLevels .empty · .eval) := by
  have name : CommandName.ofText? "eval" = some .eval := by decide
  have other : ("eval" == "help") = false := by decide
  simp only [parse, parseFrom, Parse.start, other, name, Bool.not_false, Bool.and_false,
    Bool.false_eq_true, if_false, if_true]
  cases parseCommand .eval args <;> rfl

theorem parse_eval_of_isWord {w : String} (word : (ArgumentForm.of w).isWord = true) :
    parse ["eval", w] = .ok ⟨0, false, .auto, .text, .eval [w] []⟩ := by
  have stepped : Parse.start.step (some .eval) w =
      .ok { Parse.start with gathered := { Gathered.empty with words := [w] } } := by
    unfold Parse.step
    cases form : ArgumentForm.of w with
    | escape => rw [form] at word; cases word
    | long name attached => rw [form] at word; cases word
    | plain => rfl
    | bundle flags =>
      rw [form] at word
      change looksNumeric flags = true at word
      simp only [word]
      rfl
  have command : parseCommand .eval [w] = .ok { Gathered.empty with words := [w] } := by
    simp only [parseCommand, List.foldlM_cons, List.foldlM_nil, stepped]
    rfl
  rw [parse_eval, command]
  rfl

theorem parse_eval_of_isStray {w : String} (stray : (ArgumentForm.of w).isStray = true) :
    parse ["eval", w] = .error .unknownArgument := by
  have stepped : Parse.start.step (some .eval) w = .error .unknownArgument := by
    unfold Parse.step
    cases form : ArgumentForm.of w with
    | bundle flags =>
      rw [form] at stray
      cases flags with
      | nil => cases stray
      | cons c rest =>
        change (!looksNumeric (c :: rest) && (Opt.ofShort? (some .eval) c).isNone) = true at stray
        rw [Bool.and_eq_true, Bool.not_eq_true', Option.isNone_iff_eq_none] at stray
        simp only [stray.1, Parse.bundle, stray.2]
        rfl
    | _ => rw [form] at stray; cases stray
  have command : parseCommand .eval [w] = .error .unknownArgument := by
    simp only [parseCommand, List.foldlM_cons, stepped]
    rfl
  rw [parse_eval, command]
  rfl

end Invocation

namespace Numeral

theorem toList_write (x : Float) : (write x).toList = chars x := String.toList_ofList

theorem exists_layout_of_finite {x : Float} {s : Sign} {m : Nat} {q : Int} {pos : 0 < m}
    (fields : x.toModel.unpack = .finite s m q pos) :
    ∃ d c rest, Decimal.shortest? .up m q = some d ∧
      style.layout d = c :: rest ∧ c.isDigit = true ∧ c ≠ '-' ∧
      (write x).toList = signText s ++ c :: rest := by
  obtain ⟨d, short, text⟩ := Decimal.magnitude_eq_layout style (Binary.canonical_of_toModel fields)
  obtain ⟨c, rest, shape, digit⟩ := Decimal.layout_head style d
  refine ⟨d, c, rest, short, shape, digit, ?_, ?_⟩
  · rintro rfl
    exact absurd digit (by decide)
  · rw [toList_write, chars, fields, ← shape, ← text]

theorem of_write_positive {x : Float} {m : Nat} {q : Int} {pos : 0 < m}
    (fields : x.toModel.unpack = .finite .positive m q pos) :
    ArgumentForm.of (write x) = .plain := by
  obtain ⟨_, _, _, _, _, _, other, word⟩ := exists_layout_of_finite fields
  exact ArgumentForm.of_plain word other

/-- After a minus, digits look like a number if they start no later than at the fourth place. -/
theorem of_write_negative {x : Float} {m : Nat} {q : Int} {pos : 0 < m}
    (fields : x.toModel.unpack = .finite .negative m q pos) :
    ∃ c rest, ArgumentForm.of (write x) = .bundle (c :: rest) ∧ c.isDigit = true ∧
      looksNumeric (c :: rest) = !decide (IsTiny m q) := by
  obtain ⟨d, c, rest, short, shape, digit, other, word⟩ := exists_layout_of_finite fields
  have place := leading_lt_iff (Binary.canonical_of_toModel fields) short
  refine ⟨c, rest, ArgumentForm.of_minus word other, digit, ?_⟩
  rw [← shape, Decimal.looksNumeric_layout, ← decide_not]
  refine decide_eq_decide.2 ?_
  rw [← place]
  exact Int.not_lt.symm

/-- Negative infinity, and the negative values that are shown with an exponent below zero. -/
def NeedsEscape (x : Float) : Prop := x = -(1.0 / 0.0) ∨ x < 0.0 ∧ -1e-4 < x

instance (x : Float) : Decidable (NeedsEscape x) :=
  inferInstanceAs (Decidable (_ ∨ _ ∧ _))

theorem needsEscape_iff (x : Float) : NeedsEscape x ↔
    match x.toModel.unpack with
    | .infinity s => s = .negative
    | .finite s m q _ => s = .negative ∧ IsTiny m q
    | _ => False := by
  have negative : (-(1.0 / 0.0) : Float).toModel.unpack = .infinity .negative := rfl
  have zero : (0.0 : Float).toModel.unpack = .zero .positive := rfl
  have infinite : x = -(1.0 / 0.0) ↔ x.toModel.unpack = .infinity .negative :=
    ⟨fun same => same ▸ negative, fun same => Binary.eq_of_unpack (same.trans negative.symm)⟩
  have below := lt_iff_compare x 0.0
  rw [zero] at below
  rw [NeedsEscape, infinite]
  cases fields : x.toModel.unpack with
  | notANumber => simp [below, fields, UnpackedFloat.compare]
  | infinity s => cases s <;> simp [below, fields, UnpackedFloat.compare]
  | zero s => simp [below, fields, UnpackedFloat.compare]
  | finite s m q pos => simp [small_negative_iff fields]

theorem isStray_or_isWord (x : Float) :
    (NeedsEscape x ∧ (ArgumentForm.of (write x)).isStray = true) ∨
    (¬ NeedsEscape x ∧ (ArgumentForm.of (write x)).isWord = true) := by
  have text : (write x).toList = chars x := toList_write x
  unfold chars at text
  rw [needsEscape_iff]
  cases fields : x.toModel.unpack with
  | notANumber =>
    rw [fields] at text
    exact .inr ⟨not_false, by rw [ArgumentForm.of_plain text (by decide)]; rfl⟩
  | infinity s =>
    rw [fields] at text
    cases s with
    | positive => exact .inr ⟨nofun, by rw [ArgumentForm.of_plain text (by decide)]; rfl⟩
    | negative => exact .inl ⟨rfl, by rw [ArgumentForm.of_minus text (by decide)]; rfl⟩
  | zero s =>
    rw [fields] at text
    cases s with
    | positive => exact .inr ⟨not_false, by rw [ArgumentForm.of_plain text (by decide)]; rfl⟩
    | negative => exact .inr ⟨not_false, by rw [ArgumentForm.of_minus text (by decide)]; rfl⟩
  | finite s m q pos =>
    cases s with
    | positive =>
      refine .inr ⟨fun escape => Sign.noConfusion escape.1, ?_⟩
      rw [of_write_positive fields]
      rfl
    | negative =>
      obtain ⟨c, rest, form, digit, numeric⟩ := of_write_negative fields
      rw [form]
      by_cases below : IsTiny m q
      · have unknown := Opt.ofShort?_digit (some .eval) digit
        refine .inl ⟨⟨rfl, below⟩, ?_⟩
        rw [ArgumentForm.isStray, numeric, unknown, decide_eq_true below]
        rfl
      · refine .inr ⟨fun escape => below escape.2, ?_⟩
        rw [ArgumentForm.isWord, numeric, decide_eq_false below]
        rfl

end Numeral

/-! ## What is printed on a numeral -/

theorem Session.display_literal (x : Float) (draws : Draws) :
    (Session.new.append (.literal x)).display draws =
      ⟨some (Numeral.write x), Numeral.write x ++ " =", false, none⟩ := by
  have outcome : (Session.new.append (.literal x)).evaluate draws =
      ⟨some x, false, Numeral.write x, none⟩ := rfl
  have unmentioned : Outcome.mentionsMemory ⟨some x, false, Numeral.write x, none⟩ = false := by
    refine Bool.eq_false_iff.2 fun mentioned => ?_
    exact Numeral.letter_not_mem_write x (List.contains_iff_mem.1 mentioned)
  rw [display, outcome, Display.ofOutcome, Display.captionOf_eq, if_neg (Numeral.write_ne_empty x),
    Display.mainOf, unmentioned]
  rfl

theorem Program.run_numeral {args : List String} {x : Float}
    (parsed : Invocation.parse args = .ok ⟨0, false, .auto, .text, .eval [Numeral.write x] []⟩)
    (around : Surroundings) :
    let painted := around.onTerminal && around.allowsEmphasis
    run args around = ⟨0, Text.emphasize painted .bold (Numeral.write x) ++ "\n" ++
      Text.emphasize painted .dim (Numeral.write x ++ " =") ++ "\n", ""⟩ := by
  intro painted
  have pressed : Session.new.pressWords around.draws [Numeral.write x] =
      (Session.new.append (.literal x), around.draws) := by
    change (Key.ofWord (Numeral.write x)).press _ _ = _
    rw [Key.ofWord_of_read? (Numeral.read?_write x)]
    rfl
  have caption : (Numeral.write x ++ " =").isEmpty = false := by
    simp [Numeral.write_ne_empty x]
  have text : (((Session.new.append (.literal x)).report around.draws).1).text painted =
      Text.emphasize painted .bold (Numeral.write x) ++ "\n" ++
        Text.emphasize painted .dim (Numeral.write x ++ " =") := by
    have unset : (Session.new.append (.literal x)).memory? = none := rfl
    simp only [Session.report, Session.display_literal, Report.text, caption, unset,
      Option.getD_some, Option.isSome_none, Bool.false_eq_true, if_false]
    rw [String.append_empty, ← String.append_assoc]
  rw [run, parsed]
  change conclude (evalWords ⟨.text, painted⟩ .new around.draws [Numeral.write x]) = _
  simp only [evalWords, pressed, Printer.print, Report.render, text]
  rfl

/-- Given as the only word, a numeral is shown as it was written, except that those of negative
infinity and of negative values with an exponent below zero are refused. After a double minus no
numeral is. -/
theorem run_eval_numeral (x : Float) (around : Surroundings) :
    let word := Numeral.write x
    let invocation : Invocation := ⟨0, false, .auto, .text, .eval [word] []⟩
    let painted := around.onTerminal && around.allowsEmphasis
    let shown : Exit := ⟨0, Text.emphasize painted .bold word ++ "\n" ++
      Text.emphasize painted .dim (word ++ " =") ++ "\n", ""⟩
    (¬ Numeral.NeedsEscape x →
      Invocation.parse ["eval", word] = .ok invocation ∧ Program.run ["eval", word] around = shown) ∧
    (Numeral.NeedsEscape x →
      Invocation.parse ["eval", word] = .error .unknownArgument ∧
      (Program.run ["eval", word] around).code = 2 ∧
      (Program.run ["eval", word] around).stdout = "") ∧
    Invocation.parse ["eval", "--", word] = .ok invocation ∧
    Program.run ["eval", "--", word] around = shown := by
  intro word invocation painted shown
  have escaped : Invocation.parse ["eval", "--", word] = .ok invocation := by
    rw [Invocation.parse_eval]
    rfl
  refine ⟨fun free => ?_, fun escape => ?_, escaped, Program.run_numeral escaped around⟩
  · have passes : (ArgumentForm.of word).isWord = true :=
      ((Numeral.isStray_or_isWord x).resolve_left fun stray => free stray.1).2
    have parsed := Invocation.parse_eval_of_isWord passes
    exact ⟨parsed, Program.run_numeral parsed around⟩
  · have stray : (ArgumentForm.of word).isStray = true :=
      ((Numeral.isStray_or_isWord x).resolve_right fun passes => passes.1 escape).2
    have refused := Invocation.parse_eval_of_isStray stray
    rw [Program.run, refused]
    exact ⟨rfl, rfl, rfl⟩

/-- Exponents above zero carry no sign. -/
theorem run_eval_numeral_of_large_negative :
    ¬ Numeral.NeedsEscape (-1e16) ∧ Numeral.write (-1e16) = "-1e16" ∧
      Program.run ["eval", "-1e16"] ⟨[], false, false, ⟨fun _ => 0.5, 0⟩⟩ =
        ⟨0, "-1e16\n-1e16 =\n", ""⟩ := by
  have free : ¬ Numeral.NeedsEscape (-1e16) := by decide
  have word : Numeral.write (-1e16) = "-1e16" := by decide
  have run := ((run_eval_numeral (-1e16) ⟨[], false, false, ⟨fun _ => 0.5, 0⟩⟩).1 free).2
  rw [word] at run
  exact ⟨free, word, run⟩

/-- A number that the display shows and the keypad reads is refused as an argument. -/
theorem run_eval_refuses_small_negative :
    let around : Surroundings := ⟨[], false, false, ⟨fun _ => 0.5, 0⟩⟩
    Numeral.write (-1e-5) = "-1e-5" ∧ Key.ofWord "-1e-5" = .operand (-1e-5) ∧
      Invocation.parse ["eval", "-1e-5"] = .error .unknownArgument ∧
      (Program.run ["eval", "-1e-5"] around).code = 2 ∧
      (Program.run ["eval", "-1e-5"] around).stdout = "" := by
  refine ⟨by decide, ?_, rfl, rfl, rfl⟩
  rw [Key.ofWord_of_read? (x := -1e-5) (by decide)]

end Keytape
