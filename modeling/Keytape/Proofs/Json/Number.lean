import Keytape.Proofs.Decimal.Leading
import Keytape.Proofs.Json.Quote
import Keytape.Proofs.Numeral

/-! Numbers in documents read back.

Documents allow fewer spellings of a number than the keypad: no zero in front of other digits,
digits on both sides of a point, and no exponent that goes too far. Main statement: what is
written for a value keeps to these rules, and any value is read back, finite or not.
-/

set_option autoImplicit false

namespace Keytape.Json

open Float.Model
open Keytape.Decimal (digitsOf valueOf StartsPlain)
open Keytape.Numeral (signText signed)

/-! ## Spellings -/

/-- The parts of a number that documents allow, the sign apart. -/
structure Literal where
  whole : List Char
  fraction : Option (List Char)
  exponent : Option Int
  whole_digits : whole.all Char.isDigit = true
  whole_ne_nil : whole ≠ []
  /-- A zero in front stands alone. -/
  unpadded : ∀ d rest, whole ≠ '0' :: d :: rest
  fraction_digits : ∀ ds ∈ fraction, ds.all Char.isDigit = true ∧ ds ≠ []
  /-- The number is no integer. -/
  marked : fraction.isSome || exponent.isSome
  exponent_le : ∀ e ∈ exponent, e ≤ Reader.maxExponent

namespace Literal

def exponentText (l : Literal) : List Char := (l.exponent.map style.exponentPart).getD []

def fractionText (l : Literal) : List Char := (l.fraction.map ('.' :: ·)).getD []

def text (l : Literal) : List Char := l.whole ++ (l.fractionText ++ l.exponentText)

def decimal (l : Literal) : Decimal :=
  .ofDigits l.whole (l.fraction.getD []) (l.exponent.getD 0)

theorem startsPlain_exponentText (l : Literal) {rest : List Char} (plain : StartsPlain rest) :
    StartsPlain (l.exponentText ++ rest) := by
  unfold exponentText
  cases l.exponent with
  | none => exact plain
  | some e => exact Decimal.startsPlain_exponentPart style e

theorem startsPlain_afterWhole (l : Literal) {rest : List Char} (plain : StartsPlain rest) :
    StartsPlain (l.fractionText ++ (l.exponentText ++ rest)) := by
  unfold fractionText
  cases l.fraction with
  | none => exact l.startsPlain_exponentText plain
  | some ds =>
    rintro c ⟨⟩
    decide

theorem exponentText_head (l : Literal) {rest : List Char} (pointless : rest.head? ≠ some '.') :
    (l.exponentText ++ rest).head? ≠ some '.' := by
  unfold exponentText
  cases l.exponent with
  | none => exact pointless
  | some e => exact nofun

theorem head_text (l : Literal) : ∃ c tail, l.text = c :: tail ∧ c.isDigit = true :=
  Decimal.head_digits l.whole_digits l.whole_ne_nil (l.fractionText ++ l.exponentText)

theorem parse?_text (l : Literal) : Decimal.parse? l.text = some l.decimal := by
  have scale : Decimal.scale? l.exponentText = some (l.exponent.getD 0) := by
    unfold exponentText
    cases l.exponent with
    | none => rfl
    | some e => exact Decimal.scale?_exponentPart style e
  have plain := l.startsPlain_exponentText Decimal.startsPlain_nil
  have pointless : (l.exponentText ++ []).head? ≠ some '.' := l.exponentText_head nofun
  rw [List.append_nil] at plain pointless
  unfold text decimal fractionText
  cases fraction : l.fraction with
  | none =>
    refine (Decimal.parse?_whole l.whole_digits l.whole_ne_nil plain pointless).trans ?_
    rw [scale]
    rfl
  | some ds =>
    obtain ⟨digits, _⟩ := l.fraction_digits ds fraction
    have shown := List.append_ne_nil_of_left_ne_nil l.whole_ne_nil ds
    refine (Decimal.parse?_point l.whole_digits shown digits plain).trans ?_
    rw [scale]
    rfl

end Literal

/-! ## Reading -/

section
variable {rest : List Char}

theorem Ends.startsPlain (ends : Ends rest) : StartsPlain rest := by
  have plain : [',', ':', ']', '\x7d'].all (!·.isDigit) = true := rfl
  exact fun c h => by simpa using List.all_eq_true.1 plain c (ends c h)

theorem Ends.head_ne (ends : Ends rest) {c : Char} (other : c ∉ [',', ':', ']', '\x7d']) :
    rest.head? ≠ some c := fun h => other (ends c h)

end

namespace Reader

section
variable {ds rest : List Char}

theorem someDigits_append (digits : ds.all Char.isDigit = true) (nonempty : ds ≠ [])
    (plain : StartsPlain rest) : someDigits (ds ++ rest) = .ok (ds, rest) := by
  have run : Reader.digits (ds ++ rest) = .ok (ds, rest) := by
    rw [Reader.digits, Decimal.takeWhile_digits digits plain, Decimal.dropWhile_digits digits plain]
  rw [someDigits, bind_apply run]
  split
  · exact absurd rfl nonempty
  · rfl

theorem wholePart_append (l : Literal) (plain : StartsPlain rest) :
    wholePart (l.whole ++ rest) = .ok (l.whole, rest) := by
  rw [wholePart, bind_apply (someDigits_append l.whole_digits l.whole_ne_nil plain)]
  refine congrFun (?_ : _ = (pure l.whole : Reader (List Char))) rest
  split
  · rename_i d tail padded
    exact absurd padded (l.unpadded d tail)
  · rfl

theorem fractionPart_append (l : Literal) (plain : StartsPlain rest)
    (pointless : rest.head? ≠ some '.') :
    fractionPart (l.fractionText ++ rest) = .ok (l.fraction, rest) := by
  unfold Literal.fractionText
  cases fraction : l.fraction with
  | none =>
    change fractionPart rest = .ok (none, rest)
    rw [fractionPart, bind_apply (peek_apply rest)]
    refine congrFun (?_ : _ = (pure none : Reader (Option (List Char)))) rest
    split
    · rename_i point
      exact absurd point pointless
    · rfl
  | some ds =>
    obtain ⟨digits, nonempty⟩ := l.fraction_digits ds fraction
    change fractionPart ('.' :: (ds ++ rest)) = _
    rw [fractionPart, bind_apply (peek_apply _)]
    exact map_apply (someDigits_append digits nonempty plain) some

theorem risingExponent_append {n : Nat} (le : n ≤ maxExponent) (plain : StartsPlain rest)
    (isZero : Bool) : risingExponent isZero (digitsOf n ++ rest) = .ok ((n : Int), rest) := by
  have value := Decimal.valueOf_digitsOf n
  have near : beyond? maxExponent 0 (digitsOf n) = none :=
    (beyond?_eq_none_iff (digitsOf n) (Nat.zero_le _)).2 (Nat.le_trans (Nat.le_of_eq value) le)
  rw [risingExponent, bind_apply (someDigits_append (Decimal.all_digitsOf n)
    (Decimal.digitsOf_ne_nil n) plain), near, ite_self, value]
  rfl

theorem exponentPart_append (l : Literal) (ends : Ends rest) (isZero : Bool) :
    exponentPart isZero (l.exponentText ++ rest) = .ok (l.exponent, rest) := by
  have plain := ends.startsPlain
  unfold Literal.exponentText
  cases exponent : l.exponent with
  | none =>
    change exponentPart isZero rest = .ok (none, rest)
    rw [exponentPart, bind_apply (peek_apply rest)]
    refine congrFun (?_ : _ = (pure none : Reader (Option Int))) rest
    split
    · rename_i mark
      exact absurd mark (ends.head_ne (by decide))
    · rename_i mark
      exact absurd mark (ends.head_ne (by decide))
    · rfl
  | some e =>
    have le := l.exponent_le e exponent
    by_cases negative : e < 0
    · have text : style.exponentPart e = 'e' :: '-' :: digitsOf e.natAbs := by
        rw [Decimal.Style.exponentPart, if_pos negative]
        rfl
      have run := someDigits_append (Decimal.all_digitsOf e.natAbs)
        (Decimal.digitsOf_ne_nil e.natAbs) plain
      have size : -((e.natAbs : Nat) : Int) = e := by omega
      change exponentPart isZero (style.exponentPart e ++ rest) = _
      rw [text, exponentPart]
      refine (map_apply run fun ds => some (-(valueOf ds : Int))).trans ?_
      rw [Decimal.valueOf_digitsOf, size]
    · have text : style.exponentPart e = 'e' :: '+' :: digitsOf e.natAbs := by
        rw [Decimal.Style.exponentPart, if_neg negative]
        rfl
      have size : ((e.natAbs : Nat) : Int) = e := by omega
      have run := risingExponent_append (n := e.natAbs) (by omega) plain isZero
      change exponentPart isZero (style.exponentPart e ++ rest) = _
      rw [text, exponentPart]
      refine (map_apply run some).trans ?_
      rw [size]

theorem minus_append (s : UnpackedFloat.Sign) {c : Char} (digit : c.isDigit = true) (rest : List Char) :
    minus (signText s ++ c :: rest) = .ok (s == .negative, c :: rest) := by
  cases s with
  | negative => rfl
  | positive =>
    change minus (c :: rest) = .ok (false, c :: rest)
    rw [minus, bind_apply (peek_apply _)]
    refine congrFun (?_ : _ = (pure false : Reader Bool)) _
    split
    · rename_i shape
      cases shape
      exact absurd digit (by decide)
    · rfl

end

/-- Reading is correctly rounded: a literal that is no integer gives the value nearest to its
decimal. -/
theorem rounds_ofDecimal (isNegative : Bool) (d : Decimal) :
    Binary.Rounds (if isNegative then .negative else .positive) d.toRat
      (Number.ofDecimal isNegative d).toFloat := by
  cases isNegative with
  | true => exact d.rounds_toFloat.neg
  | false => exact d.rounds_toFloat

theorem number_append (s : UnpackedFloat.Sign) (l : Literal) {rest : List Char} (ends : Ends rest)
    (finite : (signed s l.decimal.toFloat).isInf = false) :
    number (signText s ++ (l.text ++ rest)) =
      .ok (.float (signed s l.decimal.toFloat), rest) := by
  have plain := ends.startsPlain
  have afterFraction := l.startsPlain_exponentText plain
  have afterWhole := l.startsPlain_afterWhole plain
  have pointless := l.exponentText_head (ends.head_ne (c := '.') (by decide))
  obtain ⟨c, tail, shape, digit⟩ := l.head_text
  have sign := minus_append s digit (tail ++ rest)
  rw [← List.cons_append, ← shape] at sign
  rw [number, bind_apply sign, Literal.text, List.append_assoc, List.append_assoc,
    bind_apply (wholePart_append l afterWhole),
    bind_apply (fractionPart_append l afterFraction pointless),
    bind_apply (exponentPart_append l ends _)]
  refine congrFun (?_ : _ = (pure (.float (signed s l.decimal.toFloat)) : Reader Number)) rest
  have value : Number.ofDecimal (s == .negative) l.decimal = .float (signed s l.decimal.toFloat) := by
    cases s <;> rfl
  have unmarked := l.marked
  split
  · rename_i none none'
    rw [none, none'] at unmarked
    cases unmarked
  · rw [← Literal.decimal]
    simp only [value, Number.toFloat, finite, Bool.false_eq_true, if_false]

end Reader

/-! ## Writing -/

theorem exists_literal_of_pointed {whole after : List Char} (digits : whole.all Char.isDigit = true)
    (nonempty : whole ≠ []) (unpadded : ∀ d tail, whole ≠ '0' :: d :: tail)
    (more : after.all Char.isDigit = true) (shown : after ≠ []) :
    ∃ l : Literal, whole ++ '.' :: after = l.text := by
  refine ⟨⟨whole, some after, none, digits, nonempty, unpadded, ?_, rfl, nofun⟩, ?_⟩
  · rintro _ ⟨⟩
    exact ⟨more, shown⟩
  · simp [Literal.text, Literal.fractionText, Literal.exponentText]

theorem unpadded_of_head {ds : List Char} (first : ds.head? ≠ some '0') (d : Char)
    (tail : List Char) : ds ≠ '0' :: d :: tail := by
  rintro rfl
  exact first rfl

theorem unpadded_zero (d : Char) (tail : List Char) : ['0'] ≠ '0' :: d :: tail := by
  rintro ⟨⟩

section
variable {n : Nat} {e : Int}

theorem exists_literal_of_positional (pos : 0 < n) (e : Int) :
    ∃ l : Literal, Decimal.positional (digitsOf n) e = l.text := by
  have digits := Decimal.all_digitsOf n
  have nonempty := Decimal.digitsOf_ne_nil n
  have first := Decimal.head_digitsOf_ne_zero pos
  simp only [Decimal.positional]
  split
  · have whole : (digitsOf n ++ List.replicate e.toNat '0').all Char.isDigit = true := by
      rw [List.all_append, digits, Decimal.all_zeros]
      rfl
    have start : (digitsOf n ++ List.replicate e.toNat '0').head? ≠ some '0' := by
      rw [List.head?_append_of_ne_nil _ nonempty]
      exact first
    exact exists_literal_of_pointed whole (List.append_ne_nil_of_left_ne_nil nonempty _)
      (unpadded_of_head start) rfl (List.cons_ne_nil _ _)
  · rename_i fraction
    split
    · rename_i within
      have taken (c : Char) (h : c ∈ (digitsOf n).take (e + (digitsOf n).length).toNat) :=
        List.all_eq_true.1 digits c (List.mem_of_mem_take h)
      have dropped (c : Char) (h : c ∈ (digitsOf n).drop (e + (digitsOf n).length).toNat) :=
        List.all_eq_true.1 digits c (List.mem_of_mem_drop h)
      have some : (e + (digitsOf n).length).toNat ≠ 0 := by omega
      have start : ((digitsOf n).take (e + (digitsOf n).length).toNat).head? ≠ .some '0' := by
        rw [List.head?_take, if_neg some]
        exact first
      refine exists_literal_of_pointed (List.all_eq_true.2 taken) ?_ (unpadded_of_head start)
        (List.all_eq_true.2 dropped) ?_
      · simp [nonempty, some]
      · rw [ne_eq, List.drop_eq_nil_iff]
        omega
    · refine exists_literal_of_pointed (rfl : ['0'].all Char.isDigit = true) (List.cons_ne_nil _ _)
        unpadded_zero ?_ ?_
      · rw [List.all_append, digits, Decimal.all_zeros]
        rfl
      · simp [nonempty]

theorem exists_literal_of_scientific (pos : 0 < n) (near : e ≤ Reader.maxExponent) :
    ∃ l : Literal, style.scientific (digitsOf n) e = l.text := by
  have digits := Decimal.all_digitsOf n
  have nonempty := Decimal.digitsOf_ne_nil n
  have start := Decimal.head_digitsOf_ne_zero pos
  revert digits nonempty start
  generalize digitsOf n = ds
  intro digits nonempty start
  have first : ∀ e' ∈ some e, e' ≤ (Reader.maxExponent : Int) := by
    rintro _ ⟨⟩
    exact near
  match ds with
  | [] => exact absurd rfl nonempty
  | [c] =>
    refine ⟨⟨[c], none, some e, digits, nonempty, unpadded_of_head start, nofun, rfl, first⟩, ?_⟩
    rfl
  | c :: c' :: more =>
    rw [List.all_cons, Bool.and_eq_true] at digits
    refine ⟨⟨[c], some (c' :: more), some e, ?_, List.cons_ne_nil _ _, nofun, ?_, rfl, first⟩, ?_⟩
    · simpa using digits.1
    · rintro _ ⟨⟩
      exact ⟨digits.2, List.cons_ne_nil _ _⟩
    · rfl

end

theorem exists_literal_of_layout {d : Decimal} (pos : 0 < d.digits) (near : d.leading ≤ 2000) :
    ∃ l : Literal, style.layout d = l.text := by
  have reach : (2000 : Int) ≤ Reader.maxExponent := by decide
  unfold Decimal.Style.layout
  dsimp only
  split
  · exact exists_literal_of_positional pos d.exponent
  · exact exists_literal_of_scientific pos (Int.le_trans near reach)

theorem exists_literal_of_magnitude {m : Nat} {q : Int} (h : Binary.Canonical m q) :
    ∃ l : Literal, style.magnitude m q = l.text := by
  obtain ⟨d, short, text⟩ := Decimal.magnitude_eq_layout style h
  rw [text]
  exact exists_literal_of_layout (Decimal.toRat_pos_iff.1 (Decimal.toRat_pos_of_shortest? h short))
    (Decimal.leading_shortest?_le h short)

/-! ## Values -/

/-- Zeros are written alike on the display and in documents. Other finite values differ in
style only, and any style reads back. -/
theorem readChars?_numberChars? {x : Float} {text : List Char} (h : numberChars? x = some text) :
    Numeral.readChars? text = some x := by
  unfold numberChars? at h
  split at h
  · cases h
  · cases h
  · rename_i s fields
    cases h
    cases s with
    | positive => exact congrArg some (Binary.eq_of_unpack fields.symm)
    | negative => exact congrArg some (Binary.eq_of_unpack fields.symm)
  · rename_i fields
    cases h
    exact Numeral.readChars?_finite style fields

theorem isSome_numberChars? (x : Float) : (numberChars? x).isSome = x.isFinite := by
  change _ = x.toModel.unpack.isFinite
  unfold numberChars?
  split <;> rename_i fields <;> rw [fields] <;> rfl

theorem exists_numberChars? {x : Float} (finite : x.isFinite = true) :
    ∃ text, numberChars? x = some text :=
  Option.isSome_iff_exists.1 ((isSome_numberChars? x).trans finite)

theorem exists_literal_of_numberChars? {x : Float} {text : List Char}
    (h : numberChars? x = some text) :
    ∃ s, ∃ l : Literal, text = signText s ++ l.text ∧ signed s l.decimal.toFloat = x := by
  have read := readChars?_numberChars? h
  obtain ⟨s, l, rfl⟩ : ∃ s, ∃ l : Literal, text = signText s ++ l.text := by
    unfold numberChars? at h
    split at h
    · cases h
    · cases h
    · rename_i s fields
      cases h
      obtain ⟨l, zero⟩ := exists_literal_of_pointed (rfl : ['0'].all Char.isDigit = true)
        (List.cons_ne_nil _ _) unpadded_zero (rfl : ['0'].all Char.isDigit = true) (List.cons_ne_nil _ _)
      exact ⟨s, l, congrArg (signText s ++ ·) zero⟩
    · rename_i s m q pos fields
      cases h
      obtain ⟨l, magnitude⟩ := exists_literal_of_magnitude (Binary.canonical_of_toModel fields)
      exact ⟨s, l, congrArg (signText s ++ ·) magnitude⟩
  obtain ⟨c, tail, shape, digit⟩ := l.head_text
  have parsed := l.parse?_text
  rw [shape] at read parsed
  rw [Numeral.readChars?_signText s digit, Numeral.readChars?_digit digit, parsed] at read
  exact ⟨s, l, rfl, Option.some.inj read⟩

theorem isInf_of_numberChars? {x : Float} {text : List Char} (h : numberChars? x = some text) :
    x.isInf = false := by
  change x.toModel.unpack.isInf = false
  unfold numberChars? at h
  split at h
  · cases h
  · cases h
  · rename_i fields
    rw [fields]
    rfl
  · rename_i fields
    rw [fields]
    rfl

theorem Reads.number {x : Float} {text : List Char} (h : numberChars? x = some text) :
    Reads Reader.number text (.float x) := by
  have finite := isInf_of_numberChars? h
  obtain ⟨s, l, rfl, rfl⟩ := exists_literal_of_numberChars? h
  intro rest ends
  rw [List.append_assoc]
  exact Reader.number_append s l ends finite

/-! ## Values that are read from numbers or names -/

section
open Reader
variable {x : Float} {text : List Char}

theorem Reader.Opens.of_digit {c : Char} (digit : c.isDigit = true) (rest : List Char) :
    Opens (c :: rest) .number := by
  have other {d : Char} (h : d.isDigit = false) : c ≠ d := by
    rintro rfl
    rw [digit] at h
    cases h
  refine ⟨c, rest, rfl, ?_, ?_⟩
  · simp only [isBlank, Bool.or_eq_false_iff, beq_eq_false_iff_ne]
    exact ⟨⟨⟨other rfl, other rfl⟩, other rfl⟩, other rfl⟩
  · rw [Start.of, digit, Bool.or_true, if_pos rfl]
    all_goals exact other rfl

theorem opens_number (h : numberChars? x = some text) : Opens text .number := by
  obtain ⟨s, l, rfl, _⟩ := exists_literal_of_numberChars? h
  obtain ⟨c, tail, shape, digit⟩ := l.head_text
  rw [shape]
  cases s with
  | positive => exact .of_digit digit tail
  | negative => exact ⟨'-', _, rfl, by decide, rfl⟩

theorem Reads.plainFloat (finite : x.isFinite = true) : Reads Reader.plainFloat (Json.number x) x := by
  obtain ⟨text, written⟩ := exists_numberChars? finite
  rw [Json.number, written]
  exact .of_opens (opens_number written) fun rest ends => bind_apply (Reads.number written rest ends) _

/-- A value that is not finite is written as null, which is no number. -/
theorem Refuses.plainFloat (infinite : x.isFinite = false) :
    Refuses Reader.plainFloat (Json.number x) (.mismatch (.invalidType .null "f64")) := by
  rw [← isSome_numberChars?, Option.isSome_eq_false_iff, Option.isNone_iff_eq_none] at infinite
  rw [Json.number, infinite]
  exact .of_opens opens_null (.null "f64")

theorem number_eq_null_iff : Json.number x = Json.null ↔ x.isFinite = false := by
  rw [← isSome_numberChars?, Option.isSome_eq_false_iff, Option.isNone_iff_eq_none]
  constructor
  · intro same
    cases written : numberChars? x with
    | none => rfl
    | some text =>
      rw [Json.number, written, Option.getD_some] at same
      obtain ⟨c, rest, shape, _, kind⟩ := opens_number written
      cases same.symm.trans shape
      cases kind
  · intro none
    rw [Json.number, none, Option.getD_none]

theorem eq_of_nonFiniteName (h : numberChars? x = none) :
    x = 0.0 / 0.0 ∧ nonFiniteName x = "NaN" ∨ x = 1.0 / 0.0 ∧ nonFiniteName x = "inf" ∨
      x = -(1.0 / 0.0) ∧ nonFiniteName x = "-inf" := by
  unfold numberChars? at h
  split at h
  · rename_i fields
    obtain rfl : x = 0.0 / 0.0 := Binary.eq_of_unpack fields
    exact .inl ⟨rfl, rfl⟩
  · rename_i s fields
    cases s with
    | positive =>
      obtain rfl : x = 1.0 / 0.0 := Binary.eq_of_unpack fields
      exact .inr (.inl ⟨rfl, rfl⟩)
    | negative =>
      obtain rfl : x = -(1.0 / 0.0) := Binary.eq_of_unpack fields
      exact .inr (.inr ⟨rfl, rfl⟩)
  · cases h
  · cases h

theorem scalar_number {fuel : Nat} (h : numberChars? x = some text) (depth : Nat) :
    Reads (scalar (fuel + 1) depth) text (.number x) :=
  .of_opens (opens_number h) fun rest ends => bind_apply (Reads.number h rest ends) _

theorem scalar_string {fuel : Nat} (t : String) (depth : Nat) :
    Reads (scalar (fuel + 1) depth) (Json.string t) (.string t) :=
  .of_opens (opens_string t) fun rest _ => bind_apply (string_append t rest) _

theorem opens_float (x : Float) : ∃ kind, kind ≠ .null ∧ Opens (Json.float x) kind := by
  unfold Json.float
  cases written : numberChars? x with
  | some text => exact ⟨.number, nofun, opens_number written⟩
  | none => exact ⟨.string, nofun, opens_string _⟩

/-- A value that may be finite or not is read back from its number or its name. -/
theorem Reads.float (x : Float) (depth : Nat) : Reads (Reader.float depth) (Json.float x) x := by
  intro rest ends
  rw [Reader.float, bind_apply (rounds_apply _)]
  unfold Json.float
  cases written : numberChars? x with
  | some text => exact bind_apply (scalar_number written depth rest ends) _
  | none =>
    rcases eq_of_nonFiniteName written with ⟨rfl, name⟩ | ⟨rfl, name⟩ | ⟨rfl, name⟩
    all_goals
      rw [name]
      exact bind_apply (scalar_string _ depth rest ends) _

end

end Keytape.Json
