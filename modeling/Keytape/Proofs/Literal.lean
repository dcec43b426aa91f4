import Keytape.Proofs.Decimal.Grammar
import Keytape.Proofs.Decimal.Nearest
import Keytape.Proofs.Numeral

/-! The grammar of numerals.

Behind a sign, a numeral is a decimal or the name of a value that is not finite. Main statement:
the numerals that are read are those of the grammar, and each is read as the value it denotes,
the nearest to its decimal.
-/

set_option autoImplicit false

namespace Keytape

open Float.Model Float.Model.UnpackedFloat Binary

namespace Numeral

open Decimal (IsSign IsText)

/-- What a text without a sign denotes under one. Names are written in any case, and numbers
that are rounded to zero keep the sign. -/
inductive IsValue (s : Sign) : List Char → Float → Prop where
  | decimal {cs : List Char} {d : Decimal} {x : Float} :
      IsText cs d → Rounds s d.toRat x → IsValue s cs x
  | infinity {cs : List Char} : cs.map Char.toLower ∈ ["inf".toList, "infinity".toList] →
      IsValue s cs (ofFields (.infinity s))
  | notANumber {cs : List Char} : cs.map Char.toLower = "nan".toList →
      IsValue s cs (ofFields .notANumber)

def Denotes (cs : List Char) (x : Float) : Prop :=
  ∃ sign text s, cs = sign ++ text ∧ IsSign sign s ∧ IsValue s text x

variable {cs : List Char} {s : Sign} {x : Float}

/-! ## Without a sign -/

theorem head_isText {d : Decimal} (text : IsText cs d) :
    ∃ c rest, cs = c :: rest ∧ (c.isDigit = true ∨ c = '.') := by
  cases text with
  | whole digits some _ =>
    obtain ⟨c, rest, shape, digit⟩ := Decimal.head_digits digits some _
    exact ⟨c, rest, shape, .inl digit⟩
  | @pointed before after tail _ digits _ _ _ =>
    cases before with
    | nil => exact ⟨'.', _, rfl, .inr rfl⟩
    | cons c rest =>
      rw [List.all_cons, Bool.and_eq_true] at digits
      exact ⟨c, _, rfl, .inl digits.1⟩

theorem named?_isText {d : Decimal} (text : IsText cs d) : named? cs = none := by
  obtain ⟨c, rest, rfl, digit | rfl⟩ := head_isText text
  · exact named?_digit digit rest
  · simp [named?]

theorem named?_infinity (named : cs.map Char.toLower ∈ ["inf".toList, "infinity".toList]) :
    named? cs = some (ofFields (.infinity .positive)) :=
  if_pos (by simpa using named)

theorem named?_notANumber (named : cs.map Char.toLower = "nan".toList) :
    named? cs = some (ofFields .notANumber) := by
  rw [named?, named]
  rfl

theorem isValue_of_named? (named : named? cs = some x) : IsValue .positive cs x := by
  unfold named? at named
  dsimp only at named
  split at named
  · rename_i infinite
    cases named
    exact .infinity (by simpa using infinite)
  · split at named
    · rename_i unnumbered
      cases named
      exact .notANumber unnumbered
    · cases named

theorem unsigned?_eq_some_iff : unsigned? cs = some x ↔ IsValue .positive cs x := by
  rw [unsigned?, Option.or_eq_some_iff, Option.map_eq_some_iff]
  constructor
  · rintro (named | ⟨_, d, read, rfl⟩)
    · exact isValue_of_named? named
    · exact .decimal (Decimal.parse?_eq_some_iff.1 read) d.rounds_toFloat
  · intro value
    cases value with
    | decimal text rounds =>
      exact .inr ⟨named?_isText text, _, Decimal.parse?_eq_some_iff.2 text,
        (Decimal.rounds_toFloat _).eq rounds⟩
    | infinity named => exact .inl (named?_infinity named)
    | notANumber named => exact .inl (named?_notANumber named)

/-! ## Under a sign -/

theorem IsValue.neg (value : IsValue s cs x) : IsValue (-s) cs x.neg := by
  cases value with
  | decimal text rounds => exact .decimal text rounds.neg
  | infinity named =>
    have fields : (ofFields (.infinity s)).neg = ofFields (.infinity (-s)) := by cases s <;> rfl
    rw [fields]
    exact .infinity named
  | notANumber named => exact .notANumber named

theorem neg_neg (x : Float) : x.neg.neg = x := by
  refine eq_of_unpack ?_
  rw [unpack_neg, unpack_neg]
  cases x.toModel.unpack with
  | notANumber => rfl
  | infinity s => cases s <;> rfl
  | zero s => cases s <;> rfl
  | finite s m q pos => cases s <;> rfl

theorem isValue_negative_iff : IsValue .negative cs x ↔ ∃ y, IsValue .positive cs y ∧ y.neg = x :=
  ⟨fun value => ⟨x.neg, value.neg, neg_neg x⟩, fun ⟨_, value, same⟩ => same ▸ value.neg⟩

theorem IsValue.not_sign {c : Char} {rest : List Char} (value : IsValue s (c :: rest) x) :
    c ≠ '-' ∧ c ≠ '+' := by
  rw [← not_or]
  intro isSign
  have other : c.isDigit = false ∧ c ≠ '.' ∧ c.toLower ≠ 'i' ∧ c.toLower ≠ 'n' := by
    rcases isSign with rfl | rfl <;> decide
  cases value with
  | decimal text _ =>
    obtain ⟨_, _, shape, digit | point⟩ := head_isText text
    · cases shape
      exact absurd digit (by rw [other.1]; exact Bool.false_ne_true)
    · cases shape
      exact other.2.1 point
  | infinity named => simp [other.2.2.1] at named
  | notANumber named => simp [other.2.2.2] at named

theorem readChars?_of_isValue (value : IsValue .positive cs x) : readChars? cs = some x := by
  rw [← unsigned?_eq_some_iff.2 value]
  unfold readChars?
  split
  · exact absurd rfl value.not_sign.1
  · exact absurd rfl value.not_sign.2
  · rfl

theorem readChars?_eq_some_iff : readChars? cs = some x ↔ Denotes cs x := by
  constructor
  · intro read
    unfold readChars? at read
    split at read
    · obtain ⟨y, unsigned, rfl⟩ := Option.map_eq_some_iff.1 read
      exact ⟨['-'], _, .negative, rfl, .minus, (unsigned?_eq_some_iff.1 unsigned).neg⟩
    · exact ⟨['+'], _, .positive, rfl, .plus, unsigned?_eq_some_iff.1 read⟩
    · exact ⟨[], cs, .positive, rfl, .absent, unsigned?_eq_some_iff.1 read⟩
  · rintro ⟨sign, text, s, rfl, isSign, value⟩
    cases isSign with
    | absent => exact readChars?_of_isValue value
    | plus => exact unsigned?_eq_some_iff.2 value
    | minus =>
      obtain ⟨y, positive, rfl⟩ := isValue_negative_iff.1 value
      exact congrArg (Option.map Float.neg) (unsigned?_eq_some_iff.2 positive)

end Numeral

end Keytape
