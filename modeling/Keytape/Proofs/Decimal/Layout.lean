import Keytape.Decimal.Parse
import Keytape.Decimal.Style

/-! Reading a decimal back from its text.

Whatever the style, the text of a decimal reads as a decimal of the same value. Positional
writing may add zeros, so digits and exponent need not be the same.
-/

set_option autoImplicit false

namespace Keytape.Decimal

/-! ## Digits -/

theorem valueOf_eq (ds : List Char) : valueOf ds = Nat.ofDigitChars 10 ds 0 := rfl

theorem valueOf_digitsOf (n : Nat) : valueOf (digitsOf n) = n := Nat.ofDigitChars_ten_toDigits

theorem valueOf_append_zeros (ds : List Char) (n : Nat) :
    valueOf (ds ++ List.replicate n '0') = valueOf ds * 10 ^ n := by
  rw [valueOf_eq, Nat.ofDigitChars_append, Nat.ofDigitChars_replicate_zero, Nat.mul_comm]
  rfl

theorem valueOf_zeros_append (n : Nat) (ds : List Char) :
    valueOf (List.replicate n '0' ++ ds) = valueOf ds := by
  rw [valueOf_eq, Nat.ofDigitChars_append, Nat.ofDigitChars_replicate_zero, Nat.mul_zero]
  rfl

theorem all_digitsOf (n : Nat) : (digitsOf n).all Char.isDigit = true :=
  List.all_eq_true.2 fun _ => Nat.isDigit_of_mem_toDigits (by decide) (by decide)

theorem digitsOf_ne_nil (n : Nat) : digitsOf n ≠ [] := Nat.toDigits_ne_nil

theorem natural?_digitsOf (n : Nat) : natural? (digitsOf n) = some n := by
  rw [natural?, all_digitsOf, valueOf_digitsOf]
  simp [digitsOf_ne_nil]

/-! ## Exponents -/

theorem head_digitsOf_isDigit {n : Nat} {c : Char} {rest : List Char} (h : digitsOf n = c :: rest) :
    c.isDigit = true := by
  have all := all_digitsOf n
  rw [h, List.all_cons, Bool.and_eq_true] at all
  exact all.1

theorem exponent?_digitsOf (n : Nat) : exponent? (digitsOf n) = some (n : Int) := by
  have natural := natural?_digitsOf n
  unfold exponent?
  split
  · rename_i shape
    exact absurd (head_digitsOf_isDigit shape) (by decide)
  · rename_i shape
    exact absurd (head_digitsOf_isDigit shape) (by decide)
  · rw [natural]
    rfl

theorem scale?_exponentPart (style : Style) (e : Int) : scale? (style.exponentPart e) = some e := by
  simp only [Style.exponentPart, scale?, beq_self_eq_true, Bool.true_or, if_true]
  split
  · rename_i negative
    simp only [List.singleton_append, exponent?, natural?_digitsOf]
    change some (-(e.natAbs : Int)) = some e
    rw [Int.ofNat_natAbs_of_nonpos (by omega), Int.neg_neg]
  · rename_i positive
    have size : ((e.natAbs : Nat) : Int) = e := by omega
    split
    · simp only [List.singleton_append, exponent?, natural?_digitsOf]
      change some (e.natAbs : Int) = some e
      rw [size]
    · rw [List.nil_append, exponent?_digitsOf, size]

/-! ## Runs of digits -/

/-- A text that no digit starts, so that digits before it end there. -/
def StartsPlain (tail : List Char) : Prop := ∀ c ∈ tail.head?, c.isDigit = false

section
variable {ds tail : List Char}

theorem takeWhile_plain (plain : StartsPlain tail) : tail.takeWhile Char.isDigit = [] := by
  cases tail with
  | nil => rfl
  | cons c rest => rw [List.takeWhile_cons, plain c rfl, if_neg Bool.false_ne_true]

theorem dropWhile_plain (plain : StartsPlain tail) : tail.dropWhile Char.isDigit = tail := by
  cases tail with
  | nil => rfl
  | cons c rest => rw [List.dropWhile_cons, plain c rfl, if_neg Bool.false_ne_true]

theorem takeWhile_digits (digits : ds.all Char.isDigit = true) (plain : StartsPlain tail) :
    (ds ++ tail).takeWhile Char.isDigit = ds := by
  rw [List.takeWhile_append_of_pos (List.all_eq_true.1 digits), takeWhile_plain plain,
    List.append_nil]

theorem dropWhile_digits (digits : ds.all Char.isDigit = true) (plain : StartsPlain tail) :
    (ds ++ tail).dropWhile Char.isDigit = tail := by
  rw [List.dropWhile_append_of_pos (List.all_eq_true.1 digits), dropWhile_plain plain]

end

theorem startsPlain_exponentPart (style : Style) (e : Int) :
    StartsPlain (style.exponentPart e) := by
  rintro c ⟨⟩
  decide

theorem startsPlain_nil : StartsPlain [] := by
  rintro c ⟨⟩

theorem startsPlain_cons {c : Char} (other : c.isDigit = false) (rest : List Char) :
    StartsPlain (c :: rest) := by
  rintro _ ⟨⟩
  exact other

theorem parse?_whole {whole tail : List Char} (digits : whole.all Char.isDigit = true)
    (nonempty : whole ≠ []) (plain : StartsPlain tail) (pointless : tail.head? ≠ some '.') :
    parse? (whole ++ tail) = (scale? tail).map (ofDigits whole []) := by
  have shown : whole.isEmpty = false := by simpa using nonempty
  have none : fraction tail = ([], tail) := by
    unfold fraction
    split
    · exact absurd rfl pointless
    · rfl
  simp only [parse?, takeWhile_digits digits plain, dropWhile_digits digits plain, none, shown,
    Bool.false_and, Bool.false_eq_true, if_false]

theorem parse?_point {whole after tail : List Char} (digits : whole.all Char.isDigit = true)
    (nonempty : whole ++ after ≠ []) (more : after.all Char.isDigit = true)
    (plain : StartsPlain tail) :
    parse? (whole ++ '.' :: (after ++ tail)) = (scale? tail).map (ofDigits whole after) := by
  have point : StartsPlain ('.' :: (after ++ tail)) := by
    rintro c ⟨⟩
    decide
  have shown : (whole.isEmpty && after.isEmpty) = false := by simpa using nonempty
  simp only [parse?, takeWhile_digits digits point, dropWhile_digits digits point, fraction,
    takeWhile_digits more plain, dropWhile_digits more plain, shown, Bool.false_eq_true, if_false]

/-! ## Texts of a style -/

/-- The same number, perhaps with more zeros at the end. -/
def Padded (d d' : Decimal) : Prop := ∃ n : Nat, d' = ⟨d.digits * 10 ^ n, d.exponent - n⟩

theorem parse?_pointed {whole after : List Char} (digits : whole.all Char.isDigit = true)
    (nonempty : whole ≠ []) (more : after.all Char.isDigit = true) :
    parse? (whole ++ '.' :: after) = some (ofDigits whole after 0) := by
  have text := parse?_point digits (List.append_ne_nil_of_left_ne_nil nonempty after) more startsPlain_nil
  rw [List.append_nil] at text
  exact text

theorem all_zeros (n : Nat) : (List.replicate n '0').all Char.isDigit = true := by
  simp

theorem parse?_positional_whole (d : Decimal) (whole : 0 ≤ d.exponent) :
    ∃ d', parse? (digitsOf d.digits ++ List.replicate d.exponent.toNat '0' ++ ['.', '0']) =
      some d' ∧ d.Padded d' := by
  have digits : (digitsOf d.digits ++ List.replicate d.exponent.toNat '0').all Char.isDigit := by
    rw [List.all_append, all_digitsOf, all_zeros]
    rfl
  have nonempty : digitsOf d.digits ++ List.replicate d.exponent.toNat '0' ≠ [] := by
    simp [digitsOf_ne_nil]
  refine ⟨_, parse?_pointed digits nonempty (all_zeros 1), d.exponent.toNat + 1, ?_⟩
  have zeros : digitsOf d.digits ++ List.replicate d.exponent.toNat '0' ++ ['0'] =
      digitsOf d.digits ++ List.replicate (d.exponent.toNat + 1) '0' := by
    rw [List.append_assoc, List.replicate_succ']
  rw [ofDigits, zeros, valueOf_append_zeros, valueOf_digitsOf, List.length_singleton]
  congr 1
  omega

theorem parse?_positional_within (d : Decimal) {k : Nat} (pos : 0 < k) (fraction : d.exponent < 0)
    (point : d.exponent + (digitsOf d.digits).length = k) :
    parse? ((digitsOf d.digits).take k ++ '.' :: (digitsOf d.digits).drop k) = some d := by
  have digits := List.all_eq_true.1 (all_digitsOf d.digits)
  have before : ((digitsOf d.digits).take k).all Char.isDigit = true :=
    List.all_eq_true.2 fun c h => digits c (List.mem_of_mem_take h)
  have after : ((digitsOf d.digits).drop k).all Char.isDigit = true :=
    List.all_eq_true.2 fun c h => digits c (List.mem_of_mem_drop h)
  have shown : (digitsOf d.digits).take k ≠ [] := by
    simp [digitsOf_ne_nil, Nat.pos_iff_ne_zero.1 pos]
  rw [parse?_pointed before shown after, ofDigits, List.take_append_drop, valueOf_digitsOf,
    List.length_drop]
  congr 2
  omega

theorem parse?_positional_below (d : Decimal) {k : Nat}
    (point : d.exponent + (digitsOf d.digits).length = -(k : Int)) :
    parse? ('0' :: '.' :: (List.replicate k '0' ++ digitsOf d.digits)) = some d := by
  have after : (List.replicate k '0' ++ digitsOf d.digits).all Char.isDigit = true := by
    rw [List.all_append, all_digitsOf, all_zeros]
    rfl
  have zeros : List.replicate 1 '0' ++ (List.replicate k '0' ++ digitsOf d.digits) =
      List.replicate (k + 1) '0' ++ digitsOf d.digits := rfl
  refine (parse?_pointed (all_zeros 1) (List.cons_ne_nil _ _) after).trans ?_
  rw [ofDigits, zeros, valueOf_zeros_append, valueOf_digitsOf, List.length_append,
    List.length_replicate]
  congr 2
  omega

theorem parse?_positional (d : Decimal) :
    ∃ d', parse? (positional (digitsOf d.digits) d.exponent) = some d' ∧ d.Padded d' := by
  have same : d.Padded d := ⟨0, by simp⟩
  simp only [positional]
  split
  · rename_i whole
    exact parse?_positional_whole d whole
  · rename_i fraction
    split
    · rename_i within
      exact ⟨d, parse?_positional_within d (by omega) (by omega) (by omega), same⟩
    · rename_i below
      exact ⟨d, parse?_positional_below d (by omega), same⟩

theorem parse?_scientific (style : Style) (d : Decimal) :
    parse? (style.scientific (digitsOf d.digits) (d.exponent + (digitsOf d.digits).length - 1)) =
      some d := by
  have digits := all_digitsOf d.digits
  have value := valueOf_digitsOf d.digits
  have nonempty := digitsOf_ne_nil d.digits
  revert digits value nonempty
  generalize digitsOf d.digits = ds
  intro digits value nonempty
  -- A lone digit is written without a point.
  match ds with
  | [] => exact absurd rfl nonempty
  | [c] =>
    refine (parse?_whole digits nonempty (startsPlain_exponentPart style _) nofun).trans ?_
    rw [scale?_exponentPart, Option.map_some, ofDigits, List.append_nil, value]
    simp
  | c :: c' :: rest =>
    rw [List.all_cons, Bool.and_eq_true] at digits
    have first : [c].all Char.isDigit = true := by simpa using digits.1
    refine (parse?_point first (by simp) digits.2 (startsPlain_exponentPart style _)).trans ?_
    rw [scale?_exponentPart, Option.map_some, ofDigits, List.singleton_append, value]
    congr 2
    simp only [List.length_cons]
    omega

theorem parse?_layout (style : Style) (d : Decimal) :
    ∃ d', parse? (style.layout d) = some d' ∧ d.Padded d' := by
  unfold Style.layout
  dsimp only
  split
  · exact parse?_positional d
  · exact ⟨d, parse?_scientific style d, 0, by simp⟩

end Keytape.Decimal
