import Keytape.Proofs.Binary.Arithmetic
import Keytape.Proofs.Decimal.Place

/-! Decimals as values.

Reading a decimal multiplies or divides by a power of ten, and gives up early on exponents far
out. Main statements: whatever its digits and its exponent, a decimal is read as the nearest
value, and the fewest digits of a value are read as the value.
-/

set_option autoImplicit false

namespace Keytape

open Float.Model Float.Model.UnpackedFloat

namespace Binary

/-! ## Rounded magnitudes -/

/-- The sign of a value, if it has one. Zeros have one. -/
def sign? (x : Float) : Option Sign :=
  match x.toModel.unpack with
  | .notANumber => none
  | .infinity s | .zero s | .finite s _ _ _ => some s

/-- The value is the magnitude `v` under the sign `s`, rounded. -/
structure Rounds (s : Sign) (v : ℚ) (x : Float) : Prop where
  sign : sign? x = some s
  number : number? x = some (rounded (signed s v))

section
variable {s : Sign} {v : ℚ} {x y : Float}

theorem unpack_zero (s : Sign) : (ofFields (.zero s)).toModel.unpack = .zero s := by
  cases s <;> rfl

theorem unpack_infinity (s : Sign) : (ofFields (.infinity s)).toModel.unpack = .infinity s := by
  cases s <;> rfl

theorem Placed.sign?_ofFields {m : Nat} {q : Int} (h : Placed m q) (s : Sign) :
    sign? (ofFields (.finite s m q h.pos)) = some s := by
  by_cases greatest : q ≤ 971
  · rw [sign?, unpack_ofFields_finite (h.canonical greatest)]
  · have overflow := pack_overflow s h.pos (Int.not_le.1 greatest)
    have same : ofFields (.finite s m q h.pos) = ofFields (.infinity s) := by
      simp only [ofFields, Float.Model.pack, overflow]
    rw [same, sign?, unpack_infinity]

theorem RoundedFields.rounds {f : UnpackedFloat} (h : RoundedFields s v f) (nonneg : 0 ≤ v) :
    Rounds s v (ofFields f) where
  sign := by
    cases h with
    | zero _ => rw [sign?, unpack_zero]
    | finite placed _ => exact placed.sign?_ofFields s
    | infinity _ => rw [sign?, unpack_infinity]
  number := h.number?_ofFields nonneg

theorem unpack_neg (x : Float) : x.neg.toModel.unpack = x.toModel.unpack.neg := by
  change (ofFields x.toModel.unpack.neg).toModel.unpack = _
  cases fields : x.toModel.unpack with
  | notANumber => rfl
  | infinity s => exact unpack_infinity _
  | zero s => exact unpack_zero _
  | finite s m q pos => exact unpack_ofFields_finite (canonical_of_toModel fields) _

theorem numberOf?_neg (f : UnpackedFloat) : numberOf? f.neg = (numberOf? f).map Neg.neg := by
  cases f with
  | notANumber => rfl
  | infinity s => exact congrArg some (signed_neg s _)
  | zero s => exact congrArg some neg_zero.symm
  | finite s m q pos => exact congrArg some (signed_neg s _)

theorem Rounds.neg (h : Rounds s v x) : Rounds (-s) v x.neg where
  sign := by
    have sign := h.sign
    unfold sign? at sign ⊢
    rw [unpack_neg]
    cases fields : x.toModel.unpack <;> rw [fields] at sign <;> cases sign <;> rfl
  number := by
    have number : numberOf? x.toModel.unpack = some (rounded (signed s v)) := h.number
    rw [number?, unpack_neg, numberOf?_neg, number, Option.map_some, signed_neg, rounded_neg]

theorem Rounds.eq (hx : Rounds s v x) (hy : Rounds s v y) : x = y := by
  have compared : x.toModel.unpack.beq y.toModel.unpack = true := (beq_iff hx.number hy.number).2 rfl
  have signs : sign? x = sign? y := hx.sign.trans hy.sign.symm
  unfold sign? at signs
  -- Numeric equality confuses the zeros, which differ in sign.
  obtain ⟨_, _, equal | ⟨left, right⟩ | ⟨left, right⟩⟩ := (beq_iff_ne_notANumber_and_eq _ _).1 compared
  · exact eq_of_unpack equal
  · rw [left, right] at signs
    cases signs
  · rw [left, right] at signs
    cases signs

/-! ## Magnitudes far out -/

theorem limit_le_nearest (large : limit ≤ v) : limit ≤ nearest v := by
  have top : nearest limit = limit := nearest_two_zpow (by decide)
  rw [← top]
  exact nearest_le_nearest limit_pos.le large

theorem nearest_eq_zero (nonneg : 0 ≤ v) (small : v < 2 ^ (-1075 : Int)) : nearest v = 0 := by
  rcases nonneg.eq_or_lt with rfl | pos
  · exact nearest_zero
  · have log : Int.log 2 v < -1075 := (Int.lt_zpow_iff_log_lt (by decide) pos).1 small
    have place : lastPlace v = -1074 := by
      unfold lastPlace
      omega
    have step : (2 : ℚ) ^ (-1075 : Int) = 1 / 2 * 2 ^ (-1074 : Int) := by
      rw [show (-1075 : Int) = -1 + -1074 from rfl, zpow_add₀ (by decide)]
      norm_num
    have half : v / 2 ^ (-1074 : Int) < 1 / 2 := by
      rw [div_lt_iff₀ (by positivity), ← step]
      exact small
    have floor : ⌊v / 2 ^ (-1074 : Int)⌋₊ = 0 := Nat.floor_eq_zero.2 (half.trans (by norm_num))
    have whole : halfEven (v / 2 ^ (-1074 : Int)) = 0 := by
      rw [halfEven, floor]
      exact if_pos (by simpa using half)
    rw [nearest, place, whole, Nat.cast_zero, zero_mul]

end

end Binary

/-! ## Reading -/

namespace Decimal

open Binary

variable {d : Decimal}

theorem toRat_nonneg (d : Decimal) : 0 ≤ d.toRat := by
  unfold toRat
  positivity

theorem limit_le_toRat (some : d.digits ≠ 0) (large : 1024 ≤ d.exponent) : limit ≤ d.toRat := by
  have digits : (1 : ℚ) ≤ d.digits := by exact_mod_cast Nat.one_le_iff_ne_zero.2 some
  have tens : (2 : ℚ) ^ d.exponent ≤ 10 ^ d.exponent :=
    zpow_le_zpow_left₀ (by omega) (by norm_num) (by norm_num)
  calc limit ≤ 2 ^ d.exponent := zpow_le_zpow_right₀ (by norm_num) large
    _ ≤ 10 ^ d.exponent := tens
    _ ≤ d.toRat := le_mul_of_one_le_left (by positivity) digits

theorem toRat_lt_two_zpow (fraction : d.exponent ≤ 0) :
    d.toRat < 2 ^ (d.digits.log2 + 1 + d.exponent) := by
  have digits : (d.digits : ℚ) < 2 ^ (d.digits.log2 + 1) := by exact_mod_cast Nat.lt_log2_self
  have tens : (10 : ℚ) ^ d.exponent ≤ 2 ^ d.exponent := by
    have upper : (2 : ℚ) ^ (-d.exponent) ≤ 10 ^ (-d.exponent) :=
      zpow_le_zpow_left₀ (by omega) (by norm_num) (by norm_num)
    rw [zpow_neg, zpow_neg] at upper
    exact (inv_le_inv₀ (by positivity) (by positivity)).1 upper
  calc d.toRat < 2 ^ (d.digits.log2 + 1) * 10 ^ d.exponent :=
        mul_lt_mul_of_pos_right digits (by positivity)
    _ ≤ 2 ^ (d.digits.log2 + 1) * 2 ^ d.exponent := by gcongr
    _ = 2 ^ (d.digits.log2 + 1 + d.exponent) := by
      rw [zpow_add₀ (by decide)]
      norm_cast

theorem toRat_of_whole (whole : 0 ≤ d.exponent) :
    d.toRat = d.digits * (10 ^ d.exponent.toNat : Nat) := by
  rw [toRat, Nat.cast_pow, Nat.cast_ofNat, ← zpow_natCast, Int.toNat_of_nonneg whole]

theorem toRat_of_fraction (fraction : d.exponent ≤ 0) :
    d.toRat = d.digits / (10 ^ (-d.exponent).toNat : Nat) := by
  rw [toRat, Nat.cast_pow, Nat.cast_ofNat, ← zpow_natCast, Int.toNat_of_nonneg (by omega), zpow_neg,
    div_inv_eq_mul]

/-- Reading is rounding, be it by a product, by a quotient or at once. -/
theorem roundedFields_ofScientific (d : Decimal) :
    RoundedFields .positive d.toRat (UnpackedFloat.ofScientific .binary64 d.digits d.exponent) := by
  unfold UnpackedFloat.ofScientific
  split
  · rename_i none
    exact .zero (by rw [toRat, none, Nat.cast_zero, zero_mul, nearest_zero])
  rename_i some
  have digits : 0 < d.digits := Nat.pos_of_ne_zero some
  have pos : 0 < d.toRat := toRat_pos_iff.2 digits
  split
  · rename_i large
    replace large : (2048 : Int) < d.exponent := large
    exact .infinity (limit_le_nearest (limit_le_toRat some (by omega)))
  split
  · rename_i small
    replace small : d.exponent < -(2048 + d.digits.log2 : Int) := small
    refine .zero (nearest_eq_zero pos.le ((toRat_lt_two_zpow (by omega)).trans_le ?_))
    exact zpow_le_zpow_right₀ (by norm_num) (by omega)
  split
  · rename_i whole
    have one : (1 : ℚ) ≤ d.toRat :=
      one_le_mul_of_one_le_of_one_le (by exact_mod_cast digits) (one_le_zpow₀ (by norm_num) whole)
    have fine : (-53 : Int) + 0 ≤ lastPlace d.toRat :=
      le_lastPlace pos (.inr (le_trans (by norm_num) one))
    have product : d.toRat = (d.digits <<< 53 : Nat) * 2 ^ (-53 : Int) *
        ((10 ^ d.exponent.toNat : Nat) * 2 ^ (0 : Int)) := by
      have scale : ((2 ^ 53 : Nat) : ℚ) * 2 ^ (-53 : Int) = 1 := by norm_num
      rw [toRat_of_whole whole, Nat.shiftLeft_eq, Nat.cast_mul, mul_assoc (d.digits : ℚ), scale,
        zpow_zero, mul_one, mul_one]
    rw [product] at fine ⊢
    exact roundedFields_mul .positive .positive _ _ fine
  · rename_i fraction
    have quotient : d.toRat = d.digits * 2 ^ (0 : Int) /
        ((10 ^ (-d.exponent).toNat : Nat) * 2 ^ (0 : Int)) := by
      rw [toRat_of_fraction (by omega), zpow_zero, mul_one, mul_one]
    rw [quotient]
    exact roundedFields_div .positive .positive 0 0 _ _

theorem rounds_toFloat (d : Decimal) : Rounds .positive d.toRat d.toFloat :=
  (roundedFields_ofScientific d).rounds d.toRat_nonneg

/-- Decimals of one number are read alike. -/
theorem toFloat_congr {d' : Decimal} (same : d.toRat = d'.toRat) : d.toFloat = d'.toFloat :=
  (rounds_toFloat d).eq (same ▸ rounds_toFloat d')

/-- The fewest digits of a value are read as the value. -/
theorem toFloat_of_shortest? {tie : Tie} {x : Float} {m : Nat} {q : Int} {pos : 0 < m}
    (fields : x.toModel.unpack = .finite .positive m q pos) (short : shortest? tie m q = some d) :
    d.toFloat = x := by
  have canonical := canonical_of_toModel fields
  have value : Rounds .positive d.toRat x := by
    refine ⟨by rw [sign?, fields], ?_⟩
    rw [rounded_signed _ d.toRat_nonneg, nearest_eq_of_inReach canonical (inReach_of_shortest? short),
      min_eq_left canonical.magnitude_lt_limit.le, number?, fields]
    rfl
  exact (rounds_toFloat d).eq value

end Decimal

end Keytape
