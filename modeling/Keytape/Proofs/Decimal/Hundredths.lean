import Keytape.Decimal.Hundredths
import Keytape.Proofs.Binary.Arithmetic

/-! Whole numbers and hundredths of values.

A hundredth is computed by way of the hundredfold value, and that may overflow. Main
statements: the greatest whole number up to a value is computed exactly, a hundredth is finite
just if the hundredfold value is, and no hundredth is the negative zero.
-/

set_option autoImplicit false

namespace Keytape.Decimal

open Float.Model Float.Model.UnpackedFloat
open Binary

/-! ## Whole numbers -/

/-- The greatest whole number that is not above the value. Values that are whole already, or
not finite, are kept. -/
def wholeBelow (x : Float) : Float :=
  match x.toModel.unpack with
  | .finite sign m q _ =>
    if 0 ≤ q then x
    else
      let unit := 2 ^ q.natAbs
      match sign with
      | .positive => (m / unit).toUInt64.toFloat
      | .negative => -((m + unit - 1) / unit).toUInt64.toFloat
  | _ => x

section
variable {x : Float} {v : ℚ}

theorem ceil_div (m : Nat) {d : Nat} (pos : 0 < d) : ⌈(m / d : ℚ)⌉ = ((m + d - 1) / d : Nat) := by
  have divisor : (0 : ℚ) < d := by exact_mod_cast pos
  have parts := Nat.div_add_mod (m + d - 1) d
  have rest := Nat.mod_lt (m + d - 1) pos
  generalize (m + d - 1) / d = k at parts ⊢
  rw [Int.ceil_eq_iff, lt_div_iff₀ divisor, div_le_iff₀ divisor]
  constructor
  · have lower : d * k < m + d := by omega
    have lower' : (d * k : ℚ) < m + d := by exact_mod_cast lower
    push_cast
    linarith
  · have upper : m ≤ k * d := by
      rw [Nat.mul_comm]
      omega
    exact_mod_cast upper

theorem div_up_le (m : Nat) {d : Nat} (pos : 0 < d) : (m + d - 1) / d ≤ m := by
  have wide := Nat.le_mul_of_pos_right m pos
  rw [← Nat.lt_add_one_iff, Nat.div_lt_iff_lt_mul pos, Nat.add_one_mul]
  omega

theorem magnitude_of_nonneg (m : Nat) {q : Int} (whole : 0 ≤ q) :
    (m * 2 ^ q : ℚ) = (m * 2 ^ q.toNat : Nat) := by
  rw [Nat.cast_mul, Nat.cast_pow, Nat.cast_ofNat, ← zpow_natCast, Int.toNat_of_nonneg whole]

theorem magnitude_of_neg (m : Nat) {q : Int} (part : q < 0) :
    (m * 2 ^ q : ℚ) = m / (2 ^ q.natAbs : Nat) := by
  rw [Nat.cast_pow, Nat.cast_ofNat, div_eq_mul_inv, ← zpow_natCast, ← zpow_neg,
    Int.ofNat_natAbs_of_nonpos part.le, neg_neg]

theorem isNumber_wholeBelow (hx : IsNumber x v) : IsNumber (wholeBelow x) (⌊v⌋ : Int) := by
  have fields : FiniteFields x.toModel.unpack v := hx
  unfold wholeBelow
  generalize x.toModel.unpack = f at fields ⊢
  cases fields with
  | zero s => simpa using hx
  | @finite s m q h =>
    dsimp only
    split
    · rename_i whole
      rw [magnitude_of_nonneg m whole, ← cast_apply] at hx ⊢
      rwa [Int.floor_intCast]
    -- The places behind the point are cut off, but a negative value goes down to the next
    -- whole number, which is a division that rounds up.
    · rename_i part
      have unit : 0 < 2 ^ q.natAbs := Nat.two_pow_pos _
      rw [magnitude_of_neg m (not_le.1 part)]
      generalize 2 ^ q.natAbs = d at unit
      cases s with
      | positive =>
        rw [signed, Rat.floor_natCast_div_natCast]
        exact_mod_cast isNumber_natCast ((Nat.div_le_self m d).trans_lt h.lt)
      | negative =>
        rw [signed, Int.floor_neg, ceil_div m unit]
        exact_mod_cast (isNumber_natCast ((div_up_le m unit).trans_lt h.lt)).neg

example : wholeBelow 2.5 = 2.0 ∧ wholeBelow (-0.25) = -1.0 := by decide +kernel

theorem wholeBelow_of_limit (h : number? x = some limit) : wholeBelow x = x := by
  unfold wholeBelow
  rw [unpack_of_limit h]

theorem exists_isNumber_wholeNearest (hx : IsNumber x v) : ∃ w, IsNumber (wholeNearest x) w := by
  unfold wholeNearest
  cases x.toModel.unpack with
  | finite sign m q pos =>
    dsimp only
    split
    · exact ⟨v, hx⟩
    · cases sign with
      | positive => exact ⟨_, isNumber_toFloat _⟩
      | negative => exact ⟨_, (isNumber_toFloat _).neg⟩
  | _ => exact ⟨v, hx⟩

end

/-! ## Hundredths -/

section
variable {x y : Float} {v : ℚ}

theorem isNumber_hundred : IsNumber 100.0 100 := by
  have whole := isNumber_toFloat 100
  rwa [show (100 : UInt64).toNat = 100 from rfl, rounded_natCast (by decide)] at whole

theorem exists_isNumber_hundredths (hx : IsNumber (x * 100.0) v) : ∃ w, IsNumber (hundredths x) w := by
  obtain ⟨n, whole⟩ := exists_isNumber_wholeNearest hx
  have below : |rounded (n / 100)| < limit := by
    have less : |n / 100| ≤ |n| := by
      rw [abs_div, abs_of_pos (by norm_num : (0 : ℚ) < 100)]
      exact div_le_self (abs_nonneg n) (by norm_num)
    have kept := rounded_mono less
    rw [← abs_rounded, ← abs_rounded, rounded_of_number? whole.number?_eq] at kept
    exact kept.trans_lt whole.abs_lt
  -- Adding zero changes the sign of a zero only, so the sum is the quotient as a number.
  have quotient := isNumber_of_abs_lt (whole.div isNumber_hundred (by decide)) below
  have sum := quotient.add isNumber_zero
  rw [add_zero, rounded_of_number? quotient.number?_eq] at sum
  exact ⟨_, isNumber_of_abs_lt sum below⟩

/-- What is not finite stays what it is through the whole computation. -/
theorem unpack_hundredths (h : (x * 100.0).isFinite = false) :
    (hundredths x).toModel.unpack = (x * 100.0).toModel.unpack := by
  change (x * 100.0).toModel.unpack.isFinite = false at h
  unfold hundredths
  generalize x * 100.0 = y at h ⊢
  have kept : wholeNearest y = y := by
    unfold wholeNearest
    cases fields : y.toModel.unpack with
    | finite => rw [fields] at h; cases h
    | _ => rfl
  rw [kept, ← ofFields_unpack y]
  cases fields : y.toModel.unpack with
  | notANumber => rfl
  | infinity s => cases s <;> rfl
  | zero => rw [fields] at h; cases h
  | finite => rw [fields] at h; cases h

theorem isFinite_hundredths (x : Float) : (hundredths x).isFinite = (x * 100.0).isFinite := by
  cases finite : (x * 100.0).isFinite with
  | false =>
    change (hundredths x).toModel.unpack.isFinite = false
    rw [unpack_hundredths finite]
    exact finite
  | true =>
    obtain ⟨v, hx⟩ := isFinite_iff.1 finite
    exact isFinite_iff.2 (exists_isNumber_hundredths hx)

theorem exists_number?_hundredths (hx : IsNumber x v) : ∃ w, number? (hundredths x) = some w := by
  cases finite : (x * 100.0).isFinite with
  | false =>
    have hundredfold := hx.mul isNumber_hundred
    rw [number?, ← unpack_hundredths finite] at hundredfold
    exact ⟨_, hundredfold⟩
  | true =>
    obtain ⟨w, hundredfold⟩ := isFinite_iff.1 finite
    obtain ⟨w, hundredth⟩ := exists_isNumber_hundredths hundredfold
    exact ⟨w, hundredth.number?_eq⟩

theorem sign_of_add_zero {s : Sign} (h : (x + 0.0).toModel.unpack = .zero s) : s = .positive := by
  have sum : x + 0.0 = ofFields (UnpackedFloat.add .binary64 x.toModel.unpack (.zero .positive)) := rfl
  rw [sum] at h
  cases fields : x.toModel.unpack with
  | notANumber => rw [fields] at h; cases h
  | infinity s' => rw [fields] at h; cases s' <;> cases h
  | zero s' => rw [fields] at h; cases s' <;> cases h <;> rfl
  | finite s' m q pos =>
    rw [fields] at h
    change (ofFields (.finite s' m q pos)).toModel.unpack = .zero s at h
    rw [unpack_ofFields_finite (canonical_of_toModel fields)] at h
    cases h

theorem hundredths_ne_neg_zero (x : Float) : hundredths x ≠ -0.0 := by
  intro same
  have fields : (hundredths x).toModel.unpack = .zero .negative := by
    rw [same]
    rfl
  cases sign_of_add_zero fields

theorem eq_of_beq_hundredths (same : hundredths x == hundredths y) : hundredths x = hundredths y := by
  have compared : (hundredths x).toModel.unpack.beq (hundredths y).toModel.unpack = true := same
  obtain ⟨_, _, equal | ⟨left, right⟩ | ⟨left, right⟩⟩ := (beq_iff_ne_notANumber_and_eq _ _).1 compared
  · exact eq_of_unpack equal
  · cases sign_of_add_zero right
  · cases sign_of_add_zero left

end

end Keytape.Decimal
