import Keytape.Proofs.Binary.Shift

/-! Arithmetic of binary64 values as rounded arithmetic of their numbers.

Main statements: sums, differences, products and quotients of finite values are the exact
ones, rounded to the nearest value, and so are the values of whole numbers; the whole number
of a value is the whole part of its number.
-/

set_option autoImplicit false

namespace Keytape.Binary

open Float.Model Float.Model.UnpackedFloat

/-! ## Signs -/

theorem cast_apply (s : Sign) (n : Nat) : ((s.apply n : Int) : ℚ) = signed s n := by
  cases s <;> simp [Sign.apply, signed]

theorem apply_neg (s : Sign) (n : Int) : (-s).apply n = -s.apply n := by
  cases s
  · exact (Int.neg_neg n).symm
  · rfl

theorem signed_neg (s : Sign) (v : ℚ) : signed (-s) v = -signed s v := by
  cases s
  · exact (neg_neg v).symm
  · rfl

theorem signed_mul_signed (s t : Sign) (v w : ℚ) :
    signed s v * signed t w = signed (s * t) (v * w) := by
  cases s <;> cases t
  · exact neg_mul_neg v w
  · exact neg_mul v w
  · exact mul_neg v w
  · rfl

theorem signed_mul (s : Sign) (v w : ℚ) : signed s (v * w) = signed s v * w := by
  cases s <;> simp [signed]

theorem signed_div_signed (s t : Sign) (v w : ℚ) :
    signed s v / signed t w = signed (s / t) (v / w) := by
  cases s <;> cases t
  · exact neg_div_neg_eq v w
  · exact neg_div w v
  · exact div_neg v
  · rfl

/-! ## Significands of any length -/

section
variable {m : Nat} {e : Int}

theorem decreaseExponent_eq (m : Nat) (e t : Int) :
    ((decreaseExponent m e t).1 : ℚ) * 2 ^ (decreaseExponent m e t).2 = m * 2 ^ e := by
  rw [decreaseExponent, Nat.shiftLeft_eq, Nat.cast_mul, Nat.cast_pow, Nat.cast_ofNat, mul_assoc,
    ← zpow_natCast, ← zpow_add₀ (by decide), add_sub_cancel]

theorem decreaseExponent_le (m : Nat) (e t : Int) : (decreaseExponent m e t).2 ≤ t := by
  rw [decreaseExponent]
  dsimp only
  omega

theorem approximates_decreaseExponent (m : Nat) (e t : Int) :
    Approximates (.ofMantissaAndAccuracy (decreaseExponent m e t).1 .exact)
      (m * 2 ^ e / 2 ^ (decreaseExponent m e t).2) := by
  rw [← decreaseExponent_eq m e t, mul_div_cancel_right₀ _ (zpow_ne_zero _ (by decide))]
  rfl

theorem number?_round (s : Sign) (pos : 0 < m) (e : Int) :
    number? (ofFields (UnpackedFloat.round .binary64 s m e)) =
      some (rounded (signed s (m * 2 ^ e))) := by
  have scale : (0 : ℚ) < 2 ^ e := by positivity
  have number : (0 : ℚ) < m * 2 ^ e := mul_pos (by exact_mod_cast pos) scale
  have target := targetExponent_eq_lastPlace pos le_rfl
    (mul_lt_mul_of_pos_right (lt_add_one (m : ℚ)) scale)
  rw [UnpackedFloat.round, target]
  exact number?_roundWithAccuracy s number (approximates_decreaseExponent m e _)
    (decreaseExponent_le m e _)

theorem number?_normalize (n : Int) (e : Int) (s : Sign) :
    number? (ofFields (UnpackedFloat.normalize .binary64 n e s)) = some (rounded (n * 2 ^ e)) := by
  unfold UnpackedFloat.normalize
  split
  · rename_i below
    have negative : n < 0 := compare_lt_iff_lt.1 below
    have magnitude : (((-n).toNat : Nat) : ℚ) = -n := by
      exact_mod_cast Int.toNat_of_nonneg (show 0 ≤ -n by omega)
    rw [number?_round _ (by omega), magnitude, signed, neg_mul, neg_neg]
  · rename_i zero
    rw [compare_eq_iff_eq.1 zero, number?_zero, Int.cast_zero, zero_mul, rounded_zero]
  · rename_i above
    have positive : 0 < n := compare_gt_iff_gt.1 above
    have magnitude : ((n.toNat : Nat) : ℚ) = n := by
      exact_mod_cast Int.toNat_of_nonneg positive.le
    rw [number?_round _ (by omega), magnitude, signed]

theorem le_lastPlace {v : ℚ} (pos : 0 < v) (h : e ≤ -1074 ∨ (2 : ℚ) ^ (52 + e) ≤ v) :
    e ≤ lastPlace v := by
  rcases h with low | high
  · exact low.trans (least_le_lastPlace v)
  · have log : 52 + e ≤ Int.log 2 v := (Int.zpow_le_iff_le_log (by decide) pos).1 high
    unfold lastPlace
    omega

theorem two_zpow_le_mul {n : Nat} {p q : Int} (left : Placed m p) (right : Placed n q) :
    p + q ≤ -1074 ∨ (2 : ℚ) ^ (52 + (p + q)) ≤ m * 2 ^ p * (n * 2 ^ q) := by
  rcases left.le_magnitude with rfl | full
  · have least := right.least
    rcases right.le_magnitude with rfl | full
    · exact .inl (by decide)
    · refine .inr ?_
      rw [add_left_comm, zpow_add₀ (by decide)]
      exact mul_le_mul left.two_zpow_le_magnitude full (by positivity) left.magnitude_pos.le
  · refine .inr ?_
    rw [← add_assoc, zpow_add₀ (by decide)]
    exact mul_le_mul full right.two_zpow_le_magnitude (by positivity) left.magnitude_pos.le

theorem two_zpow_le_div {n : Nat} {p q : Int} (dividend : 0 < m) (divisor : 0 < n) :
    (2 : ℚ) ^ (m.log2 + p - (n.log2 + 1 + q)) ≤ m * 2 ^ p / (n * 2 ^ q) := by
  have lower : (2 : ℚ) ^ m.log2 ≤ m := by
    exact_mod_cast Nat.log2_self_le (Nat.pos_iff_ne_zero.1 dividend)
  have upper : (n : ℚ) ≤ 2 ^ (n.log2 + 1) := by exact_mod_cast Nat.lt_log2_self.le
  have pos : (0 : ℚ) < n := by exact_mod_cast divisor
  calc (2 : ℚ) ^ (m.log2 + p - (n.log2 + 1 + q)) = 2 ^ m.log2 * 2 ^ p / (2 ^ (n.log2 + 1) * 2 ^ q) := by
        rw [zpow_sub₀ (by decide), zpow_add₀ (by decide), zpow_add₀ (by decide)]
        norm_cast
    _ ≤ m * 2 ^ p / (n * 2 ^ q) := by gcongr

theorem approximates_div (m : Nat) {n : Nat} (pos : 0 < n) :
    Approximates (.ofMantissaAndAccuracy (m / n) (accuracyOfFraction (m % n) n)) (m / n : ℚ) := by
  have divisor : (0 : ℚ) < n := by exact_mod_cast pos
  have parts : (m : ℚ) = n * (m / n : Nat) + (m % n : Nat) := by exact_mod_cast (Nat.div_add_mod m n).symm
  have less : ((m % n : Nat) : ℚ) < n := by exact_mod_cast Nat.mod_lt m pos
  have quotient : (m / n : ℚ) = (m / n : Nat) + (m % n : Nat) / n := by
    rw [parts, add_div, mul_div_cancel_left₀ _ divisor.ne']
  have fraction : ((m % n : Nat) / n : ℚ) < 1 := (div_lt_one divisor).2 less
  rw [quotient]
  generalize m / n = k
  generalize m % n = r at fraction
  rcases Nat.eq_zero_or_pos r with rfl | rest
  · simp [accuracyOfFraction, ExtendedMantissa.ofMantissaAndAccuracy, Approximates]
  · have some : (0 : ℚ) < r / n := div_pos (by exact_mod_cast rest) divisor
    rw [accuracyOfFraction, if_neg (Nat.pos_iff_ne_zero.1 rest)]
    rcases lt_trichotomy (2 * r) n with below | half | above
    · have less : (r / n : ℚ) < 1 / 2 := by
        rw [div_lt_div_iff₀ divisor two_pos, one_mul, mul_comm]
        exact_mod_cast below
      rw [compare_lt_iff_lt.2 below]
      exact ⟨by linarith, by linarith⟩
    · have same : (r / n : ℚ) = 1 / 2 := by
        rw [div_eq_div_iff divisor.ne' two_ne_zero, one_mul, mul_comm]
        exact_mod_cast half
      rw [compare_eq_iff_eq.2 half, same]
      rfl
    · have more : (1 / 2 : ℚ) < r / n := by
        rw [div_lt_div_iff₀ two_pos divisor, one_mul, mul_comm]
        exact_mod_cast above
      rw [compare_gt_iff_gt.2 above]
      exact ⟨by linarith, by linarith⟩

/-- The dividend is shifted far enough for a full significand of the quotient. -/
theorem divExponent_le_lastPlace {n : Nat} {p q : Int} (dividend : 0 < m) (divisor : 0 < n) :
    (divCore .binary64 m p n q).2.1 ≤ lastPlace (m * 2 ^ p / (n * 2 ^ q)) := by
  have above : (0 : ℚ) < m := by exact_mod_cast dividend
  have below : (0 : ℚ) < n := by exact_mod_cast divisor
  refine le_lastPlace (by positivity) (or_iff_not_imp_left.2 fun inner => ?_)
  simp only [divCore, targetExponent_eq, totalExponent] at inner ⊢
  refine le_trans (zpow_le_zpow_right₀ (by norm_num) ?_) (two_zpow_le_div dividend divisor)
  omega

theorem approximates_divCore (m : Nat) (p : Int) {n : Nat} (pos : 0 < n) (q : Int) :
    Approximates (.ofMantissaAndAccuracy (divCore .binary64 m p n q).1 (divCore .binary64 m p n q).2.2)
      (m * 2 ^ p / (n * 2 ^ q) / 2 ^ (divCore .binary64 m p n q).2.1) := by
  have coarse : (divCore .binary64 m p n q).2.1 ≤ p - q := min_le_left _ _
  dsimp only [divCore] at coarse ⊢
  generalize min (p - q) (Format.binary64.targetExponent (totalExponent m p - totalExponent n q)) = t
    at coarse ⊢
  have scaled : (m * 2 ^ p / (n * 2 ^ q) / 2 ^ t : ℚ) = (m <<< (p - q - t).toNat : Nat) / n := by
    rw [Nat.shiftLeft_eq, Nat.cast_mul, Nat.cast_pow, Nat.cast_ofNat, ← zpow_natCast,
      Int.toNat_of_nonneg (by omega), zpow_sub₀ (by decide), zpow_sub₀ (by decide)]
    ring
  rw [scaled]
  exact approximates_div _ pos

theorem roundedFields_mul (s t : Sign) {n : Nat} {p q : Int} (left : 0 < m) (right : 0 < n)
    (fine : p + q ≤ lastPlace (m * 2 ^ p * (n * 2 ^ q))) :
    RoundedFields (s * t) (m * 2 ^ p * (n * 2 ^ q))
      (UnpackedFloat.mul .binary64 (.finite s m p left) (.finite t n q right)) := by
  have above : (0 : ℚ) < m := by exact_mod_cast left
  have below : (0 : ℚ) < n := by exact_mod_cast right
  refine roundedFields_roundWithAccuracy _ (by positivity) ?_ fine
  have scale : (2 : ℚ) ^ (p + q) ≠ 0 := zpow_ne_zero _ (by decide)
  have whole : (m * 2 ^ p * (n * 2 ^ q) : ℚ) = (m * n : Nat) * 2 ^ (p + q) := by
    rw [zpow_add₀ (by decide), Nat.cast_mul]
    ring
  rw [whole, mul_div_cancel_right₀ _ scale]
  rfl

theorem roundedFields_div (s t : Sign) {n : Nat} (p q : Int) (dividend : 0 < m) (divisor : 0 < n) :
    RoundedFields (s / t) (m * 2 ^ p / (n * 2 ^ q))
      (UnpackedFloat.div .binary64 (.finite s m p dividend) (.finite t n q divisor)) := by
  have above : (0 : ℚ) < m := by exact_mod_cast dividend
  have below : (0 : ℚ) < n := by exact_mod_cast divisor
  exact roundedFields_roundWithAccuracy _ (by positivity) (approximates_divCore m p divisor q)
    (divExponent_le_lastPlace dividend divisor)

end

/-! ## Finite values -/

section
variable {f g : UnpackedFloat} {v w : ℚ}

namespace FiniteFields

theorem number?_ofFields (hf : FiniteFields f v) : number? (ofFields f) = some (rounded v) := by
  cases hf with
  | zero s => rw [number?_zero, rounded_zero]
  | finite s h =>
    rw [h.placed.number?_ofFields, rounded_signed s h.placed.magnitude_pos.le, h.placed.nearest_eq]

theorem isNumber_ofFields (hf : FiniteFields f v) : IsNumber (ofFields f) v := by
  cases hf with
  | zero s => cases s <;> exact .zero _
  | finite s h =>
    unfold IsNumber
    rw [unpack_ofFields_finite h]
    exact .finite s h

theorem neg (hf : FiniteFields f v) : FiniteFields f.neg (-v) := by
  cases hf with
  | zero s =>
    rw [neg_zero]
    exact .zero _
  | finite s h =>
    rw [← signed_neg]
    exact .finite _ h

theorem aligned (s : Sign) {m : Nat} {e t : Int} (le : t ≤ e) :
    ((s.apply (decreaseExponent m e t).1 : Int) : ℚ) * 2 ^ t = signed s (m * 2 ^ e) := by
  have place : (decreaseExponent m e t).2 = t := by
    rw [decreaseExponent]
    dsimp only
    omega
  have same := decreaseExponent_eq m e t
  rw [place] at same
  rw [cast_apply, ← signed_mul, same]

theorem add (hf : FiniteFields f v) (hg : FiniteFields g w) :
    number? (ofFields (UnpackedFloat.add .binary64 f g)) = some (rounded (v + w)) := by
  cases hf with
  | zero s =>
    rw [zero_add]
    cases hg with
    | zero s' => cases s <;> cases s' <;> exact (FiniteFields.zero _).number?_ofFields
    | finite s' h => exact (FiniteFields.finite s' h).number?_ofFields
  | @finite s m p h =>
    cases hg with
    | zero s' =>
      rw [add_zero]
      exact (FiniteFields.finite s h).number?_ofFields
    | @finite s' n q h' =>
      rw [← aligned s (min_le_left p q), ← aligned s' (min_le_right p q), ← add_mul, ← Int.cast_add]
      exact number?_normalize _ _ _

theorem sub (hf : FiniteFields f v) (hg : FiniteFields g w) :
    number? (ofFields (UnpackedFloat.sub .binary64 f g)) = some (rounded (v - w)) := by
  have same : UnpackedFloat.sub .binary64 f g = UnpackedFloat.add .binary64 f g.neg := by
    cases hf with
    | zero s => cases hg <;> rfl
    | finite s h =>
      cases hg with
      | zero s' => rfl
      | finite s' h' =>
        simp only [UnpackedFloat.sub, UnpackedFloat.add, UnpackedFloat.neg, apply_neg,
          Int.sub_eq_add_neg]
  rw [same, sub_eq_add_neg]
  exact hf.add hg.neg

theorem mul (hf : FiniteFields f v) (hg : FiniteFields g w) :
    number? (ofFields (UnpackedFloat.mul .binary64 f g)) = some (rounded (v * w)) := by
  cases hf with
  | zero s =>
    rw [zero_mul]
    cases hg <;> exact (FiniteFields.zero _).number?_ofFields
  | @finite s m p h =>
    cases hg with
    | zero s' =>
      rw [mul_zero]
      exact (FiniteFields.zero _).number?_ofFields
    | @finite s' n q h' =>
      have pos := mul_pos h.placed.magnitude_pos h'.placed.magnitude_pos
      have fine := le_lastPlace pos (two_zpow_le_mul h.placed h'.placed)
      rw [signed_mul_signed]
      exact (roundedFields_mul s s' h.pos h'.pos fine).number?_ofFields pos.le

theorem div (hf : FiniteFields f v) (hg : FiniteFields g w) (nonzero : w ≠ 0) :
    number? (ofFields (UnpackedFloat.div .binary64 f g)) = some (rounded (v / w)) := by
  cases hg with
  | zero s' => exact absurd rfl nonzero
  | @finite s' n q h' =>
    cases hf with
    | zero s =>
      rw [zero_div]
      exact (FiniteFields.zero _).number?_ofFields
    | @finite s m p h =>
      have pos := div_pos h.placed.magnitude_pos h'.placed.magnitude_pos
      rw [signed_div_signed]
      exact (roundedFields_div s s' p q h.pos h'.pos).number?_ofFields pos.le

theorem add_infinity (hf : FiniteFields f v) (s : Sign) :
    UnpackedFloat.add .binary64 f (.infinity s) = .infinity s := by
  cases hf <;> rfl

theorem infinity_div (hg : FiniteFields g w) (pos : 0 < w) (s : Sign) :
    UnpackedFloat.div .binary64 (.infinity s) g = .infinity s := by
  cases hg with
  | zero s' => exact absurd pos (lt_irrefl _)
  | finite s' h =>
    cases s' with
    | negative => exact absurd pos (not_lt.2 (neg_nonpos.2 h.placed.magnitude_pos.le))
    | positive => cases s <;> rfl

end FiniteFields

end

/-! ## Operations -/

section
variable {x y : Float} {v w : ℚ}

namespace IsNumber

theorem neg (hx : IsNumber x v) : IsNumber (-x) (-v) := (FiniteFields.neg hx).isNumber_ofFields

theorem add (hx : IsNumber x v) (hy : IsNumber y w) : number? (x + y) = some (rounded (v + w)) :=
  FiniteFields.add hx hy

theorem sub (hx : IsNumber x v) (hy : IsNumber y w) : number? (x - y) = some (rounded (v - w)) :=
  FiniteFields.sub hx hy

theorem mul (hx : IsNumber x v) (hy : IsNumber y w) : number? (x * y) = some (rounded (v * w)) :=
  FiniteFields.mul hx hy

theorem div (hx : IsNumber x v) (hy : IsNumber y w) (nonzero : w ≠ 0) :
    number? (x / y) = some (rounded (v / w)) :=
  FiniteFields.div hx hy nonzero

theorem add_limit (hx : IsNumber x v) (hy : number? y = some limit) :
    number? (x + y) = some limit := by
  change number? (ofFields (UnpackedFloat.add .binary64 x.toModel.unpack y.toModel.unpack)) = _
  rw [unpack_of_limit hy, FiniteFields.add_infinity hx, number?_infinity]
  rfl

/-- Infinity stays infinity when it is divided by a finite value above zero. -/
theorem limit_div (hx : number? x = some limit) (hy : IsNumber y w) (pos : 0 < w) :
    number? (x / y) = some limit := by
  change number? (ofFields (UnpackedFloat.div .binary64 x.toModel.unpack y.toModel.unpack)) = _
  rw [unpack_of_limit hx, FiniteFields.infinity_div hy pos, number?_infinity]
  rfl

end IsNumber

/-! ## Whole numbers -/

theorem number?_toFloat (n : UInt64) : number? n.toFloat = some (rounded n.toNat) := by
  have whole := number?_normalize n.toNat 0 .positive
  rw [zpow_zero, mul_one, Int.cast_natCast] at whole
  exact whole

theorem isNumber_toFloat (n : UInt64) : IsNumber n.toFloat (rounded n.toNat) := by
  refine isNumber_of_abs_lt (number?_toFloat n) ?_
  have word : (n.toNat : ℚ) ≤ 2 ^ (64 : Int) := by exact_mod_cast n.toNat_lt.le
  calc |rounded n.toNat| = rounded n.toNat := abs_of_nonneg (rounded_nonneg n.toNat.cast_nonneg)
    _ ≤ rounded (2 ^ (64 : Int)) := rounded_mono word
    _ = 2 ^ (64 : Int) := rounded_two_zpow (by decide) (by decide)
    _ < limit := zpow_lt_zpow_right₀ (by norm_num) (by decide)

theorem isNumber_natCast {n : Nat} (small : n < 2 ^ 53) : IsNumber n.toUInt64.toFloat n := by
  have word : n.toUInt64.toNat = n := Nat.mod_eq_of_lt (small.trans (by decide))
  have whole := isNumber_toFloat n.toUInt64
  rwa [word, rounded_natCast small] at whole

/-- A significand shifted to the point is the whole part of its number. -/
theorem mantissa_shiftToExponent_zero (m : Nat) (q : Int) :
    (shiftToExponent (decreaseExponent m q 0).1 (decreaseExponent m q 0).2 .exact 0).1.mantissa =
      ⌊(m * 2 ^ q : ℚ)⌋₊ := by
  have low := decreaseExponent_le m q 0
  rw [← decreaseExponent_eq m q 0]
  generalize (decreaseExponent m q 0).1 = n at low ⊢
  generalize (decreaseExponent m q 0).2 = e at low ⊢
  have shifted :=
    Approximates.shiftRight (e := .ofMantissaAndAccuracy n .exact) (w := n) rfl (0 - e).toNat
  have places : (2 : ℚ) ^ e = (2 ^ (0 - e).toNat)⁻¹ := by
    rw [← zpow_natCast, ← zpow_neg, Int.toNat_of_nonneg (by omega)]
    congr 1
    omega
  rw [places, ← div_eq_mul_inv, shifted.floor_eq]
  rfl

theorem IsNumber.toNat_toUInt64 (hx : IsNumber x v) (nonneg : 0 ≤ v) (small : v < 2 ^ 64) :
    x.toUInt64.toNat = ⌊v⌋₊ := by
  have word : ⌊v⌋₊ < UInt64.size := (Nat.floor_lt nonneg).2 (by exact_mod_cast small)
  have whole : (x.toModel.unpack.toInt 0 (UInt64.size - 1)).toNat = ⌊v⌋₊ := by
    unfold IsNumber at hx
    generalize x.toModel.unpack = f at hx
    cases hx with
    | zero s => simp [UnpackedFloat.toInt]
    | @finite s m q h =>
      cases s with
      | negative => exact absurd nonneg (not_le.2 (neg_neg_iff_pos.2 h.placed.magnitude_pos))
      | positive =>
        rw [UnpackedFloat.toInt, signed, ← mantissa_shiftToExponent_zero]
        rfl
  change (UInt64.ofNatClamp (x.toModel.unpack.toInt 0 (UInt64.size - 1)).toNat).toNat = _
  rw [whole, UInt64.ofNatClamp, dif_pos word]
  rfl

end

end Keytape.Binary
