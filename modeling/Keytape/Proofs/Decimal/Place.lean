import Keytape.Proofs.Decimal.Shortest

/-! Values on either side of a power of ten.

The digits of a value are not more than half a step away from it, so where they start tells
values apart. Main statement: the digits start behind the fourth place of the point for the
values below the one that is shown as a ten-thousandth.
-/

set_option autoImplicit false

namespace Keytape.Decimal

open Binary (Canonical)

variable {m : Nat} {q : Int} {d : Decimal} {tie : Tie}

/-! ## Places -/

theorem toRat_pos_iff : 0 < d.toRat ↔ 0 < d.digits := by
  have scale : (0 : ℚ) < 10 ^ d.exponent := by positivity
  rw [toRat, mul_pos_iff_of_pos_right scale, Nat.cast_pos]

theorem digits_lt_pow (n : Nat) : n < 10 ^ (digitsOf n).length :=
  (Nat.length_toDigits_le_iff (by decide) Nat.length_toDigits_pos).1 (Nat.le_refl _)

theorem pow_le_digits {n : Nat} (pos : 0 < n) : 10 ^ ((digitsOf n).length - 1) ≤ n := by
  refine Nat.not_lt.1 fun below => ?_
  by_cases lone : (digitsOf n).length - 1 = 0
  · rw [lone] at below
    omega
  · have shorter := length_digitsOf_le (Nat.pos_of_ne_zero lone) below
    omega

theorem leading_lt_iff (pos : 0 < d.toRat) (k : Int) : d.leading < k ↔ d.toRat < (10 : ℚ) ^ k := by
  have upper : (d.digits : ℚ) < 10 ^ (digitsOf d.digits).length := by exact_mod_cast digits_lt_pow _
  have lower : (10 : ℚ) ^ ((digitsOf d.digits).length - 1) ≤ d.digits := by
    exact_mod_cast pow_le_digits (toRat_pos_iff.1 pos)
  have some : 0 < (digitsOf d.digits).length := Nat.length_toDigits_pos
  have scale : (0 : ℚ) < 10 ^ d.exponent := by positivity
  have ten : (1 : ℚ) ≤ 10 := by norm_num
  constructor
  · intro below
    calc d.toRat < 10 ^ (digitsOf d.digits).length * 10 ^ d.exponent :=
          mul_lt_mul_of_pos_right upper scale
      _ = 10 ^ ((digitsOf d.digits).length + d.exponent) := by
          rw [zpow_add₀ (by decide), zpow_natCast]
      _ ≤ 10 ^ k := zpow_le_zpow_right₀ ten (by rw [leading] at below; omega)
  · intro below
    refine Int.not_le.1 fun above => absurd below (not_lt.2 ?_)
    calc (10 : ℚ) ^ k ≤ 10 ^ (((digitsOf d.digits).length - 1 : Nat) + d.exponent) :=
          zpow_le_zpow_right₀ ten (by rw [leading] at above; omega)
      _ = 10 ^ ((digitsOf d.digits).length - 1) * 10 ^ d.exponent := by
          rw [zpow_add₀ (by decide), zpow_natCast]
      _ ≤ d.toRat := mul_le_mul_of_nonneg_right lower scale.le

/-! ## Order of values -/

theorem two_mul_two_zpow_le {q' : Int} (below : q < q') : 2 * (2 : ℚ) ^ q ≤ 2 ^ q' := by
  rw [← zpow_one_add₀ (by decide)]
  exact zpow_le_zpow_right₀ (by norm_num) (by omega)

section
variable {m' : Nat} {q' : Int}

/-- A larger value lies above by at least half a step of its own. -/
theorem value_le_of_lt (h : Canonical m q) (h' : Canonical m' q') (below : q < q' ∨ q = q' ∧ m < m') :
    (m : ℚ) * 2 ^ q ≤ (m' - 1 / 2) * 2 ^ q' := by
  have pos : (0 : ℚ) < 2 ^ q := by positivity
  rcases below with below | ⟨rfl, below⟩
  · have lt : (m : ℚ) + 1 ≤ 2 ^ 53 := by exact_mod_cast h.lt
    have full : (2 : ℚ) ^ 52 ≤ m' := by
      exact_mod_cast h'.full.resolve_left (by have := h.least; omega)
    have step := two_mul_two_zpow_le below
    nlinarith
  · have next : (m : ℚ) + 1 ≤ m' := by exact_mod_cast below
    nlinarith

/-- Half-way marks are ordered like their values, except below a power of two. -/
theorem half_step_le_of_lt (h : Canonical m q) (inside : 2 ^ 52 < m')
    (below : q < q' ∨ q = q' ∧ m < m') : (m + 1 / 2 : ℚ) * 2 ^ q ≤ (m' - 1 / 2) * 2 ^ q' := by
  have pos : (0 : ℚ) < 2 ^ q := by positivity
  rcases below with below | ⟨rfl, below⟩
  · have lt : (m : ℚ) + 1 ≤ 2 ^ 53 := by exact_mod_cast h.lt
    have full : (2 : ℚ) ^ 52 + 1 ≤ m' := by exact_mod_cast inside
    have step := two_mul_two_zpow_le below
    nlinarith
  · have next : (m : ℚ) + 1 ≤ m' := by exact_mod_cast below
    nlinarith

end

/-- If `m' * 2 ^ q'` is the first value at or above a power of ten, and is written as no less,
then the values written as less are those below it. -/
theorem leading_lt_iff_below {m' : Nat} {q' k : Int} (h' : Canonical m' q') (inside : 2 ^ 52 < m')
    (under : (m' - 1 / 2 : ℚ) * 2 ^ q' < 10 ^ k) (reached : (10 : ℚ) ^ k ≤ m' * 2 ^ q')
    (shown : ∀ d', shortest? tie m' q' = some d' → k ≤ d'.leading)
    (h : Canonical m q) (short : shortest? tie m q = some d) :
    d.leading < k ↔ q < q' ∨ q = q' ∧ m < m' := by
  obtain ⟨lower, upper⟩ := abs_le.1 (abs_toRat_sub_le short)
  have positive := toRat_pos_of_shortest? h short
  by_cases below : q < q' ∨ q = q' ∧ m < m'
  · have order := half_step_le_of_lt h inside below
    exact iff_of_true ((leading_lt_iff positive k).2 (by linarith)) below
  · refine iff_of_false (Int.not_lt.2 ?_) below
    by_cases same : q = q' ∧ m = m'
    · obtain ⟨rfl, rfl⟩ := same
      exact shown d short
    · have order := value_le_of_lt h' h (by omega)
      exact Int.not_lt.1 fun less => absurd ((leading_lt_iff positive k).1 less) (by linarith)

end Keytape.Decimal
