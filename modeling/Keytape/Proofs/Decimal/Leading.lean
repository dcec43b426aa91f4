import Keytape.Decimal.Style
import Keytape.Proofs.Binary.Packing

/-! The leading digit of a decimal.

The digits of a positive number do not start with a zero. Main statement: the digits that are
tried for a finite value start within two thousand places of the point.
-/

set_option autoImplicit false

namespace Keytape.Decimal

/-! ## No zero in front -/

theorem head_digitsOf_ne_zero {n : Nat} (pos : 0 < n) : (digitsOf n).head? ≠ some '0' := by
  induction n using Nat.strongRecOn with
  | ind n ih =>
    by_cases small : n < 10
    · rw [digitsOf, Nat.toDigits_of_lt_base small]
      have digits : ∀ k < 10, 0 < k → [Nat.digitChar k].head? ≠ some '0' := by decide
      exact digits n small pos
    · have first := ih (n / 10) (by omega) (by omega)
      rw [digitsOf, Nat.toDigits_of_base_le (by decide) (by omega)]
      rw [List.head?_append_of_ne_nil _ Nat.toDigits_ne_nil]
      exact first

/-! ## How many digits -/

theorem length_digitsOf_le {n k : Nat} (pos : 0 < k) (h : n < 10 ^ k) :
    (digitsOf n).length ≤ k :=
  (Nat.length_toDigits_le_iff (by decide) pos).2 h

/-- The place of the leading digit, counted from the point. -/
def leading (d : Decimal) : Int := d.exponent + (digitsOf d.digits).length - 1

variable {m : Nat} {q : Int} {d : Decimal} {tie : Tie}

theorem exponent_of_onGrid? {e : Int} (h : onGrid? tie m q e = some d) :
    d.exponent = e ∧ d.digits ≤ m * (2 ^ q.toNat * 10 ^ (-e).toNat) + 1 := by
  have low (step : Nat) := Nat.div_le_self (m * (2 ^ q.toNat * 10 ^ (-e).toNat)) step
  unfold onGrid? at h
  dsimp only at h
  split at h
  · cases h
    refine ⟨rfl, ?_⟩
    dsimp only
    split
    · exact Nat.succ_le_succ (low _)
    · exact Nat.le_succ_of_le (low _)
  · cases h
    exact ⟨rfl, Nat.le_succ_of_le (low _)⟩
  · cases h
    exact ⟨rfl, Nat.succ_le_succ (low _)⟩
  · cases h

theorem scaled_lt {scale n : Nat} (h : m < 2 ^ 53) (pos : 0 < scale) (le : scale ≤ 10 ^ n) :
    m * scale + 1 < 10 ^ (53 + n) := by
  calc m * scale + 1 ≤ m * scale + scale := Nat.add_le_add_left pos _
    _ = (m + 1) * scale := (Nat.succ_mul m scale).symm
    _ ≤ 2 ^ 53 * scale := Nat.mul_le_mul_right _ h
    _ < 10 ^ 53 * scale := Nat.mul_lt_mul_of_pos_right (by decide) pos
    _ ≤ 10 ^ 53 * 10 ^ n := Nat.mul_le_mul_left _ le
    _ = 10 ^ (53 + n) := (Nat.pow_add 10 53 n).symm

theorem leading_shortest?_le (h : Binary.Canonical m q) (short : shortest? tie m q = some d) :
    d.leading ≤ 2000 := by
  obtain ⟨i, mem, found⟩ := List.exists_of_findSome?_eq_some short
  have inside : i < 20 := List.mem_range.1 mem
  obtain ⟨exponent, digits⟩ := exponent_of_onGrid? found
  have gap (a b : Nat) : 2 ^ a * 10 ^ b ≤ 10 ^ (a + b) := by
    rw [Nat.pow_add]
    exact Nat.mul_le_mul_right _ (Nat.pow_le_pow_left (by decide) a)
  have positive (a b : Nat) : 0 < 2 ^ a * 10 ^ b :=
    Nat.mul_pos (Nat.two_pow_pos a) (Nat.pow_pos (by decide))
  have bound := Nat.lt_of_le_of_lt digits (scaled_lt h.lt (positive _ _) (gap _ _))
  have length := length_digitsOf_le (by omega) bound
  have log : m.log2 < 53 := (Nat.log2_lt (Nat.pos_iff_ne_zero.1 h.pos)).2 h.lt
  have least := h.least
  have greatest := h.greatest
  simp only [leading, leadingExponent] at *
  omega

end Keytape.Decimal
