import Keytape.Proofs.Binary.Value
import Keytape.Proofs.Decimal.Leading

/-! The fewest digits of a value.

A decimal is taken from a grid only if the value is the nearest to it, which an interval around
the value decides. Main statements: the twenty grids that are tried hold such a decimal for every
value, and what is found is rounded to the value.
-/

set_option autoImplicit false

namespace Keytape.Decimal

open Binary (Canonical)

def toRat (d : Decimal) : ℚ := d.digits * (10 : ℚ) ^ d.exponent

variable {m : Nat} {q : Int} {d : Decimal} {tie : Tie}

theorem zpow_mul_pow_toNat {b : ℚ} (nonzero : b ≠ 0) (z : Int) :
    b ^ z * b ^ (-z).toNat = b ^ z.toNat := by
  rw [← zpow_natCast, ← zpow_natCast, ← zpow_add₀ nonzero]
  congr 1
  omega

/-! ## Distance -/

/-- The decimal is within the rounding interval, in whole numbers. Where the interval ends, the
significand is even. -/
theorem digits_of_onGrid? {e : Int} (h : onGrid? tie m q e = some d) :
    let gap := 2 ^ q.toNat * 10 ^ (-e).toNat
    let step := 2 ^ (-q).toNat * 10 ^ e.toNat
    let limit := if narrowBelow m q then gap else 2 * gap
    4 * (m * gap) ≤ 4 * (d.digits * step) + limit ∧
      (4 * (m * gap) = 4 * (d.digits * step) + limit → m % 2 = 0) ∧
      2 * (d.digits * step) ≤ 2 * (m * gap) + gap ∧
      (2 * (d.digits * step) = 2 * (m * gap) + gap → m % 2 = 0) := by
  have some : 0 < 2 ^ q.toNat * 10 ^ (-e).toNat :=
    Nat.mul_pos (Nat.two_pow_pos _) (Nat.pow_pos (by decide))
  have positive : 0 < 2 ^ (-q).toNat * 10 ^ e.toNat :=
    Nat.mul_pos (Nat.two_pow_pos _) (Nat.pow_pos (by decide))
  unfold onGrid? at h
  dsimp only at h ⊢
  generalize 2 ^ q.toNat * 10 ^ (-e).toNat = gap at h some ⊢
  generalize 2 ^ (-q).toNat * 10 ^ e.toNat = step at h positive ⊢
  generalize (if narrowBelow m q then gap else 2 * gap) = limit at h ⊢
  have split := Nat.div_add_mod (m * gap) step
  have small := Nat.mod_lt (m * gap) positive
  have upper : (m * gap / step + 1) * step = step * (m * gap / step) + step := by
    rw [Nat.add_mul, Nat.mul_comm, Nat.one_mul]
  have lower : m * gap / step * step = step * (m * gap / step) := Nat.mul_comm _ _
  -- A neighbour is taken only if it is in reach, at the very end of it for an even significand.
  have near {distance limit : Nat}
      (within : (distance < limit || (distance == limit && m % 2 == 0)) = true) :
      distance ≤ limit ∧ (distance = limit → m % 2 = 0) := by
    simp only [Bool.or_eq_true, Bool.and_eq_true, decide_eq_true_eq, beq_iff_eq] at within
    omega
  split at h
  · rename_i below above
    have before := near below
    have behind := near above
    cases h
    dsimp only
    split
    · rw [upper]; omega
    · rw [lower]; omega
  · rename_i below above
    have before := near below
    cases h
    rw [lower]
    omega
  · rename_i below above
    have behind := near above
    cases h
    rw [upper]
    omega
  · cases h

/-- How far below a value the numbers are rounded to it, in steps of the value. -/
def reachBelow (m : Nat) (q : Int) : ℚ := if narrowBelow m q then 1 / 4 else 1 / 2

/-- The number of `w` steps is rounded to the value of `m` steps. The ends of the interval go to
even significands. -/
structure InReach (m : Nat) (q : Int) (w : ℚ) : Prop where
  lower : m - reachBelow m q ≤ w
  upper : w ≤ m + 1 / 2
  even : w = m - reachBelow m q ∨ w = m + 1 / 2 → m % 2 = 0

theorem inReach_of_onGrid? {e : Int} (h : onGrid? tie m q e = some d) :
    InReach m q (d.toRat / 2 ^ q) := by
  obtain ⟨lower, lowest, upper, highest⟩ := digits_of_onGrid? h
  have two := zpow_mul_pow_toNat (b := 2) (by decide) q
  have ten := zpow_mul_pow_toNat (b := 10) (by decide) e
  have scaled : d.toRat / 2 ^ q * ((2 ^ q.toNat * 10 ^ (-e).toNat : Nat) : ℚ) =
      (d.digits * (2 ^ (-q).toNat * 10 ^ e.toNat) : Nat) := by
    push_cast
    rw [toRat, (exponent_of_onGrid? h).1, ← two, ← ten]
    field_simp
  have some : (0 : ℚ) < (2 ^ q.toNat * 10 ^ (-e).toNat : Nat) := by positivity
  generalize 2 ^ q.toNat * 10 ^ (-e).toNat = gap at *
  generalize d.digits * (2 ^ (-q).toNat * 10 ^ e.toNat) = n at *
  generalize d.toRat / 2 ^ q = w at *
  have reach : 4 * (reachBelow m q * gap) =
      ((if narrowBelow m q then gap else 2 * gap : Nat) : ℚ) := by
    unfold reachBelow
    split <;> push_cast <;> ring
  generalize (if narrowBelow m q then gap else 2 * gap) = limit at *
  refine ⟨?_, ?_, ?_⟩
  · have below : (4 * (m * gap) : ℚ) ≤ 4 * n + limit := by exact_mod_cast lower
    refine le_of_mul_le_mul_right ?_ some
    linarith
  · have above : (2 * n : ℚ) ≤ 2 * (m * gap) + gap := by exact_mod_cast upper
    refine le_of_mul_le_mul_right ?_ some
    linarith
  · rintro (rfl | rfl)
    · refine lowest ?_
      have ends : (4 * (m * gap) : ℚ) = 4 * n + limit := by linarith
      exact_mod_cast ends
    · refine highest ?_
      have ends : (2 * n : ℚ) = 2 * (m * gap) + gap := by linarith
      exact_mod_cast ends

theorem inReach_of_shortest? (short : shortest? tie m q = some d) :
    InReach m q (d.toRat / 2 ^ q) := by
  obtain ⟨i, _, found⟩ := List.exists_of_findSome?_eq_some short
  exact inReach_of_onGrid? found

theorem reachBelow_le (m : Nat) (q : Int) : reachBelow m q ≤ 1 / 2 := by
  unfold reachBelow
  split <;> norm_num

/-- The digits of a value are at most half a step away from it. -/
theorem abs_toRat_sub_le (short : shortest? tie m q = some d) :
    |d.toRat - m * (2 : ℚ) ^ q| ≤ (2 : ℚ) ^ q / 2 := by
  have step : (0 : ℚ) < 2 ^ q := by positivity
  have reach := inReach_of_shortest? short
  have lower : (m - 1 / 2) * 2 ^ q ≤ d.toRat :=
    (le_div_iff₀ step).1 ((sub_le_sub_left (reachBelow_le m q) _).trans reach.lower)
  have upper : d.toRat ≤ (m + 1 / 2) * 2 ^ q := (div_le_iff₀ step).1 reach.upper
  rw [abs_le]
  constructor <;> linarith

theorem toRat_pos_of_shortest? (h : Canonical m q) (short : shortest? tie m q = some d) :
    0 < d.toRat := by
  have near := (abs_le.1 (abs_toRat_sub_le short)).1
  have step : (0 : ℚ) < 2 ^ q := by positivity
  have one : (1 : ℚ) ≤ m := by exact_mod_cast h.pos
  nlinarith

/-! ## Rounding -/

theorem halfEven_eq {n : Nat} {w : ℚ} (lower : n - 1 / 2 ≤ w) (upper : w ≤ n + 1 / 2)
    (even : w = n - 1 / 2 ∨ w = n + 1 / 2 → n % 2 = 0) : Binary.halfEven w = n := by
  by_cases above : (n : ℚ) ≤ w
  · have floor : ⌊w⌋₊ = n := (Nat.floor_eq_iff (n.cast_nonneg.trans above)).2 ⟨above, by linarith⟩
    rcases upper.lt_or_eq with inner | ends
    · simp only [Binary.halfEven, floor, if_pos inner]
    · simp only [Binary.halfEven, floor, if_neg ends.not_lt, if_neg ends.not_gt, even (.inr ends)]
      rfl
  · cases n with
    | zero =>
      rw [Nat.cast_zero] at above
      have floor : ⌊w⌋₊ = 0 := Nat.floor_of_nonpos (by linarith)
      simp only [Binary.halfEven, floor]
      exact if_pos (by push_cast; linarith)
    | succ k =>
      push_cast at lower above even
      have floor : ⌊w⌋₊ = k :=
        (Nat.floor_eq_iff (by have := k.cast_nonneg (α := ℚ); linarith)).2 ⟨by linarith, by linarith⟩
      rcases (show (k : ℚ) + 1 / 2 ≤ w by linarith).lt_or_eq with inner | ends
      · simp only [Binary.halfEven, floor, if_neg inner.not_gt, if_pos inner]
      · have odd := even (.inl (by linarith))
        simp only [Binary.halfEven, floor, if_neg ends.le.not_gt, if_neg ends.not_lt]
        omega

theorem nearest_eq_of_lastPlace {v : ℚ} {n : Nat} {p : Int} (place : Binary.lastPlace v = p)
    (lower : n - 1 / 2 ≤ v / 2 ^ p) (upper : v / 2 ^ p ≤ n + 1 / 2)
    (even : v / 2 ^ p = n - 1 / 2 ∨ v / 2 ^ p = n + 1 / 2 → n % 2 = 0) :
    Binary.nearest v = n * 2 ^ p := by
  rw [Binary.nearest, place, halfEven_eq lower upper even]

/-- The numbers just below a power of two are rounded in half its steps. -/
theorem nearest_below_power {v : ℚ} (least : -1074 < q) (lower : (2 ^ 52 - 1 / 4 : ℚ) * 2 ^ q ≤ v)
    (below : v < 2 ^ 52 * 2 ^ q) : Binary.nearest v = 2 ^ 52 * 2 ^ q := by
  have step : (0 : ℚ) < 2 ^ (q - 1) := by positivity
  have half : (2 : ℚ) ^ q = 2 * 2 ^ (q - 1) := by
    rw [← zpow_one_add₀ (by decide), add_sub_cancel]
  have place : Binary.lastPlace v = q - 1 := by
    refine Binary.lastPlace_eq (by omega) ?_ (.inr ?_) (by rw [half] at lower; nlinarith)
    · rw [zpow_add₀ (by decide), zpow_ofNat]
      linarith
    · rw [zpow_add₀ (by decide), zpow_ofNat]
      nlinarith
  have doubled : (2 ^ 52 * 2 ^ q : ℚ) = (2 ^ 53 : Nat) * 2 ^ (q - 1) := by
    rw [half]
    push_cast
    ring
  rw [doubled] at below ⊢
  rw [half] at lower
  refine nearest_eq_of_lastPlace place ?_ ?_ fun _ => rfl
  · rw [le_div_iff₀ step]
    push_cast
    linarith
  · rw [div_le_iff₀ step]
    linarith

/-- A number in reach of a value is rounded to it. -/
theorem nearest_eq_of_inReach {v : ℚ} (h : Canonical m q) (reach : InReach m q (v / 2 ^ q)) :
    Binary.nearest v = m * 2 ^ q := by
  have step : (0 : ℚ) < 2 ^ q := by positivity
  have least := h.least
  have lower := (le_div_iff₀ step).1 reach.lower
  have upper := (div_le_iff₀ step).1 reach.upper
  have narrow := reachBelow_le m q
  have one : (1 : ℚ) ≤ m := by exact_mod_cast h.pos
  have lt : (m : ℚ) + 1 ≤ 2 ^ 53 := by exact_mod_cast h.lt
  by_cases inside : q = -1074 ∨ (2 : ℚ) ^ (52 + q) ≤ v
  · have below : v < 2 ^ (53 + q) := by
      rw [zpow_add₀ (by decide), zpow_ofNat]
      nlinarith
    have place : Binary.lastPlace v = q := Binary.lastPlace_eq least below inside (by nlinarith)
    refine nearest_eq_of_lastPlace place (by linarith [reach.lower]) reach.upper fun ends => ?_
    exact reach.even (ends.imp_left fun lowest => by linarith [reach.lower])
  · obtain ⟨inner, below⟩ := not_or.1 inside
    rw [zpow_add₀ (by decide), zpow_ofNat, not_le] at below
    have power : m = 2 ^ 52 := by
      have less : (m : ℚ) < 2 ^ 52 + 1 := lt_of_mul_lt_mul_right (by nlinarith) step.le
      have full := h.full.resolve_left inner
      have less : m < 2 ^ 52 + 1 := by exact_mod_cast less
      omega
    have quarter : reachBelow m q = 1 / 4 := by
      rw [reachBelow, narrowBelow, power, decide_eq_true (by omega : -1074 < q)]
      rfl
    rw [quarter, power] at lower
    rw [power]
    push_cast at lower ⊢
    exact nearest_below_power (by omega) lower below

/-! ## Twenty grids -/

theorem zpow_le_two_zpow {a : ℚ} (pos : 0 < a) {t z : Int} {n b : Nat} (some : n ≠ 0)
    (power : (a ^ n) ^ t ≤ (2 ^ b) ^ t) (le : b * t ≤ n * z) : a ^ t ≤ 2 ^ z := by
  refine (pow_le_pow_iff_left₀ (by positivity) (by positivity) some).1 ?_
  calc (a ^ t) ^ n = (a ^ n) ^ t := by
        rw [← zpow_natCast, ← zpow_natCast, ← zpow_mul, ← zpow_mul, mul_comm]
    _ ≤ (2 ^ b) ^ t := power
    _ = 2 ^ (b * t) := by rw [← zpow_natCast, ← zpow_mul]
    _ ≤ 2 ^ (n * z) := zpow_le_zpow_right₀ (by norm_num) le
    _ = (2 ^ z) ^ n := by rw [mul_comm, zpow_mul, zpow_natCast]

/-- The fraction stands for the logarithm of two. -/
theorem ten_zpow_le {k : Int} (least : -1100 ≤ k) (greatest : k ≤ 1100) :
    (10 : ℚ) ^ (k * 1233 / 4096) ≤ 2 ^ (k + 4) := by
  by_cases nonneg : 0 ≤ k * 1233 / 4096
  · refine zpow_le_two_zpow (n := 3) (b := 10) (by norm_num) (by decide) ?_ (by omega)
    exact zpow_le_zpow_left₀ nonneg (by norm_num) (by norm_num)
  · refine zpow_le_two_zpow (n := 28) (b := 93) (by norm_num) (by decide) ?_ (by omega)
    have inverse : ((2 : ℚ) ^ 93) ^ (-(k * 1233 / 4096)) ≤ (10 ^ 28) ^ (-(k * 1233 / 4096)) :=
      zpow_le_zpow_left₀ (by omega) (by norm_num) (by norm_num)
    rw [zpow_neg, zpow_neg] at inverse
    exact (inv_le_inv₀ (by positivity) (by positivity)).1 inverse

theorem two_mul_step_le {e : Int} (fine : 2 * (10 : ℚ) ^ e ≤ 2 ^ q) :
    2 * (2 ^ (-q).toNat * 10 ^ e.toNat) ≤ 2 ^ q.toNat * 10 ^ (-e).toNat := by
  have two := zpow_mul_pow_toNat (b := 2) (by decide) q
  have ten := zpow_mul_pow_toNat (b := 10) (by decide) e
  have scale : (0 : ℚ) < 2 ^ (-q).toNat * 10 ^ (-e).toNat := by positivity
  have scaled : (2 * (2 ^ (-q).toNat * 10 ^ e.toNat) : ℚ) ≤ 2 ^ q.toNat * 10 ^ (-e).toNat := by
    calc (2 * (2 ^ (-q).toNat * 10 ^ e.toNat) : ℚ) =
          2 * 10 ^ e * (2 ^ (-q).toNat * 10 ^ (-e).toNat) := by rw [← ten]; ring
      _ ≤ 2 ^ q * (2 ^ (-q).toNat * 10 ^ (-e).toNat) := mul_le_mul_of_nonneg_right fine scale.le
      _ = 2 ^ q.toNat * 10 ^ (-e).toNat := by rw [← two]; ring
  exact_mod_cast scaled

theorem isSome_onGrid? {e : Int} (fine : 2 * (10 : ℚ) ^ e ≤ 2 ^ q) : (onGrid? tie m q e).isSome := by
  have steps := two_mul_step_le fine
  have some : 0 < 2 ^ q.toNat * 10 ^ (-e).toNat :=
    Nat.mul_pos (Nat.two_pow_pos _) (Nat.pow_pos (by decide))
  unfold onGrid?
  dsimp only
  generalize 2 ^ q.toNat * 10 ^ (-e).toNat = gap at steps some ⊢
  generalize 2 ^ (-q).toNat * 10 ^ e.toNat = step at steps ⊢
  have wide : gap ≤ if narrowBelow m q then gap else 2 * gap := by split <;> omega
  generalize (if narrowBelow m q then gap else 2 * gap) = limit at wide ⊢
  split
  · rfl
  · rfl
  · rfl
  · rename_i below above
    simp only [Bool.or_eq_false_iff, decide_eq_false_iff_not] at below above
    omega

theorem exists_shortest? (tie : Tie) (h : Canonical m q) : ∃ d, shortest? tie m q = some d := by
  have log : m.log2 < 53 := (Nat.log2_lt (Nat.pos_iff_ne_zero.1 h.pos)).2 h.lt
  have least := h.least
  have greatest := h.greatest
  have tens := ten_zpow_le (k := q + m.log2 + 2) (by omega) (by omega)
  refine Option.isSome_iff_exists.1 (List.findSome?_isSome_iff.2 ⟨19, by decide, isSome_onGrid? ?_⟩)
  have last : leadingExponent m q - (19 : Nat) = (q + m.log2 + 2) * 1233 / 4096 - 18 := by
    rw [leadingExponent]
    omega
  rw [last, zpow_sub₀ (by decide)]
  calc 2 * ((10 : ℚ) ^ ((q + m.log2 + 2) * 1233 / 4096) / 10 ^ (18 : Int))
      ≤ 2 * (2 ^ (q + 58) / 2 ^ (59 : Int)) := by
        refine mul_le_mul_of_nonneg_left (div_le_div₀ (by positivity) (tens.trans ?_)
          (by positivity) (by norm_num)) (by norm_num)
        exact zpow_le_zpow_right₀ (by norm_num) (by omega)
    _ = 2 ^ q := by
        rw [← zpow_sub₀ (by decide), ← zpow_one_add₀ (by decide)]
        congr 1
        omega

end Keytape.Decimal
