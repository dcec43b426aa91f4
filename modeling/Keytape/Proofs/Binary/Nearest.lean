import Mathlib

/-! Rounding of numbers to the nearest binary64 value.

A magnitude is rounded at its last place, 52 places behind its leading digit and not behind
the last place of the smallest values. Main statements: rounding keeps the order of numbers,
and it keeps every number that is whole at its last place.
-/

set_option autoImplicit false

namespace Keytape.Binary

/-! ## Whole numbers -/

/-- The whole number nearest to a magnitude, the even one if two are as near. -/
def halfEven (w : ℚ) : Nat :=
  let n := ⌊w⌋₊
  if w < n + 1 / 2 then n else if n + 1 / 2 < w then n + 1 else n + n % 2

theorem floor_le_halfEven (w : ℚ) : ⌊w⌋₊ ≤ halfEven w := by
  unfold halfEven
  dsimp only
  split_ifs <;> omega

theorem halfEven_le_floor_add_one (w : ℚ) : halfEven w ≤ ⌊w⌋₊ + 1 := by
  unfold halfEven
  dsimp only
  split_ifs <;> omega

theorem halfEven_mono : Monotone halfEven := by
  intro w w' order
  rcases (Nat.floor_mono order).eq_or_lt with same | below
  · unfold halfEven
    dsimp only
    rw [same]
    split_ifs <;> first | omega | linarith
  · exact (halfEven_le_floor_add_one w).trans (below.trans_le (floor_le_halfEven w'))

@[simp] theorem halfEven_natCast (n : Nat) : halfEven n = n := by simp [halfEven]

/-! ## Magnitudes -/

/-- The power of two at the last place to which a magnitude is rounded. -/
def lastPlace (v : ℚ) : Int := max (Int.log 2 v - 52) (-1074)

def nearest (v : ℚ) : ℚ := halfEven (v / 2 ^ lastPlace v) * 2 ^ lastPlace v

variable {v w : ℚ}

theorem least_le_lastPlace (v : ℚ) : -1074 ≤ lastPlace v := le_max_right _ _

theorem lastPlace_mono (pos : 0 < v) (order : v ≤ w) : lastPlace v ≤ lastPlace w :=
  max_le_max_right _ (Int.sub_le_sub_right (Int.log_mono_right pos order) _)

theorem lt_two_zpow_lastPlace (v : ℚ) : v < 2 ^ (53 + lastPlace v) := by
  have log : v < (2 : ℚ) ^ (Int.log 2 v + 1) := Int.lt_zpow_succ_log_self (by decide) v
  refine log.trans_le (zpow_le_zpow_right₀ (by norm_num) ?_)
  unfold lastPlace
  omega

theorem two_zpow_lastPlace_le (pos : 0 < v) (inner : -1074 < lastPlace v) :
    (2 : ℚ) ^ (52 + lastPlace v) ≤ v := by
  have log : (2 : ℚ) ^ Int.log 2 v ≤ v := Int.zpow_log_le_self (by decide) pos
  have place : 52 + lastPlace v = Int.log 2 v := by
    unfold lastPlace at inner ⊢
    omega
  rwa [place]

/-- The last place is told by a lower and an upper bound. -/
theorem lastPlace_eq {q : Int} (least : -1074 ≤ q) (upper : v < 2 ^ (53 + q))
    (lower : q = -1074 ∨ (2 : ℚ) ^ (52 + q) ≤ v) (pos : 0 < v) : lastPlace v = q := by
  have log : Int.log 2 v < 53 + q := (Int.lt_zpow_iff_log_lt (by decide) pos).1 upper
  unfold lastPlace
  rcases lower with rfl | lower
  · omega
  · have top : 52 + q ≤ Int.log 2 v := (Int.zpow_le_iff_le_log (by decide) pos).1 lower
    omega

theorem nearest_nonneg (v : ℚ) : 0 ≤ nearest v := by
  unfold nearest
  positivity

@[simp] theorem nearest_zero : nearest 0 = 0 := by
  have whole : halfEven 0 = 0 := by simpa using halfEven_natCast 0
  simp [nearest, whole]

theorem nearest_le_of_whole {n : Nat} (below : v ≤ n * 2 ^ lastPlace v) :
    nearest v ≤ n * 2 ^ lastPlace v := by
  have scale : (0 : ℚ) < 2 ^ lastPlace v := by positivity
  have whole := halfEven_mono ((div_le_iff₀ scale).2 below)
  rw [halfEven_natCast] at whole
  unfold nearest
  gcongr

theorem le_nearest_of_whole {n : Nat} (above : n * 2 ^ lastPlace v ≤ v) :
    n * 2 ^ lastPlace v ≤ nearest v := by
  have scale : (0 : ℚ) < 2 ^ lastPlace v := by positivity
  have whole := halfEven_mono ((le_div_iff₀ scale).2 above)
  rw [halfEven_natCast] at whole
  unfold nearest
  gcongr

theorem nearest_eq_self {n : Nat} {q : Int} (whole : v = n * 2 ^ q) (coarse : lastPlace v ≤ q) :
    nearest v = v := by
  have steps : v = (n * 2 ^ (q - lastPlace v).toNat : Nat) * 2 ^ lastPlace v := by
    push_cast
    rw [mul_assoc, ← zpow_natCast, ← zpow_add₀ (by decide), Int.toNat_of_nonneg (by omega),
      Int.sub_add_cancel, ← whole]
  exact le_antisymm ((nearest_le_of_whole steps.le).trans steps.ge)
    (steps.le.trans (le_nearest_of_whole steps.ge))

theorem nearest_le_two_zpow (v : ℚ) : nearest v ≤ 2 ^ (53 + lastPlace v) := by
  have top : (2 : ℚ) ^ (53 + lastPlace v) = (2 ^ 53 : Nat) * 2 ^ lastPlace v := by
    rw [zpow_add₀ (by decide)]
    norm_num
  rw [top]
  exact nearest_le_of_whole (top ▸ (lt_two_zpow_lastPlace v).le)

theorem two_zpow_le_nearest (pos : 0 < v) (inner : -1074 < lastPlace v) :
    (2 : ℚ) ^ (52 + lastPlace v) ≤ nearest v := by
  have bottom : (2 : ℚ) ^ (52 + lastPlace v) = (2 ^ 52 : Nat) * 2 ^ lastPlace v := by
    rw [zpow_add₀ (by decide)]
    norm_num
  rw [bottom]
  exact le_nearest_of_whole (bottom ▸ two_zpow_lastPlace_le pos inner)

theorem nearest_le_nearest (nonneg : 0 ≤ v) (order : v ≤ w) : nearest v ≤ nearest w := by
  rcases nonneg.eq_or_lt with rfl | pos
  · rw [nearest_zero]
    exact nearest_nonneg w
  · rcases (lastPlace_mono pos order).eq_or_lt with same | coarser
    · have scaled : v / 2 ^ lastPlace w ≤ w / 2 ^ lastPlace w := by gcongr
      have whole := halfEven_mono scaled
      unfold nearest
      rw [same]
      gcongr
    · -- A power of two lies between magnitudes that are rounded at different places.
      calc nearest v ≤ 2 ^ (53 + lastPlace v) := nearest_le_two_zpow v
        _ ≤ 2 ^ (52 + lastPlace w) := zpow_le_zpow_right₀ (by norm_num) (by omega)
        _ ≤ nearest w := two_zpow_le_nearest (pos.trans_le order) (by
            have least := least_le_lastPlace v
            omega)

theorem nearest_two_zpow {k : Int} (least : -1074 ≤ k) : nearest (2 ^ k) = 2 ^ k := by
  have log : Int.log 2 ((2 : ℚ) ^ k) = k := Int.log_zpow (by decide) k
  refine nearest_eq_self (show (2 : ℚ) ^ k = (1 : Nat) * 2 ^ k by simp) ?_
  unfold lastPlace
  omega

/-! ## Numbers -/

/-- The first power of two above the finite values, which stands for infinity. -/
def limit : ℚ := 2 ^ (1024 : Int)

def rounded (v : ℚ) : ℚ :=
  if v < 0 then -min (nearest (-v)) limit else min (nearest v) limit

theorem limit_pos : 0 < limit := by
  unfold limit
  positivity

theorem rounded_of_nonneg (nonneg : 0 ≤ v) : rounded v = min (nearest v) limit :=
  if_neg (not_lt.2 nonneg)

theorem rounded_two_zpow {k : Int} (least : -1074 ≤ k) (greatest : k ≤ 1024) :
    rounded (2 ^ k) = 2 ^ k := by
  rw [rounded_of_nonneg (by positivity), nearest_two_zpow least]
  exact min_eq_left (zpow_le_zpow_right₀ (by norm_num) greatest)

@[simp] theorem rounded_zero : rounded 0 = 0 := by
  simp [rounded_of_nonneg, limit_pos.le]

theorem rounded_neg (v : ℚ) : rounded (-v) = -rounded v := by
  rcases lt_trichotomy v 0 with below | rfl | above
  · rw [rounded_of_nonneg (neg_nonneg.2 below.le), rounded, if_pos below, neg_neg]
  · simp
  · rw [rounded_of_nonneg above.le, rounded, if_pos (neg_neg_iff_pos.2 above), neg_neg]

theorem rounded_mono : Monotone rounded := by
  refine monotone_of_odd_of_monotoneOn_nonneg rounded_neg fun v nonneg w _ order => ?_
  have later : 0 ≤ w := le_trans nonneg order
  rw [rounded_of_nonneg nonneg, rounded_of_nonneg later]
  exact min_le_min_right _ (nearest_le_nearest nonneg order)

theorem rounded_nonneg (nonneg : 0 ≤ v) : 0 ≤ rounded v := by
  simpa using rounded_mono nonneg

theorem abs_rounded (v : ℚ) : |rounded v| = rounded |v| := by
  rcases le_total 0 v with nonneg | nonpos
  · rw [abs_of_nonneg nonneg, abs_of_nonneg (rounded_nonneg nonneg)]
  · have upper := rounded_mono nonpos
    rw [rounded_zero] at upper
    rw [abs_of_nonpos nonpos, abs_of_nonpos upper, rounded_neg]

theorem rounded_le_limit (v : ℚ) : rounded v ≤ limit := by
  rcases le_total 0 v with nonneg | nonpos
  · rw [rounded_of_nonneg nonneg]
    exact min_le_right _ _
  · exact (by simpa using rounded_mono nonpos : rounded v ≤ 0).trans limit_pos.le

theorem rounded_natCast {n : Nat} (small : n < 2 ^ 53) : rounded n = n := by
  have upper : (n : ℚ) < 2 ^ (53 : Int) := by exact_mod_cast small
  have below : (n : ℚ) ≤ limit := upper.le.trans (zpow_le_zpow_right₀ (by norm_num) (by decide))
  have place : lastPlace n ≤ 0 := by
    rcases n.eq_zero_or_pos with rfl | pos
    · simp [lastPlace]
    · have log : Int.log 2 (n : ℚ) < 53 :=
        (Int.lt_zpow_iff_log_lt (by decide) (by exact_mod_cast pos)).1 upper
      unfold lastPlace
      omega
  rw [rounded_of_nonneg n.cast_nonneg, nearest_eq_self (by rw [zpow_zero, mul_one]) place,
    min_eq_left below]

end Keytape.Binary
