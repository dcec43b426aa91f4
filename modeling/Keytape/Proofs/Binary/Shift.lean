import Keytape.Proofs.Binary.Value

/-! Rounding of significands as rounding of the numbers they approximate.

A significand is shifted with two bits behind it, which tell where the number lies between
its whole part and the next. Main statement: a number that a significand approximates down to
its last place is rounded to the nearest value.
-/

set_option autoImplicit false

namespace Keytape.Binary

open Float.Model Float.Model.UnpackedFloat

/-! ## Shifting out zeros -/

theorem targetExponent_eq (e : Int) : Format.binary64.targetExponent e = max (e - 53) (-1074) := rfl

theorem Placed.targetExponent_eq {m : Nat} {q : Int} (h : Placed m q) :
    Format.binary64.targetExponent (totalExponent m q) = q := by
  obtain ⟨pos, lt, least, full⟩ := h
  have nonzero : m ≠ 0 := Nat.pos_iff_ne_zero.1 pos
  have log : m.log2 < 53 := (Nat.log2_lt nonzero).2 lt
  rw [Binary.targetExponent_eq, totalExponent]
  rcases full with subnormal | full
  · omega
  · have top : 52 ≤ m.log2 := (Nat.le_log2 nonzero).2 full
    omega

theorem totalExponent_scaled {m : Nat} (pos : 0 < m) (q : Int) (j : Nat) :
    totalExponent (m * 2 ^ j) (q - j) = totalExponent m q := by
  have nonzero : m ≠ 0 := Nat.pos_iff_ne_zero.1 pos
  have log : (m * 2 ^ j).log2 = m.log2 + j := by
    refine (Nat.log2_eq_iff (Nat.mul_ne_zero nonzero (Nat.ne_of_gt (Nat.two_pow_pos j)))).2 ⟨?_, ?_⟩
    · rw [Nat.pow_add]
      exact Nat.mul_le_mul_right _ (Nat.log2_self_le nonzero)
    · rw [Nat.add_right_comm, Nat.pow_add]
      exact Nat.mul_lt_mul_of_pos_right Nat.lt_log2_self (Nat.two_pow_pos j)
  rw [totalExponent, totalExponent, log]
  omega

theorem shiftRight_exact (m j : Nat) :
    (⟨m * 2 ^ j, false, false⟩ : ExtendedMantissa) >>> j = ⟨m, false, false⟩ := by
  change Nat.repeat ExtendedMantissa.shiftRightOne j _ = _
  -- The last of the shifts is taken off, which leaves an even significand for the others.
  induction j generalizing m with
  | zero => simp [Nat.repeat]
  | succ j ih =>
    have even : m * 2 ^ (j + 1) = m * 2 * 2 ^ j := by rw [Nat.pow_succ', Nat.mul_assoc]
    rw [Nat.repeat, even, ih]
    simp [ExtendedMantissa.shiftRightOne]

theorem shiftToTargetExponent_exact {m : Nat} {q : Int} (h : Placed m q) (j : Nat) :
    shiftToTargetExponent .binary64 (m * 2 ^ j) (q - j) .exact = (⟨m, false, false⟩, q) := by
  have amount : (q - (q - j)).toNat = j := by omega
  simp only [shiftToTargetExponent, totalExponent_scaled h.pos, h.targetExponent_eq,
    shiftToExponent, amount, ExtendedMantissa.ofMantissaAndAccuracy, shiftRight_exact]
  rw [Int.sub_add_cancel]

/-! ## What a significand approximates -/

/-- The significand is the whole part of the number, and the bits place the rest of it with
respect to a half. -/
def Approximates (e : ExtendedMantissa) (w : ℚ) : Prop :=
  match e with
  | ⟨m, false, false⟩ => w = m
  | ⟨m, false, true⟩ => m < w ∧ w < m + 1 / 2
  | ⟨m, true, false⟩ => w = m + 1 / 2
  | ⟨m, true, true⟩ => m + 1 / 2 < w ∧ w < m + 1

namespace Approximates

variable {e : ExtendedMantissa} {w : ℚ}

theorem bounds (h : Approximates e w) : e.mantissa ≤ w ∧ w < e.mantissa + 1 := by
  obtain ⟨m, _ | _, _ | _⟩ := e <;> simp only [Approximates] at h <;> constructor <;> linarith

theorem floor_eq (h : Approximates e w) : ⌊w⌋₊ = e.mantissa := by
  have nonneg : 0 ≤ w := (Nat.cast_nonneg _).trans h.bounds.1
  exact (Nat.floor_eq_iff nonneg).2 h.bounds

theorem roundedMantissa_eq (h : Approximates e w) : e.roundedMantissa = halfEven w := by
  rw [halfEven, h.floor_eq]
  obtain ⟨m, _ | _, _ | _⟩ := e <;> simp only [Approximates] at h ⊢
  · rw [if_pos (by linarith)]
    rfl
  · rw [if_pos (by linarith)]
    rfl
  · rw [if_neg (by linarith), if_neg (by linarith)]
    rfl
  · rw [if_neg (by linarith), if_pos (by linarith)]
    rfl

theorem shiftRightOne (h : Approximates e w) : Approximates e.shiftRightOne (w / 2) := by
  obtain ⟨m, r, s⟩ := e
  -- The last digit of the significand becomes the first of the two bits.
  obtain ⟨k, rfl | rfl⟩ := m.even_or_odd'
  · have half : 2 * k / 2 = k := by omega
    have digit : (2 * k % 2 != 0) = false := by simp
    cases r <;> cases s <;>
      simp only [Approximates, ExtendedMantissa.shiftRightOne, half, digit, Nat.cast_mul,
        Nat.cast_ofNat, Bool.or_self, Bool.or_true, Bool.or_false] at h ⊢
    · linarith
    · constructor <;> linarith
    · constructor <;> linarith
    · constructor <;> linarith
  · have half : (2 * k + 1) / 2 = k := by omega
    have digit : ((2 * k + 1) % 2 != 0) = true := by simp
    cases r <;> cases s <;>
      simp only [Approximates, ExtendedMantissa.shiftRightOne, half, digit, Nat.cast_add,
        Nat.cast_mul, Nat.cast_ofNat, Nat.cast_one, Bool.or_self, Bool.or_true, Bool.or_false] at h ⊢
    · linarith
    · constructor <;> linarith
    · constructor <;> linarith
    · constructor <;> linarith

theorem shiftRight (h : Approximates e w) (n : Nat) : Approximates (e >>> n) (w / 2 ^ n) := by
  change Approximates (Nat.repeat ExtendedMantissa.shiftRightOne n e) _
  induction n with
  | zero => simpa [Nat.repeat] using h
  | succ n ih =>
    rw [pow_succ, ← div_div]
    exact ih.shiftRightOne

end Approximates

/-! ## Last places -/

section
variable {m : Nat} {e : Int} {v : ℚ} {accuracy : Accuracy}

theorem mantissa_ofMantissaAndAccuracy (m : Nat) (accuracy : Accuracy) :
    (ExtendedMantissa.ofMantissaAndAccuracy m accuracy).mantissa = m := by
  rcases accuracy with _ | _ | _ | _ <;> rfl

/-- The leading digit of a significand is that of the numbers it approximates. -/
theorem targetExponent_eq_lastPlace (pos : 0 < m) (lower : (m : ℚ) * 2 ^ e ≤ v)
    (upper : v < (m + 1) * 2 ^ e) :
    Format.binary64.targetExponent (totalExponent m e) = lastPlace v := by
  have nonzero : m ≠ 0 := Nat.pos_iff_ne_zero.1 pos
  have scale : (0 : ℚ) < 2 ^ e := by positivity
  have number : 0 < v := lt_of_lt_of_le (mul_pos (by exact_mod_cast pos) scale) lower
  have log : Int.log 2 v = m.log2 + e := by
    have digits : (2 : ℚ) ^ m.log2 ≤ m := by exact_mod_cast Nat.log2_self_le nonzero
    have digits' : (m : ℚ) + 1 ≤ 2 ^ (m.log2 + 1) := by exact_mod_cast Nat.lt_log2_self
    refine le_antisymm (Int.lt_add_one_iff.1 ((Int.lt_zpow_iff_log_lt (by decide) number).1 ?_))
      ((Int.zpow_le_iff_le_log (by decide) number).1 ?_)
    · calc
        v < (m + 1) * 2 ^ e := upper
        _ ≤ 2 ^ (m.log2 + 1) * 2 ^ e := mul_le_mul_of_nonneg_right digits' scale.le
        _ = 2 ^ (m.log2 + e + 1) := by
          rw [← zpow_natCast, ← zpow_add₀ (by decide)]
          congr 1
          omega
    · calc
        (2 : ℚ) ^ (m.log2 + e) = 2 ^ m.log2 * 2 ^ e := by
          rw [zpow_add₀ (by decide), zpow_natCast]
        _ ≤ m * 2 ^ e := mul_le_mul_of_nonneg_right digits scale.le
        _ ≤ v := lower
  rw [targetExponent_eq, lastPlace, log, totalExponent]
  omega

/-- Numbers below the first digit are rounded at the last place of all. -/
theorem targetExponent_eq_lastPlace_of_lt (pos : 0 < v) (upper : v < 2 ^ e)
    (fine : e ≤ lastPlace v) : Format.binary64.targetExponent (totalExponent 0 e) = lastPlace v := by
  have log : Int.log 2 v < e := (Int.lt_zpow_iff_log_lt (by decide) pos).1 upper
  have digits : Nat.log2 0 = 0 := rfl
  rw [targetExponent_eq, totalExponent, digits]
  unfold lastPlace at fine ⊢
  omega

theorem shiftToTargetExponent_eq (pos : 0 < v)
    (near : Approximates (.ofMantissaAndAccuracy m accuracy) (v / 2 ^ e)) (fine : e ≤ lastPlace v) :
    ∃ em, shiftToTargetExponent .binary64 m e accuracy = (em, lastPlace v) ∧
      Approximates em (v / 2 ^ lastPlace v) := by
  have scale : (0 : ℚ) < 2 ^ e := by positivity
  obtain ⟨lower, upper⟩ := near.bounds
  rw [mantissa_ofMantissaAndAccuracy] at lower upper
  rw [le_div_iff₀ scale] at lower
  rw [div_lt_iff₀ scale] at upper
  have target : Format.binary64.targetExponent (totalExponent m e) = lastPlace v := by
    rcases m.eq_zero_or_pos with rfl | some
    · exact targetExponent_eq_lastPlace_of_lt pos (by simpa using upper) fine
    · exact targetExponent_eq_lastPlace some lower upper
  have amount : e + ((lastPlace v - e).toNat : Int) = lastPlace v := by omega
  have place : v / 2 ^ lastPlace v = v / 2 ^ e / 2 ^ (lastPlace v - e).toNat := by
    rw [div_div, ← zpow_natCast, ← zpow_add₀ (by decide), amount]
  refine ⟨ExtendedMantissa.ofMantissaAndAccuracy m accuracy >>> (lastPlace v - e).toNat, ?_, ?_⟩
  · rw [shiftToTargetExponent, target, shiftToExponent, amount]
  · rw [place]
    exact near.shiftRight _

/-! ## Rounding -/

/-- A significand that was rounded fits, at worst at the next place. -/
theorem exists_placed {r : Nat} {t : Int} (nonzero : r ≠ 0) (upper : r ≤ 2 ^ 53)
    (least : -1074 ≤ t) (full : t = -1074 ∨ 2 ^ 52 ≤ r) :
    ∃ m q, Placed m q ∧ ∃ j : Nat, r = m * 2 ^ j ∧ t = q - j := by
  rcases upper.lt_or_eq with fits | rfl
  · exact ⟨r, t, ⟨Nat.pos_of_ne_zero nonzero, fits, least, full⟩, 0, by omega, by omega⟩
  · exact ⟨2 ^ 52, t + 1, ⟨by decide, by decide, by omega, .inr (le_refl _)⟩, 1, rfl, by omega⟩

theorem halfEven_lastPlace_le (v : ℚ) : halfEven (v / 2 ^ lastPlace v) ≤ 2 ^ 53 := by
  have scale : (0 : ℚ) < 2 ^ lastPlace v := by positivity
  have le := nearest_le_two_zpow v
  rw [nearest, zpow_add₀ (by decide)] at le
  exact_mod_cast le_of_mul_le_mul_right le scale

theorem le_halfEven_lastPlace (pos : 0 < v) :
    lastPlace v = -1074 ∨ 2 ^ 52 ≤ halfEven (v / 2 ^ lastPlace v) := by
  rcases (least_le_lastPlace v).eq_or_lt with last | inner
  · exact .inl last.symm
  · have scale : (0 : ℚ) < 2 ^ lastPlace v := by positivity
    have le := two_zpow_le_nearest pos inner
    rw [nearest, zpow_add₀ (by decide)] at le
    exact .inr (by exact_mod_cast le_of_mul_le_mul_right le scale)

theorem mantissa_shiftToTargetExponent_zero (e : Int) :
    (shiftToTargetExponent .binary64 0 e .exact).1.mantissa = 0 := by
  have shifted (j : Nat) : ((⟨0, false, false⟩ : ExtendedMantissa) >>> j) = ⟨0, false, false⟩ := by
    simpa using shiftRight_exact 0 j
  simp only [shiftToTargetExponent, shiftToExponent, ExtendedMantissa.ofMantissaAndAccuracy, shifted]

/-- The fields of a magnitude that is rounded under a sign. Those that are too large for a value
stand for infinity. -/
inductive RoundedFields (s : Sign) (v : ℚ) : UnpackedFloat → Prop where
  | zero : nearest v = 0 → RoundedFields s v (.zero s)
  | finite {m : Nat} {q : Int} (h : Placed m q) :
      nearest v = m * 2 ^ q → RoundedFields s v (.finite s m q h.pos)
  | infinity : limit ≤ nearest v → RoundedFields s v (.infinity s)

theorem RoundedFields.number?_ofFields {s : Sign} {f : UnpackedFloat} (h : RoundedFields s v f)
    (nonneg : 0 ≤ v) : number? (ofFields f) = some (rounded (signed s v)) := by
  rw [rounded_signed s nonneg]
  cases h with
  | zero none => rw [number?_zero, none, min_eq_left limit_pos.le, signed_zero]
  | finite placed number => rw [placed.number?_ofFields, number]
  | infinity large => rw [number?_infinity, min_eq_right large]

/-- A number that a significand approximates finely enough is rounded to the nearest value. -/
theorem roundedFields_roundWithAccuracy (s : Sign) (pos : 0 < v)
    (near : Approximates (.ofMantissaAndAccuracy m accuracy) (v / 2 ^ e)) (fine : e ≤ lastPlace v) :
    RoundedFields s v (roundWithAccuracy .binary64 s m e accuracy) := by
  obtain ⟨em, shifted, kept⟩ := shiftToTargetExponent_eq pos near fine
  have whole := kept.roundedMantissa_eq
  by_cases zero : halfEven (v / 2 ^ lastPlace v) = 0
  · have fields : roundWithAccuracy .binary64 s m e accuracy = .zero s := by
      simp only [roundWithAccuracy, shifted, whole, zero]
      rw [dif_pos (mantissa_shiftToTargetExponent_zero _)]
    rw [fields]
    exact .zero (by rw [nearest, zero, Nat.cast_zero, zero_mul])
  · obtain ⟨m', q, placed, j, digits, place⟩ := exists_placed zero (halfEven_lastPlace_le v)
      (least_le_lastPlace v) (le_halfEven_lastPlace pos)
    have number : nearest v = m' * 2 ^ q := by
      rw [nearest, digits, place, Nat.cast_mul, Nat.cast_pow, Nat.cast_ofNat, mul_assoc,
        ← zpow_natCast, ← zpow_add₀ (by decide), add_sub_cancel]
    have settled := shiftToTargetExponent_exact placed j
    have fields : roundWithAccuracy .binary64 s m e accuracy = .finite s m' q placed.pos := by
      rw [← place, ← digits] at settled
      simp only [roundWithAccuracy, shifted, whole, settled]
      rw [dif_neg (Nat.pos_iff_ne_zero.1 placed.pos)]
    rw [fields]
    exact .finite placed number

theorem number?_roundWithAccuracy (s : Sign) (pos : 0 < v)
    (near : Approximates (.ofMantissaAndAccuracy m accuracy) (v / 2 ^ e)) (fine : e ≤ lastPlace v) :
    number? (ofFields (roundWithAccuracy .binary64 s m e accuracy)) =
      some (rounded (signed s v)) :=
  (roundedFields_roundWithAccuracy s pos near fine).number?_ofFields pos.le

end

end Keytape.Binary
