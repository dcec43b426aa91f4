import Keytape.Proofs.Binary.Arithmetic
import Keytape.Scan

/-! Points of a scan as numbers.

The number of points comes from a quotient and the points from products and sums, each of
them rounded. Main statements: the points ascend, a point is counted if its number of steps
is at most the quotient, and those that are not counted lie at or behind the computed right
end of the range.
-/

set_option autoImplicit false

namespace Keytape.Scan

open Binary

variable {s : Scan} {a b h : ℚ} {i j : Nat}

/-- The numbers of the ends and of the step. -/
structure Measures (s : Scan) (a b h : ℚ) : Prop where
  xMin : IsNumber s.xMin a
  xMax : IsNumber s.xMax b
  step : IsNumber s.step h
  ordered : a ≤ b
  ahead : 0 < h

theorem exists_measures (ordered : s.isOrdered) : ∃ a b h, s.Measures a b h := by
  simp only [isOrdered, Bool.and_eq_true, decide_eq_true_eq, gt_iff_lt] at ordered
  obtain ⟨⟨⟨⟨left, right⟩, step⟩, ahead⟩, inOrder⟩ := ordered
  obtain ⟨a, xMin⟩ := isFinite_iff.1 left
  obtain ⟨b, xMax⟩ := isFinite_iff.1 right
  obtain ⟨h, step⟩ := isFinite_iff.1 step
  exact ⟨a, b, h, xMin, xMax, step, (le_iff xMin.number?_eq xMax.number?_eq).1 inOrder,
    (lt_iff isNumber_zero.number?_eq step.number?_eq).1 ahead⟩

/-! ## Positions -/

def distance (h : ℚ) (i : Nat) : ℚ := rounded (rounded i * h)

/-- The number of a point, infinity if its distance is. -/
def position (a h : ℚ) (i : Nat) : ℚ :=
  if distance h i < limit then rounded (a + distance h i) else limit

theorem distance_mono (ahead : 0 < h) : Monotone (distance h) := fun _ _ order =>
  rounded_mono (mul_le_mul_of_nonneg_right (rounded_mono (Nat.cast_le.2 order)) ahead.le)

theorem distance_nonneg (ahead : 0 < h) (i : Nat) : 0 ≤ distance h i :=
  rounded_nonneg (mul_nonneg (rounded_nonneg i.cast_nonneg) ahead.le)

theorem position_mono (a : ℚ) (ahead : 0 < h) : Monotone (position a h) := by
  intro i j order
  have farther := distance_mono ahead order
  unfold position
  split
  · split
    · exact rounded_mono (by linarith)
    · exact rounded_le_limit _
  · rw [if_neg (by linarith)]

theorem isNumber_steps (word : i < 2 ^ 64) : IsNumber i.toUInt64.toFloat (rounded i) := by
  have steps := isNumber_toFloat i.toUInt64
  rwa [show i.toUInt64.toNat = i from Nat.mod_eq_of_lt word] at steps

namespace Measures

theorem number?_point (m : s.Measures a b h) (word : i < 2 ^ 64) :
    number? (s.point i) = some (position a h i) := by
  have product : number? (i.toUInt64.toFloat * s.step) = some (distance h i) :=
    (isNumber_steps word).mul m.step
  unfold position point
  rcases limit_or_isNumber product (distance_nonneg m.ahead i) with infinite | finite
  · have far : distance h i = limit := Option.some_inj.1 (product.symm.trans infinite)
    rw [far, if_neg (lt_irrefl limit)]
    exact m.xMin.add_limit infinite
  · rw [if_pos finite.lt_limit]
    exact m.xMin.add finite

theorem position_zero (m : s.Measures a b h) : position a h 0 = a := by
  have here : distance h 0 = 0 := by simp [distance]
  rw [position, here, if_pos limit_pos, add_zero, rounded_of_number? m.xMin.number?_eq]

theorem number?_point_zero (m : s.Measures a b h) : number? (s.point 0) = some a := by
  rw [m.number?_point (by decide), m.position_zero]

theorem isNumber_point (m : s.Measures a b h) (word : i < 2 ^ 64) (within : s.point i ≤ s.xMax) :
    ∃ v, IsNumber (s.point i) v ∧ a ≤ v ∧ v ≤ b := by
  have number := m.number?_point word
  have upper : position a h i ≤ b := (le_iff number m.xMax.number?_eq).1 within
  have lower : a ≤ position a h i := by
    simpa [m.position_zero] using position_mono a m.ahead (Nat.zero_le i)
  have below : |position a h i| < limit :=
    abs_lt.2 ⟨(abs_lt.1 m.xMin.abs_lt).1.trans_le lower, upper.trans_lt m.xMax.lt_limit⟩
  exact ⟨_, isNumber_of_abs_lt number below, lower, upper⟩

end Measures

/-- Points ascend. -/
theorem point_le_point (ordered : s.isOrdered) (order : i ≤ j) (word : j < 2 ^ 64) :
    s.point i ≤ s.point j := by
  obtain ⟨a, b, h, m⟩ := exists_measures ordered
  rw [le_iff (m.number?_point (order.trans_lt word)) (m.number?_point word)]
  exact position_mono a m.ahead order

theorem point_le_xMax (ordered : s.isOrdered) (order : i ≤ j) (word : j < 2 ^ 64)
    (within : s.point j ≤ s.xMax) : s.point i ≤ s.xMax := by
  obtain ⟨a, b, h, m⟩ := exists_measures ordered
  rw [le_iff (m.number?_point word) m.xMax.number?_eq] at within
  rw [le_iff (m.number?_point (order.trans_lt word)) m.xMax.number?_eq]
  exact (position_mono a m.ahead order).trans within

theorem point_lt_xMax (ordered : s.isOrdered) (order : i ≤ j) (word : j < 2 ^ 64)
    (before : s.point j < s.xMax) : s.point i < s.xMax := by
  obtain ⟨a, b, h, m⟩ := exists_measures ordered
  rw [lt_iff (m.number?_point word) m.xMax.number?_eq] at before
  rw [lt_iff (m.number?_point (order.trans_lt word)) m.xMax.number?_eq]
  exact (position_mono a m.ahead order).trans_lt before

/-! ## Counting -/

theorem isValid_iff : s.isValid ↔
    s.isOrdered ∧ (s.xMax - s.xMin) / s.step < maxPoints.toUInt64.toFloat := by
  unfold isValid count?
  dsimp only
  split
  · split <;> simp_all
  · simp_all

theorem isValid_of_lt_length (counted : i < s.points.length) : s.isValid := by
  unfold isValid
  cases count : s.count? with
  | none => simp [points, count] at counted
  | some n => rfl

theorem length_points (valid : s.isValid) :
    s.points.length = ((s.xMax - s.xMin) / s.step).toUInt64.toNat + 1 := by
  obtain ⟨ordered, few⟩ := isValid_iff.1 valid
  simp [points, count?, ordered, few]

/-- The number of steps in the range, before it is cut off behind the point. -/
def intervals (a b h : ℚ) : ℚ := rounded (rounded (b - a) / h)

theorem isNumber_maxPoints : IsNumber maxPoints.toUInt64.toFloat maxPoints :=
  isNumber_natCast (by decide)

namespace Measures

theorem intervals_nonneg (m : s.Measures a b h) : 0 ≤ intervals a b h :=
  rounded_nonneg (div_nonneg (rounded_nonneg (sub_nonneg.2 m.ordered)) m.ahead.le)

theorem isNumber_span (m : s.Measures a b h) (valid : s.isValid) :
    IsNumber (s.xMax - s.xMin) (rounded (b - a)) := by
  have spanned : 0 ≤ rounded (b - a) := rounded_nonneg (sub_nonneg.2 m.ordered)
  refine (limit_or_isNumber (m.xMax.sub m.xMin) spanned).resolve_left fun infinite => ?_
  have few := (lt_iff (IsNumber.limit_div infinite m.step m.ahead) isNumber_maxPoints.number?_eq).1
    (isValid_iff.1 valid).2
  exact absurd few (not_lt.2 isNumber_maxPoints.lt_limit.le)

theorem intervals_lt (m : s.Measures a b h) (valid : s.isValid) : intervals a b h < maxPoints :=
  (lt_iff ((m.isNumber_span valid).div m.step m.ahead.ne') isNumber_maxPoints.number?_eq).1
    (isValid_iff.1 valid).2

theorem isNumber_intervals (m : s.Measures a b h) (valid : s.isValid) :
    IsNumber ((s.xMax - s.xMin) / s.step) (intervals a b h) := by
  refine isNumber_of_abs_lt ((m.isNumber_span valid).div m.step m.ahead.ne') ?_
  rw [abs_of_nonneg m.intervals_nonneg]
  exact (m.intervals_lt valid).trans isNumber_maxPoints.lt_limit

theorem length_points_eq (m : s.Measures a b h) (valid : s.isValid) :
    s.points.length = ⌊intervals a b h⌋₊ + 1 := by
  have small : intervals a b h < 2 ^ 64 :=
    (m.intervals_lt valid).trans (by exact_mod_cast (by decide : maxPoints < 2 ^ 64))
  rw [length_points valid, (m.isNumber_intervals valid).toNat_toUInt64 m.intervals_nonneg small]

/-- Numbers of steps up to the bound are values, so rounding them decides nothing. -/
theorem rounded_le_intervals_iff (m : s.Measures a b h) (valid : s.isValid) (i : Nat) :
    rounded i ≤ intervals a b h ↔ i < s.points.length := by
  rw [m.length_points_eq valid, Nat.lt_add_one_iff, Nat.le_floor_iff m.intervals_nonneg]
  have few := m.intervals_lt valid
  by_cases small : i < 2 ^ 53
  · rw [rounded_natCast small]
  · have many : (maxPoints : ℚ) ≤ i := by
      exact_mod_cast (by decide : maxPoints ≤ 2 ^ 53).trans (Nat.not_lt.1 small)
    have far := rounded_mono many
    rw [rounded_natCast (by decide)] at far
    exact iff_of_false (by linarith) (by linarith)

/-- A point with more steps than the quotient is at least as far as the span. -/
theorem span_le_distance (m : s.Measures a b h) (valid : s.isValid) (word : i < 2 ^ 64)
    (more : intervals a b h < rounded i) : rounded (b - a) ≤ distance h i := by
  have below : rounded (b - a) / h < rounded i := by
    refine lt_of_not_ge fun above => absurd more (not_lt.2 ?_)
    rw [← rounded_of_number? (isNumber_steps word).number?_eq]
    exact rounded_mono above
  rw [div_lt_iff₀ m.ahead] at below
  have far := rounded_mono below.le
  rwa [rounded_of_number? (m.isNumber_span valid).number?_eq] at far

end Measures

theorem length_points_le (s : Scan) : s.points.length ≤ maxPoints := by
  refine Nat.le_of_not_lt fun many => ?_
  have valid := isValid_of_lt_length many
  obtain ⟨a, b, h, m⟩ := exists_measures (isValid_iff.1 valid).1
  have few := (Nat.floor_lt m.intervals_nonneg).2 (m.intervals_lt valid)
  rw [m.length_points_eq valid] at many
  omega

theorem lt_word_of_lt_length (counted : i < s.points.length) : i < 2 ^ 64 :=
  (counted.trans_le s.length_points_le).trans (by decide)

/-- The points of a valid scan are those whose number of steps is at most the quotient. -/
theorem lt_length_points_iff (valid : s.isValid) (word : i < 2 ^ 64) :
    i < s.points.length ↔ i.toUInt64.toFloat ≤ (s.xMax - s.xMin) / s.step := by
  obtain ⟨a, b, h, m⟩ := exists_measures (isValid_iff.1 valid).1
  rw [← m.rounded_le_intervals_iff valid,
    le_iff (isNumber_steps word).number?_eq (m.isNumber_intervals valid).number?_eq]

/-- A point that is not counted does not lie before the computed right end. -/
theorem end_le_point (valid : s.isValid) (word : i < 2 ^ 64) (uncounted : s.points.length ≤ i) :
    s.xMin + (s.xMax - s.xMin) ≤ s.point i := by
  obtain ⟨a, b, h, m⟩ := exists_measures (isValid_iff.1 valid).1
  have more := not_le.1 (mt (m.rounded_le_intervals_iff valid i).1 (Nat.not_lt.2 uncounted))
  have far := m.span_le_distance valid word more
  rw [le_iff (m.xMin.add (m.isNumber_span valid)) (m.number?_point word), position]
  split
  · exact rounded_mono (by linarith)
  · exact rounded_le_limit _

end Keytape.Scan
