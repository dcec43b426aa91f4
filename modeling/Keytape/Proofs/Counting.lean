import Keytape.Proofs.Intercepts

/-! How many points a scan has.

The number of points is one more than the greatest whole number up to the computed quotient of
the span and the step. Main statement: a scan has points just if its ends and its step are
finite, in order and ahead, and that whole number is finite and below the bound; the number is
exact, and so is the first point.
-/

set_option autoImplicit false

namespace Keytape

open Binary
open Decimal (wholeBelow isNumber_wholeBelow wholeBelow_of_limit)

namespace Scan

variable {s : Scan} {a b h : ℚ} {n : Nat}

/-! ## The quotient -/

def steps (s : Scan) : Float := wholeBelow ((s.xMax - s.xMin) / s.step)

theorem isOrdered_iff : s.isOrdered ↔ s.xMin.isFinite ∧ s.xMax.isFinite ∧ s.step.isFinite ∧
    0.0 < s.step ∧ s.xMin ≤ s.xMax := by
  simp [isOrdered, and_assoc]

theorem Measures.limit_or_isNumber_quotient (m : s.Measures a b h) :
    number? ((s.xMax - s.xMin) / s.step) = some limit ∨
      IsNumber ((s.xMax - s.xMin) / s.step) (intervals a b h) := by
  have spanned : 0 ≤ rounded (b - a) := rounded_nonneg (sub_nonneg.2 m.ordered)
  rcases limit_or_isNumber (m.xMax.sub m.xMin) spanned with infinite | span
  · exact .inl (IsNumber.limit_div infinite m.step m.ahead)
  · exact limit_or_isNumber (span.div m.step m.ahead.ne') m.intervals_nonneg

/-- The bound is a whole number, so cutting off decides nothing. -/
theorem quotient_lt_iff (ordered : s.isOrdered) :
    (s.xMax - s.xMin) / s.step < maxPoints.toUInt64.toFloat ↔
      s.steps.isFinite ∧ s.steps < maxPoints.toUInt64.toFloat := by
  obtain ⟨a, b, h, m⟩ := exists_measures ordered
  rcases m.limit_or_isNumber_quotient with infinite | number
  -- The span or the quotient overflows: neither side holds, as cutting off keeps infinity.
  · have far : ¬ (s.xMax - s.xMin) / s.step < maxPoints.toUInt64.toFloat := by
      rw [lt_iff infinite isNumber_maxPoints.number?_eq]
      exact not_lt.2 isNumber_maxPoints.lt_limit.le
    rw [steps, wholeBelow_of_limit infinite]
    exact iff_of_false far fun few => far few.2
  · have whole := isNumber_wholeBelow number
    have same : ((⌊intervals a b h⌋ : Int) : ℚ) < maxPoints ↔ intervals a b h < maxPoints := by
      rw [← Int.cast_natCast, Int.cast_lt, Int.floor_lt]
    rw [steps, lt_iff number.number?_eq isNumber_maxPoints.number?_eq,
      lt_iff whole.number?_eq isNumber_maxPoints.number?_eq, same]
    exact (and_iff_right (isFinite_iff.2 ⟨_, whole⟩)).symm

/-- The whole steps of a valid scan are exactly one less than its points. -/
theorem isNumber_steps_of_valid (valid : s.isValid) :
    IsNumber s.steps (s.points.length - 1 : Nat) := by
  obtain ⟨a, b, h, m⟩ := exists_measures (isValid_iff.1 valid).1
  have whole := isNumber_wholeBelow (m.isNumber_intervals valid)
  rw [← natCast_floor_eq_intCast_floor m.intervals_nonneg] at whole
  rw [m.length_points_eq valid, Nat.add_sub_cancel]
  exact whole

theorem length_points_eq_steps (valid : s.isValid) :
    s.points.length = s.steps.toUInt64.toNat + 1 := by
  have positive : 0 < s.points.length := by simp [length_points valid]
  have small : s.points.length - 1 < 2 ^ 64 := by
    have few := s.length_points_le
    have bound : maxPoints < 2 ^ 64 := by decide
    omega
  have cast := (isNumber_steps_of_valid valid).toNat_toUInt64 (Nat.cast_nonneg _)
    (by exact_mod_cast small)
  rw [Nat.floor_natCast] at cast
  omega

theorem count?_of_isValid (valid : s.isValid) : s.count? = some s.points.length := by
  obtain ⟨n, count⟩ := Option.isSome_iff_exists.1 valid
  rw [count, length_points_of_count? count]

theorem isValid_eq_false_iff : s.isValid = false ↔ s.count? = none := by
  simp [isValid]

theorem count?_eq_some_iff : s.count? = some n ↔ s.isValid ∧ n = s.points.length := by
  constructor
  · intro count
    exact ⟨by simp [isValid, count], (length_points_of_count? count).symm⟩
  · rintro ⟨valid, rfl⟩
    exact count?_of_isValid valid

/-! ## Scans of curves -/

theorem length_sample_le (c : Curve) (draws : Draws) (s : Scan) :
    (c.sample draws s).length ≤ s.points.length := by
  simpa [Curve.sample, Curve.valuesAt] using
    (List.takeWhile_prefix fun x => decide (x < s.xMax)).length_le

theorem length_xIntercepts_le (c : Curve) (draws : Draws) (s : Scan) :
    (c.xIntercepts draws s).length ≤ s.points.length := by
  rw [Curve.xIntercepts_eq_ascending]
  refine (length_ascending_le _).trans ?_
  rw [Curve.crossings, List.length_map]
  refine (List.length_filter_le _ _).trans ?_
  simpa [Curve.valuesAt] using List.length_filter_le _ s.points

/-- Every other scan finds the zero of the empty curve at its left end. -/
theorem refused_iff : s.count? = none ↔ ∀ (c : Curve) draws tolerance,
    c.sample draws s = [] ∧ c.xIntercepts draws { s with tolerance := tolerance } = [] := by
  constructor
  · intro refused c draws tolerance
    have sampled := length_sample_le c draws s
    have reported : (c.xIntercepts draws { s with tolerance := tolerance }).length ≤ s.points.length :=
      length_xIntercepts_le c draws _
    rw [points_of_refused refused] at sampled reported
    exact ⟨List.eq_nil_of_length_eq_zero (Nat.le_zero.1 sampled),
      List.eq_nil_of_length_eq_zero (Nat.le_zero.1 reported)⟩
  -- With a tolerance of one, the curve that is zero everywhere crosses at the first point.
  · intro nothing
    rw [← isValid_eq_false_iff, Bool.eq_false_iff]
    intro valid
    obtain ⟨a, b, h, m⟩ := exists_measures (isValid_iff.1 valid).1
    have counted : 0 < s.points.length := by simp [length_points valid]
    have within : s.point 0 ≤ s.xMax := (le_iff m.number?_point_zero m.xMax.number?_eq).2 m.ordered
    have near : (0.0 : Float).abs < 1.0 := by decide
    have found : Decimal.hundredths (s.point 0) ∈
        (Curve.mk .new .empty).xIntercepts (.ofSeed 0) { s with tolerance := 1.0 } :=
      Curve.mem_xIntercepts_iff.2 ⟨0, counted, ⟨within, near⟩, rfl⟩
    rw [(nothing _ _ _).2] at found
    cases found

theorem exists_first_sample (valid : s.isValid) (proper : s.xMin < s.xMax) (c : Curve)
    (draws : Draws) : ∃ x y rest,
      c.sample draws s = (x, y) :: rest ∧ x == s.xMin ∧ y = c.y draws x := by
  obtain ⟨a, b, h, m⟩ := exists_measures (isValid_iff.1 valid).1
  have before : s.point 0 < s.xMax := by
    rw [lt_iff m.number?_point_zero m.xMax.number?_eq]
    exact (lt_iff m.xMin.number?_eq m.xMax.number?_eq).1 proper
  have first := getElem?_points_takeWhile (by simp [length_points valid]) before
  unfold Curve.sample
  cases kept : s.points.takeWhile fun x => x < s.xMax with
  | nil =>
    rw [kept] at first
    cases first
  | cons x rest =>
    rw [kept] at first
    obtain rfl := Option.some_inj.1 first
    refine ⟨_, _, _, rfl, (beq_iff m.number?_point_zero m.xMin.number?_eq).2 rfl, ?_⟩
    rw [Nat.zero_mul, Draws.skip_zero]

/-- A scan has points just if its ends and its step are finite, in order and ahead, and the
whole steps are finite and below the bound; their number is exact and bounds what is reported.
Scans that are refused find nothing, and others that are not empty start at the left end. -/
theorem counts_whole_steps (s : Scan) :
    (∀ n, s.count? = some n ↔
      s.xMin.isFinite ∧ s.xMax.isFinite ∧ s.step.isFinite ∧ 0.0 < s.step ∧ s.xMin ≤ s.xMax ∧
        s.steps.isFinite ∧ s.steps < maxPoints.toUInt64.toFloat ∧ n = s.steps.toUInt64.toNat + 1) ∧
    (∀ n, s.count? = some n → 1 ≤ n ∧ n ≤ maxPoints ∧ IsNumber s.steps (n - 1 : Nat)) ∧
    (∀ (c : Curve) draws, (c.sample draws s).length ≤ maxPoints ∧
      (c.xIntercepts draws s).length ≤ maxPoints) ∧
    (s.isValid = false ↔ s.count? = none) ∧
    (s.count? = none ↔ ∀ (c : Curve) draws tolerance,
      c.sample draws s = [] ∧ c.xIntercepts draws { s with tolerance := tolerance } = []) ∧
    (s.isValid → s.xMin < s.xMax → ∀ (c : Curve) draws, ∃ x y rest,
      c.sample draws s = (x, y) :: rest ∧ x == s.xMin ∧ y = c.y draws x) := by
  refine ⟨fun n => ?_, fun n count => ?_, fun c draws => ?_, isValid_eq_false_iff, refused_iff,
    exists_first_sample⟩
  -- What is checked is the quotient itself, so both directions pass by the cut.
  · rw [count?_eq_some_iff]
    constructor
    · rintro ⟨valid, rfl⟩
      obtain ⟨ordered, few⟩ := isValid_iff.1 valid
      obtain ⟨left, right, step, ahead, inOrder⟩ := isOrdered_iff.1 ordered
      obtain ⟨finite, bounded⟩ := (quotient_lt_iff ordered).1 few
      exact ⟨left, right, step, ahead, inOrder, finite, bounded, length_points_eq_steps valid⟩
    · rintro ⟨left, right, step, ahead, inOrder, finite, bounded, rfl⟩
      have ordered := isOrdered_iff.2 ⟨left, right, step, ahead, inOrder⟩
      have valid := isValid_iff.2 ⟨ordered, (quotient_lt_iff ordered).2 ⟨finite, bounded⟩⟩
      exact ⟨valid, (length_points_eq_steps valid).symm⟩
  · obtain ⟨valid, rfl⟩ := count?_eq_some_iff.1 count
    exact ⟨by simp [length_points valid], s.length_points_le, isNumber_steps_of_valid valid⟩
  · exact ⟨(length_sample_le c draws s).trans s.length_points_le,
      (length_xIntercepts_le c draws s).trans s.length_points_le⟩

theorem counts_whole_steps_of_longest :
    let s : Scan := ⟨-0.0, 9999999.0, 1.0, 0.001⟩
    s.count? = some maxPoints ∧ s.isValid ∧ s.xMin < s.xMax ∧
      IsNumber s.steps (maxPoints - 1 : Nat) ∧ ∀ (c : Curve) draws, ∃ x y rest,
        c.sample draws s = (x, y) :: rest ∧ x == s.xMin ∧ y = c.y draws x := by
  intro s
  have count : s.count? = some maxPoints := by decide +kernel
  have valid : s.isValid := by decide +kernel
  have proper : s.xMin < s.xMax := by decide +kernel
  obtain ⟨_, exact, _, _, _, first⟩ := counts_whole_steps s
  exact ⟨count, valid, proper, (exact maxPoints count).2.2, first valid proper⟩

end Scan

end Keytape
