import Keytape.Curve
import Keytape.Proofs.Ascending
import Keytape.Proofs.Decimal.Hundredths
import Keytape.Proofs.Points

/-! What a curve reports of the points of a scan.

The points up to the right end are the first ones, so each of them is evaluated with the
draws of its place. Main statement: a point whose number of steps is at most the quotient is
reported, if its value is near zero as a crossing and if it lies before the right end as a
sample; the others do not lie before the computed right end.
-/

set_option autoImplicit false

namespace Keytape

/-! ## Points and their places -/

namespace Scan

variable {s : Scan} {i : Nat} {x : Float}

theorem getElem?_points (counted : i < s.points.length) : s.points[i]? = some (s.point i) := by
  have bound : i < s.count?.getD 0 := by simpa [points] using counted
  simp [points, bound]

theorem length_points_of_count? {n : Nat} (count : s.count? = some n) : s.points.length = n := by
  simp [points, count]

theorem points_of_refused (refused : s.count? = none) : s.points = [] := by
  simp [points, refused]

theorem isOrdered_of_lt_length (counted : i < s.points.length) : s.isOrdered :=
  (isValid_iff.1 (isValid_of_lt_length counted)).1

theorem pairwise_points (s : Scan) : s.points.Pairwise (· ≤ ·) := by
  refine List.pairwise_map.2 (List.pairwise_lt_range.imp_of_mem fun {i j} _ mem order => ?_)
  have counted : j < s.points.length := by simpa [points] using mem
  exact point_le_point (isOrdered_of_lt_length counted) order.le (lt_word_of_lt_length counted)

theorem getElem?_points_filter (counted : i < s.points.length) (within : s.point i ≤ s.xMax) :
    (s.points.filter fun x => x ≤ s.xMax)[i]? = some (s.point i) := by
  rw [filter_le_eq_takeWhile s.pairwise_points, getElem?_takeWhile_of_kept, getElem?_points counted]
  intro j le x here
  rw [getElem?_points (le.trans_lt counted), Option.some_inj] at here
  have ordered := isOrdered_of_lt_length counted
  exact decide_eq_true (here ▸ point_le_xMax ordered le (lt_word_of_lt_length counted) within)

theorem point_of_getElem?_filter (here : (s.points.filter fun x => x ≤ s.xMax)[i]? = some x) :
    i < s.points.length ∧ s.point i ≤ s.xMax ∧ s.point i = x := by
  have within := (List.mem_filter.1 (List.mem_of_getElem? here)).2
  rw [filter_le_eq_takeWhile s.pairwise_points] at here
  obtain ⟨counted, rfl⟩ := List.getElem?_eq_some_iff.1 (getElem?_of_takeWhile here)
  have same : s.point i = s.points[i] :=
    Option.some_inj.1 ((getElem?_points counted).symm.trans (List.getElem?_eq_getElem counted))
  rw [← same] at within ⊢
  exact ⟨counted, of_decide_eq_true within, rfl⟩

theorem getElem?_points_takeWhile (counted : i < s.points.length) (before : s.point i < s.xMax) :
    (s.points.takeWhile fun x => x < s.xMax)[i]? = some (s.point i) := by
  rw [getElem?_takeWhile_of_kept, getElem?_points counted]
  intro j le x here
  rw [getElem?_points (le.trans_lt counted), Option.some_inj] at here
  have ordered := isOrdered_of_lt_length counted
  exact decide_eq_true (here ▸ point_lt_xMax ordered le (lt_word_of_lt_length counted) before)

end Scan

namespace Curve

variable {c : Curve} {draws : Draws} {s : Scan} {xs : List Float} {x y r : Float} {i : Nat}

theorem mem_valuesAt : (x, y) ∈ c.valuesAt draws xs ↔
    ∃ i, xs[i]? = some x ∧ y = c.y (draws.skip (i * c.engine.drawCount)) x := by
  simp only [valuesAt, List.mem_map, Prod.exists, List.mk_mem_zipIdx_iff_getElem?, Prod.mk.injEq]
  constructor
  · rintro ⟨x', i, here, rfl, rfl⟩
    exact ⟨i, here, rfl⟩
  · rintro ⟨i, here, rfl⟩
    exact ⟨x, i, here, rfl, rfl⟩

theorem mem_crossings : r ∈ c.crossings draws s ↔
    ∃ x y, (x, y) ∈ c.valuesAt draws (s.points.filter fun x => x ≤ s.xMax) ∧
      y.abs < s.tolerance ∧ Decimal.hundredths x = r := by
  simp [crossings, and_assoc]

theorem exists_number?_of_mem_crossings (mem : r ∈ c.crossings draws s) :
    ∃ v, Binary.number? r = some v := by
  obtain ⟨x, y, value, _, rfl⟩ := mem_crossings.1 mem
  obtain ⟨i, here, _⟩ := mem_valuesAt.1 value
  obtain ⟨counted, within, rfl⟩ := Scan.point_of_getElem?_filter here
  obtain ⟨a, b, h, m⟩ := Scan.exists_measures (Scan.isOrdered_of_lt_length counted)
  obtain ⟨v, point, _⟩ := m.isNumber_point (Scan.lt_word_of_lt_length counted) within
  exact Decimal.exists_number?_hundredths point

/-- Crossings are numbers and no negative zeros, so the total order sorts them as ≤ does. -/
theorem xIntercepts_eq_ascending (c : Curve) (draws : Draws) (s : Scan) :
    c.xIntercepts draws s = ascending (c.crossings draws s) := by
  have zero : -0.0 ∉ c.crossings draws s := by
    intro mem
    obtain ⟨x, _, _, _, same⟩ := mem_crossings.1 mem
    exact Decimal.hundredths_ne_neg_zero x same
  exact congrArg List.eraseReps
    (mergeSort_totalLe (fun _ => exists_number?_of_mem_crossings) zero)

theorem mem_xIntercepts : r ∈ c.xIntercepts draws s ↔ r ∈ c.crossings draws s := by
  rw [xIntercepts_eq_ascending]
  refine mem_ascending fun x left y right same => ?_
  obtain ⟨_, _, _, _, rfl⟩ := mem_crossings.1 left
  obtain ⟨_, _, _, _, rfl⟩ := mem_crossings.1 right
  exact Decimal.eq_of_beq_hundredths same

/-! ## The points that are reported -/

/-- The points of a valid scan that are reported are those whose number of steps is at most
the quotient of the span and the step; the others do not lie before the computed right end. -/
theorem reached_points (c : Curve) (draws : Draws) (valid : s.isValid) (word : i < 2 ^ 64) :
    let x := s.point i
    let y := c.y (draws.skip (i * c.engine.drawCount)) x
    let reached := i.toUInt64.toFloat ≤ (s.xMax - s.xMin) / s.step
    (reached → x ≤ s.xMax → y.abs < s.tolerance → Decimal.hundredths x ∈ c.xIntercepts draws s) ∧
      (reached → x < s.xMax → (x, y) ∈ c.sample draws s) ∧
      (reached ↔ i < s.points.length) ∧
      (¬ reached → s.xMin + (s.xMax - s.xMin) ≤ x) := by
  intro x y reached
  have counted := Scan.lt_length_points_iff valid word
  refine ⟨fun within low near => ?_, fun within before => ?_, counted.symm, fun beyond => ?_⟩
  · have here := Scan.getElem?_points_filter (counted.2 within) low
    exact mem_xIntercepts.2 (mem_crossings.2 ⟨x, y, mem_valuesAt.2 ⟨i, here, rfl⟩, near, rfl⟩)
  · have here := Scan.getElem?_points_takeWhile (counted.2 within) before
    exact mem_valuesAt.2 ⟨i, here, rfl⟩
  · exact Scan.end_le_point valid word (Nat.le_of_not_lt (mt counted.1 beyond))

theorem right_end_reported :
    let draws : Draws := ⟨fun _ => 0.5, 0⟩
    let c : Curve := ⟨⟨.ofList [.reference "M", .symbol "-", .literal 1.5, .symbol "="], 0.0⟩, .empty⟩
    let s : Scan := ⟨1.0, 1.5, 0.25, 0.001⟩
    s.isValid ∧ 2 < 2 ^ 64 ∧ s.point 2 = s.xMax ∧
      Decimal.hundredths (s.point 2) ∈ c.xIntercepts draws s := by
  intro draws c s
  have valid : s.isValid := by decide +kernel
  have reported := reached_points c draws valid (by decide : 2 < 2 ^ 64)
  exact ⟨valid, by decide, by decide +kernel,
    reported.1 (by decide +kernel) (by decide +kernel) (by decide +kernel)⟩

/-- The quotient may be rounded to just below a whole number, and then the last point is not
scanned although it lies at or before the right end. -/
theorem right_end_unreported :
    let draws : Draws := ⟨fun _ => 0.5, 0⟩
    let c : Curve := ⟨⟨.ofList [.reference "M", .symbol "-", .literal 1.2, .symbol "="], 0.0⟩, .empty⟩
    let s : Scan := ⟨1.0, 1.2, 0.2, 0.001⟩
    let t : Scan := ⟨1.77, 7.47, 1.9, 0.001⟩
    (s.isValid ∧ s.point 1 ≤ s.xMax ∧ (c.y draws (s.point 1)).abs < s.tolerance ∧
        Decimal.hundredths (s.point 1) ∉ c.xIntercepts draws s) ∧
      t.isValid ∧ t.point 3 < t.xMax ∧ t.point 3 ∉ (c.sample draws t).map Prod.fst := by
  intro draws c s t
  have crossings : ∀ r ∈ c.xIntercepts draws s, r ≠ Decimal.hundredths (s.point 1) := by
    decide +kernel
  have sampled : ∀ x ∈ (c.sample draws t).map Prod.fst, x ≠ t.point 3 := by decide +kernel
  exact ⟨⟨by decide +kernel, by decide +kernel, by decide +kernel, fun mem => crossings _ mem rfl⟩,
    by decide +kernel, by decide +kernel, fun mem => sampled _ mem rfl⟩

end Curve

end Keytape
