import Keytape.Proofs.Crossings
import Keytape.Proofs.Locality

/-! The crossings and the samples that a curve reports.

Main statements: where nothing is drawn, the crossings are the hundredths of the points with
values near zero, strictly ascending, and they are those found among the samples and the points
at the right end.
-/

set_option autoImplicit false

namespace Keytape

open Binary

namespace Curve

variable {c : Curve} {draws : Draws} {s : Scan} {r : Float}

/-! ## Crossings -/

/-- The point is not behind the right end and its value, with the draws of its place, is within
the tolerance of zero. -/
def CrossesAt (c : Curve) (draws : Draws) (s : Scan) (i : Nat) : Prop :=
  s.point i ≤ s.xMax ∧
    (c.y (draws.skip (i * c.engine.drawCount)) (s.point i)).abs < s.tolerance

theorem mem_xIntercepts_iff : r ∈ c.xIntercepts draws s ↔
    ∃ i < s.points.length, c.CrossesAt draws s i ∧ Decimal.hundredths (s.point i) = r := by
  rw [mem_xIntercepts, mem_crossings]
  constructor
  · rintro ⟨x, y, value, near, hundredth⟩
    obtain ⟨i, here, rfl⟩ := mem_valuesAt.1 value
    obtain ⟨counted, within, rfl⟩ := Scan.point_of_getElem?_filter here
    exact ⟨i, counted, ⟨within, near⟩, hundredth⟩
  · rintro ⟨i, counted, ⟨within, near⟩, hundredth⟩
    have here := Scan.getElem?_points_filter counted within
    exact ⟨_, _, mem_valuesAt.2 ⟨i, here, rfl⟩, near, hundredth⟩

theorem pairwise_xIntercepts (c : Curve) (draws : Draws) (s : Scan) :
    (c.xIntercepts draws s).Pairwise (· < ·) := by
  rw [xIntercepts_eq_ascending]
  exact pairwise_ascending fun _ => exists_number?_of_mem_crossings

/-! ## Curves without draws -/

theorem y_of_drawless (drawless : ∀ t ∈ c.engine.tape.toList, t.isDraw = false)
    (draws draws' : Draws) (x : Float) : c.y draws x = c.y draws' x := by
  have none : c.engine.tape.toList.countP Token.isDraw = 0 :=
    List.countP_eq_zero.2 fun t mem => by simp [drawless t mem]
  have same : c.engine.evaluate (c.lookupAt x) draws = c.engine.evaluate (c.lookupAt x) draws' :=
    Engine.evaluate_congr (fun _ _ => rfl) (by rw [none, Draws.take_zero, Draws.take_zero])
  exact congrArg (fun outcome => outcome.value.getD 0.0) same

theorem valuesAt_of_drawless (drawless : ∀ t ∈ c.engine.tape.toList, t.isDraw = false)
    (draws draws' : Draws) (xs : List Float) :
    c.valuesAt draws xs = xs.map fun x => (x, c.y draws' x) := by
  have each (pair : Float × Nat) :
      c.y (draws.skip (pair.2 * c.engine.drawCount)) pair.1 = c.y draws' pair.1 :=
    y_of_drawless drawless _ draws' pair.1
  calc c.valuesAt draws xs = xs.zipIdx.map ((fun x => (x, c.y draws' x)) ∘ Prod.fst) :=
        List.map_congr_left fun pair _ => congrArg (Prod.mk pair.1) (each pair)
    _ = xs.map fun x => (x, c.y draws' x) := by rw [← List.map_map, List.zipIdx_map_fst]

/-- The crossings are the hundredths of the points in range with a value near zero, strictly
ascending; without a scan there are none. -/
theorem xIntercepts_exact (drawless : ∀ t ∈ c.engine.tape.toList, t.isDraw = false)
    (draws draws' : Draws) (s : Scan) :
    let crossings := c.xIntercepts draws s
    let near i := s.point i ≤ s.xMax ∧ (c.y draws' (s.point i)).abs < s.tolerance
    (∀ n, s.count? = some n → ∀ r,
      (crossings.contains r ↔ ∃ i < n, r == Decimal.hundredths (s.point i) ∧ near i) ∧
      (r ∈ crossings ↔ ∃ i < n, r = Decimal.hundredths (s.point i) ∧ near i)) ∧
    crossings.Pairwise (fun r t => r < t ∧ (r == t) = false) ∧
    (s.count? = none → crossings = []) := by
  intro crossings near
  have member (n : Nat) (count : s.count? = some n) (r : Float) :
      r ∈ crossings ↔ ∃ i < n, r = Decimal.hundredths (s.point i) ∧ near i := by
    rw [mem_xIntercepts_iff, Scan.length_points_of_count? count]
    refine exists_congr fun i => and_congr_right fun _ => ?_
    rw [CrossesAt, y_of_drawless drawless _ draws', and_comm, eq_comm]
  refine ⟨fun n count r => ⟨?_, member n count r⟩, ?_, fun none => ?_⟩
  -- Membership by numeric equality also finds the other zero.
  · rw [List.contains_iff_exists_mem_beq]
    constructor
    · rintro ⟨z, mem, same⟩
      obtain ⟨i, bound, rfl, crosses⟩ := (member n count z).1 mem
      exact ⟨i, bound, same, crosses⟩
    · rintro ⟨i, bound, same, crosses⟩
      exact ⟨_, (member n count _).2 ⟨i, bound, rfl, crosses⟩, same⟩
  · exact (pairwise_xIntercepts c draws s).imp fun lt => ⟨lt, beq_eq_false_of_lt lt⟩
  · refine List.eq_nil_iff_forall_not_mem.2 fun r mem => ?_
    obtain ⟨i, counted, _⟩ := mem_xIntercepts_iff.1 mem
    rw [Scan.points_of_refused none] at counted
    exact Nat.not_lt_zero i counted

/-- Three points have the same hundredth, which is reported once. -/
theorem xIntercepts_of_merged_points :
    let draws : Draws := ⟨fun _ => 0.5, 0⟩
    let c : Curve := ⟨⟨.ofList [.reference "M"], 0.0⟩, .empty⟩
    let s : Scan := ⟨-0.004, 0.004, 0.004, 1.0⟩
    (∀ t ∈ c.engine.tape.toList, t.isDraw = false) ∧ s.count? = some 3 ∧
      c.crossings draws s = [0.0, 0.0, 0.0] ∧ c.xIntercepts draws s = [0.0] ∧
      0.0 ∈ c.xIntercepts draws s ∧ (c.xIntercepts draws s).contains (-0.0) ∧
      (c.xIntercepts draws s).Pairwise fun r t => r < t ∧ (r == t) = false := by
  intro draws c s
  have drawless : ∀ t ∈ c.engine.tape.toList, t.isDraw = false := by decide
  have count : s.count? = some 3 := by decide +kernel
  obtain ⟨exact, ascend, _⟩ := xIntercepts_exact drawless draws draws s
  have crossings : c.crossings draws s = [0.0, 0.0, 0.0] := by decide +kernel
  have sorted : [0.0, 0.0, 0.0].mergeSort totalLe = [0.0, 0.0, 0.0] :=
    List.mergeSort_of_pairwise (by decide +kernel)
  have merged : c.xIntercepts draws s = [0.0] := by
    rw [xIntercepts, crossings, sorted]
    decide +kernel
  exact ⟨drawless, count, crossings, merged, (exact 3 count 0.0).2.2 ⟨0, by decide +kernel⟩,
    (exact 3 count (-0.0)).1.2 ⟨2, by decide +kernel⟩, ascend⟩

/-- The samples are all points before the right end, and adding those at the right end gives the
points whose hundredths are the crossings. -/
theorem xIntercepts_eq_sample (drawless : ∀ t ∈ c.engine.tape.toList, t.isDraw = false)
    (draws draws' : Draws) (s : Scan) :
    let samples := c.sample draws s
    let last := (s.points.filter fun x => x == s.xMax).map fun x => (x, c.y draws' x)
    let near := (samples ++ last).filter fun (_, y) => y.abs < s.tolerance
    c.xIntercepts draws s = ascending (near.map fun (x, _) => Decimal.hundredths x) ∧
    samples.map Prod.fst = s.points.filter (fun x => x < s.xMax) ∧
    (samples.map Prod.fst).Pairwise (· ≤ ·) ∧
    ∀ x y, (x, y) ∈ samples → x < s.xMax ∧ y = c.y draws' x := by
  intro samples last near
  have order := s.pairwise_points
  have before : samples = (s.points.filter fun x => x < s.xMax).map fun x => (x, c.y draws' x) := by
    rw [filter_lt_eq_takeWhile order, ← valuesAt_of_drawless drawless draws]
    rfl
  have places : samples.map Prod.fst = s.points.filter fun x => x < s.xMax := by
    rw [before, List.map_map]
    exact List.map_id _
  refine ⟨?_, places, ?_, fun x y mem => ?_⟩
  · have within : samples ++ last = c.valuesAt draws (s.points.filter fun x => x ≤ s.xMax) := by
      rw [before, ← List.map_append, ← filter_le_eq_append order,
        ← valuesAt_of_drawless drawless draws]
    change _ = ascending (((samples ++ last).filter _).map _)
    rw [within]
    exact xIntercepts_eq_ascending c draws s
  · rw [places]
    exact order.sublist List.filter_sublist
  · rw [before, List.mem_map] at mem
    obtain ⟨x, kept, pair⟩ := mem
    cases pair
    exact ⟨of_decide_eq_true (List.mem_filter.1 kept).2, rfl⟩

theorem xIntercepts_of_sample_and_right_end :
    let draws : Draws := ⟨fun _ => 0.5, 0⟩
    let c : Curve := ⟨⟨.ofList [.reference "M", .symbol "-", .literal 1.5, .symbol "="], 0.0⟩, .empty⟩
    let s : Scan := ⟨1.0, 1.5, 0.25, 0.001⟩
    (∀ t ∈ c.engine.tape.toList, t.isDraw = false) ∧ (c.sample draws s).map Prod.fst = [1.0, 1.25] ∧
      c.xIntercepts draws s = [1.5] := by
  intro draws c s
  have drawless : ∀ t ∈ c.engine.tape.toList, t.isDraw = false := by decide
  obtain ⟨crossings, places, _⟩ := xIntercepts_eq_sample drawless draws draws s
  exact ⟨drawless, places.trans (by decide +kernel), crossings.trans (by decide +kernel)⟩

end Curve

end Keytape
