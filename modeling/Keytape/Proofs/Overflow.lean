import Keytape.Report
import Keytape.Proofs.Intercepts
import Keytape.Proofs.Json.Number

/-! Crossings and intercepts that overflow.

Rounding to hundredths overflows for values whose hundredfold is too large, and crossings that
are not finite are written as null. Main statement: what is reported is finite just if no
hundredfold overflows.
-/

set_option autoImplicit false

namespace Keytape

open Binary

/-- A hundredfold between two that are finite is finite, as rounding keeps the order. -/
theorem isFinite_hundredfold_of_between {x y z : Float} {u v w : ℚ} (hx : IsNumber x u)
    (hy : IsNumber y v) (hz : IsNumber z w) (lower : u ≤ v) (upper : v ≤ w)
    (left : (x * 100.0).isFinite) (right : (z * 100.0).isFinite) : (y * 100.0).isFinite := by
  have hundredfold {t : Float} {q : ℚ} (ht : IsNumber t q) := ht.mul Decimal.isNumber_hundred
  have bottom := (abs_lt.1 (abs_lt_limit_of_isFinite left (hundredfold hx))).1
  have top := (abs_lt.1 (abs_lt_limit_of_isFinite right (hundredfold hz))).2
  have above : rounded (u * 100) ≤ rounded (v * 100) := rounded_mono (by linarith)
  have below : rounded (v * 100) ≤ rounded (w * 100) := rounded_mono (by linarith)
  exact isFinite_iff.2 ⟨_, isNumber_of_abs_lt (hundredfold hy)
    (abs_lt.2 ⟨bottom.trans_le above, below.trans_lt top⟩)⟩

namespace Curve

variable {c : Curve} {draws : Draws} {s : Scan} {i : Nat}

theorem forall_mem_xIntercepts {p : Float → Prop} : (∀ r ∈ c.xIntercepts draws s, p r) ↔
    ∀ i < s.points.length, c.CrossesAt draws s i → p (Decimal.hundredths (s.point i)) := by
  simp only [mem_xIntercepts_iff]
  constructor
  · intro all i counted crosses
    exact all _ ⟨i, counted, crosses, rfl⟩
  · rintro all _ ⟨i, counted, crosses, rfl⟩
    exact all i counted crosses

/-- Points up to the right end lie between the ends, so their hundredfolds do. -/
theorem CrossesAt.isFinite_hundredfold (crosses : c.CrossesAt draws s i)
    (counted : i < s.points.length) (left : (s.xMin * 100.0).isFinite)
    (right : (s.xMax * 100.0).isFinite) : (s.point i * 100.0).isFinite := by
  obtain ⟨a, b, h, m⟩ := Scan.exists_measures (Scan.isOrdered_of_lt_length counted)
  obtain ⟨v, point, lower, upper⟩ := m.isNumber_point (Scan.lt_word_of_lt_length counted) crosses.1
  exact isFinite_hundredfold_of_between m.xMin point m.xMax lower upper left right

/-- Crossings are no NaN and not the negative zero. They are all finite just if none of their
points has a hundredfold that overflows, for which it is enough that those of the ends do not,
and the same goes for the value at zero. Null is written just for those that are not finite. -/
theorem finite_crossings_iff (c : Curve) (draws : Draws) (s : Scan) :
    let crossings := c.xIntercepts draws s
    let report := c.summary draws s
    let written := report.xIntercepts.map Json.number
    (∀ r ∈ crossings, r.isNaN = false ∧ r ≠ -0.0) ∧
    ((∀ r ∈ crossings, r.isFinite) ↔
      ∀ i < s.points.length, c.CrossesAt draws s i → (s.point i * 100.0).isFinite) ∧
    ((s.xMin * 100.0).isFinite → (s.xMax * 100.0).isFinite → ∀ r ∈ crossings, r.isFinite) ∧
    ((c.yIntercept draws).isFinite ↔ (c.y draws 0.0 * 100.0).isFinite) ∧
    report.write = Json.object
      [("title", Json.string report.title), ("y_intercept", Json.float report.yIntercept),
        ("x_intercepts", Json.array written), ("config", s.write)] ∧
    (Json.null ∈ written ↔ ∃ r ∈ report.xIntercepts, r.isFinite = false) := by
  intro crossings report written
  have finite : (∀ r ∈ crossings, r.isFinite) ↔
      ∀ i < s.points.length, c.CrossesAt draws s i → (s.point i * 100.0).isFinite := by
    simp only [forall_mem_xIntercepts, Decimal.isFinite_hundredths, crossings]
  refine ⟨fun r mem => ?_, finite, fun left right => ?_, ?_, rfl, ?_⟩
  · obtain ⟨v, number⟩ := exists_number?_of_mem_crossings (mem_xIntercepts.1 mem)
    obtain ⟨i, _, _, rfl⟩ := mem_xIntercepts_iff.1 mem
    exact ⟨isNaN_of_number? number, Decimal.hundredths_ne_neg_zero _⟩
  · exact finite.2 fun i counted crosses => crosses.isFinite_hundredfold counted left right
  · rw [yIntercept, Decimal.isFinite_hundredths]
  · simp only [written, List.mem_map, Json.number_eq_null_iff]

theorem finite_crossings_of_default_scan :
    let draws : Draws := ⟨fun _ => 0.5, 0⟩
    let c : Curve := ⟨⟨.ofList [.reference "M"], 0.0⟩, .empty⟩
    (Scan.default.xMin * 100.0).isFinite ∧ (Scan.default.xMax * 100.0).isFinite ∧
      ∀ r ∈ c.xIntercepts draws .default, r.isFinite := by
  intro draws c
  have left : (Scan.default.xMin * 100.0).isFinite := by decide +kernel
  have right : (Scan.default.xMax * 100.0).isFinite := by decide +kernel
  exact ⟨left, right, (finite_crossings_iff c draws .default).2.2.1 left right⟩

/-- Far out a point with the value zero is reported as an infinity, and written as null. -/
theorem crossing_overflows :
    let draws : Draws := ⟨fun _ => 0.5, 0⟩
    let c : Curve := ⟨⟨.ofList [.reference "M", .symbol "-", .literal 1e307, .symbol "="], 0.0⟩, .empty⟩
    let s : Scan := ⟨1e307, 1e307, 1.0, 0.001⟩
    s.isValid ∧ c.CrossesAt draws s 0 ∧ (∃ r ∈ c.xIntercepts draws s, r.isFinite = false) ∧
      Json.null ∈ (c.summary draws s).xIntercepts.map Json.number ∧
      (c.y draws 0.0).isFinite ∧ (c.yIntercept draws).isFinite = false := by
  intro draws c s
  unfold CrossesAt
  decide +kernel

end Curve

end Keytape
