import Keytape.Decimal.Hundredths
import Keytape.Scan
import Keytape.Session

/-! The expression on the tape as a curve, the memory slot being the x axis. -/

set_option autoImplicit false

namespace Keytape

/-- The total order of values: numbers by size, the negative zero before zero, NaN last. -/
def totalLe (x y : Float) : Bool :=
  match x.toModel.unpack, y.toModel.unpack with
  | _, .notANumber => true
  | .notANumber, _ => false
  | .zero .positive, .zero .negative => false
  | _, _ => x ≤ y

/-- A snapshot of an engine and the names it was used with. -/
structure Curve where
  engine : Engine
  bindings : Bindings

namespace Curve

/-- The bound names, with the memory name standing for `x`. -/
def lookupAt (c : Curve) (x : Float) (name : String) : Option Float :=
  if name = memoryName then some x else c.bindings.lookup name

/-- The value at `x`; where there is none it counts as zero. -/
def y (c : Curve) (draws : Draws) (x : Float) : Float :=
  (c.engine.run (c.lookupAt x) draws).state.value?.getD 0.0

/-- The expression as it reads with no name bound. -/
def title (c : Curve) (draws : Draws) : String :=
  let text := (c.engine.evaluate unbound draws).description
  if text.isEmpty then "Graph" else text

/-- Each point with its value, the points drawing one after the other. -/
def valuesAt (c : Curve) (draws : Draws) (xs : List Float) : List (Float × Float) :=
  xs.zipIdx.map fun (x, i) => (x, c.y (draws.skip (i * c.engine.drawCount)) x)

/-- The points of the scan up to the first that reaches its right end. -/
def sample (c : Curve) (draws : Draws) (scan : Scan) : List (Float × Float) :=
  c.valuesAt draws (scan.points.takeWhile fun x => x < scan.xMax)

def yIntercept (c : Curve) (draws : Draws) : Float := Decimal.hundredths (c.y draws 0.0)

/-- The points whose value is within the tolerance of zero, rounded to hundredths. -/
def crossings (c : Curve) (draws : Draws) (scan : Scan) : List Float :=
  let near := (c.valuesAt draws (scan.points.filter fun x => x ≤ scan.xMax)).filter
    fun (_, y) => y.abs < scan.tolerance
  near.map fun (x, _) => Decimal.hundredths x

def xIntercepts (c : Curve) (draws : Draws) (scan : Scan) : List Float :=
  ((c.crossings draws scan).mergeSort totalLe).eraseReps

end Curve

/-- The expression as a curve, refused while a right operand is awaited. -/
def Session.curve? (s : Session) (draws : Draws) : Option Curve :=
  if (s.engine.evaluate unbound draws).isPending then none else some ⟨s.engine, s.memory⟩

end Keytape
