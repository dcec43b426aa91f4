/-! Scans of a range of the x axis at a fixed step. -/

set_option autoImplicit false

namespace Keytape

structure Scan where
  xMin : Float
  /-- The right end, which belongs to the range. -/
  xMax : Float
  step : Float
  /-- Values of smaller magnitude count as crossings. -/
  tolerance : Float
  deriving BEq

namespace Scan

def default : Scan := ⟨-10.0, 10.0, 0.001, 0.001⟩

instance : Inhabited Scan := ⟨default⟩

def maxPoints : Nat := 10000000

/-- Whether the ends and the step are finite, in order and ahead. -/
def isOrdered (s : Scan) : Bool :=
  s.xMin.isFinite && s.xMax.isFinite && s.step.isFinite && s.step > 0.0 && s.xMin ≤ s.xMax

/-- The number of points, one more than the whole steps that fit into the range. There is
none for an unusable range or for a scan of more than `maxPoints` points. -/
def count? (s : Scan) : Option Nat :=
  if s.isOrdered then
    let intervals := (s.xMax - s.xMin) / s.step
    if intervals < maxPoints.toUInt64.toFloat then some (intervals.toUInt64.toNat + 1) else none
  else none

def isValid (s : Scan) : Bool := s.count?.isSome

def point (s : Scan) (i : Nat) : Float := s.xMin + i.toUInt64.toFloat * s.step

/-- Every point in order. Rounding may put the last one past the right end. -/
def points (s : Scan) : List Float := (List.range (s.count?.getD 0)).map s.point

end Scan

end Keytape
