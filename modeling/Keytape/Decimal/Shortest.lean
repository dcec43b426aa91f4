import Keytape.Decimal.Basic

/-! The fewest digits that read back to a given value.

The multiples of a power of ten form a grid. Grids are tried from the coarsest on, so
the first one with a point in the value's rounding interval gives the fewest digits.
Values are given as `significand * 2 ^ power`.
-/

set_option autoImplicit false

namespace Keytape.Decimal

inductive Tie where
  | toEven
  | up
  deriving DecidableEq, Repr

/-- Whether the upper neighbour is written for a value `rest / step` of the way from
the lower neighbour `low` to the upper one. -/
def Tie.takesUpper (tie : Tie) (low rest step : Nat) : Bool :=
  match compare (2 * rest) step, tie with
  | .lt, _ => false
  | .gt, _ => true
  | .eq, .up => true
  | .eq, .toEven => low % 2 == 1

/-- Whether the next value below is only half as far away as the next one above. -/
def narrowBelow (significand : Nat) (power : Int) : Bool :=
  significand == 2 ^ (52 : Nat) && decide (-1074 < power)

/-- The neighbour of the value on the grid of step `10 ^ exponent` that lies in its
rounding interval; of two such neighbours, the nearer. The interval ends halfway to
the adjacent values and holds its ends when the significand is even. -/
def onGrid? (tie : Tie) (significand : Nat) (power exponent : Int) : Option Decimal :=
  -- Scaled to whole numbers, values of this power are `gap` apart and grid points `step`.
  let gap := 2 ^ power.toNat * 10 ^ (-exponent).toNat
  let step := 2 ^ (-power).toNat * 10 ^ exponent.toNat
  let low := significand * gap / step
  let rest := significand * gap % step
  let within (distance limit : Nat) : Bool :=
    distance < limit || (distance == limit && significand % 2 == 0)
  -- Distances below count in quarters of a gap, as the interval may end there.
  let below := within (4 * rest) (if narrowBelow significand power then gap else 2 * gap)
  let above := within (2 * (step - rest)) gap
  match below, above with
  | true, true => some ⟨if tie.takesUpper low rest step then low + 1 else low, exponent⟩
  | true, false => some ⟨low, exponent⟩
  | false, true => some ⟨low + 1, exponent⟩
  | false, false => none

/-- An exponent whose power of ten exceeds the value, by a factor below a hundred. -/
def leadingExponent (significand : Nat) (power : Int) : Int :=
  (power + significand.log2 + 2) * 1233 / 4096 + 1

/-- The fewest digits in the rounding interval: the first hit on twenty grids, which
reach past the seventeen digits that tell all values apart. -/
def shortest? (tie : Tie) (significand : Nat) (power : Int) : Option Decimal :=
  let top := leadingExponent significand power
  (List.range 20).findSome? fun (i : Nat) => onGrid? tie significand power (top - i)

end Keytape.Decimal
