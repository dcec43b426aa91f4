/-! Rounding values to whole numbers and to hundredths. -/

set_option autoImplicit false

namespace Keytape.Decimal

open Float.Model (UnpackedFloat)

/-- The nearest whole number; a half goes away from zero and the sign stays. Values
that are whole already, or not finite, are kept. -/
def wholeNearest (x : Float) : Float :=
  match x.toModel.unpack with
  | .finite sign m q _ =>
    if 0 ≤ q then x
    else
      let unit := 2 ^ q.natAbs
      let whole := ((m + unit / 2) / unit).toUInt64.toFloat
      match sign with
      | .positive => whole
      | .negative => -whole
  | _ => x

/-- The nearest hundredth, computed by way of a hundredfold value. The sum folds the
negative zero into zero. -/
def hundredths (x : Float) : Float :=
  wholeNearest (x * 100.0) / 100.0 + 0.0

end Keytape.Decimal
