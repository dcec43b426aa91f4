/-! Decimals with finitely many digits, and the binary64 value each one stands for. -/

set_option autoImplicit false

-- Powers of naturals are the built-in ones, whatever algebra a module imports beside them.
attribute [instance (high)] instPowNat

namespace Keytape

/-- The number `digits * 10 ^ exponent`. -/
structure Decimal where
  digits : Nat
  exponent : Int
  deriving DecidableEq, Repr

namespace Decimal

/-- The nearest value, ties going to the even significand. Magnitudes beyond the
largest finite value become infinite, those below half the least become zero. -/
def toFloat (d : Decimal) : Float :=
  Float.ofModel (Float.Model.ofScientific d.digits d.exponent)

end Decimal

end Keytape
