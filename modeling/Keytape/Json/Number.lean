import Keytape.Numeral

/-! Numbers in JSON documents.

Documents have no infinities and no NaN. Where a value may be one of these, it is
written as a string instead.
-/

set_option autoImplicit false

namespace Keytape.Json

open Float.Model (UnpackedFloat)

/-- Numbers are positional from 10⁻⁵ to below 10¹⁶; positive exponents carry a plus
sign. -/
def style : Decimal.Style where
  plainFrom := -5
  plainBelow := 16
  markPositive := true
  tie := .toEven

def numberChars? (x : Float) : Option (List Char) :=
  match x.toModel.unpack with
  | .notANumber => none
  | .infinity _ => none
  | .zero s => some (Numeral.signText s ++ "0.0".toList)
  | .finite s m q _ => some (Numeral.signText s ++ style.magnitude m q)

/-- A number as a document holds it. Integers are kept apart from other numbers as far
as they fit 64 bits, unsigned or signed. -/
inductive Number where
  | natural (n : Nat)
  | negative (n : Nat)
  | float (x : Float)

namespace Number

def toFloat : Number → Float
  | .natural n => Decimal.toFloat ⟨n, 0⟩
  | .negative n => -(Decimal.toFloat ⟨n, 0⟩)
  | .float x => x

/-- The number for an integer literal; minus zero is no integer. -/
def ofInteger (isNegative : Bool) (n : Nat) : Number :=
  if isNegative then
    if 0 < n ∧ n ≤ 2 ^ (63 : Nat) then .negative n else .float (-(Decimal.toFloat ⟨n, 0⟩))
  else if n < 2 ^ (64 : Nat) then .natural n
  else .float (Decimal.toFloat ⟨n, 0⟩)

/-- The number for any other literal. That it is correctly rounded is assumed of the reader of
documents, and `rounds_ofDecimal` says what this means. -/
def ofDecimal (isNegative : Bool) (d : Decimal) : Number :=
  .float (if isNegative then -d.toFloat else d.toFloat)

end Number

end Keytape.Json
