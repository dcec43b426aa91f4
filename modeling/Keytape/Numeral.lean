import Keytape.Decimal.Parse
import Keytape.Decimal.Style

/-! Numerals: numbers as they are shown on the display and typed on the keypad.

`write` shows a value with the fewest digits that identify it. `read?` accepts a
wider grammar: signs, exponents, a point at either end, and names for the values
that are not finite.
-/

set_option autoImplicit false

namespace Keytape.Numeral

open Float.Model (UnpackedFloat)
open Keytape.Decimal (Style)

/-- Numbers are positional from 10⁻⁴ to below 10¹⁶; exponents carry no plus sign. -/
def style : Style where
  plainFrom := -4
  plainBelow := 16
  markPositive := false
  tie := .up

def signText : UnpackedFloat.Sign → List Char
  | .negative => ['-']
  | .positive => []

def chars (x : Float) : List Char :=
  match x.toModel.unpack with
  | .notANumber => "NaN".toList
  | .infinity s => signText s ++ "inf".toList
  | .zero s => signText s ++ "0.0".toList
  | .finite s m q _ => signText s ++ style.magnitude m q

def write (x : Float) : String :=
  String.ofList (chars x)

def named? (s : List Char) : Option Float :=
  let name := s.map Char.toLower
  if name = "inf".toList ∨ name = "infinity".toList then some (1.0 / 0.0)
  else if name = "nan".toList then some (0.0 / 0.0)
  else none

def unsigned? (s : List Char) : Option Float :=
  (named? s).or ((Decimal.parse? s).map Decimal.toFloat)

/-- The value of a numeral, correctly rounded; `none` for any other text. -/
def readChars? : List Char → Option Float
  | '-' :: s => (unsigned? s).map Float.neg
  | '+' :: s => unsigned? s
  | s => unsigned? s

def read? (s : String) : Option Float :=
  readChars? s.toList

end Keytape.Numeral
