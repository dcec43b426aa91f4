import Keytape.Decimal.Shortest

/-! How decimals are laid out as text.

A style fixes where positional writing ends, how an exponent is marked and which
digits win a tie. Every value of a style always shows a point or an exponent.
-/

set_option autoImplicit false

namespace Keytape.Decimal

structure Style where
  /-- Least exponent of a leading digit that is written positionally. -/
  plainFrom : Int
  /-- Leading digits at this exponent or above are written with an exponent. -/
  plainBelow : Int
  markPositive : Bool
  tie : Tie

def digitsOf (n : Nat) : List Char :=
  Nat.toDigits 10 n

/-- Positional writing: at least one digit on each side of the point. -/
def positional (ds : List Char) (exponent : Int) : List Char :=
  let whole := exponent + ds.length
  if 0 ≤ exponent then ds ++ List.replicate exponent.toNat '0' ++ ['.', '0']
  else if 0 < whole then ds.take whole.toNat ++ '.' :: ds.drop whole.toNat
  else '0' :: '.' :: (List.replicate (-whole).toNat '0' ++ ds)

namespace Style

def exponentPart (style : Style) (exponent : Int) : List Char :=
  let sign := if exponent < 0 then ['-'] else if style.markPositive then ['+'] else []
  'e' :: (sign ++ digitsOf exponent.natAbs)

/-- One digit before the point; a lone digit has no point. -/
def scientific (style : Style) (ds : List Char) (leading : Int) : List Char :=
  match ds with
  | [] => style.exponentPart leading
  | d :: [] => d :: style.exponentPart leading
  | d :: rest => d :: '.' :: (rest ++ style.exponentPart leading)

def layout (style : Style) (d : Decimal) : List Char :=
  let ds := digitsOf d.digits
  let leading := d.exponent + ds.length - 1
  if style.plainFrom ≤ leading ∧ leading < style.plainBelow then positional ds d.exponent
  else style.scientific ds leading

/-- The text of the positive value `significand * 2 ^ power`, with the fewest digits that are
read back as it. All values have such digits, by `exists_shortest?`. -/
def magnitude (style : Style) (significand : Nat) (power : Int) : List Char :=
  (shortest? style.tie significand power).elim [] style.layout

end Style

end Keytape.Decimal
