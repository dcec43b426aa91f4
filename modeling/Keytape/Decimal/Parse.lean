import Keytape.Decimal.Basic

/-! Reading decimals: digits with at most one point, and perhaps an exponent.

The point may stand at either end, as long as there is a digit.
-/

set_option autoImplicit false

namespace Keytape.Decimal

def valueOf (ds : List Char) : Nat :=
  ds.foldl (fun n c => 10 * n + (c.toNat - '0'.toNat)) 0

def natural? (s : List Char) : Option Nat :=
  if !s.isEmpty && s.all Char.isDigit then some (valueOf s) else none

def exponent? : List Char → Option Int
  | '-' :: s => (natural? s).map fun n => -(n : Int)
  | '+' :: s => (natural? s).map fun n => (n : Int)
  | s => (natural? s).map fun n => (n : Int)

def scale? : List Char → Option Int
  | [] => some 0
  | c :: s => if c == 'e' || c == 'E' then exponent? s else none

/-- The digits after a point, if there is one, and what follows them. -/
def fraction : List Char → List Char × List Char
  | '.' :: s => (s.takeWhile Char.isDigit, s.dropWhile Char.isDigit)
  | s => ([], s)

def ofDigits (whole fraction : List Char) (exponent : Int) : Decimal :=
  ⟨valueOf (whole ++ fraction), exponent - fraction.length⟩

def parse? (s : List Char) : Option Decimal :=
  let whole := s.takeWhile Char.isDigit
  let (fraction, tail) := fraction (s.dropWhile Char.isDigit)
  if whole.isEmpty && fraction.isEmpty then none
  else (scale? tail).map (ofDigits whole fraction)

end Keytape.Decimal
