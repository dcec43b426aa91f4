import Keytape.Json.Reader

/-! Reading numbers. -/

set_option autoImplicit false

namespace Keytape.Json.Reader

def digits : Reader (List Char) := fun s => .ok (s.takeWhile Char.isDigit, s.dropWhile Char.isDigit)

def someDigits : Reader (List Char) := do
  match ← digits with
  | [] =>
    match ← peek with
    | none => unfinished .value
    | some _ => malformed .invalidNumber
  | ds => pure ds

def wholePart : Reader (List Char) := do
  let ds ← someDigits
  match ds with
  -- The digits after the zero go back, as the fault lies there.
  | '0' :: d :: rest => fun s => malformed .invalidNumber (d :: rest ++ s)
  | _ => pure ds

def fractionPart : Reader (Option (List Char)) := do
  match ← peek with
  | some '.' =>
    drop
    some <$> someDigits
  | _ => pure none

/-- The largest exponent of a number other than zero. -/
def maxExponent : Nat := 2 ^ (31 : Nat) - 1

/-- What follows the digit that takes a run of digits beyond `limit`, if one does. The run
continues the digits of `n`. -/
def beyond? (limit n : Nat) : List Char → Option (List Char)
  | [] => none
  | c :: rest =>
    let n := 10 * n + (c.toNat - '0'.toNat)
    if limit < n then some rest else beyond? limit n rest

theorem le_continued (ds : List Char) (n : Nat) :
    n ≤ ds.foldl (fun n c => 10 * n + (c.toNat - '0'.toNat)) n := by
  induction ds generalizing n with
  | nil => exact Nat.le_refl n
  | cons c ds ih =>
    rw [List.foldl_cons]
    have step := ih (10 * n + (c.toNat - '0'.toNat))
    omega

theorem beyond?_eq_none_iff {limit n : Nat} (ds : List Char) (h : n ≤ limit) :
    beyond? limit n ds = none ↔ ds.foldl (fun n c => 10 * n + (c.toNat - '0'.toNat)) n ≤ limit := by
  induction ds generalizing n with
  | nil => simpa [beyond?] using h
  | cons c ds ih =>
    rw [beyond?, List.foldl_cons]
    split
    · rename_i past
      have grows := le_continued ds (10 * n + (c.toNat - '0'.toNat))
      constructor
      · intro impossible
        cases impossible
      · omega
    · exact ih (by omega)

/-- The digits of an exponent that is not negative. A number other than zero is refused at
the digit that takes the exponent too far, whatever follows it. -/
def risingExponent (isZero : Bool) : Reader Int := do
  let ds ← someDigits
  match if isZero then none else beyond? maxExponent 0 ds with
  | some rest => fun s => fail (.malformed .numberOutOfRange) (rest ++ s)
  | none => return Decimal.valueOf ds

def exponentPart (isZero : Bool) : Reader (Option Int) := do
  match ← peek with
  | some 'e' | some 'E' =>
    drop
    match ← peek with
    | some '-' =>
      drop
      return some (-(Decimal.valueOf (← someDigits)))
    | some '+' =>
      drop
      some <$> risingExponent isZero
    | _ => some <$> risingExponent isZero
  | _ => pure none

def minus : Reader Bool := do
  match ← peek with
  | some '-' =>
    drop
    pure true
  | _ => pure false

/-- A number; one too large for a finite value is refused. -/
def number : Reader Number := do
  let isNegative ← minus
  let whole ← wholePart
  let fraction ← fractionPart
  let exponent ← exponentPart (Decimal.valueOf (whole ++ fraction.getD []) == 0)
  let n :=
    match fraction, exponent with
    | none, none => Number.ofInteger isNegative (Decimal.valueOf whole)
    | f, e => Number.ofDecimal isNegative (Decimal.ofDigits whole (f.getD []) (e.getD 0))
  if n.toFloat.isInf then fail (.malformed .numberOutOfRange) else pure n

/-- A run of digits in a number that does not matter. A text that ends here is refused
as any other fault of the number is. -/
def passDigits : Reader (List Char) := do
  match ← digits with
  | [] => malformed .invalidNumber
  | ds => pure ds

def passNumber : Reader Unit := do
  let _ ← minus
  match ← passDigits with
  | '0' :: _ :: _ => malformed .invalidNumber
  | _ => pure ()
  if (← peek) == some '.' then
    drop
    discard passDigits
  if (← peek) == some 'e' || (← peek) == some 'E' then
    drop
    if (← peek) == some '-' || (← peek) == some '+' then drop
    discard passDigits

end Keytape.Json.Reader
