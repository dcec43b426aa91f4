import Keytape.Json.Digits
import Keytape.Json.Quote

/-! Reading values. -/

set_option autoImplicit false

namespace Keytape.Json

namespace Reader

inductive Start where
  | null
  | bool (b : Bool)
  | number
  | string
  | list
  | object
  | stray
  | ended

def Start.of : Option Char → Start
  | none => .ended
  | some 'n' => .null
  | some 't' => .bool true
  | some 'f' => .bool false
  | some '"' => .string
  | some '[' => .list
  | some '\x7b' => .object
  | some c => if c == '-' || c.isDigit then .number else .stray

def start : Reader Start := Start.of <$> peekPastBlanks

def null : Reader Unit := keyword "null".toList

def truth (b : Bool) : Reader Unit := keyword (if b then "true".toList else "false".toList)

/-! ## Values of any kind -/

/-- Passes over a value that does not matter. It must be well formed, but its nesting,
its numbers and its surrogates are not judged. -/
def skip : Nat → Reader Unit
  | 0 => unfinished .value
  | fuel + 1 => do
    match ← start with
    | .ended => unfinished .value
    | .stray => malformed .valueExpected
    | .null => null
    | .bool b => truth b
    | .number => passNumber
    | .string => skipString
    | .list =>
      drop
      discard (items (skip fuel) (fuel + 1) true)
    | .object =>
      drop
      members skipString (fun _ _ => do colon; skip fuel) (fuel + 1) true ()

/-- A value of which only numbers and strings matter. -/
inductive Scalar where
  | number (x : Float)
  | string (s : String)
  | other

def scalar : Nat → Nat → Reader Scalar
  | 0, _ => unfinished .value
  | fuel + 1, depth => do
    match ← start with
    | .ended => unfinished .value
    | .stray => malformed .valueExpected
    | .null =>
      null
      return .other
    | .bool b =>
      truth b
      return .other
    | .number => return .number (← number).toFloat
    | .string => return .string (← string)
    | .list =>
      nested depth fun depth => do
        discard (items (scalar fuel depth) (fuel + 1) true)
        return .other
    | .object =>
      nested depth fun depth => do
        members string (fun _ _ => do colon; discard (scalar fuel depth)) (fuel + 1) true ()
        return .other

/-- Refuses the next value, which is not of the expected type. Its own faults come first;
lists and objects are not looked into. -/
def unexpected {α : Type} (expected : String) : Reader α := do
  match ← start with
  | .ended => unfinished .value
  | .stray => malformed .valueExpected
  | .null =>
    null
    mismatch (.invalidType .null expected)
  | .bool b =>
    truth b
    mismatch (.invalidType (.bool b) expected)
  | .number => mismatch (.invalidType (.number (← number)) expected)
  | .string => mismatch (.invalidType (.string (← string)) expected)
  | .list => mismatch (.invalidType .sequence expected)
  | .object => mismatch (.invalidType .map expected)

/-! ## Values of basic types -/

def bool : Reader Bool := do
  match ← start with
  | .bool b =>
    truth b
    return b
  | _ => unexpected "a boolean"

def text : Reader String := do
  match ← start with
  | .string => string
  | _ => unexpected "a string"

/-- The name of a variant, which is refused for its first character if it is no string. -/
def key : Reader String := do
  match ← start with
  | .ended => unfinished .value
  | .string => string
  | _ => malformed .keyMustBeString

def unit : Reader Unit := do
  match ← start with
  | .null => null
  | _ => unexpected "unit"

def option {α : Type} (present : Reader α) : Reader (Option α) := do
  match ← start with
  | .null =>
    null
    return none
  | _ => some <$> present

def plainFloat : Reader Float := do
  match ← start with
  | .number => return (← number).toFloat
  | _ => unexpected "f64"

def float (depth : Nat) : Reader Float := do
  match ← scalar (← rounds) depth with
  | .number x => pure x
  | .string "NaN" => pure (0.0 / 0.0)
  | .string "inf" => pure (1.0 / 0.0)
  | .string "-inf" => pure (-(1.0 / 0.0))
  | .string s => mismatch (.invalidValue (.string s) "a number, \"inf\", \"-inf\" or \"NaN\"")
  | .other => mismatch .noNumber

def wholeBelow (limit : Nat) (expected : String) : Reader Nat := do
  match ← start with
  | .number =>
    match ← number with
    | .natural n =>
      if n < limit then pure n else mismatch (.invalidValue (.number (.natural n)) expected)
    | .negative n => mismatch (.invalidValue (.number (.negative n)) expected)
    | .float x => mismatch (.invalidType (.number (.float x)) expected)
  | _ => unexpected expected

def list {α : Type} (depth : Nat) (item : Nat → Reader α) : Reader (List α) := do
  match ← start with
  | .list => nested depth fun depth => do items (item depth) (← rounds) true
  | _ => unexpected "a sequence"

def table {α σ : Type} (depth : Nat) (value : Reader α) (insert : σ → String → α → σ) (empty : σ) :
    Reader σ := do
  match ← start with
  | .object =>
    nested depth fun _ => do
      let member (name : String) (acc : σ) : Reader σ := do
        colon
        return insert acc name (← value)
      members string member (← rounds) true empty
  | _ => unexpected "a map"

def finish : Reader Unit := do
  match ← peekPastBlanks with
  | none => pure ()
  | some _ => malformed .trailingCharacters

end Reader

def read {α : Type} (value : Reader α) (text : String) : Except Error α :=
  let whole : Reader α := do
    let a ← value
    Reader.finish
    return a
  match whole.run text.toList with
  | .ok (a, _) => .ok a
  | .error f => .error (f.locate text)

end Keytape.Json
