import Keytape.Failure
import Keytape.Numeral
import Keytape.Settings
import Keytape.Text.Blank

/-! Bindings given as `NAME=VALUE`. -/

set_option autoImplicit false

namespace Keytape

structure Binding where
  name : String
  value : Float

namespace Binding

inductive Fault where
  | noEqualsSign
  | emptyName
  | emptyValue
  | invalidValue
  deriving DecidableEq, Repr

def Fault.message : Fault → String
  | .noEqualsSign => "expected NAME=VALUE"
  | .emptyName => "empty name"
  | .emptyValue => "cannot parse float from empty string"
  | .invalidValue => "invalid float literal"

/-- The parts before and after the first equals sign. -/
def split? (s : List Char) : Option (List Char × List Char) :=
  match s.dropWhile (· != '=') with
  | [] => none
  | _ :: value => some (s.takeWhile (· != '='), value)

/-- The binding that a text describes. Blanks around the name and the value are not part
of them; the name comes first where both are at fault. -/
def ofChars (s : List Char) : Except Fault Binding :=
  match split? s with
  | none => .error .noEqualsSign
  | some (before, after) =>
    let name := Text.trim before
    let value := Text.trim after
    if name.isEmpty then .error .emptyName
    else
      match Numeral.readChars? value with
      | some x => .ok ⟨String.ofList name, x⟩
      | none => .error (if value.isEmpty then .emptyValue else .invalidValue)

def parse (input : String) : Except Failure Binding :=
  (ofChars input.toList).mapError fun fault => .invalidBinding input fault.message

end Binding

namespace Settings

def withBindingArgs (s : Settings) : List String → Except Failure Settings
  | [] => .ok s
  | input :: rest =>
    match Binding.parse input with
    | .ok b => (s.withBinding b.name b.value).withBindingArgs rest
    | .error e => .error e

end Settings

end Keytape
