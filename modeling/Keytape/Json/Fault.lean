import Keytape.Json.Number
import Keytape.Text.Quoted

/-! What can be wrong with a document, and where. -/

set_option autoImplicit false

namespace Keytape.Json

inductive Unfinished where
  | list
  | object
  | string
  | value
  deriving DecidableEq, Repr

inductive Malformed where
  | colonExpected
  | listEndExpected
  | objectEndExpected
  | keywordExpected
  | valueExpected
  | invalidEscape
  | invalidNumber
  | numberOutOfRange
  | controlCharacter
  | keyMustBeString
  | loneSurrogate
  | unfinishedSurrogate
  | trailingComma
  | trailingCharacters
  | tooDeep
  deriving DecidableEq, Repr

inductive Found where
  | null
  | bool (b : Bool)
  | number (n : Number)
  | string (s : String)
  | sequence
  | map
  | unitVariant

inductive Mismatch where
  | invalidType (found : Found) (expected : String)
  | invalidValue (found : Found) (expected : String)
  | invalidLength (length : Nat) (expected : String)
  | unknownVariant (name : String) (known : List String)
  | missingField (name : String)
  | duplicateField (name : String)
  | noNumber

inductive Cause where
  | unexpectedEnd (what : Unfinished)
  | malformed (what : Malformed)
  | mismatch (what : Mismatch)

/-! ## Wording -/

def Unfinished.message : Unfinished → String
  | .list => "EOF while parsing a list"
  | .object => "EOF while parsing an object"
  | .string => "EOF while parsing a string"
  | .value => "EOF while parsing a value"

def Malformed.message : Malformed → String
  | .colonExpected => "expected \x60:\x60"
  | .listEndExpected => "expected \x60,\x60 or \x60]\x60"
  | .objectEndExpected => "expected \x60,\x60 or \x60\x7d\x60"
  | .keywordExpected => "expected ident"
  | .valueExpected => "expected value"
  | .invalidEscape => "invalid escape"
  | .invalidNumber => "invalid number"
  | .numberOutOfRange => "number out of range"
  | .controlCharacter => "control character (\\u0000-\\u001F) found while parsing a string"
  | .keyMustBeString => "key must be a string"
  | .loneSurrogate => "lone leading surrogate in hex escape"
  | .unfinishedSurrogate => "unexpected end of hex escape"
  | .trailingComma => "trailing comma"
  | .trailingCharacters => "trailing characters"
  | .tooDeep => "recursion limit exceeded"

def ticked (s : String) : String := "\x60" ++ s ++ "\x60"

def Number.found : Number → String
  | .natural n => "integer " ++ ticked (toString n)
  | .negative n => "integer " ++ ticked ("-" ++ toString n)
  | .float x => "floating point " ++ ticked (String.ofList ((numberChars? x).getD []))

def Found.message : Found → String
  | .null => "null"
  | .bool true => "boolean " ++ ticked "true"
  | .bool false => "boolean " ++ ticked "false"
  | .number n => n.found
  | .string s => "string " ++ Text.quoted s
  | .sequence => "sequence"
  | .map => "map"
  | .unitVariant => "unit variant"

def expectedNames (known : List String) : String :=
  match known.map ticked with
  | [] => "there are no variants"
  | [a] => "expected " ++ a
  | [a, b] => "expected " ++ a ++ " or " ++ b
  | names => "expected one of " ++ ", ".intercalate names

def Mismatch.message : Mismatch → String
  | .invalidType found expected => s!"invalid type: {found.message}, expected {expected}"
  | .invalidValue found expected => s!"invalid value: {found.message}, expected {expected}"
  | .invalidLength n expected => s!"invalid length {n}, expected {expected}"
  | .unknownVariant name known => s!"unknown variant {ticked name}, {expectedNames known}"
  | .missingField name => s!"missing field {ticked name}"
  | .duplicateField name => s!"duplicate field {ticked name}"
  | .noNumber => "data did not match any variant of untagged enum Repr"

def Cause.message : Cause → String
  | .unexpectedEnd what => what.message
  | .malformed what => what.message
  | .mismatch what => what.message

/-! ## Places -/

/-- A cause with the number of bytes that follow the place it was found at. -/
structure Fault where
  cause : Cause
  left : Nat

/-- A cause with its line and its column in bytes; lines count from one. -/
structure Error where
  cause : Cause
  line : Nat
  column : Nat

def Fault.locate (f : Fault) (text : String) : Error :=
  let before := text.toUTF8.toList.take (text.utf8ByteSize - f.left)
  ⟨f.cause, 1 + before.count 10, (before.reverse.takeWhile (· != 10)).length⟩

def Error.message (e : Error) : String :=
  s!"{e.cause.message} at line {e.line} column {e.column}"

end Keytape.Json
