import Keytape.Json.Quote

/-! Writing documents.

Documents are written without blanks. Writers give the characters of a document, so
that larger documents are put together from smaller ones.
-/

set_option autoImplicit false

namespace Keytape.Json

def null : List Char := "null".toList

def bool : Bool → List Char
  | true => "true".toList
  | false => "false".toList

def array (items : List (List Char)) : List Char :=
  '[' :: ([','].intercalate items ++ [']'])

def member (name : String) (value : List Char) : List Char :=
  string name ++ ':' :: value

def object (members : List (String × List Char)) : List Char :=
  '\x7b' :: ([','].intercalate (members.map fun (name, value) => member name value) ++ ['\x7d'])

/-- A number; values that are not finite become null. -/
def number (x : Float) : List Char := (numberChars? x).getD null

def nonFiniteName (x : Float) : String :=
  if x.isNaN then "NaN" else if x < 0.0 then "-inf" else "inf"

def float (x : Float) : List Char := (numberChars? x).getD (string (nonFiniteName x))

def option {α : Type} (write : α → List Char) : Option α → List Char
  | some a => write a
  | none => null

end Keytape.Json
