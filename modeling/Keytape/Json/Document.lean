import Keytape.Json.Value

/-! Types whose values have documents. -/

set_option autoImplicit false

namespace Keytape.Json

class Document (α : Type) where
  write : α → List Char
  /-- Reads a value, given how deeply lists and objects may still be nested. -/
  read : Nat → Reader α

variable {α : Type} [Document α]

def encode (a : α) : String := String.ofList (Document.write a)

def decode (text : String) : Except Error α := read (Document.read maxDepth) text

end Keytape.Json
