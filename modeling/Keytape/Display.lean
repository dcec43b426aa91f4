import Keytape.Evaluation

/-! The display: what a front end shows after an input. -/

set_option autoImplicit false

namespace Keytape

structure Display where
  /-- The main line; `none` keeps what is shown already. -/
  main : Option String
  caption : String
  isPending : Bool
  error : Option DomainError
  deriving BEq

namespace Display

/-- Dots follow a pending description and an equals sign a complete one. -/
def captionOf (o : Outcome) : String :=
  if o.description.isEmpty then ""
  else if o.isPending then o.description ++ "..."
  else o.description ++ " ="

/-- An error takes the main line. Otherwise the value does, unless it depends on a memory
slot that is not set. -/
def mainOf (memorySet : Bool) (o : Outcome) : Option String :=
  match o.error with
  | some e => some e.message
  | none => (o.value.filter fun _ => memorySet || !o.mentionsMemory).map Numeral.write

def ofOutcome (memorySet : Bool) (o : Outcome) : Display :=
  ⟨mainOf memorySet o, captionOf o, o.isPending, o.error⟩

end Display

end Keytape
