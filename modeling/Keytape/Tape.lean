/-! The tape: every input of the calculator, oldest first.

The tape changes at its end only. Any sequence of tokens is a legal tape, and what its
symbols and names mean is decided when it is folded.
-/

set_option autoImplicit false

namespace Keytape

inductive Token where
  | literal (value : Float)
  /-- An operation symbol, registered or not. -/
  | symbol (text : String)
  | reference (name : String)
  deriving BEq, Inhabited

/-- The name of the memory slot, which falls back to the engine's stored value. -/
def memoryName : String := "M"

structure Tape where
  tokens : List Token
  deriving BEq, Inhabited

namespace Tape

def empty : Tape := ⟨[]⟩

def ofList (tokens : List Token) : Tape := ⟨tokens⟩

def toList (t : Tape) : List Token := t.tokens

def push (t : Tape) (token : Token) : Tape := ⟨t.tokens ++ [token]⟩

def pop (t : Tape) : Tape := ⟨t.tokens.dropLast⟩

def last? (t : Tape) : Option Token := t.tokens.getLast?

def length (t : Tape) : Nat := t.tokens.length

def isEmpty (t : Tape) : Bool := t.tokens.isEmpty

@[simp] theorem toList_empty : empty.toList = [] := rfl

@[simp] theorem toList_ofList (tokens : List Token) : (ofList tokens).toList = tokens := rfl

@[simp] theorem toList_pop (t : Tape) : t.pop.toList = t.toList.dropLast := rfl

@[simp] theorem toList_push (t : Tape) (token : Token) : (t.push token).toList = t.toList ++ [token] :=
  rfl

@[simp] theorem pop_push (t : Tape) (token : Token) : (t.push token).pop = t := by
  simp [push, pop]

@[simp] theorem last?_push (t : Tape) (token : Token) : (t.push token).last? = some token := by
  simp [push, last?]

end Tape

end Keytape
