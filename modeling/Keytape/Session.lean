import Keytape.Bindings
import Keytape.Display
import Keytape.Engine

/-! A session: an engine and the memory beside it.

The memory is a table of bound names. The memory slot is one of them, and the session
also notes whether a value was put there, which decides whether results that mention the
slot are shown.
-/

set_option autoImplicit false

namespace Keytape

structure Session where
  engine : Engine
  memory : Bindings
  memorySet : Bool

namespace Session

def new : Session := ⟨.new, .empty, false⟩

/-! ## Input -/

def append (s : Session) (t : Token) : Session := { s with engine := s.engine.append t }

def undo (s : Session) : Session := { s with engine := s.engine.undo }

/-! ## Memory -/

def store (s : Session) (x : Float) : Session :=
  { s with memory := s.memory.insert memoryName x, memorySet := true }

/-- Binds any name; the memory name is the memory slot. -/
def bind (s : Session) (name : String) (x : Float) : Session :=
  if name = memoryName then s.store x else { s with memory := s.memory.insert name x }

def forget (s : Session) : Session := { s with memory := .empty, memorySet := false }

def reset (s : Session) : Session := { s with engine := .new }.forget

def memory? (s : Session) : Option Float := s.memory.lookup memoryName

@[simp] theorem memory?_new : new.memory? = none := rfl

@[simp] theorem memory?_store (s : Session) (x : Float) : (s.store x).memory? = some x := by
  simp [memory?, store, Bindings.lookup_insert]

@[simp] theorem memory?_forget (s : Session) : s.forget.memory? = none := rfl

theorem memory_bind (s : Session) (name : String) (x : Float) :
    (s.bind name x).memory = s.memory.insert name x := by
  unfold bind store
  split
  · rename_i isSlot
    rw [isSlot]
  · rfl

theorem lookup_bind (s : Session) (name : String) (x : Float) (other : String) :
    (s.bind name x).memory.lookup other = if other = name then some x else s.memory.lookup other := by
  rw [memory_bind]
  exact Bindings.lookup_insert s.memory name x other

/-! ## Answers -/

def evaluate (s : Session) (draws : Draws) : Outcome := s.engine.evaluate s.memory.lookup draws

def drawsAfter (s : Session) (draws : Draws) : Draws := draws.skip s.engine.drawCount

def currentValue (s : Session) (draws : Draws) : Float := (s.evaluate draws).value.getD 0.0

def display (s : Session) (draws : Draws) : Display := .ofOutcome s.memorySet (s.evaluate draws)

end Session

end Keytape
