import Keytape.Evaluation

/-! The engine: a tape and the value that the memory name falls back to.

Nothing is cached. Every question folds the whole tape again, so an answer depends on
the tape, the names and the draws alone.
-/

set_option autoImplicit false

namespace Keytape

structure Engine where
  tape : Tape
  stored : Float

def unbound : String → Option Float := fun _ => none

namespace Engine

def new : Engine := ⟨.empty, 0.0⟩

def append (e : Engine) (t : Token) : Engine := { e with tape := e.tape.push t }

def undo (e : Engine) : Engine := { e with tape := e.tape.pop }

/-- The fold over the whole tape, the memory name falling back to the stored value. -/
def run (e : Engine) (lookup : String → Option Float) (draws : Draws) : Progress :=
  (Progress.start draws).run ⟨lookup, e.stored⟩ e.tape.toList

def evaluate (e : Engine) (lookup : String → Option Float) (draws : Draws) : Outcome :=
  (e.run lookup draws).outcome

def drawCount (e : Engine) : Nat := e.tape.toList.countP Token.isDraw

end Engine

end Keytape
