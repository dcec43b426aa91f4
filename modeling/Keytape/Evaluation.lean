import Keytape.Draws
import Keytape.Expr
import Keytape.Tape

/-! Evaluation of a tape.

Tokens are folded from left to right. A binary operation waits for its right operand,
so the running result can be shown before that operand is known. Operators with nothing
to act on and unknown symbols change nothing; domain errors are recorded and the fold
goes on.
-/

set_option autoImplicit false

namespace Keytape

def Token.isDraw : Token → Bool
  | .symbol text => Operation.ofSymbol? text == some .random
  | _ => false

/-- What names mean during one evaluation. -/
structure Environment where
  lookup : String → Option Float
  /-- The memory slot's value when the lookup has none. -/
  stored : Float

/-- A bound name stands for its value. Failing that, the memory name stands for the
stored value and any other name for zero, written as such. -/
def Environment.resolve (env : Environment) (name : String) : Operand :=
  match env.lookup name with
  | some x => .named name x
  | none => if name = memoryName then .named memoryName env.stored else .named "0" 0.0

theorem Environment.resolve_bound {env : Environment} {name : String} {x : Float}
    (bound : env.lookup name = some x) : env.resolve name = .named name x := by
  rw [resolve, bound]

theorem Environment.resolve_memory {env : Environment} (free : env.lookup memoryName = none) :
    env.resolve memoryName = .named memoryName env.stored := by
  rw [resolve, free]
  exact if_pos rfl

/-- What the calculator holds between two tokens. -/
inductive State where
  | empty
  | holding (acc : Operand)
  | awaiting (left : Operand) (op : BinaryOp) (right : Option Operand)

namespace State

def accumulator? : State → Option Operand
  | .empty => none
  | .holding acc => some acc
  | .awaiting _ _ right => right

/-- Overwrites the accumulator and keeps a waiting operation. -/
def put (s : State) (a : Operand) : State :=
  match s with
  | .empty | .holding _ => .holding a
  | .awaiting left op _ => .awaiting left op (some a)

/-- Carries out a waiting operation that has both operands. -/
def resolve : State → State
  | .awaiting left op (some right) => .holding (.binary op left right)
  | s => s

def resolveFault? : State → Option DomainError
  | .awaiting left op (some right) => op.fault? left.value right.value
  | _ => none

def defer (s : State) (op : BinaryOp) : State :=
  match s with
  | .holding acc => .awaiting acc op none
  | s => s

def value? (s : State) : Option Float := s.accumulator?.map Operand.value

def isPending : State → Bool
  | .awaiting .. => true
  | _ => false

def description : State → String
  | .empty => ""
  | .holding acc => acc.text
  | .awaiting left op right => op.describe left.text ((right.map Operand.text).getD "")

end State

structure Progress where
  state : State
  error : Option DomainError
  draws : Draws

namespace Progress

def start (draws : Draws) : Progress := ⟨.empty, none, draws⟩

def put (p : Progress) (a : Operand) : Progress := { p with state := p.state.put a }

def resolve (p : Progress) : Progress :=
  { p with state := p.state.resolve, error := p.state.resolveFault?.or p.error }

def defer (p : Progress) (op : BinaryOp) : Progress := { p with state := p.state.defer op }

/-- Applies `op` to the accumulator, judging the operand before it is transformed. -/
def transform (p : Progress) (op : UnaryOp) : Progress :=
  match p.state.accumulator? with
  | none => p
  | some a => { p with state := p.state.put (a.unary op), error := (op.fault? a.value).or p.error }

def apply (p : Progress) : Operation → Progress
  | .constant c => p.put (.named c.symbol c.value)
  | .random => { p with draws := p.draws.skip 1 }.put (.number p.draws.head)
  | .unary op => p.transform op
  | .binary op => p.resolve.defer op
  | .equals => p.resolve

def step (env : Environment) (p : Progress) : Token → Progress
  | .literal x => p.put (.number x)
  | .reference name => p.put (env.resolve name)
  | .symbol text =>
    match Operation.ofSymbol? text with
    | some op => p.apply op
    | none => p

def run (env : Environment) (p : Progress) (tokens : List Token) : Progress :=
  tokens.foldl (step env) p

@[simp] theorem run_nil (env : Environment) (p : Progress) : p.run env [] = p := rfl

@[simp] theorem run_cons (env : Environment) (p : Progress) (t : Token) (tokens : List Token) :
    p.run env (t :: tokens) = (p.step env t).run env tokens :=
  rfl

theorem run_append (env : Environment) (p : Progress) (first later : List Token) :
    p.run env (first ++ later) = (p.run env first).run env later :=
  List.foldl_append

theorem step_symbol_of_none (env : Environment) (p : Progress) {text : String}
    (h : Operation.ofSymbol? text = none) : p.step env (.symbol text) = p := by
  rw [step, h]

end Progress

structure Outcome where
  /-- Absent until something has been computed, and while a right operand is missing. -/
  value : Option Float
  isPending : Bool
  description : String
  error : Option DomainError
  deriving BEq

namespace Outcome

def errorMessage (o : Outcome) : Option String := o.error.map DomainError.message

/-- Whether the description shows the memory name anywhere in its text. -/
def mentionsMemory (o : Outcome) : Bool := o.description.toList.contains 'M'

end Outcome

def Progress.outcome (p : Progress) : Outcome where
  value := p.state.value?
  isPending := p.state.isPending
  description := p.state.description
  error := p.error

end Keytape
