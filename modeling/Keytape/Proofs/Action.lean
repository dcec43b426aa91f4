import Keytape.Engine

/-! What one token does to a fold.

A token acts in one of five ways, whatever the state it meets. The state after it depends
on the state before it and on the action alone; errors and draws are carried beside.
-/

set_option autoImplicit false

namespace Keytape

inductive Action where
  | enter (a : Operand)
  | transform (op : UnaryOp)
  /-- Carries out what waits and lets `op` wait in its place. -/
  | defer (op : BinaryOp)
  | complete
  | pass

def Token.action (env : Environment) (draws : Draws) : Token → Action
  | .literal x => .enter (.number x)
  | .reference name => .enter (env.resolve name)
  | .symbol text =>
    match Operation.ofSymbol? text with
    | some (.constant c) => .enter (.named c.symbol c.value)
    | some .random => .enter (.number draws.head)
    | some (.unary op) => .transform op
    | some (.binary op) => .defer op
    | some .equals => .complete
    | none => .pass

def Token.drawCount (t : Token) : Nat := if t.isDraw then 1 else 0

namespace State

def act (s : State) : Action → State
  | .enter a => s.put a
  | .transform op => (s.accumulator?.map fun a => s.put (a.unary op)).getD s
  | .defer op => s.resolve.defer op
  | .complete => s.resolve
  | .pass => s

/-- The error that an action raises, judged on the state before it. -/
def actFault? (s : State) : Action → Option DomainError
  | .transform op => s.accumulator?.bind fun a => op.fault? a.value
  | .defer _ | .complete => s.resolveFault?
  | .enter _ | .pass => none

end State

namespace Progress

theorem step_eq (env : Environment) (p : Progress) (t : Token) :
    p.step env t = ⟨p.state.act (t.action env p.draws),
      (p.state.actFault? (t.action env p.draws)).or p.error, p.draws.skip t.drawCount⟩ := by
  cases t with
  | literal x => rfl
  | reference name => rfl
  | symbol text =>
    cases found : Operation.ofSymbol? text with
    | none =>
      simp [step, Token.action, Token.drawCount, Token.isDraw, State.act, State.actFault?, found]
    | some op =>
      cases op with
      | constant c =>
        simp [step, apply, put, Token.action, Token.drawCount, Token.isDraw, State.act,
          State.actFault?, found]
      | random =>
        simp [step, apply, put, Token.action, Token.drawCount, Token.isDraw, State.act,
          State.actFault?, found]
      | unary op =>
        cases held : p.state.accumulator? <;>
          simp [step, apply, transform, Token.action, Token.drawCount, Token.isDraw, State.act,
            State.actFault?, found, held]
      | binary op =>
        simp [step, apply, resolve, defer, Token.action, Token.drawCount, Token.isDraw, State.act,
          State.actFault?, found]
      | equals =>
        simp [step, apply, resolve, Token.action, Token.drawCount, Token.isDraw, State.act,
          State.actFault?, found]

theorem state_step (env : Environment) (p : Progress) (t : Token) :
    (p.step env t).state = p.state.act (t.action env p.draws) := by
  rw [step_eq]

theorem draws_step (env : Environment) (p : Progress) (t : Token) :
    (p.step env t).draws = p.draws.skip t.drawCount := by
  rw [step_eq]

end Progress

end Keytape
