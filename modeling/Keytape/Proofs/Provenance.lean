import Keytape.Proofs.Action

/-! Where results come from.

Whatever a tape holds, its value and its description are two readings of one tree, whose
leaves are operands of the tape in their order. A tree grows to the right by single
operands only: on the right of a binary operation stand unary operations over one leaf.
-/

set_option autoImplicit false

namespace Keytape

namespace Expr

def leaves : Expr → List Expr
  | .number x => [.number x]
  | .named name x => [.named name x]
  | .unary _ e => e.leaves
  | .binary _ l r => l.leaves ++ r.leaves

def IsLeaf : Expr → Prop
  | .number _ | .named .. => True
  | .unary .. | .binary .. => False

/-- Unary operations over one leaf. -/
def Simple : Expr → Prop
  | .number _ | .named .. => True
  | .unary _ e => e.Simple
  | .binary .. => False

/-- Every right operand is simple. -/
def LeftNested : Expr → Prop
  | .number _ | .named .. => True
  | .unary _ e => e.LeftNested
  | .binary _ l r => l.LeftNested ∧ r.Simple

theorem IsLeaf.leaves_eq {e : Expr} (h : e.IsLeaf) : e.leaves = [e] := by
  cases e with
  | number x => rfl
  | named name x => rfl
  | unary op e => exact h.elim
  | binary op l r => exact h.elim

theorem IsLeaf.simple {e : Expr} (h : e.IsLeaf) : e.Simple := by
  cases e with
  | number x => trivial
  | named name x => trivial
  | unary op e => exact h.elim
  | binary op l r => exact h.elim

theorem Simple.leftNested {e : Expr} (h : e.Simple) : e.LeftNested := by
  induction e with
  | number x => trivial
  | named name x => trivial
  | unary op e ih => exact ih h
  | binary op l r => exact h.elim

end Expr

/-! ## Operands of a tape -/

def Action.leaf? : Action → Option Expr
  | .enter a => some a.expr
  | _ => none

theorem Environment.resolve_isLeaf (env : Environment) (name : String) :
    (env.resolve name).expr.IsLeaf := by
  unfold Environment.resolve
  split
  · trivial
  · split <;> trivial

theorem Token.isLeaf_of_action {t : Token} {env : Environment} {draws : Draws} {a : Operand}
    (h : t.action env draws = .enter a) : a.expr.IsLeaf := by
  cases t with
  | literal x =>
    cases h
    trivial
  | reference name =>
    cases h
    exact env.resolve_isLeaf name
  | symbol text =>
    simp only [action] at h
    split at h <;> cases h <;> trivial

/-- What the tokens enter, oldest first: literals, names with their values, constants and
draws. -/
def operands (env : Environment) : Draws → List Token → List Expr
  | _, [] => []
  | draws, t :: rest =>
    (t.action env draws).leaf?.toList ++ operands env (draws.skip t.drawCount) rest

/-! ## Trees in the state -/

/-- The trees of a state, over leaves that were entered in this order. -/
inductive State.GrownFrom (entered : List Expr) : State → Prop where
  | empty : GrownFrom entered .empty
  | holding {a : Operand} : a.expr.leaves.Sublist entered → a.expr.LeftNested →
      GrownFrom entered (.holding a)
  | lacking {left : Operand} {op : BinaryOp} : left.expr.leaves.Sublist entered →
      left.expr.LeftNested → GrownFrom entered (.awaiting left op none)
  | ready {left right : Operand} {op : BinaryOp} :
      (left.expr.leaves ++ right.expr.leaves).Sublist entered → left.expr.LeftNested →
      right.expr.Simple → GrownFrom entered (.awaiting left op (some right))

namespace State.GrownFrom

variable {entered : List Expr} {s : State}

theorem resolve (h : s.GrownFrom entered) : s.resolve.GrownFrom entered := by
  cases h with
  | empty => exact .empty
  | holding order nested => exact .holding order nested
  | lacking order nested => exact .lacking order nested
  | ready order nested simple => exact .holding order ⟨nested, simple⟩

theorem defer (h : s.GrownFrom entered) (op : BinaryOp) : (s.defer op).GrownFrom entered := by
  cases h with
  | empty => exact .empty
  | holding order nested => exact .lacking order nested
  | lacking order nested => exact .lacking order nested
  | ready order nested simple => exact .ready order nested simple

theorem transform (h : s.GrownFrom entered) (op : UnaryOp) :
    (s.act (.transform op)).GrownFrom entered := by
  cases h with
  | empty => exact .empty
  | holding order nested => exact .holding order nested
  | lacking order nested => exact .lacking order nested
  | ready order nested simple => exact .ready order nested simple

theorem put (h : s.GrownFrom entered) {a : Operand} (leaf : a.expr.IsLeaf) :
    (s.put a).GrownFrom (entered ++ [a.expr]) := by
  have alone : a.expr.leaves.Sublist [a.expr] := leaf.leaves_eq ▸ .refl _
  have last : a.expr.leaves.Sublist (entered ++ [a.expr]) :=
    alone.trans (List.sublist_append_right ..)
  cases h with
  | empty => exact .holding last leaf.simple.leftNested
  | holding _ _ => exact .holding last leaf.simple.leftNested
  | lacking order nested => exact .ready (order.append alone) nested leaf.simple
  | ready order nested _ =>
    -- The operand that is overwritten drops out; the order of the others stays.
    have left := (List.sublist_append_left ..).trans order
    exact .ready (left.append alone) nested leaf.simple

theorem act (h : s.GrownFrom entered) {action : Action}
    (leaf : ∀ a, action = .enter a → a.expr.IsLeaf) :
    (s.act action).GrownFrom (entered ++ action.leaf?.toList) := by
  cases action with
  | enter a => exact h.put (leaf a rfl)
  | transform op => simpa [State.act, Action.leaf?] using h.transform op
  | defer op => simpa [State.act, Action.leaf?] using h.resolve.defer op
  | complete => simpa [State.act, Action.leaf?] using h.resolve
  | pass => simpa [State.act, Action.leaf?] using h

theorem tree_of_completed (h : s.GrownFrom entered) (completed : s.isPending = false) {v : Float}
    (value : s.value? = some v) :
    ∃ tree : Expr, tree.leaves.Sublist entered ∧ tree.LeftNested ∧ v = tree.eval ∧
      s.description = tree.render := by
  cases h with
  | empty => cases value
  | @holding a order nested =>
    cases value
    exact ⟨a.expr, order, nested, a.value_eq, rfl⟩
  | lacking order nested => cases completed
  | ready order nested simple => cases completed

/-- A pending state has a tree on the left and perhaps one on the right, and resolving it
joins the two. -/
theorem trees_of_pending (h : s.GrownFrom entered) (pending : s.isPending = true) :
    ∃ (left : Expr) (op : BinaryOp) (right : Option Expr),
      (left.leaves ++ (right.map Expr.leaves).getD []).Sublist entered ∧
      left.LeftNested ∧ (∀ r ∈ right, r.Simple) ∧
      s.description = op.describe left.render ((right.map Expr.render).getD "") ∧
      s.value? = right.map Expr.eval ∧
      ∀ r ∈ right, s.resolve.isPending = false ∧
        s.resolve.value? = some (Expr.binary op left r).eval ∧
        s.resolve.description = (Expr.binary op left r).render := by
  cases h with
  | empty => cases pending
  | holding order nested => cases pending
  | @lacking left op order nested =>
    exact ⟨left.expr, op, none, by simpa using order, nested, by simp, rfl, rfl, by simp⟩
  | @ready left right op order nested simple =>
    refine ⟨left.expr, op, some right.expr, order, nested, ?_, rfl, ?_, ?_⟩
    · rintro r ⟨⟩
      exact simple
    · exact congrArg some right.value_eq
    · rintro r ⟨⟩
      exact ⟨rfl, congrArg some (Operand.binary op left right).value_eq, rfl⟩

end State.GrownFrom

theorem Progress.grownFrom_run (env : Environment) {p : Progress} {entered : List Expr}
    (h : p.state.GrownFrom entered) (tokens : List Token) :
    (p.run env tokens).state.GrownFrom (entered ++ operands env p.draws tokens) := by
  -- Generalised over what was entered before, which the first token adds to.
  induction tokens generalizing p entered with
  | nil => simpa [operands] using h
  | cons t rest ih =>
    have grown : (p.step env t).state.GrownFrom
        (entered ++ (t.action env p.draws).leaf?.toList) := by
      rw [state_step]
      exact h.act fun a => Token.isLeaf_of_action
    have later := ih grown
    rw [draws_step, List.append_assoc] at later
    exact later

namespace Engine

def operands (e : Engine) (lookup : String → Option Float) (draws : Draws) : List Expr :=
  Keytape.operands ⟨lookup, e.stored⟩ draws e.tape.toList

theorem grownFrom_run (e : Engine) (lookup : String → Option Float) (draws : Draws) :
    (e.run lookup draws).state.GrownFrom (e.operands lookup draws) := by
  have start : (Progress.start draws).state.GrownFrom [] := .empty
  exact Progress.grownFrom_run ⟨lookup, e.stored⟩ start e.tape.toList

theorem run_append (e : Engine) (t : Token) (lookup : String → Option Float) (draws : Draws) :
    (e.append t).run lookup draws = (e.run lookup draws).step ⟨lookup, e.stored⟩ t := by
  rw [run, append, Tape.toList_push, Progress.run_append]
  rfl

/-- A terminator carries out what waits and does nothing else. -/
theorem state_run_equals (e : Engine) (lookup : String → Option Float) (draws : Draws) :
    ((e.append (.symbol "=")).run lookup draws).state = (e.run lookup draws).state.resolve := by
  rw [run_append, Progress.state_step]
  rfl

end Engine

/-- A value and its description come from one tree, over operands of the tape in their
order. While an operation is pending there are a tree on its left and perhaps a simple one
on its right; completing it joins the two. -/
theorem evaluate_reads_tree (e : Engine) (lookup : String → Option Float) (draws : Draws) :
    let o := e.evaluate lookup draws
    let completed := (e.append (.symbol "=")).evaluate lookup draws
    (∀ v, o.isPending = false → o.value = some v →
      ∃ tree : Expr, tree.leaves.Sublist (e.operands lookup draws) ∧ tree.LeftNested ∧
        v = tree.eval ∧ o.description = tree.render) ∧
    (o.isPending = true →
      ∃ (left : Expr) (op : BinaryOp) (right : Option Expr),
        (left.leaves ++ (right.map Expr.leaves).getD []).Sublist (e.operands lookup draws) ∧
        left.LeftNested ∧ (∀ r ∈ right, r.Simple) ∧
        o.description = op.describe left.render ((right.map Expr.render).getD "") ∧
        o.value = right.map Expr.eval ∧
        ∀ r ∈ right, completed.isPending = false ∧
          completed.value = some (Expr.binary op left r).eval ∧
          completed.description = (Expr.binary op left r).render) := by
  intro o completed
  have grown := e.grownFrom_run lookup draws
  constructor
  · intro v finished value
    exact grown.tree_of_completed finished value
  · intro pending
    obtain ⟨left, op, right, order, nested, simple, text, value, joined⟩ :=
      grown.trees_of_pending pending
    rw [← e.state_run_equals lookup draws] at joined
    exact ⟨left, op, right, order, nested, simple, text, value, joined⟩

end Keytape
