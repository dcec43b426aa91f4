import Keytape.Numeral
import Keytape.Operation

/-! Expressions, which are both a value and a text.

An operand is an expression together with its value, so that what the calculator
computes and what it describes are two readings of one tree.
-/

set_option autoImplicit false

namespace Keytape

inductive Expr where
  | number (x : Float)
  | named (name : String) (x : Float)
  | unary (op : UnaryOp) (arg : Expr)
  | binary (op : BinaryOp) (left right : Expr)

namespace Expr

def eval : Expr → Float
  | .number x => x
  | .named _ x => x
  | .unary op e => op.apply e.eval
  | .binary op l r => op.apply l.eval r.eval

def render : Expr → String
  | .number x => Numeral.write x
  | .named name _ => name
  | .unary op e => op.describe e.render
  | .binary op l r => op.describe l.render r.render

end Expr

/-- An expression with its value at hand. -/
structure Operand where
  expr : Expr
  value : Float
  value_eq : value = expr.eval

namespace Operand

def number (x : Float) : Operand := ⟨.number x, x, rfl⟩

def named (name : String) (x : Float) : Operand := ⟨.named name x, x, rfl⟩

def unary (op : UnaryOp) (a : Operand) : Operand :=
  ⟨.unary op a.expr, op.apply a.value, by rw [Expr.eval, a.value_eq]⟩

def binary (op : BinaryOp) (a b : Operand) : Operand :=
  ⟨.binary op a.expr b.expr, op.apply a.value b.value, by rw [Expr.eval, a.value_eq, b.value_eq]⟩

def text (a : Operand) : String := a.expr.render

end Operand

end Keytape
