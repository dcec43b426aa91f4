import Keytape.Operation

/-! What operations write around their operands.

A description is the texts of the operands with a fixed text before, between and after
them, so a text says which operation wrote it, and everything an operand shows stays in it.
-/

set_option autoImplicit false

namespace Keytape

namespace UnaryOp

def opening : UnaryOp → List Char
  | .squareRoot => "√(".toList
  | .cosine => "cos(".toList
  | .sine => "sin(".toList
  | .tangent => "tan(".toList
  | .negate => "-(".toList
  | .invert | .square => "(".toList
  | .percent => "%(".toList

def closing : UnaryOp → List Char
  | .invert => ")⁻¹".toList
  | .square => ")²".toList
  | .squareRoot | .cosine | .sine | .tangent | .negate | .percent => ")".toList

theorem toList_describe (op : UnaryOp) (x : String) :
    (op.describe x).toList = op.opening ++ (x.toList ++ op.closing) := by
  cases op <;> simp [describe, opening, closing, toString]

/-- The first and the last character tell which operation wrote a text. -/
theorem eq_of_ends {op op' : UnaryOp} (first : op.opening.head? = op'.opening.head?)
    (last : op.closing.getLast? = op'.closing.getLast?) : op = op' := by
  revert first last
  cases op <;> cases op' <;> decide

theorem eq_of_text {op op' : UnaryOp} {cs cs' : List Char}
    (same : op.opening ++ (cs ++ op.closing) = op'.opening ++ (cs' ++ op'.closing)) :
    op = op' := by
  have first (op : UnaryOp) (rest : List Char) :
      (op.opening ++ rest).head? = op.opening.head? := by
    cases op <;> rfl
  have last (op : UnaryOp) (rest : List Char) :
      (rest ++ op.closing).getLast? = op.closing.getLast? := by
    cases op <;> simp [closing]
  refine eq_of_ends ?_ ?_
  · rw [← first op, same, first]
  · rw [← last op (op.opening ++ cs), List.append_assoc, same, ← List.append_assoc, last]

end UnaryOp

namespace BinaryOp

def opening : BinaryOp → List Char
  | .power => ['(']
  | .times | .divide | .minus | .plus => []

def closing : BinaryOp → List Char
  | .power => [')']
  | .times | .divide | .minus | .plus => []

def sign : BinaryOp → Char
  | .times => 'x'
  | .divide => '÷'
  | .minus => '-'
  | .plus => '+'
  | .power => '^'

theorem toList_describe (op : BinaryOp) (x y : String) :
    (op.describe x y).toList =
      op.opening ++ (x.toList ++ (op.closing ++ [' ', op.sign])) ++ ' ' :: y.toList := by
  cases op <;> simp [describe, opening, closing, sign, toString]

theorem eq_of_sign {op op' : BinaryOp} (same : op.sign = op'.sign) : op = op' := by
  revert same
  cases op <;> cases op' <;> decide

theorem eq_of_text {op op' : BinaryOp} {cs cs' : List Char}
    (same : op.opening ++ (cs ++ (op.closing ++ [' ', op.sign])) =
      op'.opening ++ (cs' ++ (op'.closing ++ [' ', op'.sign]))) : op = op' := by
  have last := congrArg List.getLast? same
  simp only [List.getLast?_append, List.getLast?_cons_cons, List.getLast?_singleton,
    Option.some_or, Option.some.injEq] at last
  exact eq_of_sign last

end BinaryOp

end Keytape
