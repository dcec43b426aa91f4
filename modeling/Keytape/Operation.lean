/-! What the keys of the keypad do.

Each operation has one symbol, one effect on values and one way of being written.
`Operation.all` lists them in keypad order; a symbol outside it means nothing.
-/

set_option autoImplicit false

namespace Keytape

inductive Constant where
  | pi
  | e
  deriving DecidableEq, Repr

inductive UnaryOp where
  | squareRoot
  | cosine
  | sine
  | tangent
  | negate
  | invert
  | square
  | percent
  deriving DecidableEq, Repr

/-- Operations on two operands; the left one is fixed when the key is pressed. -/
inductive BinaryOp where
  | times
  | divide
  | minus
  | plus
  | power
  deriving DecidableEq, Repr

inductive Operation where
  | constant (c : Constant)
  /-- A fresh value from the unit interval at every evaluation. -/
  | random
  | unary (op : UnaryOp)
  | binary (op : BinaryOp)
  | equals
  deriving DecidableEq, Repr

/-! ## Symbols -/

def Constant.symbol : Constant → String
  | .pi => "π"
  | .e => "e"

def UnaryOp.symbol : UnaryOp → String
  | .squareRoot => "√"
  | .cosine => "cos"
  | .sine => "sin"
  | .tangent => "tan"
  | .negate => "+/-"
  | .invert => "x⁻¹"
  | .square => "x²"
  | .percent => "%"

def BinaryOp.symbol : BinaryOp → String
  | .times => "x"
  | .divide => "÷"
  | .minus => "-"
  | .plus => "+"
  | .power => "xʸ"

namespace Operation

def symbol : Operation → String
  | .constant c => c.symbol
  | .random => "rand"
  | .unary op => op.symbol
  | .binary op => op.symbol
  | .equals => "="

def all : List Operation :=
  [.constant .pi, .constant .e, .random,
    .unary .squareRoot, .unary .cosine, .unary .sine, .unary .tangent,
    .unary .negate, .unary .invert, .unary .square, .unary .percent,
    .binary .times, .binary .divide, .binary .minus, .binary .plus, .binary .power,
    .equals]

/-- The operation registered under `text`; case and glyph must match exactly. -/
def ofSymbol? (text : String) : Option Operation :=
  all.find? fun op => op.symbol == text

theorem ofSymbol?_symbol (op : Operation) : ofSymbol? op.symbol = some op := by
  cases op with
  | constant c => cases c <;> rfl
  | random => rfl
  | unary op => cases op <;> rfl
  | binary op => cases op <;> rfl
  | equals => rfl

theorem symbol_eq_of_ofSymbol? {text : String} {op : Operation} (h : ofSymbol? text = some op) :
    op.symbol = text := by
  simpa using List.find?_some h

inductive Kind where
  | constant
  | nullary
  | unary
  | binary
  | equals
  deriving DecidableEq, Repr

def Kind.name : Kind → String
  | .constant => "constant"
  | .nullary => "nullary"
  | .unary => "unary"
  | .binary => "binary"
  | .equals => "equals"

def kind : Operation → Kind
  | .constant _ => .constant
  | .random => .nullary
  | .unary _ => .unary
  | .binary _ => .binary
  | .equals => .equals

end Operation

/-! ## Values -/

def Constant.value : Constant → Float
  | .pi => 3.141592653589793
  | .e => 2.718281828459045

def UnaryOp.apply : UnaryOp → Float → Float
  | .squareRoot, x => x.sqrt
  | .cosine, x => x.cos
  | .sine, x => x.sin
  | .tangent, x => x.tan
  | .negate, x => -x
  | .invert, x => 1.0 / x
  | .square, x => x * x
  | .percent, x => x / 100.0

def BinaryOp.apply : BinaryOp → Float → Float → Float
  | .times, x, y => x * y
  | .divide, x, y => x / y
  | .minus, x, y => x - y
  | .plus, x, y => x + y
  | .power, x, y => x.pow y

/-! ## Descriptions -/

def UnaryOp.describe : UnaryOp → String → String
  | .squareRoot, x => s!"√({x})"
  | .cosine, x => s!"cos({x})"
  | .sine, x => s!"sin({x})"
  | .tangent, x => s!"tan({x})"
  | .negate, x => s!"-({x})"
  | .invert, x => s!"({x})⁻¹"
  | .square, x => s!"({x})²"
  | .percent, x => s!"%({x})"

def BinaryOp.describe : BinaryOp → String → String → String
  | .times, x, y => s!"{x} x {y}"
  | .divide, x, y => s!"{x} ÷ {y}"
  | .minus, x, y => s!"{x} - {y}"
  | .plus, x, y => s!"{x} + {y}"
  | .power, x, y => s!"({x}) ^ {y}"

/-! ## Domains -/

/-- Operands for which an operation is undefined or unstable. The operation is carried
out all the same; the error travels beside its value. -/
inductive DomainError where
  | negativeSquareRoot
  | divisionByZero
  deriving DecidableEq, Repr

def DomainError.message : DomainError → String
  | .negativeSquareRoot => "SQRT of negative number"
  | .divisionByZero => "Division by 0"

/-- Divisors of smaller magnitude count as zero. -/
def divisorEpsilon : Float := 1e-8

inductive DomainCheck where
  | radicand
  | inverted
  | divisor
  deriving DecidableEq, Repr

namespace DomainCheck

def ofOperation? : Operation → Option DomainCheck
  | .unary .squareRoot => some .radicand
  | .unary .invert => some .inverted
  | .binary .divide => some .divisor
  | _ => none

def kind : DomainCheck → Operation.Kind
  | .radicand | .inverted => .unary
  | .divisor => .binary

/-- The verdict on a single operand; checks on pairs pass. -/
def onOperand : DomainCheck → Float → Option DomainError
  | .radicand, x => if x < 0.0 then some .negativeSquareRoot else none
  | .inverted, x => if x == 0.0 then some .divisionByZero else none
  | .divisor, _ => none

/-- The verdict on a left and a right operand; checks on single operands pass. -/
def onPair : DomainCheck → Float → Float → Option DomainError
  | .divisor, _, y => if y.abs < divisorEpsilon then some .divisionByZero else none
  | .radicand, _, _ => none
  | .inverted, _, _ => none

end DomainCheck

def UnaryOp.fault? (op : UnaryOp) (x : Float) : Option DomainError :=
  (DomainCheck.ofOperation? (.unary op)).bind (·.onOperand x)

def BinaryOp.fault? (op : BinaryOp) (x y : Float) : Option DomainError :=
  (DomainCheck.ofOperation? (.binary op)).bind (·.onPair x y)

end Keytape
