import Keytape.Proofs.Omission

/-! Chains of operations.

A chain is an operand, then binary operators with an operand each. Unary operators stand behind
the operand that they act on. The main statement says what a chain comes to: its operations are
carried out from left to right and none binds more closely than another, its text is written in
the same order, and the error that stays is the last one of the checks, each made on the values
before the operation.
-/

set_option autoImplicit false

namespace Keytape

/-- What enters an operand without a draw. -/
inductive Atom where
  | literal (x : Float)
  | reference (name : String)
  | constant (c : Constant)

namespace Atom

def token : Atom → Token
  | .literal x => .literal x
  | .reference name => .reference name
  | .constant c => .symbol c.symbol

def operand (env : Environment) : Atom → Operand
  | .literal x => .number x
  | .reference name => env.resolve name
  | .constant c => .named c.symbol c.value

end Atom

/-- An operand with the unary operators that act on it, the first one first. -/
structure Factor where
  atom : Atom
  ops : List UnaryOp

structure Chain where
  first : Factor
  rest : List (BinaryOp × Factor)

namespace Factor

def tokens (f : Factor) : List Token :=
  f.atom.token :: f.ops.map fun op => .symbol op.symbol

def value (env : Environment) (f : Factor) : Float :=
  f.ops.foldl (fun x op => op.apply x) (f.atom.operand env).value

def text (env : Environment) (f : Factor) : String :=
  f.ops.foldl (fun x op => op.describe x) (f.atom.operand env).text

def faultsFrom : Float → List UnaryOp → List DomainError
  | _, [] => []
  | x, op :: ops => (op.fault? x).toList ++ faultsFrom (op.apply x) ops

def faults (env : Environment) (f : Factor) : List DomainError :=
  faultsFrom (f.atom.operand env).value f.ops

end Factor

namespace Chain

def restTokens (rest : List (BinaryOp × Factor)) : List Token :=
  rest.flatMap fun (op, f) => .symbol op.symbol :: f.tokens

def tokens (c : Chain) : List Token := c.first.tokens ++ restTokens c.rest

def value (env : Environment) (c : Chain) : Float :=
  c.rest.foldl (fun x (op, f) => op.apply x (f.value env)) (c.first.value env)

def text (env : Environment) (c : Chain) : String :=
  c.rest.foldl (fun x (op, f) => op.describe x (f.text env)) (c.first.text env)

/-- The errors behind an operand of value `x`. Those of the right operand come before the one
of the operation, which is carried out later. -/
def faultsFrom (env : Environment) : Float → List (BinaryOp × Factor) → List DomainError
  | _, [] => []
  | x, (op, f) :: rest =>
    f.faults env ++ (op.fault? x (f.value env)).toList ++
      faultsFrom env (op.apply x (f.value env)) rest

def faults (env : Environment) (c : Chain) : List DomainError :=
  c.first.faults env ++ faultsFrom env (c.first.value env) c.rest

end Chain

/-! ## Operands -/

def Operand.through (a : Operand) (ops : List UnaryOp) : Operand :=
  ops.foldl (fun a op => a.unary op) a

theorem Operand.value_through (a : Operand) (ops : List UnaryOp) :
    (a.through ops).value = ops.foldl (fun x op => op.apply x) a.value :=
  (List.foldl_hom Operand.value fun _ _ => rfl).symm

theorem Operand.text_through (a : Operand) (ops : List UnaryOp) :
    (a.through ops).text = ops.foldl (fun x op => op.describe x) a.text :=
  (List.foldl_hom Operand.text fun _ _ => rfl).symm

def Factor.operand (env : Environment) (f : Factor) : Operand :=
  (f.atom.operand env).through f.ops

theorem Factor.value_operand (env : Environment) (f : Factor) :
    (f.operand env).value = f.value env :=
  (f.atom.operand env).value_through f.ops

theorem Factor.text_operand (env : Environment) (f : Factor) :
    (f.operand env).text = f.text env :=
  (f.atom.operand env).text_through f.ops

def Chain.operandFrom (env : Environment) (a : Operand) (rest : List (BinaryOp × Factor)) :
    Operand :=
  rest.foldl (fun a (op, f) => .binary op a (f.operand env)) a

theorem Chain.value_operandFrom (env : Environment) (a : Operand)
    (rest : List (BinaryOp × Factor)) : (operandFrom env a rest).value =
      rest.foldl (fun x (op, f) => op.apply x (f.value env)) a.value := by
  refine (List.foldl_hom Operand.value fun b (op, f) => ?_).symm
  exact congrArg (op.apply b.value) (f.value_operand env).symm

theorem Chain.text_operandFrom (env : Environment) (a : Operand)
    (rest : List (BinaryOp × Factor)) : (operandFrom env a rest).text =
      rest.foldl (fun x (op, f) => op.describe x (f.text env)) a.text := by
  refine (List.foldl_hom Operand.text fun b (op, f) => ?_).symm
  exact congrArg (op.describe b.text) (f.text_operand env).symm

/-! ## Runs -/

@[simp] theorem State.accumulator?_put (s : State) (a : Operand) :
    (s.put a).accumulator? = some a := by
  cases s <;> rfl

@[simp] theorem State.put_put (s : State) (a b : Operand) : (s.put a).put b = s.put b := by
  cases s <;> rfl

theorem State.put_of_held {s : State} {a : Operand} (held : s.accumulator? = some a) :
    s.put a = s := by
  cases s with
  | empty => cases held
  | holding acc =>
    cases held
    rfl
  | awaiting left op right =>
    obtain rfl : right = some a := held
    rfl

/-- The last of the errors that come later, or else what was there. -/
theorem getLast?_toList_append (o e : Option DomainError) (later : List DomainError) :
    (o.toList ++ later).getLast?.or e = later.getLast?.or (o.or e) := by
  rw [List.getLast?_append, Option.or_assoc]
  cases o <;> rfl

namespace Progress

variable {env : Environment} {p : Progress}

theorem step_unary (env : Environment) (p : Progress) (op : UnaryOp) :
    p.step env (.symbol op.symbol) = p.transform op := by
  have found : Operation.ofSymbol? op.symbol = some (.unary op) :=
    Operation.ofSymbol?_symbol (.unary op)
  rw [step, found]
  rfl

theorem step_atom (env : Environment) (p : Progress) (a : Atom) :
    p.step env a.token = p.put (a.operand env) := by
  cases a with
  | literal x => rfl
  | reference name => rfl
  | constant c =>
    have found : Operation.ofSymbol? c.symbol = some (.constant c) :=
      Operation.ofSymbol?_symbol (.constant c)
    rw [Atom.token, step, found]
    rfl

theorem run_ops {a : Operand} (held : p.state.accumulator? = some a) (ops : List UnaryOp) :
    p.run env (ops.map fun op => .symbol op.symbol) =
      { p with
        state := p.state.put (a.through ops)
        error := (Factor.faultsFrom a.value ops).getLast?.or p.error } := by
  induction ops generalizing p a with
  | nil =>
    obtain ⟨state, error, draws⟩ := p
    have kept : state.put a = state := State.put_of_held held
    exact congrArg (Progress.mk · error draws) kept.symm
  | cons op ops ih =>
    have transformed : p.transform op =
        { p with state := p.state.put (a.unary op), error := (op.fault? a.value).or p.error } := by
      rw [transform, held]
    rw [List.map_cons, run_cons, step_unary, transformed, ih (State.accumulator?_put _ _),
      State.put_put, Factor.faultsFrom, getLast?_toList_append]
    rfl

/-- The tokens of a factor enter its operand, wherever they stand. -/
theorem run_factor (env : Environment) (p : Progress) (f : Factor) :
    p.run env f.tokens =
      { p with
        state := p.state.put (f.operand env)
        error := (f.faults env).getLast?.or p.error } := by
  have held : (p.put (f.atom.operand env)).state.accumulator? = some (f.atom.operand env) :=
    State.accumulator?_put _ _
  rw [Factor.tokens, run_cons, step_atom, run_ops held]
  exact congrArg (Progress.mk · _ p.draws) (State.put_put _ _ _)

/-- While the rest of a chain is read, what waits comes to the operations read so far. -/
theorem resolve_run_rest (env : Environment) {a : Operand} {e : Option DomainError} {d : Draws}
    (waits : p.resolve = ⟨.holding a, e, d⟩) (rest : List (BinaryOp × Factor)) :
    (p.run env (Chain.restTokens rest)).resolve =
      ⟨.holding (Chain.operandFrom env a rest),
        (Chain.faultsFrom env a.value rest).getLast?.or e, d⟩ := by
  -- The operator carries out what waits and waits itself until the next one.
  induction rest generalizing p a e with
  | nil => exact waits
  | cons next rest ih =>
    obtain ⟨op, f⟩ := next
    have deferred : p.resolve.defer op = ⟨.awaiting a op none, e, d⟩ := by rw [waits]; rfl
    have entered : (p.step env (.symbol op.symbol)).run env f.tokens =
        ⟨.awaiting a op (some (f.operand env)), (f.faults env).getLast?.or e, d⟩ := by
      rw [step_binary, deferred, run_factor]
      rfl
    have resolved : ((p.step env (.symbol op.symbol)).run env f.tokens).resolve =
        ⟨.holding (.binary op a (f.operand env)),
          (op.fault? a.value (f.value env)).or ((f.faults env).getLast?.or e), d⟩ := by
      rw [entered, ← f.value_operand env]
      rfl
    have carried : (Operand.binary op a (f.operand env)).value = op.apply a.value (f.value env) :=
      congrArg (op.apply a.value) (f.value_operand env)
    have tokens : Chain.restTokens ((op, f) :: rest) =
        .symbol op.symbol :: (f.tokens ++ Chain.restTokens rest) := rfl
    rw [tokens, run_cons, run_append, ih resolved, carried, Chain.faultsFrom, List.append_assoc,
      List.getLast?_append, Option.or_assoc]
    congr 1
    exact (getLast?_toList_append _ _ _).symm

end Progress

/-- A completed chain has the value and the text of its operations from left to right, and the
last error of its checks. -/
theorem evaluate_chain (c : Chain) (stored : Float) (lookup : String → Option Float)
    (draws : Draws) :
    let env : Environment := ⟨lookup, stored⟩
    (Engine.mk (.ofList (c.tokens ++ [.symbol "="])) stored).evaluate lookup draws =
      ⟨some (c.value env), false, c.text env, (c.faults env).getLast?⟩ := by
  intro env
  have entered := Progress.run_factor env (.start draws) c.first
  have waits : ((Progress.start draws).run env c.first.tokens).resolve =
      ⟨.holding (c.first.operand env), (c.first.faults env).getLast?.or none, draws⟩ := by
    rw [entered]
    rfl
  have completed : (Engine.mk (.ofList (c.tokens ++ [.symbol "="])) stored).run lookup draws =
      ⟨.holding (Chain.operandFrom env (c.first.operand env) c.rest),
        (c.faults env).getLast?, draws⟩ := by
    have read := Progress.resolve_run_rest env waits c.rest
    rw [c.first.value_operand, ← Option.or_assoc, ← List.getLast?_append, Option.or_none] at read
    rw [Engine.run_ofList_append, Chain.tokens, Engine.run_ofList_append]
    exact read
  have value : (Chain.operandFrom env (c.first.operand env) c.rest).value = c.value env := by
    rw [Chain.value_operandFrom, c.first.value_operand, Chain.value]
  have text : (Chain.operandFrom env (c.first.operand env) c.rest).text = c.text env := by
    rw [Chain.text_operandFrom, c.first.text_operand, Chain.text]
  rw [Engine.evaluate, completed, ← value, ← text]
  rfl

-- The sum is negated as it stands, and the product comes after it.
example :
    let c : Chain :=
      ⟨⟨.literal 1.0, []⟩, [(.plus, ⟨.literal 2.0, []⟩), (.times, ⟨.literal 3.0, [.negate]⟩)]⟩
    c.value ⟨unbound, 0.0⟩ = -9.0 ∧ c.text ⟨unbound, 0.0⟩ = "1.0 + 2.0 x -(3.0)" := by
  decide

end Keytape
