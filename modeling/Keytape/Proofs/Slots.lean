import Keytape.Engine

/-! Evaluation by two slots.

A second account of evaluation. It keeps an optional accumulator, whose value and text are
updated apart from each other, and an optional pending operation with its left operand;
symbols select closures from a registry, and domain checks are found by symbol. The main
statement says that a tape evaluates to the same outcome either way, and that the states of
the two folds correspond after every prefix.
-/

set_option autoImplicit false

namespace Keytape

inductive Rule where
  | constant (value : Float)
  | generator
  | transform (apply : Float → Float) (describe : String → String)
  | combination (apply : Float → Float → Float) (describe : String → String → String)
  | terminator

namespace Rule

def ofOperation : Operation → Rule
  | .constant c => .constant c.value
  | .random => .generator
  | .unary op => .transform op.apply op.describe
  | .binary op => .combination op.apply op.describe
  | .equals => .terminator

def ofSymbol? (symbol : String) : Option Rule := (Operation.ofSymbol? symbol).map ofOperation

def check? (symbol : String) : Option DomainCheck :=
  (Operation.ofSymbol? symbol).bind DomainCheck.ofOperation?

theorem check?_unary (op : UnaryOp) (x : Float) :
    (check? op.symbol).bind (·.onOperand x) = op.fault? x := by
  have found : Operation.ofSymbol? op.symbol = some (.unary op) :=
    Operation.ofSymbol?_symbol (.unary op)
  rw [check?, found, UnaryOp.fault?, Option.bind_some]

theorem check?_binary (op : BinaryOp) (x y : Float) :
    (check? op.symbol).bind (·.onPair x y) = op.fault? x y := by
  have found : Operation.ofSymbol? op.symbol = some (.binary op) :=
    Operation.ofSymbol?_symbol (.binary op)
  rw [check?, found, BinaryOp.fault?, Option.bind_some]

end Rule

/-- A value and its text. Nothing ties the one to the other. -/
structure Figure where
  value : Float
  text : String

structure Deferred where
  combine : Float → Float → Float
  describe : String → String → String
  left : Figure
  symbol : String

structure Slots where
  accumulator : Option Figure
  pending : Option Deferred
  error : Option DomainError
  draws : Draws

namespace Slots

def start (draws : Draws) : Slots := ⟨none, none, none, draws⟩

def put (s : Slots) (value : Float) (text : String) : Slots :=
  { s with accumulator := some ⟨value, text⟩ }

/-- Combines the pending operation with the accumulator if both are there. Operands are
judged before they are combined. -/
def resolve (s : Slots) : Slots :=
  match s.pending, s.accumulator with
  | some d, some a =>
    { s with
      accumulator := some ⟨d.combine d.left.value a.value, d.describe d.left.text a.text⟩
      pending := none
      error := ((Rule.check? d.symbol).bind (·.onPair d.left.value a.value)).or s.error }
  | _, _ => s

def transform (s : Slots) (symbol : String) (apply : Float → Float) (describe : String → String) :
    Slots :=
  match s.accumulator with
  | none => s
  | some a =>
    { s with
      accumulator := some ⟨apply a.value, describe a.text⟩
      error := ((Rule.check? symbol).bind (·.onOperand a.value)).or s.error }

def defer (s : Slots) (symbol : String) (combine : Float → Float → Float)
    (describe : String → String → String) : Slots :=
  match s.accumulator with
  | none => s
  | some a => { s with accumulator := none, pending := some ⟨combine, describe, a, symbol⟩ }

def step (env : Environment) (s : Slots) : Token → Slots
  | .literal x => s.put x (Numeral.write x)
  | .reference name =>
    match env.lookup name with
    | some x => s.put x name
    | none => if name = memoryName then s.put env.stored memoryName else s.put 0.0 "0"
  | .symbol symbol =>
    match Rule.ofSymbol? symbol with
    | none => s
    | some (.constant x) => s.put x symbol
    | some .generator =>
      { s with draws := s.draws.skip 1 }.put s.draws.head (Numeral.write s.draws.head)
    | some (.transform apply describe) => s.transform symbol apply describe
    -- A pending operation that still lacks its right operand keeps its place.
    | some (.combination combine describe) => s.resolve.defer symbol combine describe
    | some .terminator => if s.accumulator.isSome then s.resolve else s

def run (env : Environment) (s : Slots) (tokens : List Token) : Slots := tokens.foldl (step env) s

def outcome (s : Slots) : Outcome where
  value := s.accumulator.map Figure.value
  isPending := s.pending.isSome
  description :=
    match s.pending with
    | some d => d.describe d.left.text ((s.accumulator.map Figure.text).getD "")
    | none => (s.accumulator.map Figure.text).getD ""
  error := s.error

/-! ## What the slots never hold -/

def Blank (s : Slots) : Prop := s.accumulator = none ∧ s.pending = none

theorem blank_of_resolve {s : Slots} (h : s.resolve.Blank) : s.Blank := by
  unfold resolve at h
  split at h
  · cases h.1
  · exact h

theorem blank_of_transform {s : Slots} {symbol : String} {apply : Float → Float}
    {describe : String → String} (h : (s.transform symbol apply describe).Blank) : s.Blank := by
  unfold transform at h
  split at h
  · exact h
  · cases h.1

theorem blank_of_defer {s : Slots} {symbol : String} {combine : Float → Float → Float}
    {describe : String → String → String} (h : (s.defer symbol combine describe).Blank) :
    s.Blank := by
  unfold defer at h
  split at h
  · exact h
  · cases h.2

theorem not_blank_put (s : Slots) (value : Float) (text : String) : ¬(s.put value text).Blank :=
  fun h => nomatch h.1

theorem blank_of_step {env : Environment} {s : Slots} {t : Token} (h : (s.step env t).Blank) :
    s.Blank := by
  cases t with
  | literal x => exact absurd h (not_blank_put s _ _)
  | reference name =>
    simp only [step] at h
    split at h
    · exact absurd h (not_blank_put s _ _)
    · split at h <;> exact absurd h (not_blank_put s _ _)
  | symbol symbol =>
    simp only [step] at h
    split at h
    · exact h
    · exact absurd h (not_blank_put s _ _)
    · exact absurd h (not_blank_put { s with draws := s.draws.skip 1 } _ _)
    · exact blank_of_transform h
    · exact blank_of_resolve (blank_of_defer h)
    · split at h
      · exact blank_of_resolve h
      · exact h

theorem blank_of_run {env : Environment} {s : Slots} {tokens : List Token}
    (h : (s.run env tokens).Blank) : s.Blank := by
  induction tokens generalizing s with
  | nil => exact h
  | cons t rest ih => exact blank_of_step (ih h)

theorem run_append (env : Environment) (s : Slots) (first later : List Token) :
    s.run env (first ++ later) = (s.run env first).run env later :=
  List.foldl_append

theorem pending_of_resolve {s : Slots} {d : Deferred} (h : s.resolve.pending = some d) :
    s.pending = some d := by
  unfold resolve at h
  split at h
  · cases h
  · exact h

theorem pending_transform (s : Slots) (symbol : String) (apply : Float → Float)
    (describe : String → String) : (s.transform symbol apply describe).pending = s.pending := by
  unfold transform
  split <;> rfl

/-- An operation becomes pending when its own symbol is met, and what is on its left was in
the accumulator then. -/
theorem pending_of_step {env : Environment} {s : Slots} {t : Token} {d : Deferred}
    (h : (s.step env t).pending = some d) :
    s.pending = some d ∨ t = .symbol d.symbol ∧ s.resolve.accumulator = some d.left := by
  cases t with
  | literal x => exact .inl h
  | reference name =>
    simp only [step] at h
    split at h
    · exact .inl h
    · split at h <;> exact .inl h
  | symbol symbol =>
    simp only [step] at h
    split at h
    · exact .inl h
    · exact .inl h
    · exact .inl h
    · rw [pending_transform] at h
      exact .inl h
    · unfold defer at h
      split at h
      · exact .inl (pending_of_resolve h)
      · rename_i held
        cases h
        exact .inr ⟨rfl, held⟩
    · split at h
      · exact .inl (pending_of_resolve h)
      · exact .inl h

theorem pending_of_run {env : Environment} {s : Slots} {tokens : List Token} {d : Deferred}
    (h : (s.run env tokens).pending = some d) :
    s.pending = some d ∨ ∃ before after, tokens = before ++ .symbol d.symbol :: after ∧
      (s.run env before).resolve.accumulator = some d.left := by
  induction tokens generalizing s with
  | nil => exact .inl h
  | cons t rest ih =>
    rcases ih h with earlier | ⟨before, after, split, held⟩
    · rcases pending_of_step earlier with old | ⟨pressed, held⟩
      · exact .inl old
      · exact .inr ⟨[], rest, congrArg (· :: rest) pressed, held⟩
    · exact .inr ⟨t :: before, after, congrArg (t :: ·) split, held⟩

end Slots

/-! ## Correspondence -/

def Figure.of (a : Operand) : Figure := ⟨a.value, a.text⟩

def Deferred.of (op : BinaryOp) (left : Operand) : Deferred :=
  ⟨op.apply, op.describe, .of left, op.symbol⟩

/-- Each combination of filled and free slots belongs to one shape of the state. -/
inductive Fills : State → Option Figure → Option Deferred → Prop where
  | empty : Fills .empty none none
  | holding (a : Operand) : Fills (.holding a) (some (.of a)) none
  | lacking (left : Operand) (op : BinaryOp) :
      Fills (.awaiting left op none) none (some (.of op left))
  | ready (left : Operand) (op : BinaryOp) (right : Operand) :
      Fills (.awaiting left op (some right)) (some (.of right)) (some (.of op left))

structure Simulates (p : Progress) (s : Slots) : Prop where
  fills : Fills p.state s.accumulator s.pending
  error : p.error = s.error
  draws : p.draws = s.draws

namespace Simulates

variable {p : Progress} {s : Slots}

theorem start (draws : Draws) : Simulates (.start draws) (.start draws) := ⟨.empty, rfl, rfl⟩

theorem put (h : Simulates p s) (a : Operand) : Simulates (p.put a) (s.put a.value a.text) := by
  obtain ⟨state, error, draws⟩ := p
  obtain ⟨accumulator, pending, _, _⟩ := s
  obtain ⟨fills, rfl, rfl⟩ := h
  cases fills with
  | empty => exact ⟨.holding a, rfl, rfl⟩
  | holding _ => exact ⟨.holding a, rfl, rfl⟩
  | lacking left op => exact ⟨.ready left op a, rfl, rfl⟩
  | ready left op _ => exact ⟨.ready left op a, rfl, rfl⟩

theorem draw (h : Simulates p s) (n : Nat) :
    Simulates { p with draws := p.draws.skip n } { s with draws := s.draws.skip n } :=
  ⟨h.fills, h.error, congrArg (·.skip n) h.draws⟩

theorem transform (h : Simulates p s) (op : UnaryOp) :
    Simulates (p.transform op) (s.transform op.symbol op.apply op.describe) := by
  obtain ⟨state, error, draws⟩ := p
  obtain ⟨accumulator, pending, _, _⟩ := s
  obtain ⟨fills, rfl, rfl⟩ := h
  cases fills with
  | empty => exact ⟨.empty, rfl, rfl⟩
  | holding a =>
    have judged := Rule.check?_unary op a.value
    exact ⟨.holding (a.unary op), congrArg (·.or error) judged.symm, rfl⟩
  | lacking left op => exact ⟨.lacking left op, rfl, rfl⟩
  | ready left waiting a =>
    have judged := Rule.check?_unary op a.value
    exact ⟨.ready left waiting (a.unary op), congrArg (·.or error) judged.symm, rfl⟩

theorem resolve (h : Simulates p s) : Simulates p.resolve s.resolve := by
  obtain ⟨state, error, draws⟩ := p
  obtain ⟨accumulator, pending, _, _⟩ := s
  obtain ⟨fills, rfl, rfl⟩ := h
  cases fills with
  | empty => exact ⟨.empty, rfl, rfl⟩
  | holding a => exact ⟨.holding a, rfl, rfl⟩
  | lacking left op => exact ⟨.lacking left op, rfl, rfl⟩
  | ready left op right =>
    have judged := Rule.check?_binary op left.value right.value
    exact ⟨.holding (.binary op left right), congrArg (·.or error) judged.symm, rfl⟩

theorem defer (h : Simulates p s) (op : BinaryOp) :
    Simulates (p.resolve.defer op) (s.resolve.defer op.symbol op.apply op.describe) := by
  have resolved := h.resolve
  obtain ⟨state, error, draws⟩ := p
  obtain ⟨accumulator, pending, _, _⟩ := s
  obtain ⟨fills, rfl, rfl⟩ := h
  cases fills with
  | empty => exact ⟨.empty, rfl, rfl⟩
  | holding a => exact ⟨.lacking a op, rfl, rfl⟩
  | lacking left waiting => exact ⟨.lacking left waiting, rfl, rfl⟩
  | ready left waiting right =>
    exact ⟨.lacking (.binary waiting left right) op, resolved.error, rfl⟩

theorem terminate (h : Simulates p s) :
    Simulates p.resolve (if s.accumulator.isSome then s.resolve else s) := by
  split
  · exact h.resolve
  · rename_i free
    have unchanged : s.resolve = s := by
      rw [Option.not_isSome_iff_eq_none] at free
      simp [Slots.resolve, free]
    exact unchanged ▸ h.resolve

theorem step (h : Simulates p s) (env : Environment) (t : Token) :
    Simulates (p.step env t) (s.step env t) := by
  cases t with
  | literal x => exact h.put (.number x)
  | reference name =>
    have resolved : s.step env (.reference name) =
        s.put (env.resolve name).value (env.resolve name).text := by
      simp only [Slots.step, Environment.resolve]
      cases env.lookup name with
      | some x => rfl
      | none => dsimp only; split <;> rfl
    exact resolved ▸ h.put (env.resolve name)
  | symbol symbol =>
    cases found : Operation.ofSymbol? symbol with
    | none =>
      rw [Progress.step_symbol_of_none env p found]
      simpa only [Slots.step, Rule.ofSymbol?, found, Option.map_none] using h
    | some op =>
      -- Rules are applied under the symbol that was pressed, so it must be the operation's own.
      obtain rfl := Operation.symbol_eq_of_ofSymbol? found
      simp only [Slots.step, Progress.step, Rule.ofSymbol?, found, Option.map_some,
        Rule.ofOperation]
      cases op with
      | constant c => exact h.put (.named c.symbol c.value)
      | random => exact h.draws ▸ (h.draw 1).put (.number p.draws.head)
      | unary op => exact h.transform op
      | binary op => exact h.defer op
      | equals => exact h.terminate

theorem run (h : Simulates p s) (env : Environment) (tokens : List Token) :
    Simulates (p.run env tokens) (s.run env tokens) := by
  induction tokens generalizing p s with
  | nil => exact h
  | cons t rest ih => exact ih (h.step env t)

theorem outcome_eq (h : Simulates p s) : p.outcome = s.outcome := by
  obtain ⟨state, error, draws⟩ := p
  obtain ⟨accumulator, pending, _, _⟩ := s
  obtain ⟨fills, rfl, rfl⟩ := h
  cases fills <;> rfl

end Simulates

/-- Evaluation is what the two slots compute, for any tape, any names and any draws. After
any tokens that are read the state has the shape of the filled slots; an operation is
pending only with a left operand, taken from the accumulator when its symbol was met; and
slots once filled are never both free again. -/
theorem evaluate_eq_slots (e : Engine) (lookup : String → Option Float) (draws : Draws) :
    let slots := (Slots.start draws).run ⟨lookup, e.stored⟩
    e.evaluate lookup draws = (slots e.tape.toList).outcome ∧
      ∀ read unread : List Token,
        Simulates ((Progress.start draws).run ⟨lookup, e.stored⟩ read) (slots read) ∧
        (∀ d, (slots read).pending = some d →
          ∃ before after, read = before ++ .symbol d.symbol :: after ∧
            (slots before).resolve.accumulator = some d.left) ∧
        ((slots (read ++ unread)).Blank → (slots read).Blank) := by
  intro slots
  have simulates (tokens : List Token) :
      Simulates ((Progress.start draws).run ⟨lookup, e.stored⟩ tokens) (slots tokens) :=
    (Simulates.start draws).run ⟨lookup, e.stored⟩ tokens
  refine ⟨(simulates e.tape.toList).outcome_eq, fun read unread => ⟨simulates read, ?_, ?_⟩⟩
  · intro d waiting
    rcases Slots.pending_of_run waiting with atStart | pressed
    · cases atStart
    · exact pressed
  · intro blank
    rw [show slots (read ++ unread) = (slots read).run _ unread from Slots.run_append ..] at blank
    exact Slots.blank_of_run blank

end Keytape
