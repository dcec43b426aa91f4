import Keytape.Proofs.Action

/-! Evaluation before names have values.

Which operands a tape keeps, and which operations stand over them, depends neither on what
names mean nor on what is drawn. A formula holds its operands as they were entered. The main
statement says that the state after a tape is its outline in formulas, read in the
environment; so two evaluations of one tape differ in the values and texts of operands only.
-/

set_option autoImplicit false

namespace Keytape

inductive Entry where
  | literal (x : Float)
  | reference (name : String)
  | constant (c : Constant)
  /-- A draw, by how many come before it. -/
  | draw (earlier : Nat)

namespace Entry

def token : Entry → Token
  | .literal x => .literal x
  | .reference name => .reference name
  | .constant c => .symbol c.symbol
  | .draw _ => .symbol Operation.random.symbol

def operand (env : Environment) (draws : Draws) : Entry → Operand
  | .literal x => .number x
  | .reference name => env.resolve name
  | .constant c => .named c.symbol c.value
  | .draw earlier => .number (draws.skip earlier).head

def text (env : Environment) (draws : Draws) (e : Entry) : String := (e.operand env draws).text

end Entry

inductive Formula where
  | entry (e : Entry)
  | unary (op : UnaryOp) (arg : Formula)
  | binary (op : BinaryOp) (left right : Formula)

namespace Formula

def entries : Formula → List Entry
  | .entry e => [e]
  | .unary _ f => f.entries
  | .binary _ l r => l.entries ++ r.entries

def operand (env : Environment) (draws : Draws) : Formula → Operand
  | .entry e => e.operand env draws
  | .unary op f => (f.operand env draws).unary op
  | .binary op l r => .binary op (l.operand env draws) (r.operand env draws)

def write (text : Entry → String) : Formula → String
  | .entry e => text e
  | .unary op f => op.describe (f.write text)
  | .binary op l r => op.describe (l.write text) (r.write text)

theorem text_operand (f : Formula) (env : Environment) (draws : Draws) :
    (f.operand env draws).text = f.write (Entry.text env draws) := by
  induction f with
  | entry e => rfl
  | unary op f ih => exact congrArg op.describe ih
  | binary op l r ihl ihr =>
    rw [write, ← ihl, ← ihr]
    rfl

theorem operand_congr {f : Formula} {env env' : Environment} {draws draws' : Draws}
    (same : ∀ e ∈ f.entries, e.operand env draws = e.operand env' draws') :
    f.operand env draws = f.operand env' draws' := by
  induction f with
  | entry e => exact same e (List.mem_singleton_self e)
  | unary op f ih => exact congrArg (Operand.unary op) (ih same)
  | binary op l r ihl ihr =>
    obtain ⟨left, right⟩ := List.forall_mem_append.1 same
    rw [operand, ihl left, ihr right, operand]

theorem write_congr {f : Formula} {text text' : Entry → String}
    (same : ∀ e ∈ f.entries, text e = text' e) : f.write text = f.write text' := by
  induction f with
  | entry e => exact same e (List.mem_singleton_self e)
  | unary op f ih => exact congrArg op.describe (ih same)
  | binary op l r ihl ihr =>
    obtain ⟨left, right⟩ := List.forall_mem_append.1 same
    rw [write, ihl left, ihr right, write]

end Formula

/-! ## Outlines -/

/-- What the calculator holds between two tokens, in formulas. -/
inductive Outline where
  | empty
  | holding (acc : Formula)
  | awaiting (left : Formula) (op : BinaryOp) (right : Option Formula)

namespace Outline

def entries : Outline → List Entry
  | .empty => []
  | .holding acc => acc.entries
  | .awaiting left _ right => left.entries ++ (right.map Formula.entries).getD []

def isPending : Outline → Bool
  | .awaiting .. => true
  | _ => false

def hasValue : Outline → Bool
  | .empty => false
  | .holding _ => true
  | .awaiting _ _ right => right.isSome

/-- The state that the outline is when names and draws have values. -/
def state (env : Environment) (draws : Draws) : Outline → State
  | .empty => .empty
  | .holding acc => .holding (acc.operand env draws)
  | .awaiting left op right =>
    .awaiting (left.operand env draws) op (right.map (Formula.operand env draws))

def write (text : Entry → String) : Outline → String
  | .empty => ""
  | .holding acc => acc.write text
  | .awaiting left op right =>
    op.describe (left.write text) ((right.map (Formula.write text)).getD "")

def enter (e : Entry) : Outline → Outline
  | .empty | .holding _ => .holding (.entry e)
  | .awaiting left op _ => .awaiting left op (some (.entry e))

def transform (op : UnaryOp) : Outline → Outline
  | .empty => .empty
  | .holding acc => .holding (.unary op acc)
  | .awaiting left waiting right => .awaiting left waiting (right.map (.unary op))

def resolve : Outline → Outline
  | .awaiting left op (some right) => .holding (.binary op left right)
  | o => o

def defer (op : BinaryOp) : Outline → Outline
  | .holding acc => .awaiting acc op none
  | o => o

def step (drawn : Nat) (o : Outline) : Token → Outline
  | .literal x => o.enter (.literal x)
  | .reference name => o.enter (.reference name)
  | .symbol text =>
    match Operation.ofSymbol? text with
    | some (.constant c) => o.enter (.constant c)
    | some .random => o.enter (.draw drawn)
    | some (.unary op) => o.transform op
    | some (.binary op) => o.resolve.defer op
    | some .equals => o.resolve
    | none => o

def run (drawn : Nat) (o : Outline) : List Token → Outline
  | [] => o
  | t :: rest => (o.step drawn t).run (drawn + t.drawCount) rest

/-! ## Reading an outline -/

section
variable (env : Environment) (draws : Draws) (o : Outline)

@[simp] theorem isPending_state : (o.state env draws).isPending = o.isPending := by
  cases o <;> rfl

@[simp] theorem isSome_value?_state : (o.state env draws).value?.isSome = o.hasValue := by
  cases o with
  | empty => rfl
  | holding acc => rfl
  | awaiting left op right => cases right <;> rfl

theorem description_state :
    (o.state env draws).description = o.write (Entry.text env draws) := by
  cases o with
  | empty => rfl
  | holding acc => exact acc.text_operand env draws
  | awaiting left op right =>
    cases right with
    | none =>
      rw [write, ← left.text_operand]
      rfl
    | some right =>
      rw [write, Option.map_some, ← left.text_operand, ← right.text_operand]
      rfl

theorem state_enter (e : Entry) :
    (o.enter e).state env draws = (o.state env draws).put (e.operand env draws) := by
  cases o <;> rfl

theorem state_transform (op : UnaryOp) :
    (o.transform op).state env draws = (o.state env draws).act (.transform op) := by
  cases o with
  | empty => rfl
  | holding acc => rfl
  | awaiting left waiting right => cases right <;> rfl

theorem state_resolve : o.resolve.state env draws = (o.state env draws).resolve := by
  cases o with
  | empty => rfl
  | holding acc => rfl
  | awaiting left op right => cases right <;> rfl

theorem state_defer (op : BinaryOp) :
    (o.defer op).state env draws = (o.state env draws).defer op := by
  cases o <;> rfl

theorem state_step (drawn : Nat) (t : Token) :
    (o.step drawn t).state env draws =
      (o.state env draws).act (t.action env (draws.skip drawn)) := by
  cases t with
  | literal x => exact o.state_enter env draws (.literal x)
  | reference name => exact o.state_enter env draws (.reference name)
  | symbol text =>
    cases found : Operation.ofSymbol? text with
    | none =>
      simp only [step, Token.action, found]
      rfl
    | some op =>
      simp only [step, Token.action, found]
      cases op with
      | constant c => exact o.state_enter env draws (.constant c)
      | random => exact o.state_enter env draws (.draw drawn)
      | unary op => exact o.state_transform env draws op
      | binary op =>
        rw [state_defer, state_resolve]
        rfl
      | equals => exact o.state_resolve env draws

end

theorem state_congr {o : Outline} {env env' : Environment} {draws draws' : Draws}
    (same : ∀ e ∈ o.entries, e.operand env draws = e.operand env' draws') :
    o.state env draws = o.state env' draws' := by
  cases o with
  | empty => rfl
  | holding acc => exact congrArg State.holding (Formula.operand_congr same)
  | awaiting left op right =>
    obtain ⟨before, after⟩ := List.forall_mem_append.1 same
    have first := Formula.operand_congr before
    cases right with
    | none => rw [state, first, state, Option.map_none, Option.map_none]
    | some right =>
      have last := Formula.operand_congr after
      rw [state, first, Option.map_some, last, state, Option.map_some]

end Outline

/-- Names and draws have no part in which formulas a run builds. -/
theorem Progress.state_run_outline {env : Environment} {draws : Draws} {p : Progress} {o : Outline}
    {drawn : Nat} (held : p.state = o.state env draws) (left : p.draws = draws.skip drawn)
    (tokens : List Token) : (p.run env tokens).state = (o.run drawn tokens).state env draws := by
  -- The draws that are left say how many came before the next token.
  induction tokens generalizing p o drawn with
  | nil => exact held
  | cons t rest ih =>
    rw [run_cons, Outline.run]
    refine ih ?_ ?_
    · rw [state_step, held, left, o.state_step env draws drawn t]
    · rw [draws_step, left, Draws.skip_skip]

/-! ## What a run enters -/

namespace Outline

variable {e entered : Entry} {o : Outline}

theorem mem_entries_enter (h : e ∈ (o.enter entered).entries) : e ∈ o.entries ∨ e = entered := by
  cases o with
  | empty => exact .inr (List.mem_singleton.1 h)
  | holding acc => exact .inr (List.mem_singleton.1 h)
  | awaiting left op right =>
    rcases List.mem_append.1 h with old | new
    · exact .inl (List.mem_append_left _ old)
    · exact .inr (List.mem_singleton.1 new)

@[simp] theorem entries_transform (o : Outline) (op : UnaryOp) :
    (o.transform op).entries = o.entries := by
  cases o with
  | empty => rfl
  | holding acc => rfl
  | awaiting left waiting right => cases right <;> rfl

@[simp] theorem entries_resolve (o : Outline) : o.resolve.entries = o.entries := by
  cases o with
  | empty => rfl
  | holding acc => rfl
  | awaiting left op right => cases right <;> rfl

@[simp] theorem entries_defer (o : Outline) (op : BinaryOp) : (o.defer op).entries = o.entries := by
  cases o with
  | empty => rfl
  | holding acc => exact List.append_nil _
  | awaiting left waiting right => rfl

theorem mem_entries_step {drawn : Nat} {t : Token} (h : e ∈ (o.step drawn t).entries) :
    e ∈ o.entries ∨ e.token = t := by
  cases t with
  | literal x => exact (mem_entries_enter h).imp_right (congrArg Entry.token)
  | reference name => exact (mem_entries_enter h).imp_right (congrArg Entry.token)
  | symbol text =>
    simp only [step] at h
    split at h
    · rename_i found
      rw [← Operation.symbol_eq_of_ofSymbol? found]
      exact (mem_entries_enter h).imp_right (congrArg Entry.token)
    · rename_i found
      rw [← Operation.symbol_eq_of_ofSymbol? found]
      exact (mem_entries_enter h).imp_right (congrArg Entry.token)
    · exact .inl (by simpa using h)
    · exact .inl (by simpa using h)
    · exact .inl (by simpa using h)
    · exact .inl h

theorem mem_entries_run {drawn : Nat} {tokens : List Token}
    (h : e ∈ (o.run drawn tokens).entries) : e ∈ o.entries ∨ e.token ∈ tokens := by
  induction tokens generalizing o drawn with
  | nil => exact .inl h
  | cons t rest ih =>
    rcases ih h with before | later
    · exact (mem_entries_step before).imp_right fun (same : e.token = t) =>
        same ▸ List.mem_cons_self
    · exact .inr (List.mem_cons_of_mem t later)

end Outline

namespace Engine

def outline (e : Engine) : Outline := Outline.empty.run 0 e.tape.toList

theorem state_run (e : Engine) (lookup : String → Option Float) (draws : Draws) :
    (e.run lookup draws).state = e.outline.state ⟨lookup, e.stored⟩ draws :=
  Progress.state_run_outline rfl rfl e.tape.toList

theorem isPending_evaluate (e : Engine) (lookup : String → Option Float) (draws : Draws) :
    (e.evaluate lookup draws).isPending = e.outline.isPending := by
  rw [← e.outline.isPending_state ⟨lookup, e.stored⟩ draws, ← state_run]
  rfl

theorem isSome_value_evaluate (e : Engine) (lookup : String → Option Float) (draws : Draws) :
    (e.evaluate lookup draws).value.isSome = e.outline.hasValue := by
  rw [← e.outline.isSome_value?_state ⟨lookup, e.stored⟩ draws, ← state_run]
  rfl

theorem description_evaluate (e : Engine) (lookup : String → Option Float) (draws : Draws) :
    (e.evaluate lookup draws).description =
      e.outline.write (Entry.text ⟨lookup, e.stored⟩ draws) := by
  rw [← e.outline.description_state, ← state_run]
  rfl

theorem token_mem_of_entries {e : Engine} {entry : Entry} (h : entry ∈ e.outline.entries) :
    entry.token ∈ e.tape.toList := by
  rcases Outline.mem_entries_run h with atStart | entered
  · cases atStart
  · exact entered

end Engine

end Keytape
