import Keytape.Proofs.Locality
import Keytape.Proofs.Phase

/-! Tokens that can be left out.

From token to token a fold hands on its state, the last error and the draws, and no token looks
at the error. So whatever leaves all three as they were can be left out, wherever it stands and
whatever follows. Main statements: once nothing waits, a new operand leaves only the last error
of what came before it; tokens that find nothing to act on, or are not registered, are without
any trace; and a sign of equality is idle in front of a binary operator or of another one.
-/

set_option autoImplicit false

namespace Keytape

/-! ## States -/

namespace State

variable {s : State}

theorem act_of_bare (bare : s.accumulator? = none) {a : Action} (idle : a.role ≠ .operand) :
    s.act a = s ∧ s.actFault? a = none := by
  cases s with
  | empty =>
    cases a with
    | enter a => exact absurd rfl idle
    | _ => exact ⟨rfl, rfl⟩
  | holding acc => cases bare
  | awaiting left op right =>
    obtain rfl : right = none := bare
    cases a with
    | enter a => exact absurd rfl idle
    | _ => exact ⟨rfl, rfl⟩

theorem accumulator?_act_defer (s : State) (op : BinaryOp) :
    (s.act (.defer op)).accumulator? = none := by
  cases s with
  | empty => rfl
  | holding acc => rfl
  | awaiting left op' right => cases right <;> rfl

theorem put_of_settled (settled : s.isPending = false) (a : Operand) : s.put a = .holding a := by
  cases s with
  | empty => rfl
  | holding acc => rfl
  | awaiting left op right => cases settled

/-- Where an operation was carried out, nothing is left to carry out. -/
theorem resolve_resolve (s : State) :
    s.resolve.resolve = s.resolve ∧ s.resolve.resolveFault? = none := by
  cases s with
  | empty => exact ⟨rfl, rfl⟩
  | holding acc => exact ⟨rfl, rfl⟩
  | awaiting left op right => cases right <;> exact ⟨rfl, rfl⟩

/-- The text shown while an operation waits is the text of what it comes to. -/
theorem resolve_of_valued (valued : s.value?.isSome = true) :
    ∃ a, s.resolve = .holding a ∧ a.text = s.description := by
  cases s with
  | empty => cases valued
  | holding acc => exact ⟨acc, rfl, rfl⟩
  | awaiting left op right =>
    cases right with
    | none => cases valued
    | some right => exact ⟨.binary op left right, rfl, rfl⟩

end State

/-! ## Tokens -/

theorem Token.role_of_isDraw {t : Token} (drawn : t.isDraw = true) : t.role = .operand := by
  cases t with
  | literal x => rfl
  | reference name => rfl
  | symbol text =>
    have random : Operation.ofSymbol? text = some .random := beq_iff_eq.1 drawn
    rw [role, random]
    rfl

theorem Token.drawCount_of_idle {t : Token} (idle : t.role ≠ .operand) : t.drawCount = 0 :=
  if_neg fun drawn => idle (role_of_isDraw drawn)

/-! ## Runs -/

namespace Progress

variable {env : Environment} {p : Progress} {t : Token} {tokens : List Token}

def clear (p : Progress) : Progress := { p with error := none }

theorem step_eq_clear (env : Environment) (p : Progress) (t : Token) : p.step env t =
    { p.clear.step env t with error := (p.clear.step env t).error.or p.error } := by
  rw [step_eq, step_eq]
  simp only [clear, Option.or_none]

theorem clear_step (env : Environment) (p : Progress) (t : Token) :
    (p.step env t).clear = (p.clear.step env t).clear := by
  rw [step_eq_clear env p t]
  rfl

theorem run_eq_clear (env : Environment) (p : Progress) (tokens : List Token) : p.run env tokens =
    { p.clear.run env tokens with error := (p.clear.run env tokens).error.or p.error } := by
  induction tokens generalizing p with
  | nil => rfl
  | cons t rest ih =>
    have error : (p.step env t).error = (p.clear.step env t).error.or p.error := by
      rw [step_eq_clear]
    -- The errors of the rest come first, then the one of `t`, then the one from before.
    rw [run_cons, run_cons, ih (p.step env t), ih (p.clear.step env t), clear_step, error,
      Option.or_assoc]

/-- An operand that meets nothing waiting starts anew, but for the error on record. -/
theorem run_of_settled (env : Environment) (settled : p.state.isPending = false)
    (operand : t.role = .operand) {draws : Draws}
    (same : p.draws.take ((t :: tokens).countP Token.isDraw) =
      draws.take ((t :: tokens).countP Token.isDraw)) :
    (p.run env (t :: tokens)).state = ((start draws).run env (t :: tokens)).state ∧
    (p.run env (t :: tokens)).error =
      ((start draws).run env (t :: tokens)).error.or p.error := by
  rw [t.countP_isDraw_cons, Draws.take_add_eq_iff] at same
  obtain ⟨first, later⟩ := same
  have acts := t.action_of_role env p.draws
  rw [operand] at acts
  obtain ⟨a, entered⟩ := acts
  have entered' : t.action env draws = .enter a :=
    (Token.action_congr (fun _ _ => rfl) first).symm.trans entered
  have alike : (p.clear.run env (t :: tokens)).state = ((start draws).run env (t :: tokens)).state ∧
      (p.clear.run env (t :: tokens)).error = ((start draws).run env (t :: tokens)).error := by
    rw [run_cons, run_cons]
    refine run_congr ?_ ?_ (fun _ _ => rfl) ?_
    · rw [state_step, state_step, start, clear, entered, entered']
      exact State.put_of_settled settled a
    · rw [step_eq, step_eq, start, clear, entered, entered']
      rfl
    · rw [draws_step, draws_step]
      exact later
  rw [run_eq_clear]
  exact ⟨alike.1, congrArg (·.or p.error) alike.2⟩

theorem step_eq_self (idle : t.role ≠ .operand)
    (kept : p.state.act (t.action env p.draws) = p.state)
    (sound : p.state.actFault? (t.action env p.draws) = none) : p.step env t = p := by
  rw [step_eq, kept, sound, Token.drawCount_of_idle idle, Option.none_or, Draws.skip_zero]

theorem run_eq_self (same : ∀ t ∈ tokens, p.step env t = p) : p.run env tokens = p := by
  induction tokens with
  | nil => rfl
  | cons t rest ih =>
    obtain ⟨first, later⟩ := List.forall_mem_cons.1 same
    rw [run_cons, first, ih later]

theorem run_of_bare (bare : p.state.accumulator? = none) (idle : ∀ t ∈ tokens, t.role ≠ .operand) :
    p.run env tokens = p := by
  refine run_eq_self fun t mem => ?_
  have role := (t.role_action env p.draws).symm ▸ idle t mem
  obtain ⟨kept, sound⟩ := State.act_of_bare bare role
  exact step_eq_self (idle t mem) kept sound

theorem run_of_inert (inert : ∀ t ∈ tokens, t.role = .inert) : p.run env tokens = p := by
  refine run_eq_self fun t mem => ?_
  have passed := t.action_of_role env p.draws
  rw [inert t mem] at passed
  have idle : t.role ≠ .operand := by rw [inert t mem]; decide
  exact step_eq_self idle (by rw [passed]; rfl) (by rw [passed]; rfl)

theorem bare_of_binary (binary : t.role = .binary) : (p.step env t).state.accumulator? = none := by
  have acts := t.action_of_role env p.draws
  rw [binary] at acts
  obtain ⟨op, deferred⟩ := acts
  rw [state_step, deferred, State.accumulator?_act_defer]

theorem step_equals (env : Environment) (p : Progress) : p.step env (.symbol "=") = p.resolve := rfl

theorem step_binary (env : Environment) (p : Progress) (op : BinaryOp) :
    p.step env (.symbol op.symbol) = p.resolve.defer op := by
  have found : Operation.ofSymbol? op.symbol = some (.binary op) :=
    Operation.ofSymbol?_symbol (.binary op)
  rw [step, found]
  rfl

theorem resolve_resolve (p : Progress) : p.resolve.resolve = p.resolve := by
  obtain ⟨kept, sound⟩ := p.state.resolve_resolve
  simp only [resolve, kept, sound, Option.none_or]

theorem outcome_resolve_of_valued (valued : p.state.value?.isSome = true) :
    p.resolve.outcome.isPending = false ∧
      p.resolve.outcome.description = p.outcome.description := by
  obtain ⟨a, resolved, text⟩ := State.resolve_of_valued valued
  simp only [outcome, resolve, resolved]
  exact ⟨rfl, text⟩

theorem outcome_defer_of_valued (valued : p.state.value?.isSome = true) (op : BinaryOp) :
    (p.resolve.defer op).outcome.isPending = true ∧ (p.resolve.defer op).outcome.value = none ∧
      (p.resolve.defer op).outcome.description = op.describe p.outcome.description "" := by
  obtain ⟨a, resolved, text⟩ := State.resolve_of_valued valued
  simp only [outcome, defer, resolve, resolved]
  exact ⟨rfl, rfl, congrArg (op.describe · "") text⟩

theorem isSome_error_run (env : Environment) (tokens : List Token) (failed : p.error.isSome = true) :
    (p.run env tokens).error.isSome = true := by
  rw [run_eq_clear, Option.isSome_or, failed, Bool.or_true]

end Progress

/-! ## Tapes -/

namespace Engine

variable (stored : Float) (lookup : String → Option Float) (draws : Draws)

theorem run_ofList_append (first later : List Token) :
    (Engine.mk (.ofList (first ++ later)) stored).run lookup draws =
      ((Engine.mk (.ofList first) stored).run lookup draws).run ⟨lookup, stored⟩ later :=
  Progress.run_append _ _ _ _

theorem evaluate_ofList_append (first later : List Token) :
    (Engine.mk (.ofList (first ++ later)) stored).evaluate lookup draws =
      (((Engine.mk (.ofList first) stored).run lookup draws).run ⟨lookup, stored⟩ later).outcome :=
  congrArg Progress.outcome (run_ofList_append stored lookup draws first later)

variable {stored lookup draws}

/-- Tokens that come to the same can stand for each other before any others. -/
theorem evaluate_append_congr {first first' : List Token}
    (same : (Engine.mk (.ofList first) stored).run lookup draws =
      (Engine.mk (.ofList first') stored).run lookup draws) (later : List Token) :
    (Engine.mk (.ofList (first ++ later)) stored).evaluate lookup draws =
      (Engine.mk (.ofList (first' ++ later)) stored).evaluate lookup draws := by
  rw [evaluate_ofList_append, evaluate_ofList_append, same]

end Engine

/-- When nothing waits, tokens that start with an operand come to what they do by themselves,
except that the last error from before is still there if they raise none. No tokens take an
error off the record. -/
theorem evaluate_append_of_completed (stored : Float) (lookup : String → Option Float) :
    let evaluate (tokens : List Token) := (Engine.mk (.ofList tokens) stored).evaluate lookup
    (∀ (first : List Token) (t : Token) (later : List Token) (draws draws' : Draws),
      (evaluate first draws).isPending = false → t.role = .operand →
      (draws.skip (first.countP Token.isDraw)).take ((t :: later).countP Token.isDraw) =
        draws'.take ((t :: later).countP Token.isDraw) →
      let alone := evaluate (t :: later) draws'
      evaluate (first ++ t :: later) draws =
        { alone with error := alone.error.or (evaluate first draws).error }) ∧
    ∀ (first later : List Token) (draws : Draws), (evaluate first draws).error.isSome = true →
      (evaluate (first ++ later) draws).error.isSome = true := by
  intro evaluate
  constructor
  · intro first t later draws draws' settled operand same alone
    let before := (Engine.mk (.ofList first) stored).run lookup draws
    have behind : before.draws = draws.skip (first.countP Token.isDraw) :=
      Progress.draws_run ⟨lookup, stored⟩ (.start draws) first
    rw [← behind] at same
    obtain ⟨state, error⟩ := Progress.run_of_settled ⟨lookup, stored⟩ settled operand same
    refine (Engine.evaluate_ofList_append stored lookup draws first (t :: later)).trans ?_
    rw [Progress.outcome, state, error]
    rfl
  · intro first later draws failed
    have joined := Engine.evaluate_ofList_append stored lookup draws first later
    exact (congrArg (·.error.isSome) joined).trans (Progress.isSome_error_run _ later failed)

/-- The error of a division is still there after the root of a draw that is entered next. -/
theorem evaluate_append_of_completed_division :
    let evaluate (tokens : List Token) := (Engine.mk (.ofList tokens) 0.0).evaluate unbound
    let division : List Token := [.symbol "rand", .symbol "÷", .literal 0.0, .symbol "="]
    let root : List Token := [.symbol "rand", .symbol "√", .symbol "+"]
    let draws : Draws := ⟨fun i => if i = 0 then 0.5 else 0.25, 0⟩
    (evaluate division draws).isPending = false ∧
      (evaluate (division ++ root) draws).description = "√(0.25) + " ∧
      (evaluate (division ++ root) draws).error = some .divisionByZero ∧
      (evaluate (division ++ .symbol "=" :: root) draws).error.isSome = true := by
  intro evaluate division root draws
  obtain ⟨anew, recorded⟩ := evaluate_append_of_completed 0.0 unbound
  have settled : (evaluate division draws).isPending = false := rfl
  have failed : (evaluate division draws).error = some .divisionByZero := by decide
  have joined := anew division (.symbol "rand") [.symbol "√", .symbol "+"] draws ⟨fun _ => 0.25, 7⟩
    settled (by decide) rfl
  refine ⟨settled, ?_, ?_, recorded division _ draws (by rw [failed]; rfl)⟩
  · exact (congrArg Outcome.description joined).trans (by decide)
  · exact (congrArg Outcome.error joined).trans (by decide)

/-! ### Tokens without effect -/

/-- The tokens have no effect after those before them. -/
inductive Absorbed (before tokens : List Token) : Prop where
  | unregistered : (∀ t ∈ tokens, t.role = .inert) → Absorbed before tokens
  | afterBinary {op : Token} : before.getLast? = some op → op.role = .binary →
      (∀ t ∈ tokens, t.role ≠ .operand) → Absorbed before tokens
  | atStart : (∀ t ∈ before, t.role ≠ .operand) → (∀ t ∈ tokens, t.role ≠ .operand) →
      Absorbed before tokens

theorem Absorbed.run_eq {before tokens : List Token} (h : Absorbed before tokens)
    (env : Environment) (draws : Draws) :
    ((Progress.start draws).run env before).run env tokens = (Progress.start draws).run env before := by
  cases h with
  | unregistered inert => exact Progress.run_of_inert inert
  | afterBinary last binary idle =>
    obtain ⟨earlier, rfl⟩ := List.getLast?_eq_some_iff.1 last
    refine Progress.run_of_bare ?_ idle
    rw [Progress.run_append]
    exact Progress.bare_of_binary binary
  | atStart blank idle =>
    have bare : (Progress.start draws).state.accumulator? = none := rfl
    rw [Progress.run_of_bare bare blank]
    exact Progress.run_of_bare bare idle

/-- Tokens without effect can be left out, whatever follows them. -/
theorem evaluate_without_absorbed {before tokens : List Token} (h : Absorbed before tokens)
    (later : List Token) (stored : Float) (lookup : String → Option Float) (draws : Draws) :
    (Engine.mk (.ofList (before ++ tokens ++ later)) stored).evaluate lookup draws =
      (Engine.mk (.ofList (before ++ later)) stored).evaluate lookup draws := by
  refine Engine.evaluate_append_congr ?_ later
  rw [Engine.run_ofList_append]
  exact h.run_eq ⟨lookup, stored⟩ draws

/-- The operators after a minus are without effect, two divisions among them, so that the zero
after these is subtracted. -/
theorem evaluate_without_absorbed_operators :
    let before : List Token := [.literal 8.0, .symbol "-"]
    let tokens : List Token :=
      [.symbol "√", .symbol "÷", .symbol "=", .symbol "ln", .symbol "x⁻¹", .symbol "÷"]
    let later : List Token := [.literal 0.0, .symbol "="]
    let draws : Draws := ⟨fun _ => 0.5, 0⟩
    Absorbed before tokens ∧
      (Engine.mk (.ofList (before ++ tokens ++ later)) 0.0).evaluate unbound draws =
        ⟨some 8.0, false, "8.0 - 0.0", none⟩ := by
  intro before tokens later draws
  have absorbed : Absorbed before tokens := .afterBinary rfl (by decide) (by decide)
  refine ⟨absorbed, ?_⟩
  rw [evaluate_without_absorbed absorbed later 0.0 unbound draws]
  rfl

/-! ### Signs of equality -/

/-- A sign of equality is idle right before a binary operator or another sign of equality. With
it a value is completed under the description it had, and with a binary operator that
description stands before the sign of the operator. -/
theorem evaluate_without_equals (stored : Float) (lookup : String → Option Float) (draws : Draws) :
    let evaluate (tokens : List Token) := (Engine.mk (.ofList tokens) stored).evaluate lookup draws
    (∀ (first later : List Token) (op : BinaryOp),
      evaluate (first ++ [.symbol "=", .symbol op.symbol] ++ later) =
        evaluate (first ++ [.symbol op.symbol] ++ later)) ∧
    (∀ first later : List Token, evaluate (first ++ [.symbol "=", .symbol "="] ++ later) =
      evaluate (first ++ [.symbol "="] ++ later)) ∧
    ∀ first : List Token, (evaluate first).value.isSome = true →
      let completed := evaluate (first ++ [.symbol "="])
      completed.isPending = false ∧ completed.description = (evaluate first).description ∧
      ∀ op : BinaryOp,
        let chained := evaluate (first ++ [.symbol op.symbol])
        chained.isPending = true ∧ chained.value = none ∧
          chained.description = op.describe (evaluate first).description "" := by
  intro evaluate
  refine ⟨fun first later op => ?_, fun first later => ?_, fun first valued => ?_⟩
  · refine Engine.evaluate_append_congr ?_ later
    simp only [Engine.run_ofList_append, Progress.run_cons, Progress.run_nil, Progress.step_equals,
      Progress.step_binary, Progress.resolve_resolve]
  · refine Engine.evaluate_append_congr ?_ later
    simp only [Engine.run_ofList_append, Progress.run_cons, Progress.run_nil, Progress.step_equals,
      Progress.resolve_resolve]
  · have completed : evaluate (first ++ [.symbol "="]) =
        ((Engine.mk (.ofList first) stored).run lookup draws).resolve.outcome :=
      Engine.evaluate_ofList_append stored lookup draws first [.symbol "="]
    obtain ⟨finished, text⟩ := Progress.outcome_resolve_of_valued valued
    refine ⟨?_, ?_, fun op => ?_⟩
    · rw [completed, finished]
    · rw [completed, text]
      rfl
    · have chained : evaluate (first ++ [.symbol op.symbol]) =
          (((Engine.mk (.ofList first) stored).run lookup draws).resolve.defer op).outcome := by
        rw [← Progress.step_binary ⟨lookup, stored⟩]
        exact Engine.evaluate_ofList_append stored lookup draws first [.symbol op.symbol]
      rw [chained]
      exact Progress.outcome_defer_of_valued valued op

/-- A division by zero is completed, or multiplied on, under the text it had while it waited. -/
theorem evaluate_without_equals_of_division :
    let evaluate (tokens : List Token) :=
      (Engine.mk (.ofList tokens) 0.0).evaluate unbound ⟨fun _ => 0.5, 0⟩
    let division : List Token := [.literal 4.0, .symbol "÷", .literal 0.0]
    (evaluate division).value.isSome = true ∧
      (evaluate (division ++ [.symbol "="])).description = "4.0 ÷ 0.0" ∧
      (evaluate (division ++ [.symbol "xʸ"])).description = "(4.0 ÷ 0.0) ^ " := by
  intro evaluate division
  have valued : (evaluate division).value.isSome = true := rfl
  obtain ⟨_, _, held⟩ := evaluate_without_equals 0.0 unbound ⟨fun _ => 0.5, 0⟩
  obtain ⟨_, completed, chained⟩ := held division valued
  refine ⟨valued, completed.trans (by decide), ?_⟩
  exact (chained .power).2.2.trans (by decide)

end Keytape
