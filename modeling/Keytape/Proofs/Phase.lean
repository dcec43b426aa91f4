import Keytape.Proofs.Action

/-! What a fold holds and what it waits for, read off the tape.

A state is empty, holds a value, or has an operation waiting without or with its right
operand. Which of these it is depends on the roles of the tokens alone. The main statement
gives pending outcomes and absent values in terms of the last binary operator of the tape.
-/

set_option autoImplicit false

namespace Keytape

/-- What a token is to a fold, whatever state it meets. -/
inductive Role where
  | operand
  | unary
  | binary
  | equals
  | inert
  deriving DecidableEq

def Role.ofKind : Operation.Kind → Role
  | .constant | .nullary => .operand
  | .unary => .unary
  | .binary => .binary
  | .equals => .equals

def Token.role : Token → Role
  | .literal _ | .reference _ => .operand
  | .symbol text => ((Operation.ofSymbol? text).map fun op => Role.ofKind op.kind).getD .inert

def Action.role : Action → Role
  | .enter _ => .operand
  | .transform _ => .unary
  | .defer _ => .binary
  | .complete => .equals
  | .pass => .inert

theorem Token.role_action (t : Token) (env : Environment) (draws : Draws) :
    (t.action env draws).role = t.role := by
  cases t with
  | literal x => rfl
  | reference name => rfl
  | symbol text =>
    simp only [action, role]
    cases Operation.ofSymbol? text with
    | none => rfl
    | some op => cases op <;> rfl

/-- The role of a token says which of the five actions it takes. -/
theorem Token.action_of_role (t : Token) (env : Environment) (draws : Draws) :
    match t.role with
    | .operand => ∃ a, t.action env draws = .enter a
    | .unary => ∃ op, t.action env draws = .transform op
    | .binary => ∃ op, t.action env draws = .defer op
    | .equals => t.action env draws = .complete
    | .inert => t.action env draws = .pass := by
  rw [← t.role_action env draws]
  cases t.action env draws with
  | enter a => exact ⟨a, rfl⟩
  | transform op => exact ⟨op, rfl⟩
  | defer op => exact ⟨op, rfl⟩
  | complete => rfl
  | pass => rfl

/-! ## Phases -/

inductive Phase where
  | empty
  | holding
  /-- An operation waits and has no right operand. -/
  | lacking
  /-- An operation waits and has its right operand. -/
  | ready
  deriving DecidableEq

namespace Phase

/-- The phase after a token. All that changes a phase is listed. -/
@[simp] def next : Phase → Role → Phase
  | .empty, .operand => .holding
  | .holding, .binary => .lacking
  | .lacking, .operand => .ready
  | .ready, .binary => .lacking
  | .ready, .equals => .holding
  | s, _ => s

def after (s : Phase) (tokens : List Token) : Phase := tokens.foldl (fun s t => s.next t.role) s

@[simp] def isPending : Phase → Bool
  | .lacking | .ready => true
  | .empty | .holding => false

@[simp] def hasValue : Phase → Bool
  | .holding | .ready => true
  | .empty | .lacking => false

@[simp] theorem after_nil (s : Phase) : s.after [] = s := rfl

@[simp] theorem after_cons (s : Phase) (t : Token) (tokens : List Token) :
    s.after (t :: tokens) = (s.next t.role).after tokens :=
  rfl

theorem after_append (s : Phase) (first later : List Token) :
    s.after (first ++ later) = (s.after first).after later :=
  List.foldl_append

end Phase

def State.phase : State → Phase
  | .empty => .empty
  | .holding _ => .holding
  | .awaiting _ _ none => .lacking
  | .awaiting _ _ (some _) => .ready

theorem State.isPending_phase (s : State) : s.phase.isPending = s.isPending := by
  cases s with
  | empty => rfl
  | holding acc => rfl
  | awaiting left op right => cases right <;> rfl

theorem State.hasValue_phase (s : State) : s.phase.hasValue = s.value?.isSome := by
  cases s with
  | empty => rfl
  | holding acc => rfl
  | awaiting left op right => cases right <;> rfl

theorem State.phase_act (s : State) (a : Action) : (s.act a).phase = s.phase.next a.role := by
  cases s with
  | empty => cases a <;> rfl
  | holding acc => cases a <;> rfl
  | awaiting left op right =>
    cases right with
    | none => cases a <;> rfl
    | some right => cases a <;> rfl

namespace Progress

theorem phase_step (env : Environment) (p : Progress) (t : Token) :
    (p.step env t).state.phase = p.state.phase.next t.role := by
  rw [state_step, State.phase_act, t.role_action]

theorem phase_run (env : Environment) (p : Progress) (tokens : List Token) :
    (p.run env tokens).state.phase = p.state.phase.after tokens := by
  induction tokens generalizing p with
  | nil => rfl
  | cons t rest ih => rw [run_cons, ih, phase_step, Phase.after_cons]

end Progress

/-! ## What leaves a phase as it is -/

namespace Phase

section
variable {s : Phase} {r : Role}

theorem next_empty (h : r ≠ .operand) : empty.next r = .empty := by
  cases r <;> simp_all

theorem next_holding (h : r ≠ .binary) : holding.next r = .holding := by
  cases r <;> simp_all

theorem next_lacking (h : r ≠ .operand) : lacking.next r = .lacking := by
  cases r <;> simp_all

theorem next_ready (last : r ≠ .binary) (h : r ≠ .equals) : ready.next r = .ready := by
  cases r <;> simp_all

theorem next_ne_empty (r : Role) (filled : s ≠ .empty) : s.next r ≠ .empty := by
  cases s <;> cases r <;> simp_all

theorem next_binary (filled : s ≠ .empty) : s.next .binary = .lacking := by
  cases s <;> simp_all

end

/-! ## Closed forms -/

section
variable {s : Phase} {tokens : List Token}

theorem after_ne_empty (tokens : List Token) (filled : s ≠ .empty) : s.after tokens ≠ .empty := by
  induction tokens generalizing s with
  | nil => exact filled
  | cons t rest ih => exact ih (next_ne_empty t.role filled)

theorem after_empty_eq_empty_iff :
    empty.after tokens = .empty ↔ ∀ t ∈ tokens, t.role ≠ .operand := by
  induction tokens with
  | nil => simp
  | cons t rest ih =>
    rw [List.forall_mem_cons, after_cons]
    by_cases entered : t.role = .operand
    · have filled := after_ne_empty (s := .holding) rest (by decide)
      rw [entered, next]
      simp [filled]
    · rw [next_empty entered, ih]
      simp [entered]

/-! ### Without a binary operator -/

theorem after_holding (last : ∀ t ∈ tokens, t.role ≠ .binary) : holding.after tokens = .holding := by
  induction tokens with
  | nil => rfl
  | cons t rest ih =>
    obtain ⟨first, later⟩ := List.forall_mem_cons.1 last
    rw [after_cons, next_holding first, ih later]

theorem isPending_after_empty (last : ∀ t ∈ tokens, t.role ≠ .binary) :
    (empty.after tokens).isPending = false := by
  induction tokens with
  | nil => rfl
  | cons t rest ih =>
    obtain ⟨first, later⟩ := List.forall_mem_cons.1 last
    by_cases entered : t.role = .operand
    · rw [after_cons, entered, next, after_holding later]
      rfl
    · rw [after_cons, next_empty entered, ih later]

theorem hasValue_after_ready (last : ∀ t ∈ tokens, t.role ≠ .binary) :
    (ready.after tokens).hasValue = true := by
  induction tokens with
  | nil => rfl
  | cons t rest ih =>
    obtain ⟨first, later⟩ := List.forall_mem_cons.1 last
    by_cases completed : t.role = .equals
    · rw [after_cons, completed, next, after_holding later]
      rfl
    · rw [after_cons, next_ready first completed, ih later]

theorem isPending_after_ready_iff (last : ∀ t ∈ tokens, t.role ≠ .binary) :
    (ready.after tokens).isPending = true ↔ ∀ t ∈ tokens, t.role ≠ .equals := by
  induction tokens with
  | nil => simp
  | cons t rest ih =>
    obtain ⟨first, later⟩ := List.forall_mem_cons.1 last
    rw [List.forall_mem_cons, after_cons]
    by_cases completed : t.role = .equals
    · rw [completed, next, after_holding later]
      simp
    · rw [next_ready first completed, ih later]
      simp [completed]

theorem isPending_after_lacking_iff (last : ∀ t ∈ tokens, t.role ≠ .binary) :
    (lacking.after tokens).isPending = true ↔
      tokens.Pairwise fun t t' => t.role = .operand → t'.role ≠ .equals := by
  induction tokens with
  | nil => simp
  | cons t rest ih =>
    obtain ⟨first, later⟩ := List.forall_mem_cons.1 last
    rw [List.pairwise_cons, after_cons]
    by_cases entered : t.role = .operand
    · rw [entered, next, isPending_after_ready_iff later]
      constructor
      · intro unanswered
        refine ⟨fun t' mem _ => unanswered t' mem, ?_⟩
        exact List.pairwise_of_forall_mem_list fun _ _ t' mem _ => unanswered t' mem
      · rintro ⟨unanswered, _⟩ t' mem
        exact unanswered t' mem rfl
    · rw [next_lacking entered, ih later]
      simp [entered]

theorem hasValue_after_lacking_iff (last : ∀ t ∈ tokens, t.role ≠ .binary) :
    (lacking.after tokens).hasValue = false ↔ ∀ t ∈ tokens, t.role ≠ .operand := by
  induction tokens with
  | nil => simp
  | cons t rest ih =>
    obtain ⟨first, later⟩ := List.forall_mem_cons.1 last
    rw [List.forall_mem_cons, after_cons]
    by_cases entered : t.role = .operand
    · rw [entered, next, hasValue_after_ready later]
      simp
    · rw [next_lacking entered, ih later]
      simp [entered]

end

/-! ### The last binary operator -/

/-- The tokens on either side of the last binary operator. -/
structure LastBinary (tokens before : List Token) (op : Token) (after : List Token) : Prop where
  eq : tokens = before ++ op :: after
  binary : op.role = .binary
  last : ∀ t ∈ after, t.role ≠ .binary

theorem exists_lastBinary (tokens : List Token) :
    (∀ t ∈ tokens, t.role ≠ .binary) ∨ ∃ before op after, LastBinary tokens before op after := by
  induction tokens with
  | nil => exact .inl nofun
  | cons t rest ih =>
    rcases ih with none | ⟨before, op, after, split⟩
    · by_cases binary : t.role = .binary
      · exact .inr ⟨[], t, rest, rfl, binary, none⟩
      · exact .inl (List.forall_mem_cons.2 ⟨binary, none⟩)
    · exact .inr ⟨t :: before, op, after, congrArg (t :: ·) split.eq, split.binary, split.last⟩

section
variable {tokens before after : List Token} {op : Token}

/-- An operand before the operator is on its left or on the left of an operator before it. -/
theorem LastBinary.after_eq (split : LastBinary tokens before op after)
    (entered : ∃ t ∈ before, t.role = .operand) :
    empty.after tokens = lacking.after after := by
  obtain ⟨t, mem, operand⟩ := entered
  have filled : empty.after before ≠ .empty := fun blank =>
    after_empty_eq_empty_iff.1 blank t mem operand
  rw [split.eq, after_append, after_cons, split.binary, next_binary filled]

/-- Without an operand before it the operator has nothing to act on. -/
theorem LastBinary.isPending_eq (split : LastBinary tokens before op after)
    (none : ∀ t ∈ before, t.role ≠ .operand) : (empty.after tokens).isPending = false := by
  have blank : empty.after before = .empty := after_empty_eq_empty_iff.2 none
  rw [split.eq, after_append, after_cons, blank, split.binary, next_empty (by decide),
    isPending_after_empty split.last]

end

theorem isPending_after_iff {tokens : List Token} :
    (empty.after tokens).isPending = true ↔
      ∃ before op after, LastBinary tokens before op after ∧ (∃ t ∈ before, t.role = .operand) ∧
        after.Pairwise fun t t' => t.role = .operand → t'.role ≠ .equals := by
  constructor
  · intro pending
    rcases exists_lastBinary tokens with none | ⟨before, op, after, split⟩
    · rw [isPending_after_empty none] at pending
      cases pending
    · by_cases entered : ∃ t ∈ before, t.role = .operand
      · rw [split.after_eq entered] at pending
        exact ⟨before, op, after, split, entered, (isPending_after_lacking_iff split.last).1 pending⟩
      · rw [split.isPending_eq fun t mem operand => entered ⟨t, mem, operand⟩] at pending
        cases pending
  · rintro ⟨before, op, after, split, entered, unanswered⟩
    rw [split.after_eq entered]
    exact (isPending_after_lacking_iff split.last).2 unanswered

theorem eq_empty_of_not_isPending {s : Phase} (settled : s.isPending = false)
    (valueless : s.hasValue = false) : s = .empty := by
  cases s <;> simp_all

theorem hasValue_after_eq_false_iff {tokens : List Token} :
    (empty.after tokens).hasValue = false ↔
      (∀ t ∈ tokens, t.role ≠ .operand) ∨
      ∃ before op after, LastBinary tokens before op after ∧ (∃ t ∈ before, t.role = .operand) ∧
        ∀ t ∈ after, t.role ≠ .operand := by
  constructor
  · intro valueless
    cases pending : (empty.after tokens).isPending with
    | false => exact .inl (after_empty_eq_empty_iff.1 (eq_empty_of_not_isPending pending valueless))
    | true =>
      obtain ⟨before, op, after, split, entered, _⟩ := isPending_after_iff.1 pending
      rw [split.after_eq entered] at valueless
      have lacking := (hasValue_after_lacking_iff split.last).1 valueless
      exact .inr ⟨before, op, after, split, entered, lacking⟩
  · rintro (none | ⟨before, op, after, split, entered, none⟩)
    · rw [after_empty_eq_empty_iff.2 none]
      rfl
    · rw [split.after_eq entered]
      exact (hasValue_after_lacking_iff split.last).2 none

end Phase

/-- An outcome is pending when an operand precedes the last binary operator and none after it
is followed by a sign of equality. There is no value when there is no operand at all, or one
before the last binary operator and none after it. Names, draws and values play no part. -/
theorem pending_and_valueless_iff (e : Engine) (lookup : String → Option Float) (draws : Draws) :
    ((e.evaluate lookup draws).isPending = true ↔
      ∃ before op after, Phase.LastBinary e.tape.toList before op after ∧
        (∃ t ∈ before, t.role = .operand) ∧
        after.Pairwise fun t t' => t.role = .operand → t'.role ≠ .equals) ∧
    ((e.evaluate lookup draws).value = none ↔
      (∀ t ∈ e.tape.toList, t.role ≠ .operand) ∨
      ∃ before op after, Phase.LastBinary e.tape.toList before op after ∧
        (∃ t ∈ before, t.role = .operand) ∧ ∀ t ∈ after, t.role ≠ .operand) := by
  have phase : (e.run lookup draws).state.phase = Phase.empty.after e.tape.toList :=
    Progress.phase_run ⟨lookup, e.stored⟩ (.start draws) e.tape.toList
  have pending : (e.evaluate lookup draws).isPending =
      (Phase.empty.after e.tape.toList).isPending := by
    rw [← phase, State.isPending_phase]
    rfl
  have valued : (e.evaluate lookup draws).value.isSome =
      (Phase.empty.after e.tape.toList).hasValue := by
    rw [← phase, State.hasValue_phase]
    rfl
  constructor
  · rw [pending, Phase.isPending_after_iff]
  · rw [← Option.not_isSome_iff_eq_none, valued, Bool.not_eq_true, Phase.hasValue_after_eq_false_iff]

end Keytape
