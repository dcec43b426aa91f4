import Keytape.Proofs.Action
import Keytape.Session

/-! What an evaluation takes from the draws.

An evaluation reads as many values as its tape has draws, from the present position on. Main
statements: it leaves the draws behind these, and two evaluations of one session that read the
same values come out alike.
-/

set_option autoImplicit false

namespace Keytape

namespace Draws

def take (d : Draws) : Nat → List Float
  | 0 => []
  | n + 1 => d.head :: (d.skip 1).take n

@[simp] theorem take_zero (d : Draws) : d.take 0 = [] := rfl

@[simp] theorem length_take (d : Draws) (n : Nat) : (d.take n).length = n := by
  induction n generalizing d with
  | zero => rfl
  | succ n ih => rw [take, List.length_cons, ih]

theorem take_add (d : Draws) (m n : Nat) : d.take (m + n) = d.take m ++ (d.skip m).take n := by
  induction m generalizing d with
  | zero => rw [Nat.zero_add, skip_zero, take_zero, List.nil_append]
  | succ m ih =>
    rw [Nat.add_right_comm, take, take, ih, skip_skip, Nat.add_comm 1 m, List.cons_append]

theorem take_add_eq_iff (d d' : Draws) (m n : Nat) : d.take (m + n) = d'.take (m + n) ↔
    d.take m = d'.take m ∧ (d.skip m).take n = (d'.skip m).take n := by
  rw [take_add, take_add]
  refine ⟨fun same => ?_, fun ⟨first, later⟩ => by rw [first, later]⟩
  exact List.append_inj same (by rw [length_take, length_take])

end Draws

/-! ## Runs -/

theorem Token.action_congr {t : Token} {env env' : Environment} {d d' : Draws}
    (names : ∀ name, t = .reference name → env.resolve name = env'.resolve name)
    (same : d.take t.drawCount = d'.take t.drawCount) : t.action env d = t.action env' d' := by
  cases t with
  | literal x => rfl
  | reference name => exact congrArg Action.enter (names name rfl)
  | symbol text =>
    simp only [action, drawCount, isDraw] at same ⊢
    split
    · rfl
    · rename_i random
      have heads : d.head = d'.head := by simpa [random, Draws.take] using same
      rw [heads]
    · rfl
    · rfl
    · rfl
    · rfl

theorem Token.countP_isDraw_cons (t : Token) (rest : List Token) :
    (t :: rest).countP isDraw = t.drawCount + rest.countP isDraw := by
  rw [List.countP_cons, Nat.add_comm, drawCount]

theorem Progress.draws_run (env : Environment) (p : Progress) (tokens : List Token) :
    (p.run env tokens).draws = p.draws.skip (tokens.countP Token.isDraw) := by
  induction tokens generalizing p with
  | nil => rfl
  | cons t rest ih => rw [run_cons, ih, draws_step, Draws.skip_skip, t.countP_isDraw_cons]

/-- Runs come alike if they resolve the names of the tokens alike and draw the same values. -/
theorem Progress.run_congr {env env' : Environment} {tokens : List Token} {p p' : Progress}
    (state : p.state = p'.state) (error : p.error = p'.error)
    (names : ∀ name, .reference name ∈ tokens → env.resolve name = env'.resolve name)
    (same : p.draws.take (tokens.countP Token.isDraw) = p'.draws.take (tokens.countP Token.isDraw)) :
    (p.run env tokens).state = (p'.run env' tokens).state ∧
      (p.run env tokens).error = (p'.run env' tokens).error := by
  induction tokens generalizing p p' with
  | nil => exact ⟨state, error⟩
  | cons t rest ih =>
    rw [t.countP_isDraw_cons, Draws.take_add_eq_iff] at same
    obtain ⟨first, later⟩ := same
    have action : t.action env p.draws = t.action env' p'.draws :=
      Token.action_congr (fun name here => names name (here ▸ List.mem_cons_self)) first
    rw [run_cons, run_cons]
    -- Both runs act alike on `t`, and it takes the same number of values from both draws.
    refine ih ?_ ?_ (fun name later => names name (List.mem_cons_of_mem t later)) ?_
    · rw [state_step, state_step, state, action]
    · rw [step_eq, step_eq, state, action, error]
    · rw [draws_step, draws_step]
      exact later

/-! ## Evaluations -/

theorem Session.draws_run (s : Session) (draws : Draws) :
    (s.engine.run s.memory.lookup draws).draws = s.drawsAfter draws :=
  Progress.draws_run _ _ _

theorem Engine.evaluate_congr {tape : Tape} {stored stored' : Float}
    {lookup lookup' : String → Option Float} {d d' : Draws}
    (names : ∀ name, .reference name ∈ tape.toList →
      Environment.resolve ⟨lookup, stored⟩ name = Environment.resolve ⟨lookup', stored'⟩ name)
    (same : d.take (tape.toList.countP Token.isDraw) = d'.take (tape.toList.countP Token.isDraw)) :
    (mk tape stored).evaluate lookup d = (mk tape stored').evaluate lookup' d' := by
  have alike : ((mk tape stored).run lookup d).state = ((mk tape stored').run lookup' d').state ∧
      ((mk tape stored).run lookup d).error = ((mk tape stored').run lookup' d').error :=
    Progress.run_congr rfl rfl names same
  rw [evaluate, evaluate, Progress.outcome, alike.1, alike.2, Progress.outcome]

theorem Session.evaluate_congr (s : Session) {d d' : Draws}
    (same : d.take s.engine.drawCount = d'.take s.engine.drawCount) : s.evaluate d = s.evaluate d' :=
  Engine.evaluate_congr (fun _ _ => rfl) same

end Keytape
