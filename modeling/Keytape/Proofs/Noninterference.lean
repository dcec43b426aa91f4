import Keytape.Proofs.Action
import Keytape.Proofs.Affixes
import Keytape.Proofs.Locality
import Keytape.Proofs.Reachable

/-! What a name can change.

Two evaluations of a tape that give one name different values build trees of one shape,
which differ in leaves written by that name only. Texts do not depend on values, so the
descriptions agree, and a description that does not show the name belongs to trees that
do not hold it: then the values agree as well.
-/

set_option autoImplicit false

namespace Keytape

/-- `env'` is `env` except that `n` stands for `x`: either it is bound to `x`, or it is the
memory name, is not bound and falls back to `x`. -/
inductive Environment.Gives (env : Environment) (n : String) (x : Float) (env' : Environment) :
    Prop where
  | bound : (∀ name, env'.lookup name = if name = n then some x else env.lookup name) →
      env'.stored = env.stored → Gives env n x env'
  | stored : n = memoryName → env.lookup n = none → env'.lookup = env.lookup →
      env'.stored = x → Gives env n x env'

/-- The two runs draw the same values, or draw nothing. -/
def Draws.AgreeOn (draws draws' : Draws) (tokens : List Token) : Prop :=
  draws = draws' ∨ ∀ t ∈ tokens, t.isDraw = false

theorem Draws.AgreeOn.take_eq {draws draws' : Draws} {tokens : List Token}
    (h : draws.AgreeOn draws' tokens) :
    draws.take (tokens.countP Token.isDraw) = draws'.take (tokens.countP Token.isDraw) := by
  rcases h with rfl | drawless
  · rfl
  · have none : tokens.countP Token.isDraw = 0 :=
      List.countP_eq_zero.2 fun t mem => by simp [drawless t mem]
    rw [none, take_zero, take_zero]

/-! ## Trees -/

/-- The trees are alike but for the values of leaves written as `n`. -/
inductive Expr.SameBut (n : String) : Expr → Expr → Prop where
  | number (x : Float) : SameBut n (.number x) (.number x)
  | named (name : String) (x : Float) : SameBut n (.named name x) (.named name x)
  | given (x y : Float) : SameBut n (.named n x) (.named n y)
  | unary (op : UnaryOp) {e e' : Expr} : SameBut n e e' → SameBut n (.unary op e) (.unary op e')
  | binary (op : BinaryOp) {l l' r r' : Expr} : SameBut n l l' → SameBut n r r' →
      SameBut n (.binary op l r) (.binary op l' r')

def Shows (text n : String) : Prop := n.toList <:+: text.toList

theorem Shows.unary {x n : String} (h : Shows x n) (op : UnaryOp) : Shows (op.describe x) n := by
  refine h.trans ⟨op.opening, op.closing, ?_⟩
  rw [op.toList_describe, List.append_assoc]

theorem Shows.left {x n : String} (h : Shows x n) (op : BinaryOp) (y : String) :
    Shows (op.describe x y) n := by
  refine h.trans ⟨op.opening, op.closing ++ [' ', op.sign] ++ ' ' :: y.toList, ?_⟩
  rw [op.toList_describe]
  simp only [List.append_assoc]

theorem Shows.right {y n : String} (h : Shows y n) (op : BinaryOp) (x : String) :
    Shows (op.describe x y) n := by
  refine h.trans ⟨op.opening ++ (x.toList ++ (op.closing ++ [' ', op.sign])) ++ [' '], [], ?_⟩
  rw [op.toList_describe]
  simp only [List.append_assoc, List.append_nil, List.singleton_append]

namespace Expr.SameBut

variable {n : String} {e e' : Expr}

theorem refl (n : String) (e : Expr) : e.SameBut n e := by
  induction e with
  | number x => exact .number x
  | named name x => exact .named name x
  | unary op e ih => exact .unary op ih
  | binary op l r ihl ihr => exact .binary op ihl ihr

theorem render_eq (h : e.SameBut n e') : e.render = e'.render := by
  induction h with
  | number x => rfl
  | named name x => rfl
  | given x y => rfl
  | unary op _ ih => rw [render, ih, render]
  | binary op _ _ ihl ihr => rw [render, ihl, ihr, render]

theorem eval_eq (h : e.SameBut n e') (unseen : ¬ Shows e.render n) : e.eval = e'.eval := by
  -- A part of an expression is shown in one piece, so what hides `n` hides it in the parts.
  induction h with
  | number x => rfl
  | named name x => rfl
  | given x y => exact absurd (List.infix_refl n.toList) unseen
  | unary op _ ih => rw [eval, ih fun seen => unseen (seen.unary op), eval]
  | binary op _ _ ihl ihr =>
    have left := ihl fun seen => unseen (seen.left op _)
    have right := ihr fun seen => unseen (seen.right op _)
    rw [eval, left, right, eval]

end Expr.SameBut

/-! ## Runs -/

inductive State.SameBut (n : String) : State → State → Prop where
  | empty : SameBut n .empty .empty
  | holding {a a' : Operand} : a.expr.SameBut n a'.expr → SameBut n (.holding a) (.holding a')
  | lacking {left left' : Operand} (op : BinaryOp) : left.expr.SameBut n left'.expr →
      SameBut n (.awaiting left op none) (.awaiting left' op none)
  | ready {left left' right right' : Operand} (op : BinaryOp) : left.expr.SameBut n left'.expr →
      right.expr.SameBut n right'.expr →
      SameBut n (.awaiting left op (some right)) (.awaiting left' op (some right'))

inductive Action.SameBut (n : String) : Action → Action → Prop where
  | enter {a a' : Operand} : a.expr.SameBut n a'.expr → SameBut n (.enter a) (.enter a')
  | same (action : Action) : SameBut n action action

namespace State.SameBut

variable {n : String} {s s' : State}

theorem put (h : s.SameBut n s') {a a' : Operand} (entered : a.expr.SameBut n a'.expr) :
    (s.put a).SameBut n (s'.put a') := by
  cases h with
  | empty => exact .holding entered
  | holding _ => exact .holding entered
  | lacking op left => exact .ready op left entered
  | ready op left _ => exact .ready op left entered

theorem transform (h : s.SameBut n s') (op : UnaryOp) :
    (s.act (.transform op)).SameBut n (s'.act (.transform op)) := by
  cases h with
  | empty => exact .empty
  | holding arg => exact .holding (.unary op arg)
  | lacking op' left => exact .lacking op' left
  | ready op' left right => exact .ready op' left (.unary op right)

theorem resolve (h : s.SameBut n s') : s.resolve.SameBut n s'.resolve := by
  cases h with
  | empty => exact .empty
  | holding arg => exact .holding arg
  | lacking op left => exact .lacking op left
  | ready op left right => exact .holding (.binary op left right)

theorem defer (h : s.SameBut n s') (op : BinaryOp) : (s.defer op).SameBut n (s'.defer op) := by
  cases h with
  | empty => exact .empty
  | holding arg => exact .lacking op arg
  | lacking op' left => exact .lacking op' left
  | ready op' left right => exact .ready op' left right

theorem act (h : s.SameBut n s') {action action' : Action} (like : action.SameBut n action') :
    (s.act action).SameBut n (s'.act action') := by
  cases like with
  | enter entered => exact h.put entered
  | same =>
    cases action with
    | enter a => exact h.put (.refl n a.expr)
    | transform op => exact h.transform op
    | defer op => exact h.resolve.defer op
    | complete => exact h.resolve
    | pass => exact h

theorem isPending_eq (h : s.SameBut n s') : s.isPending = s'.isPending := by
  cases h <;> rfl

theorem description_eq (h : s.SameBut n s') : s.description = s'.description := by
  cases h with
  | empty => rfl
  | holding arg => exact arg.render_eq
  | lacking op left => exact congrArg (op.describe · "") left.render_eq
  | @ready left left' right right' op before after =>
    have first : left.text = left'.text := before.render_eq
    have second : right.text = right'.text := after.render_eq
    change op.describe left.text right.text = op.describe left'.text right'.text
    rw [first, second]

theorem value_eq (h : s.SameBut n s') (unseen : ¬ Shows s.description n) :
    s.value? = s'.value? := by
  cases h with
  | empty => rfl
  | @holding a a' arg =>
    have same := arg.eval_eq unseen
    rw [← a.value_eq, ← a'.value_eq] at same
    exact congrArg some same
  | lacking op left => rfl
  | @ready left _ right right' op _ arg =>
    have same := arg.eval_eq fun seen => unseen (seen.right op left.text)
    rw [← right.value_eq, ← right'.value_eq] at same
    exact congrArg some same

end State.SameBut

section
variable {n : String} {u v : Float} {env env₁ env₂ : Environment}

theorem Environment.Gives.resolve_given (h : env.Gives n u env₁) :
    (env₁.resolve n).expr = .named n u := by
  cases h with
  | bound lookup _ => rw [resolve, lookup, if_pos rfl]; rfl
  | stored isMemory free lookup value =>
    rw [resolve, lookup, free]
    dsimp only
    rw [if_pos isMemory, isMemory, value]
    rfl

theorem Environment.Gives.resolve_other (h : env.Gives n u env₁) {name : String}
    (other : name ≠ n) : env₁.resolve name = env.resolve name := by
  cases h with
  | bound lookup stored => rw [resolve, resolve, lookup, if_neg other, stored]
  | stored isMemory _ lookup _ =>
    rw [isMemory] at other
    simp only [resolve, lookup, if_neg other]

theorem Environment.Gives.sameBut_resolve (h₁ : env.Gives n u env₁) (h₂ : env.Gives n v env₂)
    (name : String) : (env₁.resolve name).expr.SameBut n (env₂.resolve name).expr := by
  by_cases given : name = n
  · rw [given, h₁.resolve_given, h₂.resolve_given]
    exact .given u v
  · rw [h₁.resolve_other given, h₂.resolve_other given]
    exact .refl n _

theorem Token.sameBut_action (h₁ : env.Gives n u env₁) (h₂ : env.Gives n v env₂) (t : Token)
    {draws draws' : Draws} (agree : draws.AgreeOn draws' [t]) :
    (t.action env₁ draws).SameBut n (t.action env₂ draws') := by
  cases t with
  | literal x => exact .same _
  | reference name => exact .enter (h₁.sameBut_resolve h₂ name)
  | symbol text =>
    rcases agree with rfl | drawless
    · exact .same _
    · have drawn := drawless (.symbol text) List.mem_cons_self
      simp only [isDraw, beq_eq_false_iff_ne] at drawn
      simp only [action]
      split
      · exact .same _
      · rename_i random
        exact absurd random drawn
      · exact .same _
      · exact .same _
      · exact .same _
      · exact .same _

theorem Draws.AgreeOn.head {t : Token} {rest : List Token} {draws draws' : Draws}
    (h : draws.AgreeOn draws' (t :: rest)) : draws.AgreeOn draws' [t] :=
  h.imp_right fun drawless t' mem =>
    drawless t' (List.mem_singleton.1 mem ▸ List.mem_cons_self)

theorem Draws.AgreeOn.tail {t : Token} {rest : List Token} {draws draws' : Draws}
    (h : draws.AgreeOn draws' (t :: rest)) (k : Nat) :
    (draws.skip k).AgreeOn (draws'.skip k) rest :=
  h.imp (congrArg (Draws.skip · k)) fun drawless t' mem => drawless t' (List.mem_cons_of_mem t mem)

theorem Progress.sameBut_run (h₁ : env.Gives n u env₁) (h₂ : env.Gives n v env₂)
    {tokens : List Token} {p p' : Progress} (like : p.state.SameBut n p'.state)
    (agree : p.draws.AgreeOn p'.draws tokens) :
    (p.run env₁ tokens).state.SameBut n (p'.run env₂ tokens).state := by
  induction tokens generalizing p p' with
  | nil => exact like
  | cons t rest ih =>
    rw [run_cons, run_cons]
    -- Both runs read `t`, so the draws that are left still agree on the rest.
    refine ih ?_ ?_
    · rw [state_step, state_step]
      exact like.act (t.sameBut_action h₁ h₂ agree.head)
    · rw [draws_step, draws_step]
      exact agree.tail t.drawCount

theorem Engine.sameBut_run (h₁ : env.Gives n u env₁) (h₂ : env.Gives n v env₂) (tape : Tape)
    {draws draws' : Draws} (agree : draws.AgreeOn draws' tape.toList) :
    ((Engine.mk tape env₁.stored).run env₁.lookup draws).state.SameBut n
      ((Engine.mk tape env₂.stored).run env₂.lookup draws').state := by
  have start : (Progress.start draws).state.SameBut n (Progress.start draws').state := .empty
  exact Progress.sameBut_run h₁ h₂ start agree

end

/-! ## Sessions -/

theorem mentionsMemory_of_shows {o : Outcome} (h : Shows o.description memoryName) :
    o.mentionsMemory = true := by
  have shown : 'M' ∈ o.description.toList := h.subset (by decide)
  exact List.contains_iff_mem.2 shown

namespace Session

variable {s : Session}

/-- A slot that is not set stands for the value that the engine falls back to. -/
theorem gives_of_unset (unset : s.memory? = none) :
    Environment.Gives ⟨s.memory.lookup, s.engine.stored⟩ memoryName s.engine.stored
      ⟨s.memory.lookup, s.engine.stored⟩ :=
  .stored rfl unset rfl rfl

theorem gives_of_store (s : Session) (x : Float) :
    Environment.Gives ⟨s.memory.lookup, s.engine.stored⟩ memoryName x
      ⟨(s.store x).memory.lookup, (s.store x).engine.stored⟩ :=
  .bound (s.memory.lookup_insert memoryName x) rfl

/-- While the slot is not set, no number is shown whose description shows the slot. -/
theorem unseen_of_display {draws : Draws} {text : String} (reachable : s.Reachable)
    (unset : s.memory? = none) (sound : (s.display draws).error = none)
    (shown : (s.display draws).main = some text) :
    ¬ Shows (s.evaluate draws).description memoryName := by
  intro seen
  have unmarked : s.memorySet = false := by rw [reachable.noted, unset]; rfl
  change (s.evaluate draws).error = none at sound
  change Display.mainOf s.memorySet (s.evaluate draws) = some text at shown
  rw [Display.mainOf, sound, unmarked, mentionsMemory_of_shows seen] at shown
  cases value : (s.evaluate draws).value <;> simp [value] at shown

end Session

/-- Giving a name another value changes neither the description nor whether an operation
is pending, and it changes the value only if the description shows the name. So a display
that shows a number while the memory slot is not set would show it whatever the slot held. -/
theorem evaluate_ignores_unshown_name :
    (∀ (tape : Tape) (n : String) (u v : Float) (env env₁ env₂ : Environment)
        (draws draws' : Draws),
      env.Gives n u env₁ → env.Gives n v env₂ → draws.AgreeOn draws' tape.toList →
      let o₁ := (Engine.mk tape env₁.stored).evaluate env₁.lookup draws
      let o₂ := (Engine.mk tape env₂.stored).evaluate env₂.lookup draws'
      o₁.description = o₂.description ∧ o₁.isPending = o₂.isPending ∧
        (¬ Shows o₁.description n → o₁.value = o₂.value)) ∧
    (∀ (s : Session) (draws draws' : Draws) (text : String), s.Reachable → s.memory? = none →
      (s.display draws).error = none → (s.display draws).main = some text →
      draws.AgreeOn draws' s.engine.tape.toList →
      ∀ x, ((s.store x).evaluate draws').value = (s.evaluate draws).value) := by
  constructor
  · intro tape n u v env env₁ env₂ draws draws' given₁ given₂ agree o₁ o₂
    have like := Engine.sameBut_run given₁ given₂ tape agree
    exact ⟨like.description_eq, like.isPending_eq, like.value_eq⟩
  · intro s draws draws' text reachable unset sound shown agree x
    have unseen := Session.unseen_of_display reachable unset sound shown
    have like := Engine.sameBut_run (Session.gives_of_unset unset) (s.gives_of_store x)
      s.engine.tape agree
    exact (like.value_eq unseen).symm

theorem evaluate_ignores_overwritten_memory :
    let draws : Draws := ⟨fun _ => 0.5, 0⟩
    let s := (Session.new.append (.reference "M")).append (.symbol "π")
    (s.display draws).main = some (Numeral.write Constant.pi.value) ∧
      ((s.store 5.0).evaluate draws).value = some Constant.pi.value := by
  intro draws s
  have reachable : s.Reachable := .append _ (.append _ .new)
  have unmentioned : (s.evaluate draws).mentionsMemory = false := by decide
  have shown : (s.display draws).main = some (Numeral.write Constant.pi.value) := by
    change Display.mainOf false (s.evaluate draws) = _
    rw [Display.mainOf, unmentioned]
    rfl
  have same := evaluate_ignores_unshown_name.2 s draws draws _ reachable rfl rfl shown (.inl rfl)
  exact ⟨shown, same 5.0⟩

end Keytape
