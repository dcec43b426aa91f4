import Keytape.Proofs.Affixes
import Keytape.Proofs.Numeral
import Keytape.Proofs.Provenance

/-! Descriptions are unambiguous.

A text is read from its end. The last space outside parentheses stands before the right
operand of a binary operation, since right operands hold no space, and a text that has
its spaces inside parentheses only comes from a unary operation or from a leaf. So a
text has one tree, and results with the same description have the same value.
-/

set_option autoImplicit false

namespace Keytape

/-! ## Parentheses -/

def openStep (n : Nat) (c : Char) : Option Nat :=
  if c = '(' then some (n + 1)
  else if c = ')' then if n = 0 then none else some (n - 1)
  else some n

/-- How many parentheses are open after the text, if it closes only open ones. -/
def openAfter (n : Nat) (cs : List Char) : Option Nat :=
  cs.foldlM openStep n

def Balanced (cs : List Char) : Prop :=
  openAfter 0 cs = some 0

theorem openAfter_append (n : Nat) (cs ds : List Char) :
    openAfter n (cs ++ ds) = (openAfter n cs).bind fun k => openAfter k ds :=
  List.foldlM_append

theorem openStep_succ {n k : Nat} {c : Char} (h : openStep n c = some k) :
    openStep (n + 1) c = some (k + 1) := by
  unfold openStep at h ⊢
  grind

theorem openAfter_succ {n k : Nat} {cs : List Char} (h : openAfter n cs = some k) :
    openAfter (n + 1) cs = some (k + 1) := by
  induction cs generalizing n with
  | nil =>
    cases h
    rfl
  | cons c cs ih =>
    obtain ⟨m, first, rest⟩ := Option.bind_eq_some_iff.1 h
    exact Option.bind_eq_some_iff.2 ⟨m + 1, openStep_succ first, ih rest⟩

theorem openAfter_opening (op : UnaryOp) : openAfter 0 op.opening = some 1 := by
  cases op <;> rfl

namespace Balanced

theorem of_no_parentheses {cs : List Char} (h : ∀ c ∈ cs, c ≠ '(' ∧ c ≠ ')') : Balanced cs := by
  induction cs with
  | nil => rfl
  | cons c cs ih =>
    have first : openStep 0 c = some 0 := by
      obtain ⟨opens, closes⟩ := h c List.mem_cons_self
      rw [openStep, if_neg opens, if_neg closes]
    exact Option.bind_eq_some_iff.2 ⟨0, first, ih fun c' h' => h c' (List.mem_cons_of_mem c h')⟩

theorem append {cs ds : List Char} (first : Balanced cs) (last : Balanced ds) :
    Balanced (cs ++ ds) := by
  rw [Balanced, openAfter_append, first]
  exact last

theorem unary {cs : List Char} (h : Balanced cs) (op : UnaryOp) :
    Balanced (op.opening ++ (cs ++ op.closing)) := by
  have closed : openAfter 1 op.closing = some 0 := by cases op <;> rfl
  rw [Balanced, openAfter_append, openAfter_opening, Option.bind_some, openAfter_append,
    openAfter_succ h]
  exact closed

theorem left {cs : List Char} (h : Balanced cs) (op : BinaryOp) :
    Balanced (op.opening ++ (cs ++ (op.closing ++ [' ', op.sign]))) := by
  have signed : openAfter 0 [' ', op.sign] = some 0 := by cases op <;> rfl
  cases op with
  | power =>
    rw [Balanced, openAfter_append]
    change openAfter 1 _ = some 0
    rw [openAfter_append, openAfter_succ h]
    rfl
  | times => exact h.append signed
  | divide => exact h.append signed
  | minus => exact h.append signed
  | plus => exact h.append signed

end Balanced

/-- A unary operation has its operand's spaces inside parentheses. -/
theorem space_enclosed {op : UnaryOp} {cs before after : List Char} (h : Balanced cs)
    (shape : op.opening ++ (cs ++ op.closing) = before ++ ' ' :: after) : ¬ Balanced before := by
  have opens : ' ' ∉ op.opening := by cases op <;> decide
  have closes : ' ' ∉ op.closing := by cases op <;> decide
  rw [Balanced]
  -- The space is in the opening text, in the operand or in the closing text.
  rcases List.append_eq_append_iff.1 shape with ⟨inner, rfl, rest⟩ | ⟨space, opening, rest⟩
  · rcases List.append_eq_append_iff.1 rest with ⟨space, rfl, tail⟩ | ⟨later, rfl, _⟩
    · exact absurd (tail ▸ List.mem_append_right space List.mem_cons_self) closes
    · rw [Balanced, openAfter_append] at h
      obtain ⟨k, innermost, _⟩ := Option.bind_eq_some_iff.1 h
      rw [openAfter_append, openAfter_opening, Option.bind_some, openAfter_succ innermost]
      simp
  · cases space with
    | nil =>
      rw [List.append_nil] at opening
      rw [← opening, openAfter_opening]
      simp
    | cons c space =>
      obtain rfl := (List.cons.inj rest).1
      exact absurd (opening ▸ List.mem_append_right before List.mem_cons_self) opens

/-- Two texts with a space in front of their last word have the same last word. -/
theorem split_last {before before' last last' : List Char} (alone : ' ' ∉ last)
    (alone' : ' ' ∉ last') (same : before ++ ' ' :: last = before' ++ ' ' :: last') :
    before = before' ∧ last = last' := by
  rcases List.append_eq_append_iff.1 same with ⟨space, rfl, rest⟩ | ⟨space, rfl, rest⟩
  · cases space with
    | nil => simpa using rest
    | cons c space =>
      have inside := (List.cons.inj rest).2
      exact absurd (inside ▸ List.mem_append_right space List.mem_cons_self) alone
  · cases space with
    | nil => simpa [eq_comm] using rest
    | cons c space =>
      have inside := (List.cons.inj rest).2
      exact absurd (inside ▸ List.mem_append_right space List.mem_cons_self) alone'

/-! ## Leaves -/

/-- What names stand for on a tape that refers to no bound name but the memory's. -/
def meaning? (m : Float) (name : String) : Option Float :=
  if name = "0" then some 0.0
  else if name = memoryName then some m
  else if name = Constant.pi.symbol then some Constant.pi.value
  else if name = Constant.e.symbol then some Constant.e.value
  else none

/-- A character that keeps words and groups apart. -/
def IsMark (c : Char) : Prop := c = ' ' ∨ c = '(' ∨ c = ')'

instance (c : Char) : Decidable (IsMark c) :=
  inferInstanceAs (Decidable (_ ∨ _))

theorem name_of_meaning {m x : Float} {name : String} (h : meaning? m name = some x) :
    name ∈ ["0", memoryName, Constant.pi.symbol, Constant.e.symbol] := by
  unfold meaning? at h
  grind

theorem unmarked_name {m x : Float} {name : String} (h : meaning? m name = some x) :
    ∀ c ∈ name.toList, ¬ IsMark c := by
  have unmarked : ∀ name ∈ ["0", memoryName, Constant.pi.symbol, Constant.e.symbol],
      name.toList.all (decide <| ¬ IsMark ·) = true := by decide
  intro c mem
  exact of_decide_eq_true (List.all_eq_true.1 (unmarked name (name_of_meaning h)) c mem)

theorem unmarked_numeral {x : Float} : ∀ c ∈ (Numeral.write x).toList, ¬ IsMark c := by
  intro c h mark
  have plain := Numeral.plain_write h
  rcases mark with rfl | rfl | rfl <;> revert plain <;> decide

theorem write_ne_name {m x y : Float} {name : String} (h : meaning? m name = some y) :
    Numeral.write x ≠ name := by
  have other : ∀ name ∈ ["0", memoryName, Constant.pi.symbol, Constant.e.symbol],
      ∀ z ∈ Numeral.read? name, Numeral.write z ≠ name := by decide
  exact Numeral.write_ne (other name (name_of_meaning h)) x

/-! ## Trees -/

namespace Expr

/-- A leaf whose text gives away its value. -/
def Telling (m : Float) : Expr → Prop
  | .number _ => True
  | .named name x => meaning? m name = some x
  | .unary .. | .binary .. => False

structure Readable (m : Float) (e : Expr) : Prop where
  nested : e.LeftNested
  telling : ∀ l ∈ e.leaves, l.Telling m

variable {m : Float} {e e' : Expr}

theorem Telling.eq_of_render (h : e.Telling m) (h' : e'.Telling m) (same : e.render = e'.render) :
    e = e' := by
  cases e with
  | number x =>
    cases e' with
    | number y => exact congrArg number (Numeral.write_injective same)
    | named name y => exact absurd same (write_ne_name h')
    | unary op e => exact h'.elim
    | binary op l r => exact h'.elim
  | named name x =>
    cases e' with
    | number y => exact absurd same.symm (write_ne_name h)
    | named name' y =>
      obtain rfl : name = name' := same
      rw [Telling] at h h'
      rw [Option.some.inj (h.symm.trans h')]
    | unary op e => exact h'.elim
    | binary op l r => exact h'.elim
  | unary op e => exact h.elim
  | binary op l r => exact h.elim

theorem Telling.unmarked (h : e.Telling m) : ∀ c ∈ e.render.toList, ¬ IsMark c := by
  cases e with
  | number x => exact unmarked_numeral
  | named name x => exact unmarked_name h
  | unary op e => exact h.elim
  | binary op l r => exact h.elim

theorem Telling.balanced (h : e.Telling m) : Balanced e.render.toList :=
  .of_no_parentheses fun c mem =>
    ⟨fun opens => h.unmarked c mem (.inr (.inl opens)),
      fun closes => h.unmarked c mem (.inr (.inr closes))⟩

theorem toList_render_unary (op : UnaryOp) (e : Expr) :
    (unary op e).render.toList = op.opening ++ (e.render.toList ++ op.closing) :=
  op.toList_describe e.render

theorem toList_render_binary (op : BinaryOp) (l r : Expr) :
    (binary op l r).render.toList =
      op.opening ++ (l.render.toList ++ (op.closing ++ [' ', op.sign])) ++ ' ' :: r.render.toList :=
  op.toList_describe l.render r.render

namespace Readable

theorem of_leaf (h : e.Readable m) (leaf : e.IsLeaf) : e.Telling m :=
  h.telling e (leaf.leaves_eq ▸ List.mem_singleton_self e)

theorem arg {op : UnaryOp} (h : (unary op e).Readable m) : e.Readable m :=
  ⟨h.nested, h.telling⟩

theorem left {op : BinaryOp} {l r : Expr} (h : (binary op l r).Readable m) : l.Readable m :=
  ⟨h.nested.1, fun e mem => h.telling e (List.mem_append_left r.leaves mem)⟩

theorem right {op : BinaryOp} {l r : Expr} (h : (binary op l r).Readable m) : r.Readable m :=
  ⟨h.nested.2.leftNested, fun e mem => h.telling e (List.mem_append_right l.leaves mem)⟩

theorem balanced (h : e.Readable m) : Balanced e.render.toList := by
  induction e with
  | number x => exact (h.of_leaf trivial).balanced
  | named name x => exact (h.of_leaf trivial).balanced
  | unary op e ih =>
    rw [toList_render_unary]
    exact (ih h.arg).unary op
  | binary op l r ihl ihr =>
    rw [toList_render_binary]
    have space : Balanced [' '] := rfl
    exact ((ihl h.left).left op).append (space.append (ihr h.right))

theorem no_space (h : e.Readable m) (simple : e.Simple) : ' ' ∉ e.render.toList := by
  induction e with
  | number x => exact fun mem => (h.of_leaf trivial).unmarked ' ' mem (.inl rfl)
  | named name x => exact fun mem => (h.of_leaf trivial).unmarked ' ' mem (.inl rfl)
  | unary op e ih =>
    have opens : ' ' ∉ op.opening := by cases op <;> decide
    have closes : ' ' ∉ op.closing := by cases op <;> decide
    have inside := ih h.arg simple
    rw [toList_render_unary]
    simp [opens, closes, inside]
  | binary op l r => exact simple.elim

theorem leaf_of_render (h : e.Readable m) (h' : e'.Readable m) (leaf : e.IsLeaf)
    (same : e.render = e'.render) : e = e' := by
  have telling := h.of_leaf leaf
  cases e' with
  | number y => exact telling.eq_of_render (h'.of_leaf trivial) same
  | named name y => exact telling.eq_of_render (h'.of_leaf trivial) same
  | unary op arg =>
    have opens : '(' ∈ e.render.toList := by
      have paren : '(' ∈ op.opening := by cases op <;> decide
      rw [same, toList_render_unary]
      exact List.mem_append_left _ paren
    exact absurd (.inr (.inl rfl)) (telling.unmarked '(' opens)
  | binary op l r =>
    have spaced : ' ' ∈ e.render.toList := by
      rw [same, toList_render_binary]
      exact List.mem_append_right _ List.mem_cons_self
    exact absurd (.inl rfl) (telling.unmarked ' ' spaced)

theorem unary_ne_binary {op : UnaryOp} {arg : Expr} {op' : BinaryOp} {l r : Expr}
    (h : (unary op arg).Readable m) (h' : (binary op' l r).Readable m) :
    (unary op arg).render ≠ (binary op' l r).render := by
  intro same
  have shape := congrArg String.toList same
  rw [toList_render_unary, toList_render_binary] at shape
  -- On the right the last space is outside parentheses, on the left no space is.
  exact space_enclosed h.arg.balanced shape (h'.left.balanced.left op')

theorem unary_of_render {op op' : UnaryOp}
    (same : (unary op e).render = (unary op' e').render) : op = op' ∧ e.render = e'.render := by
  have shape := congrArg String.toList same
  rw [toList_render_unary, toList_render_unary] at shape
  obtain rfl := UnaryOp.eq_of_text shape
  refine ⟨rfl, String.toList_inj.1 ?_⟩
  exact List.append_cancel_right (List.append_cancel_left shape)

theorem binary_of_render {op op' : BinaryOp} {l r l' r' : Expr}
    (h : (binary op l r).Readable m) (h' : (binary op' l' r').Readable m)
    (same : (binary op l r).render = (binary op' l' r').render) :
    op = op' ∧ l.render = l'.render ∧ r.render = r'.render := by
  have shape := congrArg String.toList same
  rw [toList_render_binary, toList_render_binary] at shape
  obtain ⟨before, last⟩ :=
    split_last (h.right.no_space h.nested.2) (h'.right.no_space h'.nested.2) shape
  obtain rfl := BinaryOp.eq_of_text before
  refine ⟨rfl, String.toList_inj.1 ?_, String.toList_inj.1 last⟩
  exact List.append_cancel_right (List.append_cancel_left before)

end Readable

/-- A text has one tree. -/
theorem eq_of_render (h : e.Readable m) (h' : e'.Readable m) (same : e.render = e'.render) :
    e = e' := by
  -- The text fixes the outermost operation, and what is left are the texts of the operands.
  induction e generalizing e' with
  | number x => exact h.leaf_of_render h' trivial same
  | named name x => exact h.leaf_of_render h' trivial same
  | unary op e ih =>
    cases e' with
    | number y => exact (h'.leaf_of_render h trivial same.symm).symm
    | named name y => exact (h'.leaf_of_render h trivial same.symm).symm
    | unary op' e' =>
      obtain ⟨rfl, inner⟩ := Readable.unary_of_render same
      rw [ih h.arg h'.arg inner]
    | binary op' l r => exact absurd same (h.unary_ne_binary h')
  | binary op l r ihl ihr =>
    cases e' with
    | number y => exact (h'.leaf_of_render h trivial same.symm).symm
    | named name y => exact (h'.leaf_of_render h trivial same.symm).symm
    | unary op' e' => exact absurd same.symm (h'.unary_ne_binary h)
    | binary op' l' r' =>
      obtain ⟨rfl, left, right⟩ := h.binary_of_render h' same
      rw [ihl h.left h'.left left, ihr h.right h'.right right]

end Expr

/-! ## Tapes -/

def Environment.memory (env : Environment) : Float := (env.lookup memoryName).getD env.stored

def Environment.HidesNothing (env : Environment) (tokens : List Token) : Prop :=
  ∀ name, Token.reference name ∈ tokens → name = memoryName ∨ env.lookup name = none

theorem Environment.telling_resolve {env : Environment} {name : String}
    (h : name = memoryName ∨ env.lookup name = none) :
    (env.resolve name).expr.Telling env.memory := by
  unfold resolve
  split
  · rename_i x bound
    obtain rfl : name = memoryName := h.resolve_right (by simp [bound])
    have value : env.memory = x := by rw [memory, bound, Option.getD_some]
    exact congrArg some value
  · rename_i unbound
    split
    · rename_i isMemory
      rw [isMemory] at unbound
      have value : env.memory = env.stored := by rw [memory, unbound, Option.getD_none]
      exact congrArg some value
    · rfl

theorem Token.telling_of_action {t : Token} {env : Environment} {draws : Draws} {a : Operand}
    (known : env.HidesNothing [t]) (h : t.action env draws = .enter a) :
    a.expr.Telling env.memory := by
  cases t with
  | literal x =>
    cases h
    trivial
  | reference name =>
    cases h
    exact env.telling_resolve (known name List.mem_cons_self)
  | symbol text =>
    simp only [action] at h
    split at h
    · rename_i c _
      cases h
      cases c <;> rfl
    · cases h
      trivial
    · cases h
    · cases h
    · cases h
    · cases h

theorem telling_operands {env : Environment} {tokens : List Token}
    (known : env.HidesNothing tokens) (draws : Draws) :
    ∀ l ∈ operands env draws tokens, l.Telling env.memory := by
  induction tokens generalizing draws with
  | nil => simp [operands]
  | cons t rest ih =>
    intro l mem
    rcases List.mem_append.1 mem with first | later
    · cases shape : t.action env draws with
      | enter a =>
        obtain rfl : l = a.expr := by simpa [shape, Action.leaf?] using first
        refine t.telling_of_action (fun name h => known name ?_) shape
        exact List.mem_singleton.1 h ▸ List.mem_cons_self
      | transform op => simp [shape, Action.leaf?] at first
      | defer op => simp [shape, Action.leaf?] at first
      | complete => simp [shape, Action.leaf?] at first
      | pass => simp [shape, Action.leaf?] at first
    · exact ih (fun name h => known name (List.mem_cons_of_mem t h)) _ l later

theorem Engine.readable_of_completed {e : Engine} {lookup : String → Option Float} {draws : Draws}
    {v : Float} (known : Environment.HidesNothing ⟨lookup, e.stored⟩ e.tape.toList)
    (completed : (e.evaluate lookup draws).isPending = false)
    (value : (e.evaluate lookup draws).value = some v) :
    ∃ tree : Expr, tree.Readable (Environment.memory ⟨lookup, e.stored⟩) ∧ v = tree.eval ∧
      (e.evaluate lookup draws).description = tree.render := by
  obtain ⟨tree, order, nested, evaluates, text⟩ :=
    (e.grownFrom_run lookup draws).tree_of_completed completed value
  have telling := telling_operands known draws
  exact ⟨tree, ⟨nested, fun l mem => telling l (order.subset mem)⟩, evaluates, text⟩

/-- The description of a completed result tells its value: no matter what the tapes and
the draws are, results with one description have one value as soon as the memory name
stands for the same value on both sides and every other name is unbound. -/
theorem value_eq_of_description_eq {e e' : Engine} {lookup lookup' : String → Option Float}
    {draws draws' : Draws} {v v' : Float}
    (memory : Environment.memory ⟨lookup, e.stored⟩ = Environment.memory ⟨lookup', e'.stored⟩)
    (known : Environment.HidesNothing ⟨lookup, e.stored⟩ e.tape.toList)
    (known' : Environment.HidesNothing ⟨lookup', e'.stored⟩ e'.tape.toList)
    (completed : (e.evaluate lookup draws).isPending = false)
    (completed' : (e'.evaluate lookup' draws').isPending = false)
    (value : (e.evaluate lookup draws).value = some v)
    (value' : (e'.evaluate lookup' draws').value = some v')
    (same : (e.evaluate lookup draws).description = (e'.evaluate lookup' draws').description) :
    v = v' := by
  -- Both descriptions are texts of readable trees, and a text has one tree.
  obtain ⟨tree, readable, rfl, text⟩ := Engine.readable_of_completed known completed value
  obtain ⟨tree', readable', rfl, text'⟩ := Engine.readable_of_completed known' completed' value'
  rw [text, text'] at same
  rw [← memory] at readable'
  rw [Expr.eq_of_render readable readable' same]

/-- The root of the memory slot, from a slot that is bound and from one that is not. -/
theorem value_eq_root_of_memory :
    let draws : Draws := ⟨fun _ => 0.5, 0⟩
    let slot : String → Option Float := fun name => if name = memoryName then some 2.0 else none
    let overwritten : Engine := ⟨.ofList [.literal 7.0, .reference "M", .symbol "√"], 2.0⟩
    let terminated : Engine := ⟨.ofList [.reference "M", .symbol "√", .symbol "="], 0.0⟩
    (overwritten.evaluate unbound draws).description = "√(M)" ∧
      (terminated.evaluate slot draws).description = "√(M)" ∧
      (overwritten.evaluate unbound draws).value = (terminated.evaluate slot draws).value := by
  intro draws slot overwritten terminated
  have memory : Environment.memory ⟨unbound, overwritten.stored⟩ =
      Environment.memory ⟨slot, terminated.stored⟩ := rfl
  have known : Environment.HidesNothing ⟨unbound, overwritten.stored⟩ overwritten.tape.toList :=
    fun _ _ => .inr rfl
  have known' : Environment.HidesNothing ⟨slot, terminated.stored⟩ terminated.tape.toList := by
    intro name mem
    by_cases isMemory : name = memoryName
    · exact .inl isMemory
    · exact .inr (if_neg isMemory)
  have value : (overwritten.evaluate unbound draws).value = some (Float.sqrt 2.0) := rfl
  have value' : (terminated.evaluate slot draws).value = some (Float.sqrt 2.0) := rfl
  have same := value_eq_of_description_eq memory known known' rfl rfl value value' rfl
  exact ⟨rfl, rfl, by rw [value, value', same]⟩

end Keytape
