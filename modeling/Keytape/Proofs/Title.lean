import Keytape.Proofs.Graphing
import Keytape.Proofs.Unambiguous

/-! The title of a curve.

A title is the description with no name bound, so a bound name other than the memory's stands
as `0` in it. The main statement says that the title is the session's description just when
every such name that is left in the formula reads `0` itself. Two texts cannot agree by
accident: a title has a word wherever an operand is due, so none of the names that it leaves
out is empty, and then none is longer than the `0` in its place.
-/

set_option autoImplicit false

namespace Keytape

/-! ## Missing words -/

/-- Whether a word is due after `c`; `none` if one is due before `c` and missing. Words are due
at the start, after a space and after an opening parenthesis. -/
def wordStep (due : Bool) (c : Char) : Option Bool :=
  if c = '(' then some true
  else if c = ' ' ∨ c = ')' then if due then none else some (c == ' ')
  else some false

def wordAfter (due : Bool) (cs : List Char) : Option Bool := cs.foldlM wordStep due

/-- No word is missing. -/
def Filled (cs : List Char) : Prop := wordAfter true cs = some false

instance (cs : List Char) : Decidable (Filled cs) := inferInstanceAs (Decidable (_ = _))

theorem wordAfter_append (due : Bool) (cs ds : List Char) :
    wordAfter due (cs ++ ds) = (wordAfter due cs).bind fun later => wordAfter later ds :=
  List.foldlM_append

theorem wordAfter_unmarked {due : Bool} {cs : List Char} (unmarked : ∀ c ∈ cs, ¬ IsMark c)
    (written : cs ≠ []) : wordAfter due cs = some false := by
  induction cs generalizing due with
  | nil => exact absurd rfl written
  | cons c rest ih =>
    have plain : wordStep due c = some false := by
      have mark := unmarked c List.mem_cons_self
      unfold IsMark at mark
      unfold wordStep
      grind
    have first : wordAfter due (c :: rest) = wordAfter false rest := by
      rw [wordAfter, List.foldlM_cons, plain]
      rfl
    rw [first]
    cases rest with
    | nil => rfl
    | cons c' rest =>
      exact ih (fun d mem => unmarked d (List.mem_cons_of_mem c mem)) (List.cons_ne_nil c' rest)

theorem Filled.ne_nil {cs : List Char} (h : Filled cs) : cs ≠ [] := by
  rintro rfl
  cases h

theorem filled_unary (op : UnaryOp) (cs : List Char) :
    Filled (op.opening ++ (cs ++ op.closing)) ↔ Filled cs := by
  have opens : wordAfter true op.opening = some true := by cases op <;> rfl
  have closes : wordAfter false op.closing = some false := by cases op <;> rfl
  have missing : wordAfter true op.closing = none := by cases op <;> rfl
  rw [Filled, wordAfter_append, opens, Option.bind_some, wordAfter_append, Filled]
  rcases wordAfter true cs with _ | _ | _ <;> simp [closes, missing]

theorem filled_binary (op : BinaryOp) (left right : List Char) :
    Filled (op.opening ++ (left ++ (op.closing ++ [' ', op.sign])) ++ ' ' :: right) ↔
      Filled left ∧ Filled right := by
  have opens : wordAfter true op.opening = some true := by cases op <;> rfl
  have closes : wordAfter false (op.closing ++ [' ', op.sign]) = some false := by
    cases op <;> rfl
  have missing : wordAfter true (op.closing ++ [' ', op.sign]) = none := by cases op <;> rfl
  have last : wordAfter false (' ' :: right) = wordAfter true right := rfl
  rw [Filled, wordAfter_append, wordAfter_append, opens, Option.bind_some, wordAfter_append,
    Filled, Filled]
  rcases wordAfter true left with _ | _ | _ <;> simp [closes, missing, last]

namespace Formula

theorem filled_write (f : Formula) (text : Entry → String) :
    Filled (f.write text).toList ↔ ∀ e ∈ f.entries, Filled (text e).toList := by
  induction f with
  | entry e => simp [write, entries]
  | unary op f ih => rw [write, op.toList_describe, filled_unary, ih, entries]
  | binary op l r ihl ihr =>
    rw [write, op.toList_describe, filled_binary, ihl, ihr, entries, List.forall_mem_append]

/-! ## Texts of one length -/

theorem length_write_le {f : Formula} {text text' : Entry → String}
    (le : ∀ e ∈ f.entries, (text' e).toList.length ≤ (text e).toList.length) :
    (f.write text').toList.length ≤ (f.write text).toList.length := by
  induction f with
  | entry e => exact le e (List.mem_singleton_self e)
  | unary op f ih =>
    have inner := ih le
    simp only [write, op.toList_describe, List.length_append]
    omega
  | binary op l r ihl ihr =>
    obtain ⟨leftLe, rightLe⟩ := List.forall_mem_append.1 le
    have left := ihl leftLe
    have right := ihr rightLe
    simp only [write, op.toList_describe, List.length_append, List.length_cons]
    omega

/-- If no operand is written shorter, the same text writes each operand the same. -/
theorem text_eq_of_write_eq {f : Formula} {text text' : Entry → String}
    (le : ∀ e ∈ f.entries, (text' e).toList.length ≤ (text e).toList.length)
    (same : f.write text = f.write text') : ∀ e ∈ f.entries, text e = text' e := by
  -- Lengths add up, so operands of a binary operation are written at the same places.
  induction f with
  | entry e =>
    intro e' mem
    rwa [List.mem_singleton.1 mem]
  | unary op f ih =>
    refine ih le (String.toList_inj.1 ?_)
    have shape := congrArg String.toList same
    rw [write, write, op.toList_describe, op.toList_describe] at shape
    exact List.append_cancel_right (List.append_cancel_left shape)
  | binary op l r ihl ihr =>
    obtain ⟨leftLe, rightLe⟩ := List.forall_mem_append.1 le
    have shape := congrArg String.toList same
    rw [write, write, op.toList_describe, op.toList_describe] at shape
    simp only [List.append_assoc] at shape
    have total := congrArg List.length (List.append_cancel_left shape)
    have first := length_write_le leftLe
    have last := length_write_le rightLe
    simp only [List.length_append, List.length_cons] at total
    obtain ⟨left, rest⟩ := List.append_inj (List.append_cancel_left shape) (by omega)
    have right : r.write text = r.write text' := by
      simpa [String.toList_inj] using rest
    exact List.forall_mem_append.2
      ⟨ihl leftLe (String.toList_inj.1 left), ihr rightLe right⟩

/-- A text with no word missing is not written another way by operands that are single
characters where they differ. -/
theorem text_eq_of_write_eq_filled {f : Formula} {text text' : Entry → String}
    (filled : ∀ e ∈ f.entries, Filled (text' e).toList)
    (short : ∀ e ∈ f.entries, text e ≠ text' e → (text' e).toList.length = 1)
    (same : f.write text = f.write text') : ∀ e ∈ f.entries, text e = text' e := by
  have alsoFilled : ∀ e ∈ f.entries, Filled (text e).toList := by
    rw [← filled_write, same, filled_write]
    exact filled
  refine text_eq_of_write_eq (fun e mem => ?_) same
  by_cases alike : text e = text' e
  · rw [alike]
  · rw [short e mem alike]
    exact List.length_pos_iff.2 (alsoFilled e mem).ne_nil

end Formula

/-! ## Entries with no name bound -/

namespace Entry

theorem filled_write (x : Float) : Filled (Numeral.write x).toList := by
  have written := mt String.toList_eq_nil_iff.1 (Numeral.write_ne_empty x)
  exact wordAfter_unmarked (fun c mem => unmarked_numeral c mem) written

theorem text_reference (env : Environment) (draws : Draws) (name : String) :
    text env draws (.reference name) =
      if (env.lookup name).isSome = true then name
      else if name = memoryName then memoryName else "0" := by
  rw [text, operand, Environment.resolve]
  cases env.lookup name with
  | some x => rfl
  | none =>
    dsimp only
    split <;> rfl

theorem text_reference_unbound (stored : Float) (draws : Draws) (name : String) :
    text ⟨unbound, stored⟩ draws (.reference name) =
      if name = memoryName then memoryName else "0" :=
  (text_reference _ draws name).trans (if_neg Bool.false_ne_true)

theorem filled_text_unbound (stored : Float) (draws : Draws) (e : Entry) :
    Filled (e.text ⟨unbound, stored⟩ draws).toList := by
  cases e with
  | literal x => exact filled_write x
  | reference name =>
    rw [text_reference_unbound]
    split <;> decide
  | constant c =>
    have filled : Filled c.symbol.toList := by cases c <;> decide
    exact filled
  | draw earlier => exact filled_write _

section
variable {lookup : String → Option Float} {stored : Float} {draws draws' : Draws}
  {tokens : List Token} {e : Entry}

/-- Only bound names are written otherwise, and `0` takes the place of all but the memory's. -/
theorem text_eq_unbound_iff (agree : draws.AgreeOn draws' tokens) (entered : e.token ∈ tokens) :
    e.text ⟨lookup, stored⟩ draws' = e.text ⟨unbound, stored⟩ draws ↔
      ∀ name, e = .reference name → (lookup name).isSome = true →
        name = memoryName ∨ name = "0" := by
  cases e with
  | literal x => exact iff_of_true rfl nofun
  | reference name =>
    rw [text_reference, text_reference_unbound]
    simp only [Entry.reference.injEq, forall_eq']
    cases (lookup name).isSome <;> by_cases isMemory : name = memoryName <;> simp [isMemory]
  | constant c => exact iff_of_true rfl nofun
  | draw earlier =>
    refine iff_of_true ?_ nofun
    rcases agree with rfl | drawless
    · rfl
    · cases drawless _ entered

theorem length_text_unbound (agree : draws.AgreeOn draws' tokens) (entered : e.token ∈ tokens)
    (differ : e.text ⟨lookup, stored⟩ draws' ≠ e.text ⟨unbound, stored⟩ draws) :
    (e.text ⟨unbound, stored⟩ draws).toList.length = 1 := by
  rw [ne_eq, text_eq_unbound_iff agree entered, not_forall] at differ
  obtain ⟨name, differ⟩ := differ
  obtain ⟨rfl, _⟩ := Classical.not_imp.1 differ
  rw [text_reference_unbound]
  split <;> rfl

end

end Entry

/-! ## Titles -/

theorem UnaryOp.describe_ne_empty (op : UnaryOp) (x : String) : op.describe x ≠ "" := by
  intro empty
  have shape := congrArg String.toList empty
  rw [op.toList_describe] at shape
  cases op <;> cases shape

theorem BinaryOp.describe_ne_empty (op : BinaryOp) (x y : String) : op.describe x y ≠ "" := by
  intro empty
  have shape := congrArg String.toList empty
  simp [op.toList_describe] at shape

namespace Curve

def titleOf (text : String) : String := if text.isEmpty then "Graph" else text

theorem titleOf_of_ne_empty {text : String} (shown : text ≠ "") : titleOf text = text := by
  rw [titleOf, if_neg]
  simpa using shown

end Curve

namespace Outline

open Curve (titleOf titleOf_of_ne_empty)

variable {o : Outline} {text text' : Entry → String}

/-- An expression with no word missing reads as a title under no other title, if its operands
are single characters where the texts differ. -/
theorem titleOf_write_eq_iff (completed : o.isPending = false)
    (filled : ∀ e ∈ o.entries, Filled (text' e).toList)
    (short : ∀ e ∈ o.entries, text e ≠ text' e → (text' e).toList.length = 1) :
    titleOf (o.write text') = titleOf (o.write text) ↔ ∀ e ∈ o.entries, text e = text' e := by
  cases o with
  | empty => exact iff_of_true rfl nofun
  | holding f =>
    refine ⟨fun same => ?_, fun same => congrArg titleOf (Formula.write_congr same).symm⟩
    have written : f.write text' ≠ "" := by
      intro empty
      exact ((f.filled_write text').2 filled).ne_nil (congrArg String.toList empty)
    by_cases blank : f.write text = ""
    · -- Only a lone operand can be written as nothing. Its other text is one character then,
      -- and the title of an empty expression is not.
      cases f with
      | entry e =>
        replace written : text' e ≠ "" := written
        replace blank : text e = "" := blank
        have one := short e (List.mem_singleton_self e) fun alike => written (alike ▸ blank)
        replace same : titleOf (text' e) = titleOf (text e) := same
        rw [titleOf_of_ne_empty written, blank] at same
        rw [same] at one
        cases one
      | unary op f => exact absurd blank (op.describe_ne_empty _)
      | binary op l r => exact absurd blank (op.describe_ne_empty _ _)
    · refine Formula.text_eq_of_write_eq_filled filled short ?_
      change titleOf (f.write text') = titleOf (f.write text) at same
      rw [titleOf_of_ne_empty written, titleOf_of_ne_empty blank] at same
      exact same.symm
  | awaiting left op right => cases completed

end Outline

namespace Engine

/-- With no name bound the tape reads as it does under `lookup` just when every name that is
bound in its formula is the memory's or reads `0`. -/
theorem titleOf_unbound_iff {e : Engine} (completed : e.outline.isPending = false)
    (lookup : String → Option Float) {draws draws' : Draws}
    (agree : draws.AgreeOn draws' e.tape.toList) :
    Curve.titleOf (e.evaluate unbound draws).description =
        Curve.titleOf (e.evaluate lookup draws').description ↔
      ∀ name, Entry.reference name ∈ e.outline.entries → (lookup name).isSome = true →
        name = memoryName ∨ name = "0" := by
  have entered {entry : Entry} (mem : entry ∈ e.outline.entries) := token_mem_of_entries mem
  rw [description_evaluate, description_evaluate, Outline.titleOf_write_eq_iff completed
    (fun entry _ => entry.filled_text_unbound e.stored draws)
    (fun entry mem => entry.length_text_unbound agree (entered mem))]
  constructor
  · intro same name mem
    exact (Entry.text_eq_unbound_iff agree (entered mem)).1 (same _ mem) name rfl
  · intro others entry mem
    refine (Entry.text_eq_unbound_iff agree (entered mem)).2 ?_
    rintro name rfl
    exact others name mem

end Engine

/-- The title is the session's description, or `Graph` for an empty one, just when every bound
name in the formula is the memory's or reads `0`. It always is the description that the session
would have with no name bound but the memory's. -/
theorem title_eq_description_iff {s : Session} {c : Curve} {graphing draws draws' : Draws}
    (graphed : s.curve? graphing = some c) (agree : draws.AgreeOn draws' s.engine.tape.toList) :
    (c.title draws = Curve.titleOf (s.evaluate draws').description ↔
      ∀ name, Entry.reference name ∈ s.engine.outline.entries →
        (s.memory.lookup name).isSome = true → name = memoryName ∨ name = "0") ∧
    c.title draws = Curve.titleOf (s.engine.evaluate
      (fun name => if name = memoryName then s.memory.lookup name else none) draws').description := by
  obtain ⟨completed, rfl⟩ := (s.curve?_eq_some_iff graphing c).1 graphed
  refine ⟨Engine.titleOf_unbound_iff completed s.memory.lookup agree, ?_⟩
  refine (Engine.titleOf_unbound_iff completed _ agree).2 fun name _ bound => ?_
  by_contra other
  rw [not_or] at other
  rw [if_neg other.1] at bound
  cases bound

theorem title_eq_description_of_overwritten_name :
    let draws : Draws := ⟨fun _ => 0.5, 0⟩
    let s := ((((Session.new.bind "k" 2.0).store 7.0).append (.reference "k")).append
      (.reference "M")).append (.symbol "x²")
    let c : Curve := ⟨s.engine, s.memory⟩
    s.curve? draws = some c ∧ c.title draws = "(M)²" := by
  intro draws s c
  have graphed : s.curve? draws = some c := rfl
  have named := (title_eq_description_iff graphed (.inl rfl : draws.AgreeOn draws _)).1.2
  refine ⟨graphed, (named fun name mem _ => ?_).trans (by decide)⟩
  change Entry.reference name ∈ [.reference "M"] at mem
  cases List.mem_singleton.1 mem
  exact .inl rfl

/-- A bound name is missing from the title of the curve that depends on it. -/
theorem title_omits_bound_name :
    let draws : Draws := ⟨fun _ => 0.5, 0⟩
    let s := (Session.new.bind "k" 2.0).append (.reference "k")
    let c : Curve := ⟨s.engine, s.memory⟩
    s.Reachable ∧ s.engine.tape.toList.all (!·.isDraw) = true ∧ s.curve? draws = some c ∧
      (s.evaluate draws).description = "k" ∧ c.y draws 1.0 = 2.0 ∧ c.title draws = "0" := by
  intro draws s c
  exact ⟨.append _ (.bind _ _ .new), rfl, rfl, rfl, by decide, by decide⟩

end Keytape
