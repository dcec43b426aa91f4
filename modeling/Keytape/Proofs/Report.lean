import Keytape.Proofs.Affixes
import Keytape.Proofs.Formula
import Keytape.Proofs.Locality
import Keytape.Proofs.Numeral
import Keytape.Report

/-! What a report says twice.

The display and the outcome of a report are two evaluations, and each has draws of its own. The
main statement says that they tell the same story just when the draws that are left in the
formula came out the same and so did the error; then they are one evaluation in all respects.
Draws are written as numerals and no numeral goes on into what operations write around it, so
descriptions that agree show the same draws.
-/

set_option autoImplicit false

namespace Keytape

open Numeral (IsPlain)

/-! ## Numerals among other texts -/

/-- The text cannot continue a numeral. -/
def StartsUnplain (cs : List Char) : Prop := ∀ c ∈ cs.head?, ¬ IsPlain c

theorem startsUnplain_nil : StartsUnplain [] := by
  rintro c ⟨⟩

theorem UnaryOp.startsUnplain_closing (op : UnaryOp) (rest : List Char) :
    StartsUnplain (op.closing ++ rest) := by
  rintro c mem
  have first : (op.closing ++ rest).head? = some ')' := by cases op <;> rfl
  cases first.symm.trans mem
  decide

theorem BinaryOp.startsUnplain_closing (op : BinaryOp) (rest : List Char) :
    StartsUnplain (op.closing ++ [' ', op.sign] ++ rest) := by
  rintro c mem
  have first : ∀ d ∈ (op.closing ++ [' ', op.sign] ++ rest).head?, d = ')' ∨ d = ' ' := by
    cases op <;> simp [closing]
  rcases first c mem with rfl | rfl
  · decide
  · decide

theorem eq_of_plain_append {cs cs' rest rest' : List Char} (plain : ∀ c ∈ cs, IsPlain c)
    (plain' : ∀ c ∈ cs', IsPlain c) (starts : StartsUnplain rest) (starts' : StartsUnplain rest')
    (same : cs ++ rest = cs' ++ rest') : cs = cs' := by
  have taken {cs rest : List Char} (plain : ∀ c ∈ cs, IsPlain c) (starts : StartsUnplain rest) :
      (cs ++ rest).takeWhile (decide <| IsPlain ·) = cs := by
    have stop : rest.takeWhile (decide <| IsPlain ·) = [] := by
      cases rest with
      | nil => rfl
      | cons c later => exact List.takeWhile_cons_of_neg (by simpa using starts c rfl)
    rw [List.takeWhile_append_of_pos (by simpa using plain), stop, List.append_nil]
  rw [← taken plain starts, same, taken plain' starts']

/-! ## Operands of one text -/

/-- Either text may stand for the operand, and if they differ both are numerals. -/
def Interchangeable (text text' : String) : Prop :=
  text = text' ∨ (∀ c ∈ text.toList, IsPlain c) ∧ ∀ c ∈ text'.toList, IsPlain c

section
variable {text text' : Entry → String}

theorem Formula.text_eq_of_append_eq {f : Formula}
    (alike : ∀ e ∈ f.entries, Interchangeable (text e) (text' e)) {rest rest' : List Char}
    (starts : StartsUnplain rest) (starts' : StartsUnplain rest')
    (same : (f.write text).toList ++ rest = (f.write text').toList ++ rest') :
    (∀ e ∈ f.entries, text e = text' e) ∧ rest = rest' := by
  -- Texts are compared from the left, each operand with what is written after it.
  induction f generalizing rest rest' with
  | entry e =>
    have first : text e = text' e := by
      rcases alike e (List.mem_singleton_self e) with equal | ⟨plain, plain'⟩
      · exact equal
      · exact String.toList_inj.1 (eq_of_plain_append plain plain' starts starts' same)
    refine ⟨fun e' mem => ?_, ?_⟩
    · rwa [List.mem_singleton.1 mem]
    · rw [write, write, first] at same
      exact List.append_cancel_left same
  | unary op f ih =>
    simp only [write, op.toList_describe, List.append_assoc] at same
    obtain ⟨inner, later⟩ := ih alike (op.startsUnplain_closing rest)
      (op.startsUnplain_closing rest') (List.append_cancel_left same)
    exact ⟨inner, List.append_cancel_left later⟩
  | binary op l r ihl ihr =>
    obtain ⟨alikeLeft, alikeRight⟩ := List.forall_mem_append.1 alike
    have shape (x y : String) (rest : List Char) : (op.describe x y).toList ++ rest =
        op.opening ++ (x.toList ++ (op.closing ++ [' ', op.sign] ++ ' ' :: (y.toList ++ rest))) := by
      rw [op.toList_describe]
      simp only [List.append_assoc, List.cons_append, List.nil_append]
    simp only [write, shape] at same
    obtain ⟨left, later⟩ := ihl alikeLeft (op.startsUnplain_closing _) (op.startsUnplain_closing _)
      (List.append_cancel_left same)
    obtain ⟨right, last⟩ := ihr alikeRight starts starts'
      (List.cons.inj (List.append_cancel_left later)).2
    exact ⟨List.forall_mem_append.2 ⟨left, right⟩, last⟩

theorem Formula.text_eq_of_interchangeable {f : Formula}
    (alike : ∀ e ∈ f.entries, Interchangeable (text e) (text' e))
    (same : f.write text = f.write text') : ∀ e ∈ f.entries, text e = text' e := by
  refine (f.text_eq_of_append_eq alike startsUnplain_nil startsUnplain_nil ?_).1
  rw [same]

theorem Outline.text_eq_of_interchangeable {o : Outline}
    (alike : ∀ e ∈ o.entries, Interchangeable (text e) (text' e))
    (same : o.write text = o.write text') : ∀ e ∈ o.entries, text e = text' e := by
  cases o with
  | empty => rintro e ⟨⟩
  | holding acc => exact acc.text_eq_of_interchangeable alike same
  | awaiting left op right =>
    cases right with
    | some right => exact (Formula.binary op left right).text_eq_of_interchangeable alike same
    | none =>
      have shape (x : String) : (op.describe x "").toList =
          op.opening ++ (x.toList ++ (op.closing ++ [' ', op.sign] ++ [' '])) := by
        rw [op.toList_describe]
        simp
      have shown := congrArg String.toList same
      simp only [write, Option.map_none, Option.getD_none, shape] at shown
      have first := left.text_eq_of_append_eq (fun e mem => alike e (List.mem_append_left _ mem))
        (op.startsUnplain_closing _) (op.startsUnplain_closing _) (List.append_cancel_left shown)
      intro e mem
      exact first.1 e (by simpa [entries] using mem)

end

/-! ## Two evaluations of one tape -/

section
variable (env : Environment) (draws draws' : Draws)

theorem Entry.interchangeable (e : Entry) :
    Interchangeable (e.text env draws) (e.text env draws') := by
  cases e with
  | literal x => exact .inl rfl
  | reference name => exact .inl rfl
  | constant c => exact .inl rfl
  | draw earlier => exact .inr ⟨fun _ => Numeral.plain_write, fun _ => Numeral.plain_write⟩

/-- The draws that are left in the outline came out the same. -/
def Outline.DrawsAlike (o : Outline) : Prop :=
  ∀ k, Entry.draw k ∈ o.entries → (draws.skip k).head = (draws'.skip k).head

variable {env draws draws'}

theorem Engine.drawsAlike_of_description_eq {e : Engine} {lookup : String → Option Float}
    (same : (e.evaluate lookup draws).description = (e.evaluate lookup draws').description) :
    e.outline.DrawsAlike draws draws' := by
  rw [description_evaluate, description_evaluate] at same
  intro k mem
  have texts := Outline.text_eq_of_interchangeable (fun e _ => e.interchangeable _ _ _) same
  exact Numeral.write_injective (texts _ mem)

theorem Outline.DrawsAlike.state_eq {o : Outline} (alike : o.DrawsAlike draws draws')
    (env : Environment) : o.state env draws = o.state env draws' := by
  refine Outline.state_congr fun e mem => ?_
  cases e with
  | literal x => rfl
  | reference name => rfl
  | constant c => rfl
  | draw k => exact congrArg Operand.number (alike k mem)

end

theorem Session.evaluate_eq_iff (s : Session) (draws draws' : Draws) :
    s.evaluate draws = s.evaluate draws' ↔
      s.engine.outline.DrawsAlike draws draws' ∧ (s.evaluate draws).error = (s.evaluate draws').error := by
  constructor
  · intro same
    exact ⟨Engine.drawsAlike_of_description_eq (congrArg Outcome.description same),
      congrArg Outcome.error same⟩
  · rintro ⟨alike, error⟩
    have state : (s.engine.run s.memory.lookup draws).state =
        (s.engine.run s.memory.lookup draws').state := by
      rw [Engine.state_run, Engine.state_run, alike.state_eq]
    change (s.engine.run s.memory.lookup draws).error = (s.engine.run s.memory.lookup draws').error
      at error
    change (s.engine.run s.memory.lookup draws).outcome = (s.engine.run s.memory.lookup draws').outcome
    rw [Progress.outcome, state, error, Progress.outcome]

/-! ## Captions -/

theorem Display.captionOf_eq (o : Outcome) : captionOf o =
    if o.description = "" then "" else o.description ++ if o.isPending then "..." else " =" := by
  unfold captionOf
  by_cases blank : o.description = ""
  · simp [blank]
  · cases o.isPending <;> simp [blank]

theorem Display.description_eq_of_captionOf {o o' : Outcome} (pending : o.isPending = o'.isPending)
    (same : captionOf o = captionOf o') : o.description = o'.description := by
  rw [captionOf_eq, captionOf_eq, pending] at same
  -- The mark is not empty, so a caption is empty only if its description is.
  have mark : (if o'.isPending then "..." else " =") ≠ "" := by cases o'.isPending <;> decide
  by_cases blank : o.description = "" <;> by_cases blank' : o'.description = ""
  · rw [blank, blank']
  · rw [if_pos blank, if_neg blank', eq_comm, String.append_eq_empty_iff] at same
    exact absurd same.2 mark
  · rw [if_neg blank, if_pos blank', String.append_eq_empty_iff] at same
    exact absurd same.2 mark
  · rw [if_neg blank, if_neg blank'] at same
    exact (String.append_left_inj _).1 same

/-! ## Reports -/

/-- The display is that of the outcome, as far as it shows anything. -/
structure Report.Consistent (r : Report) : Prop where
  error : r.display.error = r.outcome.error
  isPending : r.display.isPending = r.outcome.isPending
  caption : r.display.caption = if r.outcome.description = "" then ""
    else r.outcome.description ++ if r.outcome.isPending then "..." else " ="
  main : ∀ text, r.outcome.error = none → r.display.main = some text →
    r.outcome.value.map Numeral.write = some text

theorem Report.consistent_ofOutcome (memorySet : Bool) (o : Outcome) (memory : Option Float) :
    (Report.mk (.ofOutcome memorySet o) o memory).Consistent where
  error := rfl
  isPending := rfl
  caption := Display.captionOf_eq o
  main text sound shown := by
    change Display.mainOf memorySet o = some text at shown
    change o.error = none at sound
    rw [Display.mainOf, sound] at shown
    obtain ⟨x, kept, rfl⟩ := Option.map_eq_some_iff.1 shown
    rw [(Option.filter_eq_some_iff.1 kept).1, Option.map_some]

theorem Session.isPending_report (s : Session) (draws : Draws) :
    (s.report draws).1.display.isPending = (s.report draws).1.outcome.isPending := by
  change (s.evaluate draws).isPending = (s.evaluate (s.drawsAfter draws)).isPending
  rw [evaluate, evaluate, Engine.isPending_evaluate, Engine.isPending_evaluate]

/-- A report is consistent just when both of its evaluations come out alike. -/
theorem Session.consistent_report_iff (s : Session) (draws : Draws) :
    (s.report draws).1.Consistent ↔ s.evaluate draws = s.evaluate (s.drawsAfter draws) := by
  constructor
  · intro consistent
    have caption := consistent.caption.trans (Display.captionOf_eq _).symm
    have description := Display.description_eq_of_captionOf (s.isPending_report draws) caption
    exact (s.evaluate_eq_iff _ _).2
      ⟨Engine.drawsAlike_of_description_eq description, consistent.error⟩
  · intro same
    have consistent := Report.consistent_ofOutcome s.memorySet (s.evaluate draws) s.memory?
    have display : (s.report draws).1 = ⟨.ofOutcome s.memorySet (s.evaluate draws),
        s.evaluate (s.drawsAfter draws), s.memory?⟩ := rfl
    rw [display, ← same]
    exact consistent

/-- The outcome draws what the display left over. A report describes one evaluation just when
the draws that are still in the formula came out the same for both, and so did the error.
Whether an operation is pending is told alike in any case, and everything is if both have drawn
the same values, or if there was nothing to draw. -/
theorem report_consistent_iff (s : Session) (draws : Draws) :
    let r := (s.report draws).1
    let left := (s.engine.run s.memory.lookup draws).draws
    (r.Consistent ↔
      (∀ k, Entry.draw k ∈ s.engine.outline.entries → (draws.skip k).head = (left.skip k).head) ∧
        r.display.error = r.outcome.error) ∧
    r.display.isPending = r.outcome.isPending ∧
    (draws.take s.engine.drawCount = left.take s.engine.drawCount → r.Consistent) := by
  intro r left
  have after : left = s.drawsAfter draws := s.draws_run draws
  have consistent : r.Consistent ↔ s.evaluate draws = s.evaluate left := by
    rw [after]
    exact s.consistent_report_iff draws
  refine ⟨?_, s.isPending_report draws, fun same => ?_⟩
  · rw [consistent, s.evaluate_eq_iff, after]
    rfl
  · exact consistent.2 (s.evaluate_congr same)

/-- Two draws of the same value. -/
theorem report_consistent_of_constant_draws :
    let draws : Draws := ⟨fun _ => 0.25, 0⟩
    let s := Session.new.append (.symbol "rand")
    let left := (s.engine.run s.memory.lookup draws).draws
    left.used = 1 ∧ draws.take s.engine.drawCount = left.take s.engine.drawCount ∧
      (s.report draws).1.Consistent := by
  intro draws s left
  have same : draws.take s.engine.drawCount = left.take s.engine.drawCount := rfl
  exact ⟨rfl, same, (report_consistent_iff s draws).2.2 same⟩

/-- The display has an error where the outcome has none: `rand - 0.5 = √ 7`, once with a draw
below one half and once with one above. -/
theorem report_inconsistent_of_draws :
    let draws : Draws := ⟨fun i => if i = 0 then 0.25 else 0.75, 0⟩
    let s := (Session.new.pressWords draws ["rand", "-", "0.5", "=", "√", "7"]).1
    let r := (s.report draws).1
    r.display.main = some "SQRT of negative number" ∧ r.outcome.error = none ∧
      r.outcome.value = some 7.0 ∧ ¬ r.Consistent := by
  intro draws s r
  have failed : r.display.error = some .negativeSquareRoot := by decide
  have sound : r.outcome.error = none := by decide
  refine ⟨by decide, sound, by decide, fun consistent => ?_⟩
  rw [consistent.error, sound] at failed
  cases failed

end Keytape
