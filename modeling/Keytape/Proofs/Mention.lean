import Keytape.Proofs.Affixes
import Keytape.Proofs.Formula
import Keytape.Proofs.Numeral
import Keytape.Proofs.Reachable

/-! What hides a value.

While the memory slot is not set, a value is hidden if its description shows the letter of
the slot. Neither operations nor numerals nor constants write that letter, so it comes from
a name that was entered: from the slot's own, or from any bound name with the letter in it.
The main statement says that without the slot on the tape a value is shown unless such a name
is left in its formula; a name that only contains the letter is enough to hide a value.
-/

set_option autoImplicit false

namespace Keytape

/-! ## The letter in a description -/

theorem UnaryOp.letter_mem_describe (op : UnaryOp) (x : String) :
    'M' ∈ (op.describe x).toList ↔ 'M' ∈ x.toList := by
  have opens : 'M' ∉ op.opening := by cases op <;> decide
  have closes : 'M' ∉ op.closing := by cases op <;> decide
  simp [op.toList_describe, opens, closes]

theorem BinaryOp.letter_mem_describe (op : BinaryOp) (x y : String) :
    'M' ∈ (op.describe x y).toList ↔ 'M' ∈ x.toList ∨ 'M' ∈ y.toList := by
  have opens : 'M' ∉ op.opening := by cases op <;> decide
  have closes : 'M' ∉ op.closing := by cases op <;> decide
  have signs : 'M' ≠ op.sign := by cases op <;> decide
  simp [op.toList_describe, opens, closes, signs]

theorem Formula.letter_mem_write (f : Formula) (text : Entry → String) :
    'M' ∈ (f.write text).toList ↔ ∃ e ∈ f.entries, 'M' ∈ (text e).toList := by
  induction f with
  | entry e => simp [write, entries]
  | unary op f ih => rw [write, op.letter_mem_describe, ih, entries]
  | binary op l r ihl ihr =>
    simp only [write, op.letter_mem_describe, ihl, ihr, entries, List.mem_append, or_and_right,
      exists_or]

theorem Outline.letter_mem_write (o : Outline) (text : Entry → String) :
    'M' ∈ (o.write text).toList ↔ ∃ e ∈ o.entries, 'M' ∈ (text e).toList := by
  cases o with
  | empty => simp [write, entries]
  | holding acc => exact acc.letter_mem_write text
  | awaiting left op right =>
    cases right with
    | none => simp [write, entries, op.letter_mem_describe, left.letter_mem_write]
    | some right =>
      simp only [write, entries, Option.map_some, Option.getD_some, op.letter_mem_describe,
        left.letter_mem_write, right.letter_mem_write, List.mem_append, or_and_right, exists_or]

theorem Numeral.letter_not_mem_write (x : Float) : 'M' ∉ (write x).toList :=
  fun mem => absurd (plain_write mem) (by decide)

/-! ## The names that show it -/

theorem Environment.letter_mem_resolve (env : Environment) (name : String) :
    'M' ∈ (env.resolve name).text.toList ↔
      name = memoryName ∨ (env.lookup name).isSome = true ∧ 'M' ∈ name.toList := by
  have letter : 'M' ∈ memoryName.toList := by decide
  unfold resolve
  split
  · rename_i x bound
    change 'M' ∈ name.toList ↔ _
    constructor
    · intro mem
      exact .inr ⟨by rw [bound]; rfl, mem⟩
    · rintro (isMemory | ⟨_, mem⟩)
      · exact isMemory ▸ letter
      · exact mem
  · rename_i free
    split
    · rename_i isMemory
      exact iff_of_true letter (.inl isMemory)
    · rename_i other
      have zero : 'M' ∉ "0".toList := by decide
      refine iff_of_false zero ?_
      rintro (isMemory | ⟨bound, _⟩)
      · exact other isMemory
      · rw [free] at bound
        cases bound

theorem Entry.letter_mem_text (env : Environment) (draws : Draws) (e : Entry) :
    'M' ∈ (e.text env draws).toList ↔ ∃ name, e = .reference name ∧
      (name = memoryName ∨ (env.lookup name).isSome = true ∧ 'M' ∈ name.toList) := by
  cases e with
  | literal x =>
    refine iff_of_false (Numeral.letter_not_mem_write x) ?_
    rintro ⟨_, ⟨⟩, _⟩
  | reference name =>
    refine (env.letter_mem_resolve name).trans ⟨fun shown => ⟨name, rfl, shown⟩, ?_⟩
    rintro ⟨_, ⟨⟩, shown⟩
    exact shown
  | constant c =>
    have plain : 'M' ∉ c.symbol.toList := by cases c <;> decide
    refine iff_of_false plain ?_
    rintro ⟨_, ⟨⟩, _⟩
  | draw earlier =>
    refine iff_of_false (Numeral.letter_not_mem_write (draws.skip earlier).head) ?_
    rintro ⟨_, ⟨⟩, _⟩

theorem Engine.mentionsMemory_iff (e : Engine) (lookup : String → Option Float) (draws : Draws) :
    (e.evaluate lookup draws).mentionsMemory = true ↔
      ∃ name, Entry.reference name ∈ e.outline.entries ∧
        (name = memoryName ∨ (lookup name).isSome = true ∧ 'M' ∈ name.toList) := by
  rw [Outcome.mentionsMemory, List.contains_iff_mem, description_evaluate,
    Outline.letter_mem_write]
  constructor
  · rintro ⟨entry, mem, letter⟩
    obtain ⟨name, rfl, shown⟩ := (Entry.letter_mem_text _ _ _).1 letter
    exact ⟨name, mem, shown⟩
  · rintro ⟨name, mem, shown⟩
    exact ⟨_, mem, (Entry.letter_mem_text _ _ _).2 ⟨name, rfl, shown⟩⟩

/-! ## The display -/

namespace Session

/-- A value is shown if the slot is set or the description does not mention it. -/
theorem main_display_iff {s : Session} {draws : Draws} {v : Float} (reachable : s.Reachable)
    (value : (s.evaluate draws).value = some v) (sound : (s.evaluate draws).error = none) :
    (s.display draws).main = some (Numeral.write v) ↔
      s.memory?.isSome = true ∨ ¬ (s.evaluate draws).mentionsMemory = true := by
  change Display.mainOf s.memorySet (s.evaluate draws) = _ ↔ _
  rw [Display.mainOf, sound, value, reachable.noted]
  cases s.memory?.isSome <;> cases (s.evaluate draws).mentionsMemory <;> simp

end Session

/-- With a value, no error and no reference to the memory slot on the tape, the display shows
the value if the slot is set or no bound name in the formula has the slot's letter, and only
then; and the description counts as mentioning the slot just when such a name is there. -/
theorem main_eq_value_iff {s : Session} {draws : Draws} {v : Float} (reachable : s.Reachable)
    (unreferenced : Token.reference memoryName ∉ s.engine.tape.toList)
    (value : (s.evaluate draws).value = some v) (sound : (s.evaluate draws).error = none) :
    ((s.display draws).main = some (Numeral.write v) ↔ s.memory?.isSome = true ∨
      ∀ name, Entry.reference name ∈ s.engine.outline.entries →
        (s.memory.lookup name).isSome = true → 'M' ∉ name.toList) ∧
    ((s.evaluate draws).mentionsMemory = true ↔
      ∃ name, Entry.reference name ∈ s.engine.outline.entries ∧
        (s.memory.lookup name).isSome = true ∧ 'M' ∈ name.toList) := by
  have mentions : (s.evaluate draws).mentionsMemory = true ↔
      ∃ name, Entry.reference name ∈ s.engine.outline.entries ∧
        (s.memory.lookup name).isSome = true ∧ 'M' ∈ name.toList := by
    refine (s.engine.mentionsMemory_iff s.memory.lookup draws).trans ?_
    constructor
    · rintro ⟨name, mem, isMemory | shown⟩
      · exact absurd (isMemory ▸ Engine.token_mem_of_entries mem) unreferenced
      · exact ⟨name, mem, shown⟩
    · rintro ⟨name, mem, shown⟩
      exact ⟨name, mem, .inr shown⟩
  refine ⟨?_, mentions⟩
  rw [Session.main_display_iff reachable value sound, mentions]
  simp only [not_exists, not_and]

theorem main_eq_value_of_overwritten_name :
    let draws : Draws := ⟨fun _ => 0.5, 0⟩
    let s := (((Session.new.bind "MAX" 3.0).bind "k" 5.0).append (.reference "MAX")).append
      (.reference "k")
    (s.display draws).main = some (Numeral.write 5.0) := by
  intro draws s
  have reachable : s.Reachable := .append _ (.append _ (.bind _ _ (.bind _ _ .new)))
  have unreferenced : Token.reference memoryName ∉ s.engine.tape.toList := by
    change Token.reference memoryName ∉ [.reference "MAX", .reference "k"]
    simp [memoryName]
  have value : (s.evaluate draws).value = some 5.0 := rfl
  refine (main_eq_value_iff reachable unreferenced value rfl).1.2 (.inr ?_)
  intro name mem _
  change Entry.reference name ∈ [.reference "k"] at mem
  cases List.mem_singleton.1 mem
  decide

/-- A name that only contains the letter hides a value that the slot has no part in. -/
theorem main_hidden_by_lettered_name :
    let draws : Draws := ⟨fun _ => 0.5, 0⟩
    let s := (Session.new.bind "MAX" 3.0).append (.reference "MAX")
    s.Reachable ∧ Token.reference memoryName ∉ s.engine.tape.toList ∧
      (s.evaluate draws).value = some 3.0 ∧ (s.evaluate draws).error = none ∧
      (s.evaluate draws).mentionsMemory = true ∧ (s.display draws).main = none := by
  intro draws s
  refine ⟨.append _ (.bind _ _ .new), ?_, rfl, rfl, by decide, ?_⟩
  · change Token.reference memoryName ∉ [.reference "MAX"]
    simp [memoryName]
  · have mentioned : (s.evaluate draws).mentionsMemory = true := by decide
    change Display.mainOf false (s.evaluate draws) = none
    rw [Display.mainOf, mentioned]
    rfl

end Keytape
