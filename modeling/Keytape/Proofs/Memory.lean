import Keytape.Proofs.Noninterference
import Keytape.Proofs.Reachable

/-! The memory slot over whole runs.

The display looks at a flag where a reader thinks of the slot itself. The main statement says
that the two agree after any inputs, so that the display shows a line just when there is an
error, or a value that does not rest on an empty slot; and that a memory which was cleared
leaves nothing behind.
-/

set_option autoImplicit false

namespace Keytape

/-! ## What the display shows -/

theorem Outcome.mentionsMemory_iff (o : Outcome) :
    o.mentionsMemory = true ↔ Shows o.description memoryName := by
  refine ⟨fun mentioned => ?_, mentionsMemory_of_shows⟩
  obtain ⟨before, after, shown⟩ := List.append_of_mem (List.contains_iff_mem.1 mentioned)
  exact ⟨before, after, by rw [shown, List.append_assoc]; rfl⟩

theorem Display.isSome_mainOf_iff (memorySet : Bool) (o : Outcome) :
    (mainOf memorySet o).isSome = true ↔ o.error.isSome = true ∨
      o.value.isSome = true ∧ (memorySet = true ∨ ¬ Shows o.description memoryName) := by
  rw [← o.mentionsMemory_iff, mainOf]
  cases o.error with
  | some e => simp
  | none => cases o.value <;> cases memorySet <;> cases o.mentionsMemory <;> simp

/-! ## Sessions -/

namespace Session

theorem evaluate_forget (s : Session) (draws : Draws) :
    s.forget.evaluate draws = s.engine.evaluate unbound draws := by
  have names : s.forget.memory.lookup = unbound := funext Bindings.lookup_empty
  rw [evaluate, names]
  rfl

end Session

/-- After any inputs the slot is noted as set just when it is bound, and the engine has nothing
but zero to fall back to. So a line is shown just when there is an error, or a value and either
a slot that is set or a description without the slot, and after the memory was cleared the
evaluation is the one with no name bound. -/
theorem memory_of_reachable {s : Session} (reachable : s.Reachable) :
    (s.memorySet = true ↔ (s.memory.lookup memoryName).isSome = true) ∧
    s.engine.stored = 0.0 ∧
    ∀ draws,
      ((s.display draws).main.isSome = true ↔ (s.evaluate draws).error.isSome = true ∨
        (s.evaluate draws).value.isSome = true ∧
          (s.memory?.isSome = true ∨ ¬ Shows (s.evaluate draws).description memoryName)) ∧
      s.forget.evaluate draws = s.engine.evaluate unbound draws := by
  have noted : s.memorySet = s.memory?.isSome := reachable.noted
  refine ⟨by rw [noted]; rfl, reachable.stored_eq, fun draws => ⟨?_, s.evaluate_forget draws⟩⟩
  rw [← noted]
  exact Display.isSome_mainOf_iff s.memorySet (s.evaluate draws)

/-- The slot is bound by its name, then cleared, and mentioned all along. -/
theorem memory_of_cleared_slot :
    let draws : Draws := ⟨fun _ => 0.5, 0⟩
    let s := (Session.new.append (.reference "M")).bind "M" 2.0
    let t := s.forget
    s.memorySet = true ∧ s.memory? = some 2.0 ∧ (s.display draws).main.isSome = true ∧
      t.memorySet = false ∧ t.engine.stored = 0.0 ∧ (t.evaluate draws).value = some 0.0 ∧
      (t.display draws).main = none ∧ t.evaluate draws = s.engine.evaluate unbound draws := by
  intro draws s t
  have reachable : s.Reachable := .bind _ _ (.append _ .new)
  obtain ⟨noted, _, shown⟩ := memory_of_reachable reachable
  obtain ⟨noted', stored, shown'⟩ := memory_of_reachable (.forget reachable : t.Reachable)
  have mentioned : Shows (t.evaluate draws).description memoryName :=
    (t.evaluate draws).mentionsMemory_iff.1 (by decide)
  have hidden : ¬ (t.display draws).main.isSome = true := by
    rw [(shown' draws).1]
    rintro (failed | ⟨_, set | unmentioned⟩)
    · cases failed
    · cases set
    · exact unmentioned mentioned
  have unset : t.memorySet = false :=
    Bool.eq_false_iff.2 fun set => Bool.false_ne_true (noted'.1 set)
  exact ⟨noted.2 rfl, rfl, (shown draws).1.2 (.inr ⟨rfl, .inl rfl⟩), unset, stored, rfl,
    Option.not_isSome_iff_eq_none.1 hidden, (shown draws).2⟩

end Keytape
