import Keytape.Session

/-! The sessions that inputs lead to.

Whether the memory slot counts as set is noted beside the table that holds it. No input
lets the two disagree, and none gives the engine a value to fall back to.
-/

set_option autoImplicit false

namespace Keytape.Session

inductive Reachable : Session → Prop where
  | new : Reachable .new
  | append {s : Session} (t : Token) : Reachable s → Reachable (s.append t)
  | undo {s : Session} : Reachable s → Reachable s.undo
  | store {s : Session} (x : Float) : Reachable s → Reachable (s.store x)
  | bind {s : Session} (name : String) (x : Float) : Reachable s → Reachable (s.bind name x)
  | forget {s : Session} : Reachable s → Reachable s.forget
  | reset {s : Session} : Reachable s → Reachable s.reset

/-- The slot counts as set exactly when it holds a value. -/
def Noted (s : Session) : Prop := s.memorySet = s.memory?.isSome

theorem noted_store (s : Session) (x : Float) : (s.store x).Noted := by
  rw [Noted, memory?_store]
  rfl

theorem noted_bind {s : Session} (h : s.Noted) (name : String) (x : Float) :
    (s.bind name x).Noted := by
  by_cases isMemory : name = memoryName
  · rw [bind, if_pos isMemory]
    exact noted_store s x
  · have kept : (s.bind name x).memory? = s.memory? := by
      rw [memory?, lookup_bind, if_neg (Ne.symm isMemory), memory?]
    rw [Noted, kept, bind, if_neg isMemory]
    exact h

theorem Reachable.noted {s : Session} (h : s.Reachable) : s.Noted := by
  induction h with
  | new => rfl
  | append t _ ih => exact ih
  | undo _ ih => exact ih
  | store x _ _ => exact noted_store _ x
  | bind name x _ ih => exact noted_bind ih name x
  | forget _ _ => rfl
  | reset _ _ => rfl

theorem engine_bind (s : Session) (name : String) (x : Float) : (s.bind name x).engine = s.engine := by
  unfold bind
  split <;> rfl

theorem Reachable.stored_eq {s : Session} (h : s.Reachable) : s.engine.stored = 0.0 := by
  induction h with
  | new => rfl
  | append t _ ih => exact ih
  | undo _ ih => exact ih
  | store x _ ih => exact ih
  | bind name x _ ih => rw [engine_bind, ih]
  | forget _ ih => exact ih
  | reset _ _ => rfl

end Keytape.Session
