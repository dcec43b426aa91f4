import Keytape.Curve
import Keytape.Proofs.Formula
import Keytape.Proofs.Noninterference

/-! A curve and the calculator it was taken from.

A session and its curve fold one tape in different environments. Whether an operation is
pending and whether there is a value is decided by the tape alone, so a curve is refused just
when the display is pending. The memory name stands for `x` in three ways: bound over the
other names, stored in the memory slot, and as the value that the engine falls back to. The
main statements say that these give one function, and that refusals agree with the display.
-/

set_option autoImplicit false

namespace Keytape

/-! ## Environments that resolve names alike -/

/-- Environments agree once they agree on the memory name and have the same other bindings. -/
theorem Environment.resolve_eq {env env' : Environment}
    (memory : env.resolve memoryName = env'.resolve memoryName)
    (others : ∀ name, name ≠ memoryName → env.lookup name = env'.lookup name) (name : String) :
    env.resolve name = env'.resolve name := by
  by_cases isMemory : name = memoryName
  · rw [isMemory, memory]
  · rw [resolve, resolve, others name isMemory, if_neg isMemory, if_neg isMemory]

/-! ## Refusal -/

namespace Session

theorem curve?_eq_none_iff (s : Session) (draws : Draws) :
    s.curve? draws = none ↔ s.engine.outline.isPending = true := by
  rw [curve?, Engine.isPending_evaluate]
  split <;> simp_all

theorem curve?_eq_some_iff (s : Session) (draws : Draws) (c : Curve) :
    s.curve? draws = some c ↔
      s.engine.outline.isPending = false ∧ ⟨s.engine, s.memory⟩ = c := by
  rw [curve?, Engine.isPending_evaluate]
  split <;> simp_all

end Session

/-- A curve is refused just when the display is pending, whatever is drawn. Where there is
one, the folds behind its values are not pending, and they have a value if the session has. -/
theorem refused_iff_pending (s : Session) (graphing displaying : Draws) :
    (s.curve? graphing = none ↔ (s.display displaying).isPending = true) ∧
    (∀ evaluating, (s.display displaying).isPending = (s.evaluate evaluating).isPending) ∧
    ∀ c, s.curve? graphing = some c → ∀ (x : Float) (drawing evaluating : Draws),
      let o := c.engine.evaluate (c.lookupAt x) drawing
      c.y drawing x = o.value.getD 0.0 ∧ o.isPending = false ∧
        o.value.isSome = (s.evaluate evaluating).value.isSome := by
  have pending (draws : Draws) : (s.evaluate draws).isPending = s.engine.outline.isPending :=
    s.engine.isPending_evaluate s.memory.lookup draws
  refine ⟨?_, ?_, ?_⟩
  · exact (s.curve?_eq_none_iff graphing).trans (by rw [← pending displaying]; rfl)
  · intro evaluating
    rw [pending evaluating, ← pending displaying]
    rfl
  · intro c graphed x drawing evaluating o
    obtain ⟨granted, rfl⟩ := (s.curve?_eq_some_iff graphing c).1 graphed
    refine ⟨rfl, ?_, ?_⟩
    · exact (s.engine.isPending_evaluate _ drawing).trans granted
    · have valued := s.engine.isSome_value_evaluate s.memory.lookup evaluating
      exact (s.engine.isSome_value_evaluate _ drawing).trans valued.symm

theorem folds_of_drawn_sum :
    let draws : Draws := ⟨fun i => if i = 0 then 0.25 else 0.5, 0⟩
    let s := (((Session.new.append (.symbol "rand")).append (.symbol "+")).append
      (.reference "M")).append (.symbol "=")
    let c : Curve := ⟨s.engine, s.memory⟩
    let o := c.engine.evaluate (c.lookupAt 3.0) (draws.skip 1)
    s.curve? draws = some c ∧ o.isPending = false ∧ o.value.isSome = true := by
  intro draws s c o
  have graphed : s.curve? draws = some c := rfl
  have folds := (refused_iff_pending s draws draws).2.2 c graphed 3.0 (draws.skip 1) draws
  exact ⟨graphed, folds.2.1, folds.2.2⟩

/-! ## Values -/

namespace Curve

variable (c : Curve) (x : Float)

theorem lookupAt_memory : c.lookupAt x memoryName = some x := if_pos rfl

theorem lookupAt_other {name : String} (other : name ≠ memoryName) :
    c.lookupAt x name = c.bindings.lookup name :=
  if_neg other

/-- A value does not depend on which of two ways of binding the names is used, if they differ
in the memory name only and that stands for `x`. -/
theorem y_eq {stored : Float} {lookup : String → Option Float} {draws draws' : Draws}
    (memory : Environment.resolve ⟨lookup, stored⟩ memoryName = .named memoryName x)
    (others : ∀ name, name ≠ memoryName → lookup name = c.bindings.lookup name)
    (agree : draws.AgreeOn draws' c.engine.tape.toList) :
    c.y draws x = ((Engine.mk c.engine.tape stored).evaluate lookup draws').value.getD 0.0 := by
  have resolved (name : String) : Environment.resolve ⟨c.lookupAt x, c.engine.stored⟩ name =
      Environment.resolve ⟨lookup, stored⟩ name := by
    refine Environment.resolve_eq ?_ (fun name other => ?_) name
    · exact (Environment.resolve_bound (c.lookupAt_memory x)).trans memory.symm
    · exact (c.lookupAt_other x other).trans (others name other).symm
  have same := Engine.evaluate_congr (fun name _ => resolved name) agree.take_eq
  exact congrArg (fun outcome => outcome.value.getD 0.0) same

end Curve

/-- A curve computes what the session would after storing `x` in the memory slot, and what the
engine would with `x` for the memory name to fall back to and the slot left out of the names.
So sessions with the same tape and names, but for the slot, have the same curve. -/
theorem y_eq_currentValue_store {s : Session} {c : Curve} {graphing draws draws' : Draws}
    (graphed : s.curve? graphing = some c) (agree : draws.AgreeOn draws' s.engine.tape.toList)
    (x : Float) :
    c.y draws x = (s.store x).currentValue draws' ∧
    c.y draws x = (Engine.evaluate { s.engine with stored := x }
      (s.memory.erase memoryName).lookup draws').value.getD 0.0 ∧
    ∀ s' : Session, s'.engine = s.engine →
      (∀ name, name ≠ memoryName → s'.memory.lookup name = s.memory.lookup name) →
      ∃ c', s'.curve? graphing = some c' ∧ c'.y draws' x = c.y draws x := by
  obtain ⟨granted, rfl⟩ := (s.curve?_eq_some_iff graphing c).1 graphed
  refine ⟨?_, ?_, ?_⟩
  · refine Curve.y_eq _ x ?_ (fun name other => ?_) agree
    · exact Environment.resolve_bound (s.memory?_store x)
    · exact (s.memory.lookup_insert memoryName x name).trans (if_neg other)
  · refine Curve.y_eq _ x ?_ (fun name other => ?_) agree
    · exact Environment.resolve_memory ((s.memory.lookup_erase _ _).trans (if_pos rfl))
    · exact (s.memory.lookup_erase memoryName name).trans (if_neg other)
  · rintro ⟨engine, memory, memorySet⟩ rfl names
    have graphed' : (Session.mk s.engine memory memorySet).curve? graphing =
        some ⟨s.engine, memory⟩ :=
      (Session.curve?_eq_some_iff _ _ _).2 ⟨granted, rfl⟩
    have same : (Curve.mk s.engine s.memory).y draws x = (Curve.mk s.engine memory).y draws' x := by
      refine Curve.y_eq _ x ?_ (fun name other => ?_) agree
      · exact Environment.resolve_bound (Curve.lookupAt_memory ⟨s.engine, memory⟩ x)
      · exact (Curve.lookupAt_other ⟨s.engine, memory⟩ x other).trans (names name other)
    exact ⟨_, graphed', same.symm⟩

theorem y_eq_currentValue_of_product :
    let draws : Draws := ⟨fun _ => 0.5, 0⟩
    let s := (((((Session.new.bind "k" 2.0).store 5.0).append (.reference "k")).append
      (.symbol "x")).append (.reference "M")).append (.symbol "=")
    let c : Curve := ⟨s.engine, s.memory⟩
    s.curve? draws = some c ∧ draws.AgreeOn (draws.skip 1) s.engine.tape.toList ∧
      c.y draws 3.0 = 6.0 ∧ (s.store 3.0).currentValue (draws.skip 1) = 6.0 := by
  intro draws s c
  have graphed : s.curve? draws = some c := rfl
  have agree : draws.AgreeOn (draws.skip 1) s.engine.tape.toList := by
    have drawless : s.engine.tape.toList.all (!·.isDraw) = true := rfl
    exact .inr fun t mem => by simpa using List.all_eq_true.1 drawless t mem
  have value : c.y draws 3.0 = 6.0 := by decide
  have stored := (y_eq_currentValue_store graphed agree 3.0).1
  exact ⟨graphed, agree, value, stored.symm.trans value⟩

end Keytape
