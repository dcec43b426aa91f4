import Mathlib
import Keytape.Curve
import Keytape.Proofs.Noninterference

/-! What an evaluation reads of the names.

An evaluation asks for the names that its tape refers to and for no others, and falls back to the
stored value for the memory name only. So names may be kept in any way and may have been bound in
any order, and whatever a session does to names that its tape does not refer to leaves the outcome
as it was.
-/

set_option autoImplicit false

namespace Keytape

structure Environment.AgreeOn (env env' : Environment) (tokens : List Token) : Prop where
  lookup : ∀ name, .reference name ∈ tokens → env.lookup name = env'.lookup name
  stored : .reference memoryName ∈ tokens → env.lookup memoryName = none → env.stored = env'.stored

theorem Environment.AgreeOn.resolve_eq {env env' : Environment} {tokens : List Token}
    (h : env.AgreeOn env' tokens) {name : String} (mem : .reference name ∈ tokens) :
    env.resolve name = env'.resolve name := by
  have looked := h.lookup name mem
  rw [resolve, resolve, ← looked]
  cases found : env.lookup name with
  | some x => rfl
  | none =>
    dsimp only
    split
    · rename_i isMemory
      subst isMemory
      rw [h.stored mem found]
    · rfl

theorem Engine.evaluate_eq_of_agree {tape : Tape} {env env' : Environment} {draws draws' : Draws}
    (names : env.AgreeOn env' tape.toList) (agree : draws.AgreeOn draws' tape.toList) :
    (Engine.mk tape env.stored).evaluate env.lookup draws =
      (Engine.mk tape env'.stored).evaluate env'.lookup draws' :=
  Engine.evaluate_congr (fun _ mem => names.resolve_eq mem) agree.take_eq

/-! ## Ways of keeping names -/

def Bindings.ofList (entries : List (String × Float)) : Bindings :=
  entries.foldl (fun b entry => b.insert entry.1 entry.2) .empty

/-- Names that are bound one by one: in a sorted table, in a hash table, or in a sorted table that
is seen from `x` on the axis of a curve. -/
inductive Keeps : List (String × Float) → (String → Option Float) → Prop where
  | sorted (entries : List (String × Float)) : Keeps entries (Bindings.ofList entries).lookup
  | hashed (entries : List (String × Float)) :
      Keeps entries fun name => (Std.HashMap.ofList entries)[name]?
  | seen (e : Engine) (x : Float) (entries : List (String × Float)) :
      Keeps ((memoryName, x) :: entries.filter fun entry => entry.1 != memoryName)
        ((Curve.mk e (.ofList entries)).lookupAt x)

def lastValue? (entries : List (String × Float)) (name : String) : Option Float :=
  entries.findSomeRev? fun (n, x) => if n == name then some x else none

theorem lastValue?_cons (n : String) (x : Float) (rest : List (String × Float)) (name : String) :
    lastValue? ((n, x) :: rest) name =
      (lastValue? rest name).or (if n == name then some x else none) := by
  rw [lastValue?, List.findSomeRev?, ← lastValue?]
  cases lastValue? rest name <;> rfl

theorem lastValue?_without (entries : List (String × Float)) (dropped name : String) :
    lastValue? (entries.filter fun entry => entry.1 != dropped) name =
      if name = dropped then none else lastValue? entries name := by
  induction entries with
  | nil => simp [lastValue?, List.findSomeRev?]
  | cons entry rest ih =>
    obtain ⟨n, x⟩ := entry
    rw [List.filter_cons, lastValue?_cons]
    by_cases asked : name = dropped
    · subst asked
      rw [if_pos rfl] at ih ⊢
      by_cases isDropped : n = name <;> simp [lastValue?_cons, ih, isDropped]
    · rw [if_neg asked] at ih ⊢
      by_cases isDropped : n = dropped
      · simp [ih, isDropped, Ne.symm asked]
      · simp [lastValue?_cons, ih, isDropped]

theorem Bindings.lookup_foldl_insert (entries : List (String × Float)) (b : Bindings)
    (name : String) :
    (entries.foldl (fun b entry => b.insert entry.1 entry.2) b).lookup name =
      (lastValue? entries name).or (b.lookup name) := by
  induction entries generalizing b with
  | nil => rfl
  | cons entry rest ih =>
    obtain ⟨n, x⟩ := entry
    rw [List.foldl_cons, ih, lookup_insert, lastValue?_cons, Option.or_assoc]
    by_cases bound : n = name
    · simp [bound]
    · simp [bound, Ne.symm bound]

theorem Bindings.lookup_ofList (entries : List (String × Float)) (name : String) :
    (ofList entries).lookup name = lastValue? entries name := by
  rw [ofList, lookup_foldl_insert, lookup_empty, Option.or_none]

theorem Keeps.lookup_eq {entries : List (String × Float)} {lookup : String → Option Float}
    (keeps : Keeps entries lookup) (name : String) : lookup name = lastValue? entries name := by
  cases keeps with
  | sorted => exact Bindings.lookup_ofList entries name
  | hashed =>
    dsimp only
    rw [Std.HashMap.ofList_eq_insertMany_empty, Std.HashMap.getElem?_insertMany_list,
      Std.HashMap.getElem?_empty, Option.or_none, lastValue?]
  | seen e x entries =>
    rw [lastValue?_cons, lastValue?_without, Curve.lookupAt]
    by_cases isMemory : name = memoryName
    · simp [isMemory]
    · simp [isMemory, Ne.symm isMemory, Bindings.lookup_ofList]

/-! ### Orders -/

def Distinct (entries : List (String × Float)) : Prop :=
  entries.Pairwise fun a b => a.1 ≠ b.1

theorem mem_of_lastValue? {entries : List (String × Float)} {name : String} {x : Float}
    (found : lastValue? entries name = some x) : (name, x) ∈ entries := by
  rw [lastValue?, List.findSomeRev?_eq_findSome?_reverse] at found
  obtain ⟨⟨n, y⟩, mem, chosen⟩ := List.exists_of_findSome?_eq_some found
  have bound : n = name ∧ y = x := by simpa using chosen
  rw [← bound.1, ← bound.2]
  exact List.mem_reverse.1 mem

theorem lastValue?_of_mem {entries : List (String × Float)} {name : String} {x : Float}
    (distinct : Distinct entries) (mem : (name, x) ∈ entries) :
    lastValue? entries name = some x := by
  induction entries with
  | nil => cases mem
  | cons entry rest ih =>
    obtain ⟨n, y⟩ := entry
    obtain ⟨first, later⟩ := List.pairwise_cons.1 distinct
    rw [lastValue?_cons]
    rcases List.mem_cons.1 mem with here | mem
    · cases here
      have absent : lastValue? rest name = none := Option.eq_none_iff_forall_ne_some.2 fun z found =>
        first _ (mem_of_lastValue? found) rfl
      rw [absent, Option.none_or, if_pos (beq_self_eq_true name)]
    · rw [ih later mem, Option.some_or]

theorem lastValue?_perm {entries entries' : List (String × Float)} (distinct : Distinct entries)
    (perm : entries.Perm entries') (name : String) :
    lastValue? entries name = lastValue? entries' name := by
  have distinct' : Distinct entries' := distinct.perm perm Ne.symm
  refine Option.ext fun x => ⟨fun found => ?_, fun found => ?_⟩
  · exact lastValue?_of_mem distinct' (perm.mem_iff.1 (mem_of_lastValue? found))
  · exact lastValue?_of_mem distinct (perm.mem_iff.2 (mem_of_lastValue? found))

theorem Keeps.lookup_perm {entries entries' : List (String × Float)}
    {lookup lookup' : String → Option Float} (keeps : Keeps entries lookup)
    (keeps' : Keeps entries' lookup') (distinct : Distinct entries)
    (perm : entries.Perm entries') : lookup = lookup' := by
  funext name
  rw [keeps.lookup_eq, keeps'.lookup_eq, lastValue?_perm distinct perm]

/-! ## Sessions -/

namespace Session

variable (s : Session)

theorem agreeOn_bind {name : String} (absent : .reference name ∉ s.engine.tape.toList) (x : Float) :
    Environment.AgreeOn ⟨s.memory.lookup, s.engine.stored⟩
      ⟨(s.bind name x).memory.lookup, s.engine.stored⟩ s.engine.tape.toList where
  lookup other mem := by
    have differs : other ≠ name := fun same => absent (same ▸ mem)
    exact ((s.lookup_bind name x other).trans (if_neg differs)).symm
  stored _ _ := rfl

theorem agreeOn_forget
    (absent : ∀ name, (s.memory.lookup name).isSome = true →
      .reference name ∉ s.engine.tape.toList) :
    Environment.AgreeOn ⟨s.memory.lookup, s.engine.stored⟩
      ⟨s.forget.memory.lookup, s.engine.stored⟩ s.engine.tape.toList where
  lookup name mem := Option.not_isSome_iff_eq_none.1 fun bound => absent name bound mem
  stored _ _ := rfl

end Session

/-- Evaluations that give the names of the tape the same values come out alike. So it does not
matter in which way and in which order names were bound, nor does it matter what is bound, stored
or cleared under names that the tape does not refer to. -/
theorem evaluate_reads_references :
    (∀ (tape : Tape) (env env' : Environment) (draws draws' : Draws),
      env.AgreeOn env' tape.toList → draws.AgreeOn draws' tape.toList →
      (Engine.mk tape env.stored).evaluate env.lookup draws =
        (Engine.mk tape env'.stored).evaluate env'.lookup draws') ∧
    (∀ (e : Engine) (entries entries' : List (String × Float))
        (lookup lookup' : String → Option Float) (draws draws' : Draws),
      Keeps entries lookup → Keeps entries' lookup' → Distinct entries → entries.Perm entries' →
      draws.AgreeOn draws' e.tape.toList →
      e.evaluate lookup draws = e.evaluate lookup' draws') ∧
    ∀ (s : Session) (draws draws' : Draws), draws.AgreeOn draws' s.engine.tape.toList →
      (∀ name x, .reference name ∉ s.engine.tape.toList →
        (s.bind name x).evaluate draws' = s.evaluate draws) ∧
      (∀ x, .reference memoryName ∉ s.engine.tape.toList →
        (s.store x).evaluate draws' = s.evaluate draws) ∧
      ((∀ name, (s.memory.lookup name).isSome = true → .reference name ∉ s.engine.tape.toList) →
        s.forget.evaluate draws' = s.evaluate draws) := by
  refine ⟨?_, ?_, fun s draws draws' agree => ⟨?_, ?_, ?_⟩⟩
  · intro tape env env' draws draws' names agree
    exact Engine.evaluate_eq_of_agree names agree
  · intro e entries entries' lookup lookup' draws draws' keeps keeps' distinct perm agree
    rw [keeps.lookup_perm keeps' distinct perm]
    exact Engine.evaluate_congr (fun _ _ => rfl) agree.take_eq
  · intro name x absent
    rw [Session.evaluate, s.engine_bind]
    exact (Engine.evaluate_eq_of_agree (s.agreeOn_bind absent x) agree).symm
  · intro x absent
    have stored : s.bind memoryName x = s.store x := if_pos rfl
    rw [← stored, Session.evaluate, s.engine_bind]
    exact (Engine.evaluate_eq_of_agree (s.agreeOn_bind absent x) agree).symm
  · intro absent
    exact (Engine.evaluate_eq_of_agree (s.agreeOn_forget absent) agree).symm

/-- A quotient by the empty slot, with a second name bound before or after the one it refers to. -/
theorem evaluate_reads_references_of_quotient :
    let entries : List (String × Float) := [("j", 1.0), ("k", 6.0)]
    let entries' : List (String × Float) := [("k", 6.0), ("j", 1.0)]
    let tokens : List Token := [.reference "k", .symbol "÷", .reference "M", .symbol "="]
    let draws : Draws := ⟨fun _ => 0.5, 0⟩
    let e : Engine := ⟨.ofList tokens, 0.0⟩
    let s : Session := ⟨e, .ofList [("k", 6.0)], false⟩
    Distinct entries ∧ entries.Perm entries' ∧ draws.AgreeOn draws tokens ∧
      .reference "j" ∉ tokens ∧
      (s.evaluate draws).error = some .divisionByZero ∧
      (s.bind "j" 1.0).evaluate draws = s.evaluate draws ∧
      e.evaluate (Bindings.ofList entries).lookup draws = s.evaluate draws ∧
      e.evaluate (fun name => (Std.HashMap.ofList entries')[name]?) draws = s.evaluate draws := by
  intro entries entries' tokens draws e s
  have distinct : Distinct entries := List.pairwise_pair.2 (by decide)
  have perm : entries.Perm entries' := List.Perm.swap _ _ _
  have agree : draws.AgreeOn draws tokens := .inl rfl
  have absent : .reference "j" ∉ tokens := by simp [tokens]
  obtain ⟨coincide, reordered, undisturbed⟩ := evaluate_reads_references
  have names : Environment.AgreeOn ⟨(Bindings.ofList entries).lookup, 0.0⟩ ⟨s.memory.lookup, 0.0⟩
      tokens := by
    refine ⟨fun name mem => ?_, fun _ _ => rfl⟩
    have known : name = "k" ∨ name = "M" := by simpa [tokens] using mem
    have first := Bindings.lookup_ofList entries name
    have second := Bindings.lookup_ofList [("k", 6.0)] name
    have alike : lastValue? entries name = lastValue? [("k", 6.0)] name := by
      rcases known with rfl | rfl <;> simp [entries, lastValue?, List.findSomeRev?]
    exact first.trans (alike.trans second.symm)
  have sorted := coincide (.ofList tokens) _ _ draws draws names agree
  have hashed := reordered e entries entries' _ _ draws draws (.sorted _) (.hashed _) distinct perm
    agree
  exact ⟨distinct, perm, agree, absent, by decide, (undisturbed s draws draws agree).1 "j" 1.0 absent,
    sorted, hashed.symm.trans sorted⟩

end Keytape
