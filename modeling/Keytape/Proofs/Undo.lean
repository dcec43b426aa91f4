import Mathlib.Data.List.DropRight
import Keytape.Proofs.Reachable

/-! Undoing.

An undo takes back the newest token that no undo has taken back before it, as a closing bracket
belongs to the nearest open one. Main statements: edits whose undos and tokens match leave a
session as it was, and of any edits from an empty tape on there remain the tokens that no later
undo belongs to. What is done to the memory in between is not undone and undoes nothing.
-/

set_option autoImplicit false

namespace Keytape

/-- What is done to a session between two answers. -/
inductive Edit where
  | append (t : Token)
  | undo
  | store (x : Float)
  | bind (name : String) (x : Float)
  | forget

namespace Edit

def isMemory : Edit → Bool
  | .append _ | .undo => false
  | .store _ | .bind .. | .forget => true

/-- Tokens and undos match like brackets, whatever is done to the memory in between. -/
inductive Balanced : List Edit → Prop where
  | nil : Balanced []
  | memory {edit : Edit} : edit.isMemory = true → Balanced [edit]
  | matched (t : Token) {inner : List Edit} : Balanced inner →
      Balanced (.append t :: inner ++ [.undo])
  | join {first later : List Edit} : Balanced first → Balanced later → Balanced (first ++ later)

/-- A token that is followed by the edits is taken back by the undo that matches it. -/
def Undone (rest : List Edit) : Prop :=
  ∃ inner later, rest = inner ++ .undo :: later ∧ Balanced inner

/-- The number of undos that match none of the tokens. -/
def excess : List Edit → Nat
  | [] => 0
  | .append _ :: rest => excess rest - 1
  | .undo :: rest => excess rest + 1
  | .store _ :: rest | .bind .. :: rest | .forget :: rest => excess rest

theorem excess_memory {edit : Edit} (h : edit.isMemory = true) (rest : List Edit) :
    excess (edit :: rest) = excess rest := by
  cases edit with
  | append t => cases h
  | undo => cases h
  | store x => rfl
  | bind name x => rfl
  | forget => rfl

theorem Balanced.excess_append {edits : List Edit} (h : Balanced edits) (rest : List Edit) :
    excess (edits ++ rest) = excess rest := by
  induction h generalizing rest with
  | nil => rfl
  | memory h => exact excess_memory h rest
  | matched t _ ih =>
    rw [List.cons_append, List.cons_append, List.append_assoc, excess, ih]
    rfl
  | join _ _ ihf ihl => rw [List.append_assoc, ihf, ihl]

theorem Balanced.before_undone {inner rest : List Edit} (balanced : Balanced inner)
    (h : Undone rest) : Undone (inner ++ rest) := by
  obtain ⟨inner', later, rfl, balanced'⟩ := h
  exact ⟨inner ++ inner', later, (List.append_assoc ..).symm, balanced.join balanced'⟩

/-- A token in front of two undos too many matches the first and leaves the second. -/
theorem undone_of_excess (rest : List Edit) (h : 0 < excess rest) : Undone rest := by
  match rest with
  | [] => cases h
  | .undo :: later => exact ⟨[], later, rfl, .nil⟩
  | .store x :: rest => exact (Balanced.memory rfl).before_undone (undone_of_excess rest h)
  | .bind name x :: rest => exact (Balanced.memory rfl).before_undone (undone_of_excess rest h)
  | .forget :: rest => exact (Balanced.memory rfl).before_undone (undone_of_excess rest h)
  | .append t :: rest =>
    rw [excess] at h
    obtain ⟨inner, later, split, balanced⟩ := undone_of_excess rest (by omega)
    have more : 0 < excess later := by
      rw [split, balanced.excess_append, excess] at h
      exact h
    have shorter : later.length < (Edit.append t :: rest).length := by
      rw [split]
      simp
      omega
    have undone := (Balanced.matched t balanced).before_undone (undone_of_excess later more)
    rw [split]
    simpa using undone
  termination_by rest.length

theorem undone_iff (rest : List Edit) : Undone rest ↔ 0 < excess rest := by
  refine ⟨?_, undone_of_excess rest⟩
  rintro ⟨inner, later, rfl, balanced⟩
  rw [balanced.excess_append]
  exact Nat.succ_pos _

instance (rest : List Edit) : Decidable (Undone rest) := decidable_of_iff' _ (undone_iff rest)

/-- The tokens that no later undo takes back, in order. -/
def survivors : List Edit → List Token
  | [] => []
  | .append t :: rest => if Undone rest then survivors rest else t :: survivors rest
  | .undo :: rest | .store _ :: rest | .bind .. :: rest | .forget :: rest => survivors rest

end Edit

/-! ## Engines -/

namespace Engine

def edit (e : Engine) : Edit → Engine
  | .append t => e.append t
  | .undo => e.undo
  | .store _ | .bind .. | .forget => e

def edits (e : Engine) (edits : List Edit) : Engine := edits.foldl edit e

theorem stored_edits (e : Engine) (edits : List Edit) : (e.edits edits).stored = e.stored := by
  induction edits generalizing e with
  | nil => rfl
  | cons edit rest ih =>
    refine (ih (e.edit edit)).trans ?_
    cases edit <;> rfl

/-- Undos that match no token take away from the tape as it was before. -/
theorem toList_tape_edits (e : Engine) (edits : List Edit) : (e.edits edits).tape.toList =
    e.tape.toList.rdrop (Edit.excess edits) ++ Edit.survivors edits := by
  induction edits generalizing e with
  | nil => simp [Engine.edits, Edit.excess, Edit.survivors]
  | cons edit rest ih =>
    have next : (e.edits (edit :: rest)).tape.toList = ((e.edit edit).edits rest).tape.toList := rfl
    rw [next, ih]
    cases edit with
    | append t =>
      have tape : (e.edit (.append t)).tape.toList = e.tape.toList ++ [t] := rfl
      rw [tape, Edit.survivors, Edit.excess]
      by_cases undone : Edit.Undone rest
      · obtain ⟨n, more⟩ := Nat.exists_eq_succ_of_ne_zero
          (Nat.ne_of_gt ((Edit.undone_iff rest).1 undone))
        rw [if_pos undone, more, List.rdrop_concat_succ, Nat.succ_sub_one]
      · have none : Edit.excess rest = 0 :=
          Nat.eq_zero_of_not_pos fun more => undone ((Edit.undone_iff rest).2 more)
        simp [if_neg undone, none]
    | undo =>
      have tape : (e.edit .undo).tape.toList = e.tape.toList.dropLast := rfl
      rw [tape, Edit.survivors, Edit.excess, List.dropLast_eq_take, List.rdrop, List.rdrop,
        List.take_take, List.length_take]
      congr 2
      omega
    | store x => rfl
    | bind name x => rfl
    | forget => rfl

theorem edits_append (e : Engine) (first later : List Edit) :
    e.edits (first ++ later) = (e.edits first).edits later :=
  List.foldl_append

theorem undo_append (e : Engine) (t : Token) : (e.append t).undo = e := by
  rw [append, undo, Tape.pop_push]

theorem edits_of_balanced (e : Engine) {edits : List Edit} (h : Edit.Balanced edits) :
    e.edits edits = e := by
  induction h generalizing e with
  | nil => rfl
  | @memory edit h =>
    cases edit with
    | append t => cases h
    | undo => cases h
    | store x => rfl
    | bind name x => rfl
    | forget => rfl
  | matched t _ ih =>
    rw [List.cons_append, ← List.singleton_append, edits_append, edits_append]
    exact (congrArg undo (ih (e.append t))).trans (e.undo_append t)
  | join _ _ ihf ihl => rw [edits_append, ihf, ihl]

theorem foldl_append_eq (e : Engine) (tokens : List Token) :
    tokens.foldl append e = ⟨.ofList (e.tape.toList ++ tokens), e.stored⟩ := by
  induction tokens generalizing e with
  | nil => rw [List.append_nil]; rfl
  | cons t rest ih =>
    rw [List.foldl_cons, ih, append, Tape.toList_push, List.append_assoc, List.singleton_append]

theorem edits_of_empty (e : Engine) (empty : e.tape = .empty) (edits : List Edit) :
    e.edits edits = (Edit.survivors edits).foldl append ⟨.empty, e.stored⟩ := by
  have tape := e.toList_tape_edits edits
  have blank : List.rdrop ([] : List Token) (Edit.excess edits) = [] := List.rdrop_nil ..
  rw [empty, Tape.toList_empty, blank, List.nil_append] at tape
  rw [foldl_append_eq, Tape.toList_empty, List.nil_append, ← tape, ← e.stored_edits edits]
  rfl

end Engine

/-! ## Sessions -/

namespace Session

def edit (s : Session) : Edit → Session
  | .append t => s.append t
  | .undo => s.undo
  | .store x => s.store x
  | .bind name x => s.bind name x
  | .forget => s.forget

def edits (s : Session) (edits : List Edit) : Session := edits.foldl edit s

theorem engine_edits (s : Session) (edits : List Edit) :
    (s.edits edits).engine = s.engine.edits edits := by
  induction edits generalizing s with
  | nil => rfl
  | cons edit rest ih =>
    refine (ih (s.edit edit)).trans (congrArg (Engine.edits · rest) ?_)
    cases edit with
    | bind name x => exact s.engine_bind name x
    | _ => rfl

def SameMemory (s s' : Session) : Prop := s.memory = s'.memory ∧ s.memorySet = s'.memorySet

theorem SameMemory.bind {s s' : Session} (same : s.SameMemory s') (name : String) (x : Float) :
    (s.bind name x).SameMemory (s'.bind name x) := by
  obtain ⟨memory, noted⟩ := same
  unfold Session.bind
  split
  · exact ⟨congrArg (Bindings.insert · memoryName x) memory, rfl⟩
  · exact ⟨congrArg (Bindings.insert · name x) memory, noted⟩

/-- Edits of the tape leave no trace in the memory. -/
theorem sameMemory_edits {s s' : Session} (same : s.SameMemory s') (edits : List Edit) :
    (s.edits edits).SameMemory (s'.edits (edits.filter Edit.isMemory)) := by
  induction edits generalizing s s' with
  | nil => exact same
  | cons edit rest ih =>
    cases edit with
    | append t => exact @ih (s.append t) s' same
    | undo => exact @ih s.undo s' same
    | store x => exact ih ⟨congrArg (Bindings.insert · memoryName x) same.1, rfl⟩
    | bind name x => exact ih (same.bind name x)
    | forget => exact ih ⟨rfl, rfl⟩

theorem eq_of_sameMemory {s s' : Session} (engine : s.engine = s'.engine)
    (same : s.SameMemory s') : s = s' := by
  obtain ⟨e, memory, noted⟩ := s
  obtain ⟨rfl, rfl⟩ := same
  cases engine
  rfl

end Session

namespace Edit

theorem balanced_of_memory {edits : List Edit} (h : ∀ edit ∈ edits, edit.isMemory = true) :
    Balanced edits := by
  induction edits with
  | nil => exact .nil
  | cons edit rest ih =>
    obtain ⟨first, later⟩ := List.forall_mem_cons.1 h
    exact (Balanced.memory first).join (ih later)

theorem excess_filter (edits : List Edit) :
    excess (edits.filter fun edit => !edit.isMemory) = excess edits := by
  induction edits with
  | nil => rfl
  | cons edit rest ih =>
    cases edit with
    | append t => exact congrArg (· - 1) ih
    | undo => exact congrArg (· + 1) ih
    | store x => exact ih
    | bind name x => exact ih
    | forget => exact ih

theorem survivors_filter (edits : List Edit) :
    survivors (edits.filter fun edit => !edit.isMemory) = survivors edits := by
  induction edits with
  | nil => rfl
  | cons edit rest ih =>
    cases edit with
    | append t =>
      have kept : (Edit.append t :: rest).filter (fun edit => !edit.isMemory) =
          .append t :: rest.filter (fun edit => !edit.isMemory) := rfl
      have undone : Undone (rest.filter fun edit => !edit.isMemory) ↔ Undone rest := by
        rw [undone_iff, undone_iff, excess_filter]
      rw [kept, survivors, survivors, ih]
      exact if_congr undone rfl rfl
    | undo => exact ih
    | store x => exact ih
    | bind name x => exact ih
    | forget => exact ih

end Edit

/-- Edits whose undos match their tokens leave an engine as it was, and of a session change no more
than they do to its memory. From an empty tape on, any edits come to a new engine with the tokens
that no later undo takes back, and neither these nor the memory depend on how the edits of the tape
and of the memory are interleaved. -/
theorem edits_eq_survivors :
    (∀ (e : Engine) (edits : List Edit), Edit.Balanced edits → e.edits edits = e) ∧
    (∀ (s : Session) (edits : List Edit), Edit.Balanced edits →
      s.edits edits = s.edits (edits.filter Edit.isMemory) ∧
      ((∀ edit ∈ edits, edit.isMemory = false) →
        s.edits edits = s ∧ ∀ draws, (s.edits edits).display draws = s.display draws)) ∧
    ∀ (s : Session) (edits : List Edit), s.engine.tape = .empty →
      let kept := (Edit.survivors edits).foldl Engine.append ⟨.empty, s.engine.stored⟩
      s.engine.edits edits = kept ∧ (s.edits edits).engine = kept ∧
      (∀ lookup draws, (s.edits edits).engine.evaluate lookup draws = kept.evaluate lookup draws) ∧
      Edit.survivors edits = Edit.survivors (edits.filter fun edit => !edit.isMemory) ∧
      (s.edits edits).SameMemory (s.edits (edits.filter Edit.isMemory)) := by
  refine ⟨fun e edits balanced => e.edits_of_balanced balanced, ?_, ?_⟩
  · intro s edits balanced
    have rest : s.edits edits = s.edits (edits.filter Edit.isMemory) := by
      refine Session.eq_of_sameMemory ?_ (Session.sameMemory_edits ⟨rfl, rfl⟩ edits)
      have memory : Edit.Balanced (edits.filter Edit.isMemory) :=
        Edit.balanced_of_memory fun edit mem => (List.mem_filter.1 mem).2
      rw [Session.engine_edits, Session.engine_edits, Engine.edits_of_balanced _ balanced,
        Engine.edits_of_balanced _ memory]
    refine ⟨rest, fun tapeOnly => ?_⟩
    have none : edits.filter Edit.isMemory = [] :=
      List.filter_eq_nil_iff.2 fun edit mem => by simp [tapeOnly edit mem]
    have same : s.edits edits = s := by rw [rest, none]; rfl
    exact ⟨same, fun draws => by rw [same]⟩
  · intro s edits empty kept
    have engine : s.engine.edits edits = kept := s.engine.edits_of_empty empty edits
    have session : (s.edits edits).engine = kept := (s.engine_edits edits).trans engine
    refine ⟨engine, session, fun lookup draws => by rw [session], ?_, ?_⟩
    · exact (Edit.survivors_filter edits).symm
    · exact Session.sameMemory_edits ⟨rfl, rfl⟩ edits

/-- The first undo has nothing to take back, and two later ones reach past what is stored. -/
theorem edits_eq_survivors_past_memory :
    let edits : List Edit := [.undo, .append (.literal 4.0), .append (.symbol "√"), .store 5.0,
      .undo, .undo, .append (.literal 9.0), .append (.symbol "x²")]
    let later : List Edit := [.append (.symbol "+"), .append (.reference "M"), .undo, .undo]
    Edit.Balanced later ∧ (∀ edit ∈ later, edit.isMemory = false) ∧
      Edit.survivors edits = [.literal 9.0, .symbol "x²"] ∧
      ((Session.new.edits edits).engine.evaluate unbound ⟨fun _ => 0.5, 0⟩).value = some 81.0 ∧
      (Session.new.edits edits).edits later = Session.new.edits edits := by
  intro edits later
  obtain ⟨_, balanced, arbitrary⟩ := edits_eq_survivors
  have matched : Edit.Balanced later := .matched (.symbol "+") (.matched (.reference "M") .nil)
  have tapeOnly : ∀ edit ∈ later, edit.isMemory = false := by simp [later, Edit.isMemory]
  have kept : Edit.survivors edits = [.literal 9.0, .symbol "x²"] := rfl
  have evaluated := (arbitrary Session.new edits rfl).2.2.1 unbound ⟨fun _ => 0.5, 0⟩
  rw [kept] at evaluated
  refine ⟨matched, tapeOnly, kept, ?_, ((balanced _ later matched).2 tapeOnly).1⟩
  exact (congrArg Outcome.value evaluated).trans (by decide)

end Keytape
