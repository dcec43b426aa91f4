import Keytape.Program
import Keytape.Proofs.Reachable

/-! Names bound by arguments and recalled by words.

Arguments are read into the settings, whose table is replayed into a session before any key is
pressed. Main statement: the word of a name that arguments bind recalls the value that the last of
them gives it, and of malformed arguments the first is reported.
-/

set_option autoImplicit false

namespace Keytape

/-! ## Arguments -/

namespace Binding

theorem parse_eq_ok_iff {input : String} {b : Binding} :
    parse input = .ok b ↔ ofChars input.toList = .ok b := by
  rw [parse]
  cases ofChars input.toList with
  | error fault => exact ⟨nofun, nofun⟩
  | ok b' =>
    constructor
    · rintro ⟨⟩
      rfl
    · rintro ⟨⟩
      rfl

theorem eq_invalidBinding_of_parse {input : String} {e : Failure} (refused : parse input = .error e) :
    ∃ reason, e = .invalidBinding input reason := by
  rw [parse] at refused
  cases read : ofChars input.toList with
  | error fault =>
    rw [read] at refused
    cases refused
    exact ⟨fault.message, rfl⟩
  | ok b =>
    rw [read] at refused
    cases refused

theorem name_ne_empty {input : String} {b : Binding} (parsed : parse input = .ok b) :
    b.name ≠ "" := by
  rw [parse_eq_ok_iff, ofChars] at parsed
  split at parsed
  · cases parsed
  · dsimp only at parsed
    split at parsed
    · cases parsed
    · rename_i named
      split at parsed
      · cases parsed
        simpa using named
      · cases parsed

def valueFor? (name : String) (input : String) : Option Float :=
  match parse input with
  | .ok b => if b.name = name then some b.value else none
  | .error _ => none

def lastValue? (inputs : List String) (name : String) : Option Float :=
  inputs.reverse.findSome? (valueFor? name)

theorem lastValue?_cons (input : String) (rest : List String) (name : String) :
    lastValue? (input :: rest) name = (lastValue? rest name).or (valueFor? name input) := by
  simp [lastValue?, List.findSome?_append]

theorem isSome_lastValue? {inputs : List String} {name : String}
    (bound : ∃ input ∈ inputs, ∃ x, parse input = .ok ⟨name, x⟩) :
    (lastValue? inputs name).isSome = true := by
  obtain ⟨input, mem, x, parsed⟩ := bound
  refine List.findSome?_isSome_iff.2 ⟨input, List.mem_reverse.2 mem, ?_⟩
  rw [valueFor?, parsed]
  simp

end Binding

namespace Settings

/-- The last value of a name goes into the table; names that are not bound keep theirs. -/
theorem withBindingArgs_of_accepted {inputs : List String} (base : Settings)
    (accepted : ∀ input ∈ inputs, ∃ b, Binding.parse input = .ok b) :
    ∃ settings, base.withBindingArgs inputs = .ok settings ∧ ∀ name,
      settings.bindings.lookup name =
        (Binding.lastValue? inputs name).or (base.bindings.lookup name) := by
  induction inputs generalizing base with
  | nil => exact ⟨base, rfl, fun name => rfl⟩
  | cons input rest ih =>
    obtain ⟨⟨b, parsed⟩, later⟩ := List.forall_mem_cons.1 accepted
    obtain ⟨settings, built, looked⟩ := ih (base.withBinding b.name b.value) later
    refine ⟨settings, by rw [withBindingArgs, parsed]; exact built, fun name => ?_⟩
    have first : (base.withBinding b.name b.value).bindings.lookup name =
        (Binding.valueFor? name input).or (base.bindings.lookup name) := by
      rw [withBinding, Bindings.lookup_insert, Binding.valueFor?, parsed]
      by_cases same : name = b.name <;> simp [same, Ne.symm]
    rw [looked, first, Binding.lastValue?_cons, Option.or_assoc]

/-- What precedes a malformed argument does not hide it, nor does what follows it. -/
theorem withBindingArgs_of_malformed {inputs : List String} (base : Settings)
    (malformed : ∃ input ∈ inputs, ∀ b, Binding.parse input ≠ .ok b) :
    ∃ before input after e, inputs = before ++ input :: after ∧
      (∀ earlier ∈ before, ∃ b, Binding.parse earlier = .ok b) ∧
      Binding.parse input = .error e ∧ base.withBindingArgs inputs = .error e := by
  induction inputs generalizing base with
  | nil =>
    obtain ⟨_, mem, _⟩ := malformed
    cases mem
  | cons input rest ih =>
    cases parsed : Binding.parse input with
    | error e =>
      exact ⟨[], input, rest, e, rfl, nofun, parsed, by rw [withBindingArgs, parsed]⟩
    | ok b =>
      obtain ⟨bad, mem, refused⟩ := malformed
      rcases List.mem_cons.1 mem with rfl | mem
      · exact absurd parsed (refused b)
      · obtain ⟨before, input', after, e, split, accepted, fault, failed⟩ :=
          ih (base.withBinding b.name b.value) ⟨bad, mem, refused⟩
        refine ⟨input :: before, input', after, e, congrArg (input :: ·) split, ?_, fault, ?_⟩
        · exact List.forall_mem_cons.2 ⟨⟨b, parsed⟩, accepted⟩
        · rw [withBindingArgs, parsed]
          exact failed

end Settings

/-! ## Sessions -/

namespace Program

theorem engine_session (settings : Settings) : (session settings).engine = .new := by
  have bound (names : List (String × Float)) (s : Session) :
      (names.foldl (fun session entry => session.bind entry.1 entry.2) s).engine = s.engine := by
    induction names generalizing s with
    | nil => rfl
    | cons entry rest ih => exact (ih _).trans (s.engine_bind entry.1 entry.2)
  exact bound settings.bindings.entries .new

/-- The table is rebuilt entry by entry, the memory slot among them. -/
theorem memory_session (settings : Settings) : (session settings).memory = settings.bindings := by
  have bound (later : List (String × Float)) (s : Session)
      (split : settings.bindings.entries = s.memory.entries ++ later) :
      (later.foldl (fun session entry => session.bind entry.1 entry.2) s).memory =
        settings.bindings := by
    induction later generalizing s with
    | nil => exact (Bindings.ext (split.trans (List.append_nil _))).symm
    | cons entry rest ih =>
      refine ih _ ?_
      rw [Session.memory_bind]
      exact Bindings.entries_eq_insert_append split
  exact bound settings.bindings.entries .new rfl

end Program

/-! ## Words -/

theorem Numeral.readChars?_dollar (cs : List Char) : readChars? ('$' :: cs) = none := by
  have unnamed : named? ('$' :: cs) = none := by simp [named?]
  have unread : Decimal.parse? ('$' :: cs) = none := by simp [Decimal.parse?, Decimal.fraction]
  rw [readChars?, unsigned?, unnamed, unread]
  all_goals simp

theorem Key.ofName_dollar {word : String} {c : Char} {rest : List Char}
    (text : word.toList = '$' :: c :: rest) : ofName word = .recall (String.ofList (c :: rest)) := by
  unfold ofName
  split
  case h_7 =>
    rw [text]
    rfl
  -- No word with a key of its own starts with a dollar sign.
  all_goals simp at text

theorem Key.ofWord_dollar {name : String} (named : name ≠ "") :
    ofWord ("$" ++ name) = .recall name := by
  have text : ("$" ++ name).toList = '$' :: name.toList := by simp
  have unread : Numeral.read? ("$" ++ name) = none := by
    rw [Numeral.read?, text, Numeral.readChars?_dollar]
  obtain ⟨c, rest, shape⟩ := List.exists_cons_of_ne_nil (mt String.toList_eq_nil_iff.1 named)
  rw [ofWord, unread]
  refine (ofName_dollar (text.trans (congrArg _ shape))).trans ?_
  rw [← shape, String.ofList_toList]

theorem Session.evaluate_reference {s : Session} {name : String} {x : Float}
    (fresh : s.engine = .new) (bound : s.memory.lookup name = some x) (draws : Draws) :
    (s.append (.reference name)).evaluate draws = ⟨some x, false, name, none⟩ := by
  have entered : Environment.resolve ⟨s.memory.lookup, 0.0⟩ name = .named name x :=
    Environment.resolve_bound bound
  have run : (s.append (.reference name)).engine.run s.memory.lookup draws =
      (Progress.start draws).put (.named name x) := by
    rw [append, fresh, ← entered]
    rfl
  exact congrArg Progress.outcome run

/-- If every argument is accepted, the settings hold them all; then the word of a name that one
of them binds recalls the value of the last that binds it, whatever else is bound. Otherwise the
first malformed argument is reported. -/
theorem recall_of_bound (base : Settings) (inputs : List String) :
    ((∀ input ∈ inputs, ∃ b, Binding.parse input = .ok b) →
      ∃ settings, base.withBindingArgs inputs = .ok settings ∧
        ∀ name, (∃ input ∈ inputs, ∃ x, Binding.parse input = .ok ⟨name, x⟩) →
          ∃ x, Binding.lastValue? inputs name = some x ∧ ∀ draws draws',
            let pressed := (Key.ofWord ("$" ++ name)).press (Program.session settings) draws
            pressed.1.evaluate draws' = ⟨some x, false, name, none⟩) ∧
    ((∃ input ∈ inputs, ∀ b, Binding.parse input ≠ .ok b) →
      ∃ before input after reason, inputs = before ++ input :: after ∧
        (∀ earlier ∈ before, ∃ b, Binding.parse earlier = .ok b) ∧
        Binding.parse input = .error (.invalidBinding input reason) ∧
        base.withBindingArgs inputs = .error (.invalidBinding input reason)) := by
  constructor
  · intro accepted
    obtain ⟨settings, built, looked⟩ := base.withBindingArgs_of_accepted accepted
    refine ⟨settings, built, fun name bound => ?_⟩
    obtain ⟨x, last⟩ := Option.isSome_iff_exists.1 (Binding.isSome_lastValue? bound)
    obtain ⟨input, _, y, parsed⟩ := bound
    refine ⟨x, last, fun draws draws' => ?_⟩
    rw [Key.ofWord_dollar (Binding.name_ne_empty parsed)]
    refine Session.evaluate_reference (Program.engine_session settings) ?_ draws'
    rw [Program.memory_session, looked, last, Option.some_or]
  · intro malformed
    obtain ⟨before, input, after, e, split, accepted, refused, failed⟩ :=
      base.withBindingArgs_of_malformed malformed
    obtain ⟨reason, rfl⟩ := Binding.eq_invalidBinding_of_parse refused
    exact ⟨before, input, after, reason, split, accepted, refused, failed⟩

/-- The slot and a name with a blank in it are bound twice; among other arguments, the second of
three is the first that is malformed. -/
theorem recall_of_bound_twice :
    let inputs := ["M=1", "a b = 2.5", " M = -3", "a b\t=4"]
    let malformed := ["M=1", "a b", "=2"]
    let draws : Draws := ⟨fun _ => 0.5, 0⟩
    (∃ settings, Settings.default.withBindingArgs inputs = .ok settings ∧
      ((Key.ofWord "$M").press (Program.session settings) draws).1.evaluate draws =
        ⟨some (-3.0), false, "M", none⟩ ∧
      ((Key.ofWord "$a b").press (Program.session settings) draws).1.evaluate draws =
        ⟨some 4.0, false, "a b", none⟩) ∧
    ∃ before after, malformed = before ++ "a b" :: after ∧
      Settings.default.withBindingArgs malformed =
        .error (.invalidBinding "a b" "expected NAME=VALUE") := by
  intro inputs malformed draws
  constructor
  · have accepted : ∀ input ∈ inputs, ∃ b, Binding.parse input = .ok b := by
      simp only [inputs, List.forall_mem_cons]
      exact ⟨⟨_, rfl⟩, ⟨_, rfl⟩, ⟨_, rfl⟩, ⟨_, rfl⟩, nofun⟩
    obtain ⟨settings, built, recalled⟩ := (recall_of_bound .default inputs).1 accepted
    obtain ⟨x, lastSlot, slot⟩ := recalled "M" ⟨"M=1", by decide, 1.0, rfl⟩
    obtain ⟨y, lastName, named⟩ := recalled "a b" ⟨"a b\t=4", by decide, 4.0, rfl⟩
    cases lastSlot
    cases lastName
    exact ⟨settings, built, slot draws draws, named draws draws⟩
  · obtain ⟨before, input, after, reason, split, _, _, failed⟩ :=
      (recall_of_bound .default malformed).2 ⟨"a b", by decide, nofun⟩
    have reported : Settings.default.withBindingArgs malformed =
        .error (.invalidBinding "a b" "expected NAME=VALUE") := rfl
    cases failed.symm.trans reported
    exact ⟨before, after, split, reported⟩

end Keytape
