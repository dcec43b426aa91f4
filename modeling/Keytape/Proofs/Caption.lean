import Mathlib.Tactic.TFAE
import Keytape.Proofs.Bindings
import Keytape.Proofs.Phase
import Keytape.Proofs.Report
import Keytape.Proofs.Title

/-! What an empty calculator shows.

A caption is empty where nothing is described. It would be empty as well where all there is to
describe is a value under an empty name, but no word is a key to such a name. Main statement:
after any words the caption is empty, and a curve is titled `Graph`, just when there is no operand
on the tape.
-/

set_option autoImplicit false

namespace Keytape

/-! ## Written formulas -/

theorem UnaryOp.parenthesis_mem_describe (op : UnaryOp) (x : String) :
    '(' ∈ (op.describe x).toList := by
  rw [op.toList_describe]
  cases op <;> simp [opening]

theorem BinaryOp.space_mem_describe (op : BinaryOp) (x y : String) :
    ' ' ∈ (op.describe x y).toList := by
  rw [op.toList_describe]
  simp

section
variable {text : Entry → String} {other : String}

/-- Operations write parentheses and spaces, so only a lone operand is written without them. -/
theorem Formula.write_ne {f : Formula} (unmarked : ∀ c ∈ other.toList, ¬ IsMark c)
    (entries : ∀ e ∈ f.entries, text e ≠ other) : f.write text ≠ other := by
  cases f with
  | entry e => exact entries e (List.mem_singleton_self e)
  | unary op f =>
    rintro rfl
    exact unmarked _ (op.parenthesis_mem_describe _) (.inr (.inl rfl))
  | binary op l r =>
    rintro rfl
    exact unmarked _ (op.space_mem_describe _ _) (.inl rfl)

theorem Outline.write_ne {o : Outline} (unmarked : ∀ c ∈ other.toList, ¬ IsMark c)
    (entries : ∀ e ∈ o.entries, text e ≠ other) (filled : o ≠ .empty) : o.write text ≠ other := by
  cases o with
  | empty => exact absurd rfl filled
  | holding acc => exact Formula.write_ne unmarked entries
  | awaiting left op right =>
    rintro rfl
    exact unmarked _ (op.space_mem_describe _ _) (.inl rfl)

theorem Outline.write_eq_empty_iff {o : Outline} (shown : ∀ e ∈ o.entries, text e ≠ "") :
    o.write text = "" ↔ o = .empty := by
  constructor
  · intro blank
    by_contra filled
    exact Outline.write_ne (by simp) shown filled blank
  · rintro rfl
    rfl

end

/-! ## Evaluations of an empty tape -/

namespace Engine

variable (e : Engine) (lookup : String → Option Float) (draws : Draws)

theorem outline_eq_empty_iff : e.outline = .empty ↔
    (e.evaluate lookup draws).value = none ∧ (e.evaluate lookup draws).isPending = false := by
  rw [← Option.isNone_iff_eq_none, ← Option.isSome_eq_false_iff, e.isSome_value_evaluate,
    e.isPending_evaluate]
  cases e.outline <;> simp [Outline.hasValue, Outline.isPending]

theorem settled_valueless_iff :
    (e.evaluate lookup draws).value = none ∧ (e.evaluate lookup draws).isPending = false ↔
      ∀ t ∈ e.tape.toList, t.role ≠ .operand := by
  have phase : (e.run lookup draws).state.phase = Phase.empty.after e.tape.toList :=
    Progress.phase_run ⟨lookup, e.stored⟩ (.start draws) e.tape.toList
  rw [← Phase.after_empty_eq_empty_iff, ← phase, ← Option.isNone_iff_eq_none,
    ← Option.isSome_eq_false_iff]
  change (e.run lookup draws).state.value?.isSome = false ∧
    (e.run lookup draws).state.isPending = false ↔ _
  -- Of the four phases only the empty one has no value and is not pending.
  rw [← State.hasValue_phase, ← State.isPending_phase]
  cases (e.run lookup draws).state.phase <;> simp

end Engine

/-! ## Names that have a text -/

/-- Every reference on the tape has a name to show. -/
def Engine.Named (e : Engine) : Prop := Token.reference "" ∉ e.tape.toList

namespace Engine.Named

variable {e : Engine}

theorem append (named : e.Named) {t : Token} (shown : t ≠ .reference "") : (e.append t).Named := by
  intro mem
  rcases List.mem_append.1 mem with old | new
  · exact named old
  · exact shown (List.mem_singleton.1 new).symm

theorem undo (named : e.Named) : e.undo.Named := fun mem => named (List.mem_of_mem_dropLast mem)

theorem text_ne_empty (named : e.Named) (env : Environment) (draws : Draws) :
    ∀ entry ∈ e.outline.entries, entry.text env draws ≠ "" := by
  intro entry mem
  cases entry with
  | literal x => exact Numeral.write_ne_empty x
  | reference name =>
    rw [Entry.text_reference]
    split
    · rintro rfl
      exact named (Engine.token_mem_of_entries mem)
    · split <;> decide
  | constant c =>
    have symbol : c.symbol ≠ "" := by cases c <;> decide
    exact symbol
  | draw earlier => exact Numeral.write_ne_empty _

theorem description_eq_empty_iff (named : e.Named) (lookup : String → Option Float)
    (draws : Draws) : (e.evaluate lookup draws).description = "" ↔ e.outline = .empty := by
  rw [e.description_evaluate, Outline.write_eq_empty_iff (named.text_ne_empty _ _)]

end Engine.Named

theorem Key.name_ne_empty {word name : String} (key : ofWord word = .recall name) : name ≠ "" := by
  unfold ofWord ofName at key
  split at key
  · cases key
  · split at key
    any_goals cases key
    -- What is left is a word without a key of its own: a name stands behind a dollar sign.
    split at key
    · cases key
      simp
    · cases key

theorem Key.named_press {s : Session} (named : s.engine.Named) (word : String) (draws : Draws) :
    ((ofWord word).press s draws).1.engine.Named := by
  cases key : ofWord word with
  | operand x => exact named.append nofun
  | operation symbol => exact named.append nofun
  | recallMemory => exact named.append (by simp [memoryName])
  | storeMemory => exact named
  | clearMemory => exact named
  | clear => exact nofun
  | undo => exact named.undo
  | _ => exact named.append fun same => name_ne_empty key (Token.reference.inj same)

theorem Session.named_pressWords {s : Session} (named : s.engine.Named) (draws : Draws)
    (words : List String) : (s.pressWords draws words).1.engine.Named := by
  induction words generalizing s draws with
  | nil => exact named
  | cons word rest ih => exact ih (Key.named_press named word draws) _

theorem Program.named_session (settings : Settings) : (session settings).engine.Named := by
  rw [engine_session]
  exact nofun

/-! ## Titles -/

theorem Entry.text_unbound_ne_graph (stored : Float) (draws : Draws) (e : Entry) :
    e.text ⟨unbound, stored⟩ draws ≠ "Graph" := by
  have numeral : ∀ x, Numeral.write x ≠ "Graph" := Numeral.write_ne (by decide)
  cases e with
  | literal x => exact numeral x
  | reference name =>
    rw [text_reference_unbound]
    split <;> decide
  | constant c =>
    have symbol : c.symbol ≠ "Graph" := by cases c <;> decide
    exact symbol
  | draw earlier => exact numeral _

theorem Curve.title_eq_graph_iff (c : Curve) (draws : Draws) :
    c.title draws = "Graph" ↔ c.engine.outline = .empty := by
  have titled : c.title draws = titleOf (c.engine.evaluate unbound draws).description := rfl
  rw [titled, c.engine.description_evaluate]
  constructor
  · intro graph
    by_contra filled
    have shown (e : Entry) : e.text ⟨unbound, c.engine.stored⟩ draws ≠ "" := fun blank =>
      (e.filled_text_unbound c.engine.stored draws).ne_nil (congrArg String.toList blank)
    rw [titleOf_of_ne_empty (Outline.write_ne (by simp) (fun e _ => shown e) filled)] at graph
    exact Outline.write_ne (by simp [IsMark]) (fun e _ => e.text_unbound_ne_graph _ _) filled graph
  · intro empty
    rw [empty]
    rfl

/-! ## Captions -/

/-- The caption ends in dots or in an equals sign. -/
def Display.Marked (d : Display) : Prop :=
  "...".toList <:+ d.caption.toList ∨ " =".toList <:+ d.caption.toList

namespace Display

theorem captionOf_eq_empty_iff (o : Outcome) : captionOf o = "" ↔ o.description = "" := by
  rw [captionOf_eq]
  split
  · rename_i blank
    exact iff_of_true rfl blank
  · rename_i shown
    exact iff_of_false (fun empty => shown (String.append_eq_empty_iff.1 empty).1) shown

theorem not_marked_iff {d : Display} {o : Outcome} (caption : d.caption = captionOf o) :
    ¬ d.Marked ↔ d.caption = "" := by
  rw [Marked, caption, captionOf_eq]
  split
  · simp
  · cases o.isPending <;> simp

end Display

/-- After any words, whatever names are bound before them, these come to the same: the caption is
empty; there is no value and nothing is awaited; no operand is left on the tape; the caption ends
in no mark; and the curve is titled `Graph`. -/
theorem caption_empty_tfae (settings : Settings) (draws : Draws) (words : List String)
    (displaying evaluating graphing titling : Draws) :
    let s := ((Program.session settings).pressWords draws words).1
    [(s.display displaying).caption = "",
      (s.evaluate evaluating).value = none ∧ (s.evaluate evaluating).isPending = false,
      ∀ t ∈ s.engine.tape.toList, t.role ≠ .operand,
      ¬ (s.display displaying).Marked,
      ∃ c, s.curve? graphing = some c ∧ c.title titling = "Graph"].TFAE := by
  intro s
  -- Each of these says that the outline is empty. Only the caption asks for names that show
  -- something, as a title leaves bound names out.
  have named : s.engine.Named := Session.named_pressWords (Program.named_session settings) draws words
  have caption : (s.display displaying).caption = "" ↔ s.engine.outline = .empty :=
    (Display.captionOf_eq_empty_iff _).trans (named.description_eq_empty_iff _ displaying)
  have settled := s.engine.outline_eq_empty_iff s.memory.lookup evaluating
  tfae_have 1 ↔ 2 := caption.trans settled
  tfae_have 2 ↔ 3 := s.engine.settled_valueless_iff s.memory.lookup evaluating
  tfae_have 4 ↔ 1 := Display.not_marked_iff (o := s.evaluate displaying) rfl
  tfae_have 1 → 5 := by
    intro blank
    have empty := caption.1 blank
    refine ⟨⟨s.engine, s.memory⟩, ?_, (Curve.title_eq_graph_iff _ _).2 empty⟩
    exact (s.curve?_eq_some_iff graphing _).2 ⟨by rw [empty]; rfl, rfl⟩
  tfae_have 5 → 1 := by
    rintro ⟨c, graphed, titled⟩
    obtain ⟨_, rfl⟩ := (s.curve?_eq_some_iff graphing c).1 graphed
    exact caption.2 ((Curve.title_eq_graph_iff _ _).1 titled)
  tfae_finish

/-- A name that no word is a key to: what it describes is there, and is not seen. -/
example :
    let draws : Draws := ⟨fun _ => 0.5, 0⟩
    let s := (Session.new.bind "" 2.0).append (.reference "")
    (s.display draws).caption = "" ∧ (s.evaluate draws).value = some 2.0 := by
  decide

end Keytape
