import Keytape.Json.Document
import Keytape.Json.Writing

/-! Readers that take one written value off a text.

A value is read alike whatever comes after it, as long as that could not continue the value,
and so is one that does not fit. Main statements: a document is decoded to what its reader takes
off its text, and refused for what its reader refuses.
-/

set_option autoImplicit false

namespace Keytape.Json

/-- What may follow a value: nothing, or one of the marks that stand between values. -/
def Ends (rest : List Char) : Prop := ∀ c ∈ rest.head?, c ∈ [',', ':', ']', '\x7d']

/-- The reader takes `text` off the front and makes `a` of it. -/
def Reads {α : Type} (r : Reader α) (text : List Char) (a : α) : Prop :=
  ∀ rest, Ends rest → r (text ++ rest) = .ok (a, rest)

/-- The reader finds `text` at the front and refuses it for this cause. -/
def Refuses {α : Type} (r : Reader α) (text : List Char) (cause : Cause) : Prop :=
  ∀ rest, Ends rest → ∃ left, r (text ++ rest) = .error ⟨cause, left⟩

theorem ends_nil : Ends [] := nofun

theorem ends_cons {c : Char} (mark : c ∈ [',', ':', ']', '\x7d']) (rest : List Char) :
    Ends (c :: rest) := by
  rintro _ ⟨⟩
  exact mark

namespace Reader

section
variable {α β : Type} {r : Reader α} {a : α} {s s' : List Char}

theorem pure_apply (a : α) (s : List Char) : (pure a : Reader α) s = .ok (a, s) := rfl

theorem bind_apply (h : r s = .ok (a, s')) (next : α → Reader β) : (r >>= next) s = next a s' := by
  change (r s).bind _ = _
  rw [h]
  rfl

theorem bind_error {fault : Fault} (h : r s = .error fault) (next : α → Reader β) :
    (r >>= next) s = .error fault := by
  change (r s).bind _ = _
  rw [h]
  rfl

theorem map_apply (h : r s = .ok (a, s')) (f : α → β) : (f <$> r) s = .ok (f a, s') := by
  change (r s).bind _ = _
  rw [h]
  rfl

theorem map_error {fault : Fault} (h : r s = .error fault) (f : α → β) :
    (f <$> r) s = .error fault := by
  change (r s).bind _ = _
  rw [h]
  rfl

end

/-! ## Characters -/

section
variable {c : Char}

theorem peek_apply (s : List Char) : peek s = .ok (s.head?, s) := rfl

theorem rounds_apply (s : List Char) : rounds s = .ok (s.length + 1, s) := rfl

theorem drop_cons (c : Char) (s : List Char) : drop (c :: s) = .ok ((), s) := rfl

theorem peekPastBlanks_cons (visible : isBlank c = false) (s : List Char) :
    peekPastBlanks (c :: s) = .ok (some c, c :: s) := by
  rw [peekPastBlanks, List.dropWhile_cons, visible]
  rfl

theorem start_cons (visible : isBlank c = false) (s : List Char) :
    start (c :: s) = .ok (Start.of (some c), c :: s) :=
  map_apply (peekPastBlanks_cons visible s) Start.of

theorem keyword_append (word rest : List Char) : keyword word (word ++ rest) = .ok ((), rest) := by
  induction word with
  | nil => rfl
  | cons c word ih =>
    rw [keyword, List.cons_append, bind_apply (peek_apply _)]
    simp only [List.head?_cons, beq_self_eq_true, if_true]
    rw [bind_apply (drop_cons c _), ih]

theorem colon_cons (s : List Char) : colon (':' :: s) = .ok ((), s) := by
  rw [colon, bind_apply (peekPastBlanks_cons (by decide) s)]
  exact drop_cons ':' s

theorem nested_cons {α : Type} (depth : Nat) (inside : Nat → Reader α) (c : Char) (s : List Char) :
    nested (depth + 1) inside (c :: s) = inside depth s :=
  bind_apply (drop_cons c s) _

end

/-! ## How values start -/

/-- The first character of the text tells a value of this kind. -/
def Opens (text : List Char) (kind : Start) : Prop :=
  ∃ c rest, text = c :: rest ∧ isBlank c = false ∧ Start.of (some c) = kind

theorem Opens.start_append {text : List Char} {kind : Start} (h : Opens text kind) (s : List Char) :
    start (text ++ s) = .ok (kind, text ++ s) := by
  obtain ⟨c, rest, rfl, visible, rfl⟩ := h
  exact start_cons visible (rest ++ s)

theorem opens_null : Opens Json.null .null := ⟨'n', _, rfl, by decide, rfl⟩

theorem opens_bool (b : Bool) : Opens (Json.bool b) (.bool b) := by
  cases b with
  | false => exact ⟨'f', _, rfl, by decide, rfl⟩
  | true => exact ⟨'t', _, rfl, by decide, rfl⟩

end Reader

open Reader

section
variable {α β : Type} {r : Reader α} {text : List Char} {a : α}

theorem Reads.map (h : Reads r text a) (f : α → β) : Reads (f <$> r) text (f a) :=
  fun rest ends => map_apply (h rest ends) f

/-- A reader whose first look at a text settles how it goes on. -/
theorem Reads.of_opens {kind : Start} {branch : Start → Reader α} (opens : Opens text kind)
    (h : Reads (branch kind) text a) : Reads (start >>= branch) text a := by
  intro rest ends
  rw [bind_apply (opens.start_append rest)]
  exact h rest ends

theorem Refuses.map {cause : Cause} (h : Refuses r text cause) (f : α → β) :
    Refuses (f <$> r) text cause := by
  intro rest ends
  obtain ⟨left, stopped⟩ := h rest ends
  exact ⟨left, map_error stopped f⟩

theorem Refuses.of_opens {kind : Start} {branch : Start → Reader α} {cause : Cause}
    (opens : Opens text kind) (h : Refuses (branch kind) text cause) :
    Refuses (start >>= branch) text cause := by
  intro rest ends
  rw [bind_apply (opens.start_append rest)]
  exact h rest ends

theorem Refuses.null (expected : String) :
    Refuses (unexpected expected : Reader α) Json.null (.mismatch (.invalidType .null expected)) :=
  .of_opens opens_null fun rest _ => ⟨_, bind_apply (keyword_append "null".toList rest) _⟩

theorem Reads.option {write : α → List Char} (present : ∀ a, Reads r (write a) a)
    (opens : ∀ a, ∃ kind, kind ≠ .null ∧ Opens (write a) kind) (o : Option α) :
    Reads (Reader.option r) (Json.option write o) o := by
  cases o with
  | none => exact .of_opens opens_null fun rest _ => bind_apply (keyword_append "null".toList rest) _
  | some a =>
    obtain ⟨kind, notNull, opens⟩ := opens a
    refine .of_opens opens ?_
    split
    · exact absurd rfl notNull
    · exact (present a).map some

theorem Reads.bool (b : Bool) : Reads Reader.bool (Json.bool b) b := by
  refine .of_opens (opens_bool b) fun rest _ => ?_
  cases b with
  | false => exact bind_apply (keyword_append "false".toList rest) _
  | true => exact bind_apply (keyword_append "true".toList rest) _

end

theorem decode_encode_of_reads {α : Type} [Document α] {a : α}
    (h : Reads (Document.read maxDepth) (Document.write a) a) :
    (decode (encode a) : Except Error α) = .ok a := by
  have value := h [] ends_nil
  rw [List.append_nil] at value
  have whole : (do let a ← Document.read maxDepth; finish; return a : Reader α)
      (Document.write a) = .ok (a, []) :=
    bind_apply value _
  rw [decode, encode, read, String.toList_ofList]
  simp only [StateT.run, whole]

theorem decode_encode_of_refuses {α : Type} [Document α] {a : α} {cause : Cause}
    (h : Refuses (Document.read maxDepth : Reader α) (Document.write a) cause) :
    ∃ e, (decode (encode a) : Except Error α) = .error e ∧ e.cause = cause := by
  obtain ⟨left, stopped⟩ := h [] ends_nil
  rw [List.append_nil] at stopped
  have whole : (do let a ← Document.read maxDepth; finish; return a : Reader α)
      (Document.write a) = .error ⟨cause, left⟩ :=
    bind_error stopped _
  rw [decode, encode, read, String.toList_ofList]
  simp only [StateT.run, whole]
  exact ⟨_, rfl, rfl⟩

end Keytape.Json
