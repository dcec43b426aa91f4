import Keytape.Binding
import Keytape.Document
import Keytape.Proofs.Json.Number
import Keytape.Proofs.Json.Record

/-! Settings written and read back.

Bindings are the only numbers whose documents have no names for values that are not finite: such a
value is written as null, and null is no number. Main statement: settings are read back from their
document just if every bound value is finite, and the first null is refused otherwise.
-/

set_option autoImplicit false

namespace Keytape

open Json (Cause Gathers Reader Reads Refuses decode encode decode_encode_of_reads
  decode_encode_of_refuses)

def nullCause : Cause := .mismatch (.invalidType .null "f64")

/-! ## Tables -/

namespace Bindings

theorem gathers {later : List (String × Float)} {all acc : Bindings}
    (split : all.entries = acc.entries ++ later) (finite : ∀ entry ∈ later, entry.2.isFinite = true) :
    Gathers (Json.entering Reader.plainFloat insert) (later.map fun (name, x) => (name, Json.number x))
      acc (.ok all) := by
  -- What is entered grows by the entries that are taken off the rest.
  induction later generalizing acc with
  | nil =>
    rw [List.append_nil] at split
    rw [ext split]
    exact .nil acc
  | cons entry later ih =>
    obtain ⟨name, x⟩ := entry
    have first : x.isFinite = true := finite (name, x) List.mem_cons_self
    have grown := entries_eq_insert_append split
    exact .entry (.plainFloat first) (ih grown fun e member => finite e (List.mem_cons_of_mem _ member))

/-- The first value that is not finite ends the reading, whatever was entered before. -/
theorem gathers_null {later : List (String × Float)} (acc : Bindings)
    (infinite : ∃ entry ∈ later, entry.2.isFinite = false) :
    Gathers (Json.entering Reader.plainFloat insert) (later.map fun (name, x) => (name, Json.number x))
      acc (.error nullCause) := by
  induction later generalizing acc with
  | nil =>
    obtain ⟨_, member, _⟩ := infinite
    cases member
  | cons entry later ih =>
    obtain ⟨name, x⟩ := entry
    cases first : x.isFinite with
    | false => exact .refusedEntry (.plainFloat first)
    | true =>
      obtain ⟨e, member, misfit⟩ := infinite
      obtain rfl | member := List.mem_cons.1 member
      · exact absurd first (by simp [misfit])
      · exact .entry (.plainFloat first) (ih _ ⟨e, member, misfit⟩)

theorem reads (b : Bindings) (finite : ∀ entry ∈ b.entries, entry.2.isFinite = true) (depth : Nat) :
    Reads (Bindings.read (depth + 1)) b.write b :=
  .table (gathers (List.nil_append _).symm finite)

theorem refuses (b : Bindings) (infinite : ∃ entry ∈ b.entries, entry.2.isFinite = false) (depth : Nat) :
    Refuses (Bindings.read (depth + 1)) b.write nullCause :=
  .table (gathers_null _ infinite)

end Bindings

/-! ## Settings -/

theorem Verbosity.reads (v : Verbosity) (depth : Nat) : Reads (Verbosity.read depth) v.write v := by
  cases v <;> exact .bareVariant rfl

theorem ColorChoice.reads (c : ColorChoice) (depth : Nat) : Reads (ColorChoice.read depth) c.write c := by
  cases c <;> exact .bareVariant rfl

theorem OutputFormat.reads (f : OutputFormat) (depth : Nat) :
    Reads (OutputFormat.read depth) f.write f := by
  cases f <;> exact .bareVariant rfl

namespace Settings

theorem gathers (s : Settings) {depth : Nat} {out : Except Cause Draft}
    (last : Gathers (shape.readMember depth) [("bindings", s.bindings.write)]
      ⟨some s.verbosity, some s.color, some s.format, none⟩ out) :
    Gathers (shape.readMember depth)
      [("verbosity", s.verbosity.write), ("color", s.color.write), ("format", s.format.write),
        ("bindings", s.bindings.write)] shape.start out :=
  .field rfl rfl ((s.verbosity.reads depth).map _) <|
    .field rfl rfl ((s.color.reads depth).map _) <|
    .field rfl rfl ((s.format.reads depth).map _) last

theorem reads (s : Settings) (finite : ∀ entry ∈ s.bindings.entries, entry.2.isFinite = true)
    (depth : Nat) : Reads (Settings.read (depth + 2)) s.write s :=
  .record (s.gathers (.field rfl rfl ((s.bindings.reads finite depth).map _) (.nil _))) rfl

theorem refuses (s : Settings) (infinite : ∃ entry ∈ s.bindings.entries, entry.2.isFinite = false)
    (depth : Nat) : Refuses (Settings.read (depth + 2)) s.write nullCause :=
  .record (s.gathers (.refusedField rfl rfl ((s.bindings.refuses infinite depth).map _)))

end Settings

theorem Settings.decode_encode_of_infinite (s : Settings)
    (infinite : ∃ entry ∈ s.bindings.entries, entry.2.isFinite = false) :
    ∃ e, (decode (encode s) : Except Json.Error Settings) = .error e ∧ e.cause = nullCause :=
  decode_encode_of_refuses (s.refuses infinite 125)

/-- Settings are read back from their document just if each bound value is finite, by readers that
round numbers correctly as `Json.Number.ofDecimal` does. If some value is not finite, the document
is refused because of a null. -/
theorem decode_encode_settings (s : Settings) :
    ((decode (encode s) : Except Json.Error Settings) = .ok s ↔
      ∀ entry ∈ s.bindings.entries, entry.2.isFinite = true) ∧
    ((∃ e, (decode (encode s) : Except Json.Error Settings) = .error e ∧ e.cause = nullCause) ↔
      ∃ entry ∈ s.bindings.entries, entry.2.isFinite = false) := by
  -- A document is not both read and refused, so either case settles both equivalences.
  by_cases finite : ∀ entry ∈ s.bindings.entries, entry.2.isFinite = true
  · have read := decode_encode_of_reads (s.reads finite 125)
    refine ⟨iff_of_true read finite, iff_of_false ?_ ?_⟩
    · rintro ⟨e, refused, _⟩
      cases read.symm.trans refused
    · rintro ⟨entry, member, infinite⟩
      exact Bool.false_ne_true (infinite.symm.trans (finite entry member))
  · have infinite : ∃ entry ∈ s.bindings.entries, entry.2.isFinite = false := by
      simpa using finite
    have refused := s.decode_encode_of_infinite infinite
    refine ⟨iff_of_false (fun read => ?_) finite, iff_of_true refused infinite⟩
    obtain ⟨e, refused, _⟩ := refused
    cases read.symm.trans refused

/-- An argument may bind an infinity, and then the settings do not come back. -/
theorem infinite_binding_lost :
    ∃ s, Settings.default.withBindingArgs ["x=inf"] = .ok s ∧
      encode s =
        "\x7b\"verbosity\":\"Normal\",\"color\":\"Auto\",\"format\":\"Text\",\"bindings\":\x7b\"x\":null\x7d\x7d" ∧
      (decode (encode s) : Except Json.Error Settings) ≠ .ok s := by
  refine ⟨Settings.default.withBinding "x" (1.0 / 0.0), rfl, by decide, fun read => ?_⟩
  have bound : ∃ entry ∈ (Settings.default.withBinding "x" (1.0 / 0.0)).bindings.entries,
      entry.2.isFinite = false :=
    ⟨("x", 1.0 / 0.0), List.mem_cons_self, by decide⟩
  obtain ⟨e, refused, _⟩ := Settings.decode_encode_of_infinite _ bound
  cases read.symm.trans refused

end Keytape
