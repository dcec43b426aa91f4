import Keytape.Document
import Keytape.Engine
import Keytape.Proofs.Json.Number
import Keytape.Proofs.Json.Record

/-! Documents of the calculator read back.

Main statement: every token, tape, outcome, display and scan is what its document is decoded to.
Texts are arbitrary and so are numbers. A number that is not finite goes by its name, and an
absent one is null, so neither is taken for the other nor for a finite number. A tape that is
read back evaluates as before, whatever the names mean.
-/

set_option autoImplicit false

namespace Keytape

open Json (Reads decode encode decode_encode_of_reads)
open Json.Reader (Opens OpensValue)

/-! ## Tokens and tapes -/

theorem Token.reads (t : Token) (depth : Nat) : Reads (Token.read (depth + 1)) t.write t := by
  cases t with
  | literal x => exact .variant rfl ((Reads.float x depth).map Token.literal)
  | symbol text => exact .variant rfl ((Reads.text text).map Token.symbol)
  | reference name => exact .variant rfl ((Reads.text name).map Token.reference)

theorem Token.opensValue (t : Token) : OpensValue t.write := by
  cases t <;> exact ⟨.object, nofun, '\x7b', _, rfl, by decide, rfl⟩

theorem Tape.reads (t : Tape) (depth : Nat) : Reads (Tape.read (depth + 3)) t.write t := by
  have tokens := Reads.list (fun t => t.reads depth) Token.opensValue t.toList
  exact .record (.field rfl rfl (tokens.map _) (.nil _)) rfl

/-! ## Outcomes and displays -/

theorem DomainError.reads (e : DomainError) (depth : Nat) : Reads (DomainError.read depth) e.write e := by
  cases e <;> exact .bareVariant rfl

theorem DomainError.opens (e : DomainError) : Opens e.write .string := Json.opens_string e.name

theorem DomainError.reads_option (e : Option DomainError) (depth : Nat) :
    Reads (Json.Reader.option (DomainError.read depth)) (Json.option DomainError.write e) e :=
  Reads.option (fun e => e.reads depth) (fun e => ⟨.string, nofun, e.opens⟩) e

theorem Outcome.reads (o : Outcome) (depth : Nat) : Reads (Outcome.read (depth + 1)) o.write o := by
  have value := Reads.option (fun x => Reads.float x depth) Json.opens_float o.value
  exact .record
    (.field rfl rfl (value.map _) <|
      .field rfl rfl ((Reads.bool o.isPending).map _) <|
      .field rfl rfl ((Reads.text o.description).map _) <|
      .field rfl rfl ((DomainError.reads_option o.error depth).map _) (.nil _))
    rfl

theorem Display.reads (d : Display) (depth : Nat) : Reads (Display.read (depth + 1)) d.write d := by
  have main := Reads.option Reads.text (fun t => ⟨.string, nofun, Json.opens_string t⟩) d.main
  exact .record
    (.field rfl rfl (main.map _) <|
      .field rfl rfl ((Reads.text d.caption).map _) <|
      .field rfl rfl ((Reads.bool d.isPending).map _) <|
      .field rfl rfl ((DomainError.reads_option d.error depth).map _) (.nil _))
    rfl

/-! ## Scans -/

theorem Scan.reads (s : Scan) (depth : Nat) : Reads (Scan.read (depth + 1)) s.write s :=
  .record
    (.field rfl rfl ((Reads.float s.xMin depth).map _) <|
      .field rfl rfl ((Reads.float s.xMax depth).map _) <|
      .field rfl rfl ((Reads.float s.step depth).map _) <|
      .field rfl rfl ((Reads.float s.tolerance depth).map _) (.nil _))
    rfl

/-! ## Documents -/

theorem Tape.decode_encode (t : Tape) : (decode (encode t) : Except Json.Error Tape) = .ok t :=
  decode_encode_of_reads (t.reads 124)

/-- Every token, tape, outcome, display and scan is read back from its document, if readers round
numbers correctly as `Json.Number.ofDecimal` does. A tape that is read back evaluates as before. -/
theorem decode_encode_document :
    (∀ t : Token, (decode (encode t) : Except Json.Error Token) = .ok t) ∧
    (∀ t : Tape, (decode (encode t) : Except Json.Error Tape) = .ok t) ∧
    (∀ o : Outcome, (decode (encode o) : Except Json.Error Outcome) = .ok o) ∧
    (∀ d : Display, (decode (encode d) : Except Json.Error Display) = .ok d) ∧
    (∀ s : Scan, (decode (encode s) : Except Json.Error Scan) = .ok s) ∧
    ∀ (t : Tape) (stored : Float) (lookup : String → Option Float) (draws : Draws),
      ∃ t', (decode (encode t) : Except Json.Error Tape) = .ok t' ∧
        (Engine.mk t' stored).evaluate lookup draws = (Engine.mk t stored).evaluate lookup draws :=
  ⟨fun t => decode_encode_of_reads (t.reads 126), Tape.decode_encode,
    fun o => decode_encode_of_reads (o.reads 126), fun d => decode_encode_of_reads (d.reads 126),
    fun s => decode_encode_of_reads (s.reads 126), fun t _ _ _ => ⟨t, t.decode_encode, rfl⟩⟩

end Keytape
