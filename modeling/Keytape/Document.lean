import Keytape.Json.Document
import Keytape.Json.Record
import Keytape.Json.Writing
import Keytape.Curve
import Keytape.Settings

/-! Documents for the values of the calculator.

Each value is written by `write…` and read back by `read…`. Records are written as
objects with their fields in order, variants by name.
-/

set_option autoImplicit false

namespace Keytape

open Json (Reader Field Payload Shape required)

/-! ## Tokens and tapes -/

def Token.write : Token → List Char
  | .literal x => Json.object [("Literal", Json.float x)]
  | .symbol text => Json.object [("Symbol", Json.string text)]
  | .reference name => Json.object [("VariableRef", Json.string name)]

def Token.read : Nat → Reader Token :=
  Json.variant
    [("Literal", .content fun depth => .literal <$> Reader.float depth),
      ("Symbol", .content fun _ => .symbol <$> Reader.text),
      ("VariableRef", .content fun _ => .reference <$> Reader.text)]

instance : Json.Document Token := ⟨Token.write, Token.read⟩

def Token.writeAll (tokens : List Token) : List Char := Json.array (tokens.map Token.write)

def Tape.write (t : Tape) : List Char :=
  Json.object [("tokens", Token.writeAll t.toList)]

def Tape.shape : Shape (Option (List Token)) Tape where
  name := "History"
  fields := [.of "tokens" id (fun tokens _ => some tokens) fun depth => Reader.list depth Token.read]
  start := none
  finish draft := Tape.ofList <$> required "tokens" draft

def Tape.read : Nat → Reader Tape := Tape.shape.read

instance : Json.Document Tape := ⟨Tape.write, Tape.read⟩

/-! ## Outcomes and displays -/

def DomainError.name : DomainError → String
  | .negativeSquareRoot => "NegativeSquareRoot"
  | .divisionByZero => "DivisionByZero"

def DomainError.write (e : DomainError) : List Char := Json.string e.name

def DomainError.read : Nat → Reader DomainError :=
  Json.variant
    ([DomainError.negativeSquareRoot, .divisionByZero].map fun e => (e.name, .nothing e))

def Outcome.write (o : Outcome) : List Char :=
  Json.object
    [("value", Json.option Json.float o.value),
      ("is_pending", Json.bool o.isPending),
      ("description", Json.string o.description),
      ("error", Json.option DomainError.write o.error)]

structure Outcome.Draft where
  value : Option (Option Float)
  isPending : Option Bool
  description : Option String
  error : Option (Option DomainError)

def Outcome.shape : Shape Outcome.Draft Outcome where
  name := "EvaluationResult"
  fields :=
    [{ Field.of "value" Outcome.Draft.value (fun x d => { d with value := some x })
        (fun depth => Reader.option (Reader.float depth)) with mayEnd := true },
      .of "is_pending" (·.isPending) (fun b d => { d with isPending := some b }) fun _ => Reader.bool,
      .of "description" (·.description) (fun t d => { d with description := some t }) fun _ => Reader.text,
      .of "error" (·.error) (fun e d => { d with error := some e })
        fun depth => Reader.option (DomainError.read depth)]
  start := ⟨none, none, none, none⟩
  finish d := do
    let isPending ← required "is_pending" d.isPending
    let description ← required "description" d.description
    return ⟨d.value.getD none, isPending, description, d.error.getD none⟩

def Outcome.read : Nat → Reader Outcome := Outcome.shape.read

instance : Json.Document Outcome := ⟨Outcome.write, Outcome.read⟩

def Display.write (d : Display) : List Char :=
  Json.object
    [("main", Json.option Json.string d.main),
      ("description", Json.string d.caption),
      ("is_pending", Json.bool d.isPending),
      ("error", Json.option DomainError.write d.error)]

structure Display.Draft where
  main : Option (Option String)
  caption : Option String
  isPending : Option Bool
  error : Option (Option DomainError)

def Display.shape : Shape Display.Draft Display where
  name := "Readout"
  fields :=
    [.of "main" (·.main) (fun t d => { d with main := some t }) fun _ => Reader.option Reader.text,
      .of "description" (·.caption) (fun t d => { d with caption := some t }) fun _ => Reader.text,
      .of "is_pending" (·.isPending) (fun b d => { d with isPending := some b }) fun _ => Reader.bool,
      .of "error" (·.error) (fun e d => { d with error := some e })
        fun depth => Reader.option (DomainError.read depth)]
  start := ⟨none, none, none, none⟩
  finish d := do
    let caption ← required "description" d.caption
    let isPending ← required "is_pending" d.isPending
    return ⟨d.main.getD none, caption, isPending, d.error.getD none⟩

def Display.read : Nat → Reader Display := Display.shape.read

instance : Json.Document Display := ⟨Display.write, Display.read⟩

/-! ## Scans -/

def Scan.write (s : Scan) : List Char :=
  Json.object
    [("x_min", Json.float s.xMin),
      ("x_max", Json.float s.xMax),
      ("step", Json.float s.step),
      ("tolerance", Json.float s.tolerance)]

structure Scan.Draft where
  xMin : Option Float
  xMax : Option Float
  step : Option Float
  tolerance : Option Float

def Scan.shape : Shape Scan.Draft Scan where
  name := "GraphConfig"
  fields :=
    [.of "x_min" (·.xMin) (fun x d => { d with xMin := some x }) Reader.float,
      .of "x_max" (·.xMax) (fun x d => { d with xMax := some x }) Reader.float,
      .of "step" (·.step) (fun x d => { d with step := some x }) Reader.float,
      .of "tolerance" (·.tolerance) (fun x d => { d with tolerance := some x }) Reader.float]
  start := ⟨none, none, none, none⟩
  finish d := do
    let xMin ← required "x_min" d.xMin
    let xMax ← required "x_max" d.xMax
    let step ← required "step" d.step
    let tolerance ← required "tolerance" d.tolerance
    return ⟨xMin, xMax, step, tolerance⟩

def Scan.read : Nat → Reader Scan := Scan.shape.read

instance : Json.Document Scan := ⟨Scan.write, Scan.read⟩

/-! ## Settings -/

def Verbosity.name : Verbosity → String
  | .quiet => "Quiet"
  | .normal => "Normal"
  | .verbose => "Verbose"
  | .debug => "Debug"
  | .trace => "Trace"

def Verbosity.write (v : Verbosity) : List Char := Json.string v.name

def Verbosity.read : Nat → Reader Verbosity :=
  Json.variant
    ([Verbosity.quiet, .normal, .verbose, .debug, .trace].map fun v => (v.name, .nothing v))

instance : Json.Document Verbosity := ⟨Verbosity.write, Verbosity.read⟩

def ColorChoice.name : ColorChoice → String
  | .always => "Always"
  | .auto => "Auto"
  | .never => "Never"

def ColorChoice.write (c : ColorChoice) : List Char := Json.string c.name

def ColorChoice.read : Nat → Reader ColorChoice :=
  Json.variant ([ColorChoice.always, .auto, .never].map fun c => (c.name, .nothing c))

instance : Json.Document ColorChoice := ⟨ColorChoice.write, ColorChoice.read⟩

def OutputFormat.name : OutputFormat → String
  | .text => "Text"
  | .json => "Json"

def OutputFormat.write (f : OutputFormat) : List Char := Json.string f.name

def OutputFormat.read : Nat → Reader OutputFormat :=
  Json.variant ([OutputFormat.text, .json].map fun f => (f.name, .nothing f))

instance : Json.Document OutputFormat := ⟨OutputFormat.write, OutputFormat.read⟩

/-- The names in order; values that are not finite are written as null. -/
def Bindings.write (b : Bindings) : List Char :=
  Json.object (b.entries.map fun (name, x) => (name, Json.number x))

def Bindings.read (depth : Nat) : Reader Bindings :=
  Reader.table depth Reader.plainFloat Bindings.insert .empty

def Settings.write (s : Settings) : List Char :=
  Json.object
    [("verbosity", s.verbosity.write),
      ("color", s.color.write),
      ("format", s.format.write),
      ("bindings", s.bindings.write)]

structure Settings.Draft where
  verbosity : Option Verbosity
  color : Option ColorChoice
  format : Option OutputFormat
  bindings : Option Bindings

def Settings.shape : Shape Settings.Draft Settings where
  name := "CliConfig"
  fields :=
    [.of "verbosity" (·.verbosity) (fun v d => { d with verbosity := some v }) Verbosity.read,
      .of "color" (·.color) (fun c d => { d with color := some c }) ColorChoice.read,
      .of "format" (·.format) (fun f d => { d with format := some f }) OutputFormat.read,
      .of "bindings" (·.bindings) (fun b d => { d with bindings := some b }) Bindings.read]
  start := ⟨none, none, none, none⟩
  finish d := do
    let verbosity ← required "verbosity" d.verbosity
    let color ← required "color" d.color
    let format ← required "format" d.format
    let bindings ← required "bindings" d.bindings
    return ⟨verbosity, color, format, bindings⟩

def Settings.read : Nat → Reader Settings := Settings.shape.read

instance : Json.Document Settings := ⟨Settings.write, Settings.read⟩

end Keytape
