import Keytape.Document
import Keytape.Key
import Keytape.Text.Emphasis

/-! Reports: what is printed about a session, a curve and the keypad. -/

set_option autoImplicit false

namespace Keytape

open Text (emphasize)

/-! ## Sessions -/

structure Report where
  display : Display
  outcome : Outcome
  memory : Option Float

/-- The report on a session. The display and the outcome are two evaluations, each with
draws of its own. -/
def Session.report (s : Session) (draws : Draws) : Report × Draws :=
  let later := s.drawsAfter draws
  (⟨s.display draws, s.evaluate later, s.memory?⟩, s.drawsAfter later)

def Session.reports (s : Session) (draws : Draws) : List String → List Report
  | [] => []
  | line :: rest =>
    let (s, draws) := s.pressLine draws line
    let (report, draws) := s.report draws
    report :: s.reports draws rest

namespace Report

/-- Keeps the last main line on display where a report has none; `shown` is on display
before the first. -/
def retain (shown : Option String) : List Report → List Report
  | [] => []
  | r :: rest =>
    let main := r.display.main.or shown
    { r with display := { r.display with main := main } } :: retain main rest

def write (r : Report) : List Char :=
  Json.object
    [("readout", r.display.write),
      ("result", r.outcome.write),
      ("memory", Json.option Json.float r.memory)]

def text (r : Report) (painted : Bool) : String :=
  let main := emphasize painted (if r.display.error.isSome then .alarm else .bold) (r.display.main.getD "")
  let caption := if r.display.caption.isEmpty then "" else "\n" ++ emphasize painted .dim r.display.caption
  let memory :=
    match r.memory with
    | some x => "\nM: " ++ Numeral.write x
    | none => ""
  main ++ caption ++ memory

def render (r : Report) (format : OutputFormat) (painted : Bool) : String :=
  match format with
  | .json => String.ofList r.write
  | .text => r.text painted

end Report

/-! ## Curves -/

structure Summary where
  title : String
  yIntercept : Float
  xIntercepts : List Float
  scan : Scan

/-- The title, the value at zero and the crossings, in this order of drawing. -/
def Curve.summary (c : Curve) (draws : Draws) (scan : Scan) : Summary :=
  let n := c.engine.drawCount
  ⟨c.title draws, c.yIntercept (draws.skip n), c.xIntercepts (draws.skip (2 * n)) scan, scan⟩

namespace Summary

/-- Crossings that are not finite are written as null. -/
def write (s : Summary) : List Char :=
  Json.object
    [("title", Json.string s.title),
      ("y_intercept", Json.float s.yIntercept),
      ("x_intercepts", Json.array (s.xIntercepts.map Json.number)),
      ("config", s.scan.write)]

def text (s : Summary) (painted : Bool) : String :=
  let crossings := ", ".intercalate (s.xIntercepts.map Numeral.write)
  emphasize painted .bold s.title ++ "\nY: " ++ Numeral.write s.yIntercept ++ "\nX: " ++ crossings

def render (s : Summary) (format : OutputFormat) (painted : Bool) : String :=
  match format with
  | .json => String.ofList s.write
  | .text => s.text painted

end Summary

/-! ## The keypad -/

def keypad : List (String × Operation.Kind) := Operation.all.map fun op => (op.symbol, op.kind)

def keypadRow (symbol : String) (kind : Operation.Kind) : String :=
  symbol ++ "".pushn ' ' (6 - symbol.length) ++ " " ++ kind.name

def renderKeypad (format : OutputFormat) : String :=
  match format with
  | .json =>
    String.ofList (Json.array (keypad.map fun (symbol, kind) =>
      Json.object [("symbol", Json.string symbol), ("kind", Json.string kind.name)]))
  | .text => "\n".intercalate (keypad.map fun (symbol, kind) => keypadRow symbol kind)

end Keytape
