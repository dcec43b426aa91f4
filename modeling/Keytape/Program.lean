import Keytape.Arguments
import Keytape.Binding
import Keytape.Report
import Keytape.Text.Lines

/-! The program as a function from arguments and input to exit code and output. -/

set_option autoImplicit false

namespace Keytape

structure Exit where
  code : UInt32
  stdout : String
  stderr : String

structure Surroundings where
  stdin : List UInt8
  onTerminal : Bool
  allowsEmphasis : Bool
  draws : Draws

namespace Program

def version : String := "0.4.0"

def programName : Option CommandName → String
  | none => "graphcalc"
  | some name => "graphcalc-" ++ name.text

/-- Stands for the texts of the argument parser on help and on faults, which are its own. -/
def usage : String :=
  "Usage: graphcalc [OPTIONS] <eval|graph|symbols>\n"

/-- Requests are answered on the output, faults end the program with code 2. -/
def refuse : Refusal → Exit
  | .help => ⟨0, usage, ""⟩
  | .version level => ⟨0, programName level ++ " " ++ version ++ "\n", ""⟩
  | _ => ⟨2, "", usage⟩

def settings (i : Invocation) : Except Failure Settings :=
  let base : Settings := ⟨.ofFlags i.quiet i.verbose, i.color, i.format, .empty⟩
  base.withBindingArgs i.command.bindings

def session (s : Settings) : Session :=
  s.bindings.entries.foldl (fun session (name, x) => session.bind name x) .new

/-- Printed text, and the failure that ended it, if one did. -/
abbrev Printed := String × Option Failure

structure Printer where
  format : OutputFormat
  painted : Bool

def Printer.of (s : Settings) (around : Surroundings) : Printer :=
  ⟨s.format, s.color.shouldColor around.onTerminal && around.allowsEmphasis⟩

def Printer.print (p : Printer) (r : Report) : String := r.render p.format p.painted ++ "\n"

/-- Presses the words of each line and prints a report after it, up to the first line that
is not UTF-8. On a display of text, an absent main line keeps what is shown. -/
def evalLines (p : Printer) (s : Session) (draws : Draws) (input : List UInt8) : Printed :=
  let (lines, isComplete) := Text.decode (Text.lines input)
  let reports := s.reports draws lines
  let shown :=
    match p.format with
    | .text => Report.retain none reports
    | .json => reports
  (String.join (shown.map p.print),
    if isComplete then none else some (.stream "stream did not contain valid UTF-8"))

def evalWords (p : Printer) (s : Session) (draws : Draws) (words : List String) : Printed :=
  let (s, draws) := s.pressWords draws words
  let (report, _) := s.report draws
  (p.print report, none)

def graph (p : Printer) (s : Session) (draws : Draws) (words : List String) (scan : Scan) : Printed :=
  let (s, draws) := s.pressWords draws words
  match s.curve? draws with
  | none => ("", some (.invalidArgument "cannot graph while an operation awaits its right operand"))
  | some c => ((c.summary (s.drawsAfter draws) scan).render p.format p.painted ++ "\n", none)

/-- Carries out a command. Without words, keys are read from the input. -/
def perform (s : Settings) (around : Surroundings) (command : Command) : Printed :=
  let p := Printer.of s around
  match command with
  | .eval [] _ => evalLines p (session s) around.draws around.stdin
  | .eval words _ => evalWords p (session s) around.draws words
  | .graph words _ scan => graph p (session s) around.draws words scan
  | .symbols => (renderKeypad s.format ++ "\n", none)

def conclude : Printed → Exit
  | (printed, none) => ⟨0, printed, ""⟩
  | (printed, some failure) => ⟨1, printed, "Error: " ++ failure.message ++ "\n"⟩

def run (args : List String) (around : Surroundings) : Exit :=
  match Invocation.parse args with
  | .error refusal => refuse refusal
  | .ok invocation =>
    match settings invocation with
    | .error failure => conclude ("", some failure)
    | .ok s => conclude (perform s around invocation.command)

def readsInput (args : List String) : Bool :=
  match Invocation.parse args with
  | .ok i =>
    match i.command with
    | .eval [] _ => true
    | _ => false
  | .error _ => false

end Program

end Keytape
