import Keytape.Bindings

/-! The settings of one run. -/

set_option autoImplicit false

namespace Keytape

/-- How much is logged. Results are printed at every level. -/
inductive Verbosity where
  | quiet
  | normal
  | verbose
  | debug
  | trace
  deriving DecidableEq, Repr

namespace Verbosity

def ofFlags (quiet : Bool) (verbose : Nat) : Verbosity :=
  if quiet then .quiet
  else
    match verbose with
    | 0 => .normal
    | 1 => .verbose
    | 2 => .debug
    | _ => .trace

def isQuiet (v : Verbosity) : Bool := v == .quiet

def isVerbose : Verbosity → Bool
  | .verbose | .debug | .trace => true
  | _ => false

def logDirective : Verbosity → String
  | .quiet => "error"
  | .normal => "warn"
  | .verbose => "info"
  | .debug => "debug"
  | .trace => "trace"

end Verbosity

inductive ColorChoice where
  | always
  | auto
  | never
  deriving DecidableEq, Repr

def ColorChoice.shouldColor (onTerminal : Bool) : ColorChoice → Bool
  | .always => true
  | .auto => onTerminal
  | .never => false

inductive OutputFormat where
  | text
  | json
  deriving DecidableEq, Repr

structure Settings where
  verbosity : Verbosity
  color : ColorChoice
  format : OutputFormat
  bindings : Bindings

namespace Settings

def default : Settings := ⟨.normal, .auto, .text, .empty⟩

instance : Inhabited Settings := ⟨default⟩

def withBinding (s : Settings) (name : String) (x : Float) : Settings :=
  { s with bindings := s.bindings.insert name x }

end Settings

end Keytape
