import Keytape.Numeral
import Keytape.Scan
import Keytape.Settings

/-! The arguments of the command line.

They are parsed by a library, of which this is assumed: the forms of arguments are those of
`ArgumentForm.of`, `looksNumeric` tells negative numbers from options, and faults are found in the
order of `Parse.step`. Options may stand between words, before or after the command that they
belong to. A value that follows its option in an argument of its own is judged when the next option
or word comes up, so a fault further on in the same argument list may be found first.
-/

set_option autoImplicit false

namespace Keytape

inductive CommandName where
  | eval
  | graph
  | symbols
  deriving DecidableEq, Repr

namespace CommandName

def text : CommandName → String
  | .eval => "eval"
  | .graph => "graph"
  | .symbols => "symbols"

def all : List CommandName := [.eval, .graph, .symbols]

def ofText? (s : String) : Option CommandName := all.find? (·.text == s)

def takesWords : CommandName → Bool
  | .eval | .graph => true
  | .symbols => false

end CommandName

inductive Opt where
  | verbose
  | quiet
  | color
  | format
  | bind
  | scanFrom
  | scanTo
  | step
  | tolerance
  | help
  | version
  deriving DecidableEq, Repr

namespace Opt

def long : Opt → String
  | .verbose => "verbose"
  | .quiet => "quiet"
  | .color => "color"
  | .format => "format"
  | .bind => "bind"
  | .scanFrom => "from"
  | .scanTo => "to"
  | .step => "step"
  | .tolerance => "tolerance"
  | .help => "help"
  | .version => "version"

def short? : Opt → Option Char
  | .verbose => some 'v'
  | .quiet => some 'q'
  | .bind => some 'b'
  | .help => some 'h'
  | .version => some 'V'
  | _ => none

def takesValue : Opt → Bool
  | .verbose | .quiet | .help | .version => false
  | _ => true

/-- The options known at a level: that of a command, or the one before any command. -/
def known : Option CommandName → List Opt
  | none | some .symbols => [.verbose, .quiet, .color, .format, .help, .version]
  | some .eval => [.verbose, .quiet, .color, .format, .bind, .help, .version]
  | some .graph =>
    [.verbose, .quiet, .color, .format, .bind, .scanFrom, .scanTo, .step, .tolerance, .help, .version]

def ofLong? (level : Option CommandName) (name : String) : Option Opt :=
  (known level).find? (·.long == name)

def ofShort? (level : Option CommandName) (c : Char) : Option Opt :=
  (known level).find? (·.short? == some c)

end Opt

inductive Refusal where
  | unknownArgument
  /-- A value is missing or not among the possible ones. -/
  | invalidValue
  | valueValidation
  /-- An option that is given once at most is repeated. -/
  | argumentConflict
  /-- A flag was given a value. -/
  | tooManyValues
  | invalidSubcommand
  | missingSubcommand
  | noArguments
  | help
  | version (level : Option CommandName)
  deriving DecidableEq, Repr

/-- What the options and words of one level say. -/
structure Gathered where
  verbose : Option Nat
  quiet : Option Bool
  color : Option ColorChoice
  format : Option OutputFormat
  words : List String
  bindings : List String
  scanFrom : Option Float
  scanTo : Option Float
  step : Option Float
  tolerance : Option Float

namespace Gathered

def empty : Gathered := ⟨none, none, none, none, [], [], none, none, none, none⟩

def isGiven (g : Gathered) : Bool :=
  g.verbose.isSome || g.quiet.isSome || g.color.isSome || g.format.isSome

/-- The value of an option that may be given once. -/
def once {α : Type} (old : Option α) (new : Except Refusal α) : Except Refusal (Option α) :=
  if old.isSome then .error .argumentConflict else some <$> new

def colorValue : String → Except Refusal ColorChoice
  | "auto" => .ok .auto
  | "always" => .ok .always
  | "never" => .ok .never
  | _ => .error .invalidValue

def formatValue : String → Except Refusal OutputFormat
  | "text" => .ok .text
  | "json" => .ok .json
  | _ => .error .invalidValue

def floatValue (s : String) : Except Refusal Float :=
  match Numeral.read? s with
  | some x => .ok x
  | none => .error .valueValidation

def enter (g : Gathered) (o : Opt) (value : String) : Except Refusal Gathered :=
  match o with
  | .color => (once g.color (colorValue value)).map fun c => { g with color := c }
  | .format => (once g.format (formatValue value)).map fun f => { g with format := f }
  | .bind => .ok { g with bindings := g.bindings ++ [value] }
  | .scanFrom => (once g.scanFrom (floatValue value)).map fun x => { g with scanFrom := x }
  | .scanTo => (once g.scanTo (floatValue value)).map fun x => { g with scanTo := x }
  | .step => (once g.step (floatValue value)).map fun x => { g with step := x }
  | .tolerance => (once g.tolerance (floatValue value)).map fun x => { g with tolerance := x }
  | .verbose | .quiet | .help | .version => .error .tooManyValues

/-- Enters a flag at the given level. Verbose flags are counted up to 255. -/
def raise (g : Gathered) (level : Option CommandName) (o : Opt) : Except Refusal Gathered :=
  match o with
  | .verbose => .ok { g with verbose := some (min 255 (g.verbose.getD 0 + 1)) }
  | .quiet => (once g.quiet (.ok true)).map fun q => { g with quiet := q }
  | .help => .error .help
  | .version => .error (.version level)
  | _ => .error .invalidValue

end Gathered

inductive Pending where
  | nothing
  | awaiting (o : Opt)
  | holding (o : Opt) (value : String)

structure Parse where
  gathered : Gathered
  pending : Pending
  isTrailing : Bool

namespace Parse

def start : Parse := ⟨.empty, .nothing, false⟩

def settle (p : Parse) : Except Refusal Parse :=
  match p.pending with
  | .nothing => .ok p
  | .awaiting _ => .error .invalidValue
  | .holding o value => (p.gathered.enter o value).map fun g => ⟨g, .nothing, p.isTrailing⟩

def flag (p : Parse) (level : Option CommandName) (o : Opt) : Except Refusal Parse := do
  let p ← p.settle
  let g ← p.gathered.raise level o
  return { p with gathered := g }

/-- An option with the value attached to it, or else with one still to come. -/
def valued (p : Parse) (o : Opt) (attached : Option String) : Except Refusal Parse := do
  let p ← p.settle
  match attached with
  | some value => return { p with gathered := ← p.gathered.enter o value }
  | none => return { p with pending := .awaiting o }

def long (p : Parse) (level : Option CommandName) (name : String) (attached : Option String) :
    Except Refusal Parse :=
  match Opt.ofLong? level name with
  | none => .error .unknownArgument
  | some o =>
    if o.takesValue then p.valued o attached
    else if attached.isSome then .error .tooManyValues
    else p.flag level o

/-- A bundle of short options. The first that takes a value takes the rest of the bundle,
less an equals sign. -/
def bundle (p : Parse) (level : Option CommandName) : List Char → Except Refusal Parse
  | [] => .ok p
  | c :: rest =>
    match Opt.ofShort? level c with
    | none => .error .unknownArgument
    | some o =>
      if o.takesValue then
        match rest with
        | [] => p.valued o none
        | '=' :: value => p.valued o (some (String.ofList value))
        | value => p.valued o (some (String.ofList value))
      else do
        let p ← p.flag level o
        p.bundle level rest

def word (p : Parse) (level : Option CommandName) (s : String) : Except Refusal Parse :=
  match level with
  | none =>
    .error (if p.isTrailing && (CommandName.ofText? s).isSome then .unknownArgument
      else if p.isTrailing && s == "help" then .unknownArgument else .invalidSubcommand)
  | some name =>
    if name.takesWords then
      p.settle.map fun p => { p with gathered := { p.gathered with words := p.gathered.words ++ [s] } }
    else .error .unknownArgument

def value (p : Parse) (level : Option CommandName) (s : String) : Except Refusal Parse :=
  match p.pending with
  | .awaiting o => .ok { p with pending := .holding o s }
  | _ => p.word level s

end Parse

/-- Whether a word that starts with a minus is a number after it: digits with at most one
point, which is not first, and at most one exponent mark, which is neither first nor last
and carries no sign. -/
def looksNumeric (s : List Char) : Bool :=
  let whole := s.takeWhile Char.isDigit
  let afterWhole := s.dropWhile Char.isDigit
  let afterPoint :=
    match afterWhole with
    | '.' :: r => if whole.isEmpty then afterWhole else r.dropWhile Char.isDigit
    | r => r
  match afterPoint with
  | [] => true
  | c :: exponent =>
    (c == 'e' || c == 'E') && !whole.isEmpty && !exponent.isEmpty && exponent.all Char.isDigit

inductive ArgumentForm where
  /-- A double minus and nothing else. -/
  | escape
  | long (name : String) (attached : Option String)
  | bundle (flags : List Char)
  | plain

def ArgumentForm.of (arg : String) : ArgumentForm :=
  match arg.toList with
  | ['-', '-'] => .escape
  | '-' :: '-' :: s =>
    match s.dropWhile (· != '=') with
    | [] => .long (String.ofList s) none
    | _ :: attached => .long (String.ofList (s.takeWhile (· != '='))) (some (String.ofList attached))
  | ['-'] => .plain
  | '-' :: flags => .bundle flags
  | _ => .plain

def Parse.step (p : Parse) (level : Option CommandName) (arg : String) : Except Refusal Parse :=
  if p.isTrailing then p.word level arg
  else
    match ArgumentForm.of arg with
    | .escape => .ok { p with isTrailing := true }
    | .long name attached => p.long level name attached
    | .bundle flags =>
      if (level.map CommandName.takesWords).getD false && looksNumeric flags then p.value level arg
      else p.bundle level flags
    | .plain => p.value level arg

inductive Command where
  | eval (words bindings : List String)
  | graph (words bindings : List String) (scan : Scan)
  | symbols

def Command.bindings : Command → List String
  | .eval _ bindings => bindings
  | .graph _ bindings _ => bindings
  | .symbols => []

structure Invocation where
  verbose : Nat
  quiet : Bool
  color : ColorChoice
  format : OutputFormat
  command : Command

namespace Invocation

def commandOf (name : CommandName) (g : Gathered) : Command :=
  match name with
  | .eval => .eval g.words g.bindings
  | .graph =>
    let d := Scan.default
    .graph g.words g.bindings
      ⟨g.scanFrom.getD d.xMin, g.scanTo.getD d.xMax, g.step.getD d.step, g.tolerance.getD d.tolerance⟩
  | .symbols => .symbols

/-- The invocation of two levels; what the command's own level says counts more. -/
def ofLevels (outer inner : Gathered) (name : CommandName) : Invocation where
  verbose := (inner.verbose.or outer.verbose).getD 0
  quiet := (inner.quiet.or outer.quiet).getD false
  color := (inner.color.or outer.color).getD .auto
  format := (inner.format.or outer.format).getD .text
  command := commandOf name inner

def parseCommand (name : CommandName) (args : List String) : Except Refusal Gathered := do
  let p ← args.foldlM (fun p arg => p.step (some name) arg) Parse.start
  return (← p.settle).gathered

def helpRequest : List String → Refusal
  | [] => .help
  | [s] => if (CommandName.ofText? s).isSome || s == "help" then .help else .invalidSubcommand
  | _ => .invalidSubcommand

/-- The arguments from the present one on. A command ends the outer level unless an option
awaits its value. Faults of the command's level come before a pending fault of the outer
one. -/
def parseFrom (p : Parse) : List String → Except Refusal Invocation
  | [] => do
    let p ← p.settle
    .error (if p.gathered.isGiven then .missingSubcommand else .noArguments)
  | arg :: rest =>
    let mayBeCommand :=
      match p.pending with
      | .awaiting _ => false
      | _ => !p.isTrailing
    if mayBeCommand && arg == "help" then .error (helpRequest rest)
    else
      match if mayBeCommand then CommandName.ofText? arg else none with
      | some name => do
        -- The outer level is settled last, once the whole command has been read.
        let inner ← parseCommand name rest
        let outer ← p.settle
        return ofLevels outer.gathered inner name
      | none => do
        let p ← p.step none arg
        parseFrom p rest

/-- The invocation that the library would find in the arguments, by what is assumed of it. -/
def parse (args : List String) : Except Refusal Invocation := parseFrom .start args

end Invocation

end Keytape
