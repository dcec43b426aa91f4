/-! Emphasised text on terminals.

An emphasised text is the text between escape sequences, the last of which takes the
emphasis back. The sequences of `Emphasis.opening` and `closing` are assumed of the library that
writes them.
-/

set_option autoImplicit false

namespace Keytape.Text

inductive Emphasis where
  | bold
  | dim
  | alarm
  deriving DecidableEq, Repr

def Emphasis.opening : Emphasis → String
  | .bold => "\x1b[1m"
  | .dim => "\x1b[2m"
  | .alarm => "\x1b[31m\x1b[1m"

def closing : String := "\x1b[0m"

/-- The text as the library for terminals is assumed to write it. -/
def emphasize (painted : Bool) (e : Emphasis) (s : String) : String :=
  if painted then e.opening ++ s ++ closing else s

/-- Whether emphasis may be written, given the variables of the environment: to terminals
that have colours, unless it is switched off, and wherever it is forced. -/
def allowsEmphasis (onTerminal : Bool) (noColor term cliColor force : Option String) : Bool :=
  let supported := onTerminal && noColor.isNone && term.isSome && term != some "dumb"
  supported && cliColor != some "0" || force.isSome && force != some "0"

end Keytape.Text
