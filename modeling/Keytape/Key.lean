import Keytape.Session
import Keytape.Text.Blank

/-! Keys, and the words that stand for them.

A word that is a numeral is an operand, some words are keys of their own, and any other
word is an operation symbol, so that unknown words end up as tokens without effect.
-/

set_option autoImplicit false

namespace Keytape

inductive Key where
  | operand (x : Float)
  | operation (symbol : String)
  | recallMemory
  | storeMemory
  | clearMemory
  | clear
  | undo
  | recall (name : String)

namespace Key

def ofName (word : String) : Key :=
  match word with
  | "M" => .recallMemory
  | "→M" | "->M" => .storeMemory
  | "MC" => .clearMemory
  | "C" => .clear
  | "undo" => .undo
  | _ =>
    match word.toList with
    | '$' :: c :: rest => .recall (String.ofList (c :: rest))
    | _ => .operation word

def ofWord (word : String) : Key :=
  match Numeral.read? word with
  | some x => .operand x
  | none => ofName word

def press (k : Key) (s : Session) (draws : Draws) : Session × Draws :=
  match k with
  | .operand x => (s.append (.literal x), draws)
  | .operation symbol => (s.append (.symbol symbol), draws)
  | .recallMemory => (s.append (.reference memoryName), draws)
  | .storeMemory => (s.store (s.currentValue draws), s.drawsAfter draws)
  | .clearMemory => (s.forget, draws)
  | .clear => (s.reset, draws)
  | .undo => (s.undo, draws)
  | .recall name => (s.append (.reference name), draws)

end Key

namespace Session

def pressWords (s : Session) (draws : Draws) (words : List String) : Session × Draws :=
  words.foldl (fun (s, draws) word => (Key.ofWord word).press s draws) (s, draws)

def pressLine (s : Session) (draws : Draws) (line : String) : Session × Draws :=
  s.pressWords draws (Text.words line)

end Session

end Keytape
