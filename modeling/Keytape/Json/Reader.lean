import Keytape.Json.Fault

/-! Reading documents: characters, keywords and containers.

A reader takes one value off the front of a text. Faults are reported in text order, so
a document with several of them is refused for the first. Loops are bounded by the text
that is left and containers by the nesting still allowed.
-/

set_option autoImplicit false

namespace Keytape.Json

abbrev Reader (α : Type) := StateT (List Char) (Except Fault) α

/-- How deeply lists and objects may be nested, the outermost included. -/
def maxDepth : Nat := 127

namespace Reader

def byteCount (s : List Char) : Nat := s.foldl (fun n c => n + c.utf8Size) 0

/-- Refuses the text just before the next character. -/
def fail {α : Type} (cause : Cause) : Reader α := fun s => .error ⟨cause, byteCount s⟩

/-- Refuses the text at the next character, if there is one. -/
def failAtNext {α : Type} (cause : Cause) : Reader α := fun s => .error ⟨cause, byteCount s - 1⟩

def unfinished {α : Type} (what : Unfinished) : Reader α := fail (.unexpectedEnd what)

def malformed {α : Type} (what : Malformed) : Reader α := failAtNext (.malformed what)

def mismatch {α : Type} (what : Mismatch) : Reader α := fail (.mismatch what)

/-! ## Characters -/

def isBlank (c : Char) : Bool := c == ' ' || c == '\n' || c == '\t' || c == '\r'

def peek : Reader (Option Char) := fun s => .ok (s.head?, s)

def drop : Reader Unit := fun s => .ok ((), s.tail)

def peekPastBlanks : Reader (Option Char) := fun s =>
  let rest := s.dropWhile isBlank
  .ok (rest.head?, rest)

def keyword : List Char → Reader Unit
  | [] => pure ()
  | c :: cs => do
    match ← peek with
    | none => unfinished .value
    | some d =>
      if d == c then
        drop
        keyword cs
      else malformed .keywordExpected

/-! ## Containers -/

def moreItems (isFirst : Bool) : Reader Bool := do
  match ← peekPastBlanks with
  | none => unfinished .list
  | some ']' => pure false
  | some ',' =>
    -- A comma before the first item is left to the item, which refuses it.
    if isFirst then pure true
    else
      drop
      match ← peekPastBlanks with
      | none => unfinished .value
      | some ']' => malformed .trailingComma
      | some _ => pure true
  | some _ => if isFirst then pure true else malformed .listEndExpected

def moreMembers (isFirst : Bool) : Reader Bool := do
  match ← peekPastBlanks with
  | none => unfinished .object
  | some '\x7d' => pure false
  | some ',' =>
    if isFirst then malformed .keyMustBeString
    else
      drop
      match ← peekPastBlanks with
      | none => unfinished .value
      | some '"' => pure true
      | some '\x7d' => malformed .trailingComma
      | some _ => malformed .keyMustBeString
  | some '"' => if isFirst then pure true else malformed .objectEndExpected
  | some _ => if isFirst then malformed .keyMustBeString else malformed .objectEndExpected

def colon : Reader Unit := do
  match ← peekPastBlanks with
  | none => unfinished .object
  | some ':' => drop
  | some _ => malformed .colonExpected

/-- Enters a container, which uses up one level of nesting. -/
def nested {α : Type} (depth : Nat) (inside : Nat → Reader α) : Reader α :=
  match depth with
  | 0 => malformed .tooDeep
  | depth + 1 => do
    drop
    inside depth

def items {α : Type} (item : Reader α) : Nat → Bool → Reader (List α)
  | 0, _ => unfinished .list
  | fuel + 1, isFirst => do
    if ← moreItems isFirst then
      let a ← item
      let rest ← items item fuel false
      return a :: rest
    else
      drop
      return []

def members {κ σ : Type} (key : Reader κ) (value : κ → σ → Reader σ) : Nat → Bool → σ → Reader σ
  | 0, _, _ => unfinished .object
  | fuel + 1, isFirst, acc => do
    if ← moreMembers isFirst then
      let name ← key
      let acc ← value name acc
      members key value fuel false acc
    else
      drop
      return acc

/-- The number of characters left, and one more: enough rounds for any loop over them. -/
def rounds : Reader Nat := fun s => .ok (s.length + 1, s)

end Reader

end Keytape.Json
