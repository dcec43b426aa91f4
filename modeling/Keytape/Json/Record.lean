import Keytape.Json.Value

/-! Reading records and variants.

A record is an object whose members are named by its fields, or a list with one item
for each field in order. A variant is an object with its name as the only member, or
the bare name where the variant carries nothing.
-/

set_option autoImplicit false

namespace Keytape.Json

/-- A field of a record that is gathered in a draft of type `σ`. -/
structure Field (σ : Type) where
  name : String
  isSet : σ → Bool
  read : Nat → σ → Reader σ
  /-- Whether a list may end before the field. -/
  mayEnd : Bool

/-- A field whose value `get` finds in the draft once `set` has put it there. -/
def Field.of {σ β : Type} (name : String) (get : σ → Option β) (set : β → σ → σ)
    (read : Nat → Reader β) : Field σ where
  name := name
  isSet draft := (get draft).isSome
  read depth draft := (fun b => set b draft) <$> read depth
  mayEnd := false

/-- A record type: its name in messages, its fields in order and what makes a complete
draft into a value. -/
structure Shape (σ α : Type) where
  name : String
  fields : List (Field σ)
  start : σ
  finish : σ → Except Mismatch α

namespace Shape

variable {σ α : Type}

def expectedLength (shape : Shape σ α) : String :=
  let n := shape.fields.length
  s!"struct {shape.name} with {n} element" ++ (if n == 1 then "" else "s")

def readItems (shape : Shape σ α) (depth : Nat) : List (Field σ) → Nat → Bool → σ → Reader σ
  | [], _, _, draft => pure draft
  | field :: rest, index, isFirst, draft => do
    if ← Reader.moreItems isFirst then
      let draft ← field.read depth draft
      shape.readItems depth rest (index + 1) false draft
    else if field.mayEnd then shape.readItems depth rest (index + 1) isFirst draft
    else Reader.mismatch (.invalidLength index shape.expectedLength)

def endItems : Reader Unit := do
  match ← Reader.peekPastBlanks with
  | none => Reader.unfinished .list
  | some ']' => Reader.drop
  | some ',' =>
    Reader.drop
    match ← Reader.peekPastBlanks with
    | some ']' => Reader.malformed .trailingComma
    -- An end of text counts here as one more item does.
    | _ => Reader.malformed .trailingCharacters
  | some _ => Reader.malformed .trailingCharacters

/-- A member of an object. A second value for a field is refused before it is read;
members that name no field are passed over. -/
def readMember (shape : Shape σ α) (depth : Nat) (name : String) (draft : σ) : Reader σ := do
  match shape.fields.find? (·.name == name) with
  | some field =>
    -- The colon and the value after a repeated name are not read any more.
    if field.isSet draft then Reader.mismatch (.duplicateField name)
    else
      Reader.colon
      field.read depth draft
  | none =>
    Reader.colon
    Reader.skip (← Reader.rounds)
    return draft

def complete (shape : Shape σ α) (draft : σ) : Reader α :=
  match shape.finish draft with
  | .ok a => pure a
  | .error e => Reader.mismatch e

def read (shape : Shape σ α) (depth : Nat) : Reader α := do
  match ← Reader.start with
  | .list =>
    Reader.nested depth fun depth => do
      let draft ← shape.readItems depth shape.fields 0 true shape.start
      endItems
      shape.complete draft
  | .object =>
    Reader.nested depth fun depth => do
      let draft ← Reader.members Reader.string (shape.readMember depth) (← Reader.rounds) true shape.start
      shape.complete draft
  | _ => Reader.unexpected s!"struct {shape.name}"

end Shape

def required {α : Type} (name : String) : Option α → Except Mismatch α
  | some a => .ok a
  | none => .error (.missingField name)

inductive Payload (α : Type) where
  | nothing (value : α)
  | content (read : Nat → Reader α)

def variant {α : Type} (variants : List (String × Payload α)) (depth : Nat) : Reader α := do
  let named (name : String) : Reader (Payload α) :=
    match variants.lookup name with
    | some payload => pure payload
    | none => Reader.mismatch (.unknownVariant name (variants.map Prod.fst))
  match ← Reader.start with
  | .ended => Reader.unfinished .value
  | .string =>
    match ← named (← Reader.string) with
    | .nothing value => pure value
    | .content _ => Reader.mismatch (.invalidType .unitVariant "newtype variant")
  | .object =>
    Reader.nested depth fun depth => do
      let payload ← named (← Reader.key)
      Reader.colon
      let value ←
        match payload with
        | .nothing value => do
          Reader.unit
          pure value
        | .content read => read depth
      match ← Reader.peekPastBlanks with
      | none => Reader.unfinished .object
      | some '\x7d' => Reader.drop
      | some _ => Reader.fail (.malformed .valueExpected)
      return value
  | _ => Reader.malformed .valueExpected

end Keytape.Json
