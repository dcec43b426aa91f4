import Keytape.Json.Reader

/-! Strings between quotes, written and read. -/

set_option autoImplicit false

namespace Keytape.Json

/-! ## Writing -/

def escaped (c : Char) : List Char :=
  match c with
  | '"' => ['\\', '"']
  | '\\' => ['\\', '\\']
  | '\n' => ['\\', 'n']
  | '\r' => ['\\', 'r']
  | '\t' => ['\\', 't']
  | '\x08' => ['\\', 'b']
  | '\x0c' => ['\\', 'f']
  | c =>
    if c.toNat < 0x20 then
      '\\' :: 'u' :: '0' :: '0' :: Nat.digitChar (c.toNat / 16) :: [Nat.digitChar (c.toNat % 16)]
    else [c]

def string (s : String) : List Char :=
  '"' :: (s.toList.flatMap escaped ++ ['"'])

namespace Reader

/-! ## Reading -/

def hexDigit? (c : Char) : Option Nat :=
  if c.isDigit then some (c.toNat - '0'.toNat)
  else if 'a' ≤ c && c ≤ 'f' then some (c.toNat - 'a'.toNat + 10)
  else if 'A' ≤ c && c ≤ 'F' then some (c.toNat - 'A'.toNat + 10)
  else none

def unit? (a b c d : Char) : Option Nat := do
  let w ← hexDigit? a
  let x ← hexDigit? b
  let y ← hexDigit? c
  let z ← hexDigit? d
  return ((w * 16 + x) * 16 + y) * 16 + z

def letterEscape? : Char → Option Char
  | '"' => some '"'
  | '\\' => some '\\'
  | '/' => some '/'
  | 'b' => some '\x08'
  | 'f' => some '\x0c'
  | 'n' => some '\n'
  | 'r' => some '\r'
  | 't' => some '\t'
  | _ => none

def isLeading (n : Nat) : Bool := 0xD800 ≤ n && n < 0xDC00

def isTrailing (n : Nat) : Bool := 0xDC00 ≤ n && n < 0xE000

def paired (lead trail : Nat) : Char :=
  Char.ofNat (0x10000 + (lead - 0xD800) * 0x400 + (trail - 0xDC00))

/-- An escape of four digits that is not complete in `s`: four bytes are taken before
they are judged. -/
def brokenUnit {α : Type} (s : List Char) : Except Fault α :=
  if byteCount s < 4 then .error ⟨.unexpectedEnd .string, 0⟩
  else .error ⟨.malformed .invalidEscape, byteCount s - 4⟩

/-- What follows a leading surrogate without being a second escape. -/
def brokenPair {α : Type} : List Char → Except Fault α
  | [] => .error ⟨.unexpectedEnd .string, 0⟩
  | '\\' :: [] => .error ⟨.unexpectedEnd .string, 0⟩
  | '\\' :: 'u' :: s => brokenUnit s
  | '\\' :: s => .error ⟨.malformed .unfinishedSurrogate, byteCount s - 1⟩
  | s => .error ⟨.malformed .unfinishedSurrogate, byteCount s - 1⟩

def prepend (c : Char) (r : Except Fault (List Char × List Char)) :
    Except Fault (List Char × List Char) :=
  r.map fun (cs, rest) => (c :: cs, rest)

def stringBody : List Char → Except Fault (List Char × List Char)
  | [] => .error ⟨.unexpectedEnd .string, 0⟩
  | '"' :: s => .ok ([], s)
  | '\\' :: 'u' :: a :: b :: c :: d :: s =>
    match unit? a b c d with
    | none => brokenUnit (a :: b :: c :: d :: s)
    | some lead =>
      if isTrailing lead then .error ⟨.malformed .loneSurrogate, byteCount s⟩
      else if !isLeading lead then prepend (Char.ofNat lead) (stringBody s)
      else
        match s with
        | '\\' :: 'u' :: e :: f :: g :: h :: t =>
          match unit? e f g h with
          | none => brokenUnit (e :: f :: g :: h :: t)
          | some trail =>
            if isTrailing trail then prepend (paired lead trail) (stringBody t)
            else .error ⟨.malformed .loneSurrogate, byteCount t⟩
        | s => brokenPair s
  | '\\' :: 'u' :: s => brokenUnit s
  | '\\' :: [] => .error ⟨.unexpectedEnd .string, 0⟩
  | '\\' :: c :: s =>
    match letterEscape? c with
    | some d => prepend d (stringBody s)
    | none => .error ⟨.malformed .invalidEscape, byteCount (c :: s) - 1⟩
  | c :: s =>
    if c.toNat < 0x20 then .error ⟨.malformed .controlCharacter, byteCount s⟩
    else prepend c (stringBody s)

def string : Reader String := do
  drop
  fun s => (stringBody s).map fun (cs, rest) => (String.ofList cs, rest)

/-- What follows a string whose characters do not matter; surrogates go unpaired. -/
def skipBody : List Char → Except Fault (Unit × List Char)
  | [] => .error ⟨.unexpectedEnd .string, 0⟩
  | '"' :: s => .ok ((), s)
  | '\\' :: 'u' :: a :: b :: c :: d :: s =>
    match unit? a b c d with
    | none => brokenUnit (a :: b :: c :: d :: s)
    | some _ => skipBody s
  | '\\' :: 'u' :: s => brokenUnit s
  | '\\' :: [] => .error ⟨.unexpectedEnd .string, 0⟩
  | '\\' :: c :: s =>
    match letterEscape? c with
    | some _ => skipBody s
    | none => .error ⟨.malformed .invalidEscape, byteCount (c :: s) - 1⟩
  | c :: s => if c.toNat < 0x20 then .error ⟨.malformed .controlCharacter, byteCount s⟩ else skipBody s

def skipString : Reader Unit := do
  drop
  skipBody

end Reader

end Keytape.Json
