import Keytape.Text.Unprintable

/-! Quoted text for messages. -/

set_option autoImplicit false

namespace Keytape.Text

def hexDigits (n : Nat) : List Char := Nat.toDigits 16 n

/-- A character of a quoted text: quotes, backslashes and what has no shape of
its own are written as escapes. -/
def quotedChar (c : Char) : List Char :=
  match c with
  | '"' => ['\\', '"']
  | '\\' => ['\\', '\\']
  | '\n' => ['\\', 'n']
  | '\r' => ['\\', 'r']
  | '\t' => ['\\', 't']
  | '\x00' => ['\\', '0']
  | c =>
    if isUnprintable c then
      "\\u\x7b".toList ++ hexDigits c.toNat ++ ['\x7d']
    else [c]

def quoted (s : String) : String :=
  String.ofList ('"' :: (s.toList.flatMap quotedChar ++ ['"']))

end Keytape.Text
