/-! Lines of input, decoded one by one. -/

set_option autoImplicit false

namespace Keytape.Text

def dropReturn (line : List UInt8) : List UInt8 :=
  if line.getLast? == some 13 then line.dropLast else line

/-- The lines of a text that follows the bytes in `started`. Every line feed ends a
line, and so does the end of the text unless it stands at the start of one. -/
def linesFrom (started : List UInt8) : List UInt8 → List (List UInt8)
  | [] => if started.isEmpty then [] else [started.reverse]
  | b :: rest =>
    if b == 10 then dropReturn started.reverse :: linesFrom [] rest else linesFrom (b :: started) rest

def lines (bytes : List UInt8) : List (List UInt8) := linesFrom [] bytes

def decode? (line : List UInt8) : Option String := String.fromUTF8? ⟨line.toArray⟩

/-- The texts of the lines before the first that is not UTF-8, and whether all are. -/
def decode : List (List UInt8) → List String × Bool
  | [] => ([], true)
  | line :: rest =>
    match decode? line with
    | none => ([], false)
    | some text =>
      let (texts, isComplete) := decode rest
      (text :: texts, isComplete)

end Keytape.Text
