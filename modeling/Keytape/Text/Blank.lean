/-! White space: the characters that separate words. -/

set_option autoImplicit false

namespace Keytape.Text

def blankRanges : List (Nat × Nat) :=
  [(0x9, 0xD), (0x20, 0x20), (0x85, 0x85), (0xA0, 0xA0), (0x1680, 0x1680), (0x2000, 0x200A),
    (0x2028, 0x2029), (0x202F, 0x202F), (0x205F, 0x205F), (0x3000, 0x3000)]

def isBlank (c : Char) : Bool :=
  blankRanges.any fun (first, last) => first ≤ c.toNat && c.toNat ≤ last

def trim (s : List Char) : List Char :=
  ((s.dropWhile isBlank).reverse.dropWhile isBlank).reverse

def extendFirst (c : Char) : List (List Char) → List (List Char)
  | [] => [[c]]
  | w :: rest => (c :: w) :: rest

/-- The runs of characters between blanks, some of which may be empty: each blank ends
one run and starts the next. -/
def runs : List Char → List (List Char)
  | [] => [[]]
  | c :: s => if isBlank c then [] :: runs s else extendFirst c (runs s)

def words (s : String) : List String :=
  ((runs s.toList).filter fun w => !w.isEmpty).map String.ofList

end Keytape.Text
