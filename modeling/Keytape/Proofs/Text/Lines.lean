import Keytape.Proofs.Text.Words
import Keytape.Text.Lines

/-! Texts line by line.

Input comes in bytes, and lines are found before they are decoded. Main statements: the lines
of an encoded text decode to the lines of the text, and their words are the words of the text,
since what breaks lines is blank.
-/

set_option autoImplicit false

namespace Keytape.Text

/-! ## Lines of characters -/

def withoutReturn (line : List Char) : List Char :=
  if line.getLast? = some '\r' then line.dropLast else line

def charLinesFrom (started : List Char) : List Char → List (List Char)
  | [] => if started.isEmpty then [] else [started.reverse]
  | c :: rest =>
    if c = '\n' then withoutReturn started.reverse :: charLinesFrom [] rest
    else charLinesFrom (c :: started) rest

/-- The lines of a text. Every line feed ends a line, and so does the end of the text unless it
stands at the start of one. -/
def linesOf (text : String) : List String := (charLinesFrom [] text.toList).map String.ofList

theorem charWords_withoutReturn (line : List Char) : charWords (withoutReturn line) = charWords line := by
  unfold withoutReturn
  split
  · rename_i returned
    obtain ⟨before, rfl⟩ := List.getLast?_eq_some_iff.1 returned
    have blank : isBlank '\r' = true := by decide
    rw [List.dropLast_concat, charWords_append_blank before blank]
    exact (List.append_nil _).symm
  · rfl

theorem charWords_charLinesFrom (started cs : List Char) :
    (charLinesFrom started cs).flatMap charWords = charWords (started.reverse ++ cs) := by
  induction cs generalizing started with
  | nil =>
    cases started with
    | nil => rfl
    | cons c rest => rw [charLinesFrom, List.append_nil]; exact List.append_nil _
  | cons c rest ih =>
    rw [charLinesFrom]
    split
    · rename_i feed
      have blank : isBlank c = true := by rw [feed]; decide
      rw [List.flatMap_cons, charWords_withoutReturn, ih, charWords_append_blank _ blank]
      rfl
    · rw [ih, List.reverse_cons, List.append_assoc]
      rfl

theorem words_linesOf (text : String) : (linesOf text).flatMap words = words text := by
  have whole := charWords_charLinesFrom [] text.toList
  have each (cs : List Char) : words (String.ofList cs) = (charWords cs).map String.ofList := by
    rw [words_eq, String.toList_ofList]
  rw [linesOf, List.flatMap_map, words_eq, ← List.nil_append text.toList, ← List.reverse_nil,
    ← whole, List.map_flatMap]
  simp only [each, List.nil_append, List.reverse_nil]

/-! ## Bytes of characters -/

def encode (cs : List Char) : List UInt8 := cs.flatMap String.utf8EncodeChar

theorem encode_concat (cs : List Char) (c : Char) :
    encode (cs ++ [c]) = encode cs ++ String.utf8EncodeChar c := by
  rw [encode, List.flatMap_append, List.flatMap_singleton, encode]

theorem toUTF8_eq_encode (text : String) : text.toUTF8.data.toList = encode text.toList := by
  change text.toByteArray.data.toList = _
  rw [← String.utf8Encode_toList]
  exact List.toList_data_toByteArray

/-- A byte below 128 is a character of its own. -/
theorem utf8EncodeChar_of_mem {c : Char} {b : UInt8} (mem : b ∈ String.utf8EncodeChar c)
    (small : b.toNat < 128) : c.toNat = b.toNat ∧ String.utf8EncodeChar c = [b] := by
  have byte {n : Nat} (same : b = UInt8.ofNat n) : b.toNat = n % 256 := by
    rw [same, UInt8.toNat_ofNat']
  unfold String.utf8EncodeChar at mem ⊢
  dsimp only at mem ⊢
  split at mem
  · rename_i ascii
    have same := List.mem_singleton.1 mem
    have value := byte same
    rw [if_pos ascii, ← same]
    refine ⟨?_, rfl⟩
    change c.val.toNat = _
    omega
  · -- The bytes of longer forms all have their upper bit set.
    split at mem
    · simp only [List.mem_cons, List.not_mem_nil, or_false] at mem
      rcases mem with same | same <;> (have value := byte same; omega)
    · split at mem
      · simp only [List.mem_cons, List.not_mem_nil, or_false] at mem
        rcases mem with same | same | same <;> (have value := byte same; omega)
      · simp only [List.mem_cons, List.not_mem_nil, or_false] at mem
        rcases mem with same | same | same | same <;> (have value := byte same; omega)

theorem utf8EncodeChar_ascii_iff {c d : Char} (ascii : d.toNat < 128) :
    UInt8.ofNat d.toNat ∈ String.utf8EncodeChar c ↔ c = d := by
  have small : (UInt8.ofNat d.toNat).toNat = d.toNat := by
    rw [UInt8.toNat_ofNat']
    omega
  constructor
  · intro mem
    obtain ⟨same, _⟩ := utf8EncodeChar_of_mem mem (by omega)
    exact Char.toNat_inj.1 (same.trans small)
  · rintro rfl
    have value : c.val.toNat ≤ 127 := Nat.le_of_lt_succ ascii
    have alone : String.utf8EncodeChar c = [UInt8.ofNat c.toNat] := if_pos value
    rw [alone]
    exact List.mem_singleton_self _

/-! ## Lines of bytes -/

theorem linesFrom_append {bytes : List UInt8} (within : (10 : UInt8) ∉ bytes)
    (started rest : List UInt8) :
    linesFrom started (bytes ++ rest) = linesFrom (bytes.reverse ++ started) rest := by
  induction bytes generalizing started with
  | nil => rfl
  | cons b later ih =>
    have other : (b == 10) = false := by
      refine beq_eq_false_iff_ne.2 fun same => within ?_
      exact same ▸ List.mem_cons_self
    rw [List.cons_append, linesFrom, other, if_neg Bool.false_ne_true,
      ih fun mem => within (List.mem_cons_of_mem b mem), List.reverse_cons, List.append_assoc]
    rfl

theorem dropReturn_encode (line : List Char) :
    dropReturn (encode line) = encode (withoutReturn line) := by
  rcases List.eq_nil_or_concat line with rfl | ⟨before, c, rfl⟩
  · rfl
  · rw [List.concat_eq_append, withoutReturn, List.getLast?_concat, encode_concat, dropReturn]
    by_cases returned : c = '\r'
    · have alone : String.utf8EncodeChar c = [13] := by rw [returned]; rfl
      rw [alone, List.getLast?_concat, if_pos (by decide), if_pos (by rw [returned]),
        List.dropLast_concat, List.dropLast_concat]
    · have last : (encode before ++ String.utf8EncodeChar c).getLast? ≠ some 13 := by
        intro same
        rw [List.getLast?_append] at same
        rcases Option.or_eq_some_iff.1 same with last | ⟨none, _⟩
        · exact returned
            ((utf8EncodeChar_ascii_iff (d := '\r') (by decide)).1 (List.mem_of_getLast? last))
        · exact String.utf8EncodeChar_ne_nil (List.getLast?_eq_none_iff.1 none)
      rw [if_neg (by simpa using last), if_neg (by simpa using returned), encode_concat]

theorem linesFrom_encode (started cs : List Char) :
    linesFrom (encode started.reverse).reverse (encode cs) =
      (charLinesFrom started cs).map encode := by
  induction cs generalizing started with
  | nil =>
    rw [charLinesFrom]
    cases started with
    | nil => rfl
    | cons c later =>
      have written : encode (c :: later).reverse ≠ [] := by
        simp [encode, String.utf8EncodeChar_ne_nil]
      have shown : ((encode (c :: later).reverse).reverse.isEmpty) = false := by simpa using written
      change (if _ then _ else _) = _
      rw [shown, if_neg Bool.false_ne_true, List.reverse_reverse]
      rfl
  | cons c rest ih =>
    rw [charLinesFrom]
    split
    · rename_i feed
      have bytes : encode (c :: rest) = 10 :: encode rest := by rw [feed]; rfl
      have first := dropReturn_encode started.reverse
      rw [bytes, linesFrom, List.reverse_reverse, first, List.map_cons, ← ih []]
      rfl
    · rename_i other
      have within : (10 : UInt8) ∉ String.utf8EncodeChar c := fun mem =>
        other ((utf8EncodeChar_ascii_iff (d := '\n') (by decide)).1 mem)
      have bytes : encode (c :: rest) = String.utf8EncodeChar c ++ encode rest := rfl
      rw [bytes, linesFrom_append within, ← ih, List.reverse_cons, encode_concat,
        List.reverse_append]

/-! ## Decoding -/

theorem decode?_encode (cs : List Char) : decode? (encode cs) = some (String.ofList cs) := by
  have bytes : (⟨(encode cs).toArray⟩ : ByteArray) = cs.utf8Encode := by
    refine ByteArray.ext (Array.toList_inj.1 ?_)
    exact List.toList_data_toByteArray.symm
  rw [decode?, bytes]
  exact dif_pos ByteArray.isValidUTF8_utf8Encode

def bytesOf (text : String) : List UInt8 := text.toUTF8.data.toList

def IsText (line : List UInt8) : Prop := ∃ text, bytesOf text = line

theorem decode?_eq_some_iff {line : List UInt8} {text : String} :
    decode? line = some text ↔ bytesOf text = line := by
  constructor
  · intro decoded
    rw [decode?, String.fromUTF8?] at decoded
    split at decoded
    · cases decoded
      rfl
    · cases decoded
  · rintro rfl
    rw [bytesOf, toUTF8_eq_encode, decode?_encode, String.ofList_toList]

theorem not_isText_iff {line : List UInt8} : ¬ IsText line ↔ decode? line = none := by
  simp only [IsText, ← decode?_eq_some_iff, ← Option.isSome_iff_exists, Option.not_isSome_iff_eq_none]

theorem exists_decode_eq (ls : List (List UInt8)) : ∃ rest, ls = (decode ls).1.map bytesOf ++ rest ∧
    (∀ line ∈ rest.head?, ¬ IsText line) ∧ ((decode ls).2 = true ↔ rest = []) := by
  induction ls with
  | nil => exact ⟨[], rfl, nofun, iff_of_true rfl rfl⟩
  | cons line later ih =>
    rw [decode]
    cases decoded : decode? line with
    | none =>
      refine ⟨line :: later, rfl, ?_, iff_of_false Bool.false_ne_true (List.cons_ne_nil _ _)⟩
      rintro _ ⟨⟩
      exact not_isText_iff.2 decoded
    | some text =>
      obtain ⟨rest, split, stop, complete⟩ := ih
      refine ⟨rest, ?_, stop, complete⟩
      change line :: later = bytesOf text :: ((decode later).1.map bytesOf ++ rest)
      rw [decode?_eq_some_iff.1 decoded, ← split]

theorem decode_eq_true_iff (ls : List (List UInt8)) :
    (decode ls).2 = true ↔ ∀ line ∈ ls, IsText line := by
  obtain ⟨rest, split, stop, complete⟩ := exists_decode_eq ls
  rw [complete]
  constructor
  · rintro rfl line mem
    rw [split, List.append_nil] at mem
    obtain ⟨text, _, same⟩ := List.mem_map.1 mem
    exact ⟨text, same⟩
  · intro all
    cases rest with
    | nil => rfl
    | cons line later =>
      exact absurd (all line (by rw [split]; simp)) (stop line rfl)

theorem decode_take (ls : List (List UInt8)) (n : Nat) :
    (decode (ls.take n)).1 = (decode ls).1.take n := by
  induction ls generalizing n with
  | nil => rw [List.take_nil]; exact List.take_nil.symm
  | cons line later ih =>
    cases n with
    | zero => rfl
    | succ n =>
      rw [List.take_succ_cons, decode, decode]
      cases decode? line with
      | none => rfl
      | some text => exact congrArg (text :: ·) (ih n)

theorem decode_map_encode (ls : List (List Char)) :
    decode (ls.map encode) = (ls.map String.ofList, true) := by
  induction ls with
  | nil => rfl
  | cons line rest ih => rw [List.map_cons, decode, decode?_encode, ih]; rfl

theorem decode_lines_toUTF8 (text : String) :
    decode (lines text.toUTF8.data.toList) = (linesOf text, true) := by
  have bytes : lines (encode text.toList) = (charLinesFrom [] text.toList).map encode :=
    linesFrom_encode [] text.toList
  rw [toUTF8_eq_encode, bytes, decode_map_encode, linesOf]

end Keytape.Text
