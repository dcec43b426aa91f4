import Keytape.Document
import Keytape.Key
import Keytape.Proofs.Json.Number

/-! Numbers as words of the keypad.

The display and documents write numbers in two styles, which go over to exponents at different
magnitudes and mark them differently. The main statement says that a number written in either
is the word for its operand.
-/

set_option autoImplicit false

namespace Keytape

theorem Key.ofWord_of_read? {word : String} {x : Float} (read : Numeral.read? word = some x) :
    Key.ofWord word = .operand x := by
  rw [ofWord, read]

/-- The numeral of a value is the word for it, and so are the digits that the document of an
operand holds if the value is finite. -/
theorem ofWord_printed (x : Float) :
    Key.ofWord (Numeral.write x) = .operand x ∧
    Token.write (.literal x) = Json.object [("Literal", Json.float x)] ∧
    (x.isFinite = true → Key.ofWord (String.ofList (Json.float x)) = .operand x) := by
  refine ⟨Key.ofWord_of_read? (Numeral.read?_write x), rfl, fun finite => ?_⟩
  obtain ⟨digits, written⟩ := Json.exists_numberChars? finite
  refine Key.ofWord_of_read? ?_
  rw [Json.float, written, Option.getD_some, Numeral.read?, String.toList_ofList]
  exact Json.readChars?_numberChars? written

/-- Only documents give this number's exponent a sign. -/
theorem ofWord_printed_large :
    Float.isFinite 1e16 = true ∧ Numeral.write 1e16 = "1e16" ∧
      Json.float 1e16 = "1e+16".toList ∧
      Key.ofWord "1e16" = .operand 1e16 ∧ Key.ofWord "1e+16" = .operand 1e16 := by
  have finite : Float.isFinite 1e16 = true := by decide
  have shown : Numeral.write 1e16 = "1e16" := by decide
  have written : Json.float 1e16 = "1e+16".toList := by decide
  obtain ⟨numeral, _, digits⟩ := ofWord_printed 1e16
  refine ⟨finite, shown, written, ?_, ?_⟩
  · rw [← shown, numeral]
  · have read := digits finite
    rw [written] at read
    exact read

end Keytape
