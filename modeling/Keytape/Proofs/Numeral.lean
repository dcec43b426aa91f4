import Keytape.Numeral
import Keytape.Proofs.Decimal.Layout
import Keytape.Proofs.Decimal.Nearest

/-! Numerals identify their values.

Main statement: every value is read back from the numeral that shows it, so no two values
are shown alike. Numerals are written without spaces and parentheses.
-/

set_option autoImplicit false

namespace Keytape

open Float.Model Float.Model.UnpackedFloat Binary

/-! ## Values and their fields -/

section
variable {x y : Float} {s : Sign} {m : Nat} {q : Int}

theorem abs_eq_ofFields {pos : 0 < m} (h : x.toModel.unpack = .finite s m q pos) :
    x.abs = ofFields (.finite .positive m q pos) := by
  unfold Float.abs Float.Model.abs
  rw [h]
  rfl

theorem neg_ofFields (h : Canonical m q) :
    (ofFields (.finite .positive m q h.pos)).neg = ofFields (.finite .negative m q h.pos) := by
  change ofFields (UnpackedFloat.neg (ofFields (.finite .positive m q h.pos)).toModel.unpack) = _
  rw [unpack_ofFields_finite h]
  rfl

end

namespace Decimal

variable {d d' : Decimal} {m : Nat} {q : Int}

theorem Padded.toRat_eq (padded : d.Padded d') : d'.toRat = d.toRat := by
  obtain ⟨n, rfl⟩ := padded
  have zeros : (10 : ℚ) ^ n * 10 ^ (d.exponent - n) = 10 ^ d.exponent := by
    rw [← zpow_natCast, ← zpow_add₀ (by decide), add_sub_cancel]
  rw [toRat, toRat, ← zeros]
  push_cast
  rw [mul_assoc]

theorem magnitude_eq_layout (style : Style) (h : Canonical m q) :
    ∃ d, shortest? style.tie m q = some d ∧ style.magnitude m q = style.layout d := by
  obtain ⟨d, short⟩ := exists_shortest? style.tie h
  exact ⟨d, short, by rw [Style.magnitude, short]; rfl⟩

theorem toFloat_parse?_magnitude (style : Style) {x : Float} {pos : 0 < m}
    (fields : x.toModel.unpack = .finite .positive m q pos) :
    (parse? (style.magnitude m q)).map toFloat = some x := by
  obtain ⟨d, short, text⟩ := magnitude_eq_layout style (canonical_of_toModel fields)
  obtain ⟨d', parsed, padded⟩ := parse?_layout style d
  rw [text, parsed, Option.map_some, toFloat_congr padded.toRat_eq, toFloat_of_shortest? fields short]

/-! ## How texts start -/

theorem head_digits {ds : List Char} (digits : ds.all Char.isDigit = true) (nonempty : ds ≠ [])
    (rest : List Char) : ∃ c tail, ds ++ rest = c :: tail ∧ c.isDigit = true := by
  match ds with
  | [] => exact absurd rfl nonempty
  | c :: tail =>
    rw [List.all_cons, Bool.and_eq_true] at digits
    exact ⟨c, tail ++ rest, rfl, digits.1⟩

theorem exists_positional_eq (n : Nat) (e : Int) : ∃ whole after : List Char,
    positional (digitsOf n) e = whole ++ '.' :: after ∧ whole.all Char.isDigit = true ∧ whole ≠ [] ∧
      after.all Char.isDigit = true := by
  have digits := List.all_eq_true.1 (all_digitsOf n)
  have nonempty := digitsOf_ne_nil n
  simp only [positional]
  split
  · refine ⟨_, ['0'], rfl, ?_, by simp [nonempty], rfl⟩
    rw [List.all_append, all_digitsOf, all_zeros]
    rfl
  · split
    · refine ⟨_, _, rfl, List.all_eq_true.2 fun c h => digits c (List.mem_of_mem_take h), ?_,
        List.all_eq_true.2 fun c h => digits c (List.mem_of_mem_drop h)⟩
      simp only [ne_eq, List.take_eq_nil_iff, nonempty, or_false]
      omega
    · refine ⟨['0'], _, rfl, rfl, List.cons_ne_nil _ _, ?_⟩
      rw [List.all_append, all_digitsOf, all_zeros]
      rfl

theorem positional_head (n : Nat) (e : Int) :
    ∃ c rest, positional (digitsOf n) e = c :: rest ∧ c.isDigit = true := by
  obtain ⟨whole, after, text, digits, nonempty, _⟩ := exists_positional_eq n e
  rw [text]
  exact head_digits digits nonempty _

theorem scientific_head (style : Style) (n : Nat) (e : Int) :
    ∃ c rest, style.scientific (digitsOf n) e = c :: rest ∧ c.isDigit = true := by
  have nonempty := digitsOf_ne_nil n
  cases shape : digitsOf n with
  | nil => exact absurd shape nonempty
  | cons c rest =>
    have digit := head_digitsOf_isDigit shape
    cases rest with
    | nil => exact ⟨c, _, rfl, digit⟩
    | cons c' rest => exact ⟨c, _, rfl, digit⟩

theorem layout_head (style : Style) (d : Decimal) :
    ∃ c rest, style.layout d = c :: rest ∧ c.isDigit = true := by
  unfold Style.layout
  dsimp only
  split
  · exact positional_head d.digits d.exponent
  · exact scientific_head style d.digits _

end Decimal

/-! ## Reading back -/

namespace Numeral

theorem named?_digit {c : Char} (digit : c.isDigit = true) (rest : List Char) :
    named? (c :: rest) = none := by
  have small : c.toNat ≤ 57 := by
    simp only [Char.isDigit, Bool.and_eq_true, decide_eq_true_eq] at digit
    exact digit.2
  have same : c.toLower = c := by
    unfold Char.toLower
    rw [dif_neg]
    intro upper
    have large : 65 ≤ c.toNat := upper.1
    omega
  have notI : c ≠ 'i' := by rintro rfl; simp at small
  have notN : c ≠ 'n' := by rintro rfl; simp at small
  simp [named?, same, notI, notN]

theorem readChars?_digit {c : Char} (digit : c.isDigit = true) (rest : List Char) :
    readChars? (c :: rest) = (Decimal.parse? (c :: rest)).map Decimal.toFloat := by
  have unsigned : unsigned? (c :: rest) = (Decimal.parse? (c :: rest)).map Decimal.toFloat := by
    rw [unsigned?, named?_digit digit]
    rfl
  rw [← unsigned]
  unfold readChars?
  split
  · rename_i shape
    cases shape
    exact absurd digit (by decide)
  · rename_i shape
    cases shape
    exact absurd digit (by decide)
  · rfl

def signed : Sign → Float → Float
  | .positive, x => x
  | .negative, x => x.neg

theorem readChars?_signText (s : Sign) {c : Char} (digit : c.isDigit = true) (rest : List Char) :
    readChars? (signText s ++ c :: rest) = (readChars? (c :: rest)).map (signed s) := by
  cases s with
  | positive =>
    change readChars? (c :: rest) = (readChars? (c :: rest)).map id
    rw [Option.map_id_fun, id_eq]
  | negative =>
    have read : readChars? (c :: rest) = unsigned? (c :: rest) := by
      rw [readChars?_digit digit, unsigned?, named?_digit digit]
      rfl
    rw [read]
    rfl

theorem readChars?_finite (style : Decimal.Style) {x : Float} {s : Sign} {m : Nat} {q : Int}
    {pos : 0 < m} (fields : x.toModel.unpack = .finite s m q pos) :
    readChars? (signText s ++ style.magnitude m q) = some x := by
  have canonical := canonical_of_toModel fields
  have magnitude := abs_eq_ofFields fields
  have absFields : x.abs.toModel.unpack = .finite .positive m q pos := by
    rw [magnitude]
    exact unpack_ofFields_finite canonical .positive
  have parsed := Decimal.toFloat_parse?_magnitude style absFields
  obtain ⟨d, _, text⟩ := Decimal.magnitude_eq_layout style canonical
  obtain ⟨c, rest, shape, digit⟩ := Decimal.layout_head style d
  rw [text, shape] at parsed ⊢
  rw [readChars?_signText s digit, readChars?_digit digit, parsed, Option.map_some]
  refine congrArg some ?_
  cases s with
  | positive =>
    change x.abs = x
    rw [magnitude, ← fields, ofFields_unpack]
  | negative =>
    change x.abs.neg = x
    rw [magnitude, neg_ofFields canonical, ← fields, ofFields_unpack]

theorem readChars?_chars (x : Float) : readChars? (chars x) = some x := by
  unfold chars
  -- Names and zeros are read by evaluation, digits by the round trip of decimals.
  split
  · rename_i fields
    exact congrArg some (eq_of_unpack fields.symm)
  · rename_i s fields
    cases s with
    | positive => exact congrArg some (eq_of_unpack fields.symm)
    | negative => exact congrArg some (eq_of_unpack fields.symm)
  · rename_i s fields
    cases s with
    | positive => exact congrArg some (eq_of_unpack fields.symm)
    | negative => exact congrArg some (eq_of_unpack fields.symm)
  · rename_i fields
    exact readChars?_finite style fields

theorem read?_write (x : Float) : read? (write x) = some x := by
  rw [read?, write, String.toList_ofList, readChars?_chars]

theorem write_injective {x y : Float} (same : write x = write y) : x = y := by
  have read := read?_write x
  rw [same, read?_write] at read
  exact (Option.some.inj read).symm

/-! ## The characters of a numeral -/

def IsPlain (c : Char) : Prop := c.isDigit = true ∨ c ∈ ".-+einfNa".toList

instance (c : Char) : Decidable (IsPlain c) :=
  inferInstanceAs (Decidable (_ ∨ _))

end Numeral

namespace Decimal

open Numeral (IsPlain)

theorem mem_positional {ds : List Char} {e : Int} {c : Char} (h : c ∈ positional ds e) :
    c ∈ ds ∨ c = '0' ∨ c = '.' := by
  simp only [positional] at h
  split at h
  · simp only [List.mem_append, List.mem_replicate, List.mem_cons, List.not_mem_nil, or_false] at h
    grind
  · split at h
    · simp only [List.mem_append, List.mem_cons] at h
      rcases h with before | point | after
      · exact .inl (List.mem_of_mem_take before)
      · exact .inr (.inr point)
      · exact .inl (List.mem_of_mem_drop after)
    · simp only [List.mem_append, List.mem_replicate, List.mem_cons] at h
      grind

theorem plain_digitsOf {n : Nat} {c : Char} (h : c ∈ digitsOf n) : IsPlain c :=
  .inl (List.all_eq_true.1 (all_digitsOf n) c h)

theorem plain_exponentPart {style : Style} {e : Int} {c : Char} (h : c ∈ style.exponentPart e) :
    IsPlain c := by
  simp only [Style.exponentPart, List.mem_cons, List.mem_append] at h
  rcases h with mark | sign | digit
  · exact .inr (mark ▸ by decide)
  · split at sign
    · exact .inr (List.mem_singleton.1 sign ▸ by decide)
    · split at sign
      · exact .inr (List.mem_singleton.1 sign ▸ by decide)
      · cases sign
  · exact plain_digitsOf digit

theorem plain_scientific {style : Style} {n : Nat} {e : Int} {c : Char}
    (h : c ∈ style.scientific (digitsOf n) e) : IsPlain c := by
  have digits (c' : Char) (h : c' ∈ digitsOf n) : IsPlain c' := plain_digitsOf h
  revert h digits
  generalize digitsOf n = ds
  intro h digits
  match ds with
  | [] => exact plain_exponentPart h
  | [d] =>
    rcases List.mem_cons.1 h with first | mark
    · exact digits c (first ▸ List.mem_cons_self)
    · exact plain_exponentPart mark
  | d :: d' :: rest =>
    change c ∈ d :: '.' :: ((d' :: rest) ++ style.exponentPart e) at h
    rw [List.mem_cons, List.mem_cons, List.mem_append] at h
    rcases h with first | point | digit | mark
    · exact digits c (first ▸ List.mem_cons_self)
    · exact .inr (point ▸ by decide)
    · exact digits c (List.mem_cons_of_mem d digit)
    · exact plain_exponentPart mark

theorem plain_layout {style : Style} {d : Decimal} {c : Char} (h : c ∈ style.layout d) :
    IsPlain c := by
  unfold Style.layout at h
  dsimp only at h
  split at h
  · rcases mem_positional h with digit | rfl | rfl
    · exact plain_digitsOf digit
    · exact .inl rfl
    · exact .inr (by decide)
  · exact plain_scientific h

end Decimal

namespace Numeral

theorem plain_chars {x : Float} {c : Char} (h : c ∈ chars x) : IsPlain c := by
  have sign (s : Sign) (h : c ∈ signText s) : IsPlain c := by
    cases s with
    | positive => cases h
    | negative => exact .inr (List.mem_singleton.1 h ▸ by decide)
  have word {cs : List Char} (plain : cs.all (decide <| IsPlain ·) = true) (h : c ∈ cs) :
      IsPlain c :=
    of_decide_eq_true (List.all_eq_true.1 plain c h)
  unfold chars at h
  split at h
  · exact word (by decide) h
  · exact (List.mem_append.1 h).elim (sign _) (word (by decide))
  · exact (List.mem_append.1 h).elim (sign _) (word (by decide))
  · rename_i fields
    obtain ⟨d, _, text⟩ := Decimal.magnitude_eq_layout style (canonical_of_toModel fields)
    rw [text] at h
    exact (List.mem_append.1 h).elim (sign _) Decimal.plain_layout

theorem plain_write {x : Float} {c : Char} (h : c ∈ (write x).toList) : IsPlain c := by
  rw [write, String.toList_ofList] at h
  exact plain_chars h

/-- A text that is not read, or read as a number shown otherwise, is no numeral. -/
theorem write_ne {text : String} (other : ∀ y ∈ read? text, write y ≠ text) (x : Float) :
    write x ≠ text := by
  intro same
  have read := read?_write x
  rw [same] at read
  exact other x read same

theorem write_ne_empty (x : Float) : write x ≠ "" := write_ne (by decide) x

end Numeral

end Keytape
