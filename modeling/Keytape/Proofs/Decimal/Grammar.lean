import Keytape.Proofs.Decimal.Layout

/-! The grammar of decimals.

A decimal is written with digits, at most one point among them, and perhaps an exponent. Main
statement: the texts of this grammar are the ones that are read, each as the decimal it stands
for.
-/

set_option autoImplicit false

namespace Keytape.Decimal

open Float.Model.UnpackedFloat (Sign)

/-- A sign as it may be written. None at all counts as a plus. -/
inductive IsSign : List Char → Sign → Prop where
  | absent : IsSign [] .positive
  | plus : IsSign ['+'] .positive
  | minus : IsSign ['-'] .negative

inductive IsScale : List Char → Int → Prop where
  | absent : IsScale [] 0
  | marked {mark : Char} {sign ds : List Char} {s : Sign} : mark = 'e' ∨ mark = 'E' → IsSign sign s →
      ds.all Char.isDigit = true → ds ≠ [] → IsScale (mark :: (sign ++ ds)) (s.apply (valueOf ds))

/-- The texts of a decimal. The point needs a digit on one of its sides. -/
inductive IsText : List Char → Decimal → Prop where
  | whole {ds tail : List Char} {e : Int} : ds.all Char.isDigit = true → ds ≠ [] → IsScale tail e →
      IsText (ds ++ tail) ⟨valueOf ds, e⟩
  | pointed {before after tail : List Char} {e : Int} : before.all Char.isDigit = true →
      after.all Char.isDigit = true → before ++ after ≠ [] → IsScale tail e →
      IsText (before ++ '.' :: (after ++ tail)) ⟨valueOf (before ++ after), e - after.length⟩

/-! ## Exponents -/

theorem natural?_eq_some_iff {cs : List Char} {n : Nat} :
    natural? cs = some n ↔ cs.all Char.isDigit = true ∧ cs ≠ [] ∧ n = valueOf cs := by
  unfold natural?
  by_cases digits : cs.all Char.isDigit = true
  · cases cs with
    | nil => simp
    | cons c rest => simp [digits, eq_comm]
  · rw [if_neg (by simp [digits])]
    exact ⟨nofun, fun shape => absurd shape.1 digits⟩

theorem map_natural?_eq_some_iff {cs : List Char} {e : Int} (s : Sign) :
    (natural? cs).map (fun n : Nat => s.apply n) = some e ↔
      cs.all Char.isDigit = true ∧ cs ≠ [] ∧ e = s.apply (valueOf cs) := by
  rw [Option.map_eq_some_iff]
  constructor
  · rintro ⟨n, natural, rfl⟩
    obtain ⟨digits, some, rfl⟩ := natural?_eq_some_iff.1 natural
    exact ⟨digits, some, rfl⟩
  · rintro ⟨digits, some, rfl⟩
    exact ⟨_, natural?_eq_some_iff.2 ⟨digits, some, rfl⟩, rfl⟩

theorem exponent?_minus (cs : List Char) :
    exponent? ('-' :: cs) = (natural? cs).map fun n : Nat => Sign.negative.apply n := by
  rw [exponent?]
  cases natural? cs <;> rfl

theorem exponent?_plus (cs : List Char) :
    exponent? ('+' :: cs) = (natural? cs).map fun n : Nat => Sign.positive.apply n := by
  rw [exponent?]
  cases natural? cs <;> rfl

theorem exponent?_unsigned {cs : List Char} (minus : cs.head? ≠ some '-') (plus : cs.head? ≠ some '+') :
    exponent? cs = (natural? cs).map fun n : Nat => Sign.positive.apply n := by
  unfold exponent?
  split
  · exact absurd rfl minus
  · exact absurd rfl plus
  · cases natural? cs <;> rfl

theorem head?_ne_of_digits {ds : List Char} (digits : ds.all Char.isDigit = true) {c : Char}
    (other : c.isDigit = false) : ds.head? ≠ some c := by
  intro first
  have digit := List.all_eq_true.1 digits c (List.mem_of_head? first)
  rw [other] at digit
  cases digit

theorem exponent?_eq_some_iff {cs : List Char} {e : Int} :
    exponent? cs = some e ↔ ∃ sign ds s, cs = sign ++ ds ∧ IsSign sign s ∧
      ds.all Char.isDigit = true ∧ ds ≠ [] ∧ e = s.apply (valueOf ds) := by
  constructor
  · intro read
    by_cases minus : cs.head? = some '-'
    · obtain ⟨ds, rfl⟩ := List.head?_eq_some_iff.1 minus
      rw [exponent?_minus, map_natural?_eq_some_iff] at read
      exact ⟨['-'], ds, .negative, rfl, .minus, read⟩
    · by_cases plus : cs.head? = some '+'
      · obtain ⟨ds, rfl⟩ := List.head?_eq_some_iff.1 plus
        rw [exponent?_plus, map_natural?_eq_some_iff] at read
        exact ⟨['+'], ds, .positive, rfl, .plus, read⟩
      · rw [exponent?_unsigned minus plus, map_natural?_eq_some_iff] at read
        exact ⟨[], cs, .positive, rfl, .absent, read⟩
  · rintro ⟨sign, ds, s, rfl, isSign, number⟩
    rw [← map_natural?_eq_some_iff] at number
    cases isSign with
    | absent =>
      have digits := ((map_natural?_eq_some_iff .positive).1 number).1
      rw [List.nil_append, exponent?_unsigned (head?_ne_of_digits digits (by decide))
        (head?_ne_of_digits digits (by decide)), number]
    | plus => rw [List.singleton_append, exponent?_plus, number]
    | minus => rw [List.singleton_append, exponent?_minus, number]

theorem scale?_eq_some_iff {cs : List Char} {e : Int} : scale? cs = some e ↔ IsScale cs e := by
  constructor
  · intro read
    unfold scale? at read
    split at read
    · cases read
      exact .absent
    · split at read
      · rename_i mark
        obtain ⟨sign, ds, s, rfl, isSign, digits, some, rfl⟩ := exponent?_eq_some_iff.1 read
        exact .marked (by simpa using mark) isSign digits some
      · cases read
  · intro scale
    cases scale with
    | absent => rfl
    | marked mark isSign digits some =>
      rw [scale?, if_pos (by simpa using mark)]
      exact exponent?_eq_some_iff.2 ⟨_, _, _, rfl, isSign, digits, some, rfl⟩

theorem IsScale.startsPlain {tail : List Char} {e : Int} (h : IsScale tail e) :
    StartsPlain tail ∧ tail.head? ≠ some '.' := by
  cases h with
  | absent => exact ⟨startsPlain_nil, nofun⟩
  | marked mark _ _ _ =>
    rcases mark with rfl | rfl
    · exact ⟨startsPlain_cons (by decide) _, by simp⟩
    · exact ⟨startsPlain_cons (by decide) _, by simp⟩

/-! ## Decimals -/

@[simp] theorem ofDigits_nil (ds : List Char) (e : Int) : ofDigits ds [] e = ⟨valueOf ds, e⟩ := by
  simp [ofDigits]

theorem fraction_cases (cs : List Char) : fraction cs = ([], cs) ∨
    ∃ after tail, cs = '.' :: (after ++ tail) ∧ fraction cs = (after, tail) ∧
      after.all Char.isDigit = true := by
  unfold fraction
  split
  · exact .inr ⟨_, _, by rw [List.takeWhile_append_dropWhile], rfl, List.all_takeWhile⟩
  · exact .inl rfl

theorem isText_of_parse? {cs : List Char} {d : Decimal} (read : parse? cs = some d) : IsText cs d := by
  have digits : (cs.takeWhile Char.isDigit).all Char.isDigit = true := List.all_takeWhile
  have split := List.takeWhile_append_dropWhile (p := Char.isDigit) (l := cs)
  unfold parse? at read
  dsimp only at read
  generalize cs.takeWhile Char.isDigit = before at digits split read
  generalize cs.dropWhile Char.isDigit = rest at split read
  rw [← split]
  rcases fraction_cases rest with none | ⟨after, tail, rfl, pointed, more⟩
  · simp only [none, List.isEmpty_nil, Bool.and_true, List.isEmpty_iff] at read
    split at read
    · cases read
    · rename_i some
      obtain ⟨e, scale, rfl⟩ := Option.map_eq_some_iff.1 read
      rw [ofDigits_nil]
      exact .whole digits some (scale?_eq_some_iff.1 scale)
  · simp only [pointed, Bool.and_eq_true, List.isEmpty_iff] at read
    split at read
    · cases read
    · rename_i some
      obtain ⟨e, scale, rfl⟩ := Option.map_eq_some_iff.1 read
      exact .pointed digits more (by simpa using some) (scale?_eq_some_iff.1 scale)

/-- The texts that are read are those of the grammar. -/
theorem parse?_eq_some_iff {cs : List Char} {d : Decimal} : parse? cs = some d ↔ IsText cs d := by
  refine ⟨isText_of_parse?, fun text => ?_⟩
  cases text with
  | whole digits some scale =>
    obtain ⟨plain, pointless⟩ := scale.startsPlain
    rw [parse?_whole digits some plain pointless, scale?_eq_some_iff.2 scale, Option.map_some,
      ofDigits_nil]
  | pointed digits more some scale =>
    rw [parse?_point digits some more scale.startsPlain.1, scale?_eq_some_iff.2 scale]
    rfl

end Keytape.Decimal
