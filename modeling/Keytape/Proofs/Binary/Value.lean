import Keytape.Proofs.Binary.Nearest
import Keytape.Proofs.Binary.Packing

/-! The numbers that binary64 values are.

Infinity counts as the first power of two above the finite values. Main statements: values
are ordered as their numbers are, and rounding keeps the number of a value.
-/

set_option autoImplicit false

namespace Keytape.Binary

open Float.Model Float.Model.UnpackedFloat

def signed (s : Sign) (v : ℚ) : ℚ :=
  match s with
  | .negative => -v
  | .positive => v

def numberOf? (f : UnpackedFloat) : Option ℚ :=
  match f with
  | .notANumber => none
  | .infinity s => some (signed s limit)
  | .zero _ => some 0
  | .finite s m q _ => some (signed s (m * 2 ^ q))

def number? (x : Float) : Option ℚ := numberOf? x.toModel.unpack

@[simp] theorem signed_zero (s : Sign) : signed s 0 = 0 := by cases s <;> simp [signed]

@[simp] theorem abs_signed (s : Sign) (v : ℚ) : |signed s v| = |v| := by
  cases s <;> simp [signed]

theorem rounded_signed (s : Sign) {v : ℚ} (nonneg : 0 ≤ v) :
    rounded (signed s v) = signed s (min (nearest v) limit) := by
  cases s with
  | negative => simp only [signed, rounded_neg, rounded_of_nonneg nonneg]
  | positive => simp only [signed, rounded_of_nonneg nonneg]

/-! ## Magnitudes -/

section
variable {m n : Nat} {p q : Int}

theorem Placed.magnitude_pos (h : Placed m q) : (0 : ℚ) < m * 2 ^ q := by
  have pos : (0 : ℚ) < m := by exact_mod_cast h.pos
  positivity

theorem Placed.two_zpow_le_magnitude (h : Placed m q) : (2 : ℚ) ^ q ≤ m * 2 ^ q :=
  le_mul_of_one_le_left (by positivity) (by exact_mod_cast h.pos)

theorem Placed.magnitude_lt (h : Placed m q) : (m : ℚ) * 2 ^ q < 2 ^ (53 + q) := by
  have lt : (m : ℚ) < 2 ^ 53 := by exact_mod_cast h.lt
  rw [zpow_add₀ (by decide)]
  exact mul_lt_mul_of_pos_right lt (by positivity)

theorem Placed.le_magnitude (h : Placed m q) : q = -1074 ∨ (2 : ℚ) ^ (52 + q) ≤ m * 2 ^ q := by
  refine h.full.imp_right fun full => ?_
  have le : (2 : ℚ) ^ 52 ≤ m := by exact_mod_cast full
  rw [zpow_add₀ (by decide)]
  exact mul_le_mul_of_nonneg_right le (by positivity)

theorem Placed.lastPlace_eq (h : Placed m q) : lastPlace (m * 2 ^ q) = q :=
  Binary.lastPlace_eq h.least h.magnitude_lt h.le_magnitude h.magnitude_pos

theorem Placed.nearest_eq (h : Placed m q) : nearest (m * 2 ^ q) = m * 2 ^ q :=
  nearest_eq_self rfl h.lastPlace_eq.le

theorem Canonical.magnitude_lt_limit (h : Canonical m q) : (m : ℚ) * 2 ^ q < limit :=
  h.placed.magnitude_lt.trans_le
    (zpow_le_zpow_right₀ (by norm_num) (by have greatest := h.greatest; omega))

theorem Placed.limit_le (h : Placed m q) (large : 971 < q) : limit ≤ m * 2 ^ q :=
  (zpow_le_zpow_right₀ (by norm_num) (by omega)).trans
    (h.le_magnitude.resolve_left (by omega))

theorem Placed.compares (left : Placed m p) (right : Placed n q) :
    ((compare p q).then (compare m n)).Compares ((m : ℚ) * 2 ^ p) (n * 2 ^ q) := by
  have scale : (0 : ℚ) < 2 ^ q := by positivity
  have apart {m n : Nat} {p q : Int} (left : Placed m p) (right : Placed n q) (below : p < q) :
      (m : ℚ) * 2 ^ p < n * 2 ^ q :=
    (left.magnitude_lt.trans_le (zpow_le_zpow_right₀ (by norm_num) (by omega))).trans_le
      (right.le_magnitude.resolve_left (by have least := left.least; omega))
  rcases lt_trichotomy p q with below | rfl | above
  · simpa [compare_lt_iff_lt.2 below, Ordering.Compares] using apart left right below
  · rcases lt_trichotomy m n with less | rfl | more
    · have less' : (m : ℚ) < n := by exact_mod_cast less
      simpa [compare_lt_iff_lt.2 less, Ordering.Compares, scale] using less'
    · simp [Ordering.Compares]
    · have more' : (n : ℚ) < m := by exact_mod_cast more
      simpa [compare_gt_iff_gt.2 more, Ordering.Compares, scale] using more'
  · simpa [compare_gt_iff_gt.2 above, Ordering.Compares] using apart right left above

end

/-! ## Order -/

section
variable {v w : ℚ}

def IsCanonical (f : UnpackedFloat) : Prop :=
  match f with
  | .finite _ m q _ => Canonical m q
  | _ => True

theorem isCanonical_unpack (x : Float) : IsCanonical x.toModel.unpack := by
  cases fields : x.toModel.unpack with
  | finite s m q pos => exact canonical_of_toModel fields
  | _ => trivial

/-- Comparison of fields is that of their numbers. -/
theorem compares_compare {f g : UnpackedFloat} (left : IsCanonical f) (right : IsCanonical g)
    (hf : numberOf? f = some v) (hg : numberOf? g = some w) :
    ∃ o, f.compare g = some o ∧ o.Compares v w := by
  have top := limit_pos
  cases f <;> cases g <;> cases hf <;> cases hg
  case infinity.infinity s s' =>
    have wide : -limit < limit := by linarith
    cases s <;> cases s'
    · exact ⟨.eq, rfl, rfl⟩
    · exact ⟨.lt, rfl, wide⟩
    · exact ⟨.gt, rfl, wide⟩
    · exact ⟨.eq, rfl, rfl⟩
  case infinity.zero s _ => cases s <;> exact ⟨_, rfl, by simpa [Ordering.Compares, signed]⟩
  case zero.infinity _ s' => cases s' <;> exact ⟨_, rfl, by simpa [Ordering.Compares, signed]⟩
  case zero.zero => exact ⟨_, rfl, rfl⟩
  case infinity.finite s s' n q _ =>
    have pos := right.placed.magnitude_pos
    have below := right.magnitude_lt_limit
    cases s <;> cases s' <;> exact ⟨_, rfl, by simp only [Ordering.Compares, signed]; linarith⟩
  case finite.infinity s m p _ s' =>
    have pos := left.placed.magnitude_pos
    have below := left.magnitude_lt_limit
    cases s <;> cases s' <;> exact ⟨_, rfl, by simp only [Ordering.Compares, signed]; linarith⟩
  case zero.finite _ s' n q _ =>
    have pos := right.placed.magnitude_pos
    cases s' <;> exact ⟨_, rfl, by simp only [Ordering.Compares, signed]; linarith⟩
  case finite.zero s m p _ _ =>
    have pos := left.placed.magnitude_pos
    cases s <;> exact ⟨_, rfl, by simp only [Ordering.Compares, signed]; linarith⟩
  case finite.finite s m p _ s' n q _ =>
    have pos := left.placed.magnitude_pos
    have pos' := right.placed.magnitude_pos
    have magnitudes := left.placed.compares right.placed
    cases s <;> cases s'
    · refine ⟨_, rfl, Ordering.compares_swap.2 ?_⟩
      generalize (compare p q).then (compare m n) = o at magnitudes
      cases o <;> simpa [Ordering.Compares, signed, eq_comm] using magnitudes
    · exact ⟨_, rfl, by simp only [Ordering.Compares, signed]; linarith⟩
    · exact ⟨_, rfl, by simp only [Ordering.Compares, signed]; linarith⟩
    · exact ⟨_, rfl, magnitudes⟩

variable {x y z : Float}

theorem compare_unpack (hx : number? x = some v) (hy : number? y = some w) :
    x.toModel.unpack.compare y.toModel.unpack = some (compare v w) := by
  obtain ⟨o, eq, order⟩ := compares_compare (isCanonical_unpack x) (isCanonical_unpack y) hx hy
  rw [eq, ← cmp_eq_compare, order.cmp_eq]

theorem le_iff (hx : number? x = some v) (hy : number? y = some w) : x ≤ y ↔ v ≤ w := by
  rw [le_iff_compare, compare_unpack hx hy, Option.any_some, ← Ordering.ne_gt_iff_isLE]
  exact compare_le_iff_le

theorem lt_iff (hx : number? x = some v) (hy : number? y = some w) : x < y ↔ v < w := by
  rw [lt_iff_compare, compare_unpack hx hy, Option.some_inj, compare_lt_iff_lt]

theorem beq_iff (hx : number? x = some v) (hy : number? y = some w) : x == y ↔ v = w := by
  rw [beq_iff_compare, compare_unpack hx hy, Option.some_inj, compare_eq_iff_eq]

theorem notANumber_of_number? (h : number? x = none) : x.toModel.unpack = .notANumber := by
  unfold number? at h
  cases fields : x.toModel.unpack <;> rw [fields] at h <;> cases h

theorem isNaN_of_number? (h : number? x = some v) : x.isNaN = false := by
  change x.toModel.unpack.isNaN = false
  unfold number? at h
  cases fields : x.toModel.unpack with
  | notANumber => rw [fields] at h; cases h
  | _ => rfl

/-- Only what has a number is in order with anything. -/
theorem numbers_of_le (h : x ≤ y) : ∃ v w, number? x = some v ∧ number? y = some w ∧ v ≤ w := by
  cases hx : number? x with
  | none =>
    rw [le_iff_compare, notANumber_of_number? hx] at h
    cases h
  | some v =>
    cases hy : number? y with
    | none =>
      rw [le_iff_compare, notANumber_of_number? hy] at h
      cases fields : x.toModel.unpack <;> rw [fields] at h <;> cases h
    | some w => exact ⟨v, w, rfl, rfl, (le_iff hx hy).1 h⟩

theorem numbers_of_le_le (first : x ≤ y) (second : y ≤ z) :
    ∃ u v w, number? x = some u ∧ number? y = some v ∧ number? z = some w ∧ u ≤ v ∧ v ≤ w := by
  obtain ⟨u, v, hx, hy, lower⟩ := numbers_of_le first
  obtain ⟨v', w, hy', hz, upper⟩ := numbers_of_le second
  obtain rfl := Option.some_inj.1 (hy.symm.trans hy')
  exact ⟨u, v, w, hx, hy, hz, lower, upper⟩

theorem le_trans_le (first : x ≤ y) (second : y ≤ z) : x ≤ z := by
  obtain ⟨u, v, w, hx, _, hz, lower, upper⟩ := numbers_of_le_le first second
  exact (le_iff hx hz).2 (lower.trans upper)

theorem le_trans_lt (first : x ≤ y) (second : y < z) : x < z := by
  obtain ⟨u, v, w, hx, hy, hz, lower, _⟩ :=
    numbers_of_le_le first ((le_iff_lt_or_beq y z).2 (.inl second))
  exact (lt_iff hx hz).2 (lower.trans_lt ((lt_iff hy hz).1 second))

theorem lt_trans_le (first : x < y) (second : y ≤ z) : x < z := by
  obtain ⟨u, v, w, hx, hy, hz, _, upper⟩ :=
    numbers_of_le_le ((le_iff_lt_or_beq x y).2 (.inl first)) second
  exact (lt_iff hx hz).2 (((lt_iff hx hy).1 first).trans_le upper)

/-! ## Finite values -/

/-- The fields of finite values, each with its number. -/
inductive FiniteFields : UnpackedFloat → ℚ → Prop where
  | zero (s : Sign) : FiniteFields (.zero s) 0
  | finite (s : Sign) {m : Nat} {q : Int} (h : Canonical m q) :
      FiniteFields (.finite s m q h.pos) (signed s (m * 2 ^ q))

/-- The value is finite and is this number. -/
def IsNumber (x : Float) (v : ℚ) : Prop := FiniteFields x.toModel.unpack v

theorem FiniteFields.numberOf?_eq {f : UnpackedFloat} (h : FiniteFields f v) :
    numberOf? f = some v := by
  cases h <;> rfl

theorem FiniteFields.abs_lt {f : UnpackedFloat} (h : FiniteFields f v) : |v| < limit := by
  cases h with
  | zero s => simpa using limit_pos
  | finite s canonical =>
    rw [abs_signed, abs_of_pos canonical.placed.magnitude_pos]
    exact canonical.magnitude_lt_limit

theorem isNumber_zero : IsNumber 0.0 0 := .zero .positive

theorem IsNumber.number?_eq (h : IsNumber x v) : number? x = some v := h.numberOf?_eq

theorem IsNumber.abs_lt (h : IsNumber x v) : |v| < limit := FiniteFields.abs_lt h

theorem IsNumber.lt_limit (h : IsNumber x v) : v < limit := (le_abs_self v).trans_lt h.abs_lt

theorem infinity_or_isNumber (h : number? x = some v) :
    (∃ s, x.toModel.unpack = .infinity s ∧ v = signed s limit) ∨ IsNumber x v := by
  unfold number? at h
  unfold IsNumber
  cases fields : x.toModel.unpack <;> rw [fields] at h <;> cases h
  case infinity s => exact .inl ⟨s, rfl, rfl⟩
  case zero s => exact .inr (.zero s)
  case finite s m q _ => exact .inr (.finite s (canonical_of_toModel fields))

theorem isNumber_of_abs_lt (h : number? x = some v) (below : |v| < limit) : IsNumber x v := by
  refine (infinity_or_isNumber h).resolve_left ?_
  rintro ⟨s, -, rfl⟩
  rw [abs_signed, abs_of_pos limit_pos] at below
  exact lt_irrefl _ below

theorem isFinite_iff : x.isFinite ↔ ∃ v, IsNumber x v := by
  change x.toModel.unpack.isFinite = true ↔ ∃ v, FiniteFields x.toModel.unpack v
  constructor
  · intro finite
    cases fields : x.toModel.unpack with
    | notANumber => rw [fields] at finite; cases finite
    | infinity s => rw [fields] at finite; cases finite
    | zero s => exact ⟨_, .zero s⟩
    | finite s m q _ => exact ⟨_, .finite s (canonical_of_toModel fields)⟩
  · rintro ⟨v, finite⟩
    generalize x.toModel.unpack = f at finite
    cases finite <;> rfl

theorem abs_lt_limit_of_isFinite (finite : x.isFinite) (h : number? x = some v) : |v| < limit := by
  obtain ⟨w, hx⟩ := isFinite_iff.1 finite
  obtain rfl := Option.some_inj.1 (hx.number?_eq.symm.trans h)
  exact hx.abs_lt

theorem unpack_of_limit (h : number? x = some limit) : x.toModel.unpack = .infinity .positive := by
  have top := limit_pos
  rcases infinity_or_isNumber h with ⟨s, fields, same⟩ | finite
  · cases s with
    | negative => simp only [signed] at same; linarith
    | positive => exact fields
  · exact absurd (abs_of_pos top ▸ finite.abs_lt) (lt_irrefl _)

theorem abs_le_limit (h : number? x = some v) : |v| ≤ limit := by
  rcases infinity_or_isNumber h with ⟨s, -, rfl⟩ | finite
  · rw [abs_signed, abs_of_pos limit_pos]
  · exact finite.abs_lt.le

theorem limit_or_isNumber (h : number? x = some v) (nonneg : 0 ≤ v) :
    number? x = some limit ∨ IsNumber x v := by
  refine (abs_le_limit h).eq_or_lt.imp (fun same => ?_) (isNumber_of_abs_lt h)
  rw [abs_of_nonneg nonneg] at same
  rw [h, same]

theorem rounded_of_number? (h : number? x = some v) : rounded v = v := by
  rcases infinity_or_isNumber h with ⟨s, -, rfl⟩ | finite
  · rw [rounded_signed s limit_pos.le, limit, nearest_two_zpow (by decide), min_self]
  · unfold IsNumber at finite
    generalize x.toModel.unpack = f at finite
    cases finite with
    | zero s => exact rounded_zero
    | finite s canonical =>
      rw [rounded_signed s canonical.placed.magnitude_pos.le, canonical.placed.nearest_eq,
        min_eq_left canonical.magnitude_lt_limit.le]

/-! ## Values with given fields -/

theorem number?_infinity (s : Sign) : number? (ofFields (.infinity s)) = some (signed s limit) := by
  cases s <;> rfl

theorem number?_zero (s : Sign) : number? (ofFields (.zero s)) = some 0 := by
  cases s <;> rfl

theorem pack_overflow (s : Sign) {m : Nat} {q : Int} (pos : 0 < m) (large : 971 < q) :
    UnpackedFloat.pack .binary64 (.finite s m q pos) =
      UnpackedFloat.pack .binary64 (.infinity s) := by
  have biased : q + Format.binary64.exponentBias + Format.binary64.mantissaBitsWithoutImplicit =
      q + 1075 := by
    rw [Int.add_assoc]
    rfl
  simp only [UnpackedFloat.pack, biased]
  rw [if_pos (by omega)]

/-- Fields that rounding gives stand for their number, or for infinity above the limit. -/
theorem Placed.number?_ofFields {m : Nat} {q : Int} (h : Placed m q) (s : Sign) :
    number? (ofFields (.finite s m q h.pos)) = some (signed s (min (m * 2 ^ q) limit)) := by
  by_cases greatest : q ≤ 971
  · have canonical := h.canonical greatest
    rw [number?, unpack_ofFields_finite canonical, numberOf?,
      min_eq_left canonical.magnitude_lt_limit.le]
  · have overflow := pack_overflow s h.pos (Int.not_le.1 greatest)
    have same : ofFields (.finite s m q h.pos) = ofFields (.infinity s) := by
      simp only [ofFields, Float.Model.pack, overflow]
    rw [same, number?_infinity, min_eq_right (h.limit_le (Int.not_le.1 greatest))]

end

end Keytape.Binary
