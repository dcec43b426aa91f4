import Mathlib
import Keytape.Decimal.Basic

/-! Bits and fields of binary64 values.

A value that is not zero, infinite or without a number is a significand times a power of
two in one canonical way. Main statements: a value is determined by its fields, and fields
in canonical form are those of a value.
-/

set_option autoImplicit false

namespace Keytape.Binary

open Float.Model Float.Model.UnpackedFloat

/-- The significands and powers of finite values other than zero. -/
structure Canonical (m : Nat) (q : Int) : Prop where
  pos : 0 < m
  lt : m < 2 ^ 53
  least : -1074 ≤ q
  greatest : q ≤ 971
  full : q = -1074 ∨ 2 ^ 52 ≤ m

/-- The significands and powers that rounding gives, which are those of a value unless the
power is too large. -/
structure Placed (m : Nat) (q : Int) : Prop where
  pos : 0 < m
  lt : m < 2 ^ 53
  least : -1074 ≤ q
  full : q = -1074 ∨ 2 ^ 52 ≤ m

theorem Canonical.placed {m : Nat} {q : Int} (h : Canonical m q) : Placed m q :=
  ⟨h.pos, h.lt, h.least, h.full⟩

theorem Placed.canonical {m : Nat} {q : Int} (h : Placed m q) (greatest : q ≤ 971) :
    Canonical m q :=
  ⟨h.pos, h.lt, h.least, greatest, h.full⟩

/-! ## Fields of a value -/

theorem toNat_implicit (m : BitVec 52) : (1#1 ++ m).toNat = 2 ^ 52 + m.toNat := by
  rw [BitVec.toNat_append, ← Nat.shiftLeft_add_eq_or_of_lt m.isLt]
  rfl

theorem pack_normal (s : Sign) {m : Nat} {q : Int} (pos : 0 < m) (full : 2 ^ 52 ≤ m)
    (lt : m < 2 ^ 53) (greatest : q ≤ 971) :
    UnpackedFloat.pack .binary64 (.finite s m q pos) =
      packComponents .binary64 s (BitVec.ofNat 11 (q + 1075).toNat) (BitVec.ofNat 52 m) := by
  have log : m.log2 = 52 := (Nat.log2_eq_iff (Nat.pos_iff_ne_zero.1 pos)).2 ⟨full, lt⟩
  have biased : q + Format.binary64.exponentBias + Format.binary64.mantissaBitsWithoutImplicit =
      q + 1075 := by
    rw [Int.add_assoc]
    rfl
  simp only [UnpackedFloat.pack, biased, log]
  rw [if_neg (by omega), if_pos (show 52 + 1 = Format.binary64.mantissaBits from rfl)]

theorem pack_subnormal (s : Sign) {m : Nat} (pos : 0 < m) (lt : m < 2 ^ 52) :
    UnpackedFloat.pack .binary64 (.finite s m (-1074) pos) =
      packComponents .binary64 s 0#11 (BitVec.ofNat 52 m) := by
  have log : m.log2 < 52 := (Nat.log2_lt (Nat.pos_iff_ne_zero.1 pos)).2 lt
  have partial' : m.log2 + 1 ≠ Format.binary64.mantissaBits := by
    have bits : Format.binary64.mantissaBits = 53 := rfl
    omega
  simp only [UnpackedFloat.pack]
  rw [if_neg (by decide), if_neg partial']

theorem canonical_of_unpack {b : BitVec Format.binary64.numBits} {s : Sign} {m : Nat} {q : Int}
    {pos : 0 < m} (h : UnpackedFloat.unpack .binary64 b = .finite s m q pos) : Canonical m q := by
  have mantissaBound : (unpackMantissa b).toNat < 2 ^ 52 := BitVec.isLt _
  have exponentBound : (unpackExponent b).toNat < 2 ^ 11 := BitVec.isLt _
  have bias : Format.binary64.exponentBias = 1023 := rfl
  simp only [UnpackedFloat.unpack] at h
  split at h
  · split at h <;> cases h
  · rename_i notAll
    split at h
    · rename_i subnormal
      split at h
      · cases h
      · cases h
        have zero : (unpackExponent b).toNat = 0 := by rw [subnormal]; rfl
        exact ⟨pos, by omega, by omega, by omega, .inl (by omega)⟩
    · rename_i normal
      cases h
      have positive : (unpackExponent b).toNat ≠ 0 := fun none =>
        normal (BitVec.eq_of_toNat_eq none)
      have small : (unpackExponent b).toNat ≠ 2047 := fun all => notAll (BitVec.eq_of_toNat_eq all)
      rw [toNat_implicit]
      exact ⟨by omega, by omega, by omega, by omega, .inr (by omega)⟩

theorem unpack_pack_normal (s : Sign) {m : Nat} {q : Int} (pos : 0 < m) (full : 2 ^ 52 ≤ m)
    (lt : m < 2 ^ 53) (least : -1074 ≤ q) (greatest : q ≤ 971) :
    UnpackedFloat.unpack .binary64 (UnpackedFloat.pack .binary64 (.finite s m q pos)) =
      .finite s m q pos := by
  have bias : Format.binary64.exponentBias = 1023 := rfl
  have exponent : (BitVec.ofNat 11 (q + 1075).toNat).toNat = (q + 1075).toNat := by
    rw [BitVec.toNat_ofNat]
    omega
  have notAll : BitVec.ofNat 11 (q + 1075).toNat ≠ -1#_ := by
    intro all
    rw [all] at exponent
    have top : (-1#11 : BitVec 11).toNat = 2047 := rfl
    omega
  have notZero : BitVec.ofNat 11 (q + 1075).toNat ≠ 0#_ := by
    intro zero
    rw [zero] at exponent
    have bottom : (0#11 : BitVec 11).toNat = 0 := rfl
    omega
  have mantissa : (1#1 ++ BitVec.ofNat 52 m).toNat = m := by
    rw [toNat_implicit, BitVec.toNat_ofNat]
    omega
  rw [pack_normal s pos full lt greatest]
  simp only [UnpackedFloat.unpack, unpackExponent_packComponents, unpackMantissa_packComponents,
    unpackSign_packComponents, Sign.ofBitVec_toBitVec]
  rw [if_neg notAll, if_neg notZero]
  simp only [mantissa, exponent, bias]
  congr 1
  omega

theorem unpack_pack_subnormal (s : Sign) {m : Nat} (pos : 0 < m) (lt : m < 2 ^ 52) :
    UnpackedFloat.unpack .binary64 (UnpackedFloat.pack .binary64 (.finite s m (-1074) pos)) =
      .finite s m (-1074) pos := by
  have mantissa : (BitVec.ofNat 52 m).toNat = m := by
    rw [BitVec.toNat_ofNat]
    omega
  have notZero : BitVec.ofNat 52 m ≠ 0#_ := by
    intro zero
    rw [zero] at mantissa
    have bottom : (0#52 : BitVec 52).toNat = 0 := rfl
    omega
  rw [pack_subnormal s pos lt]
  simp only [UnpackedFloat.unpack, unpackExponent_packComponents, unpackMantissa_packComponents,
    unpackSign_packComponents, Sign.ofBitVec_toBitVec]
  rw [if_neg (by decide), if_pos trivial, dif_neg notZero]
  simp only [mantissa]
  rfl

theorem unpack_pack_finite {m : Nat} {q : Int} (h : Canonical m q) (s : Sign) :
    UnpackedFloat.unpack .binary64 (UnpackedFloat.pack .binary64 (.finite s m q h.pos)) =
      .finite s m q h.pos := by
  by_cases normal : 2 ^ 52 ≤ m
  · exact unpack_pack_normal s h.pos normal h.lt h.least h.greatest
  · obtain rfl := h.full.resolve_right normal
    exact unpack_pack_subnormal s h.pos (by omega)

/-! ## Values -/

def ofFields (f : UnpackedFloat) : Float := .ofModel (Float.Model.pack f)

theorem ofFields_unpack (x : Float) : ofFields x.toModel.unpack = x := by
  obtain ⟨bits, valid⟩ := x
  have word : UInt64.ofBitVec (UnpackedFloat.pack .binary64
      (UnpackedFloat.unpack .binary64 bits.toBitVec)) = bits := by
    rw [pack_unpack_of_valid valid]
  simp only [ofFields, Float.Model.pack, Float.Model.unpack]
  congr

theorem eq_of_unpack {x y : Float} (h : x.toModel.unpack = y.toModel.unpack) : x = y := by
  rw [← ofFields_unpack x, h, ofFields_unpack]

theorem unpack_ofFields_finite {m : Nat} {q : Int} (h : Canonical m q) (s : Sign) :
    (ofFields (.finite s m q h.pos)).toModel.unpack = .finite s m q h.pos :=
  unpack_pack_finite h s

theorem le_iff_compare (x y : Float) :
    x ≤ y ↔ (x.toModel.unpack.compare y.toModel.unpack).any (·.isLE) := by
  change decide (x.toModel.unpack.le y.toModel.unpack = true) = true ↔ _
  rw [decide_eq_true_eq, UnpackedFloat.le]

theorem lt_iff_compare (x y : Float) :
    x < y ↔ x.toModel.unpack.compare y.toModel.unpack = some .lt := by
  change decide (x.toModel.unpack.lt y.toModel.unpack = true) = true ↔ _
  rw [decide_eq_true_eq, UnpackedFloat.lt, beq_iff_eq]

theorem beq_iff_compare (x y : Float) :
    x == y ↔ x.toModel.unpack.compare y.toModel.unpack = some .eq := by
  change (x.toModel.unpack.compare y.toModel.unpack == some .eq) = true ↔ _
  rw [beq_iff_eq]

theorem le_iff_lt_or_beq (x y : Float) : x ≤ y ↔ x < y ∨ x == y := by
  rw [le_iff_compare, lt_iff_compare, beq_iff_compare]
  rcases x.toModel.unpack.compare y.toModel.unpack with _ | _ | _ | _ <;> simp

theorem beq_eq_false_of_lt {x y : Float} (h : x < y) : (x == y) = false := by
  rw [Bool.eq_false_iff, ne_eq, beq_iff_compare, (lt_iff_compare x y).1 h]
  nofun

theorem canonical_of_toModel {x : Float} {s : Sign} {m : Nat} {q : Int} {pos : 0 < m}
    (h : x.toModel.unpack = .finite s m q pos) : Canonical m q :=
  canonical_of_unpack h

end Keytape.Binary
