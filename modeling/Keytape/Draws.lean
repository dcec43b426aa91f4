/-! The values that `rand` draws. -/

set_option autoImplicit false

namespace Keytape

/-- An endless tape of values, read from position `used` on. -/
structure Draws where
  source : Nat → Float
  used : Nat

namespace Draws

def head (d : Draws) : Float := d.source d.used

def skip (d : Draws) (n : Nat) : Draws := ⟨d.source, d.used + n⟩

@[simp] theorem skip_zero (d : Draws) : d.skip 0 = d := rfl

theorem skip_skip (d : Draws) (m n : Nat) : (d.skip m).skip n = d.skip (m + n) := by
  simp [skip, Nat.add_assoc]

def scramble (x : UInt64) : UInt64 :=
  let x := (x ^^^ (x >>> 30)) * 0xBF58476D1CE4E5B9
  let x := (x ^^^ (x >>> 27)) * 0x94D049BB133111EB
  x ^^^ (x >>> 31)

/-- The value in the unit interval, one excluded, that the upper 53 bits of a word count
off. -/
def ofBits (x : UInt64) : Float := (x >>> 11).toFloat / 9007199254740992.0

def ofSeed (seed : UInt64) : Draws where
  source i := ofBits (scramble (seed + i.toUInt64 * 0x9E3779B97F4A7C15))
  used := 0

end Draws

end Keytape
