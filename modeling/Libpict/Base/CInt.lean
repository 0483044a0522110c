import Mathlib.Data.Int.Notation
import Mathlib.Tactic.Ring

/-! # C integer conversions

Values of C integer types are mathematical integers. A conversion to a narrower
or differently signed type reduces its argument to the range of that type; signed
arithmetic has no such reduction, so its callers check `Fits` instead.
-/

namespace CInt

/-- The largest value of the 32-bit type `int`. -/
def intMax : Int := 2147483647

/-- A value of the 32-bit type `int`. Signed arithmetic whose exact result does
not fit is undefined behaviour. -/
def Fits (x : Int) : Prop := -2147483648 ≤ x ∧ x ≤ 2147483647

instance (x : Int) : Decidable (Fits x) := inferInstanceAs (Decidable (_ ∧ _))

/-- Conversion to `int`: two's complement reduction. -/
def toInt32 (x : Int) : Int := (x + 2147483648) % 4294967296 - 2147483648

/-- Conversion to `short`. -/
def toInt16 (x : Int) : Int := (x + 32768) % 65536 - 32768

/-- Conversion to `uint32_t`. -/
def toUInt32 (x : Int) : Nat := (x % 4294967296).toNat

/-- Conversion to a 64-bit `size_t`. -/
def toSize (x : Int) : Nat := (x % 18446744073709551616).toNat

theorem toInt32_fits (x : Int) : Fits (toInt32 x) := by
  unfold Fits toInt32
  omega

theorem toInt32_of_fits {x : Int} (hfits : Fits x) : toInt32 x = x := by
  unfold Fits at hfits
  unfold toInt32
  omega

/-- Reducing an operand changes nothing that is left of the result. -/
theorem toInt32_toInt32_add (x y : Int) : toInt32 (toInt32 x + y) = toInt32 (x + y) := by
  unfold toInt32
  omega

theorem toInt32_toInt32_mul (x y : Int) : toInt32 (toInt32 x * y) = toInt32 (x * y) := by
  obtain ⟨k, hk⟩ : ∃ k, toInt32 x = x - 4294967296 * k := by
    refine ⟨(x + 2147483648) / 4294967296, ?_⟩
    unfold toInt32
    omega
  have hmul : (x - 4294967296 * k) * y = x * y - 4294967296 * (k * y) := by ring
  rw [hk, hmul]
  unfold toInt32
  omega

theorem toUInt32_of_nonneg {x : Int} (hnonneg : 0 ≤ x) (hlt : x < 4294967296) :
    (toUInt32 x : Int) = x := by
  unfold toUInt32
  omega

theorem toUInt32_natCast (n : Nat) : toUInt32 n = n % 4294967296 := by
  unfold toUInt32
  omega

/-- The way through `int` and back loses nothing. -/
theorem toUInt32_toInt32 {n : Nat} (hlt : n < 4294967296) : toUInt32 (toInt32 n) = n := by
  unfold toUInt32 toInt32
  omega

/-- The way through `unsigned` and back loses nothing. -/
theorem toInt32_toUInt32 {value : Int} (hfits : Fits value) : toInt32 (toUInt32 value) = value := by
  unfold Fits at hfits
  unfold toInt32 toUInt32
  omega

theorem toSize_of_nonneg {x : Int} (hnonneg : 0 ≤ x) (hlt : x < 18446744073709551616) :
    (toSize x : Int) = x := by
  unfold toSize
  omega

/-- A negative `int` becomes a size that no `int` can reach. -/
theorem intMax_lt_toSize_of_neg {x : Int} (hfits : Fits x) (hneg : x < 0) :
    intMax < toSize x := by
  unfold Fits at hfits
  unfold toSize intMax
  omega

end CInt
