import Mathlib.Data.Nat.Digits.Defs
import Mathlib.Tactic.Ring

/-! # Little-endian byte strings

`leBytes count value` is the little-endian encoding in exactly `count` bytes and
`leValue` the number a byte string encodes. A value that fits in its bytes is
recovered exactly, and a byte string is determined by its length and value.
-/

namespace Bytes

/-- The low `count` bytes of `value`, least significant first. -/
def leBytes : Nat → Nat → List UInt8
  | 0, _ => []
  | count + 1, value => UInt8.ofNat value :: leBytes count (value / 256)

/-- The number that a little-endian byte string encodes. -/
def leValue (bytes : List UInt8) : Nat := Nat.ofDigits 256 (bytes.map UInt8.toNat)

@[simp] theorem leBytes_length (count value : Nat) : (leBytes count value).length = count := by
  induction count generalizing value with
  | zero => rfl
  | succ count ih => simp [leBytes, ih]

@[simp] theorem leValue_nil : leValue [] = 0 := rfl

@[simp] theorem leValue_cons (byte : UInt8) (rest : List UInt8) :
    leValue (byte :: rest) = byte.toNat + 256 * leValue rest := by
  simp [leValue, Nat.ofDigits_cons]

/-- Decoding the low bytes of a number reduces it to their width. -/
theorem leValue_leBytes (count value : Nat) :
    leValue (leBytes count value) = value % 256 ^ count := by
  induction count generalizing value with
  | zero => simp [leBytes, Nat.mod_one]
  | succ count ih =>
      have hbyte : (UInt8.ofNat value).toNat = value % 256 := by simp
      simp only [leBytes, leValue_cons, ih, hbyte]
      rw [pow_succ', Nat.mod_mul]

theorem leValue_leBytes_of_lt {count value : Nat} (hlt : value < 256 ^ count) :
    leValue (leBytes count value) = value := by
  rw [leValue_leBytes, Nat.mod_eq_of_lt hlt]

theorem leValue_lt (bytes : List UInt8) : leValue bytes < 256 ^ bytes.length := by
  have hdigits : ∀ digit ∈ bytes.map UInt8.toNat, digit < 256 := by
    intro digit hdigit
    obtain ⟨byte, _, rfl⟩ := List.mem_map.mp hdigit
    exact byte.toNat_lt
  simpa [leValue] using Nat.ofDigits_lt_base_pow_length (by decide : 1 < 256) hdigits

/-- Encoding takes each prefix independently of the bytes that follow it. -/
theorem leBytes_take {count total : Nat} (hle : count ≤ total) (value : Nat) :
    (leBytes total value).take count = leBytes count value := by
  induction count generalizing total value with
  | zero => rfl
  | succ count ih =>
      cases total with
      | zero => omega
      | succ total => simp [leBytes, ih (Nat.le_of_succ_le_succ hle)]

end Bytes
