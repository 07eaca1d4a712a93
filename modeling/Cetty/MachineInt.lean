import Mathlib.Algebra.GroupWithZero.Nat
import Mathlib.Algebra.Ring.Int.Defs

/-!
# Machine integers

The value a 32-bit two's complement register holds after an operation whose
mathematical result is given. Signed overflow is rendered as wrap-around, so a
sum that leaves the range is visibly different from the sum over the integers.
-/

namespace MachineInt

def minInt : Int := -2147483648

def maxInt : Int := 2147483647

def int32 (value : Int) : Int := Int.bmod value 4294967296

/-- Representable results are kept. -/
theorem int32_of_bounds {value : Int} (lower : minInt ≤ value) (upper : value ≤ maxInt) :
    int32 value = value := by
  unfold minInt at lower
  unfold maxInt at upper
  unfold int32
  apply Int.bmod_eq_of_le <;> omega

theorem int32_of_nonneg {value : Int} (lower : 0 ≤ value) (upper : value ≤ maxInt) :
    int32 value = value :=
  int32_of_bounds (by unfold minInt; omega) upper

theorem int32_bounds (value : Int) : minInt ≤ int32 value ∧ int32 value ≤ maxInt := by
  have lower := Int.le_bmod (x := value) (m := 4294967296) (by decide)
  have upper := Int.bmod_lt (x := value) (m := 4294967296) (by decide)
  unfold minInt maxInt int32
  omega

theorem int32_add_left (first second : Int) :
    int32 (int32 first + second) = int32 (first + second) := by
  unfold int32
  exact Int.bmod_add_bmod

theorem int32_add_right (first second : Int) :
    int32 (first + int32 second) = int32 (first + second) := by
  rw [Int.add_comm, int32_add_left, Int.add_comm]

/-- A register differs from the exact value by whole turns. -/
theorem int32_turns (value : Int) : ∃ turns : Int, value = int32 value + turns * 4294967296 := by
  refine ⟨Int.bdiv value 4294967296, ?_⟩
  have parts := Int.bmod_add_bdiv' value 4294967296
  unfold int32
  omega

/-- Beyond the range the register holds the sum shifted by one full turn. -/
theorem int32_of_overflow {value : Int} (lower : maxInt < value)
    (upper : value ≤ maxInt + 4294967296) : int32 value = value - 4294967296 := by
  unfold maxInt at lower upper
  unfold int32
  rw [Int.bmod_def]
  split <;> omega

end MachineInt
