import Cetty.BufferSearch
import Cetty.BuiltBuffers

/-!
# Where a search of a buffer ends

`indexOf` scans upward from its first index and downward from the byte in front of it.
-/

namespace Cetty

open MachineInt ByteWindow

/-- The smallest index of the range at which the finder finds, or -1 when there is none. -/
def Lowest (cells : CharArray) (find : Finder) (lower upper : Nat) (result : Int) : Prop :=
  (∃ i : Nat, result = i ∧ lower ≤ i ∧ i < upper ∧ find (cells.getD i 0) = true ∧
    ∀ j, lower ≤ j → j < i → find (cells.getD j 0) = false) ∨
  (result = -1 ∧ ∀ i, lower ≤ i → i < upper → find (cells.getD i 0) = false)

/-- The largest index of the range at which the finder finds, or -1 when there is none. -/
def Highest (cells : CharArray) (find : Finder) (lower upper : Nat) (result : Int) : Prop :=
  (∃ i : Nat, result = i ∧ lower ≤ i ∧ i < upper ∧ find (cells.getD i 0) = true ∧
    ∀ j, i < j → j < upper → find (cells.getD j 0) = false) ∨
  (result = -1 ∧ ∀ i, lower ≤ i → i < upper → find (cells.getD i 0) = false)

namespace Getters

variable {getters : Getters} {find : Finder} {cells : CharArray}

theorem Answers.begins (answers : getters.Answers cells) : getters.Begins cells := by
  constructor
  · exact Int.le_of_eq answers.capacity.symm
  · exact answers.byte

theorem scanUp_lowest (begins : getters.Begins cells) (rounds start : Nat)
    (inside : start + rounds ≤ cells.length) :
    ∃ result, scanUp getters find rounds start = .ok result ∧
      Lowest cells find start (start + rounds) result := by
  induction rounds generalizing start with
  | zero => exact ⟨-1, rfl, .inr ⟨rfl, by omega⟩⟩
  | succ rounds ih =>
      rw [scanUp_step begins (by omega)]
      cases here : find (cells.getD start 0) with
      | true => exact ⟨start, rfl, .inl ⟨start, rfl, by omega, by omega, here, by omega⟩⟩
      | false =>
          have passed : ∀ j, start ≤ j → j < start + 1 → find (cells.getD j 0) = false := by
            intro j low high
            have same : j = start := by omega
            rw [same]
            exact here
          rcases ih (start + 1) (by omega) with ⟨result, run, lowest⟩
          refine ⟨result, run, ?_⟩
          rcases lowest with ⟨i, isIndex, low, high, matched, below⟩ | ⟨missing, none⟩
          · left
            refine ⟨i, isIndex, by omega, by omega, matched, ?_⟩
            intro j lower upper
            by_cases first : j < start + 1
            · exact passed j lower first
            · exact below j (by omega) upper
          · right
            refine ⟨missing, ?_⟩
            intro j lower upper
            by_cases first : j < start + 1
            · exact passed j lower first
            · exact none j (by omega) (by omega)

theorem scanDown_highest (begins : getters.Begins cells) (rounds lower : Nat)
    (inside : lower + rounds ≤ cells.length) :
    ∃ result, scanDown getters find rounds ((lower + rounds : Nat) - 1) = .ok result ∧
      Highest cells find lower (lower + rounds) result := by
  induction rounds with
  | zero => exact ⟨-1, rfl, .inr ⟨rfl, by omega⟩⟩
  | succ rounds ih =>
      have last : ((lower + (rounds + 1) : Nat) : Int) - 1 = (lower + rounds : Nat) := by omega
      rw [last, scanDown_step begins (by omega)]
      cases here : find (cells.getD (lower + rounds) 0) with
      | true => exact ⟨_, rfl, .inl ⟨lower + rounds, rfl, by omega, by omega, here, by omega⟩⟩
      | false =>
          have passed : ∀ j, lower + rounds ≤ j → j < lower + (rounds + 1) →
              find (cells.getD j 0) = false := by
            intro j low high
            have same : j = lower + rounds := by omega
            rw [same]
            exact here
          rcases ih (by omega) with ⟨result, run, highest⟩
          refine ⟨result, run, ?_⟩
          rcases highest with ⟨i, isIndex, low, high, matched, above⟩ | ⟨missing, none⟩
          · left
            refine ⟨i, isIndex, by omega, by omega, matched, ?_⟩
            intro j below upper
            by_cases first : j < lower + rounds
            · exact above j below first
            · exact passed j (by omega) upper
          · right
            refine ⟨missing, ?_⟩
            intro j below upper
            by_cases first : j < lower + rounds
            · exact none j below first
            · exact passed j (by omega) upper

section

variable (answers : getters.Answers cells)

include answers

theorem firstIndexOf_lowest {fromIndex toIndex : Nat}
    (ordered : fromIndex ≤ toIndex) (inside : toIndex ≤ cells.length) :
    ∃ result, firstIndexOf getters fromIndex toIndex find = .ok result ∧
      Lowest cells find fromIndex toIndex result := by
  have capacity := answers.capacity
  have start : max (fromIndex : Int) 0 = fromIndex := by omega
  unfold firstIndexOf
  dsimp only
  rw [start]
  by_cases empty : (toIndex : Int) ≤ fromIndex ∨ getters.capacity = 0
  · rw [if_pos empty]
    exact ⟨-1, rfl, .inr ⟨rfl, by omega⟩⟩
  · have whole : fromIndex + ((toIndex : Int) - fromIndex).toNat = toIndex := by omega
    have scanned := @scanUp_lowest getters find cells answers.begins
      ((toIndex : Int) - fromIndex).toNat fromIndex (by omega)
    rw [whole] at scanned
    rw [if_neg empty]
    exact scanned

theorem lastIndexOf_highest {fromIndex toIndex : Nat}
    (reversed : toIndex < fromIndex) (inside : fromIndex ≤ cells.length) :
    ∃ result, lastIndexOf getters fromIndex toIndex find = .ok result ∧
      Highest cells find toIndex fromIndex result := by
  have capacity := answers.capacity
  have start : min (fromIndex : Int) getters.capacity = fromIndex := by omega
  have whole : toIndex + ((fromIndex : Int) - toIndex).toNat = fromIndex := by omega
  have scanned := @scanDown_highest getters find cells answers.begins
    ((fromIndex : Int) - toIndex).toNat toIndex (by omega)
  rw [whole] at scanned
  unfold lastIndexOf
  dsimp only
  rw [start, if_neg (by omega)]
  exact scanned

/-- No more is asked of the buffer than that its bytes can be got. -/
theorem indexOf_nearest (find : Finder) {fromIndex toIndex : Nat}
    (first : fromIndex ≤ cells.length) (last : toIndex ≤ cells.length) :
    ∃ result, indexOf getters fromIndex toIndex find = .ok result ∧
      (if fromIndex ≤ toIndex then Lowest cells find fromIndex toIndex result
        else Highest cells find toIndex fromIndex result) := by
  unfold indexOf
  by_cases ordered : fromIndex ≤ toIndex
  · rcases @firstIndexOf_lowest _ find _ answers _ _ ordered last with ⟨result, run, lowest⟩
    refine ⟨result, ?_, ?_⟩
    · rw [if_pos (by omega)]
      exact run
    · rw [if_pos ordered]
      exact lowest
  · rcases @lastIndexOf_highest _ find _ answers _ _ (Nat.lt_of_not_le ordered) first with ⟨result, run, highest⟩
    refine ⟨result, ?_, ?_⟩
    · rw [if_neg (by omega)]
      exact run
    · rw [if_neg ordered]
      exact highest

/-- Whatever the sign of the length: a range that ends in front of its start is searched downward. -/
theorem bytesBefore_indexOf (find : Finder)
    {index endIndex : Nat} (first : index ≤ cells.length) (last : endIndex ≤ cells.length)
    {result : Int} (run : indexOf getters index endIndex find = .ok result)
    (found : -1 ≤ result ∧ result < cells.length) :
    bytesBefore getters index ((endIndex : Int) - index) find =
      .ok (if result = -1 then -1 else result - index) := by
  have small := answers.small
  have sum : int32 ((index : Int) + ((endIndex : Int) - index)) = endIndex := by
    rw [show (index : Int) + ((endIndex : Int) - index) = endIndex by omega]
    exact int32_of_nonneg (by omega) (by omega)
  unfold bytesBefore
  rw [sum, run, ok_bind]
  by_cases missing : result = -1
  · rw [if_pos missing, if_pos (by omega)]
    rfl
  · have difference : int32 (result - index) = result - index := by
      unfold maxInt at small
      exact int32_of_bounds (by unfold minInt; omega) (by unfold maxInt; omega)
    rw [if_neg missing, if_neg (by omega), difference]
    rfl

end

end Getters

namespace ChannelBuffer

/-- In both directions, for every buffer that the library builds. -/
theorem indexOf_exact {buffer : ChannelBuffer} (built : buffer.WellBuilt) (value : Byte)
    {fromIndex toIndex : Nat} (first : (fromIndex : Int) ≤ buffer.capacity)
    (last : (toIndex : Int) ≤ buffer.capacity) :
    ∃ result, buffer.getters.indexOf fromIndex toIndex (· == value) = .ok result ∧
      (if fromIndex ≤ toIndex then Lowest buffer.content (· == value) fromIndex toIndex result
        else Highest buffer.content (· == value) toIndex fromIndex result) ∧
      buffer.getters.bytesBefore fromIndex ((toIndex : Int) - fromIndex) (· == value) =
        .ok (if result = -1 then -1 else result - fromIndex) := by
  have answers := built.answers
  have capacity : buffer.capacity = buffer.content.length := answers.capacity
  rcases Getters.indexOf_nearest answers (· == value) (by omega : fromIndex ≤ buffer.content.length)
    (by omega : toIndex ≤ buffer.content.length) with ⟨result, run, nearest⟩
  have bounded : -1 ≤ result ∧ result < buffer.content.length := by
    split at nearest
    · rcases nearest with ⟨i, isIndex, _, upper, _⟩ | ⟨missing, _⟩ <;> omega
    · rcases nearest with ⟨i, isIndex, _, upper, _⟩ | ⟨missing, _⟩ <;> omega
  refine ⟨result, run, nearest, ?_⟩
  exact Getters.bytesBefore_indexOf answers _ (by omega) (by omega) run bounded

/-- Downward from index 4 the second of the two 2s is met first. -/
theorem indexOf_exact_downward :
    (heap ⟨.big, [1, 2, 3, 2, 1], ⟨0, 5, 0, 0⟩⟩).getters.indexOf 4 1 (· == 2) = .ok 3 ∧
      ∃ result, (heap ⟨.big, [1, 2, 3, 2, 1], ⟨0, 5, 0, 0⟩⟩).getters.indexOf (4 : Nat) (1 : Nat) (· == 2) =
          .ok result ∧
        (if 4 ≤ 1 then Lowest [1, 2, 3, 2, 1] (· == 2) 4 1 result
          else Highest [1, 2, 3, 2, 1] (· == 2) 1 4 result) ∧
        (heap ⟨.big, [1, 2, 3, 2, 1], ⟨0, 5, 0, 0⟩⟩).getters.bytesBefore (4 : Nat) ((1 : Nat) - (4 : Nat))
          (· == 2) = .ok (if result = -1 then -1 else result - (4 : Nat)) := by
  have built : (heap ⟨.big, [1, 2, 3, 2, 1], ⟨0, 5, 0, 0⟩⟩).WellBuilt :=
    .heap (by decide) ⟨by decide, by decide, by decide⟩
  exact ⟨by decide, indexOf_exact built 2 (by decide) (by decide)⟩

end ChannelBuffer

end Cetty
