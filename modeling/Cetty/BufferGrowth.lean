import Cetty.BufferOperations

/-!
# When the dynamic buffer can make room

The new capacity is found by doubling the old one in 32 bits until it reaches the sum of the
writer index and the requested count, which is itself a 32-bit sum. The loop ends exactly when
one of the doubled values reaches that sum; the values that have wrapped count as well.
-/

namespace Cetty

open MachineInt ByteWindow

namespace ChannelBuffer

/-- What the buffer's capacity is after so many rounds of `newCapacity <<= 1`. -/
def doubled (newCapacity : Int) (doublings : Nat) : Int := int32 (newCapacity * 2 ^ doublings)

variable {newCapacity : Int}

theorem doubled_zero (lower : minInt ≤ newCapacity)
    (upper : newCapacity ≤ maxInt) : doubled newCapacity 0 = newCapacity := by
  unfold doubled
  rw [Int.pow_zero, Int.mul_one, int32_of_bounds lower upper]

theorem doubled_succ (newCapacity : Int) (doublings : Nat) :
    doubled (int32 (newCapacity * 2)) doublings = doubled newCapacity (doublings + 1) := by
  unfold doubled int32
  rw [Int.bmod_mul_bmod, Int.pow_succ', Int.mul_assoc]

theorem doubled_bounds (newCapacity : Int) (doublings : Nat) :
    minInt ≤ doubled newCapacity doublings ∧ doubled newCapacity doublings ≤ maxInt :=
  int32_bounds _

/-- All 32 bits have been shifted out. -/
theorem doubled_out (newCapacity : Int) {doublings : Nat} (many : 32 ≤ doublings) :
    doubled newCapacity doublings = 0 := by
  obtain ⟨more, rfl⟩ := Nat.exists_eq_add_of_le many
  have turns : newCapacity * 2 ^ (32 + more) = newCapacity * 2 ^ more * 4294967296 := by
    rw [Int.pow_add, Int.mul_assoc, Int.mul_comm (2 ^ 32)]
    rfl
  unfold doubled int32
  rw [turns]
  exact Int.mul_bmod_left _ 4294967296

/-- The loop returns the first doubled capacity that is large enough, if there is one among
those it looks at. -/
theorem growCapacity_run (fuel : Nat) (minNewCapacity : Int)
    (lower : minInt ≤ newCapacity) (upper : newCapacity ≤ maxInt) :
    (growCapacity fuel newCapacity minNewCapacity = .error .diverges ∧
      ∀ doublings < fuel, doubled newCapacity doublings < minNewCapacity) ∨
    ∃ doublings < fuel,
      growCapacity fuel newCapacity minNewCapacity = .ok (doubled newCapacity doublings) ∧
      minNewCapacity ≤ doubled newCapacity doublings ∧
      ∀ fewer < doublings, doubled newCapacity fewer < minNewCapacity := by
  induction fuel generalizing newCapacity with
  | zero =>
      left
      refine ⟨rfl, ?_⟩
      intro doublings below
      omega
  | succ fuel ih =>
      have start := doubled_zero lower upper
      by_cases short : newCapacity < minNewCapacity
      · have bounds := int32_bounds (newCapacity * 2)
        rcases ih bounds.1 bounds.2 with ⟨ran, all⟩ | ⟨doublings, below, ran, enough, least⟩
        · left
          refine ⟨?_, ?_⟩
          · rw [growCapacity, if_pos short, ran]
          · intro doublings below
            cases doublings with
            | zero =>
                rw [start]
                exact short
            | succ doublings =>
                rw [← doubled_succ]
                exact all doublings (by omega)
        · right
          refine ⟨doublings + 1, by omega, ?_, ?_, ?_⟩
          · rw [growCapacity, if_pos short, ran, doubled_succ]
          · rw [← doubled_succ]
            exact enough
          · intro fewer less
            cases fewer with
            | zero =>
                rw [start]
                exact short
            | succ fewer =>
                rw [← doubled_succ]
                exact least fewer (by omega)
      · right
        refine ⟨0, by omega, ?_, ?_, ?_⟩
        · rw [growCapacity, if_neg short, start]
          rfl
        · rw [start]
          omega
        · intro fewer less
          omega

/-- Some doubling of a capacity is large enough. -/
def Reaches (newCapacity minNewCapacity : Int) : Prop :=
  ∃ doublings < 32, minNewCapacity ≤ doubled newCapacity doublings

instance (newCapacity minNewCapacity : Int) : Decidable (Reaches newCapacity minNewCapacity) :=
  inferInstanceAs (Decidable (∃ doublings < 32, minNewCapacity ≤ doubled newCapacity doublings))

section Loop

variable {newCapacity minNewCapacity : Int}

theorem growCapacity_ends (positive : 0 < newCapacity) (upper : newCapacity ≤ maxInt)
    (reaches : Reaches newCapacity minNewCapacity) :
    ∃ grown, growCapacity growCapacityRounds newCapacity minNewCapacity = .ok grown ∧
      minNewCapacity ≤ grown ∧ newCapacity ≤ grown ∧ grown ≤ maxInt := by
  have lower : minInt ≤ newCapacity := by
    unfold minInt
    omega
  rcases growCapacity_run growCapacityRounds minNewCapacity lower upper with
    ⟨-, all⟩ | ⟨doublings, -, ran, enough, least⟩
  · obtain ⟨doublings, few, reached⟩ := reaches
    have below := all doublings (by unfold growCapacityRounds; omega)
    omega
  · refine ⟨doubled newCapacity doublings, ran, enough, ?_, (doubled_bounds _ _).2⟩
    have start := doubled_zero lower upper
    cases doublings with
    | zero => omega
    | succ doublings =>
        have first := least 0 (by omega)
        omega

theorem growCapacity_endless (positive : 0 < newCapacity) (upper : newCapacity ≤ maxInt)
    (unreached : ¬Reaches newCapacity minNewCapacity) :
    growCapacity growCapacityRounds newCapacity minNewCapacity = .error .diverges := by
  have lower : minInt ≤ newCapacity := by
    unfold minInt
    omega
  rcases growCapacity_run growCapacityRounds minNewCapacity lower upper with
    ⟨ran, -⟩ | ⟨doublings, -, -, enough, -⟩
  · exact ran
  · exfalso
    apply unreached
    by_cases few : doublings < 32
    · exact ⟨doublings, few, enough⟩
    · -- a sum that zero reaches is reached by the capacity itself
      rw [doubled_out newCapacity (by omega)] at enough
      refine ⟨0, by decide, ?_⟩
      rw [doubled_zero lower upper]
      omega

end Loop

/-- The buffers `ensureWritableBytes` can find: nothing is asked of the reader index, and the
writer index is at most the capacity. -/
structure Held (buffer : HeapChannelBuffer) (idx : Indices) : Prop where
  small : (buffer.arry.length : Int) ≤ maxInt
  written : idx.writerIdx ≤ buffer.arry.length

/-- Either an exception, or room for so many bytes, with the indices and the bytes in front of
the writer index unchanged. -/
def EnsuresRoom (buffer : ChannelBuffer) (minWritableBytes : Int) : Prop :=
  match (BufferM.ensureWritableBytes minWritableBytes).run buffer with
  | .ok _ after => minWritableBytes ≤ after.writableBytes ∧ after.idx = buffer.idx ∧
      window after.content 0 buffer.writerIdx.toNat =
        window buffer.content 0 buffer.writerIdx.toNat
  | .error stop _ => ∃ exception, stop = .thrown exception

end ChannelBuffer

open ChannelBuffer

namespace BufferM

section Room

variable {endianness factory : ByteOrder} {buffer : HeapChannelBuffer} {idx : Indices}
  {minWritableBytes : Int}

theorem writableBytes_held : (dynamic endianness factory buffer idx).writableBytes =
    int32 (buffer.arry.length - idx.writerIdx) := by
  unfold writableBytes capacity
  simp only [getters, HeapChannelBuffer.getters, Getters.heap]
  rfl

/-- A negative writer index is refused by the copy. -/
theorem ensureWritableBytes_negative {grown : Int}
    (short : ¬minWritableBytes ≤ (dynamic endianness factory buffer idx).writableBytes)
    (negative : idx.writerIdx < 0)
    (ended : growCapacity growCapacityRounds ((max buffer.arry.length 1 : Nat) : Int)
      (int32 (idx.writerIdx + minWritableBytes)) = .ok grown)
    (larger : ((max buffer.arry.length 1 : Nat) : Int) ≤ grown) :
    (ensureWritableBytes minWritableBytes).run (dynamic endianness factory buffer idx) =
      .error (rangeException "") (dynamic endianness factory buffer idx) := by
  have fresh : allocate endianness grown =
      .ok ⟨endianness, List.replicate grown.toNat 0, .zero⟩ := by
    unfold allocate
    rw [if_neg (by omega), if_neg (by omega)]
    rfl
  have refused : HeapChannelBuffer.setBytes ⟨endianness, List.replicate grown.toNat 0, .zero⟩ 0
      buffer.getters 0 idx.writerIdx = .error (rangeException "") := by
    unfold HeapChannelBuffer.setBytes HeapChannelBuffer.getters
    simp only [Getters.heap]
    unfold CharArray.copy
    rw [if_pos (Or.inr (Or.inr (Or.inl negative)))]
    rfl
  rw [ensureWritableBytes_short short, ended, run_bind_ok _ (run_call_ok _ _), fresh,
    run_bind_ok _ (run_call_ok _ _), refused, run_bind_error _ (run_call_error _ _)]

end Room

end BufferM

namespace ChannelBuffer

open BufferM

section Room

variable {endianness factory : ByteOrder} {buffer : HeapChannelBuffer} {idx : Indices}
  {minWritableBytes : Int}

theorem ensuresRoom_at_once
    (enough : minWritableBytes ≤ (dynamic endianness factory buffer idx).writableBytes) :
    EnsuresRoom (dynamic endianness factory buffer idx) minWritableBytes := by
  have ran : (ensureWritableBytes minWritableBytes).run (dynamic endianness factory buffer idx) =
      .ok () (dynamic endianness factory buffer idx) := by
    unfold ensureWritableBytes
    rw [run_bind_get]
    rw [if_pos enough]
    rfl
  unfold EnsuresRoom
  rw [ran]
  exact ⟨enough, rfl, rfl⟩

theorem capacity_positive (held : Held buffer idx) :
    0 < ((max buffer.arry.length 1 : Nat) : Int) ∧
      ((max buffer.arry.length 1 : Nat) : Int) ≤ maxInt := by
  have small := held.small
  have limit : maxInt = 2147483647 := rfl
  omega

section

variable (held : Held buffer idx)
  (short : ¬minWritableBytes ≤ (dynamic endianness factory buffer idx).writableBytes)

include held short

/-- No doubling is large enough: the loop never ends. -/
theorem ensuresRoom_endless (unreached : ¬Reaches ((max buffer.arry.length 1 : Nat) : Int)
      (int32 (idx.writerIdx + minWritableBytes))) :
    ¬EnsuresRoom (dynamic endianness factory buffer idx) minWritableBytes := by
  obtain ⟨positive, representable⟩ := capacity_positive held
  have ran := ensureWritableBytes_short short
  rw [growCapacity_endless positive representable unreached,
    run_bind_error _ (run_call_error _ _)] at ran
  unfold EnsuresRoom
  rw [ran]
  rintro ⟨exception, same⟩
  cases same

/-- A doubling is large enough for the 32-bit sum; the room is what was asked for when the sum
has not wrapped. -/
theorem ensuresRoom_doubled_iff (nonneg : 0 ≤ idx.writerIdx)
    (reaches : Reaches ((max buffer.arry.length 1 : Nat) : Int)
      (int32 (idx.writerIdx + minWritableBytes))) :
    EnsuresRoom (dynamic endianness factory buffer idx) minWritableBytes ↔
      idx.writerIdx + minWritableBytes ≤ maxInt := by
  obtain ⟨positive, representable⟩ := capacity_positive held
  obtain ⟨grown, ended, enough, larger, upper⟩ :=
    growCapacity_ends positive representable reaches
  obtain ⟨heap, ran, -, size, kept⟩ :=
    ensureWritableBytes_copies held.small held.written short nonneg ended larger upper
  have small := held.small
  have written := held.written
  have roomy : (dynamic endianness factory heap idx).writableBytes = grown - idx.writerIdx := by
    rw [writableBytes_held, size, int32_of_nonneg (by omega) (by omega)]
  unfold EnsuresRoom
  rw [ran]
  dsimp only
  rw [roomy]
  constructor
  · rintro ⟨room, -, -⟩
    omega
  · intro fits
    have space : (dynamic endianness factory buffer idx).writableBytes =
        buffer.arry.length - idx.writerIdx := by
      rw [writableBytes_held, int32_of_nonneg (by omega) (by omega)]
    have whole : int32 (idx.writerIdx + minWritableBytes) = idx.writerIdx + minWritableBytes :=
      int32_of_nonneg (by omega) fits
    exact ⟨by omega, rfl, kept⟩

end

/-- `ensureWritableBytes` keeps what it promises exactly when there is room already, or the
needed capacity is representable and some doubling of the present one reaches it. -/
theorem ensuresRoom_iff (held : Held buffer idx) :
    EnsuresRoom (dynamic endianness factory buffer idx) minWritableBytes ↔
      minWritableBytes ≤ (dynamic endianness factory buffer idx).writableBytes ∨
      (idx.writerIdx < 0 ∨ idx.writerIdx + minWritableBytes ≤ maxInt) ∧
        Reaches ((max buffer.arry.length 1 : Nat) : Int)
          (int32 (idx.writerIdx + minWritableBytes)) := by
  obtain ⟨positive, representable⟩ := capacity_positive held
  by_cases short : minWritableBytes ≤ (dynamic endianness factory buffer idx).writableBytes
  · exact iff_of_true (ensuresRoom_at_once short) (Or.inl short)
  rw [or_iff_right short]
  by_cases reaches : Reaches ((max buffer.arry.length 1 : Nat) : Int)
      (int32 (idx.writerIdx + minWritableBytes))
  · rw [and_iff_left reaches]
    by_cases negative : idx.writerIdx < 0
    · obtain ⟨grown, ended, -, larger, -⟩ := growCapacity_ends positive representable reaches
      have ran := ensureWritableBytes_negative short negative ended larger
      apply iff_of_true
      · unfold EnsuresRoom
        rw [ran]
        exact ⟨_, rfl⟩
      · exact Or.inl negative
    · rw [or_iff_right negative]
      exact ensuresRoom_doubled_iff held short (by omega) reaches
  · apply iff_of_false
    · exact ensuresRoom_endless held short reaches
    · exact fun wanted => reaches wanted.2

/-- Five doubles to 5 * 2^28, which is more than 2^30. -/
theorem ensuresRoom_five :
    EnsuresRoom (dynamic .big .big ⟨.big, [1, 2, 3, 4, 5], ⟨0, 3, 0, 0⟩⟩ ⟨0, 3, 0, 0⟩)
      1200000000 := by
  have held : Held ⟨.big, [1, 2, 3, 4, 5], ⟨0, 3, 0, 0⟩⟩ ⟨0, 3, 0, 0⟩ :=
    ⟨by decide, by decide⟩
  rw [ensuresRoom_iff held]
  right
  exact ⟨Or.inr (by decide), 28, by decide, by decide +kernel⟩

/-- An empty buffer asked for more than 2^30 bytes doubles for ever, and one that holds a byte
is left without room when the sum wraps. -/
theorem ensuresRoom_endless_and_wrapped :
    ¬EnsuresRoom (dynamic .big .big ⟨.big, [], .zero⟩ .zero) 1073741825 ∧
      ¬EnsuresRoom (dynamic .big .big ⟨.big, [7], ⟨0, 1, 0, 0⟩⟩ ⟨0, 1, 0, 0⟩) 2147483647 := by
  constructor
  · have held : Held ⟨.big, [], .zero⟩ .zero := ⟨by decide, by decide⟩
    exact ensuresRoom_endless held (by decide) (by decide)
  · have held : Held ⟨.big, [7], ⟨0, 1, 0, 0⟩⟩ ⟨0, 1, 0, 0⟩ := ⟨by decide, by decide⟩
    have wrapped : ¬((1 : Int) + 2147483647 ≤ maxInt) := by decide
    exact fun ensured => wrapped
      ((ensuresRoom_doubled_iff held (by decide) (by decide) (by decide)).mp ensured)

end Room

end ChannelBuffer

end Cetty
