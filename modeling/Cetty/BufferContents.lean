import Cetty.ChannelBuffer

/-!
# What a channel buffer holds

`content` is the byte string between index zero and the capacity, whatever kind
the buffer is. `Serves` says that the random access methods answer from such a
string, so later modules reason about strings only.
-/

namespace Cetty

open MachineInt ByteWindow

namespace ByteOrder

/-- The unsigned number a run of bytes stands for. -/
def number : ByteOrder → List Byte → Nat
  | big, bytes => bytes.foldl (fun value byte => value * 256 + byte.toNat) 0
  | little, bytes => bytes.foldr (fun byte value => value * 256 + byte.toNat) 0

def shortAt (order : ByteOrder) (cells : CharArray) (index : Nat) : BitVec 16 :=
  order.short (cells.getD index 0) (cells.getD (index + 1) 0)

def mediumAt (order : ByteOrder) (cells : CharArray) (index : Nat) : BitVec 32 :=
  order.medium (cells.getD index 0) (cells.getD (index + 1) 0) (cells.getD (index + 2) 0)

def intAt (order : ByteOrder) (cells : CharArray) (index : Nat) : BitVec 32 :=
  order.int (order.shortAt cells index) (order.shortAt cells (index + 2))

def longAt (order : ByteOrder) (cells : CharArray) (index : Nat) : BitVec 64 :=
  order.long (order.intAt cells index) (order.intAt cells (index + 4))

end ByteOrder

theorem toNat_append {high low : Nat} (front : BitVec high) (back : BitVec low) :
    (front ++ back).toNat = front.toNat * 2 ^ low + back.toNat := by
  rw [BitVec.toNat_append, ← Nat.shiftLeft_add_eq_or_of_lt back.isLt, Nat.shiftLeft_eq]

section Numbers

variable (order : ByteOrder) {cells : CharArray} {index : Nat}

theorem window_cons (inside : index < cells.length) (count : Nat) :
    window cells index (count + 1) = cells.getD index 0 :: window cells (index + 1) count := by
  unfold window
  rw [List.drop_eq_getElem_cons inside, List.take_succ_cons]
  simp [inside]

theorem shortAt_toNat (inside : index + 2 ≤ cells.length) :
    (order.shortAt cells index).toNat = order.number (window cells index 2) := by
  rw [window_cons (by omega), window_cons (by omega), window_zero_count]
  cases order with
  | big =>
      simp only [ByteOrder.shortAt, ByteOrder.short, ByteOrder.number, toNat_append, List.foldl]
      omega
  | little =>
      simp only [ByteOrder.shortAt, ByteOrder.short, ByteOrder.number, toNat_append, List.foldr]
      omega

/-- Three bytes behind a zero one. -/
theorem medium_toNat (first second third : Byte) :
    (ByteOrder.big.medium first second third).toNat =
      (first.toNat * 256 + second.toNat) * 256 + third.toNat := by
  change (0#8 ++ first ++ second ++ third : BitVec (8 + 8 + 8 + 8)).toNat = _
  rw [toNat_append, toNat_append, toNat_append]
  change ((0 * 256 + first.toNat) * 256 + second.toNat) * 256 + third.toNat = _
  rw [Nat.zero_mul, Nat.zero_add]

theorem mediumAt_toNat (inside : index + 3 ≤ cells.length) :
    (order.mediumAt cells index).toNat = order.number (window cells index 3) := by
  rw [window_cons (by omega), window_cons (by omega), window_cons (by omega), window_zero_count]
  unfold ByteOrder.mediumAt
  cases order with
  | big =>
      rw [medium_toNat]
      simp only [ByteOrder.number, List.foldl, Nat.zero_mul, Nat.zero_add, Nat.add_assoc,
        Nat.reduceAdd]
  | little =>
      change (ByteOrder.big.medium _ _ _).toNat = _
      rw [medium_toNat]
      simp only [ByteOrder.number, List.foldr, Nat.zero_mul, Nat.zero_add, Nat.add_assoc,
        Nat.reduceAdd]

theorem number_from (start : Nat) (bytes : List Byte) :
    bytes.foldl (fun value byte => value * 256 + byte.toNat) start =
      start * 256 ^ bytes.length + ByteOrder.big.number bytes := by
  simp only [ByteOrder.number]
  induction bytes generalizing start with
  | nil => simp
  | cons byte rest ih =>
      rw [List.foldl_cons, List.foldl_cons, ih, ih (0 * 256 + byte.toNat), List.length_cons,
        Nat.pow_succ]
      rw [Nat.zero_mul, Nat.zero_add, Nat.add_mul, Nat.mul_assoc, Nat.mul_comm 256,
        Nat.add_assoc]

theorem number_append_big (first second : List Byte) :
    ByteOrder.big.number (first ++ second) =
      ByteOrder.big.number first * 256 ^ second.length + ByteOrder.big.number second := by
  change (first ++ second).foldl (fun value byte => value * 256 + byte.toNat) 0 = _
  rw [List.foldl_append, number_from]
  rfl

theorem number_append_little (first second : List Byte) :
    ByteOrder.little.number (first ++ second) =
      ByteOrder.little.number second * 256 ^ first.length + ByteOrder.little.number first := by
  simp only [ByteOrder.number, List.foldr_append]
  induction first with
  | nil => simp
  | cons byte rest ih =>
      rw [List.foldr_cons, List.foldr_cons, ih, List.length_cons, Nat.pow_succ, Nat.add_mul,
        Nat.mul_assoc, Nat.add_assoc]

theorem number_lt {bytes : List Byte} {count : Nat} (size : bytes.length = count) :
    order.number bytes < 256 ^ count := by
  cases order with
  | big =>
      induction count generalizing bytes with
      | zero =>
          rw [List.length_eq_zero_iff.mp size]
          decide
      | succ count ih =>
          obtain ⟨byte, rest, rfl⟩ := List.exists_cons_of_length_eq_add_one size
          have below := ih (Nat.succ.inj size)
          have top := byte.isLt
          have split_ := number_append_big [byte] rest
          have first : ByteOrder.big.number [byte] = byte.toNat := by simp [ByteOrder.number]
          rw [List.singleton_append, first, Nat.succ.inj size] at split_
          rw [split_, Nat.pow_succ, Nat.mul_comm (256 ^ count)]
          have room := Nat.mul_le_mul_right (256 ^ count) (Nat.le_of_lt_succ top)
          omega
  | little =>
      induction count generalizing bytes with
      | zero =>
          rw [List.length_eq_zero_iff.mp size]
          decide
      | succ count ih =>
          obtain ⟨byte, rest, rfl⟩ := List.exists_cons_of_length_eq_add_one size
          have below := ih (Nat.succ.inj size)
          have top := byte.isLt
          change ByteOrder.little.number rest * 256 + byte.toNat < _
          rw [Nat.pow_succ]
          omega

theorem intAt_toNat (inside : index + 4 ≤ cells.length) :
    (order.intAt cells index).toNat = order.number (window cells index 4) := by
  have front := shortAt_toNat order (show index + 2 ≤ cells.length by omega)
  have back := shortAt_toNat order (show index + 2 + 2 ≤ cells.length by omega)
  have halves := window_append cells index 2 2
  have first : (window cells index 2).length = 2 := window_length (by omega)
  have second : (window cells (index + 2) 2).length = 2 := window_length (by omega)
  cases order with
  | big =>
      rw [halves, number_append_big, second, ← front, ← back]
      exact toNat_append _ _
  | little =>
      rw [halves, number_append_little, first, ← front, ← back]
      exact toNat_append _ _

theorem longAt_toNat (inside : index + 8 ≤ cells.length) :
    (order.longAt cells index).toNat = order.number (window cells index 8) := by
  have front := intAt_toNat order (show index + 4 ≤ cells.length by omega)
  have back := intAt_toNat order (show index + 4 + 4 ≤ cells.length by omega)
  have halves := window_append cells index 4 4
  have first : (window cells index 4).length = 4 := window_length (by omega)
  have second : (window cells (index + 4) 4).length = 4 := window_length (by omega)
  cases order with
  | big =>
      rw [halves, number_append_big, second, ← front, ← back]
      exact toNat_append _ _
  | little =>
      rw [halves, number_append_little, first, ← front, ← back]
      exact toNat_append _ _

end Numbers

/-- The higher digit decides. -/
theorem digits_lt {base high low high_ low_ : Nat} (small : low < base) (small_ : low_ < base) :
    high * base + low < high_ * base + low_ ↔ high < high_ ∨ high = high_ ∧ low < low_ := by
  rcases Nat.lt_trichotomy high high_ with below | same | above
  · have room := Nat.mul_le_mul_right base (show high + 1 ≤ high_ from below)
    rw [Nat.add_mul, Nat.one_mul] at room
    omega
  · rw [same]
    omega
  · have room := Nat.mul_le_mul_right base (show high_ + 1 ≤ high from above)
    rw [Nat.add_mul, Nat.one_mul] at room
    omega

theorem number_cons (order : ByteOrder) (byte : Byte) (rest : List Byte) :
    order.number (byte :: rest) = match order with
      | .big => byte.toNat * 256 ^ rest.length + ByteOrder.big.number rest
      | .little => ByteOrder.little.number rest * 256 + byte.toNat := by
  cases order with
  | big =>
      have split_ := number_append_big [byte] rest
      have single : ByteOrder.big.number [byte] = byte.toNat := by simp [ByteOrder.number]
      rw [single] at split_
      exact split_
  | little => rfl

/-- A number and its length determine the bytes. -/
theorem number_injective (order : ByteOrder) {first second : List Byte}
    (sizes : first.length = second.length) (same : order.number first = order.number second) :
    first = second := by
  induction first generalizing second with
  | nil => exact (List.length_eq_zero_iff.mp sizes.symm).symm
  | cons byte rest ih =>
      cases second with
      | nil => cases sizes
      | cons other more =>
          have lengths := Nat.succ.inj sizes
          have top := byte.isLt
          have top_ := other.isLt
          rw [number_cons, number_cons] at same
          cases order with
          | big =>
              dsimp only at same
              have low := number_lt ByteOrder.big lengths
              have low_ := number_lt ByteOrder.big (show more.length = more.length from rfl)
              rw [lengths] at same
              have equal : byte.toNat = other.toNat := by
                rcases Nat.lt_trichotomy byte.toNat other.toNat with below | equal | above
                · have less := (digits_lt low low_).mpr (Or.inl below)
                  omega
                · exact equal
                · have less := (digits_lt low_ low).mpr (Or.inl above)
                  omega
              rw [equal] at same
              rw [BitVec.eq_of_toNat_eq equal, ih lengths (Nat.add_left_cancel same)]
          | little =>
              dsimp only at same
              have equal : byte.toNat = other.toNat := by omega
              rw [BitVec.eq_of_toNat_eq equal, ih lengths (by omega)]

theorem getD_window {cells : CharArray} {start count index : Nat} (within : index < count) :
    (window cells start count).getD index 0 = cells.getD (start + index) 0 := by
  rw [List.getD_eq_getElem?_getD, List.getD_eq_getElem?_getD]
  simp only [window]
  rw [List.getElem?_take_of_lt within, List.getElem?_drop]

section Windows

variable (order : ByteOrder) {cells : CharArray} {start count index : Nat}

theorem short_at_window (within : index + 2 ≤ count) :
    order.shortAt (window cells start count) index = order.shortAt cells (start + index) := by
  unfold ByteOrder.shortAt
  rw [getD_window (by omega), getD_window (by omega), Nat.add_assoc]

theorem medium_at_window (within : index + 3 ≤ count) :
    order.mediumAt (window cells start count) index = order.mediumAt cells (start + index) := by
  unfold ByteOrder.mediumAt
  rw [getD_window (by omega), getD_window (by omega), getD_window (by omega), Nat.add_assoc,
    Nat.add_assoc]

theorem int_at_window (within : index + 4 ≤ count) :
    order.intAt (window cells start count) index = order.intAt cells (start + index) := by
  unfold ByteOrder.intAt
  rw [short_at_window order (by omega), short_at_window order (by omega), Nat.add_assoc]

theorem long_at_window (within : index + 8 ≤ count) :
    order.longAt (window cells start count) index = order.longAt cells (start + index) := by
  unfold ByteOrder.longAt
  rw [int_at_window order (by omega), int_at_window order (by omega), Nat.add_assoc]

end Windows

namespace CharArray

theorem at_of_lt {array : CharArray} {index : Nat} (inside : index < array.length) :
    array.at_ index = .ok (array.getD index 0) := by
  unfold at_
  rw [if_neg (by omega)]
  rfl

/-- Past the end of the target the copy is refused or undefined. -/
theorem copy_overrun (dst src : CharArray) (srcIndex : Int) {dstIndex length : Nat}
    (beyond : dst.length < dstIndex + length) :
    ∃ stop, copy dst dstIndex src srcIndex length = .error stop ∧
      (stop = .outOfBounds ∨ stop = rangeException "") := by
  have outside : (src.length : Int) < srcIndex + length ∨
      (dst.length : Int) < (dstIndex : Int) + length := by omega
  unfold copy
  simp only
  rw [if_pos outside]
  split
  · exact ⟨_, rfl, Or.inr rfl⟩
  · exact ⟨_, rfl, Or.inl rfl⟩

theorem copy_of_inside {dst src : CharArray} {dstIndex srcIndex length : Nat}
    (source : srcIndex + length ≤ src.length) (target : dstIndex + length ≤ dst.length)
    (srcSmall : (src.length : Int) ≤ maxInt) (dstSmall : (dst.length : Int) ≤ maxInt) :
    copy dst dstIndex src srcIndex length =
      .ok (overwrite dst dstIndex (window src srcIndex length)) := by
  unfold maxInt at srcSmall dstSmall
  have srcSum : int32 ((srcIndex : Int) + length) = srcIndex + length :=
    int32_of_nonneg (by omega) (by unfold maxInt; omega)
  have dstSum : int32 ((dstIndex : Int) + length) = dstIndex + length :=
    int32_of_nonneg (by omega) (by unfold maxInt; omega)
  unfold copy
  rw [srcSum, dstSum, if_neg (by omega), if_neg (by omega)]
  rfl

end CharArray

namespace Getters

structure Serves (getters : Getters) (content : CharArray) : Prop where
  capacity : getters.capacity = content.length
  small : (content.length : Int) ≤ maxInt
  byte : ∀ index : Nat, index < content.length →
    getters.getByte index = .ok (content.getD index 0)
  short : ∀ index : Nat, index + 2 ≤ content.length →
    getters.getShort index = .ok (getters.order.shortAt content index)
  medium : ∀ index : Nat, index + 3 ≤ content.length →
    getters.getUnsignedMedium index = .ok (getters.order.mediumAt content index)
  int : ∀ index : Nat, index + 4 ≤ content.length →
    getters.getInt index = .ok (getters.order.intAt content index)
  long : ∀ index : Nat, index + 8 ≤ content.length →
    getters.getLong index = .ok (getters.order.longAt content index)
  bytes : ∀ (index length : Nat) (dst : CharArray) (dstIndex : Nat), 0 < length →
    index + length ≤ content.length → dstIndex + length ≤ dst.length →
    (dst.length : Int) ≤ maxInt →
    getters.getBytes index dst dstIndex length =
      .ok (overwrite dst dstIndex (window content index length))
  overrun : ∀ (index length : Nat) (dst : CharArray) (dstIndex : Nat),
    index + length ≤ content.length → dst.length < dstIndex + length →
    (dst.length : Int) ≤ maxInt →
    ∃ stop, getters.getBytes index dst dstIndex length = .error stop ∧
      (stop = .outOfBounds ∨ stop = rangeException "")
  nothing : ∀ (index : Nat) (dst : CharArray) (dstIndex : Nat), index ≤ content.length →
    dstIndex ≤ dst.length → (dst.length : Int) ≤ maxInt →
    getters.getBytes index dst dstIndex 0 = .ok dst ∨
      getters.getBytes index dst dstIndex 0 = .error (rangeException "")

/-- The typed methods answer from `content`. -/
structure Answers (getters : Getters) (content : CharArray) : Prop where
  capacity : getters.capacity = content.length
  small : (content.length : Int) ≤ maxInt
  byte : ∀ index : Nat, index < content.length →
    getters.getByte index = .ok (content.getD index 0)
  short : ∀ index : Nat, index + 2 ≤ content.length →
    getters.getShort index = .ok (getters.order.shortAt content index)
  medium : ∀ index : Nat, index + 3 ≤ content.length →
    getters.getUnsignedMedium index = .ok (getters.order.mediumAt content index)
  int : ∀ index : Nat, index + 4 ≤ content.length →
    getters.getInt index = .ok (getters.order.intAt content index)
  long : ∀ index : Nat, index + 8 ≤ content.length →
    getters.getLong index = .ok (getters.order.longAt content index)

theorem Serves.answers {getters : Getters} {content : CharArray} (serves : getters.Serves content) :
    getters.Answers content :=
  ⟨serves.capacity, serves.small, serves.byte, serves.short, serves.medium, serves.int, serves.long⟩

variable {arry : CharArray} {parent : Getters}

theorem heap_short {order : ByteOrder} {index : Nat}
    (inside : index + 2 ≤ arry.length) :
    (heap order arry).getShort index = .ok (order.shortAt arry index) := by
  have next : ((index : Int) + 1) = ((index + 1 : Nat) : Int) := by omega
  simp only [heap]
  rw [CharArray.at_of_lt (by omega), next, CharArray.at_of_lt (by omega)]
  rfl

theorem heap_int {order : ByteOrder} {index : Nat}
    (inside : index + 4 ≤ arry.length) :
    (heap order arry).getInt index = .ok (order.intAt arry index) := by
  have next : ((index : Int) + 2) = ((index + 2 : Nat) : Int) := by omega
  change (do
    let first ← (heap order arry).getShort index
    let second ← (heap order arry).getShort (index + 2)
    pure (order.int first second)) = _
  rw [heap_short (by omega), next, heap_short (by omega)]
  rfl

theorem heap_serves (order : ByteOrder)
    (small : (arry.length : Int) ≤ maxInt) : (heap order arry).Serves arry := by
  constructor
  · rfl
  · exact small
  · intro index inside
    exact CharArray.at_of_lt inside
  · intro index inside
    exact heap_short inside
  · intro index inside
    have second : ((index : Int) + 1) = ((index + 1 : Nat) : Int) := by omega
    have third : ((index : Int) + 2) = ((index + 2 : Nat) : Int) := by omega
    simp only [heap]
    rw [CharArray.at_of_lt (by omega), second, CharArray.at_of_lt (by omega), third,
      CharArray.at_of_lt (by omega)]
    rfl
  · intro index inside
    exact heap_int inside
  · intro index inside
    have next : ((index : Int) + 4) = ((index + 4 : Nat) : Int) := by omega
    change (do
      let first ← (heap order arry).getInt index
      let second ← (heap order arry).getInt (index + 4)
      pure (order.long first second)) = _
    rw [heap_int (by omega), next, heap_int (by omega)]
    rfl
  · intro index length dst dstIndex _ source target dstSmall
    simp only [heap]
    exact CharArray.copy_of_inside source target small dstSmall
  · intro index length dst dstIndex _ beyond _
    simp only [heap]
    exact CharArray.copy_overrun dst arry index beyond
  · intro index dst dstIndex bounded target dstSmall
    left
    have copied : CharArray.copy dst dstIndex arry index (0 : Nat) =
        .ok (overwrite dst dstIndex (window arry index 0)) :=
      CharArray.copy_of_inside bounded target small dstSmall
    rw [window_zero_count, overwrite_nothing] at copied
    simp only [heap]
    exact copied

section

variable {content : CharArray}

/-- A view answers from a window of what its parent answers from, if its check lets through
every access that stays in the window. -/
theorem view_answers
    {check : Int → Int → Except Stop Unit} {shift : Int → Int} {adjustment length : Nat}
    (answers : parent.Answers content) (inside : adjustment + length ≤ content.length)
    (passes : ∀ index width : Nat, index + width ≤ length → check index width = .ok ())
    (shifted : ∀ index : Nat, index ≤ length → shift index = ((adjustment + index : Nat) : Int)) :
    (parent.view check shift length).Answers (window content adjustment length) := by
  have size : (window content adjustment length).length = length := window_length inside
  have small := answers.small
  constructor
  · simp only [view, size]
  · rw [size]
    omega
  · intro index bounded
    rw [size] at bounded
    have checked : checkByte (length : Int) index = .ok () := by
      unfold checkByte
      rw [if_neg (by omega)]
      rfl
    simp only [view, checked, shifted index (by omega), bind, Except.bind]
    rw [answers.byte _ (by omega), getD_window bounded]
  · intro index bounded
    rw [size] at bounded
    have checked : check index 2 = .ok () := passes index 2 bounded
    simp only [view, checked, shifted index (by omega), bind, Except.bind]
    rw [answers.short _ (by omega), short_at_window _ bounded]
  · intro index bounded
    rw [size] at bounded
    have checked : check index 3 = .ok () := passes index 3 bounded
    simp only [view, checked, shifted index (by omega), bind, Except.bind]
    rw [answers.medium _ (by omega), medium_at_window _ bounded]
  · intro index bounded
    rw [size] at bounded
    have checked : check index 4 = .ok () := passes index 4 bounded
    simp only [view, checked, shifted index (by omega), bind, Except.bind]
    rw [answers.int _ (by omega), int_at_window _ bounded]
  · intro index bounded
    rw [size] at bounded
    have checked : check index 8 = .ok () := passes index 8 bounded
    simp only [view, checked, shifted index (by omega), bind, Except.bind]
    rw [answers.long _ (by omega), long_at_window _ bounded]

theorem slicedCheck_of_inside {adjustment length index width : Nat}
    (small : (content.length : Int) ≤ maxInt)
    (inside : adjustment + length ≤ content.length) (bounded : index + width ≤ length) :
    slicedCheck length index width = .ok () := by
  unfold maxInt at small
  have sum : int32 ((index : Int) + width) = index + width :=
    int32_of_nonneg (by omega) (by unfold maxInt; omega)
  unfold slicedCheck
  rw [sum, if_neg (by omega), if_neg (by omega), if_neg (by omega)]
  rfl

theorem truncatedCheck_of_inside {length index width : Nat}
    (small : (content.length : Int) ≤ maxInt)
    (inside : length ≤ content.length) (bounded : index + width ≤ length) :
    truncatedCheck length index width = .ok () := by
  unfold maxInt at small
  have sum : int32 ((index : Int) + width) = index + width :=
    int32_of_nonneg (by omega) (by unfold maxInt; omega)
  unfold truncatedCheck
  rw [sum, if_neg (by omega), if_neg (by omega)]
  rfl

/-- An index of a slice, shifted. -/
theorem shifted_inside {adjustment length : Nat}
    (small : (content.length : Int) ≤ maxInt) (inside : adjustment + length ≤ content.length)
    (index : Nat) (within : index ≤ length) :
    int32 ((index : Int) + adjustment) = ((adjustment + index : Nat) : Int) := by
  rw [int32_of_nonneg (by omega) (by omega)]
  omega

theorem sliced_answers {adjustment length : Nat}
    (answers : parent.Answers content) (inside : adjustment + length ≤ content.length) :
    (parent.sliced adjustment length).Answers (window content adjustment length) := by
  apply view_answers answers inside
  · intro index width bounded
    exact slicedCheck_of_inside answers.small inside bounded
  · exact shifted_inside answers.small inside

theorem truncated_answers {length : Nat}
    (answers : parent.Answers content) (inside : length ≤ content.length) :
    (parent.truncated length).Answers (window content 0 length) := by
  have within : 0 + length ≤ content.length := by omega
  apply view_answers answers within
  · intro index width bounded
    exact truncatedCheck_of_inside answers.small inside bounded
  · intro index _
    rw [Nat.zero_add]

end

/-- Without cells the byte order does not matter. -/
theorem reordered_serves {getters : Getters} {content : CharArray} (order : ByteOrder)
    (serves : getters.Serves content) (empty : content = []) :
    { getters with order := order }.Serves content := by
  have none : content.length = 0 := by
    rw [empty]
    rfl
  refine ⟨serves.capacity, serves.small, serves.byte, fun index inside => ?_,
    fun index inside => ?_, fun index inside => ?_, fun index inside => ?_, serves.bytes,
    serves.overrun, serves.nothing⟩
  · omega
  · omega
  · omega
  · omega

end Getters

namespace ChannelBuffer

mutual

def content : ChannelBuffer → CharArray
  | heap buffer => buffer.arry
  | dynamic _ _ buffer _ => buffer.arry
  | sliced buffer adjustment length _ => window (content buffer) adjustment.toNat length.toNat
  | truncated buffer length _ => window (content buffer) 0 length.toNat
  | duplicated buffer _ => content buffer
  | readOnly buffer _ => content buffer
  | composite _ components _ _ _ => componentContent components

def componentContent : List ChannelBuffer → CharArray
  | [] => []
  | component :: rest => content component ++ componentContent rest

end

/-- The bytes between the reader and the writer index. -/
def readableContent (buffer : ChannelBuffer) : CharArray :=
  window buffer.content buffer.readerIdx.toNat (buffer.writerIdx - buffer.readerIdx).toNat

end ChannelBuffer

structure Indices.Inside (idx : Indices) (capacity : Int) : Prop where
  reader : 0 ≤ idx.readerIdx
  writer : idx.readerIdx ≤ idx.writerIdx
  bound : idx.writerIdx ≤ capacity

namespace ChannelBuffer

section

variable (buffer : ChannelBuffer)

include buffer

@[simp] theorem idx_withIdx (idx : Indices) :
    (buffer.withIdx idx).idx = idx := by
  cases buffer <;> rfl

@[simp] theorem withIdx_idx : buffer.withIdx buffer.idx = buffer := by
  cases buffer <;> rfl

@[simp] theorem withIdx_withIdx (first second : Indices) :
    (buffer.withIdx first).withIdx second = buffer.withIdx second := by
  cases buffer <;> rfl

section

variable (idx : Indices)

include idx

@[simp] theorem getters_withIdx :
    (buffer.withIdx idx).getters = buffer.getters := by
  cases buffer with
  | heap => simp only [withIdx, getters, HeapChannelBuffer.getters]
  | _ => simp only [withIdx, getters]

@[simp] theorem content_withIdx :
    (buffer.withIdx idx).content = buffer.content := by
  cases buffer <;> simp only [withIdx, content]

@[simp] theorem readerIdx_withIdx :
    (buffer.withIdx idx).readerIdx = idx.readerIdx := by
  simp [readerIdx]

@[simp] theorem writerIdx_withIdx :
    (buffer.withIdx idx).writerIdx = idx.writerIdx := by
  simp [writerIdx]

@[simp] theorem capacity_withIdx :
    (buffer.withIdx idx).capacity = buffer.capacity := by
  simp [capacity]

end

end

theorem setIndex_of_inside {buffer : ChannelBuffer} {readerIndex writerIndex : Int}
    (reader : 0 ≤ readerIndex) (writer : readerIndex ≤ writerIndex)
    (bound : writerIndex ≤ buffer.capacity) :
    buffer.setIndex readerIndex writerIndex = .ok (buffer.withIdx
      { buffer.idx with readerIdx := readerIndex, writerIdx := writerIndex }) := by
  unfold setIndex
  rw [if_neg (by omega)]
  rfl

/-- A buffer that shows `bytes` between its indices. -/
structure Shows (buffer : ChannelBuffer) (bytes : CharArray) : Prop where
  inside : buffer.idx.Inside buffer.capacity
  bytes : buffer.readableContent = bytes

/-- What every buffer built by the library satisfies: the methods answer from
the content, a slice shows the cells it was cut from, the indices are in order. -/
structure Sound (buffer : ChannelBuffer) : Prop where
  serves : buffer.getters.Serves buffer.content
  slices : ∀ idx : Indices, idx.Inside buffer.content.length → ∀ index length : Nat,
    index + length ≤ buffer.content.length →
    ∃ part, (buffer.withIdx idx).slice index length = .ok part ∧
      part.Shows (window buffer.content index length)
  inside : buffer.idx.Inside buffer.content.length

namespace Sound

variable {buffer : ChannelBuffer}

theorem capacity (sound : buffer.Sound) : buffer.capacity = buffer.content.length :=
  sound.serves.capacity

theorem withIdx (sound : buffer.Sound) {idx : Indices}
    (inside : idx.Inside buffer.content.length) : (buffer.withIdx idx).Sound where
  serves := by simpa using sound.serves
  slices := by simpa using sound.slices
  inside := by simpa using inside

theorem slice (sound : buffer.Sound) {index length : Nat}
    (bounded : index + length ≤ buffer.content.length) :
    ∃ part, buffer.slice index length = .ok part ∧
      part.Shows (window buffer.content index length) := by
  have cut := sound.slices buffer.idx sound.inside index length bounded
  rwa [withIdx_idx] at cut

end Sound

theorem sliced_shows (buffer : ChannelBuffer) (index length : Nat) :
    (sliced buffer index length { Indices.zero with writerIdx := length }).Shows
      (window buffer.content index length) where
  inside := ⟨Int.le_refl _, Int.natCast_nonneg _, Int.le_refl _⟩
  bytes := by
    simp only [readableContent, content, readerIdx, writerIdx, idx, Indices.zero]
    rw [Int.toNat_natCast, Int.toNat_natCast, Int.sub_zero, Int.toNat_natCast, Int.toNat_zero,
      window_window _ _ _ _ _ (by omega), Nat.add_zero]

theorem truncated_shows (buffer : ChannelBuffer) (length : Nat) :
    (truncated buffer length { Indices.zero with writerIdx := length }).Shows
      (window buffer.content 0 length) where
  inside := ⟨Int.le_refl _, Int.natCast_nonneg _, Int.le_refl _⟩
  bytes := by
    simp only [readableContent, content, readerIdx, writerIdx, idx, Indices.zero]
    rw [Int.toNat_natCast, Int.sub_zero, Int.toNat_natCast, Int.toNat_zero,
      window_window _ _ _ _ _ (by omega)]

section

variable {buffer : ChannelBuffer}

theorem makeSliced_of_room {index length : Nat}
    (small : buffer.capacity ≤ maxInt) (bounded : ((index + length : Nat) : Int) ≤ buffer.capacity) :
    makeSliced buffer index length =
      .ok (sliced buffer index length { Indices.zero with writerIdx := length }) := by
  have sum : int32 ((index : Int) + length) = index + length :=
    int32_of_nonneg (by omega) (by omega)
  unfold makeSliced
  rw [sum, if_neg (by omega), if_neg (by omega)]
  unfold setWriterIndex
  rw [if_neg (by
    simp only [ChannelBuffer.capacity, readerIdx, idx, Indices.zero, getters, Getters.sliced,
      Getters.view]
    omega)]
  rfl

theorem makeTruncated_of_room {length : Nat}
    (bounded : (length : Int) ≤ buffer.capacity) :
    makeTruncated buffer length =
      .ok (truncated buffer length { Indices.zero with writerIdx := length }) := by
  unfold makeTruncated
  rw [if_neg (by omega)]
  unfold setWriterIndex
  rw [if_neg (by
    simp only [ChannelBuffer.capacity, readerIdx, idx, Indices.zero, getters, Getters.truncated,
      Getters.view]
    omega)]
  rfl

theorem makeSliced_of_inside {index length : Nat}
    (serves : buffer.getters.Serves buffer.content)
    (bounded : index + length ≤ buffer.content.length) :
    makeSliced buffer index length =
      .ok (sliced buffer index length { Indices.zero with writerIdx := length }) := by
  have capacity : buffer.capacity = buffer.content.length := serves.capacity
  have small := serves.small
  exact makeSliced_of_room (by omega) (by omega)

theorem makeTruncated_of_inside {length : Nat}
    (serves : buffer.getters.Serves buffer.content)
    (bounded : length ≤ buffer.content.length) :
    makeTruncated buffer length =
      .ok (truncated buffer length { Indices.zero with writerIdx := length }) := by
  have capacity : buffer.capacity = buffer.content.length := serves.capacity
  exact makeTruncated_of_room (by omega)

end

theorem emptyBuffer_shows : emptyBuffer.Shows [] where
  inside := ⟨Int.le_refl _, Int.le_refl _, Int.le_refl _⟩
  bytes := rfl

theorem directSlice_shows {buffer : ChannelBuffer} {index length : Nat}
    (serves : buffer.getters.Serves buffer.content)
    (bounded : index + length ≤ buffer.content.length) :
    ∃ part, directSlice buffer index length = .ok part ∧
      part.Shows (window buffer.content index length) := by
  unfold directSlice
  by_cases blank : length = 0
  · subst blank
    rw [if_pos (by omega), window_zero_count]
    exact ⟨_, rfl, emptyBuffer_shows⟩
  rw [if_neg (by omega)]
  by_cases front : index = 0
  · subst front
    rw [if_pos (by omega)]
    exact ⟨_, makeTruncated_of_inside serves (by omega), truncated_shows buffer length⟩
  · rw [if_neg (by omega)]
    exact ⟨_, makeSliced_of_inside serves bounded, sliced_shows buffer index length⟩

theorem heap_sound {buffer : HeapChannelBuffer} (small : (buffer.arry.length : Int) ≤ maxInt)
    (inside : buffer.idx.Inside buffer.arry.length) : (heap buffer).Sound := by
  have serves : ∀ idx, (heap { buffer with idx := idx }).getters.Serves buffer.arry := by
    intro idx
    exact Getters.heap_serves _ small
  refine ⟨serves buffer.idx, ?_, inside⟩
  intro idx order index length bounded
  simp only [content, withIdx, slice] at bounded ⊢
  split
  · rename_i whole
    obtain ⟨front, -, full⟩ := whole
    have front : index = 0 := by omega
    have full : length = buffer.arry.length := by omega
    subst front full
    have duplicated : makeDuplicated (heap { buffer with idx := idx }) =
        .ok ((ChannelBuffer.duplicated (heap { buffer with idx := idx }) .zero).withIdx
          { Indices.zero with readerIdx := idx.readerIdx, writerIdx := idx.writerIdx }) :=
      setIndex_of_inside order.reader order.writer order.bound
    rw [duplicated]
    refine ⟨_, setIndex_of_inside (Int.le_refl _) (Int.natCast_nonneg _) (Int.le_refl _), ?_⟩
    refine ⟨⟨Int.le_refl _, Int.natCast_nonneg _, Int.le_refl _⟩, ?_⟩
    simp only [readableContent, content_withIdx, readerIdx_withIdx, writerIdx_withIdx, content]
    rw [Int.sub_zero, Int.toNat_natCast]
    rfl
  · exact directSlice_shows (serves idx) bounded

/-- A dynamic buffer may hold the shared empty buffer of the other order. -/
theorem dynamic_serves {endianness : ByteOrder} {buffer : HeapChannelBuffer}
    (small : (buffer.arry.length : Int) ≤ maxInt)
    (ordered : buffer.byteOrder = endianness ∨ buffer.arry = []) :
    { buffer.getters with order := endianness }.Serves buffer.arry := by
  have base : buffer.getters.Serves buffer.arry := by
    unfold HeapChannelBuffer.getters
    exact Getters.heap_serves buffer.byteOrder small
  rcases ordered with same | empty
  · have same : buffer.getters.order = endianness := same
    rw [← same]
    exact base
  · exact Getters.reordered_serves endianness base empty

theorem dynamic_sound {endianness factory : ByteOrder} {buffer : HeapChannelBuffer}
    {idx : Indices} (small : (buffer.arry.length : Int) ≤ maxInt)
    (ordered : buffer.byteOrder = endianness ∨ buffer.arry = [])
    (inside : idx.Inside buffer.arry.length) : (dynamic endianness factory buffer idx).Sound := by
  have serves : ∀ idx, (dynamic endianness factory buffer idx).getters.Serves
      (dynamic endianness factory buffer idx).content := by
    intro idx
    simpa only [getters, content] using dynamic_serves small ordered
  refine ⟨serves idx, ?_, by simpa only [content, ChannelBuffer.idx] using inside⟩
  intro idx order index length bounded
  simp only [withIdx, slice]
  exact directSlice_shows (serves idx) bounded

theorem slice_sliced (buffer : ChannelBuffer) (adjustment length : Int) (idx : Indices)
    (index count : Int) (checked : Getters.slicedCheck length index count = .ok ()) :
    (sliced buffer adjustment length idx).slice index count =
      if count = 0 then .ok emptyBuffer else makeSliced buffer (int32 (index + adjustment)) count := by
  rw [slice]
  beta_reduce
  rw [checked, ok_bind]
  rfl

theorem slice_truncated (buffer : ChannelBuffer) (length : Int) (idx : Indices)
    (index count : Int) (checked : Getters.truncatedCheck length index count = .ok ()) :
    (truncated buffer length idx).slice index count =
      if count = 0 then .ok emptyBuffer else buffer.slice index count := by
  rw [slice]
  beta_reduce
  rw [checked, ok_bind]
  rfl

end ChannelBuffer

end Cetty
