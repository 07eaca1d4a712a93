import Cetty.BuiltBuffers

/-!
# Comparing channel buffers

`ChannelBuffers::hashCode`, `equals` and `compare`. They walk the readable bytes in words
of four or eight bytes and then byte by byte; the word of a buffer in the other byte order
is swapped.
-/

namespace Cetty

open MachineInt ByteWindow

namespace ChannelBuffers

/-- The shift of an `int16_t` is that of the `int` it is promoted to. -/
def swapShort (value : BitVec 16) : BitVec 16 :=
  ((value.signExtend 32 <<< 8) ||| ((value.signExtend 32).sshiftRight 8 &&& 0xff#32)).setWidth 16

def swapInt (value : BitVec 32) : BitVec 32 :=
  ((swapShort (value.setWidth 16)).signExtend 32 <<< 16) |||
    ((swapShort ((value.sshiftRight 16).setWidth 16)).signExtend 32 &&& 0xffff#32)

def swapLong (value : BitVec 64) : BitVec 64 :=
  ((swapInt (value.setWidth 32)).signExtend 64 <<< 32) |||
    ((swapInt ((value.sshiftRight 32).setWidth 32)).signExtend 64 &&& 0xffffffff#64)

/-- The word at an index as a buffer of `order` would read it. -/
def intIn (order : ByteOrder) (getters : Getters) (index : Int) : Except Stop (BitVec 32) :=
  if order = getters.order then getters.getInt index
  else do pure (swapInt (← getters.getInt index))

def longIn (order : ByteOrder) (getters : Getters) (index : Int) : Except Stop (BitVec 64) :=
  if order = getters.order then getters.getLong index
  else do pure (swapLong (← getters.getLong index))

/-- A loop of `hashCode`. -/
def hashing (term : Int → Except Stop (BitVec 32)) (width : Int) :
    Nat → BitVec 32 → Int → Except Stop (BitVec 32)
  | 0, hashCode, _ => pure hashCode
  | count + 1, hashCode, arrayIndex => do
      hashing term width count (31 * hashCode + (← term arrayIndex)) (arrayIndex + width)

/-- A negative length has no words, but `& 3` of it is not negative. -/
def hashCode (buffer : ChannelBuffer) : Except Stop (BitVec 32) := do
  let aLen := buffer.readableBytes
  let intCount := (aLen / 4).toNat
  let byteCount := (aLen % 4).toNat
  let getters := buffer.getters
  let hashCode ← hashing (intIn .big getters) 4 intCount 1 buffer.readerIdx
  let hashCode ← hashing (fun index => do pure ((← getters.getByte index).signExtend 32)) 1 byteCount
    hashCode (buffer.readerIdx + 4 * intCount)
  pure (if hashCode = 0 then 1 else hashCode)

/-- A loop of `equals`. -/
def matching {Value : Type} [DecidableEq Value] (getA getB : Int → Except Stop Value) (width : Int) :
    Nat → Int → Int → Except Stop Bool
  | 0, _, _ => pure true
  | count + 1, aIndex, bIndex => do
      if (← getA aIndex) ≠ (← getB bIndex) then pure false
      else matching getA getB width count (aIndex + width) (bIndex + width)

def equals (bufferA bufferB : ChannelBuffer) : Except Stop Bool := do
  let aLen := bufferA.readableBytes
  if aLen ≠ bufferB.readableBytes then pure false
  else
    let longCount := (aLen / 8).toNat
    let byteCount := (aLen % 8).toNat
    let getA := bufferA.getters
    let getB := bufferB.getters
    let longs ← matching getA.getLong (longIn bufferA.order getB) 8 longCount bufferA.readerIdx
      bufferB.readerIdx
    if longs then
      matching getA.getByte getB.getByte 1 byteCount (bufferA.readerIdx + 8 * longCount)
        (bufferB.readerIdx + 8 * longCount)
    else pure false

/-- A loop of `compare`; zero if it finds no difference. -/
def comparing (getA getB : Int → Except Stop Int) (width : Int) : Nat → Int → Int → Except Stop Int
  | 0, _, _ => pure 0
  | count + 1, aIndex, bIndex => do
      let va ← getA aIndex
      let vb ← getB bIndex
      if vb < va then pure 1
      else if va < vb then pure (-1)
      else comparing getA getB width count (aIndex + width) (bIndex + width)

def unsignedAt (get_ : Int → Except Stop (BitVec 32)) (index : Int) : Except Stop Int := do
  pure ((← get_ index).toNat : Int)

def signedAt (get_ : Int → Except Stop Byte) (index : Int) : Except Stop Int := do
  pure (← get_ index).toInt

/-- The words are `uint32_t`, the bytes behind them `int8_t`. -/
def compare (bufferA bufferB : ChannelBuffer) : Except Stop Int := do
  let aLen := bufferA.readableBytes
  let bLen := bufferB.readableBytes
  let minLength := if aLen < bLen then aLen else bLen
  let uintCount := (minLength / 4).toNat
  let byteCount := (minLength % 4).toNat
  let getA := bufferA.getters
  let getB := bufferB.getters
  let words ← comparing (unsignedAt getA.getInt) (unsignedAt (intIn bufferA.order getB)) 4 uintCount
    bufferA.readerIdx bufferB.readerIdx
  if words ≠ 0 then pure words
  else
    let bytes ← comparing (signedAt getA.getByte) (signedAt getB.getByte) 1 byteCount
      (bufferA.readerIdx + 4 * uintCount) (bufferB.readerIdx + 4 * uintCount)
    if bytes ≠ 0 then pure bytes else pure (int32 (aLen - bLen))

section Swapping

theorem halves_joined {width : Nat} (high low : BitVec width) (mask : BitVec (width + width))
    (below : ∀ place, place < width → mask.getLsbD place = true)
    (above : ∀ place, width ≤ place → mask.getLsbD place = false) :
    (high.signExtend (width + width) <<< width) ||| (low.signExtend (width + width) &&& mask) =
      high ++ low := by
  apply BitVec.eq_of_getLsbD_eq
  intro place inside
  rw [BitVec.getLsbD_or, BitVec.getLsbD_and, BitVec.getLsbD_shiftLeft, BitVec.getLsbD_append,
    BitVec.getLsbD_signExtend, BitVec.getLsbD_signExtend]
  by_cases front : place < width
  · rw [below place front]
    simp [front, inside]
  · rw [above place (by omega)]
    have shifted : place - width < width := by omega
    simp [front, inside, shifted]
    omega

theorem lowMask (count : Nat) {width : Nat} (place : Nat) (inside : place < width) :
    (BitVec.ofNat width (2 ^ count - 1)).getLsbD place = decide (place < count) := by
  rw [BitVec.getLsbD_ofNat, Nat.testBit_two_pow_sub_one]
  simp [inside]

theorem append_high {width : Nat} (high low : BitVec width) (place : Nat) :
    (high ++ low).getLsbD (width + place) = high.getLsbD place := by
  rw [BitVec.getLsbD_append, if_neg (by omega), Nat.add_sub_cancel_left]

theorem append_low {width place : Nat} (high low : BitVec width) (inside : place < width) :
    (high ++ low).getLsbD place = low.getLsbD place := by
  rw [BitVec.getLsbD_append, if_pos inside]

theorem swapShort_append (high low : Byte) : swapShort (high ++ low) = low ++ high := by
  apply BitVec.eq_of_getLsbD_eq
  intro place inside
  unfold swapShort
  have mask : (0xff#32).getLsbD place = decide (place < 8) := lowMask 8 place (by omega)
  rw [BitVec.getLsbD_setWidth, BitVec.getLsbD_or, BitVec.getLsbD_and, mask,
    BitVec.getLsbD_shiftLeft, BitVec.getLsbD_append, BitVec.getLsbD_sshiftRight,
    BitVec.getLsbD_signExtend, BitVec.getLsbD_signExtend]
  by_cases front : place < 8
  · have behind : 8 + place < 16 := by omega
    have low_ : ¬32 ≤ place := by omega
    have high_ : 8 + place < 32 := by omega
    have taken : (high ++ low : BitVec 16).getLsbD (8 + place) = high.getLsbD place :=
      append_high high low place
    simp [front, behind, inside, low_, high_]
    rw [← BitVec.getLsbD_eq_getElem, taken, BitVec.getLsbD_eq_getElem]
  · have behind : place - 8 < 8 := by omega
    have whole : place < 32 := by omega
    have moved : place - 8 < 32 := by omega
    have part : place - 8 < 16 := by omega
    have taken : (high ++ low : BitVec 16).getLsbD (place - 8) = low.getLsbD (place - 8) :=
      append_low high low behind
    simp [front, behind, inside, whole, moved, part]
    rw [← BitVec.getLsbD_eq_getElem, taken, BitVec.getLsbD_eq_getElem]

theorem swapInt_append (high low : BitVec 16) :
    swapInt (high ++ low) = swapShort low ++ swapShort high := by
  have front : (high ++ low : BitVec 32).setWidth 16 = low := BitVec.setWidth_append_eq_right
  have back : ((high ++ low : BitVec 32).sshiftRight 16).setWidth 16 = high := by
    apply BitVec.eq_of_getLsbD_eq
    intro place inside
    have moved : 16 + place < 32 := by omega
    have low_ : ¬32 ≤ place := by omega
    have taken : (high ++ low : BitVec 32).getLsbD (16 + place) = high.getLsbD place :=
      append_high high low place
    rw [BitVec.getLsbD_setWidth, BitVec.getLsbD_sshiftRight, if_pos moved, taken]
    simp [inside, low_]
  unfold swapInt
  rw [front, back]
  apply halves_joined
  · intro place inside
    exact (lowMask 16 place (by omega)).trans (decide_eq_true inside)
  · intro place beyond
    by_cases inside : place < 32
    · exact (lowMask 16 place inside).trans (decide_eq_false (by omega))
    · exact BitVec.getLsbD_of_ge _ _ (by omega)

theorem swapLong_append (high low : BitVec 32) :
    swapLong (high ++ low) = swapInt low ++ swapInt high := by
  have front : (high ++ low : BitVec 64).setWidth 32 = low := BitVec.setWidth_append_eq_right
  have back : ((high ++ low : BitVec 64).sshiftRight 32).setWidth 32 = high := by
    apply BitVec.eq_of_getLsbD_eq
    intro place inside
    have moved : 32 + place < 64 := by omega
    have low_ : ¬64 ≤ place := by omega
    have taken : (high ++ low : BitVec 64).getLsbD (32 + place) = high.getLsbD place :=
      append_high high low place
    rw [BitVec.getLsbD_setWidth, BitVec.getLsbD_sshiftRight, if_pos moved, taken]
    simp [inside, low_]
  unfold swapLong
  rw [front, back]
  apply halves_joined
  · intro place inside
    exact (lowMask 32 place (by omega)).trans (decide_eq_true inside)
  · intro place beyond
    by_cases inside : place < 64
    · exact (lowMask 32 place inside).trans (decide_eq_false (by omega))
    · exact BitVec.getLsbD_of_ge _ _ (by omega)

/-- Swapping reads the same bytes in the other order. -/
theorem swapInt_intAt (cells : CharArray) (index : Nat) :
    swapInt (ByteOrder.little.intAt cells index) = ByteOrder.big.intAt cells index ∧
      swapInt (ByteOrder.big.intAt cells index) = ByteOrder.little.intAt cells index := by
  unfold ByteOrder.intAt ByteOrder.shortAt ByteOrder.int ByteOrder.short
  dsimp only
  rw [swapInt_append, swapInt_append]
  simp only [swapShort_append, and_self]

theorem swapLong_longAt (cells : CharArray) (index : Nat) :
    swapLong (ByteOrder.little.longAt cells index) = ByteOrder.big.longAt cells index ∧
      swapLong (ByteOrder.big.longAt cells index) = ByteOrder.little.longAt cells index := by
  have first := swapInt_intAt cells index
  have second := swapInt_intAt cells (index + 4)
  unfold ByteOrder.longAt ByteOrder.long
  dsimp only
  rw [swapLong_append, swapLong_append, first.1, first.2, second.1, second.2]
  exact ⟨rfl, rfl⟩

end Swapping

end ChannelBuffers

section Numbers

theorem longAt_eq_iff (order : ByteOrder) {first second : CharArray} {index index_ : Nat}
    (inside : index + 8 ≤ first.length) (inside_ : index_ + 8 ≤ second.length) :
    order.longAt first index = order.longAt second index_ ↔
      window first index 8 = window second index_ 8 := by
  constructor
  · intro same
    apply number_injective order
    · rw [window_length inside, window_length inside_]
    · rw [← longAt_toNat order inside, ← longAt_toNat order inside_, same]
  · intro same
    apply BitVec.eq_of_toNat_eq
    rw [longAt_toNat order inside, longAt_toNat order inside_, same]

end Numbers

namespace ChannelBuffers

section Walking

variable {first second : CharArray}

/-- A comparison loop says whether two windows agree, if each round does so for its part. -/
theorem matching_windows {Value : Type} [DecidableEq Value] {getA getB : Int → Except Stop Value}
    {width : Nat} {valueA valueB : Nat → Value} {count aIndex bIndex : Nat}
    (inside : aIndex + width * count ≤ first.length)
    (inside_ : bIndex + width * count ≤ second.length)
    (gotA : ∀ index : Nat, index + width ≤ first.length → getA index = .ok (valueA index))
    (gotB : ∀ index : Nat, index + width ≤ second.length → getB index = .ok (valueB index))
    (agree : ∀ index index_ : Nat, index + width ≤ first.length → index_ + width ≤ second.length →
      (valueA index = valueB index_ ↔ window first index width = window second index_ width)) :
    matching getA getB width count aIndex bIndex =
      .ok (decide (window first aIndex (width * count) = window second bIndex (width * count))) := by
  induction count generalizing aIndex bIndex with
  | zero =>
      rw [Nat.mul_zero, window_zero_count, window_zero_count]
      rfl
  | succ count ih =>
      have whole : width * (count + 1) = width + width * count := by
        rw [Nat.mul_succ, Nat.add_comm]
      rw [whole] at inside inside_
      have here := agree aIndex bIndex (by omega) (by omega)
      have sizes : (window first aIndex width).length = (window second bIndex width).length := by
        rw [window_length (by omega), window_length (by omega)]
      rw [matching, gotA aIndex (by omega), gotB bIndex (by omega), whole, window_append first,
        window_append second]
      change (if valueA aIndex ≠ valueB bIndex then pure false else _) = _
      by_cases same : valueA aIndex = valueB bIndex
      · rw [if_neg (not_not_intro same)]
        have next := ih (show aIndex + width + width * count ≤ first.length by omega)
          (show bIndex + width + width * count ≤ second.length by omega)
        rw [Int.natCast_add, Int.natCast_add] at next
        rw [next, here.mp same]
        congr 1
        exact decide_eq_decide.mpr ⟨fun rest => by rw [rest], List.append_cancel_left⟩
      · rw [if_pos same]
        have differs : ¬(window first aIndex width ++ window first (aIndex + width) (width * count) =
            window second bIndex width ++ window second (bIndex + width) (width * count)) :=
          fun equal => same (here.mpr (List.append_inj equal sizes).1)
        rw [decide_eq_false differs]
        rfl

end Walking

section

variable {getters : Getters} {content : CharArray} (answers : getters.Answers content)
  (order : ByteOrder) {index : Nat}

include answers order

theorem longIn_answers (inside : index + 8 ≤ content.length) :
    longIn order getters index = .ok (order.longAt content index) := by
  unfold longIn
  rw [answers.long index inside]
  have swap := swapLong_longAt content index
  cases order with
  | big =>
      cases kind : getters.order with
      | big => rw [if_pos rfl]
      | little =>
          rw [if_neg (by decide), ← swap.1]
          rfl
  | little =>
      cases kind : getters.order with
      | big =>
          rw [if_neg (by decide), ← swap.2]
          rfl
      | little => rw [if_pos rfl]

theorem intIn_answers (inside : index + 4 ≤ content.length) :
    intIn order getters index = .ok (order.intAt content index) := by
  unfold intIn
  rw [answers.int index inside]
  have swap := swapInt_intAt content index
  cases order with
  | big =>
      cases kind : getters.order with
      | big => rw [if_pos rfl]
      | little =>
          rw [if_neg (by decide), ← swap.1]
          rfl
  | little =>
      cases kind : getters.order with
      | big =>
          rw [if_neg (by decide), ← swap.2]
          rfl
      | little => rw [if_pos rfl]

end

section Built

variable {bufferA bufferB : ChannelBuffer} (builtA : bufferA.WellBuilt) (builtB : bufferB.WellBuilt)

include builtA builtB

theorem longs_match {count aIndex bIndex : Nat}
    (insideA : aIndex + 8 * count ≤ bufferA.content.length)
    (insideB : bIndex + 8 * count ≤ bufferB.content.length) :
    matching bufferA.getters.getLong (longIn bufferA.order bufferB.getters) 8 count aIndex bIndex =
      .ok (decide (window bufferA.content aIndex (8 * count) =
        window bufferB.content bIndex (8 * count))) := by
  have gotB : ∀ index : Nat, index + 8 ≤ bufferB.content.length →
      longIn bufferA.order bufferB.getters index = .ok (bufferA.order.longAt bufferB.content index) :=
    fun index inside => longIn_answers builtB.answers bufferA.order inside
  exact matching_windows insideA insideB builtA.answers.long gotB
    fun index index_ inside inside_ => longAt_eq_iff _ inside inside_

theorem bytes_match {count aIndex bIndex : Nat} (insideA : aIndex + count ≤ bufferA.content.length)
    (insideB : bIndex + count ≤ bufferB.content.length) :
    matching bufferA.getters.getByte bufferB.getters.getByte 1 count aIndex bIndex =
      .ok (decide (window bufferA.content aIndex count = window bufferB.content bIndex count)) := by
  have single : ∀ index index_ : Nat, index + 1 ≤ bufferA.content.length →
      index_ + 1 ≤ bufferB.content.length →
      (bufferA.content.getD index 0 = bufferB.content.getD index_ 0 ↔
        window bufferA.content index 1 = window bufferB.content index_ 1) := by
    intro index index_ inside inside_
    rw [window_cons (by omega), window_cons (by omega), window_zero_count, window_zero_count]
    exact ⟨fun same => by rw [same], fun same => (List.cons.inj same).1⟩
  have loop := matching_windows (by rw [Nat.one_mul]; exact insideA)
    (by rw [Nat.one_mul]; exact insideB) builtA.answers.byte builtB.answers.byte single
  rw [Nat.one_mul] at loop
  exact loop

theorem equals_run :
    equals bufferA bufferB =
      .ok (decide (bufferA.readableContent = bufferB.readableContent)) := by
  obtain ⟨readerA, countA, startA, sizeA, shownA, boundA⟩ := builtA.readable
  obtain ⟨readerB, countB, startB, sizeB, shownB, boundB⟩ := builtB.readable
  have lengthA : (window bufferA.content readerA countA).length = countA := window_length boundA
  have lengthB : (window bufferB.content readerB countB).length = countB := window_length boundB
  unfold equals
  simp only [sizeA, sizeB, startA, startB, shownA, shownB]
  by_cases sizes : countA = countB
  · subst sizes
    rw [if_neg (not_not_intro rfl)]
    have parts := Nat.div_add_mod countA 8
    have longCount : ((countA : Int) / 8).toNat = countA / 8 := by omega
    have byteCount : ((countA : Int) % 8).toNat = countA % 8 := by omega
    have splitA := window_append bufferA.content readerA (8 * (countA / 8)) (countA % 8)
    have splitB := window_append bufferB.content readerB (8 * (countA / 8)) (countA % 8)
    rw [parts] at splitA splitB
    have lengths : (window bufferA.content readerA (8 * (countA / 8))).length =
        (window bufferB.content readerB (8 * (countA / 8))).length := by
      rw [window_length (by omega), window_length (by omega)]
    rw [longCount, byteCount, longs_match builtA builtB (by omega) (by omega), ok_bind, splitA, splitB]
    by_cases longs : window bufferA.content readerA (8 * (countA / 8)) =
        window bufferB.content readerB (8 * (countA / 8))
    · have aStart : (readerA : Int) + 8 * ((countA / 8 : Nat) : Int) =
          ((readerA + 8 * (countA / 8) : Nat) : Int) := by omega
      have bStart : (readerB : Int) + 8 * ((countA / 8 : Nat) : Int) =
          ((readerB + 8 * (countA / 8) : Nat) : Int) := by omega
      rw [decide_eq_true longs, if_pos rfl, aStart, bStart,
        bytes_match builtA builtB (by omega) (by omega), longs]
      congr 1
      exact decide_eq_decide.mpr ⟨fun rest => by rw [rest], List.append_cancel_left⟩
    · rw [decide_eq_false longs, if_neg Bool.false_ne_true,
        decide_eq_false fun equal => longs (List.append_inj equal lengths).1]
      rfl
  · rw [if_pos (by omega), decide_eq_false fun equal => sizes (by rw [← lengthA, equal, lengthB])]
    rfl

end Built

section Hashing

/-- What a getter gives at every `width`-th index from `start` on. -/
def Gives {Value : Type} (get_ : Int → Except Stop Value) (width start count : Nat)
    (values : Nat → Value) : Prop :=
  ∀ round, round < count → get_ ((start + width * round : Nat) : Int) = .ok (values round)

section Steps

variable {Value : Type} {get_ : Int → Except Stop Value} {width start count : Nat}
  {values : Nat → Value}

theorem Gives.first (gives : Gives get_ width start (count + 1) values) :
    get_ (start : Int) = .ok (values 0) := by
  have first := gives 0 (Nat.succ_pos _)
  rwa [Nat.mul_zero, Nat.add_zero] at first

theorem Gives.later (gives : Gives get_ width start (count + 1) values) :
    Gives get_ width (start + width) count fun round => values (round + 1) := by
  intro round within
  have next := gives (round + 1) (Nat.succ_lt_succ within)
  rwa [Nat.mul_succ, Nat.add_comm (width * round), ← Nat.add_assoc] at next

end Steps

theorem hashing_values {term : Int → Except Stop (BitVec 32)} {width count start : Nat}
    {values : Nat → BitVec 32} (initial : BitVec 32) (gives : Gives term width start count values) :
    hashing term width count initial start =
      .ok (((List.range count).map values).foldl (fun hash value => 31 * hash + value) initial) := by
  induction count generalizing initial start values with
  | zero => rfl
  | succ count ih =>
      have rest := ih (31 * initial + values 0) gives.later
      rw [Int.natCast_add] at rest
      rw [hashing, gives.first, ok_bind, rest, List.range_succ_eq_map, List.map_cons, List.foldl_cons,
        List.map_map]
      rfl

/-- The hash code as a function of the bytes. -/
def contentHash (bytes : List Byte) : BitVec 32 :=
  let words := (List.range (bytes.length / 4)).map fun place => ByteOrder.big.intAt bytes (4 * place)
  let singles := (List.range (bytes.length % 4)).map fun place =>
    (bytes.getD (4 * (bytes.length / 4) + place) 0).signExtend 32
  let hash := singles.foldl (fun hash value => 31 * hash + value)
    (words.foldl (fun hash value => 31 * hash + value) 1)
  if hash = 0 then 1 else hash

/-- The hash code depends on the readable bytes alone. -/
theorem hashCode_run {buffer : ChannelBuffer} (built : buffer.WellBuilt) :
    hashCode buffer = .ok (contentHash buffer.readableContent) := by
  obtain ⟨reader, count, start, size, shown, bound⟩ := built.readable
  have length : (window buffer.content reader count).length = count := window_length bound
  have words : Gives (intIn .big buffer.getters) 4 reader (count / 4) fun round =>
      ByteOrder.big.intAt (window buffer.content reader count) (4 * round) := by
    intro round within
    dsimp only
    rw [intIn_answers built.answers .big (by omega), int_at_window .big (by omega)]
  have singles : Gives (fun index => do pure ((← buffer.getters.getByte index).signExtend 32)) 1
      (reader + 4 * (count / 4)) (count % 4) fun round =>
        ((window buffer.content reader count).getD (4 * (count / 4) + round) 0).signExtend 32 := by
    intro round within
    dsimp only
    rw [built.answers.byte _ (by omega), getD_window (by omega), Nat.one_mul, Nat.add_assoc]
    rfl
  unfold hashCode contentHash
  simp only [size, start, shown, length]
  have intCount : ((count : Int) / 4).toNat = count / 4 := by omega
  have byteCount : ((count : Int) % 4).toNat = count % 4 := by omega
  have behind : (reader : Int) + 4 * ((count / 4 : Nat) : Int) =
      ((reader + 4 * (count / 4) : Nat) : Int) := by omega
  have first := hashing_values 1 words
  rw [intCount, byteCount, behind]
  change (hashing _ ((4 : Nat) : Int) _ _ _ >>= _) = _
  rw [first, ok_bind]
  change (hashing _ ((1 : Nat) : Int) _ _ _ >>= _) = _
  rw [hashing_values _ singles]
  rfl

end Hashing

/-- A buffer that one of the library's constructors has built. -/
abbrev BuiltBuffer : Type := { buffer : ChannelBuffer // buffer.WellBuilt }

def Equal (first second : BuiltBuffer) : Prop := equals first.val second.val = .ok true

theorem equal_iff (first second : BuiltBuffer) :
    Equal first second ↔ first.val.readableContent = second.val.readableContent := by
  unfold Equal
  rw [equals_run first.property second.property]
  constructor
  · intro same
    exact of_decide_eq_true (Except.ok.inj same)
  · intro same
    rw [decide_eq_true same]

/-- Two buffers are equal when their readable bytes are, whatever their kinds and orders, and
have the same hash code then. -/
theorem equals_readable_bytes :
    (∀ first second : BuiltBuffer, equals first.val second.val =
      .ok (decide (first.val.readableContent = second.val.readableContent))) ∧
    (∀ first second : BuiltBuffer, Equal first second →
      ∃ hash, hashCode first.val = .ok hash ∧ hashCode second.val = .ok hash) ∧
    Equivalence Equal := by
  refine ⟨?_, ?_, ?_, ?_, ?_⟩
  · intro first second
    exact equals_run first.property second.property
  · intro first second same
    refine ⟨_, hashCode_run first.property, ?_⟩
    rw [(equal_iff first second).mp same]
    exact hashCode_run second.property
  · intro buffer
    exact (equal_iff buffer buffer).mpr rfl
  · intro first second same
    exact (equal_iff second first).mpr ((equal_iff first second).mp same).symm
  · intro first second third same next
    exact (equal_iff first third).mpr
      (((equal_iff first second).mp same).trans ((equal_iff second third).mp next))

/-- Nine bytes between the indices of a heap buffer, whose order is a parameter. -/
def nineBytes (order : ByteOrder) : BuiltBuffer :=
  ⟨.heap ⟨order, [0, 0x80, 1, 2, 3, 4, 5, 6, 7, 0xff], ⟨1, 10, 0, 0⟩⟩,
    .heap (show (10 : Int) ≤ maxInt by decide)
      ⟨show (0 : Int) ≤ 1 by decide, show (1 : Int) ≤ 10 by decide, show (10 : Int) ≤ 10 by decide⟩⟩

theorem nineBytes_equal :
    equals (nineBytes .big).val (nineBytes .little).val = .ok true ∧
      ∃ hash, hashCode (nineBytes .big).val = .ok hash ∧ hashCode (nineBytes .little).val = .ok hash := by
  have same : (nineBytes .big).val.readableContent = (nineBytes .little).val.readableContent := by
    unfold ChannelBuffer.readableContent nineBytes
    rw [ChannelBuffer.content, ChannelBuffer.content]
    rfl
  have compared := equals_readable_bytes.1 (nineBytes .big) (nineBytes .little)
  rw [decide_eq_true same] at compared
  exact ⟨compared, equals_readable_bytes.2.1 (nineBytes .big) (nineBytes .little) compared⟩

end ChannelBuffers

end Cetty
