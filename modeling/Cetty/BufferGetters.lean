import Cetty.ByteWindow
import Cetty.Exceptions
import Cetty.MachineInt

/-!
# Random access of a channel buffer

The const methods every buffer kind implements by itself, as a record of
methods, and the record of each kind. `char` is a byte without a sign: the
getters mask each byte before they combine it, so a typed value is the
concatenation of its bytes in the buffer's order.
-/

namespace Cetty

open MachineInt ByteWindow

abbrev Byte := BitVec 8

/-- The memory `cetty::buffer::Array` points to. -/
abbrev CharArray := List Byte

namespace CharArray

/-- `operator[]`. -/
def at_ (array : CharArray) (index : Int) : Except Stop Byte :=
  if index < 0 ∨ (array.length : Int) ≤ index then throw (rangeException "")
  else pure (array.getD index.toNat 0)

/-- `data(offset)`, as the offset of the pointer it returns. -/
def data (array : CharArray) (offset : Int) : Except Stop Nat :=
  if offset < 0 ∨ (offset ≠ 0 ∧ (array.length : Int) ≤ offset) then
    throw (rangeException "out of range in array")
  else pure offset.toNat

/-- The cells an `Array` reset to `data(offset)` and `length` shows. -/
def block (array : CharArray) (offset length : Int) : Except Stop CharArray := do
  let start ← data array offset
  if length < 0 ∨ (array.length : Int) < start + length then throw .outOfBounds
  else pure (window array start length.toNat)

/-- The range checks are made on the wrapped sums; a transfer they let through
although it leaves a block is undefined behaviour. -/
def copy (dst : CharArray) (dstIndex : Int) (src : CharArray) (srcIndex length : Int) :
    Except Stop CharArray :=
  let srcLastIndex := int32 (srcIndex + length)
  if dstIndex < 0 ∨ srcIndex < 0 ∨ length < 0 ∨ (src.length : Int) < srcLastIndex ∨
      (dst.length : Int) < int32 (dstIndex + length) then
    throw (rangeException "")
  else if (src.length : Int) < srcIndex + length ∨ (dst.length : Int) < dstIndex + length then
    throw .outOfBounds
  else
    pure (overwrite dst dstIndex.toNat (window src srcIndex.toNat length.toNat))

end CharArray

inductive ByteOrder where
  | big
  | little
  deriving DecidableEq, Repr

namespace ByteOrder

def short : ByteOrder → Byte → Byte → BitVec 16
  | big, first, second => first ++ second
  | little, first, second => second ++ first

def medium : ByteOrder → Byte → Byte → Byte → BitVec 32
  | big, first, second, third => 0#8 ++ first ++ second ++ third
  | little, first, second, third => 0#8 ++ third ++ second ++ first

def int : ByteOrder → BitVec 16 → BitVec 16 → BitVec 32
  | big, first, second => first ++ second
  | little, first, second => second ++ first

def long : ByteOrder → BitVec 32 → BitVec 32 → BitVec 64
  | big, first, second => first ++ second
  | little, first, second => second ++ first

end ByteOrder

structure Getters where
  capacity : Int
  order : ByteOrder
  getByte : Int → Except Stop Byte
  getShort : Int → Except Stop (BitVec 16)
  getUnsignedMedium : Int → Except Stop (BitVec 32)
  getInt : Int → Except Stop (BitVec 32)
  getLong : Int → Except Stop (BitVec 64)
  getBytes : Int → CharArray → Int → Int → Except Stop CharArray

namespace Getters

/-- `BigEndianHeapChannelBuffer` and `LittleEndianHeapChannelBuffer`. -/
def heap (order : ByteOrder) (arry : CharArray) : Getters :=
  let getShort := fun index => do
    let first ← arry.at_ index
    let second ← arry.at_ (index + 1)
    pure (order.short first second)
  let getInt := fun index => do
    let first ← getShort index
    let second ← getShort (index + 2)
    pure (order.int first second)
  { capacity := arry.length
    order := order
    getByte := arry.at_
    getShort := getShort
    getUnsignedMedium := fun index => do
      let first ← arry.at_ index
      let second ← arry.at_ (index + 1)
      let third ← arry.at_ (index + 2)
      pure (order.medium first second third)
    getInt := getInt
    getLong := fun index => do
      let first ← getInt index
      let second ← getInt (index + 4)
      pure (order.long first second)
    getBytes := fun index dst dstIndex length => CharArray.copy dst dstIndex arry index length }

/-- `checkIndex(index)` of the sliced and of the truncated kind. -/
def checkByte (length index : Int) : Except Stop Unit :=
  if index < 0 ∨ length ≤ index then throw (rangeException "") else pure ()

def negativeLength (length : Int) : Stop :=
  invalidArgumentException ("length is negative: " ++ toString length)

def slicedCheck (capacity startIndex length : Int) : Except Stop Unit :=
  if length < 0 then throw (negativeLength length)
  else if startIndex < 0 then throw (rangeException "")
  else if capacity < int32 (startIndex + length) then throw (rangeException "")
  else pure ()

/-- Unlike `slicedCheck` this leaves a negative index to the wrapped buffer. -/
def truncatedCheck (capacity index length : Int) : Except Stop Unit :=
  if length < 0 then throw (negativeLength length)
  else if capacity < int32 (index + length) then throw (rangeException "")
  else pure ()

/-- Every access is checked against the view and passed on at a shifted index. -/
def view (parent : Getters) (check : Int → Int → Except Stop Unit) (shift : Int → Int)
    (length : Int) : Getters where
  capacity := length
  order := parent.order
  getByte index := do checkByte length index; parent.getByte (shift index)
  getShort index := do check index 2; parent.getShort (shift index)
  getUnsignedMedium index := do check index 3; parent.getUnsignedMedium (shift index)
  getInt index := do check index 4; parent.getInt (shift index)
  getLong index := do check index 8; parent.getLong (shift index)
  getBytes index dst dstIndex count := do
    check index count
    parent.getBytes (shift index) dst dstIndex count

def sliced (parent : Getters) (adjustment length : Int) : Getters :=
  parent.view (slicedCheck length) (fun index => int32 (index + adjustment)) length

def truncated (parent : Getters) (length : Int) : Getters :=
  parent.view (truncatedCheck length) (fun index => index) length

end Getters

/-- The last component used is tried first, then the components on the side the
index lies on. -/
def getComponentId (indices : List Int) (count lastAccessed : Nat) (index : Int) :
    Except Stop Nat :=
  if index < 0 then throw (rangeException "")
  else if indices.getD lastAccessed 0 ≤ index then
    if index < indices.getD (lastAccessed + 1) 0 then pure lastAccessed
    else
      match (List.range' (lastAccessed + 1) (count - (lastAccessed + 1))).find?
          (fun i => index < indices.getD (i + 1) 0) with
      | some i => pure i
      | none => throw (rangeException "")
  else
    match (List.range lastAccessed).reverse.find? (fun i => indices.getD i 0 ≤ index) with
    | some i => pure i
    | none => throw (rangeException "")

namespace Getters

def component (components : List Getters) (componentId : Nat) : Except Stop Getters :=
  match components[componentId]? with
  | some component => pure component
  | none => throw .outOfBounds

/-- The transfer loop of a composite buffer from one component on. -/
def compositeCopy : List (Getters × Int) → Int → CharArray → Int → Int → Except Stop CharArray
  | [], _, dst, _, length => if 0 < length then throw .outOfBounds else pure dst
  | (s, adjustment) :: rest, index, dst, dstIndex, length =>
      if 0 < length then do
        let localLength := min length (s.capacity - (index - adjustment))
        let dst ← s.getBytes (index - adjustment) dst dstIndex localLength
        compositeCopy rest (index + localLength) dst (dstIndex + localLength)
          (length - localLength)
      else pure dst

/-- A value that crosses a component boundary is put together from smaller ones.
The search cache only moves the starting point of `getComponentId`. -/
def composite (order : ByteOrder) (components : List Getters) (indices : List Int)
    (lastAccessed : Nat) : Getters :=
  let capacity := indices.getD components.length 0
  let getComponentId := getComponentId indices components.length lastAccessed
  let within {Value : Type} (index width : Int) (whole : Getters → Int → Except Stop Value)
      (parts : Except Stop Value) : Except Stop Value := do
    let componentId ← getComponentId index
    if index + width ≤ indices.getD (componentId + 1) 0 then
      let component ← component components componentId
      whole component (index - indices.getD componentId 0)
    else parts
  let getByte := fun index => do
    let componentId ← getComponentId index
    let component ← component components componentId
    component.getByte (index - indices.getD componentId 0)
  let getShort := fun index => within index 2 getShort do
    let first ← getByte index
    let second ← getByte (index + 1)
    pure (order.short first second)
  let getInt := fun index => within index 4 getInt do
    let first ← getShort index
    let second ← getShort (index + 2)
    pure (order.int first second)
  { capacity := capacity
    order := order
    getByte := getByte
    getShort := getShort
    getUnsignedMedium := fun index => within index 3 getUnsignedMedium do
      let pair ← getShort index
      let third ← getByte (index + 2)
      pure (match order with
        | .big => 0#8 ++ pair ++ third
        | .little => 0#8 ++ third ++ pair)
    getInt := getInt
    getLong := fun index => within index 8 getLong do
      let first ← getInt index
      let second ← getInt (index + 4)
      pure (order.long first second)
    getBytes := fun index dst dstIndex length => do
      let componentId ← getComponentId index
      if int32 (capacity - length) < index ∨ int32 (dst.length - length) < dstIndex then
        throw (rangeException "")
      else
        compositeCopy ((components.zip indices).drop componentId) index dst dstIndex length }

end Getters

end Cetty
