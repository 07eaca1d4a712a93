import Cetty.BufferSlices

/-!
# Buffers made of arrays and of buffers

`wrappedBuffer` and `copiedBuffer` of one, two, three, four or a vector of arrays, and of two,
three, four or a vector of buffers. An array is known by its cells; a default constructed one
points nowhere, which only `Array::copy` tells from an empty one.
-/

namespace Cetty

open MachineInt ByteWindow

namespace ChannelBuffers

open ChannelBuffer

def inconsistent : Stop := invalidArgumentException "inconsistent byte order"

/-- The cells of an `Array`. -/
def cells (array : Option CharArray) : CharArray := array.getD []

/-- `ConstArray::clone`. -/
def clone (array : Option CharArray) : Option CharArray :=
  if (cells array).isEmpty then none else some (cells array)

/-- `compositeBuffer`. A total length beyond `int` overflows in `setComponents`. -/
def compositeBuffer (endianness : ByteOrder) (components : List ChannelBuffer) :
    Except Stop ChannelBuffer :=
  match components with
  | [] => pure emptyBuffer
  | [component] => pure component
  | components =>
      if maxInt < (components.map capacity).sum then throw .outOfBounds
      else makeComposite endianness components .zero

section Arrays

def wrappedBuffer (endianness : ByteOrder) (array : Option CharArray) : ChannelBuffer :=
  if (cells array).length = 0 then emptyBuffer
  else heap ⟨endianness, cells array, .full (cells array).length⟩

def filled (arrays : List (Option CharArray)) : List (Option CharArray) :=
  arrays.filter fun array => !(cells array).isEmpty

/-- `wrappedBuffer(endianness, arrays)`. -/
def wrappedArrays (endianness : ByteOrder) (arrays : List (Option CharArray)) :
    Except Stop ChannelBuffer :=
  match (filled arrays).map (wrappedBuffer endianness) with
  | [] => pure emptyBuffer
  | buffs => compositeBuffer endianness buffs

/-- The vector goes to the overload without a byte order, which is big-endian. -/
def wrappedTwo (endianness : ByteOrder) (array0 array1 : Option CharArray) :
    Except Stop ChannelBuffer :=
  if (cells array0).isEmpty then
    if (cells array1).isEmpty then pure emptyBuffer else pure (wrappedBuffer endianness array1)
  else if (cells array1).isEmpty then pure (wrappedBuffer endianness array0)
  else wrappedArrays .big [array0, array1]

/-- Three or four arrays. -/
def wrappedMore (endianness : ByteOrder) (arrays : List (Option CharArray)) :
    Except Stop ChannelBuffer :=
  match filled arrays with
  | [] => pure emptyBuffer
  | arrays => wrappedArrays endianness arrays

def wrappedThree (endianness : ByteOrder) (array0 array1 array2 : Option CharArray) :
    Except Stop ChannelBuffer :=
  wrappedMore endianness [array0, array1, array2]

def wrappedFour (endianness : ByteOrder) (array0 array1 array2 array3 : Option CharArray) :
    Except Stop ChannelBuffer :=
  wrappedMore endianness [array0, array1, array2, array3]

def copiedBuffer (endianness : ByteOrder) (array : Option CharArray) : ChannelBuffer :=
  if (cells array).length = 0 then emptyBuffer
  else heap ⟨endianness, cells (clone array), .full (cells (clone array)).length⟩

/-- `copiedBuffer(endianness, array, offset, length)`. -/
def copiedRange (endianness : ByteOrder) (array : Option CharArray) (offset length : Int) :
    ChannelBuffer :=
  if length ≤ 0 ∨ (cells array).isEmpty ∨ ((cells array).length : Int) ≤ offset then emptyBuffer
  else wrappedBuffer endianness (clone array)

/-- `Array::copy` of a whole array. The pointers are looked at behind the range. -/
def mergeArray (merged : CharArray) (j : Nat) (array : Option CharArray) : Except Stop CharArray := do
  let copied ← CharArray.copy merged j (cells array) 0 (cells array).length
  if array.isNone then throw (invalidArgumentException "")
  pure copied

def mergeFrom : CharArray → Nat → List (Option CharArray) → Except Stop CharArray
  | merged, _, [] => pure merged
  | merged, j, array :: rest => do
      let merged ← mergeArray merged j array
      mergeFrom merged (j + (cells array).length) rest

def totalLength (arrays : List (Option CharArray)) : Nat :=
  (arrays.map fun array => (cells array).length).sum

/-- `copiedBuffer(endianness, arrays)`. The sum is taken in `int`, where the check made on
it is always passed. -/
def copiedArrays (endianness : ByteOrder) : List (Option CharArray) → Except Stop ChannelBuffer
  | [] => pure emptyBuffer
  | [array] => pure (if (cells array).isEmpty then emptyBuffer else copiedBuffer endianness array)
  | arrays =>
      if maxInt < totalLength arrays then throw .outOfBounds
      else if totalLength arrays = 0 then pure emptyBuffer
      else do
        let mergedArray ← mergeFrom (List.replicate (totalLength arrays) 0) 0 arrays
        pure (wrappedBuffer endianness (some mergedArray))

def copiedTwo (endianness : ByteOrder) (array0 array1 : Option CharArray) :
    Except Stop ChannelBuffer :=
  if (cells array0).isEmpty then
    if (cells array1).isEmpty then pure emptyBuffer else pure (copiedBuffer endianness array1)
  else if (cells array1).isEmpty then pure (copiedBuffer endianness array0)
  else copiedArrays endianness [array0, array1]

def copiedThree (endianness : ByteOrder) (array0 array1 array2 : Option CharArray) :
    Except Stop ChannelBuffer :=
  copiedArrays endianness (filled [array0, array1, array2])

def copiedFour (endianness : ByteOrder) (array0 array1 array2 array3 : Option CharArray) :
    Except Stop ChannelBuffer :=
  copiedArrays endianness (filled [array0, array1, array2, array3])

end Arrays

section Buffers

/-- `!buffs.empty() && buffer->order() != buffs[0]->order()`. -/
def differs (buffs : List ChannelBuffer) (buffer : ChannelBuffer) : Bool :=
  match buffs with
  | [] => false
  | first :: _ => buffer.order != first.order

/-- A nested composition is expanded, an ordinary buffer is sliced. -/
def wrapParts : ChannelBuffer → Except Stop (List ChannelBuffer)
  | composite order components indices last idx =>
      let buffer := composite order components indices last idx
      decompose (slicers components) indices last buffer.readerIdx buffer.readableBytes
  | buffer => do
      let part ← buffer.slice buffer.readerIdx buffer.readableBytes
      pure [part]

def wrapFrom : List ChannelBuffer → List ChannelBuffer → Except Stop (List ChannelBuffer)
  | buffs, [] => pure buffs
  | buffs, buffer :: rest =>
      if !buffer.readable then wrapFrom buffs rest
      else if differs buffs buffer then throw inconsistent
      else do
        let parts ← wrapParts buffer
        wrapFrom (buffs ++ parts) rest

/-- `wrappedBuffer(buffers)`. -/
def wrappedBuffers (buffers : List ChannelBuffer) : Except Stop ChannelBuffer := do
  match ← wrapFrom [] buffers with
  | [] => pure emptyBuffer
  | first :: rest => compositeBuffer first.order (first :: rest)

/-- `wrappedBuffer(buffer0, buffer1)`. -/
def wrappedTwoBuffers (buffer0 buffer1 : ChannelBuffer) : Except Stop ChannelBuffer :=
  match [buffer0, buffer1].filter readable with
  | [] => pure emptyBuffer
  | buffers => wrappedBuffers buffers

/-- `copiedBuffer(buffer)`. -/
def copiedOne (buffer : ChannelBuffer) : Except Stop ChannelBuffer :=
  if buffer.readable then buffer.readableCopy else pure emptyBuffer

def copiedTwoBuffers (buffer0 buffer1 : ChannelBuffer) : Except Stop ChannelBuffer :=
  if buffer0.readable then
    if buffer1.readable then
      if buffer1.order ≠ buffer0.order then throw inconsistent
      else do
        let copied0 ← buffer0.readableCopy
        let copied1 ← buffer1.readableCopy
        wrappedTwoBuffers copied0 copied1
    else buffer0.readableCopy
  else copiedOne buffer1

/-- The order of the second readable buffer is not looked at here. -/
def collect (buffers : List ChannelBuffer) (buffer : ChannelBuffer) :
    Except Stop (List ChannelBuffer) :=
  if buffer.readable then
    if 1 < buffers.length ∧ differs buffers buffer then throw inconsistent
    else do
      let copied ← buffer.readableCopy
      pure (buffers ++ [copied])
  else pure buffers

/-- What becomes of the copies. -/
def gathered : List ChannelBuffer → Except Stop ChannelBuffer
  | [] => pure emptyBuffer
  | [buffer] => pure buffer
  | buffers => wrappedBuffers buffers

/-- Three or four buffers. -/
def copiedMoreBuffers (inputs : List ChannelBuffer) : Except Stop ChannelBuffer := do
  let buffers ← inputs.foldlM collect []
  gathered buffers

def copiedThreeBuffers (buffer0 buffer1 buffer2 : ChannelBuffer) : Except Stop ChannelBuffer :=
  copiedMoreBuffers [buffer0, buffer1, buffer2]

def copiedFourBuffers (buffer0 buffer1 buffer2 buffer3 : ChannelBuffer) :
    Except Stop ChannelBuffer :=
  copiedMoreBuffers [buffer0, buffer1, buffer2, buffer3]

/-- Of an unreadable buffer the shared empty buffer is kept, which is big-endian. -/
def collectAll (buffs : List ChannelBuffer) (buffer : ChannelBuffer) :
    Except Stop (List ChannelBuffer) :=
  if differs buffs buffer then throw inconsistent
  else do
    let copied ← copiedOne buffer
    pure (buffs ++ [copied])

/-- `copiedBuffer(buffers)`. -/
def copiedBuffers (inputs : List ChannelBuffer) : Except Stop ChannelBuffer := do
  let buffers ← inputs.foldlM collectAll []
  gathered buffers

end Buffers

section Wrapping

variable {order : ByteOrder}

theorem wrappedBuffer_fresh {array : Option CharArray} (some_ : cells array ≠ [])
    (small : ((cells array).length : Int) ≤ maxInt) :
    Fresh order (wrappedBuffer order array) ∧ (wrappedBuffer order array).content = cells array := by
  unfold wrappedBuffer
  rw [if_neg (fun none => some_ (List.eq_nil_of_length_eq_zero none))]
  refine ⟨heap_fresh small, ?_⟩
  rw [content]

theorem cells_clone (array : Option CharArray) : cells (clone array) = cells array := by
  unfold clone
  cases shape : cells array with
  | nil => rfl
  | cons first rest => rfl

theorem copiedBuffer_eq (array : Option CharArray) :
    copiedBuffer order array = wrappedBuffer order array := by
  unfold copiedBuffer wrappedBuffer
  rw [cells_clone]

section

variable {components : List ChannelBuffer}
  (fresh : ∀ component ∈ components, Fresh order component)

include fresh

theorem sum_capacity :
    (components.map capacity).sum = (componentContent components).length := by
  rw [componentContent_flatten, ← sum_lengths,
    map_capacity fun component among => (fresh component among).built.answers]

section

variable (some_ : components ≠ [])
  (small : ((componentContent components).length : Int) ≤ maxInt)

include some_ small

theorem composite_built {idx : Indices}
    (inside : idx.Inside (componentContent components).length) :
    (composite order components ((components.map capacity).scanl (· + ·) 0) 0 idx).WellBuilt := by
  have total := sum_capacity fresh
  exact .composite (fun component among => (fresh component among).built)
    (fun component among => (fresh component among).ordered)
    (List.length_pos_of_ne_nil some_) (by rw [total]; exact small) (by rw [total]; exact inside)

theorem composite_capacity (idx : Indices) :
    (composite order components ((components.map capacity).scanl (· + ·) 0) 0 idx).capacity =
      (componentContent components).length := by
  have held := (composite_built fresh some_ small
    (show Indices.zero.Inside _ from
      ⟨Int.le_refl 0, Int.le_refl 0, Int.natCast_nonneg _⟩)).answers.capacity
  rw [content] at held
  rw [← held]
  unfold ChannelBuffer.capacity
  rw [getters, getters]

/-- `setComponents` takes new buffers of its order and keeps the marks. -/
theorem makeComposite_run (idx : Indices) :
    makeComposite order components idx =
      .ok (composite order components ((components.map capacity).scanl (· + ·) 0) 0
        { idx with readerIdx := 0, writerIdx := (componentContent components).length }) := by
  have present : components.isEmpty = false := by
    cases components with
    | nil => exact absurd rfl some_
    | cons first rest => rfl
  have ordered : (components.any fun component => component.order != order) = false := by
    rw [List.any_eq_false]
    intro component among
    rw [(fresh component among).ordered, bne_self_eq_false]
    decide
  have whole : (components.any fun component =>
      component.readerIdx != 0 || component.writerIdx != component.capacity) = false := by
    rw [List.any_eq_false]
    intro component among
    have new := fresh component among
    rw [new.reader, new.writer, new.capacity, bne_self_eq_false, bne_self_eq_false]
    decide
  have sized := composite_capacity fresh some_ small
  unfold makeComposite
  rw [present, ordered, whole]
  dsimp only
  rw [sized]
  exact setIndex_of_inside (Int.le_refl 0) (Int.natCast_nonneg _) (Int.le_of_eq (sized _).symm)

/-- The components of a composite buffer are new buffers of its order. -/
theorem makeComposite_fresh :
    ∃ buffer, makeComposite order components .zero = .ok buffer ∧ Fresh order buffer ∧
      buffer.content = componentContent components := by
  refine ⟨_, makeComposite_run fresh some_ small .zero, ⟨composite_built fresh some_ small
    ⟨Int.le_refl 0, Int.natCast_nonneg _, Int.le_refl _⟩, ?_, rfl, ?_⟩, by rw [content]⟩
  · unfold ChannelBuffer.order
    rw [getters]
    rfl
  · rw [content]
    rfl

theorem compositeBuffer_fresh :
    ∃ buffer, compositeBuffer order components = .ok buffer ∧ Fresh order buffer ∧
      buffer.content = componentContent components := by
  have total := sum_capacity fresh
  cases components with
  | nil => exact absurd rfl some_
  | cons first rest =>
      cases rest with
      | nil =>
          refine ⟨first, rfl, fresh first List.mem_cons_self, ?_⟩
          rw [componentContent, componentContent, List.append_nil]
      | cons second rest =>
          unfold compositeBuffer
          dsimp only
          rw [if_neg (by rw [total]; omega)]
          exact makeComposite_fresh fresh some_ small

end

/-- Components that are too long for `int` together. -/
theorem compositeBuffer_beyond
    (beyond : maxInt < (componentContent components).length) (buffer : ChannelBuffer) :
    compositeBuffer order components ≠ .ok buffer := by
  have total := sum_capacity fresh
  have limit : maxInt = 2147483647 := rfl
  cases components with
  | nil =>
      rw [componentContent, List.length_nil] at beyond
      omega
  | cons first rest =>
      cases rest with
      | nil =>
          have small := (fresh first List.mem_cons_self).small
          rw [componentContent, componentContent, List.append_nil] at beyond
          omega
      | cons second rest =>
          unfold compositeBuffer
          dsimp only
          rw [if_pos (by rw [total]; exact beyond)]
          intro made
          cases made

end

/-- What `wrappedBuffer(buffers)` makes of one of the buffers. -/
inductive Wraps (order : ByteOrder) : ChannelBuffer → CharArray → Prop where
  | skipped {buffer : ChannelBuffer} (unreadable : buffer.readable = false) : Wraps order buffer []
  | taken {buffer : ChannelBuffer} {parts : List ChannelBuffer} (readable : buffer.readable = true)
      (ordered : buffer.order = order) (cut : wrapParts buffer = .ok parts)
      (fresh : ∀ part ∈ parts, Fresh order part) : Wraps order buffer (componentContent parts)

theorem differs_of_same {buffs : List ChannelBuffer} {buffer : ChannelBuffer}
    (same : ∀ other ∈ buffs, other.order = order) (ordered : buffer.order = order) :
    differs buffs buffer = false := by
  cases buffs with
  | nil => rfl
  | cons first rest =>
      unfold differs
      dsimp only
      rw [same first List.mem_cons_self, ordered, bne_self_eq_false]

theorem componentContent_append (first second : List ChannelBuffer) :
    componentContent (first ++ second) = componentContent first ++ componentContent second := by
  rw [componentContent_flatten, componentContent_flatten, componentContent_flatten,
    List.map_append, List.flatten_append]

section

variable {buffers : List ChannelBuffer} {contents : List CharArray}
  (wraps : List.Forall₂ (Wraps order) buffers contents)

include wraps

theorem wrapFrom_run {buffs : List ChannelBuffer}
    (same : ∀ other ∈ buffs, other.order = order) :
    ∃ parts, wrapFrom buffs buffers = .ok (buffs ++ parts) ∧
      (∀ part ∈ parts, Fresh order part) ∧ componentContent parts = contents.flatten := by
  induction wraps generalizing buffs with
  | nil =>
      refine ⟨[], ?_, ?_, ?_⟩
      · rw [List.append_nil]
        rfl
      · intro part none
        cases none
      · rw [componentContent]
        rfl
  | cons here later ih =>
      cases here with
      | skipped unreadable =>
          obtain ⟨parts, run, fresh, shown⟩ := ih same
          refine ⟨parts, ?_, fresh, ?_⟩
          · rw [wrapFrom, unreadable]
            exact run
          · rw [List.flatten_cons, List.nil_append]
            exact shown
      | @taken cut readable ordered made new =>
          have longer : ∀ other ∈ buffs ++ cut, other.order = order := by
            intro other among
            rcases List.mem_append.mp among with before | added
            · exact same other before
            · exact (new other added).ordered
          obtain ⟨parts, run, fresh, shown⟩ := ih longer
          refine ⟨cut ++ parts, ?_, ?_, ?_⟩
          · rw [wrapFrom, readable, differs_of_same same ordered, made]
            rw [List.append_assoc] at run
            exact run
          · intro part among
            rcases List.mem_append.mp among with added | behind
            · exact new part added
            · exact fresh part behind
          · rw [componentContent_append, shown, List.flatten_cons]

/-- Between the order of the parts and that of the empty buffer only bytes decide. -/
theorem wrappedBuffers_run (small : (contents.flatten.length : Int) ≤ maxInt) :
    ∃ buffer, wrappedBuffers buffers = .ok buffer ∧ buffer.readableContent = contents.flatten ∧
      (contents.flatten ≠ [] → buffer.order = order) := by
  have none (other : ChannelBuffer) (among : other ∈ []) : other.order = order := by cases among
  obtain ⟨parts, run, fresh, shown⟩ := wrapFrom_run wraps none
  unfold wrappedBuffers
  rw [run, ok_bind, List.nil_append]
  cases parts with
  | nil =>
      rw [componentContent] at shown
      rw [← shown]
      exact ⟨emptyBuffer, rfl, rfl, fun some_ => absurd rfl some_⟩
  | cons first rest =>
      dsimp only
      rw [(fresh first List.mem_cons_self).ordered]
      obtain ⟨buffer, made, new, held⟩ := compositeBuffer_fresh fresh (List.cons_ne_nil _ _)
        (by rw [shown]; exact small)
      refine ⟨buffer, made, ?_, fun some_ => new.ordered⟩
      rw [new.readableContent, held, shown]

theorem wrappedBuffers_beyond
    (beyond : maxInt < (contents.flatten.length : Int)) (buffer : ChannelBuffer) :
    wrappedBuffers buffers ≠ .ok buffer := by
  have none (other : ChannelBuffer) (among : other ∈ []) : other.order = order := by cases among
  obtain ⟨parts, run, fresh, shown⟩ := wrapFrom_run wraps none
  unfold wrappedBuffers
  rw [run, ok_bind, List.nil_append]
  rw [← shown] at beyond
  cases parts with
  | nil =>
      rw [componentContent, List.length_nil] at beyond
      have limit : maxInt = 2147483647 := rfl
      omega
  | cons first rest =>
      dsimp only
      rw [(fresh first List.mem_cons_self).ordered]
      exact compositeBuffer_beyond fresh beyond buffer

end

end Wrapping

end ChannelBuffers

end Cetty
