import Cetty.BufferAccesses
import Cetty.CompositeCuts

/-!
# Discarding the read bytes

`discardReadBytes` of the kinds that hold their cells and of the composite kind. The first move
the readable bytes to the front, unless there are none: then the marks stay where they are. The
second deals out its components from the reader index on, and finds the relocated marks again as
indices, which have to be in order.
-/

namespace Cetty

open MachineInt ByteWindow ListSegments

namespace ChannelBuffer

/-- The marks are former indices; the one of the reader is not behind what is written. -/
structure Marked (buffer : ChannelBuffer) : Prop where
  readerLeast : 0 ≤ buffer.idx.markedReaderIndex
  readerMost : buffer.idx.markedReaderIndex ≤ buffer.writerIdx
  writerLeast : 0 ≤ buffer.idx.markedWriterIndex
  writerMost : buffer.idx.markedWriterIndex ≤ buffer.content.length

/-- A buffer after its read bytes are gone. -/
structure Discarded (before after : ChannelBuffer) : Prop where
  capacity : after.capacity = before.capacity
  reader : after.readerIdx = 0
  writer : after.writerIdx = before.writerIdx - before.readerIdx
  bytes : after.readableContent = before.readableContent
  markedReader : after.idx.markedReaderIndex =
    max (before.idx.markedReaderIndex - before.readerIdx) 0
  markedWriter : after.idx.markedWriterIndex =
    max (before.idx.markedWriterIndex - before.readerIdx) 0

/-- `discardReadBytes` returns and has discarded the read bytes. -/
def Discards (buffer : ChannelBuffer) : Prop :=
  ∃ after, BufferM.discardReadBytes.run buffer = .ok () after ∧ Discarded buffer after

section Ends

variable {buffer : ChannelBuffer}

/-- Without read bytes nothing has to be done. -/
theorem discarded_front (marked : buffer.Marked) (front : buffer.readerIdx = 0) :
    Discarded buffer buffer := by
  have markedReader := marked.readerLeast
  have markedWriter := marked.writerLeast
  constructor
  · rfl
  · exact front
  · omega
  · rfl
  · omega
  · omega

end Ends

section Directly

variable {base : ChannelBuffer}

section

variable (direct : base.Direct)

include direct

theorem discardReadBytes_direct :
    BufferM.discardReadBytes.run base =
      (if base.readerIdx = 0 then pure ()
      else if base.readerIdx = base.writerIdx then
        set (base.withIdx { base.idx with readerIdx := 0, writerIdx := 0 })
      else do
        let moved ← call (base.setBytes 0 base.getters base.readerIdx
          (int32 (base.writerIdx - base.readerIdx)))
        let relocate := fun marked : Int => if 0 < int32 (marked - base.readerIdx) then
          int32 (marked - base.readerIdx) else 0
        set (moved.withIdx
          { readerIdx := 0
            writerIdx := int32 (base.writerIdx - base.readerIdx)
            markedReaderIndex := relocate base.idx.markedReaderIndex
            markedWriterIndex := relocate base.idx.markedWriterIndex }) :
        BufferM Unit).run base := by
  cases base with
  | heap buffer => rfl
  | dynamic endianness factory buffer idx => rfl
  | _ => exact direct.elim

/-- The transfer of a direct buffer into itself. -/
theorem setBytes_front (small : (base.content.length : Int) ≤ maxInt)
    {start count : Nat} (inside : start + count ≤ base.content.length) :
    base.setBytes 0 base.getters start count =
      .ok (base.withBytes (overwrite base.content 0 (window base.content start count))) := by
  have copied : base.getters.getBytes start base.content (0 : Nat) count =
      .ok (overwrite base.content 0 (window base.content start count)) := by
    rw [getBytes_direct direct]
    exact CharArray.copy_of_inside inside (by omega) small small
  rw [Int.natCast_zero] at copied
  cases base with
  | heap buffer =>
      rw [content] at copied
      rw [setBytes, HeapChannelBuffer.setBytes, copied, content]
      rfl
  | dynamic endianness factory buffer idx =>
      rw [content] at copied
      rw [setBytes, HeapChannelBuffer.setBytes, copied, content]
      rfl
  | _ => exact direct.elim

theorem withBytes_shows (arry : CharArray) (idx : Indices) :
    ((base.withBytes arry).withIdx idx).content = arry ∧
      ((base.withBytes arry).withIdx idx).capacity = arry.length := by
  cases base with
  | heap buffer =>
      unfold capacity
      rw [withBytes, withIdx, content, getters]
      exact ⟨rfl, rfl⟩
  | dynamic endianness factory buffer other =>
      unfold capacity
      rw [withBytes, withIdx, content, getters]
      exact ⟨rfl, rfl⟩
  | _ => exact direct.elim

section

variable (built : base.WellBuilt) (marked : base.Marked)

include built marked

/-- The bytes that are moved to the front. -/
theorem discarded_moved
    (behind : base.readerIdx ≠ 0) (some_ : base.readerIdx ≠ base.writerIdx) : Discards base := by
  have reader : 0 ≤ base.readerIdx := built.inside.reader
  have writer : base.readerIdx ≤ base.writerIdx := built.inside.writer
  have bound : base.writerIdx ≤ base.content.length := built.inside.bound
  have small := built.answers.small
  have capacity : base.capacity = base.content.length := built.answers.capacity
  have limit : maxInt = 2147483647 := rfl
  obtain ⟨start, starts⟩ : ∃ start : Nat, base.readerIdx = start :=
    ⟨base.readerIdx.toNat, by omega⟩
  obtain ⟨count, counted⟩ : ∃ count : Nat, base.writerIdx - base.readerIdx = count :=
    ⟨(base.writerIdx - base.readerIdx).toNat, by omega⟩
  have inside : start + count ≤ base.content.length := by omega
  have size : (window base.content start count).length = count := window_length inside
  have room : (overwrite base.content 0 (window base.content start count)).length =
      base.content.length := overwrite_length (by omega)
  have amount : int32 (base.writerIdx - base.readerIdx) = count := by
    rw [counted]
    exact int32_of_nonneg (by omega) (by omega)
  have relocated : ∀ mark : Int, 0 ≤ mark → mark ≤ base.content.length →
      (if 0 < int32 (mark - start) then int32 (mark - start) else 0) = max (mark - start) 0 := by
    intro mark least most
    rw [int32_of_bounds (by unfold minInt; omega) (by omega)]
    by_cases ahead : 0 < mark - start
    · rw [if_pos ahead]
      omega
    · rw [if_neg ahead]
      omega
  have readerMost := marked.readerMost
  have shown := withBytes_shows direct (overwrite base.content 0 (window base.content start count))
  refine ⟨(base.withBytes (overwrite base.content 0 (window base.content start count))).withIdx
    { readerIdx := 0
      writerIdx := count
      markedReaderIndex := max (base.idx.markedReaderIndex - start) 0
      markedWriterIndex := max (base.idx.markedWriterIndex - start) 0 }, ?_, ?_⟩
  · rw [discardReadBytes_direct direct, if_neg behind, if_neg some_, amount, starts,
      setBytes_front direct small inside, run_bind_ok _ (run_call_ok _ _)]
    simp only
    rw [relocated _ marked.readerLeast (by omega), relocated _ marked.writerLeast marked.writerMost]
    rfl
  · constructor
    · rw [(shown _).2, capacity, room]
    · rw [readerIdx_withIdx]
    · rw [writerIdx_withIdx]
      exact counted.symm
    · have copy : window (overwrite base.content 0 (window base.content start count)) 0
          (window base.content start count).length = window base.content start count :=
        window_overwrite_same (Nat.zero_le _)
      rw [size] at copy
      unfold readableContent
      rw [(shown _).1, readerIdx_withIdx, writerIdx_withIdx, counted, starts]
      rw [Int.sub_zero, Int.toNat_natCast, Int.toNat_natCast, Int.toNat_zero]
      exact copy
    · rw [idx_withIdx, starts]
    · rw [idx_withIdx, starts]

/-- With nothing readable the indices are reset and the marks are not looked at. -/
theorem discarded_drained
    (behind : base.readerIdx ≠ 0) (drained : base.readerIdx = base.writerIdx) :
    Discards base ↔ base.idx.markedReaderIndex = 0 ∧ base.idx.markedWriterIndex = 0 := by
  have reader : 0 ≤ base.readerIdx := built.inside.reader
  have readerLeast := marked.readerLeast
  have readerMost := marked.readerMost
  have writerLeast := marked.writerLeast
  have ran : BufferM.discardReadBytes.run base =
      .ok () (base.withIdx { base.idx with readerIdx := 0, writerIdx := 0 }) := by
    rw [discardReadBytes_direct direct, if_neg behind, if_pos drained]
    rfl
  constructor
  · intro discards
    obtain ⟨after, same, discarded⟩ := discards
    rw [ran] at same
    cases same
    have markedReader := discarded.markedReader
    have markedWriter := discarded.markedWriter
    rw [idx_withIdx] at markedReader markedWriter
    change base.idx.markedReaderIndex = _ at markedReader
    change base.idx.markedWriterIndex = _ at markedWriter
    omega
  · intro marks
    refine ⟨_, ran, ?_⟩
    constructor
    · rw [capacity_withIdx]
    · rw [readerIdx_withIdx]
    · rw [writerIdx_withIdx, drained, Int.sub_self]
    · unfold readableContent
      rw [content_withIdx, readerIdx_withIdx, writerIdx_withIdx, drained, Int.sub_self,
        Int.sub_self, Int.toNat_zero, window_zero_count, window_zero_count]
    · rw [idx_withIdx]
      change base.idx.markedReaderIndex = _
      omega
    · rw [idx_withIdx]
      change base.idx.markedWriterIndex = _
      omega

theorem direct_discards :
    Discards base ↔ base.readerIdx = 0 ∨ base.readerIdx ≠ base.writerIdx ∨
      (base.idx.markedReaderIndex = 0 ∧ base.idx.markedWriterIndex = 0) := by
  by_cases front : base.readerIdx = 0
  · constructor
    · intro _
      exact Or.inl front
    · intro _
      refine ⟨base, ?_, discarded_front marked front⟩
      rw [discardReadBytes_direct direct, if_pos front]
      rfl
  by_cases drained : base.readerIdx = base.writerIdx
  · rw [discarded_drained direct built marked front drained]
    constructor
    · intro marks
      exact Or.inr (Or.inr marks)
    · intro held
      rcases held with first | apart | marks
      · exact absurd first front
      · exact absurd drained apart
      · exact marks
  · constructor
    · intro _
      exact Or.inr (Or.inl drained)
    · intro _
      exact discarded_moved direct built marked front drained

end

end

end Directly

/-- Whose indices a duplicate of the buffer takes. -/
def indexed : ChannelBuffer → ChannelBuffer
  | duplicated buffer _ => buffer
  | readOnly buffer _ => buffer
  | buffer => buffer

section Slices

variable {buffer : ChannelBuffer}

theorem Shown.taken {view : ChannelBuffer} {result : Except Stop ChannelBuffer}
    (shown : view.Shown result) (capacity : view.capacity = buffer.content.length) :
    ∃ copied, result = .ok copied ∧ copied.readerIdx = view.readerIdx ∧
      copied.writerIdx = view.writerIdx ∧ copied.capacity = buffer.content.length := by
  obtain ⟨copied, made, same⟩ := shown
  exact ⟨copied, made, same.reader, same.writer, same.capacity.trans capacity⟩

theorem duplicate_taken (built : buffer.WellBuilt) :
    ∃ copied, buffer.duplicate = .ok copied ∧ copied.readerIdx = buffer.indexed.readerIdx ∧
      copied.writerIdx = buffer.indexed.writerIdx ∧
      copied.capacity = buffer.content.length := by
  have capacity : buffer.capacity = buffer.content.length := built.answers.capacity
  cases built with
  | heap small inside =>
      exact ((duplicate_shown_iff (.heap small inside)).mpr trivial).taken capacity
  | dynamic ordered small inside =>
      exact ((duplicate_shown_iff (.dynamic ordered small inside)).mpr trivial).taken capacity
  | sliced parent within inside =>
      exact ((duplicate_shown_iff (.sliced parent within inside)).mpr trivial).taken capacity
  | truncated parent within inside =>
      exact ((duplicate_shown_iff (.truncated parent within inside)).mpr trivial).taken capacity
  | duplicated parent inside =>
      rw [duplicated_content, duplicate]
      exact (makeDuplicated_shown parent).taken parent.answers.capacity
  | readOnly parent inside =>
      rw [readOnly_content, duplicate]
      exact (makeReadOnly_shown parent).taken parent.answers.capacity
  | composite parts ordered cached small inside =>
      exact ((duplicate_shown_iff (.composite parts ordered cached small inside)).mpr
        trivial).taken capacity

theorem indexed_inside (built : buffer.WellBuilt) :
    0 ≤ buffer.indexed.readerIdx ∧ buffer.indexed.readerIdx ≤ buffer.indexed.writerIdx ∧
      buffer.indexed.writerIdx ≤ buffer.content.length := by
  have own := built.inside
  cases built with
  | heap small inside => exact ⟨own.reader, own.writer, own.bound⟩
  | dynamic ordered small inside => exact ⟨own.reader, own.writer, own.bound⟩
  | sliced parent within inside => exact ⟨own.reader, own.writer, own.bound⟩
  | truncated parent within inside => exact ⟨own.reader, own.writer, own.bound⟩
  | duplicated parent inside =>
      have wrapped := parent.inside
      rw [duplicated_content]
      exact ⟨wrapped.reader, wrapped.writer, wrapped.bound⟩
  | readOnly parent inside =>
      have wrapped := parent.inside
      rw [readOnly_content]
      exact ⟨wrapped.reader, wrapped.writer, wrapped.bound⟩
  | composite parts ordered cached small inside => exact ⟨own.reader, own.writer, own.bound⟩

/-- What a slice of a length is, if there is one. -/
structure Piece (buffer : ChannelBuffer) (length : Nat) (part : ChannelBuffer) : Prop where
  fresh : Fresh part.order part
  size : part.content.length = length
  ordered : length ≠ 0 → part.order = buffer.order
  empty : length = 0 → part.order = .big

def PiecesOnly (buffer : ChannelBuffer) : Prop :=
  ∀ index length : Nat, index + length ≤ buffer.content.length →
    ∀ part, buffer.slice index length = .ok part → Piece buffer length part

theorem emptyBuffer_piece : Piece buffer 0 emptyBuffer :=
  ⟨emptyBuffer_fresh, by rw [emptyBuffer_content]; rfl, fun some_ => absurd rfl some_, fun _ => rfl⟩

theorem pieces_of_cuts (cuts : buffer.Cuts)
    (empty : ∀ index : Nat, index ≤ buffer.content.length →
      buffer.slice index (0 : Nat) = .ok emptyBuffer) : buffer.PiecesOnly := by
  intro index length inside part cut
  by_cases none : length = 0
  · subst none
    rw [empty index inside] at cut
    cases cut
    exact emptyBuffer_piece
  · obtain ⟨other, made, fresh, shown⟩ := cuts index length (Nat.pos_of_ne_zero none) inside
    obtain rfl : other = part := Except.ok.inj (made.symm.trans cut)
    have same : other.order = buffer.order := fresh.ordered
    refine ⟨?_, ?_, fun _ => same, fun none_ => absurd none_ none⟩
    · rw [same]
      exact fresh
    · rw [shown, window_length inside]

variable {rest : List (ChannelBuffer × Slicer)} {components : List ChannelBuffer}
  {composed : ChannelBuffer}

/-- What the loop does with a component once it is entered. -/
theorem entered_iff {component copied buf : ChannelBuffer} {slice : Slicer} {entry : Option Int}
    {first count length : Nat}
    {parts : List ChannelBuffer} (made : component.duplicate = .ok copied)
    (entered : (match entry with
      | some readerIndex => copied.setReaderIndex readerIndex
      | none => pure copied) = .ok buf)
    (reader : buf.readerIdx = first) (writer : buf.writerIdx = ((first + count : Nat) : Int))
    (inside : ((first + count : Nat) : Int) ≤ buf.capacity) (small : buf.capacity ≤ maxInt) :
    decomposeFrom ((component, slice) :: rest) entry length = .ok parts ↔
      (length ≤ count ∧ ∃ part, slice first length = .ok part ∧ parts = [part]) ∨
        (count < length ∧ ∃ part others, slice first count = .ok part ∧
          decomposeFrom rest none ((length - count : Nat) : Int) = .ok others ∧
          parts = part :: others) := by
  have readable : buf.readableBytes = count := by
    unfold readableBytes
    rw [reader, writer, int32_of_nonneg (by omega) (by omega)]
    omega
  rw [decomposeFrom_entered made entered, readable, reader]
  by_cases fits : length ≤ count
  · have stop : int32 ((first : Int) + length) = first + length :=
      int32_of_nonneg (by omega) (by omega)
    have cut : buf.setWriterIndex (first + length) =
        .ok (buf.withIdx { buf.idx with writerIdx := first + length }) := by
      unfold setWriterIndex
      rw [reader, if_neg (by omega)]
      rfl
    have place : (buf.withIdx { buf.idx with writerIdx := first + length }).readerIdx = first := by
      rw [readerIdx_withIdx]
      exact reader
    have limit : (buf.withIdx { buf.idx with writerIdx := first + length }).writerIdx =
        first + length := by rw [writerIdx_withIdx]
    have amount : (buf.withIdx { buf.idx with writerIdx := first + length }).readableBytes =
        length := by
      unfold readableBytes
      rw [place, limit, int32_of_nonneg (by omega) (by omega)]
      omega
    rw [if_pos (by omega), stop, cut, ok_bind, place, amount]
    constructor
    · intro ran
      obtain ⟨part, sliced, same⟩ := ok_of_bind ran
      cases same
      exact Or.inl ⟨fits, part, sliced, rfl⟩
    · intro held
      rcases held with ⟨-, part, sliced, rfl⟩ | ⟨beyond, -⟩
      · rw [sliced]
        rfl
      · omega
  · have remaining : (length : Int) - count = ((length - count : Nat) : Int) := by omega
    rw [if_neg (by omega), remaining]
    constructor
    · intro ran
      obtain ⟨others, behind, ran⟩ := ok_of_bind ran
      obtain ⟨part, sliced, same⟩ := ok_of_bind ran
      cases same
      exact Or.inr ⟨by omega, part, others, sliced, behind, rfl⟩
    · intro held
      rcases held with ⟨within, -⟩ | ⟨-, part, others, sliced, behind, rfl⟩
      · omega
      · rw [behind, ok_bind, sliced]
        rfl

/-- A component is taken from where it is entered, or from the reader index its duplicate shows,
up to the writer index its duplicate shows. -/
theorem decomposeFrom_cons_iff {component : ChannelBuffer} (built : component.WellBuilt)
    {slice : Slicer} {entry : Option Nat} {length : Nat}
    {parts : List ChannelBuffer} :
    decomposeFrom ((component, slice) :: rest) (entry.map Nat.cast) length = .ok parts ↔
      ∃ first count : Nat,
        (first : Int) = (entry.map Nat.cast).getD component.indexed.readerIdx ∧
        ((first + count : Nat) : Int) = component.indexed.writerIdx ∧
        ((length ≤ count ∧ ∃ part, slice first length = .ok part ∧ parts = [part]) ∨
          (count < length ∧ ∃ part others, slice first count = .ok part ∧
            decomposeFrom rest none ((length - count : Nat) : Int) = .ok others ∧
            parts = part :: others)) := by
  obtain ⟨copied, made, reader, writer, capacity⟩ := duplicate_taken built
  obtain ⟨least, ordered, most⟩ := indexed_inside built
  have small := built.answers.small
  have unique : ∀ {start : Nat}, (start : Int) = (entry.map Nat.cast).getD
      component.indexed.readerIdx → (start : Int) ≤ component.indexed.writerIdx →
      ∀ {buf : ChannelBuffer}, (match (entry.map Nat.cast : Option Int) with
        | some readerIndex => copied.setReaderIndex readerIndex
        | none => pure copied) = .ok buf → buf.readerIdx = start →
      buf.writerIdx = component.indexed.writerIdx → buf.capacity = component.content.length →
      (decomposeFrom ((component, slice) :: rest) (entry.map Nat.cast) length = .ok parts ↔
        ∃ first count : Nat,
          (first : Int) = (entry.map Nat.cast).getD component.indexed.readerIdx ∧
          ((first + count : Nat) : Int) = component.indexed.writerIdx ∧
          ((length ≤ count ∧ ∃ part, slice first length = .ok part ∧ parts = [part]) ∨
            (count < length ∧ ∃ part others, slice first count = .ok part ∧
              decomposeFrom rest none ((length - count : Nat) : Int) = .ok others ∧
              parts = part :: others))) := by
    intro start starts below buf entered front back size
    obtain ⟨amount, total⟩ : ∃ amount : Nat,
        ((start + amount : Nat) : Int) = component.indexed.writerIdx :=
      ⟨(component.indexed.writerIdx - start).toNat, by omega⟩
    rw [entered_iff made entered front (back.trans total.symm) (by omega) (by omega)]
    constructor
    · intro held
      exact ⟨start, amount, starts, total, held⟩
    · intro held
      obtain ⟨first, count, starts_, total_, held⟩ := held
      obtain rfl : first = start := by omega
      obtain rfl : count = amount := by omega
      exact held
  cases entry with
  | none =>
      obtain ⟨start, starts⟩ : ∃ start : Nat, (start : Int) = component.indexed.readerIdx :=
        ⟨component.indexed.readerIdx.toNat, by omega⟩
      exact unique starts (by omega) rfl (reader.trans starts.symm) writer capacity
  | some start =>
      by_cases within : (start : Int) ≤ component.indexed.writerIdx
      · have entered : copied.setReaderIndex (start : Int) =
            .ok (copied.withIdx { copied.idx with readerIdx := (start : Int) }) := by
          unfold setReaderIndex
          rw [if_neg (by omega)]
          rfl
        apply unique rfl within entered
        · rw [readerIdx_withIdx]
        · rw [writerIdx_withIdx]
          exact writer
        · rw [capacity_withIdx]
          exact capacity
      · have refused : copied.setReaderIndex (start : Int) =
            .error (rangeException "readerIndex") := by
          unfold setReaderIndex
          rw [if_pos (by omega)]
          rfl
        constructor
        · intro ran
          rw [decomposeFrom, made, ok_bind] at ran
          obtain ⟨buf, entered, -⟩ := ok_of_bind ran
          rw [refused] at entered
          cases entered
        · intro held
          obtain ⟨first, count, starts, total, -⟩ := held
          have same : (first : Int) = start := starts
          omega

/-- The parts of a range are new buffers that are as long as the range together. -/
theorem decomposeFrom_pieces {order : ByteOrder} {parts : List ChannelBuffer}
    (built : ∀ component ∈ components, component.WellBuilt)
    (pieces : ∀ component ∈ components, component.PiecesOnly)
    (ordered : ∀ component ∈ components, component.order = order) {entry : Option Nat}
    {length : Nat}
    (ran : decomposeFrom (slicers components) (entry.map Nat.cast) length = .ok parts) :
    (∀ part ∈ parts, Fresh part.order part ∧ (part.content.length ≠ 0 → part.order = order)) ∧
      (componentContent parts).length = length := by
  induction components generalizing entry length parts with
  | nil =>
      rw [slicers, decomposeFrom] at ran
      cases ran
  | cons component rest ih =>
      obtain ⟨-, -, most⟩ := indexed_inside (built component List.mem_cons_self)
      rw [slicers_cons, decomposeFrom_cons_iff (built component List.mem_cons_self)] at ran
      obtain ⟨first, count, -, total, held⟩ := ran
      have here := pieces component List.mem_cons_self
      have same : component.order = order := ordered component List.mem_cons_self
      rcases held with ⟨fits, part, cut, rfl⟩ | ⟨beyond, part, others, cut, behind, rfl⟩
      · have piece := here first length (by omega) part cut
        refine ⟨?_, ?_⟩
        · intro other among
          rw [List.mem_singleton.mp among, piece.size]
          exact ⟨piece.fresh, fun some_ => (piece.ordered some_).trans same⟩
        · rw [componentContent, componentContent, List.append_nil, piece.size]
      · have piece := here first count (by omega) part cut
        obtain ⟨news, size⟩ := ih (fun other among => built other (List.mem_cons_of_mem _ among))
          (fun other among => pieces other (List.mem_cons_of_mem _ among))
          (fun other among => ordered other (List.mem_cons_of_mem _ among))
          (show decomposeFrom (slicers rest) ((none : Option Nat).map Nat.cast) _ = _ from behind)
        refine ⟨?_, ?_⟩
        · intro other among
          rcases List.mem_cons.mp among with rfl | later
          · rw [piece.size]
            exact ⟨piece.fresh, fun some_ => (piece.ordered some_).trans same⟩
          · exact news other later
        · rw [componentContent, List.length_append, piece.size, size]
          omega

/-- `decompose` starts at the component that holds the index. -/
theorem decompose_from {last start length : Nat}
    (built : ∀ component ∈ components, component.WellBuilt) (cached : last < components.length)
    (positive : 0 < length) (inside : start + length ≤ (componentContent components).length)
    (small : ((componentContent components).length : Int) ≤ maxInt) :
    ∃ skipped component rest inner, components = skipped ++ component :: rest ∧
      start = (componentContent skipped).length + inner ∧ inner < component.content.length ∧
      decompose (slicers components) ((components.map capacity).scanl (· + ·) 0) last start
        length = decomposeFrom (slicers (component :: rest)) ((some inner).map Nat.cast) length := by
  have answers : ∀ component ∈ components, component.getters.Answers component.content :=
    fun component among => (built component among).answers
  have table := indexed_of_answers answers
  have counted : (components.map content).length = components.length := List.length_map _
  rw [componentContent_flatten] at inside small
  have whole := table components.length (Nat.le_of_eq counted.symm)
  have ends : offset (components.map content) components.length =
      (components.map content).flatten.length := by
    rw [← counted]
    exact offset_end _
  rw [ends] at whole
  have stop : int32 ((start : Int) + length) = start + length :=
    int32_of_nonneg (by omega) (by omega)
  obtain ⟨position, held⟩ := exists_holds
    (show start < (components.map content).flatten.length by omega)
  have search := getComponentId_holds table (by rw [counted]; exact cached) held
  have lower := held.lower
  have upper := held.upper
  have present : position < components.length := by
    rw [← counted]
    exact held.present
  have front : (componentContent (components.take position)).length =
      offset (components.map content) position := by
    rw [componentContent_flatten, List.map_take]
    rfl
  have found : (components.map content)[position]? = some components[position].content := by
    rw [List.getElem?_map, List.getElem?_eq_getElem present]
    rfl
  have next := offset_next found
  have dropped : components.drop position = components[position] :: components.drop (position + 1) :=
    List.drop_eq_getElem_cons present
  obtain ⟨inner, place⟩ := Nat.exists_eq_add_of_le lower
  have entry : (start : Int) - offset (components.map content) position = inner := by omega
  have at_ : ((components.map capacity).scanl (· + ·) 0).getD position 0 =
      (offset (components.map content) position : Int) :=
    table position (Nat.le_of_lt held.present)
  refine ⟨components.take position, components[position], components.drop (position + 1), inner,
    ?_, by omega, by omega, ?_⟩
  · rw [← dropped, List.take_append_drop]
  · rw [counted] at search
    unfold decompose
    rw [slicers_length, whole, stop, if_neg (by omega), if_neg (by omega), search, ok_bind,
      at_, entry, slicers_drop, dropped]
    rfl

/-- `setComponents` accepts components of its order only. -/
theorem makeComposite_ordered {order : ByteOrder} {idx : Indices}
    (made : makeComposite order components idx = .ok composed) :
    ∀ component ∈ components, component.order = order := by
  unfold makeComposite at made
  intro component among
  by_contra other
  have mixed : (components.any fun component => component.order != order) = true := by
    rw [List.any_eq_true]
    exact ⟨component, among, bne_iff_ne.mpr other⟩
  rw [mixed] at made
  cases components with
  | nil => cases among
  | cons first rest => cases made

/-- The parts of a range composed again. -/
theorem composed_piece {order : ByteOrder} {parts : List ChannelBuffer} {length : Nat}
    (news : ∀ part ∈ parts, Fresh part.order part ∧ (part.content.length ≠ 0 → part.order = order))
    (size : (componentContent parts).length = length) (some_ : length ≠ 0)
    (small : (length : Int) ≤ maxInt)
    (made : (match parts with
      | [] => pure emptyBuffer
      | [part] => pure part
      | components => makeComposite order components .zero) = Except.ok composed) :
    Fresh composed.order composed ∧ composed.content.length = length ∧ composed.order = order := by
  cases parts with
  | nil =>
      rw [componentContent] at size
      exact absurd size.symm some_
  | cons first rest =>
      cases rest with
      | nil =>
          obtain rfl : first = composed := Except.ok.inj made
          obtain ⟨fresh, ordered⟩ := news first List.mem_cons_self
          rw [componentContent, componentContent, List.append_nil] at size
          refine ⟨fresh, size, ordered ?_⟩
          rw [size]
          exact some_
      | cons second rest =>
          have same := makeComposite_ordered made
          have fresh : ∀ part ∈ first :: second :: rest, Fresh order part := by
            intro part among
            have new := (news part among).1
            rwa [same part among] at new
          obtain ⟨other, built, whole, shown⟩ := ChannelBuffers.makeComposite_fresh fresh
            (List.cons_ne_nil _ _) (by rw [size]; exact small)
          obtain rfl : other = composed := Except.ok.inj (built.symm.trans made)
          have ordered : other.order = order := whole.ordered
          refine ⟨?_, by rw [shown, size], ordered⟩
          rw [ordered]
          exact whole

/-- Whatever `slice` returns has the length it was asked for. -/
theorem WellBuilt.pieces (built : buffer.WellBuilt) : buffer.PiecesOnly := by
  induction built with
  | heap small inside =>
      apply pieces_of_cuts (heap_cuts (.heap small inside))
      intro index _
      rw [slice]
      beta_reduce
      rw [if_neg (by omega)]
      rfl
  | dynamic same small inside =>
      apply pieces_of_cuts (dynamic_cuts (.dynamic same small inside))
      intro index _
      rw [slice]
      rfl
  | @sliced base adjustment length idx parent within inside ih =>
      have capacity : base.capacity = base.content.length := parent.answers.capacity
      have room : adjustment + length ≤ base.content.length := by omega
      apply pieces_of_cuts (sliced_cuts parent room)
      intro index below
      rw [content, Int.toNat_natCast, Int.toNat_natCast, window_length room] at below
      rw [slice_sliced _ _ _ _ _ _
        (Getters.slicedCheck_of_inside parent.answers.small room (by omega))]
      rfl
  | @truncated base length idx parent within inside ih =>
      have capacity : base.capacity = base.content.length := parent.answers.capacity
      have room : length ≤ base.content.length := by omega
      have same : (ChannelBuffer.truncated base length idx).order = base.order := by
        unfold order
        rw [getters]
        rfl
      intro index count below part cut
      rw [content, Int.toNat_natCast, window_length (by omega)] at below
      rw [slice_truncated _ _ _ _ _
        (Getters.truncatedCheck_of_inside parent.answers.small room below)] at cut
      by_cases none : count = 0
      · subst none
        cases cut
        exact emptyBuffer_piece
      · rw [if_neg (by omega)] at cut
        have piece := ih index count (by omega) part cut
        refine ⟨piece.fresh, piece.size, ?_, piece.empty⟩
        rw [same]
        exact piece.ordered
  | @duplicated base idx parent inside ih =>
      intro index count below part cut
      rw [duplicated_content] at below
      rw [slice] at cut
      have piece := ih index count below part cut
      refine ⟨piece.fresh, piece.size, ?_, piece.empty⟩
      rw [duplicated_order]
      exact piece.ordered
  | @readOnly base idx parent inside ih =>
      have same : (ChannelBuffer.readOnly base idx).order = base.order := by
        unfold order
        rw [getters]
      intro index count below part cut
      rw [readOnly_content] at below
      rw [slice] at cut
      beta_reduce at cut
      obtain ⟨inner, taken, wrapped⟩ := ok_of_bind cut
      have piece := ih index count below inner taken
      rw [makeReadOnly_run piece.fresh.built] at wrapped
      cases wrapped
      have through : (ChannelBuffer.readOnly inner { Indices.zero with
          readerIdx := inner.readerIdx, writerIdx := inner.writerIdx }).order = inner.order := by
        unfold order
        rw [getters]
      refine ⟨?_, ?_, ?_, ?_⟩
      · rw [through]
        exact readOnly_fresh piece.fresh
      · rw [readOnly_content, piece.size]
      · rw [through, same]
        exact piece.ordered
      · rw [through]
        exact piece.empty
  | @composite order components last idx parts same cached small inside ih =>
      intro index count below part cut
      have ordered : (ChannelBuffer.composite order components
          ((components.map capacity).scanl (· + ·) 0) last idx).order = order := by
        unfold ChannelBuffer.order
        rw [getters]
        rfl
      have answers := fun component among => (parts component among).answers
      rw [map_capacity answers, sum_lengths, ← componentContent_flatten] at small
      rw [content] at below
      rw [slice] at cut
      unfold compositeSlice at cut
      by_cases refused : (index : Int) ≠ 0 ∧ ((index : Int) < 0 ∨
          int32 (((components.map capacity).scanl (· + ·) 0).getD (slicers components).length 0 -
            count) < index)
      · rw [if_pos refused] at cut
        cases cut
      rw [if_neg refused] at cut
      by_cases none : count = 0
      · subst none
        rw [if_pos Int.natCast_zero] at cut
        cases cut
        exact emptyBuffer_piece
      rw [if_neg (by omega)] at cut
      obtain ⟨cuts, dealt, composed⟩ := ok_of_bind cut
      obtain ⟨skipped, component, rest, inner, split, -, -, from_⟩ :=
        decompose_from parts cached (Nat.pos_of_ne_zero none) below small
      rw [from_] at dealt
      have among : ∀ other ∈ component :: rest, other ∈ components := by
        intro other there
        rw [split]
        exact List.mem_append_right _ there
      obtain ⟨news, size⟩ := decomposeFrom_pieces (fun other there => parts other (among other there))
        (fun other there => ih other (among other there))
        (fun other there => same other (among other there)) dealt
      obtain ⟨fresh, whole, big⟩ := composed_piece news size none (by omega) composed
      exact ⟨fresh, whole, fun _ => big.trans ordered.symm, fun none_ => absurd none_ none⟩

end Slices

/-- The components from the one that is entered on hand over all of their bytes: the duplicate of
each reaches from its beginning to its end, the slice of it is of the byte order (an empty one is
big-endian) and has the same bytes as far as they are readable. -/
def Deals (order : ByteOrder) : Option Nat → List ChannelBuffer → Nat → Prop
  | _, [], _ => True
  | entry, component :: rest, shown =>
      (entry = none → component.indexed.readerIdx = 0) ∧
      component.indexed.writerIdx = component.content.length ∧
      (order = .big ∨ component.content.length ≠ entry.getD 0) ∧
      (∃ part, component.slice (entry.getD 0)
          ((component.content.length - entry.getD 0 : Nat) : Int) = .ok part ∧
        part.content.take shown = (component.content.drop (entry.getD 0)).take shown) ∧
      (componentContent rest = [] ∨
        Deals order none rest (shown - (component.content.length - entry.getD 0)))

/-- The components that end in front of the index are not asked. -/
def DealsFrom (order : ByteOrder) : List ChannelBuffer → Nat → Nat → Prop
  | [], _, _ => True
  | component :: rest, index, shown =>
      if component.content.length ≤ index then
        DealsFrom order rest (index - component.content.length) shown
      else Deals order (some index) (component :: rest) shown

section Dealing

variable {order : ByteOrder} {components parts : List ChannelBuffer}

theorem dealsFrom_skipped {skipped rest : List ChannelBuffer} {component : ChannelBuffer}
    {inner : Nat} (within : inner < component.content.length) (shown : Nat) :
    DealsFrom order (skipped ++ component :: rest)
        ((componentContent skipped).length + inner) shown ↔
      Deals order (some inner) (component :: rest) shown := by
  induction skipped with
  | nil =>
      rw [componentContent, List.length_nil, Nat.zero_add, List.nil_append, DealsFrom,
        if_neg (by omega)]
  | cons first others ih =>
      rw [List.cons_append, DealsFrom, componentContent, List.length_append, if_pos (by omega),
        ← ih]
      have place : first.content.length + (componentContent others).length + inner -
          first.content.length = (componentContent others).length + inner := by omega
      rw [place]

/-- No more can be taken from components than there is. -/
theorem decomposeFrom_bounded (built : ∀ component ∈ components, component.WellBuilt)
    {entry : Option Nat} {length : Nat}
    (ran : decomposeFrom (slicers components) (entry.map Nat.cast) length = .ok parts) :
    length + entry.getD 0 ≤ (componentContent components).length := by
  induction components generalizing entry length parts with
  | nil =>
      rw [slicers, decomposeFrom] at ran
      cases ran
  | cons component rest ih =>
      obtain ⟨least, -, most⟩ := indexed_inside (built component List.mem_cons_self)
      rw [slicers_cons, decomposeFrom_cons_iff (built component List.mem_cons_self)] at ran
      obtain ⟨first, count, starts, total, held⟩ := ran
      have entered : entry.getD 0 ≤ first := by
        cases entry with
        | none => exact Nat.zero_le _
        | some start =>
            have same : (first : Int) = start := starts
            change start ≤ first
            omega
      rw [componentContent, List.length_append]
      rcases held with ⟨fits, -⟩ | ⟨beyond, part, others, cut, behind, -⟩
      · omega
      · have bound := ih (fun other among => built other (List.mem_cons_of_mem _ among))
          (show decomposeFrom (slicers rest) ((none : Option Nat).map Nat.cast) _ = _ from behind)
        change _ + 0 ≤ _ at bound
        omega

theorem take_appended {first other rest behind : List Byte} (same : first.length = other.length)
    (count : Nat) :
    (first ++ rest).take count = (other ++ behind).take count ↔
      first.take count = other.take count ∧
        rest.take (count - other.length) = behind.take (count - other.length) := by
  rw [List.take_append, List.take_append, same]
  constructor
  · intro joined
    exact List.append_inj joined (by rw [List.length_take, List.length_take, same])
  · intro split
    rw [split.1, split.2]

/-- A component from which all that is left has to come is taken as a whole. -/
theorem taken_whole {component : ChannelBuffer} {rest : List ChannelBuffer}
    (built : component.WellBuilt) {entry : Option Nat} {first count total : Nat}
    (head : entry.getD 0 ≤ component.content.length)
    (whole : total + entry.getD 0 = component.content.length + (componentContent rest).length)
    (starts : (first : Int) = (entry.map Nat.cast).getD component.indexed.readerIdx)
    (ends : ((first + count : Nat) : Int) = component.indexed.writerIdx)
    (enough : total ≤ count + (componentContent rest).length) :
    (entry = none → component.indexed.readerIdx = 0) ∧
      component.indexed.writerIdx = component.content.length ∧ first = entry.getD 0 ∧
      count = component.content.length - entry.getD 0 := by
  obtain ⟨least, -, most⟩ := indexed_inside built
  cases entry with
  | none =>
      have same : (first : Int) = component.indexed.readerIdx := starts
      change total + 0 = _ at whole
      change _ ∧ _ ∧ first = 0 ∧ count = component.content.length - 0
      exact ⟨fun _ => by omega, by omega, by omega, by omega⟩
  | some start =>
      have same : (first : Int) = start := starts
      change start ≤ _ at head
      change total + start = _ at whole
      change _ ∧ _ ∧ first = start ∧ count = component.content.length - start
      refine ⟨fun none_ => ?_, by omega, by omega, by omega⟩
      cases none_

/-- The parts hold the readable bytes exactly when the components deal them. -/
theorem dealt_iff (built : ∀ component ∈ components, component.WellBuilt)
    (ordered : ∀ component ∈ components, component.order = order) {entry : Option Nat}
    (shown : Nat) {total : Nat} (head : ∀ component ∈ components.head?, entry.getD 0 ≤ component.content.length)
    (positive : 0 < total) (whole : total + entry.getD 0 = (componentContent components).length) :
    (∃ parts, decomposeFrom (slicers components) (entry.map Nat.cast) total = .ok parts ∧
      (∀ part ∈ parts, part.order = order) ∧
      (componentContent parts).take shown =
        ((componentContent components).drop (entry.getD 0)).take shown) ↔
      Deals order entry components shown := by
  induction components generalizing entry shown total with
  | nil =>
      rw [componentContent, List.length_nil] at whole
      omega
  | cons component rest ih =>
      have here := built component List.mem_cons_self
      have within : entry.getD 0 ≤ component.content.length := head component rfl
      have later : ∀ other ∈ rest, other.WellBuilt :=
        fun other among => built other (List.mem_cons_of_mem _ among)
      have same : component.order = order := ordered component List.mem_cons_self
      have left : (component.content.drop (entry.getD 0)).length =
          component.content.length - entry.getD 0 := List.length_drop
      rw [componentContent, List.length_append] at whole
      rw [componentContent, List.drop_append_of_le_length within, Deals, slicers_cons]
      -- the part that is cut out of this component
      have cutOut : ∀ {part : ChannelBuffer}, component.slice (entry.getD 0)
          ((component.content.length - entry.getD 0 : Nat) : Int) = .ok part →
          part.content.length = (component.content.drop (entry.getD 0)).length ∧
            (part.order = order ↔ order = .big ∨ component.content.length ≠ entry.getD 0) := by
        intro part cut
        have piece := here.pieces _ _ (by omega) part cut
        refine ⟨by rw [piece.size, left], ?_⟩
        by_cases empty : component.content.length = entry.getD 0
        · rw [piece.empty (by omega)]
          constructor
          · intro big
            exact Or.inl big.symm
          · intro either
            rcases either with big | some_
            · exact big.symm
            · exact absurd empty some_
        · constructor
          · intro _
            exact Or.inr empty
          · intro _
            exact (piece.ordered (by omega)).trans same
      constructor
      · intro held
        obtain ⟨parts, ran, orders, bytes⟩ := held
        rw [decomposeFrom_cons_iff here] at ran
        obtain ⟨first, count, starts, ends, held⟩ := ran
        rcases held with ⟨fits, part, cut, rfl⟩ | ⟨beyond, part, others, cut, behind, rfl⟩
        · have enough : total ≤ count + (componentContent rest).length := by omega
          obtain ⟨reader, writer, rfl, amount⟩ := taken_whole here within whole starts ends enough
          have none_ : componentContent rest = [] := by
            apply List.length_eq_zero_iff.mp
            omega
          rw [show total = component.content.length - entry.getD 0 by omega] at cut
          refine ⟨reader, writer, (cutOut cut).2.mp (orders part List.mem_cons_self),
            ⟨part, cut, ?_⟩, Or.inl none_⟩
          rw [componentContent, componentContent, none_, List.append_nil, List.append_nil] at bytes
          exact bytes
        · have bound := decomposeFrom_bounded later
            (show decomposeFrom (slicers rest) ((none : Option Nat).map Nat.cast) _ = _ from behind)
          change _ + 0 ≤ _ at bound
          have enough : total ≤ count + (componentContent rest).length := by omega
          obtain ⟨reader, writer, rfl, rfl⟩ := taken_whole here within whole starts ends enough
          rw [componentContent, take_appended (cutOut cut).1, left] at bytes
          refine ⟨reader, writer, (cutOut cut).2.mp (orders part List.mem_cons_self),
            ⟨part, cut, bytes.1⟩, Or.inr ?_⟩
          have more : 0 < total - (component.content.length - entry.getD 0) := by omega
          apply (ih later (fun other among => ordered other (List.mem_cons_of_mem _ among))
            _ (fun _ _ => Nat.zero_le _) more (by change _ + 0 = _; omega)).mp
          exact ⟨others, behind, fun other among => orders other (List.mem_cons_of_mem _ among),
            bytes.2⟩
      · intro held
        obtain ⟨reader, writer, big, ⟨part, cut, bytes⟩, behind⟩ := held
        have starts : ((entry.getD 0 : Nat) : Int) =
            (entry.map Nat.cast).getD component.indexed.readerIdx := by
          cases entry with
          | none => exact (reader rfl).symm
          | some start => rfl
        have ends : ((entry.getD 0 + (component.content.length - entry.getD 0) : Nat) : Int) =
            component.indexed.writerIdx := by
          rw [writer]
          omega
        by_cases none_ : componentContent rest = []
        · have none : (componentContent rest).length = 0 := by
            rw [none_]
            rfl
          refine ⟨[part], ?_, ?_, ?_⟩
          · rw [decomposeFrom_cons_iff here]
            refine ⟨_, _, starts, ends, Or.inl ⟨by omega, part, ?_, rfl⟩⟩
            rw [show total = component.content.length - entry.getD 0 by omega]
            exact cut
          · intro other among
            rw [List.mem_singleton.mp among]
            exact (cutOut cut).2.mpr big
          · rw [componentContent, componentContent, none_, List.append_nil, List.append_nil]
            exact bytes
        · have more : 0 < (componentContent rest).length := List.length_pos_of_ne_nil none_
          rcases behind with none | deals
          · exact absurd none none_
          obtain ⟨others, ran, orders, shown_⟩ :=
            (ih later (fun other among => ordered other (List.mem_cons_of_mem _ among))
              _ (fun _ _ => Nat.zero_le _) more rfl).mpr deals
          refine ⟨part :: others, ?_, ?_, ?_⟩
          · rw [decomposeFrom_cons_iff here]
            refine ⟨_, _, starts, ends, Or.inr ⟨by omega, part, others, cut, ?_, rfl⟩⟩
            have remaining : total - (component.content.length - entry.getD 0) =
                (componentContent rest).length := by omega
            rw [remaining]
            exact ran
          · intro other among
            rcases List.mem_cons.mp among with rfl | there
            · exact (cutOut cut).2.mpr big
            · exact orders other there
          · rw [componentContent, take_appended (cutOut cut).1, left]
            exact ⟨bytes, shown_⟩

end Dealing

section Recomposed

variable {order : ByteOrder} {components list : List ChannelBuffer} {last : Nat} {idx : Indices}

/-- The buffer that fills up what has been discarded. -/
def padding (order : ByteOrder) (count : Nat) : ChannelBuffer :=
  heap ⟨order, List.replicate count 0, .full count⟩

theorem padding_fresh {count : Nat} (small : (count : Int) ≤ maxInt) :
    Fresh order (padding order count) := by
  have fresh : Fresh order (heap ⟨order, List.replicate count 0,
      .full (List.replicate count (0 : Byte)).length⟩) :=
    heap_fresh (by rw [List.length_replicate]; exact small)
  rw [List.length_replicate] at fresh
  exact fresh

theorem padding_content (order : ByteOrder) (count : Nat) :
    (padding order count).content = List.replicate count 0 := by
  unfold padding
  rw [content]

theorem padding_made (order : ByteOrder) {count : Nat} (positive : 0 < count) :
    allocate order (count : Int) = .ok ⟨order, List.replicate count 0, .zero⟩ ∧
      (heap ⟨order, List.replicate count 0, .zero⟩).setWriterIndex count =
        .ok (padding order count) := by
  constructor
  · unfold allocate
    rw [if_neg (by omega), if_neg (by omega), Int.toNat_natCast]
    rfl
  · unfold setWriterIndex
    rw [if_neg]
    · rfl
    · unfold capacity readerIdx
      rw [getters]
      change ¬((count : Int) < 0 ∨ ((List.replicate count (0 : Byte)).length : Int) < count)
      rw [List.length_replicate]
      omega

/-- A mark as the composite buffer relocates it. -/
theorem relocated_max (mark reader : Int) :
    (if reader < mark then mark - reader else 0) = max (mark - reader) 0 := by
  by_cases ahead : reader < mark
  · rw [if_pos ahead]
    omega
  · rw [if_neg ahead]
    omega

variable {reader : Nat}

/-- What `discardReadBytes` of a composite buffer comes to once the parts are cut. -/
theorem compositeDiscard_eq (order : ByteOrder) (positive : 0 < reader)
    (front : idx.readerIdx = reader)
    (markedLeast : 0 ≤ idx.markedReaderIndex) (markedMost : idx.markedReaderIndex ≤ idx.writerIdx)
    (dealt : decompose (slicers components) ((components.map capacity).scanl (· + ·) 0) last
      reader (((components.map capacity).scanl (· + ·) 0).getD components.length 0 - reader) =
      .ok list) :
    compositeDiscard order components ((components.map capacity).scanl (· + ·) 0) last idx = (do
      let buffer ← makeComposite order (list ++ [padding order reader]) idx
      let buffer ← buffer.setIndex (max (idx.markedReaderIndex - reader) 0)
        (max (idx.markedWriterIndex - reader) 0)
      let marked := buffer.withIdx
        { buffer.idx with
          markedReaderIndex := buffer.readerIdx
          markedWriterIndex := buffer.writerIdx }
      marked.setIndex 0 (max (idx.writerIdx - reader) 0)) := by
  obtain ⟨allocated, filled⟩ := padding_made order positive
  unfold compositeDiscard
  simp only [front, relocated_max]
  rw [dealt, ok_bind, allocated, ok_bind, filled, ok_bind, if_neg (by omega)]

/-- The parts are of the order and the marks are in order. -/
structure Recomposes (order : ByteOrder) (list : List ChannelBuffer) (idx : Indices) : Prop where
  ordered : ∀ part ∈ list, part.order = order
  marks : max (idx.markedReaderIndex - idx.readerIdx) 0 ≤
    max (idx.markedWriterIndex - idx.readerIdx) 0

/-- A composite buffer after its read bytes are gone. -/
def recomposed (order : ByteOrder) (list : List ChannelBuffer) (idx : Indices) : ChannelBuffer :=
  composite order list ((list.map capacity).scanl (· + ·) 0) 0
    { readerIdx := 0
      writerIdx := max (idx.writerIdx - idx.readerIdx) 0
      markedReaderIndex := max (idx.markedReaderIndex - idx.readerIdx) 0
      markedWriterIndex := max (idx.markedWriterIndex - idx.readerIdx) 0 }

theorem recomposed_run (positive : 0 < reader) (front : idx.readerIdx = reader)
    (behind : idx.readerIdx ≤ idx.writerIdx)
    (news : ∀ part ∈ list, Fresh part.order part)
    (size : (componentContent list).length + reader = (componentContent components).length)
    (small : ((componentContent components).length : Int) ≤ maxInt)
    (written : idx.writerIdx ≤ (componentContent components).length)
    (markedMost : idx.markedWriterIndex ≤ (componentContent components).length)
    (recomposes : Recomposes order list idx) :
    (do
      let buffer ← makeComposite order (list ++ [padding order reader]) idx
      let buffer ← buffer.setIndex (max (idx.markedReaderIndex - reader) 0)
        (max (idx.markedWriterIndex - reader) 0)
      let marked := buffer.withIdx
        { buffer.idx with
          markedReaderIndex := buffer.readerIdx
          markedWriterIndex := buffer.writerIdx }
      marked.setIndex 0 (max (idx.writerIdx - reader) 0) : Except Stop ChannelBuffer) =
      .ok (recomposed order (list ++ [padding order reader]) idx) := by
  have marks := recomposes.marks
  rw [front] at marks behind
  have fresh : ∀ part ∈ list ++ [padding order reader], Fresh order part := by
    intro part among
    rcases List.mem_append.mp among with old | new
    · have made := news part old
      rwa [recomposes.ordered part old] at made
    · rw [List.mem_singleton.mp new]
      exact padding_fresh (by omega)
  have joined : (componentContent (list ++ [padding order reader])).length =
      (componentContent components).length := by
    rw [componentContent_flatten, List.map_append, List.flatten_append, List.length_append,
      ← componentContent_flatten, ← componentContent_flatten, componentContent, componentContent,
      padding_content, List.append_nil, List.length_replicate, size]
  have some_ : list ++ [padding order reader] ≠ [] := by
    intro none
    have wrong := congrArg List.length none
    rw [List.length_append, List.length_singleton, List.length_nil] at wrong
    omega
  have sized := ChannelBuffers.composite_capacity fresh some_ (by rw [joined]; exact small)
  rw [joined] at sized
  rw [ChannelBuffers.makeComposite_run fresh some_ (by rw [joined]; exact small) idx, ok_bind,
    setIndex_of_inside (by omega) marks (by rw [sized]; omega), ok_bind]
  simp only [withIdx_withIdx, idx_withIdx, readerIdx_withIdx, writerIdx_withIdx]
  rw [setIndex_of_inside (Int.le_refl 0) (by omega) (by rw [capacity_withIdx, sized]; omega)]
  unfold recomposed
  rw [withIdx_withIdx, idx_withIdx, front]
  rfl

/-- Nothing else is recomposed. -/
theorem recomposes_of_ok (front : idx.readerIdx = reader) {moved : ChannelBuffer}
    (ran : (do
      let buffer ← makeComposite order (list ++ [padding order reader]) idx
      let buffer ← buffer.setIndex (max (idx.markedReaderIndex - reader) 0)
        (max (idx.markedWriterIndex - reader) 0)
      let marked := buffer.withIdx
        { buffer.idx with
          markedReaderIndex := buffer.readerIdx
          markedWriterIndex := buffer.writerIdx }
      marked.setIndex 0 (max (idx.writerIdx - reader) 0) : Except Stop ChannelBuffer) =
      .ok moved) : Recomposes order list idx := by
  obtain ⟨composed, made, ran⟩ := ok_of_bind ran
  obtain ⟨marked, placed, -⟩ := ok_of_bind ran
  constructor
  · intro part among
    exact makeComposite_ordered made part (List.mem_append_left _ among)
  · rw [front]
    by_contra apart
    unfold setIndex at placed
    rw [if_pos (Or.inr (Or.inl (by omega)))] at placed
    cases placed

end Recomposed

section Composites

variable {order : ByteOrder} {components : List ChannelBuffer} {last : Nat} {idx : Indices}

theorem dealsFrom_all (order : ByteOrder) (components : List ChannelBuffer) (shown : Nat) :
    DealsFrom order components (componentContent components).length shown := by
  induction components with
  | nil =>
      rw [DealsFrom]
      trivial
  | cons component rest ih =>
      rw [componentContent, List.length_append, DealsFrom, if_pos (Nat.le_add_right _ _),
        Nat.add_sub_cancel_left]
      exact ih

section

variable (parts : ∀ component ∈ components, component.WellBuilt)
  (ordered : ∀ component ∈ components, component.order = order)
  (cached : last < components.length)
  (small : ((componentContent components).length : Int) ≤ maxInt) {reader left : Nat}
  (whole : reader + left = (componentContent components).length)

include parts ordered cached small whole

/-- The parts `decompose` cuts are new buffers as long as what is left. -/
theorem decomposed_pieces {list : List ChannelBuffer}
    (dealt : decompose (slicers components) ((components.map capacity).scanl (· + ·) 0) last
      reader left = .ok list) :
    (∀ part ∈ list, Fresh part.order part) ∧ (componentContent list).length = left := by
  by_cases none : left = 0
  · subst none
    unfold decompose at dealt
    rw [if_pos Int.natCast_zero] at dealt
    cases dealt
    refine ⟨fun part among => absurd among List.not_mem_nil, ?_⟩
    rw [componentContent]
    rfl
  obtain ⟨skipped, component, rest, inner, split, -, -, from_⟩ :=
    decompose_from parts cached (Nat.pos_of_ne_zero none) (Nat.le_of_eq whole) small
  rw [from_] at dealt
  have among : ∀ other ∈ component :: rest, other ∈ components := by
    intro other there
    rw [split]
    exact List.mem_append_right _ there
  obtain ⟨news, size⟩ := decomposeFrom_pieces (fun other there => parts other (among other there))
    (fun other there => (parts other (among other there)).pieces)
    (fun other there => ordered other (among other there)) dealt
  exact ⟨fun part there => (news part there).1, size⟩

/-- What is left is cut into parts with the readable bytes exactly when the components deal it. -/
theorem decomposed_iff (shown : Nat) :
    (∃ list, decompose (slicers components) ((components.map capacity).scanl (· + ·) 0) last
        reader left = .ok list ∧
      (∀ part ∈ list, part.order = order) ∧
      (componentContent list).take shown =
        ((componentContent components).drop reader).take shown) ↔
      DealsFrom order components reader shown := by
  by_cases none : left = 0
  · subst none
    obtain rfl : reader = (componentContent components).length := by omega
    constructor
    · intro _
      exact dealsFrom_all order components shown
    · intro _
      refine ⟨[], ?_, fun part among => absurd among List.not_mem_nil, ?_⟩
      · unfold decompose
        rw [if_pos Int.natCast_zero]
        rfl
      · rw [componentContent, List.drop_length]
  obtain ⟨skipped, component, rest, inner, split, place, within, from_⟩ :=
    decompose_from parts cached (Nat.pos_of_ne_zero none) (Nat.le_of_eq whole) small
  have among : ∀ other ∈ component :: rest, other ∈ components := by
    intro other there
    rw [split]
    exact List.mem_append_right _ there
  have joined : componentContent components =
      componentContent skipped ++ componentContent (component :: rest) := by
    rw [split, componentContent_flatten, List.map_append, List.flatten_append,
      ← componentContent_flatten, ← componentContent_flatten]
  have total := congrArg List.length joined
  rw [List.length_append] at total
  have dropped : (componentContent components).drop reader =
      (componentContent (component :: rest)).drop inner := by
    rw [joined, place, ← List.drop_drop, List.drop_left]
  rw [from_, dropped]
  have deals := dealt_iff (fun other there => parts other (among other there))
    (fun other there => ordered other (among other there)) shown
    (show ∀ other ∈ (component :: rest).head?, (some inner).getD 0 ≤ other.content.length by
      intro other head
      cases head
      exact Nat.le_of_lt within)
    (Nat.pos_of_ne_zero none) (by change left + inner = _; omega)
  rw [show (some inner).getD 0 = inner from rfl] at deals
  rw [deals, split, place, dealsFrom_skipped within]

end

/-- Whether the composite buffer that `discardReadBytes` makes is right. -/
theorem recomposed_discarded {list : List ChannelBuffer} {reader left : Nat}
    (built : (composite order components ((components.map capacity).scanl (· + ·) 0) last
      idx).WellBuilt)
    (front : idx.readerIdx = reader)
    (whole : reader + left = (componentContent components).length)
    (news : ∀ part ∈ list, Fresh order part) (size : (componentContent list).length = left) :
    Discarded (composite order components ((components.map capacity).scanl (· + ·) 0) last idx)
        (recomposed order (list ++ [padding order reader]) idx) ↔
      (componentContent list).take (idx.writerIdx - reader).toNat =
        ((componentContent components).drop reader).take (idx.writerIdx - reader).toNat := by
  have capacity_ := built.answers.capacity
  have small := built.answers.small
  have inside := built.inside
  rw [content] at capacity_ small inside
  have writer : idx.readerIdx ≤ idx.writerIdx := inside.writer
  have bound : idx.writerIdx ≤ (componentContent components).length := inside.bound
  have fresh : ∀ part ∈ list ++ [padding order reader], Fresh order part := by
    intro part among
    rcases List.mem_append.mp among with old | new
    · exact news part old
    · rw [List.mem_singleton.mp new]
      exact padding_fresh (by omega)
  have contents : componentContent (list ++ [padding order reader]) =
      componentContent list ++ List.replicate reader 0 := by
    rw [componentContent_flatten, List.map_append, List.flatten_append,
      ← componentContent_flatten, ← componentContent_flatten, componentContent, componentContent,
      padding_content, List.append_nil]
  have joined : (componentContent (list ++ [padding order reader])).length =
      (componentContent components).length := by
    rw [contents, List.length_append, List.length_replicate, size]
    omega
  have some_ : list ++ [padding order reader] ≠ [] := by
    intro none
    have wrong := congrArg List.length none
    rw [List.length_append, List.length_singleton, List.length_nil] at wrong
    omega
  have sized := ChannelBuffers.composite_capacity fresh some_ (by rw [joined]; exact small)
  have before : (composite order components ((components.map capacity).scanl (· + ·) 0) last
      idx).readableContent =
      ((componentContent components).drop reader).take (idx.writerIdx - reader).toNat := by
    unfold readableContent
    rw [content]
    change window _ idx.readerIdx.toNat (idx.writerIdx - idx.readerIdx).toNat = _
    rw [front, Int.toNat_natCast]
    rfl
  have after : (recomposed order (list ++ [padding order reader]) idx).readableContent =
      (componentContent list).take (idx.writerIdx - reader).toNat := by
    unfold recomposed readableContent
    rw [content, contents]
    change window _ 0 (max (idx.writerIdx - idx.readerIdx) 0 - 0).toNat = _
    rw [front, Int.sub_zero, Int.max_eq_left (by omega)]
    unfold window
    rw [List.drop_zero, List.take_append_of_le_length (by omega)]
  constructor
  · intro discarded
    rw [← before, ← after]
    exact discarded.bytes
  · intro same
    constructor
    · unfold recomposed
      rw [sized, joined]
      exact capacity_.symm
    · rfl
    · exact Int.max_eq_left (by omega)
    · rw [before, after, same]
    · rfl
    · rfl

theorem discardReadBytes_composite {indices : List Int} (behind : idx.readerIdx ≠ 0) :
    BufferM.discardReadBytes.run (composite order components indices last idx) =
      match compositeDiscard order components indices last idx with
      | .ok moved => .ok () moved
      | .error stop => .error stop (composite order components indices last idx) := by
  have reached : BufferM.discardReadBytes.run (composite order components indices last idx) =
      (if idx.readerIdx = 0 then pure ()
      else do
        let moved ← call (compositeDiscard order components indices last idx)
        set moved : BufferM Unit).run (composite order components indices last idx) := rfl
  rw [reached, if_neg behind]
  cases compositeDiscard order components indices last idx with
  | ok moved => rfl
  | error stop => rfl

theorem composite_discards (parts : ∀ component ∈ components, component.WellBuilt)
    (ordered : ∀ component ∈ components, component.order = order)
    (cached : last < components.length)
    (built : (composite order components ((components.map capacity).scanl (· + ·) 0) last
      idx).WellBuilt)
    (marked : (composite order components ((components.map capacity).scanl (· + ·) 0) last
      idx).Marked) :
    Discards (composite order components ((components.map capacity).scanl (· + ·) 0) last idx) ↔
      idx.readerIdx = 0 ∨
        (idx.markedReaderIndex ≤ idx.markedWriterIndex ∨
          idx.markedReaderIndex ≤ idx.readerIdx) ∧
        DealsFrom order components idx.readerIdx.toNat
          (idx.writerIdx - idx.readerIdx).toNat := by
  have capacity_ := built.answers.capacity
  have small := built.answers.small
  have inside := built.inside
  rw [content] at capacity_ small inside
  have least : 0 ≤ idx.readerIdx := inside.reader
  have writer : idx.readerIdx ≤ idx.writerIdx := inside.writer
  have bound : idx.writerIdx ≤ (componentContent components).length := inside.bound
  have readerMost : idx.markedReaderIndex ≤ idx.writerIdx := marked.readerMost
  have readerLeast : 0 ≤ idx.markedReaderIndex := marked.readerLeast
  have writerMost : idx.markedWriterIndex ≤ _ := marked.writerMost
  rw [content] at writerMost
  by_cases front : idx.readerIdx = 0
  · constructor
    · intro _
      exact Or.inl front
    · intro _
      refine ⟨_, ?_, discarded_front marked front⟩
      have reached : BufferM.discardReadBytes.run
          (composite order components ((components.map capacity).scanl (· + ·) 0) last idx) =
          (if idx.readerIdx = 0 then pure () else _ : BufferM Unit).run
            (composite order components ((components.map capacity).scanl (· + ·) 0) last idx) := rfl
      rw [reached, if_pos front]
      rfl
  obtain ⟨reader, starts⟩ : ∃ reader : Nat, idx.readerIdx = reader :=
    ⟨idx.readerIdx.toNat, by omega⟩
  obtain ⟨left, whole⟩ : ∃ left, reader + left = (componentContent components).length :=
    ⟨(componentContent components).length - reader, by omega⟩
  have total : ((components.map capacity).scanl (· + ·) 0).getD components.length 0 =
      ((componentContent components).length : Int) := by
    have counted : (componentGetters components).length = components.length := by
      rw [componentGetters_map, List.length_map]
    rw [getters] at capacity_
    rw [← counted]
    exact capacity_
  have amount : ((components.map capacity).scanl (· + ·) 0).getD components.length 0 -
      (reader : Int) = left := by
    rw [total]
    omega
  have relocates := decomposed_iff parts ordered cached small whole (idx.writerIdx - reader).toNat
  have marks : (idx.markedReaderIndex ≤ idx.markedWriterIndex ∨
      idx.markedReaderIndex ≤ idx.readerIdx) ↔
      max (idx.markedReaderIndex - idx.readerIdx) 0 ≤
        max (idx.markedWriterIndex - idx.readerIdx) 0 := by
    omega
  have back : (idx.writerIdx - reader).toNat = (idx.writerIdx - idx.readerIdx).toNat := by
    rw [starts]
  have at_ : idx.readerIdx.toNat = reader := by omega
  rw [back] at relocates
  rw [at_, ← relocates, marks]
  constructor
  · intro discards
    obtain ⟨after, ran, discarded⟩ := discards
    rw [discardReadBytes_composite front] at ran
    right
    cases dealt : decompose (slicers components) ((components.map capacity).scanl (· + ·) 0) last
        reader left with
    | error stop =>
        rw [← amount] at dealt
        have stopped : compositeDiscard order components ((components.map capacity).scanl (· + ·) 0)
            last idx = .error stop := by
          unfold compositeDiscard
          simp only [starts]
          rw [dealt]
          rfl
        rw [stopped] at ran
        cases ran
    | ok list =>
        obtain ⟨news, size⟩ := decomposed_pieces parts ordered cached small whole dealt
        have dealt_ := dealt
        rw [← amount] at dealt_
        have same := compositeDiscard_eq order (show 0 < reader by omega) starts
          readerLeast readerMost dealt_
        cases made : compositeDiscard order components ((components.map capacity).scanl (· + ·) 0)
            last idx with
        | error stop =>
            rw [made] at ran
            cases ran
        | ok moved =>
            rw [made] at ran same
            cases ran
            have recomposes := recomposes_of_ok starts same.symm
            have fresh : ∀ part ∈ list, Fresh order part := by
              intro part among
              have new := news part among
              rwa [recomposes.ordered part among] at new
            have ended := recomposed_run (show 0 < reader by omega) starts writer news
              (show _ = (componentContent components).length by omega) small bound writerMost
              recomposes
            have moved_ := Except.ok.inj (same.trans ended)
            rw [moved_, recomposed_discarded built starts whole fresh size, back] at discarded
            exact ⟨recomposes.marks, list, rfl, recomposes.ordered, discarded⟩
  · intro held
    rcases held with zero | ⟨inOrder, list, dealt, orders, bytes⟩
    · exact absurd zero front
    obtain ⟨news, size⟩ := decomposed_pieces parts ordered cached small whole dealt
    have fresh : ∀ part ∈ list, Fresh order part := by
      intro part among
      have new := news part among
      rwa [orders part among] at new
    rw [← amount] at dealt
    have same := compositeDiscard_eq order (show 0 < reader by omega) starts
      readerLeast readerMost dealt
    have ended := recomposed_run (show 0 < reader by omega) starts writer news
      (show _ = (componentContent components).length by omega) small bound writerMost
      ⟨orders, inOrder⟩
    refine ⟨recomposed order (list ++ [padding order reader]) idx, ?_, ?_⟩
    · rw [discardReadBytes_composite front, same, ended]
    · rw [recomposed_discarded built starts whole fresh size, back]
      exact bytes

theorem indexed_of_inStep {buffer : ChannelBuffer} (inStep : buffer.InStep) :
    buffer.indexed.readerIdx = buffer.readerIdx ∧ buffer.indexed.writerIdx = buffer.writerIdx := by
  cases buffer with
  | duplicated buffer idx => exact inStep
  | readOnly buffer idx => exact inStep
  | _ => exact ⟨rfl, rfl⟩

/-- The kinds that discard by themselves. -/
def Discarding : ChannelBuffer → Prop
  | heap _ => True
  | dynamic _ _ _ _ => True
  | composite _ _ _ _ _ => True
  | _ => False

/-- When the read bytes are discarded as they should be. -/
def Relocates : ChannelBuffer → Prop
  | composite order components _ _ idx => idx.readerIdx = 0 ∨
      (idx.markedReaderIndex ≤ idx.markedWriterIndex ∨ idx.markedReaderIndex ≤ idx.readerIdx) ∧
      DealsFrom order components idx.readerIdx.toNat (idx.writerIdx - idx.readerIdx).toNat
  | buffer => buffer.readerIdx = 0 ∨ buffer.readerIdx ≠ buffer.writerIdx ∨
      (buffer.idx.markedReaderIndex = 0 ∧ buffer.idx.markedWriterIndex = 0)

theorem discards_iff {buffer : ChannelBuffer} (kind : buffer.Discarding) (built : buffer.WellBuilt)
    (marked : buffer.Marked) : Discards buffer ↔ Relocates buffer := by
  cases built with
  | heap small inside => exact direct_discards trivial (.heap small inside) marked
  | dynamic ordered small inside =>
      exact direct_discards trivial (.dynamic ordered small inside) marked
  | composite parts ordered cached small inside =>
      exact composite_discards parts ordered cached (.composite parts ordered cached small inside)
        marked
  | sliced parent within inside => exact kind.elim
  | truncated parent within inside => exact kind.elim
  | duplicated parent inside => exact kind.elim
  | readOnly parent inside => exact kind.elim

end Composites

/-- Three bytes, all of them read, with the marks behind the first two. -/
def drainedThree : ChannelBuffer := heap ⟨.big, [1, 2, 3], ⟨3, 3, 2, 3⟩⟩

/-- Four bytes, two of them read, with the mark of the reader behind the one of the writer. -/
def crossedMarks : ChannelBuffer :=
  composite .big [heap ⟨.big, [1, 2, 3, 4], .full 4⟩] [0, 4] 0 ⟨2, 4, 4, 1⟩

theorem drainedThree_built : drainedThree.WellBuilt :=
  .heap (by decide) ⟨by decide, by decide, by decide⟩

theorem drainedThree_marked : drainedThree.Marked :=
  ⟨by decide, by decide, by decide, by decide⟩

theorem crossedMarks_parts :
    ∀ component ∈ [heap ⟨.big, [1, 2, 3, 4], .full 4⟩], component.WellBuilt := by
  intro component among
  rw [List.mem_singleton.mp among]
  exact .heap (by decide) ⟨by decide, by decide, by decide⟩

theorem crossedMarks_ordered :
    ∀ component ∈ [heap ⟨.big, [1, 2, 3, 4], .full 4⟩], component.order = .big := by
  intro component among
  rw [List.mem_singleton.mp among]
  rfl

theorem crossedMarks_built : crossedMarks.WellBuilt :=
  .composite crossedMarks_parts crossedMarks_ordered (by decide) (by decide)
    ⟨by decide, by decide, by decide⟩

/-- With nothing readable the marks stay, and crossed marks are an index pair that is refused. -/
theorem marks_not_relocated :
    drainedThree.Discarding ∧ drainedThree.WellBuilt ∧ drainedThree.Marked ∧
      ¬Discards drainedThree ∧
      crossedMarks.Discarding ∧ crossedMarks.WellBuilt ∧ crossedMarks.Marked ∧
      ¬Discards crossedMarks := by
  have marked : crossedMarks.Marked := ⟨by decide, by decide, by decide, by decide⟩
  refine ⟨trivial, drainedThree_built, drainedThree_marked, ?_, trivial, crossedMarks_built, marked,
    ?_⟩
  · intro discards
    have direct : drainedThree.Direct := trivial
    have marks := (discarded_drained direct drainedThree_built drainedThree_marked (by decide)
      rfl).mp discards
    exact absurd marks.1 (by decide)
  · intro discards
    have held := (composite_discards crossedMarks_parts crossedMarks_ordered (Nat.zero_lt_one)
      crossedMarks_built marked).mp discards
    rcases held with front | ⟨marks, -⟩
    · exact absurd front (by decide)
    · exact absurd marks (by decide)

/-- Four bytes, one read and three written. -/
theorem discards_four : Discards (heap ⟨.big, [1, 2, 3, 4], ⟨1, 3, 2, 4⟩⟩) := by
  have built : (heap ⟨.big, [1, 2, 3, 4], ⟨1, 3, 2, 4⟩⟩).WellBuilt :=
    .heap (by decide) ⟨by decide, by decide, by decide⟩
  have marked : (heap ⟨.big, [1, 2, 3, 4], ⟨1, 3, 2, 4⟩⟩).Marked :=
    ⟨by decide, by decide, by decide, by decide⟩
  have kind : (heap ⟨.big, [1, 2, 3, 4], ⟨1, 3, 2, 4⟩⟩).Discarding := trivial
  exact (discards_iff kind built marked).mpr (Or.inr (Or.inl (by decide)))

end ChannelBuffer

end Cetty
