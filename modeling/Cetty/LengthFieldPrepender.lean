import Cetty.FrameDeliveries
import Cetty.HandedBytes
import Cetty.LengthFieldResync
import Cetty.LengthFieldSums

/-!
# LengthFieldPrepender

The encoder writes the length of a message into a header of its own and wraps header and body
into one buffer. The length field decoder takes that apart again as far as `wrappedBuffer` hands
out the readable bytes of the body and the decoder's cumulation has room for what it has to keep.
-/

namespace Cetty

open MachineInt ByteWindow ChannelBuffer ChannelBuffers

namespace ChannelBuffer.Sound

theorem spans {buffer : ChannelBuffer} (sound : buffer.Sound) : buffer.Spans :=
  ⟨sound.reader_nonneg, sound.reader_le_writer, sound.writer_le_length, sound.serves.small,
    sound.readable_length⟩

end ChannelBuffer.Sound

namespace LengthFieldBasedFrameDecoder

section Frames

variable {decoder : LengthFieldBasedFrameDecoder} {buffer : ChannelBuffer}
  {fired : List UpstreamEvent} {factory : ByteOrder} {frame : List Byte}

/-- A sound buffer hands out every part of it that is not empty. -/
theorem extractFrame_sound (sound : buffer.Sound) {source : ChannelBuffer}
    (same : source.getters = buffer.getters) {index length : Nat} (positive : 0 < length)
    (bounded : index + length ≤ buffer.content.length) :
    ∃ taken, extractFrame source index length = .ok taken ∧
      taken.readableContent = window buffer.content index length := by
  have small := sound.serves.small
  have cells : (List.replicate length (0 : Byte)).length = length := List.length_replicate
  have size : (window buffer.content index length).length = length := window_length bounded
  obtain ⟨given, ran⟩ := extractFrame_copies same index (show (length : Int) ≤ maxInt by omega)
  rw [sound.serves.bytes index length _ 0 positive bounded (by omega) (by omega),
    overwrite_whole (by rw [cells, size]), ok_bind] at ran
  refine ⟨_, ran, ?_⟩
  unfold readableContent readerIdx writerIdx
  rw [content, idx]
  change window (window buffer.content index length) 0 ((length : Int) - 0).toNat = _
  rw [Int.sub_zero, Int.toNat_natCast, window_window _ _ _ _ _ (by omega), Nat.add_zero]

theorem takeFrame_sound (fired : List UpstreamEvent) (sound : buffer.Sound) {strip count : Nat}
    (stripping : decoder.initialBytesToStrip = strip) (positive : 0 < count)
    (present : strip + count ≤ buffer.readableContent.length) :
    ∃ taken, (takeFrame ((strip + count : Nat) : Int)).run ⟨decoder, buffer, fired⟩ =
        .ok (.buffer taken) ⟨decoder, buffer.advance (strip + count), fired⟩ ∧
      taken.readableContent = window buffer.readableContent strip count := by
  have spans := sound.spans
  have reader := spans.reader
  have bound := spans.bound
  have readable := spans.readable
  have moved := spans.advance (show strip ≤ buffer.readableContent.length by omega)
  have left : count ≤ (buffer.advance strip).readableContent.length := by
    rw [sound.readable_advance, List.length_drop]
    omega
  obtain ⟨taken, made, shown⟩ := extractFrame_sound sound (getters_advance buffer strip)
    positive (show buffer.readerIdx.toNat + strip + count ≤ buffer.content.length by omega)
  have placed : (onBuffer (BufferM.readerIndex ((buffer.advance strip).readerIdx + count))).run
      (⟨decoder, buffer.advance strip, fired⟩ : DecodeContext _) =
      .ok () ⟨decoder, (buffer.advance strip).advance count, fired⟩ :=
    onBuffer_ok (moved.readerIndex left)
  rw [takeFrame_cuts spans stripping present, made, run_bind_ok _ (run_call_ok _ _),
    run_bind_ok _ placed, advance_advance]
  refine ⟨taken, rfl, ?_⟩
  rw [shown]
  change _ = window (window buffer.content buffer.readerIdx.toNat
    (buffer.writerIdx - buffer.readerIdx).toNat) strip count
  rw [window_window _ _ _ _ _ (by omega)]

section

variable (constructed : Constructed decoder) (wellFormed : WellFormed factory decoder frame)
  (field : (lengthField factory decoder frame : Int) ≤ maxInt)

include constructed wellFormed field

/-- The length read from the header of a frame, however much of it has arrived. -/
theorem lengths_read {bytes : List Byte}
    (complete : decoder.lengthFieldEndOffset ≤ bytes.length)
    (aligned : bytes <+: frame ∨ frame <+: bytes) :
    0 ≤ readLength factory decoder bytes ∧
      computedLength factory decoder bytes = frame.length := by
  have lower := wellFormed.lower
  have upper := wellFormed.upper
  have largest := constructed.maxFrame
  have same : lengthField factory decoder bytes = lengthField factory decoder frame := by
    rcases aligned with ⟨more, rfl⟩ | ⟨more, rfl⟩
    · exact (lengthField_append constructed factory more complete).symm
    · exact lengthField_append constructed factory more lower
  constructor
  · unfold readLength
    rw [same, int32_of_nonneg (Int.natCast_nonneg _) field]
    exact Int.natCast_nonneg _
  · have declared := wellFormed.declared
    unfold declaredLength at declared
    rw [computedLength_eq]
    unfold declaredLength
    rw [same, declared]
    exact int32_of_nonneg (Int.natCast_nonneg _) (by omega)

/-- What the decoder does with a frame, the length of which an `int` holds and of which
something is left behind the stripped bytes. -/
theorem decodes_wellFormed (remains : decoder.initialBytesToStrip < frame.length) :
    FrameDeliveries.Decodes decode decoder factory
      (fun bytes => bytes.drop decoder.initialBytesToStrip.toNat) frame := by
  have lower := wellFormed.lower
  have upper := wellFormed.upper
  have strip := constructed.strip
  refine ⟨by omega, ?_, ?_⟩
  · intro buffer fired sound ordered part short
    by_cases complete : decoder.lengthFieldEndOffset ≤ buffer.readableContent.length
    · obtain ⟨read, computed⟩ :=
        lengths_read constructed wellFormed field complete (Or.inl part)
      rw [decode_header constructed sound complete, ordered]
      exact decodeBody_waits sound.spans read
        ((computedLength_steps _ _ _).trans computed) lower upper (Int.ofNat_lt.mpr short)
    · exact decode_short constructed sound (by omega)
  · intro buffer fired sound ordered leads
    have within := leads.length_le
    obtain ⟨read, computed⟩ :=
      lengths_read constructed wellFormed field (by omega) (Or.inr leads)
    obtain ⟨first, first_eq⟩ : ∃ first : Nat, decoder.initialBytesToStrip = first :=
      ⟨decoder.initialBytesToStrip.toNat, by omega⟩
    obtain ⟨count, whole⟩ : ∃ count, frame.length = first + count :=
      ⟨frame.length - first, by omega⟩
    obtain ⟨taken, ran, shown⟩ := takeFrame_sound fired sound first_eq
      (show 0 < count by omega) (by omega)
    refine ⟨taken, ?_, ?_⟩
    · rw [decode_header constructed sound (by omega), ordered,
        decodeBody_takes sound.spans read ((computedLength_steps _ _ _).trans computed) lower upper
          (by omega), whole]
      exact ran
    · obtain ⟨more, split⟩ := leads
      rw [shown, ← split, first_eq, Int.toNat_natCast]
      unfold window
      rw [List.drop_append_of_le_length (by omega), List.take_left' ?_]
      rw [List.length_drop]
      omega

end

end Frames

end LengthFieldBasedFrameDecoder

structure LengthFieldPrepender where
  lengthIncludesLengthFieldLength : Bool
  lengthFieldLength : Int

namespace LengthFieldPrepender

def validateLengthFieldLength (this : LengthFieldPrepender) : Except Stop Unit :=
  if this.lengthFieldLength ≠ 1 ∧ this.lengthFieldLength ≠ 2 ∧ this.lengthFieldLength ≠ 3 ∧
      this.lengthFieldLength ≠ 4 ∧ this.lengthFieldLength ≠ 8 then
    throw (invalidArgumentException
      ("lengthFieldLength must be either 1, 2, 3, 4, or 8: " ++ toString this.lengthFieldLength))
  else pure ()

/-- The two-argument constructor; the other one has `false` for the second argument. -/
def make (lengthFieldLength : Int) (lengthIncludesLengthFieldLength : Bool) :
    Except Stop LengthFieldPrepender := do
  let this : LengthFieldPrepender := ⟨lengthIncludesLengthFieldLength, lengthFieldLength⟩
  this.validateLengthFieldLength
  pure this

def tooLong (kind : String) (length : Int) : Stop :=
  invalidArgumentException ("length does not fit into a " ++ kind ++ ": " ++ toString length)

/-- The `switch` of `encode`, on the header. -/
def writeLength (this : LengthFieldPrepender) (length : Int) : BufferM Unit :=
  match this.lengthFieldLength with
  | 1 =>
      if 256 ≤ length then throw (tooLong "byte" length)
      else BufferM.writeTyped (.byte (BitVec.ofInt 32 length))
  | 2 =>
      if 65536 ≤ length then throw (tooLong "short integer" length)
      else BufferM.writeTyped (.short (BitVec.ofInt 32 length))
  | 3 =>
      if 16777216 ≤ length then throw (tooLong "medium integer" length)
      else BufferM.writeTyped (.medium (BitVec.ofInt 32 length))
  | 4 => BufferM.writeTyped (.int (BitVec.ofInt 32 length))
  | 8 => BufferM.writeTyped (.long (BitVec.ofInt 64 length))
  | _ => throw (.thrown ⟨.runtime, "should not reach here"⟩)

def announced (this : LengthFieldPrepender) (body : ChannelBuffer) : Int :=
  if this.lengthIncludesLengthFieldLength then
    int32 (body.readableBytes + this.lengthFieldLength)
  else body.readableBytes

/-- A message that is no buffer is handed on. -/
def encode (this : LengthFieldPrepender) : ChannelMessage → Except Stop ChannelMessage
  | .buffer body => do
      let header ← allocate body.order this.lengthFieldLength
      let written ← match (this.writeLength (this.announced body)).run (.heap header) with
        | .ok _ written => pure written
        | .error stop _ => throw stop
      let encoding ← wrappedTwoBuffers written body
      pure (.buffer encoding)
  | msg => pure msg

/-- What the constructor lets through. -/
def Valid (this : LengthFieldPrepender) : Prop :=
  this.lengthFieldLength = 1 ∨ this.lengthFieldLength = 2 ∨ this.lengthFieldLength = 3 ∨
    this.lengthFieldLength = 4 ∨ this.lengthFieldLength = 8

variable {this : LengthFieldPrepender}

theorem make_valid {lengthFieldLength : Int} {includes : Bool}
    (made : make lengthFieldLength includes = .ok this) :
    this = ⟨includes, lengthFieldLength⟩ ∧ this.Valid := by
  unfold make validateLengthFieldLength at made
  dsimp only at made
  split at made
  · cases made
  · cases made
    refine ⟨rfl, ?_⟩
    unfold Valid
    dsimp only
    omega

section Header

variable {this : LengthFieldPrepender} {order : ByteOrder}

/-- A new header takes exactly one value of its length. -/
theorem writeTyped_header (order : ByteOrder) (value : TypedValue) :
    (BufferM.writeTyped value).run (.heap ⟨order, List.replicate value.width 0, .zero⟩) =
      .ok () (.heap ⟨order, value.bytes order, .full value.width⟩) := by
  have size : (List.replicate value.width (0 : Byte)).length = value.width :=
    List.length_replicate
  have positive := value.width_pos
  have narrow : value.width ≤ 8 := by cases value <;> simp [TypedValue.width]
  have inside : HeapChannelBuffer.Inside ⟨order, List.replicate value.width 0, .zero⟩ := by
    refine ⟨⟨Int.le_refl _, Int.le_refl _, Int.natCast_nonneg _⟩, ?_⟩
    dsimp only
    rw [size]
    unfold maxInt
    omega
  rw [BufferM.writeTyped_fits inside]
  · unfold HeapChannelBuffer.wrote HeapChannelBuffer.withWriter HeapChannelBuffer.stored
    dsimp only
    have starts : Indices.zero.writerIdx = 0 := rfl
    rw [starts, if_pos ⟨Int.le_refl _, by rw [size]; omega⟩, size, Int.toNat_zero, Nat.sub_zero,
      ← TypedValue.bytes_length order value, List.take_length, overwrite_whole, Int.zero_add]
    · rfl
    · rw [List.length_replicate]
  · dsimp only
    rw [size]
    exact Int.le_of_eq (Int.zero_add _)

/-- A value of the field's width is written; a length is written as it is and fits. -/
theorem writeLength_written {length : Int} {written : ChannelBuffer} {width : Nat}
    (valid : this.Valid) (wide : this.lengthFieldLength = width)
    (ran : (this.writeLength length).run
      (.heap ⟨order, List.replicate width 0, .zero⟩) = .ok () written) :
    ∃ value : TypedValue, value.width = width ∧
      written = .heap ⟨order, value.bytes order, .full width⟩ ∧
      ∀ count : Nat, length = count → length ≤ maxInt →
        count < 256 ^ width ∧ value.unsignedArgument = count := by
  have limit : maxInt = 2147483647 := rfl
  have narrow : ∀ count : Nat, length = count → length ≤ maxInt →
      (BitVec.ofInt 32 length).toNat = count := by
    intro count same small
    rw [same, BitVec.ofInt_natCast, BitVec.toNat_ofNat]
    exact Nat.mod_eq_of_lt (by omega)
  have far : ∀ count : Nat, length = count → length ≤ maxInt →
      (BitVec.ofInt 64 length).toNat = count := by
    intro count same small
    rw [same, BitVec.ofInt_natCast, BitVec.toNat_ofNat]
    exact Nat.mod_eq_of_lt (by omega)
  have stores : ∀ value : TypedValue, value.width = width →
      (BufferM.writeTyped value).run (.heap ⟨order, List.replicate width 0, .zero⟩) =
        .ok () written → written = .heap ⟨order, value.bytes order, .full width⟩ := by
    intro value same wrote
    subst same
    rw [writeTyped_header] at wrote
    cases wrote
    rfl
  unfold writeLength at ran
  unfold Valid at valid
  rw [wide] at valid
  rcases valid with length_ | length_ | length_ | length_ | length_
  · obtain rfl : width = 1 := by omega
    have one : this.lengthFieldLength = 1 := wide
    simp only [one] at ran
    split at ran
    · cases ran
    · exact ⟨.byte _, rfl, stores _ rfl ran,
        fun count same small => ⟨by omega, narrow count same small⟩⟩
  · obtain rfl : width = 2 := by omega
    have two : this.lengthFieldLength = 2 := wide
    simp only [two] at ran
    split at ran
    · cases ran
    · exact ⟨.short _, rfl, stores _ rfl ran,
        fun count same small => ⟨by omega, narrow count same small⟩⟩
  · obtain rfl : width = 3 := by omega
    have three : this.lengthFieldLength = 3 := wide
    simp only [three] at ran
    split at ran
    · cases ran
    · exact ⟨.medium _, rfl, stores _ rfl ran,
        fun count same small => ⟨by omega, narrow count same small⟩⟩
  · obtain rfl : width = 4 := by omega
    have four : this.lengthFieldLength = 4 := wide
    simp only [four] at ran
    exact ⟨.int _, rfl, stores _ rfl ran,
      fun count same small => ⟨by omega, narrow count same small⟩⟩
  · obtain rfl : width = 8 := by omega
    have eight : this.lengthFieldLength = 8 := wide
    simp only [eight] at ran
    exact ⟨.long _, rfl, stores _ rfl ran,
      fun count same small => ⟨by omega, far count same small⟩⟩

end Header

section Wrapped

variable {order : ByteOrder} {header body : ChannelBuffer} {bytes : CharArray}

/-- The bytes of the parts that `wrappedBuffer` takes of a body. -/
def handedBytes (body : ChannelBuffer) : List Byte :=
  body.slicedBytes body.readerIdx.toNat body.readableContent.length

/-- What is wrapped of a body are new buffers that are as long as its readable bytes together. -/
theorem wrapParts_pieces {parts : List ChannelBuffer} (built : body.WellBuilt)
    (present : body.readableContent ≠ []) (cut : wrapParts body = .ok parts) :
    (∀ part ∈ parts, Fresh part.order part ∧
        (part.content.length ≠ 0 → part.order = body.order)) ∧
      (componentContent parts).length = body.readableContent.length ∧
      componentContent parts = handedBytes body := by
  obtain ⟨reader, count, starts, counted, held, inside⟩ := built.readable
  have size : body.readableContent.length = count := by
    rw [held, window_length inside]
  have positive : 0 < count := by
    rw [← size]
    exact List.length_pos_iff.mpr present
  have place : body.readerIdx.toNat = reader := by omega
  unfold handedBytes
  rw [size, place]
  have one : ∀ part, body.slice body.readerIdx body.readableBytes = .ok part →
      (∀ other ∈ [part], Fresh other.order other ∧
        (other.content.length ≠ 0 → other.order = body.order)) ∧
      (componentContent [part]).length = count ∧
      componentContent [part] = body.slicedBytes reader count := by
    intro part sliced
    rw [starts, counted] at sliced
    have piece := built.pieces reader count inside part sliced
    rw [componentContent, componentContent, List.append_nil]
    refine ⟨?_, piece.size, built.slicesKnown reader count inside part sliced⟩
    intro other among
    rw [List.mem_singleton.mp among]
    exact ⟨piece.fresh, fun _ => piece.ordered (by omega)⟩
  have single : ∀ sliced : Except Stop ChannelBuffer, (do
      let part ← sliced
      pure [part] : Except Stop (List ChannelBuffer)) = .ok parts →
      ∃ part, sliced = .ok part ∧ parts = [part] := by
    intro sliced made
    cases sliced with
    | error stop => cases made
    | ok part =>
        cases made
        exact ⟨part, rfl, rfl⟩
  cases built with
  | @composite order components last idx each ordered cached small within =>
      have same : (composite order components ((components.map capacity).scanl (· + ·) 0) last
          idx).order = order := by
        unfold ChannelBuffer.order
        rw [getters]
        rfl
      have answers := fun component among => (each component among).answers
      rw [map_capacity answers, sum_lengths, ← componentContent_flatten] at small
      rw [content] at inside
      unfold wrapParts at cut
      dsimp only at cut
      rw [starts, counted] at cut
      have bytes := decompose_entered each
        (fun component among => (each component among).slicesKnown) cached positive inside small cut
      rw [slicedBytes]
      obtain ⟨skipped, component, rest, inner, whole, -, -, from_⟩ :=
        decompose_from each cached positive inside small
      rw [from_] at cut
      have among : ∀ other ∈ component :: rest, other ∈ components := by
        intro other there
        rw [whole]
        exact List.mem_append_right _ there
      rw [same]
      obtain ⟨news, total⟩ := decomposeFrom_pieces
        (fun other there => each other (among other there))
        (fun other there => (each other (among other there)).pieces)
        (fun other there => ordered other (among other there)) cut
      exact ⟨news, total, bytes⟩
  | _ =>
      unfold wrapParts at cut
      obtain ⟨part, sliced, rfl⟩ := single _ cut
      exact one part sliced

variable {encoding : ChannelBuffer}

/-- Several components are accepted in one byte order only, and if an `int` holds their total. -/
theorem compositeBuffer_accepts {components : List ChannelBuffer}
    (several : 2 ≤ components.length)
    (made : compositeBuffer order components = .ok encoding) :
    (∀ component ∈ components, component.order = order) ∧
      (components.map capacity).sum ≤ maxInt := by
  cases components with
  | nil => exact absurd several (by decide)
  | cons first rest =>
      cases rest with
      | nil => exact absurd several (by simp)
      | cons second rest =>
          unfold compositeBuffer at made
          dsimp only at made
          split at made
          · cases made
          · exact ⟨makeComposite_ordered made, by omega⟩

theorem nonempty_of_content {parts : List ChannelBuffer}
    (some_ : 0 < (componentContent parts).length) : 0 < parts.length := by
  cases parts with
  | nil =>
      rw [componentContent] at some_
      exact absurd some_ (by decide)
  | cons first rest => exact Nat.succ_pos _

theorem wrapFrom_taken {buffs rest : List ChannelBuffer} {buffer : ChannelBuffer}
    (readable : buffer.readable = true) (same : ∀ other ∈ buffs, other.order = order)
    (ordered : buffer.order = order) :
    wrapFrom buffs (buffer :: rest) = (do
      let parts ← wrapParts buffer
      wrapFrom (buffs ++ parts) rest) := by
  rw [wrapFrom, readable, differs_of_same same ordered]
  rfl

/-- A header whose parts are known in front of a body. -/
theorem wrappedTwoBuffers_headed {front : List ChannelBuffer} (headed : header.readable = true)
    (same : header.order = order) (first : wrapParts header = .ok front)
    (fresh : ∀ part ∈ front, Fresh order part) (some_ : 0 < front.length)
    (readable : body.readable = true) (ordered : body.order = order) :
    wrappedTwoBuffers header body = (do
      let parts ← wrapParts body
      compositeBuffer order (front ++ parts)) := by
  have nothing : ∀ other ∈ ([] : List ChannelBuffer), other.order = order := by simp
  have front_order : ∀ other ∈ front, other.order = order :=
    fun other among => (fresh other among).ordered
  rw [wrappedTwoBuffers_eq]
  unfold wrappedBuffers
  rw [wrapFrom_taken headed nothing same, first, ok_bind, List.nil_append,
    wrapFrom_taken readable front_order ordered]
  cases wrapParts body with
  | error stop => rfl
  | ok parts =>
      rw [ok_bind, ok_bind]
      cases front with
      | nil => exact absurd some_ (Nat.lt_irrefl 0)
      | cons part rest =>
          have begins := front_order part List.mem_cons_self
          rw [← begins]
          rfl

/-- A header in front of a body: the bytes handed out of the body follow it. -/
theorem wrapped_behind (wraps : Wraps order header bytes)
    (some_ : bytes ≠ []) (built : body.WellBuilt) (ordered : body.order = order)
    (present : body.readableContent ≠ [])
    (made : wrappedTwoBuffers header body = .ok encoding) :
    (handedBytes body).length = body.readableContent.length ∧
      ((bytes.length + body.readableContent.length : Nat) : Int) ≤ maxInt ∧
      encoding.readableContent = bytes ++ handedBytes body := by
  have readable : body.readable = true := by
    cases shape : body.readable with
    | true => rfl
    | false => exact absurd (unreadable_content built shape) present
  cases wraps with
  | skipped _ => exact absurd rfl some_
  | @taken front headed same first fresh =>
      have front_some : 0 < front.length := nonempty_of_content (List.length_pos_iff.mpr some_)
      have composed := wrappedTwoBuffers_headed headed same first fresh front_some readable ordered
      rw [made] at composed
      cases cut : wrapParts body with
      | error stop =>
          rw [cut, error_bind] at composed
          cases composed
      | ok parts =>
          rw [cut, ok_bind] at composed
          obtain ⟨news, size, handed⟩ := wrapParts_pieces built present cut
          have parts_some : 0 < parts.length := by
            apply nonempty_of_content
            rw [size]
            exact List.length_pos_iff.mpr present
          obtain ⟨one_order, small⟩ := compositeBuffer_accepts
            (by rw [List.length_append]; omega) composed.symm
          have all_fresh : ∀ part ∈ front ++ parts, Fresh order part := by
            intro part among
            rcases List.mem_append.mp among with before | behind
            · exact fresh part before
            · have new := (news part behind).1
              rwa [one_order part among] at new
          rw [sum_capacity all_fresh, componentContent_append] at small
          obtain ⟨other, built_, whole, shown⟩ := compositeBuffer_fresh all_fresh
            (List.ne_nil_of_length_pos (by rw [List.length_append]; omega))
            (by rw [componentContent_append]; exact small)
          obtain rfl : other = encoding := Except.ok.inj (built_.symm.trans composed.symm)
          rw [List.length_append, size] at small
          rw [← handed]
          refine ⟨size, small, ?_⟩
          rw [whole.readableContent, shown, componentContent_append]

end Wrapped

section Encoding

variable {this : LengthFieldPrepender} {body encoding : ChannelBuffer} {width : Nat}

/-- The number the header announces. -/
def total (this : LengthFieldPrepender) (length : Nat) : Nat :=
  if this.lengthIncludesLengthFieldLength then length + this.lengthFieldLength.toNat else length

theorem announced_total (wide : this.lengthFieldLength = width) (built : body.WellBuilt)
    (small : ((width + body.readableContent.length : Nat) : Int) ≤ maxInt) :
    this.announced body = this.total body.readableContent.length := by
  unfold announced total
  rw [built.spans.readableBytes, wide, Int.toNat_natCast]
  split
  · rw [int32_of_nonneg (by omega) (by omega)]
    omega
  · rfl

/-- What an accepted encoding holds: the announced length and the bytes handed out of the body. -/
structure Encodes (this : LengthFieldPrepender) (order : ByteOrder)
    (body encoding : ChannelBuffer) : Prop where
  size : (handedBytes body).length = body.readableContent.length
  fits : this.total body.readableContent.length < 256 ^ this.lengthFieldLength.toNat
  content : encoding.readableContent =
    order.digits this.lengthFieldLength.toNat (this.total body.readableContent.length) ++
      handedBytes body

theorem encode_accepted (valid : this.Valid) (built : body.WellBuilt)
    (present : body.readableContent ≠ [])
    (accepted : this.encode (.buffer body) = .ok (.buffer encoding)) :
    this.Encodes body.order body encoding := by
  obtain ⟨width, wide⟩ : ∃ width : Nat, this.lengthFieldLength = width := by
    unfold Valid at valid
    exact ⟨this.lengthFieldLength.toNat, by omega⟩
  have positive : 0 < width := by
    unfold Valid at valid
    omega
  have narrow : width ≤ 8 := by
    unfold Valid at valid
    omega
  have made : allocate body.order (width : Int) =
      .ok ⟨body.order, List.replicate width 0, .zero⟩ := by
    unfold allocate
    rw [if_neg (by omega), if_neg (by omega), Int.toNat_natCast]
    rfl
  unfold encode at accepted
  dsimp only at accepted
  rw [wide, made, ok_bind] at accepted
  cases ran : (this.writeLength (this.announced body)).run
      (.heap ⟨body.order, List.replicate width 0, .zero⟩) with
  | error stop after =>
      rw [ran] at accepted
      cases accepted
  | ok _ written =>
      rw [ran] at accepted
      change (do
        let encoding ← wrappedTwoBuffers written body
        pure (ChannelMessage.buffer encoding) : Except Stop ChannelMessage) = _ at accepted
      obtain ⟨value, same, header, stores⟩ := writeLength_written valid wide ran
      have size : (value.bytes body.order).length = width := by
        rw [TypedValue.bytes_length, same]
      have copy : IsCopy body.order (value.bytes body.order) written := by
        rw [header, ← size]
        exact .heap
      have wraps := wraps_of_copy copy (by omega) (by unfold maxInt; omega)
      cases composed : wrappedTwoBuffers written body with
      | error stop =>
          rw [composed] at accepted
          cases accepted
      | ok wrapped =>
          rw [composed] at accepted
          cases accepted
          obtain ⟨count, small, shown⟩ := wrapped_behind wraps
            (List.ne_nil_of_length_pos (by omega)) built rfl present composed
          rw [size] at small
          have announced := announced_total wide built small
          have bounded : this.announced body ≤ maxInt := by
            rw [announced]
            unfold total
            rw [wide, Int.toNat_natCast]
            split <;> omega
          obtain ⟨fits, argument⟩ := stores _ announced bounded
          refine ⟨count, ?_, ?_⟩
          · rw [wide, Int.toNat_natCast]
            exact fits
          · rw [wide, Int.toNat_natCast, shown, TypedValue.bytes_digits, same, argument]

/-- The adjustment of the decoder that belongs to an encoder. -/
def adjustment (this : LengthFieldPrepender) : Int :=
  if this.lengthIncludesLengthFieldLength then -this.lengthFieldLength else 0

/-- The decoder takes an encoding as one frame and strips the header off it. -/
theorem encoding_decoded {maxFrameLength : Int}
    {memory : LengthFieldBasedFrameDecoder.Uninitialised} {made : LengthFieldBasedFrameDecoder}
    {order : ByteOrder} (valid : this.Valid)
    (constructed : LengthFieldBasedFrameDecoder.make maxFrameLength 0 this.lengthFieldLength
      this.adjustment this.lengthFieldLength memory = .ok made)
    (maxFrame : maxFrameLength ≤ maxInt) (encodes : this.Encodes order body encoding)
    (present : body.readableContent ≠ [])
    (longest : (encoding.readableContent.length : Int) ≤ maxFrameLength) :
    FrameDeliveries.Decodes LengthFieldBasedFrameDecoder.decode
        (LengthFieldBasedFrameDecoder.cleared made) order
        (fun bytes => bytes.drop this.lengthFieldLength.toNat) encoding.readableContent ∧
      encoding.readableContent.drop this.lengthFieldLength.toNat = handedBytes body := by
  obtain ⟨width, wide⟩ : ∃ width : Nat, this.lengthFieldLength = width := by
    unfold Valid at valid
    exact ⟨this.lengthFieldLength.toNat, by omega⟩
  have narrow : 1 ≤ width ∧ width ≤ 8 := by
    unfold Valid at valid
    omega
  have limit : maxInt = 2147483647 := rfl
  have lowest : minInt = -2147483648 := rfl
  have span : minInt ≤ this.adjustment ∧ this.adjustment ≤ maxInt := by
    unfold adjustment
    split <;> omega
  have legal :=
    LengthFieldBasedFrameDecoder.constructed_of_make constructed maxFrame span.1 span.2
  obtain ⟨fields, -⟩ := LengthFieldBasedFrameDecoder.make_ok constructed
  have size := encodes.size
  have fits := encodes.fits
  have content := encodes.content
  have length_pos := List.length_pos_iff.mpr present
  rw [wide, Int.toNat_natCast] at fits content ⊢
  have digits := ByteOrder.digits_length order width (this.total body.readableContent.length)
  have stripped : encoding.readableContent.drop width = handedBytes body := by
    rw [content]
    exact List.drop_left' digits
  have whole : encoding.readableContent.length = width + body.readableContent.length := by
    rw [content, List.length_append, digits, size]
  have field : LengthFieldBasedFrameDecoder.lengthField order
      (LengthFieldBasedFrameDecoder.cleared made) encoding.readableContent =
      this.total body.readableContent.length := by
    unfold LengthFieldBasedFrameDecoder.lengthField
    rw [fields]
    change order.number (window encoding.readableContent 0 this.lengthFieldLength.toNat) = _
    rw [wide, Int.toNat_natCast, window_prefix, content, List.take_left' digits,
      ByteOrder.number_digits, Nat.mod_eq_of_lt fits]
  have ends : (LengthFieldBasedFrameDecoder.cleared made).lengthFieldEndOffset = width := by
    rw [fields]
    change int32 (0 + this.lengthFieldLength) = width
    rw [wide, Int.zero_add]
    exact int32_of_nonneg (by omega) (by omega)
  have strips : (LengthFieldBasedFrameDecoder.cleared made).initialBytesToStrip = width := by
    rw [fields]
    exact wide
  have adjusts : (LengthFieldBasedFrameDecoder.cleared made).lengthAdjustment =
      this.adjustment := by
    rw [fields]
    rfl
  have most : (LengthFieldBasedFrameDecoder.cleared made).maxFrameLength = maxFrameLength := by
    rw [fields]
    rfl
  have announced : ((this.total body.readableContent.length : Nat) : Int) + this.adjustment =
      body.readableContent.length := by
    unfold total adjustment
    rw [wide, Int.toNat_natCast]
    split <;> omega
  have wellFormed : LengthFieldBasedFrameDecoder.WellFormed order
      (LengthFieldBasedFrameDecoder.cleared made) encoding.readableContent := by
    refine ⟨by rw [ends]; omega, by rw [most]; exact longest, by rw [strips]; omega, ?_⟩
    unfold LengthFieldBasedFrameDecoder.declaredLength
    rw [field, adjusts, ends]
    omega
  have decodes := LengthFieldBasedFrameDecoder.decodes_wellFormed legal wellFormed (by
      rw [field]
      unfold adjustment at announced
      split at announced <;> omega) (by rw [strips]; omega)
  rw [strips, Int.toNat_natCast] at decodes
  exact ⟨decodes, stripped⟩

end Encoding

/-- What `wrappedBuffer` takes of a body holds its readable bytes. -/
def Handed (body : ChannelBuffer) : Prop := handedBytes body = body.readableContent

theorem handed_of_undisturbed {body : ChannelBuffer} (built : body.WellBuilt)
    (undisturbed : body.Undisturbed) : Handed body := by
  obtain ⟨reader, count, starts, -, held, inside⟩ := built.readable
  have place : body.readerIdx.toNat = reader := by omega
  unfold Handed handedBytes
  rw [held, window_length inside, place]
  exact undisturbed.slicesExactly built reader count inside

/-- A decoder that is between two frames and not discarding; what it holds in the fields that
matter only while it discards is left open. -/
structure Between (config : ChannelConfig) (made : LengthFieldBasedFrameDecoder)
    (handler : Handler LengthFieldBasedFrameDecoder) : Prop where
  fields : handler.decoder.fields = LengthFieldBasedFrameDecoder.cleared made
  unread : handler.decoder.unread = []
  holding : ∃ received, handler.decoder.Holding config.bufferFactory received
  fired : handler.fired = []

/-- The run returns, and what it has fired are the bodies in order. -/
def Restores (handler : Handler LengthFieldBasedFrameDecoder) (config : ChannelConfig)
    (fuel : Nat) (received bodies : List ChannelBuffer) : Prop :=
  ∃ final, handler.receiveAll LengthFieldBasedFrameDecoder.decode config fuel received =
      .ok final ∧
    final.fired.map UpstreamEvent.frameBytes = bodies.map fun body => some body.readableContent

section RoundTrip

variable {this : LengthFieldPrepender} {maxFrameLength : Int} {made : LengthFieldBasedFrameDecoder}
  {memory : LengthFieldBasedFrameDecoder.Uninitialised} {config : ChannelConfig}

/-- The messages and what the encoder makes of them. -/
structure Encoded (this : LengthFieldPrepender) (order : ByteOrder) (maxFrameLength : Int)
    (bodies encodings : List ChannelBuffer) : Prop where
  built : ∀ body ∈ bodies, body.WellBuilt
  present : ∀ body ∈ bodies, body.readableContent ≠ []
  ordered : ∀ body ∈ bodies, body.order = order
  accepted : List.Forall₂ (fun body encoding =>
    this.encode (.buffer body) = .ok (.buffer encoding)) bodies encodings
  longest : ∀ encoding ∈ encodings, (encoding.readableContent.length : Int) ≤ maxFrameLength

/-- Every encoding is a frame, and behind its header stands what was handed out of the body. -/
theorem encodings_decoded {bodies encodings : List ChannelBuffer} (valid : this.Valid)
    (constructed : LengthFieldBasedFrameDecoder.make maxFrameLength 0 this.lengthFieldLength
      this.adjustment this.lengthFieldLength memory = .ok made)
    (maxFrame : maxFrameLength ≤ maxInt)
    (encoded : this.Encoded config.bufferFactory maxFrameLength bodies encodings) :
    (∀ frame ∈ encodings.map readableContent,
      FrameDeliveries.Decodes LengthFieldBasedFrameDecoder.decode
        (LengthFieldBasedFrameDecoder.cleared made) config.bufferFactory
        (fun bytes => bytes.drop this.lengthFieldLength.toNat) frame) ∧
    ((encodings.map readableContent).map (fun bytes => bytes.drop this.lengthFieldLength.toNat) =
      bodies.map readableContent ↔ ∀ body ∈ bodies, Handed body) := by
  obtain ⟨built, present, ordered, accepted, longest⟩ := encoded
  induction accepted with
  | nil => simp
  | @cons body encoding bodies encodings here later ih =>
      have encodes := encode_accepted valid (built body List.mem_cons_self)
        (present body List.mem_cons_self) here
      rw [ordered body List.mem_cons_self] at encodes
      obtain ⟨decodes, stripped⟩ := encoding_decoded valid constructed maxFrame encodes
        (present body List.mem_cons_self) (longest encoding List.mem_cons_self)
      obtain ⟨others, rest⟩ := ih
        (fun other among => built other (List.mem_cons_of_mem _ among))
        (fun other among => present other (List.mem_cons_of_mem _ among))
        (fun other among => ordered other (List.mem_cons_of_mem _ among))
        (fun other among => longest other (List.mem_cons_of_mem _ among))
      constructor
      · intro frame among
        rcases List.mem_cons.mp among with rfl | behind
        · exact decodes
        · exact others frame behind
      · rw [List.map_cons, List.map_cons, List.map_cons, List.cons.injEq, stripped, rest,
          List.forall_mem_cons]
        rfl

variable {bodies encodings received : List ChannelBuffer} {fuel : Nat}
  {handler : Handler LengthFieldBasedFrameDecoder}

/-- The chunks in which the encodings arrive one behind the other. -/
structure Arrives (config : ChannelConfig) (encodings received : List ChannelBuffer) : Prop where
  chunks : ∀ input ∈ received, LengthFieldBasedFrameDecoder.Received config input
  cut : (received.map readableContent).flatten = (encodings.map readableContent).flatten

theorem restores_rooms (valid : this.Valid)
    (constructed : LengthFieldBasedFrameDecoder.make maxFrameLength 0 this.lengthFieldLength
      this.adjustment this.lengthFieldLength memory = .ok made)
    (maxFrame : maxFrameLength ≤ maxInt) (shared : config.channelOwnBuffer = false)
    (between : Between config made handler)
    (encoded : this.Encoded config.bufferFactory maxFrameLength bodies encodings)
    (arrives : Arrives config encodings received)
    (enough : (encodings.map readableContent).flatten.length < fuel) :
    Restores handler config fuel received bodies ↔
      (encodings.map readableContent).map
          (fun bytes => bytes.drop this.lengthFieldLength.toNat) = bodies.map readableContent ∧
        FrameDeliveries.Rooms (encodings.map readableContent) 0 handler.decoder.filled.toNat
          (received.map fun input => input.readableContent.length) := by
  obtain ⟨total, holding⟩ := between.holding
  obtain ⟨decodes, -⟩ := encodings_decoded valid constructed maxFrame encoded
  have inputs : ∀ input ∈ received, input.Sound ∧ input.readableContent ≠ [] ∧
      input.order = config.bufferFactory :=
    fun input among => ⟨(arrives.chunks input among).sound, (arrives.chunks input among).present,
      (arrives.chunks input among).ordered⟩
  have delivered := FrameDeliveries.deliveries_iff (bodies.map readableContent)
    LengthFieldBasedFrameDecoder.decode_appends shared between.fields between.unread holding
    between.fired decodes inputs arrives.cut enough
  rw [List.map_map] at delivered
  exact delivered

/-- The bodies come out as they went in if and only if each of them is handed out as it reads,
and the cumulation has room for what each delivery makes it keep. -/
theorem prepended_decoded_iff {lengthFieldLength : Int} {includes : Bool}
    (prepender : make lengthFieldLength includes = .ok this)
    (constructed : LengthFieldBasedFrameDecoder.make maxFrameLength 0 this.lengthFieldLength
      this.adjustment this.lengthFieldLength memory = .ok made)
    (maxFrame : maxFrameLength ≤ maxInt) (shared : config.channelOwnBuffer = false)
    (between : Between config made handler)
    (encoded : this.Encoded config.bufferFactory maxFrameLength bodies encodings)
    (arrives : Arrives config encodings received)
    (enough : (encodings.map readableContent).flatten.length < fuel) :
    Restores handler config fuel received bodies ↔
      (∀ body ∈ bodies, Handed body) ∧
        FrameDeliveries.Rooms (encodings.map readableContent) 0 handler.decoder.filled.toNat
          (received.map fun input => input.readableContent.length) := by
  obtain ⟨-, valid⟩ := make_valid prepender
  obtain ⟨-, handed⟩ := encodings_decoded valid constructed maxFrame encoded
  rw [← handed]
  exact restores_rooms valid constructed maxFrame shared between encoded arrives enough

end RoundTrip

/-- The decoder for four bytes of length in front of each body, with the largest maximum. -/
def longest : LengthFieldBasedFrameDecoder :=
  LengthFieldBasedFrameDecoder.initialised 2147483647 0 4 0 4 ⟨0, 0⟩

theorem fresh_between (order : ByteOrder) (own unfold_ : Bool)
    (made : LengthFieldBasedFrameDecoder) : Between ⟨false, order⟩ made
      (FrameDecoder.fresh own unfold_ (LengthFieldBasedFrameDecoder.cleared made)) := by
  refine ⟨rfl, rfl, ⟨0, ?_, Int.le_refl _⟩, rfl⟩
  intro cumulation found
  cases found

theorem encode_runs {body written encoding : ChannelBuffer}
    {header : HeapChannelBuffer} (made : allocate body.order this.lengthFieldLength = .ok header)
    (ran : (this.writeLength (this.announced body)).run (.heap header) = .ok () written)
    (wrapped : wrappedTwoBuffers written body = .ok encoding) :
    this.encode (.buffer body) = .ok (.buffer encoding) := by
  unfold encode
  dsimp only
  rw [made, ok_bind, ran]
  change (do
    let encoding ← wrappedTwoBuffers written body
    pure (ChannelMessage.buffer encoding) : Except Stop ChannelMessage) = _
  rw [wrapped]
  rfl

/-- A body of zeros with a header of four bytes. -/
theorem padding_encoded {count : Nat} (positive : 0 < count)
    (small : ((4 + count : Nat) : Int) ≤ maxInt) :
    ∃ encoding, (⟨false, 4⟩ : LengthFieldPrepender).encode (.buffer (padding .big count)) =
        .ok (.buffer encoding) ∧
      encoding.readableContent.length = 4 + count := by
  have limit : maxInt = 2147483647 := rfl
  have fresh : Fresh .big (padding .big count) := padding_fresh (by omega)
  have size : (List.replicate count (0 : Byte)).length = count := List.length_replicate
  have copy : IsCopy .big (List.replicate count (0 : Byte)) (padding .big count) := by
    have whole : IsCopy .big (List.replicate count (0 : Byte)) (.heap
        ⟨.big, List.replicate count 0, .full (List.replicate count (0 : Byte)).length⟩) := .heap
    rw [size] at whole
    exact whole
  have announced : (⟨false, 4⟩ : LengthFieldPrepender).announced (padding .big count) = count := by
    unfold announced
    rw [if_neg Bool.false_ne_true, fresh.readableBytes, padding_content, size]
  -- the header as `writeInt` leaves it
  have header := writeTyped_header .big (.int (BitVec.ofInt 32 (count : Int)))
  have header_size : ((TypedValue.int (BitVec.ofInt 32 (count : Int))).bytes .big).length = 4 :=
    TypedValue.bytes_length _ _
  have written : IsCopy .big ((TypedValue.int (BitVec.ofInt 32 (count : Int))).bytes .big)
      (.heap ⟨.big, (TypedValue.int (BitVec.ofInt 32 (count : Int))).bytes .big, .full 4⟩) := by
    have four : ((4 : Nat) : Int) = 4 := rfl
    rw [← four, ← header_size]
    exact .heap
  obtain ⟨encoding, wrapped, shown, -⟩ := wrappedBuffers_run
    (List.Forall₂.cons (wraps_of_copy written (by omega) (by omega))
      (List.Forall₂.cons (wraps_of_copy copy (by omega) (by omega)) .nil))
    (by rw [List.flatten_cons, List.flatten_cons, List.flatten_nil, List.append_nil,
          List.length_append, header_size, size]; exact small)
  refine ⟨encoding, ?_, ?_⟩
  · rw [← wrappedTwoBuffers_eq] at wrapped
    have made : allocate (padding .big count).order 4 =
        .ok ⟨.big, List.replicate 4 0, .zero⟩ := by
      rw [fresh.ordered]
      rfl
    refine encode_runs made ?_ wrapped
    rw [announced]
    exact header
  · rw [shown, List.flatten_cons, List.flatten_cons, List.flatten_nil, List.append_nil,
      List.length_append, header_size, size]

/-- A body of 2^30 bytes or more is lost when its first byte arrives alone: the cumulation does
not take in the rest. -/
theorem padding_refused {count : Nat} (large : 1073741824 ≤ count)
    (small : ((4 + count : Nat) : Int) ≤ maxInt) :
    ∃ encoding, (⟨false, 4⟩ : LengthFieldPrepender).Encoded .big 2147483647
        [padding .big count] [encoding] ∧
      Arrives ⟨false, .big⟩ [encoding]
        [LengthFieldBasedFrameDecoder.chunk (encoding.readableContent.take 1),
          LengthFieldBasedFrameDecoder.chunk (encoding.readableContent.drop 1)] ∧
      ∀ fuel, 4 + count < fuel →
        ¬Restores (FrameDecoder.fresh false false (LengthFieldBasedFrameDecoder.cleared longest))
          ⟨false, .big⟩ fuel
          [LengthFieldBasedFrameDecoder.chunk (encoding.readableContent.take 1),
            LengthFieldBasedFrameDecoder.chunk (encoding.readableContent.drop 1)]
          [padding .big count] := by
  have limit : maxInt = 2147483647 := rfl
  obtain ⟨encoding, accepted, size⟩ := padding_encoded (show 0 < count by omega) small
  have fresh : Fresh .big (padding .big count) := padding_fresh (by omega)
  have first : (encoding.readableContent.take 1).length = 1 := by
    rw [List.length_take]
    omega
  have second : (encoding.readableContent.drop 1).length = 3 + count := by
    rw [List.length_drop]
    omega
  have shows : ∀ bytes : List Byte, (bytes.length : Int) ≤ maxInt →
      (LengthFieldBasedFrameDecoder.chunk bytes).readableContent = bytes := by
    intro bytes _
    simp [LengthFieldBasedFrameDecoder.chunk, readableContent, content, readerIdx, writerIdx, idx]
  have front := shows (encoding.readableContent.take 1) (by omega)
  have back := shows (encoding.readableContent.drop 1) (by omega)
  have encoded : (⟨false, 4⟩ : LengthFieldPrepender).Encoded .big 2147483647
      [padding .big count] [encoding] := by
    refine ⟨?_, ?_, ?_, .cons accepted .nil, ?_⟩
    · intro body among
      rw [List.mem_singleton.mp among]
      exact fresh.built
    · intro body among
      rw [List.mem_singleton.mp among, fresh.readableContent, padding_content]
      apply List.ne_nil_of_length_pos
      rw [List.length_replicate]
      omega
    · intro body among
      rw [List.mem_singleton.mp among]
      exact fresh.ordered
    · intro other among
      rw [List.mem_singleton.mp among]
      omega
  have arrives : Arrives ⟨false, .big⟩ [encoding]
      [LengthFieldBasedFrameDecoder.chunk (encoding.readableContent.take 1),
        LengthFieldBasedFrameDecoder.chunk (encoding.readableContent.drop 1)] := by
    constructor
    · intro input among
      rcases List.mem_cons.mp among with rfl | behind
      · exact LengthFieldBasedFrameDecoder.chunk_received
          (List.ne_nil_of_length_pos (by omega)) (by omega)
      · rw [List.mem_singleton.mp behind]
        exact LengthFieldBasedFrameDecoder.chunk_received
          (List.ne_nil_of_length_pos (by omega)) (by omega)
    · rw [List.map_cons, List.map_cons, List.map_cons, List.map_nil, front, back,
        List.flatten_cons, List.flatten_cons, List.flatten_cons, List.flatten_nil, List.append_nil,
        List.append_nil, List.take_append_drop]
  refine ⟨encoding, encoded, arrives, ?_⟩
  intro fuel enough restores
  have made : LengthFieldBasedFrameDecoder.make 2147483647 0 4 0 4 ⟨0, 0⟩ = .ok longest := rfl
  have valid : (⟨false, 4⟩ : LengthFieldPrepender).Valid :=
    Or.inr (Or.inr (Or.inr (Or.inl rfl)))
  obtain ⟨-, one, two, -⟩ := (restores_rooms valid made (Int.le_refl _) rfl
    (fresh_between .big false false longest) encoded arrives (by
      rw [List.map_cons, List.map_nil, List.flatten_cons, List.flatten_nil, List.append_nil]
      omega)).mp restores
  rw [List.map_cons, List.map_nil] at two
  dsimp only at two
  rw [front, first, Nat.zero_add, FrameDeliveries.settle_part [] (by omega), back, second] at two
  unfold FrameDeliveries.Room at two
  rw [if_neg Nat.one_ne_zero] at two
  omega

/-- A body of 2^30 bytes, of which the first byte of the header arrives alone. -/
theorem long_body_lost :
    ∃ this made encoding first second, make 4 false = .ok this ∧
      LengthFieldBasedFrameDecoder.make 2147483647 0 4 0 4 ⟨0, 0⟩ = .ok made ∧
      Between ⟨false, .big⟩ made
        (FrameDecoder.fresh false false (LengthFieldBasedFrameDecoder.cleared made)) ∧
      this.Encoded .big 2147483647 [padding .big 1073741824] [encoding] ∧
      Arrives ⟨false, .big⟩ [encoding] [first, second] ∧
      ¬Restores (FrameDecoder.fresh false false (LengthFieldBasedFrameDecoder.cleared made))
        ⟨false, .big⟩ 1073741829 [first, second] [padding .big 1073741824] := by
  have small : ((4 + 1073741824 : Nat) : Int) ≤ maxInt := by decide
  have enough : 4 + 1073741824 < 1073741829 := by decide
  obtain ⟨encoding, encoded, arrives, lost⟩ := padding_refused (Nat.le_refl _) small
  exact ⟨⟨false, 4⟩, longest, encoding, _, _, rfl, rfl, fresh_between .big false false longest,
    encoded, arrives, lost _ enough⟩

/-- Two bodies behind one byte of length, which counts itself, in two chunks. -/
theorem prepended_decoded_two :
    ∃ encodings, (⟨true, 1⟩ : LengthFieldPrepender).Encoded .big 3
        [LengthFieldBasedFrameDecoder.chunk [7, 9], LengthFieldBasedFrameDecoder.chunk [5]]
        encodings ∧
      Restores (FrameDecoder.fresh false false (LengthFieldBasedFrameDecoder.cleared
          (LengthFieldBasedFrameDecoder.initialised 3 0 1 (-1) 1 ⟨0, 0⟩))) ⟨false, .big⟩ 6
        [LengthFieldBasedFrameDecoder.chunk [3, 7], LengthFieldBasedFrameDecoder.chunk [9, 2, 5]]
        [LengthFieldBasedFrameDecoder.chunk [7, 9], LengthFieldBasedFrameDecoder.chunk [5]] := by
  obtain ⟨first, first_ran, first_shown⟩ : ∃ encoding,
      (⟨true, 1⟩ : LengthFieldPrepender).encode
        (.buffer (LengthFieldBasedFrameDecoder.chunk [7, 9])) = .ok (.buffer encoding) ∧
      encoding.readableContent = [3, 7, 9] := ⟨_, rfl, rfl⟩
  obtain ⟨second, second_ran, second_shown⟩ : ∃ encoding,
      (⟨true, 1⟩ : LengthFieldPrepender).encode
        (.buffer (LengthFieldBasedFrameDecoder.chunk [5])) = .ok (.buffer encoding) ∧
      encoding.readableContent = [2, 5] := ⟨_, rfl, rfl⟩
  have built : ∀ body ∈ [LengthFieldBasedFrameDecoder.chunk [7, 9],
      LengthFieldBasedFrameDecoder.chunk [5]], body.WellBuilt ∧ body.Undisturbed ∧
        body.readableContent ≠ [] ∧ body.order = .big := by
    intro body among
    simp only [List.mem_cons, List.not_mem_nil, or_false] at among
    rcases among with rfl | rfl
    · exact ⟨.heap (by decide) ⟨by decide, by decide, by decide⟩, .heap, by decide, rfl⟩
    · exact ⟨.heap (by decide) ⟨by decide, by decide, by decide⟩, .heap, by decide, rfl⟩
  have encoded : (⟨true, 1⟩ : LengthFieldPrepender).Encoded .big 3
      [LengthFieldBasedFrameDecoder.chunk [7, 9], LengthFieldBasedFrameDecoder.chunk [5]]
      [first, second] := by
    refine ⟨fun body among => (built body among).1, fun body among => (built body among).2.2.1,
      fun body among => (built body among).2.2.2, .cons first_ran (.cons second_ran .nil), ?_⟩
    intro encoding among
    simp only [List.mem_cons, List.not_mem_nil, or_false] at among
    rcases among with rfl | rfl
    · rw [first_shown]
      decide
    · rw [second_shown]
      decide
  have shown : [first, second].map readableContent = [[3, 7, 9], [2, 5]] := by
    rw [List.map_cons, List.map_cons, List.map_nil, first_shown, second_shown]
  have arrives : Arrives ⟨false, .big⟩ [first, second]
      [LengthFieldBasedFrameDecoder.chunk [3, 7],
        LengthFieldBasedFrameDecoder.chunk [9, 2, 5]] := by
    constructor
    · intro input among
      simp only [List.mem_cons, List.not_mem_nil, or_false] at among
      rcases among with rfl | rfl <;>
        exact LengthFieldBasedFrameDecoder.chunk_received (by decide) (by decide)
    · rw [shown]
      rfl
  refine ⟨[first, second], encoded, ?_⟩
  have prepender : make 1 true = .ok ⟨true, 1⟩ := rfl
  have constructed : LengthFieldBasedFrameDecoder.make 3 0
      (⟨true, 1⟩ : LengthFieldPrepender).lengthFieldLength
      (⟨true, 1⟩ : LengthFieldPrepender).adjustment
      (⟨true, 1⟩ : LengthFieldPrepender).lengthFieldLength ⟨0, 0⟩ =
      .ok (LengthFieldBasedFrameDecoder.initialised 3 0 1 (-1) 1 ⟨0, 0⟩) := rfl
  apply (prepended_decoded_iff prepender constructed (by decide) rfl
    (fresh_between .big false false _) encoded arrives (by rw [shown]; decide)).mpr
  rw [shown]
  refine ⟨fun body among => ?_, by decide⟩
  exact handed_of_undisturbed (built body among).1 (built body among).2.1

end LengthFieldPrepender

end Cetty
