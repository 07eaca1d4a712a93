import Cetty.ReplayReception
import Mathlib.Data.List.Infix

/-!
# WebSocketFrameDecoder

A frame is a type and the data behind it, delimited or behind its length. Both constructors set the
flag that says that a closing handshake has been received, so a decoder discards from the start. A
length is written as groups of seven bits; the encoder leaves one out, and the decoder adds them up in
32 bits before it looks at the limit.
-/

namespace Cetty

open MachineInt ByteWindow

structure DefaultWebSocketFrame where
  type : Int
  binaryData : ChannelBuffer

namespace DefaultWebSocketFrame

def isDelimiter (byte : Byte) : Bool := byte = 255

/-- `(type & 0x80) == 0`. -/
def isTextType (type : Int) : Bool := (BitVec.ofInt 32 type).getLsbD 7 = false

def isText (frame : DefaultWebSocketFrame) : Bool := isTextType frame.type

def setData (type : Int) (binaryData : ChannelBuffer) : Except Stop DefaultWebSocketFrame := do
  if isTextType type then
    let delimPos ←
      binaryData.getters.indexOf binaryData.readerIdx binaryData.writerIdx isDelimiter
    if 0 ≤ delimPos then
      throw (invalidArgumentException "a text frame should not contain 0xFF.")
  pure ⟨type % 256, binaryData⟩

/-- The type and the payload. -/
def shown (frame : DefaultWebSocketFrame) : Int × List Byte :=
  (frame.type, frame.binaryData.readableContent)

/-- The closing handshake. -/
def isClosing (frame : DefaultWebSocketFrame) : Bool :=
  frame.type = 255 ∧ frame.binaryData.readableContent = []

end DefaultWebSocketFrame

namespace WebSocketFrameEncoder

/-- `(dataLen >> shift) & 0x7F`. -/
def group (dataLen : Int) (shift : Nat) : Int := dataLen / 2 ^ shift % 128

/-- The bytes of the length. The first group is taken seven bits too high. -/
def encodeLength (dataLen : Int) : List Byte :=
  let b1 := group dataLen 28
  let b2 := group dataLen 14
  let b3 := group dataLen 7
  let b4 := group dataLen 0
  let more := fun bits : Int => BitVec.ofInt 8 (bits + 128)
  if b1 = 0 then
    if b2 = 0 then
      if b3 = 0 then [BitVec.ofInt 8 b4] else [more b3, BitVec.ofInt 8 b4]
    else [more b2, more b3, BitVec.ofInt 8 b4]
  else [more b1, more b2, more b3, BitVec.ofInt 8 b4]

/-- What is written into a buffer that is made for it. -/
def encode (frame : DefaultWebSocketFrame) : Except Stop CharArray := do
  let data := frame.binaryData
  let dataLen := data.readableBytes
  if frame.isText then
    let _ ← ChannelBuffer.allocate data.order (int32 (dataLen + 2))
    pure (BitVec.ofInt 8 frame.type :: (data.readableContent ++ [255]))
  else
    let _ ← ChannelBuffer.allocate data.order (int32 (dataLen + 5))
    pure (BitVec.ofInt 8 frame.type :: (encodeLength dataLen ++ data.readableContent))

end WebSocketFrameEncoder

/-- `published` holds the frames that were made; a message names its frame by the place there. -/
structure WebSocketFrameDecoder where
  receivedClosingHandshake : Bool
  maxFrameSize : Int
  published : List DefaultWebSocketFrame

namespace WebSocketFrameDecoder

abbrev Decode (Value : Type) := ReplayDecodeM WebSocketFrameDecoder Value

def DEFAULT_MAX_FRAME_SIZE : Int := 16384

def tooLongFrame : Stop := .thrown ⟨.tooLongFrame, ""⟩

def needMoreBytes : Decode Bool := do return (← get).replayable.needMore

def actualReadableBytes : Decode Int := do return (← get).replayable.buffer.readableBytes

def readByte : Decode Byte := do
  return BitVec.ofInt 8 (← onReplayable (ReplayingDecoderBuffer.read .readByte))

def publish (type : Int) (binaryData : ChannelBuffer) : Decode ChannelMessage := do
  let frame ← call (DefaultWebSocketFrame.setData type binaryData)
  let place := (← get).fields.published.length
  modify fun context =>
    { context with
      fields := { context.fields with published := context.fields.published ++ [frame] } }
  pure (.object place)

/-- The loop over the bytes of the length, of which there are at most eight. `none` says that more
bytes are needed. -/
def readFrameSize : Nat → Int → Int → Decode (Option Int)
  | 0, _, _ => throw .outOfFuel
  | rounds + 1, frameSize, lengthFieldSize => do
      let b ← readByte
      if ← needMoreBytes then pure none
      else
        let frameSize := int32 (frameSize * 128) + (b.toNat % 128 : Nat)
        if (← get).fields.maxFrameSize < frameSize then throw tooLongFrame
        else if 8 < lengthFieldSize + 1 then throw tooLongFrame
        else if b.msb then readFrameSize rounds frameSize (lengthFieldSize + 1)
        else pure (some frameSize)

/-- The type comes as a signed byte, so it is never `0xFF`. -/
def decodeBinaryFrame (type : Int) : Decode ChannelMessage := do
  match ← readFrameSize 9 0 0 with
  | none => pure .empty
  | some frameSize =>
      if type = 255 ∧ frameSize = 0 then
        modify fun context =>
          { context with fields := { context.fields with receivedClosingHandshake := true } }
      publish type (← onReplayable (ReplayingDecoderBuffer.readBytes frameSize))

def decodeTextFrame (type : Int) : Decode ChannelMessage := do
  let ridx := (← get).replayable.buffer.readerIdx
  let rbytes ← actualReadableBytes
  let maxFrameSize := (← get).fields.maxFrameSize
  let delimPos ← onReplayable (ReplayingDecoderBuffer.indexOf ridx (int32 (ridx + rbytes))
    DefaultWebSocketFrame.isDelimiter)
  if delimPos = -1 then
    if maxFrameSize < rbytes then throw tooLongFrame else pure .empty
  else
    let frameSize := int32 (delimPos - ridx)
    if maxFrameSize < frameSize then throw tooLongFrame
    else
      let binaryData ← onReplayable (ReplayingDecoderBuffer.readBytes frameSize)
      onReplayable (ReplayingDecoderBuffer.skipBytes 1)
      publish type binaryData

def decode (_state : Int) : Decode ChannelMessage := do
  if (← get).fields.receivedClosingHandshake then
    onReplayable (ReplayingDecoderBuffer.skipBytes (← actualReadableBytes))
    pure .empty
  else
    let type ← readByte
    if ← needMoreBytes then pure .empty
    else if type.msb then decodeBinaryFrame type.toInt
    else decodeTextFrame type.toInt

def subclass : ReplayingSubclass WebSocketFrameDecoder :=
  ⟨decode, decode, "WebSocketFrameDecoder"⟩

/-- The decoder as it is constructed. -/
def fresh (maxFrameSize : Int) : ReplayReception WebSocketFrameDecoder :=
  ⟨⟨false, false, -1, -1, none, ⟨true, maxFrameSize, []⟩⟩, []⟩

/-- The frame that a fired event carries. -/
def carried (published : List DefaultWebSocketFrame) : UpstreamEvent → Option (Int × List Byte)
  | .messageReceived (.object place) => published[place]?.map DefaultWebSocketFrame.shown
  | _ => none

/-- The frames up to the first closing handshake, which is the last that counts. -/
def upToClosing : List DefaultWebSocketFrame → List DefaultWebSocketFrame
  | [] => []
  | frame :: frames => if frame.isClosing then [frame] else frame :: upToClosing frames

/-- The received buffers are a cut of the encoded frames. -/
structure Cut (frames : List DefaultWebSocketFrame) (received : List ChannelBuffer) : Prop where
  sound : ∀ input ∈ received, input.Sound
  stream : (frames.mapM WebSocketFrameEncoder.encode).map List.flatten =
    .ok (received.flatMap ChannelBuffer.readableContent)

/-- The decoder fires the frames and nothing else. -/
def FiresFrames (config : ChannelConfig) (fuel : Nat) (maxFrameSize : Int)
    (frames : List DefaultWebSocketFrame) (received : List ChannelBuffer) : Prop :=
  ∃ final, ReplayReception.receiveAll subclass config fuel (fresh maxFrameSize) received =
      .ok final ∧
    final.fired.map (carried final.decoder.fields.published) =
      (upToClosing frames).map fun frame => some frame.shown

/-- The flag is set and no frame has been fired. -/
def Discarding (fields : WebSocketFrameDecoder) (fired : List UpstreamEvent) : Prop :=
  fields.receivedClosingHandshake = true ∧
    ∀ event ∈ fired, ∃ cause, event = .exceptionCaught cause

theorem decode_discards {state : Int} {context : ReplayContext WebSocketFrameDecoder}
    (closed : context.fields.receivedClosingHandshake = true) :
    (decode state).run context =
      (do
        onReplayable (ReplayingDecoderBuffer.skipBytes context.replayable.buffer.readableBytes)
        pure .empty : Decode ChannelMessage).run context := by
  unfold decode
  rw [run_bind_get]
  rw [if_pos closed]
  rfl

theorem decode_empty {state : Int} {context after : ReplayContext WebSocketFrameDecoder}
    {frame : ChannelMessage} (closed : context.fields.receivedClosingHandshake = true)
    (decoded : (decode state).run context = .ok frame after) : frame = .empty := by
  rw [decode_discards closed] at decoded
  obtain ⟨_, _, _, last⟩ := ok_of_run_bind decoded
  cases last
  rfl

theorem decode_keeps (state : Int) :
    Keeps (fun context => Discarding context.fields context.fired) (decode state) := by
  intro context discarding
  rw [decode_discards discarding.1]
  have skips : Keeps (fun context : ReplayContext WebSocketFrameDecoder =>
      Discarding context.fields context.fired) (do
        onReplayable (ReplayingDecoderBuffer.skipBytes context.replayable.buffer.readableBytes)
        pure .empty : Decode ChannelMessage) := by
    apply Keeps.bind
    · exact Keeps.focus _ fun _ _ holds => holds
    · intro _
      exact Keeps.pure _
  exact skips context discarding

theorem decodeRound_discards (unfold_ : Bool) :
    Keeps (fun context => Discarding context.fields context.fired)
      (ReplayingDecoder.decodeRound subclass unfold_) := by
  intro context discarding
  cases readable : context.replayable.buffer.readable with
  | false =>
      rw [ReplayingDecoder.decodeRound_unreadable readable]
      exact discarding
  | true =>
      have kept := decode_keeps context.state (ReplayingDecoder.checked context) discarding
      cases decoded : (decode context.state).run (ReplayingDecoder.checked context) with
      | error stop after =>
          have stops : (ReplayingDecoder.decodeRound subclass unfold_).run context =
              .error stop after := ReplayingDecoder.decodeRound_stops readable decoded
          rw [decoded] at kept
          rw [stops]
          exact kept
      | ok frame after =>
          have nothing : frame = .empty := by
            refine decode_empty ?_ decoded
            exact discarding.1
          subst nothing
          have concludes : (ReplayingDecoder.decodeRound subclass unfold_).run context =
              (ReplayingDecoder.conclude subclass unfold_ context .empty after).run after :=
            ReplayingDecoder.decodeRound_readable readable decoded
          rw [decoded] at kept
          rw [concludes]
          have concluded := @ReplayReception.conclude_keeps WebSocketFrameDecoder subclass
            (fun fields _ fired => Discarding fields fired) unfold_ context .empty after
            fun full => absurd rfl full
          exact concluded after kept

variable {config : ChannelConfig} {fuel : Nat}

theorem receiveAll_discards {maxFrameSize : Int}
    {received : List ChannelBuffer} {final : ReplayReception WebSocketFrameDecoder}
    (ran : ReplayReception.receiveAll subclass config fuel (fresh maxFrameSize) received =
      .ok final) :
    Discarding final.decoder.fields final.fired := by
  have caught : ∀ (fields : WebSocketFrameDecoder) (state : Int) (fired : List UpstreamEvent)
      (cause : Exception), Discarding fields fired →
      Discarding fields (fired ++ [.exceptionCaught cause]) := by
    rintro fields _ fired cause ⟨closed, exceptions⟩
    refine ⟨closed, fun event among => ?_⟩
    rcases List.mem_append.mp among with before | last
    · exact exceptions event before
    · exact ⟨cause, List.mem_singleton.mp last⟩
  have start : Discarding (fresh maxFrameSize).decoder.fields (fresh maxFrameSize).fired := by
    refine ⟨rfl, ?_⟩
    intro event among
    cases among
  have kept := @ReplayReception.receiveAll_keeps WebSocketFrameDecoder subclass config fuel
    (fun fields _ fired => Discarding fields fired) decodeRound_discards caught received
    (fresh maxFrameSize) final
  exact kept start ran

theorem unreadable_ignored {handler : ReplayReception WebSocketFrameDecoder}
    {received : List ChannelBuffer}
    (sound : ∀ input ∈ received, input.Sound)
    (nothing : ∀ input ∈ received, input.readableContent = []) :
    ReplayReception.receiveAll subclass config fuel handler received = .ok handler := by
  induction received with
  | nil => rfl
  | cons input rest induction =>
      have unreadable : input.readable = false :=
        (sound input List.mem_cons_self).readable_eq_false_iff.mpr
          (nothing input List.mem_cons_self)
      have step : ReplayReception.messageReceived subclass config fuel handler input =
          .ok handler := by
        apply ReplayReception.messageReceived_ok
        unfold ReplayingDecoder.receiveBuffer
        rw [unreadable]
        rfl
      rw [ReplayReception.receiveAll_cons step]
      exact induction (fun later among => sound later (List.mem_cons_of_mem _ among))
        fun later among => nothing later (List.mem_cons_of_mem _ among)

/-- No frame is ever fired. -/
theorem fires_frames_iff (config : ChannelConfig) (fuel : Nat) (maxFrameSize : Int)
    (frames : List DefaultWebSocketFrame) (received : List ChannelBuffer)
    (cut : Cut frames received) :
    FiresFrames config fuel maxFrameSize frames received ↔ frames = [] := by
  constructor
  · rintro ⟨final, ran, equal⟩
    have discarding := receiveAll_discards ran
    cases frames with
    | nil => rfl
    | cons frame frames =>
        exfalso
        obtain ⟨others, starts⟩ : ∃ others, (upToClosing (frame :: frames)).map
            (fun frame => some frame.shown) = some frame.shown :: others := by
          unfold upToClosing
          split
          · exact ⟨_, rfl⟩
          · exact ⟨_, rfl⟩
        have among : some frame.shown ∈ final.fired.map
            (carried final.decoder.fields.published) := by
          rw [equal, starts]
          exact List.mem_cons_self
        obtain ⟨event, fired, carries⟩ := List.mem_map.mp among
        obtain ⟨cause, caught⟩ := discarding.2 event fired
        rw [caught] at carries
        cases carries
  · intro none
    subst none
    have empty : received.flatMap ChannelBuffer.readableContent = [] := by
      have stream := cut.stream
      rw [List.mapM_nil] at stream
      exact (Except.ok.inj stream).symm
    have nothing : ∀ input ∈ received, input.readableContent = [] :=
      List.flatMap_eq_nil_iff.mp empty
    exact ⟨_, unreadable_ignored cut.sound nothing, rfl⟩

/-- A text frame with the payload "Hi". -/
def greeting : DefaultWebSocketFrame := ⟨0, .heap ⟨.big, [72, 105], ⟨0, 2, 0, 0⟩⟩⟩

theorem greeting_cut : Cut [greeting] [.heap ⟨.big, [0, 72, 105, 255], ⟨0, 4, 0, 0⟩⟩] := by
  refine ⟨?_, by decide⟩
  intro input member
  rw [List.mem_singleton] at member
  subst member
  exact ChannelBuffer.heap_sound (by decide) ⟨by decide, by decide, by decide⟩

theorem fires_frames_greeting :
    FiresFrames ⟨false, .big⟩ 5 DEFAULT_MAX_FRAME_SIZE [greeting]
      [.heap ⟨.big, [0, 72, 105, 255], ⟨0, 4, 0, 0⟩⟩] ↔ [greeting] = [] :=
  fires_frames_iff ⟨false, .big⟩ 5 DEFAULT_MAX_FRAME_SIZE [greeting] _ greeting_cut

/-- One text frame that arrives whole: the delivery goes through and nothing is fired. -/
theorem greeting_discarded :
    Cut [greeting] [.heap ⟨.big, [0, 72, 105, 255], ⟨0, 4, 0, 0⟩⟩] ∧
    ((ReplayReception.receiveAll subclass ⟨false, .big⟩ 5 (fresh DEFAULT_MAX_FRAME_SIZE)
      [.heap ⟨.big, [0, 72, 105, 255], ⟨0, 4, 0, 0⟩⟩]).map fun final =>
        final.fired.map (carried final.decoder.fields.published)) = .ok [] ∧
    ¬FiresFrames ⟨false, .big⟩ 5 DEFAULT_MAX_FRAME_SIZE [greeting]
      [.heap ⟨.big, [0, 72, 105, 255], ⟨0, 4, 0, 0⟩⟩] := by
  have lost : ((ReplayReception.receiveAll subclass ⟨false, .big⟩ 5 (fresh DEFAULT_MAX_FRAME_SIZE)
      [.heap ⟨.big, [0, 72, 105, 255], ⟨0, 4, 0, 0⟩⟩]).map fun final =>
        final.fired.map (carried final.decoder.fields.published)) = .ok [] := by decide +kernel
  refine ⟨greeting_cut, lost, ?_⟩
  rintro ⟨final, ran, equal⟩
  rw [ran] at lost
  have same : final.fired.map (carried final.decoder.fields.published) = [] := Except.ok.inj lost
  rw [equal] at same
  cases same

end WebSocketFrameDecoder

/-- The number that the groups of seven bits stand for. -/
def groupValue (bytes : List Byte) : Nat := bytes.foldl (fun value b => value * 128 + b.toNat % 128) 0

theorem groupValue_concat (front : List Byte) (b : Byte) :
    groupValue (front ++ [b]) = groupValue front * 128 + b.toNat % 128 := by
  unfold groupValue
  rw [List.foldl_append]
  rfl

theorem groupValue_append_le (front more : List Byte) :
    groupValue front ≤ groupValue (front ++ more) := by
  induction more using List.reverseRecOn with
  | nil => rw [List.append_nil]
  | append_singleton more b induction =>
      rw [← List.append_assoc, groupValue_concat]
      omega

/-- Bytes that go on, and one that does not. -/
def LengthField (field : List Byte) : Prop :=
  ∃ front last, field = front ++ [last] ∧ (∀ b ∈ front, b.msb = true) ∧ last.msb = false

theorem LengthField.ne_nil {field : List Byte} (ended : LengthField field) : field ≠ [] := by
  obtain ⟨front, last, parts, -, -⟩ := ended
  rw [parts]
  exact List.append_ne_nil_of_right_ne_nil _ (List.cons_ne_nil _ _)

theorem LengthField.last {front : List Byte} {b : Byte} (field : LengthField (front ++ [b])) :
    b.msb = false := by
  obtain ⟨before, last, parts, -, ends⟩ := field
  have same := (List.append_inj' parts rfl).2
  rw [(List.cons.inj same).1]
  exact ends

theorem LengthField.inner {front more : List Byte} {b c : Byte}
    (field : LengthField (front ++ b :: c :: more)) : b.msb = true := by
  obtain ⟨before, last, parts, goes, -⟩ := field
  apply goes
  have shorter := congrArg List.dropLast parts
  rw [List.dropLast_concat, List.dropLast_append_of_ne_nil (List.cons_ne_nil _ _),
    List.dropLast_cons_cons] at shorter
  rw [← shorter]
  exact List.mem_append_right _ List.mem_cons_self

/-- No length field is the beginning of another. -/
theorem LengthField.unique {first second rest rest' : List Byte} (one : LengthField first)
    (other : LengthField second) (same : first ++ rest = second ++ rest') : first = second := by
  obtain ⟨front, last, parts, goes, ends⟩ := one
  obtain ⟨front', last', parts', goes', ends'⟩ := other
  subst parts
  subst parts'
  rw [List.append_assoc, List.append_assoc] at same
  rcases List.append_eq_append_iff.mp same with ⟨middle, longer, split⟩ | ⟨middle, longer, split⟩
  · cases middle with
    | nil =>
        rw [List.append_nil] at longer
        rw [longer, (List.cons.inj split).1]
    | cons b middle =>
        have among : last ∈ front' := by
          rw [longer, (List.cons.inj split).1]
          exact List.mem_append_right _ List.mem_cons_self
        rw [goes' last among] at ends
        cases ends
  · cases middle with
    | nil =>
        rw [List.append_nil] at longer
        rw [longer, (List.cons.inj split).1]
    | cons b middle =>
        have among : last' ∈ front := by
          rw [longer, (List.cons.inj split).1]
          exact List.mem_append_right _ List.mem_cons_self
        rw [goes last' among] at ends'
        cases ends'

/-- A shift by seven bits and the next group, in a register. -/
theorem int32_group (value : Int) {bits : Int} (least : 0 ≤ bits) (most : bits < 128) :
    int32 (int32 value * 128) + bits = int32 (value * 128 + bits) := by
  obtain ⟨turns, same⟩ := int32_turns value
  have shifted : int32 (value * 128) = int32 (int32 value * 128) := by
    unfold int32
    exact Int.bmod_mul_bmod.symm
  rw [← shifted]
  unfold int32
  rw [Int.bmod_def, Int.bmod_def]
  split <;> split <;> omega

/-- The first cell of a window. -/
theorem window_first {cells rest : List Byte} {start count : Nat} {b : Byte}
    (shown : window cells start count = b :: rest) : cells.getD start 0 = b := by
  have head := congrArg List.head? shown
  unfold window at head
  rw [List.head?_take, List.head?_cons] at head
  by_cases none : count = 0
  · rw [if_pos none] at head
    cases head
  · rw [if_neg none, List.head?_drop] at head
    rw [List.getD_eq_getElem?_getD, head]
    rfl

namespace WebSocketFrameDecoder

/-- A call that reads the bytes. -/
structure Reading (maxFrameSize : Int) (bytes : List Byte)
    (context : ReplayContext WebSocketFrameDecoder) : Prop where
  sound : context.replayable.buffer.Sound
  limit : context.fields.maxFrameSize = maxFrameSize
  content : context.replayable.buffer.readableContent = bytes

/-- The context behind a byte that has been read. -/
def behindByte (context : ReplayContext WebSocketFrameDecoder) :
    ReplayContext WebSocketFrameDecoder :=
  { context with
    replayable := { context.replayable with
      needMore := false, buffer := context.replayable.buffer.advance 1 } }

section Bytes

variable {maxFrameSize : Int} {bytes rest : List Byte} {b : Byte}
  {context : ReplayContext WebSocketFrameDecoder}

theorem Reading.readByte_run (reading : Reading maxFrameSize (b :: rest) context) :
    readByte.run context = .ok b (behindByte context) := by
  have present : 0 < context.replayable.buffer.readableContent.length := by
    rw [reading.content]
    exact Nat.succ_pos _
  have fetched : Reader.readByte.program.run context.replayable.buffer =
      .ok b.toInt (context.replayable.buffer.advance 1) := by
    have first := BufferM.readByte_run reading.sound present
    rw [window_first reading.content] at first
    show (do return (← BufferM.readByte).toInt : BufferM Int).run _ = _
    rw [run_bind_ok _ first]
    rfl
  have enough : decide (((Reader.readByte.width : Nat) : Int) ≤
      context.replayable.buffer.readableBytes) = true := by
    rw [reading.sound.readableBytes_eq]
    have width : Reader.readByte.width = 1 := rfl
    exact decide_eq_true (by omega)
  have through : (ReplayingDecoderBuffer.read .readByte).run context.replayable =
      ending (.ok b.toInt) { context.replayable with
        needMore := false, buffer := context.replayable.buffer.advance 1 } :=
    ReplayingDecoderBuffer.guarded_passed
      (fun buffer => decide (((Reader.readByte.width : Nat) : Int) ≤ buffer.readableBytes))
      enough fetched 0
  have passed : (onReplayable (ReplayingDecoderBuffer.read .readByte) : Decode Int).run context =
      .ok b.toInt (behindByte context) := run_focus_ok through
  unfold readByte
  refine (run_bind_ok _ passed).trans ?_
  show EStateM.Result.ok (BitVec.ofInt 8 b.toInt) _ = _
  rw [BitVec.ofInt_toInt]

theorem Reading.readByte_short (reading : Reading maxFrameSize [] context) :
    readByte.run context = .ok 0 { context with
      replayable := { context.replayable with needMore := true } } := by
  have lacking : decide (((Reader.readByte.width : Nat) : Int) ≤
      context.replayable.buffer.readableBytes) = false := by
    rw [reading.sound.readableBytes_eq, reading.content]
    exact decide_eq_false (by decide)
  have through : (ReplayingDecoderBuffer.read .readByte).run context.replayable =
      .ok 0 { context.replayable with needMore := true } :=
    @ReplayingDecoderBuffer.guarded_short _ _
      (fun buffer => decide (((Reader.readByte.width : Nat) : Int) ≤ buffer.readableBytes))
      lacking _ _
  have passed : (onReplayable (ReplayingDecoderBuffer.read .readByte) : Decode Int).run context =
      .ok 0 { context with replayable := { context.replayable with needMore := true } } :=
    run_focus_ok through
  unfold readByte
  exact run_bind_ok _ passed

theorem Reading.behind (reading : Reading maxFrameSize (b :: rest) context) :
    Reading maxFrameSize rest (behindByte context) where
  sound := by
    apply reading.sound.advance
    rw [reading.content]
    exact Nat.succ_pos _
  limit := reading.limit
  content := by
    show (context.replayable.buffer.advance 1).readableContent = rest
    rw [reading.sound.readable_advance, reading.content]
    rfl

end Bytes

/-- What the loop lets through: at most eight bytes, and after each the register is within the limit. -/
structure Accepted (maxFrameSize : Int) (field : List Byte) : Prop where
  ended : LengthField field
  short : field.length ≤ 8
  within : ∀ front, front <+: field → front ≠ [] → int32 (groupValue front) ≤ maxFrameSize

section Loop

variable {maxFrameSize : Int} {bytes rest : List Byte} {b : Byte}
  {context : ReplayContext WebSocketFrameDecoder}

/-- One round of the loop. -/
theorem Reading.round_run (reading : Reading maxFrameSize (b :: rest) context) (rounds : Nat)
    (front : List Byte) (lengthFieldSize : Int) :
    (readFrameSize (rounds + 1) (int32 (groupValue front)) lengthFieldSize).run context =
      if maxFrameSize < int32 (groupValue (front ++ [b])) then
        .error tooLongFrame (behindByte context)
      else if 8 < lengthFieldSize + 1 then .error tooLongFrame (behindByte context)
      else if b.msb then
        (readFrameSize rounds (int32 (groupValue (front ++ [b]))) (lengthFieldSize + 1)).run
          (behindByte context)
      else .ok (some (int32 (groupValue (front ++ [b])))) (behindByte context) := by
  have value : int32 (int32 (groupValue front) * 128) + ((b.toNat % 128 : Nat) : Int) =
      int32 (groupValue (front ++ [b])) := by
    rw [int32_group _ (Int.natCast_nonneg _) (by omega), groupValue_concat]
    push_cast
    rfl
  have enough : needMoreBytes.run (behindByte context) = .ok false (behindByte context) := rfl
  have limit : (behindByte context).fields.maxFrameSize = maxFrameSize := reading.limit
  rw [readFrameSize, run_bind_ok _ reading.readByte_run, run_bind_ok _ enough,
    if_neg Bool.false_ne_true, run_bind_get]
  rw [limit, value]
  split
  · rfl
  · split
    · rfl
    · split
      · rfl
      · rfl

/-- A field that is accepted is read to its end. -/
theorem Reading.loop_ends (front field : List Byte) (present : field ≠ [])
    (accepted : Accepted maxFrameSize (front ++ field))
    (reading : Reading maxFrameSize (field ++ rest) context) {rounds : Nat}
    (counted : rounds + front.length = 9) :
    ∃ after, (readFrameSize rounds (int32 (groupValue front)) front.length).run context =
        .ok (some (int32 (groupValue (front ++ field)))) after ∧
      Reading maxFrameSize rest after := by
  induction field generalizing front rounds context with
  | nil => exact absurd rfl present
  | cons b field induction =>
      have short := accepted.short
      rw [List.length_append, List.length_cons] at short
      obtain ⟨rounds, rfl⟩ : ∃ more, rounds = more + 1 := ⟨rounds - 1, by omega⟩
      have onward : front ++ b :: field = front ++ [b] ++ field := by
        rw [List.append_assoc, List.singleton_append]
      have bounded : int32 (groupValue (front ++ [b])) ≤ maxFrameSize := by
        apply accepted.within
        · rw [onward]
          exact List.prefix_append _ _
        · exact List.append_ne_nil_of_right_ne_nil _ (List.cons_ne_nil _ _)
      rw [reading.round_run, if_neg (Int.not_lt.mpr bounded), if_neg (by omega)]
      cases field with
      | nil =>
          rw [accepted.ended.last, if_neg Bool.false_ne_true]
          exact ⟨_, rfl, reading.behind⟩
      | cons c field =>
          rw [accepted.ended.inner, if_pos rfl]
          rw [onward] at accepted ⊢
          have length : ((front ++ [b]).length : Int) = (front.length : Int) + 1 := by
            rw [List.length_append, List.length_singleton, Nat.cast_add, Nat.cast_one]
          rw [← length]
          apply induction (front ++ [b]) (List.cons_ne_nil _ _) accepted reading.behind
          rw [List.length_append, List.length_singleton]
          omega

/-- The loop raises the exception, waits, or has accepted a field. -/
theorem Reading.loop_outcomes (front : List Byte) (goes : ∀ b ∈ front, b.msb = true)
    (within : ∀ first, first <+: front → first ≠ [] → int32 (groupValue first) ≤ maxFrameSize)
    (reading : Reading maxFrameSize bytes context) {rounds : Nat}
    (counted : rounds + front.length = 9) (short : front.length ≤ 8) :
    (∃ after, (readFrameSize rounds (int32 (groupValue front)) front.length).run context =
      .error tooLongFrame after) ∨
    (∃ after, (readFrameSize rounds (int32 (groupValue front)) front.length).run context =
      .ok none after ∧ ∀ b ∈ bytes, b.msb = true) ∨
    ∃ field rest, bytes = field ++ rest ∧ field ≠ [] ∧ Accepted maxFrameSize (front ++ field) := by
  induction bytes generalizing front rounds context with
  | nil =>
      obtain ⟨rounds, rfl⟩ : ∃ more, rounds = more + 1 := ⟨rounds - 1, by omega⟩
      refine .inr (.inl ⟨{ context with
        replayable := { context.replayable with needMore := true } }, ?_, ?_⟩)
      · rw [readFrameSize, run_bind_ok _ reading.readByte_short]
        rfl
      · intro b among
        cases among
  | cons b bytes induction =>
      obtain ⟨rounds, rfl⟩ : ∃ more, rounds = more + 1 := ⟨rounds - 1, by omega⟩
      rw [reading.round_run]
      by_cases above : maxFrameSize < int32 (groupValue (front ++ [b]))
      · rw [if_pos above]
        exact .inl ⟨_, rfl⟩
      · rw [if_neg above]
        have bounded : ∀ first, first <+: front ++ [b] → first ≠ [] →
            int32 (groupValue first) ≤ maxFrameSize := by
          intro first before present
          rcases List.prefix_concat_iff.mp before with whole | inside
          · rw [whole]
            exact Int.not_lt.mp above
          · exact within first inside present
        by_cases long : 8 < (front.length : Int) + 1
        · rw [if_pos long]
          exact .inl ⟨_, rfl⟩
        · rw [if_neg long]
          have size : (front ++ [b]).length = front.length + 1 := List.length_append
          cases last : b.msb with
          | false =>
              refine .inr (.inr ⟨[b], bytes, rfl, List.cons_ne_nil _ _, ?_⟩)
              exact ⟨⟨front, b, rfl, goes, last⟩, by omega, bounded⟩
          | true =>
              rw [if_pos rfl]
              have length : ((front ++ [b]).length : Int) = (front.length : Int) + 1 := by
                rw [size, Nat.cast_add, Nat.cast_one]
              have onward : ∀ c ∈ front ++ [b], c.msb = true := by
                intro c among
                rcases List.mem_append.mp among with before | single
                · exact goes c before
                · rw [List.mem_singleton.mp single]
                  exact last
              have left : rounds + (front ++ [b]).length = 9 := by omega
              rw [← length]
              rcases induction (front ++ [b]) onward bounded reading.behind left (by omega)
                with raised | ⟨after, waits, others⟩ | ⟨field, rest, parts, present, accepted⟩
              · exact .inl raised
              · refine .inr (.inl ⟨after, waits, ?_⟩)
                intro c among
                rcases List.mem_cons.mp among with here | later
                · rw [here]
                  exact last
                · exact others c later
              · refine .inr (.inr ⟨b :: field, rest, by rw [parts]; rfl, List.cons_ne_nil _ _, ?_⟩)
                rw [List.append_assoc, List.singleton_append] at accepted
                exact accepted

end Loop

/-- The loop over the bytes of a length, as the decoder enters it. -/
def frameSizeLoop : Decode (Option Int) := readFrameSize 9 0 0

/-- Whatever stands behind the bytes, the loop reads them as the length. -/
def ReadBack (maxFrameSize : Int) (field : List Byte) (length : Int) : Prop :=
  ∀ (rest : List Byte) (context : ReplayContext WebSocketFrameDecoder),
    Reading maxFrameSize (field ++ rest) context →
      ∃ after, frameSizeLoop.run context = .ok (some length) after ∧
        Reading maxFrameSize rest after

/-- The exception, or the number that stands there and is within the limit, or a length that has not
ended yet. -/
def ReadRight (maxFrameSize : Int) (bytes : List Byte) : Prop :=
  ∀ context : ReplayContext WebSocketFrameDecoder, Reading maxFrameSize bytes context →
    (∃ after, frameSizeLoop.run context = .error tooLongFrame after) ∨
    (∃ after, frameSizeLoop.run context = .ok none after ∧ ∀ b ∈ bytes, b.msb = true) ∨
    ∃ field rest after, bytes = field ++ rest ∧ LengthField field ∧
      frameSizeLoop.run context = .ok (some (groupValue field)) after ∧
      groupValue field ≤ maxFrameSize ∧ Reading maxFrameSize rest after

section Whole

variable {maxFrameSize : Int} {bytes field rest : List Byte}
  {context : ReplayContext WebSocketFrameDecoder}

theorem Reading.accepted_run (accepted : Accepted maxFrameSize field)
    (reading : Reading maxFrameSize (field ++ rest) context) :
    ∃ after, frameSizeLoop.run context = .ok (some (int32 (groupValue field))) after ∧
      Reading maxFrameSize rest after :=
  reading.loop_ends [] field accepted.ended.ne_nil accepted rfl

theorem Reading.outcomes (reading : Reading maxFrameSize bytes context) :
    (∃ after, frameSizeLoop.run context = .error tooLongFrame after) ∨
    (∃ after, frameSizeLoop.run context = .ok none after ∧ ∀ b ∈ bytes, b.msb = true) ∨
    ∃ field rest, bytes = field ++ rest ∧ Accepted maxFrameSize field := by
  have none : ∀ b ∈ ([] : List Byte), b.msb = true := fun b among => absurd among List.not_mem_nil
  have start : ∀ first : List Byte, first <+: [] → first ≠ [] →
      int32 (groupValue first) ≤ maxFrameSize := by
    intro first before present
    exact absurd (List.prefix_nil.mp before) present
  rcases reading.loop_outcomes [] none start rfl (Nat.zero_le _) with
    raised | waits | ⟨field, rest, parts, -, accepted⟩
  · exact .inl raised
  · exact .inr (.inl waits)
  · exact .inr (.inr ⟨field, rest, parts, accepted⟩)

/-- A call whose buffer holds the bytes. -/
def readingOf (maxFrameSize : Int) (bytes : List Byte) : ReplayContext WebSocketFrameDecoder :=
  ⟨⟨false, maxFrameSize, []⟩, 0, -1, true,
    .make (.heap ⟨.big, bytes, ⟨0, bytes.length, 0, 0⟩⟩), []⟩

theorem readingOf_reading (small : (bytes.length : Int) ≤ maxInt) :
    Reading maxFrameSize bytes (readingOf maxFrameSize bytes) where
  sound := ChannelBuffer.heap_sound small
    ⟨Int.le_refl 0, Int.natCast_nonneg _, Int.le_refl _⟩
  limit := rfl
  content := by
    show window bytes 0 ((bytes.length : Int) - 0).toNat = bytes
    rw [Int.sub_zero, Int.toNat_natCast]
    exact window_whole bytes

end Whole

section Limits

variable {maxFrameSize : Int} {bytes field : List Byte}

theorem readRight_of (bounded : ∀ field rest, bytes = field ++ rest →
    Accepted maxFrameSize field → (groupValue field : Int) ≤ maxInt) :
    ReadRight maxFrameSize bytes := by
  intro context reading
  rcases reading.outcomes with raised | waits | ⟨field, rest, parts, accepted⟩
  · exact .inl raised
  · exact .inr (.inl waits)
  · rw [parts] at reading
    obtain ⟨after, ran, behind⟩ := reading.accepted_run accepted
    have value := int32_of_nonneg (Int.natCast_nonneg _) (bounded field rest parts accepted)
    have within := accepted.within field (List.prefix_refl _) accepted.ended.ne_nil
    rw [value] at ran within
    exact .inr (.inr ⟨field, rest, after, parts, accepted.ended, ran, within, behind⟩)

/-- The number that stands there is read unless the register has turned over. -/
theorem readRight_iff (small : (bytes.length : Int) ≤ maxInt) :
    ReadRight maxFrameSize bytes ↔ ∀ field rest, bytes = field ++ rest →
      Accepted maxFrameSize field → (groupValue field : Int) ≤ maxInt := by
  constructor
  · intro right field rest parts accepted
    have reading := @readingOf_reading maxFrameSize bytes small
    rw [parts] at reading
    obtain ⟨after, ran, -⟩ := reading.accepted_run accepted
    rw [← parts] at ran
    rcases right _ (readingOf_reading small) with
      ⟨_, raised⟩ | ⟨_, waits, -⟩ | ⟨field', rest', _, parts', ended, ran', -, -⟩
    · rw [ran] at raised
      cases raised
    · rw [ran] at waits
      cases waits
    · rw [ran] at ran'
      injection ran' with value
      have same := accepted.ended.unique ended (parts.symm.trans parts')
      subst same
      have bounds := int32_bounds (groupValue field)
      have whole := Option.some.inj value
      omega
  · exact readRight_of

theorem Accepted.value_le (accepted : Accepted maxFrameSize field)
    (low : maxFrameSize < 16777216) {front : List Byte} (before : front <+: field) :
    (groupValue front : Int) < 16777216 := by
  induction front using List.reverseRecOn with
  | nil => decide
  | append_singleton front b induction =>
      have earlier := induction ((List.prefix_append front [b]).trans before)
      have within := accepted.within _ before (List.append_ne_nil_of_right_ne_nil _
        (List.cons_ne_nil _ _))
      have top : maxInt = 2147483647 := rfl
      rw [groupValue_concat] at within ⊢
      rw [int32_of_nonneg (Int.natCast_nonneg _) (by omega)] at within
      omega

/-- Four groups fill 28 bits; a fifth can turn the register over. -/
def turning : List Byte := [0x88, 0x80, 0x80, 0x80, 0x00]

theorem turning_accepted (high : 16777216 ≤ maxFrameSize) : Accepted maxFrameSize turning where
  ended := ⟨[0x88, 0x80, 0x80, 0x80], 0x00, rfl, by decide, rfl⟩
  short := by decide
  within := by
    intro front before present
    have all : ∀ front ∈ turning.inits, int32 (groupValue front) ≤ 16777216 := by decide
    exact Int.le_trans (all front ((List.mem_inits _ _).mpr before)) high

theorem readRight_all_iff (maxFrameSize : Int) :
    (∀ bytes, ReadRight maxFrameSize bytes) ↔ maxFrameSize < 16777216 := by
  constructor
  · intro right
    by_contra high
    have bounded := (readRight_iff (by decide)).mp (right turning) turning []
      (List.append_nil _).symm (turning_accepted (Int.not_lt.mp high))
    exact absurd bounded (by decide)
  · intro low bytes
    refine readRight_of fun field rest _ accepted => ?_
    have bounded := accepted.value_le low (List.prefix_refl _)
    have top : maxInt = 2147483647 := rfl
    omega

end Limits

section Encoded

open WebSocketFrameEncoder

theorem more_byte {bits : Int} (least : 0 ≤ bits) (most : bits < 128) :
    (BitVec.ofInt 8 (bits + 128)).msb = true ∧
      (((BitVec.ofInt 8 (bits + 128)).toNat % 128 : Nat) : Int) = bits := by
  have value : (((BitVec.ofInt 8 (bits + 128)).toNat : Nat) : Int) = bits + 128 := by
    rw [BitVec.toNat_ofInt]
    omega
  constructor
  · rw [BitVec.msb_eq_decide, decide_eq_true_iff]
    omega
  · omega

theorem last_byte {bits : Int} (least : 0 ≤ bits) (most : bits < 128) :
    (BitVec.ofInt 8 bits).msb = false ∧
      (((BitVec.ofInt 8 bits).toNat % 128 : Nat) : Int) = bits := by
  have value : (((BitVec.ofInt 8 bits).toNat : Nat) : Int) = bits := by
    rw [BitVec.toNat_ofInt]
    omega
  constructor
  · rw [BitVec.msb_eq_decide, decide_eq_false_iff_not]
    omega
  · omega

theorem group_bounds (length : Int) (shift : Nat) :
    0 ≤ group length shift ∧ group length shift < 128 := by
  unfold group
  exact ⟨Int.emod_nonneg _ (by decide), Int.emod_lt_of_pos _ (by decide)⟩

/-- Bytes that go on with the groups, and the last. -/
theorem groups_field {groups : List Int} {last : Int} (inner : ∀ bits ∈ groups, 0 ≤ bits ∧ bits < 128)
    (ends : 0 ≤ last ∧ last < 128) :
    LengthField (groups.map (fun bits => BitVec.ofInt 8 (bits + 128)) ++ [BitVec.ofInt 8 last]) ∧
      (groupValue (groups.map (fun bits => BitVec.ofInt 8 (bits + 128)) ++
        [BitVec.ofInt 8 last]) : Int) = (groups.foldl (fun value bits => value * 128 + bits) 0) * 128 +
          last := by
  have value : (groupValue (groups.map fun bits => BitVec.ofInt 8 (bits + 128)) : Int) =
      groups.foldl (fun value bits => value * 128 + bits) 0 := by
    induction groups using List.reverseRecOn with
    | nil => rfl
    | append_singleton groups bits induction =>
        have earlier := induction fun bits among => inner bits (List.mem_append_left _ among)
        have here := inner bits (List.mem_append_right _ List.mem_cons_self)
        have byte := (more_byte here.1 here.2).2
        rw [List.map_append, List.map_singleton, groupValue_concat, List.foldl_append]
        push_cast at byte ⊢
        rw [earlier, byte]
        rfl
  constructor
  · refine ⟨_, _, rfl, ?_, (last_byte ends.1 ends.2).1⟩
    intro b among
    obtain ⟨bits, member, same⟩ := List.mem_map.mp among
    rw [← same]
    exact (more_byte (inner bits member).1 (inner bits member).2).1
  · have byte := (last_byte ends.1 ends.2).2
    rw [groupValue_concat]
    push_cast at byte ⊢
    rw [value, byte]

theorem encodeLength_field (length : Int) :
    LengthField (encodeLength length) ∧ (encodeLength length).length ≤ 4 ∧
      (groupValue (encodeLength length) : Int) =
        length / 268435456 % 128 * 2097152 + length % 2097152 := by
  have b1 := group_bounds length 28
  have b2 := group_bounds length 14
  have b3 := group_bounds length 7
  have b4 := group_bounds length 0
  have first : group length 28 = length / 268435456 % 128 := rfl
  have second : group length 14 = length / 16384 % 128 := rfl
  have third : group length 7 = length / 128 % 128 := rfl
  have fourth : group length 0 = length % 128 := by
    unfold group
    rw [pow_zero, Int.ediv_one]
  unfold encodeLength
  dsimp only
  split
  · split
    · split
      · obtain ⟨ended, value⟩ := @groups_field [] _ (fun _ among => absurd among List.not_mem_nil) b4
        refine ⟨ended, Nat.le_add_left 1 3, value.trans ?_⟩
        rw [List.foldl_nil]
        omega
      · obtain ⟨ended, value⟩ := @groups_field [group length 7] _
          (List.forall_mem_singleton.mpr b3) b4
        refine ⟨ended, by simp, value.trans ?_⟩
        rw [List.foldl_cons, List.foldl_nil]
        omega
    · obtain ⟨ended, value⟩ := @groups_field [group length 14, group length 7] _
        (List.forall_mem_cons.mpr ⟨b2, List.forall_mem_singleton.mpr b3⟩) b4
      refine ⟨ended, by simp, value.trans ?_⟩
      rw [List.foldl_cons, List.foldl_cons, List.foldl_nil]
      omega
  · obtain ⟨ended, value⟩ := @groups_field [group length 28, group length 14, group length 7] _
      (List.forall_mem_cons.mpr ⟨b1, List.forall_mem_cons.mpr
        ⟨b2, List.forall_mem_singleton.mpr b3⟩⟩) b4
    refine ⟨ended, by simp, value.trans ?_⟩
    rw [List.foldl_cons, List.foldl_cons, List.foldl_cons, List.foldl_nil]
    omega

/-- The seven bits above the low 21 are lost. -/
theorem encodeLength_value {length : Int} (least : 0 ≤ length) (most : length ≤ maxInt) :
    ∃ lost : Int, 0 ≤ lost ∧ (lost = 0 ↔ length < 2097152) ∧
      (groupValue (encodeLength length) : Int) + lost * 2097152 = length := by
  have top : maxInt = 2147483647 := rfl
  have value := (encodeLength_field length).2.2
  have above : length / 268435456 = length / 2097152 / 128 := by omega
  have high : length / 2097152 / 128 % 128 = length / 2097152 / 128 := by
    rw [← above]
    exact Int.emod_eq_of_lt (by omega) (by omega)
  rw [above, high] at value
  exact ⟨length / 2097152 - length / 2097152 / 128, by omega, by omega, by omega⟩

end Encoded

section Claims

open WebSocketFrameEncoder

/-- The bytes of the length stand behind the type, and the loop reads them back. -/
def LengthReadBack (maxFrameSize : Int) (frame : DefaultWebSocketFrame) : Prop :=
  encode frame = .ok (BitVec.ofInt 8 frame.type ::
      (encodeLength frame.binaryData.readableBytes ++ frame.binaryData.readableContent)) ∧
    ReadBack maxFrameSize (encodeLength frame.binaryData.readableBytes)
      frame.binaryData.readableBytes

theorem encode_binary {frame : DefaultWebSocketFrame} (binary : frame.isText = false)
    (least : 0 ≤ frame.binaryData.readableBytes)
    (low : frame.binaryData.readableBytes + 5 ≤ maxInt) :
    encode frame = .ok (BitVec.ofInt 8 frame.type ::
      (encodeLength frame.binaryData.readableBytes ++ frame.binaryData.readableContent)) := by
  have room : int32 (frame.binaryData.readableBytes + 5) =
      frame.binaryData.readableBytes + 5 := int32_of_nonneg (by omega) low
  have allocated : ∃ encoded, ChannelBuffer.allocate frame.binaryData.order
      (frame.binaryData.readableBytes + 5) = .ok encoded := by
    unfold ChannelBuffer.allocate
    rw [if_neg (by omega), if_neg (by omega)]
    exact ⟨_, rfl⟩
  obtain ⟨encoded, allocated⟩ := allocated
  unfold encode
  dsimp only
  rw [binary, if_neg Bool.false_ne_true, room, allocated]
  rfl

section

variable {maxFrameSize length : Int} (least : 0 ≤ length) (most : length ≤ maxInt)
  (fits : length ≤ maxFrameSize)

include least most fits

theorem encodeLength_accepted :
    Accepted maxFrameSize (encodeLength length) := by
  obtain ⟨ended, short, -⟩ := encodeLength_field length
  obtain ⟨lost, some, -, value⟩ := encodeLength_value least most
  refine ⟨ended, by omega, fun front before _ => ?_⟩
  obtain ⟨more, parts⟩ := before
  have bound := groupValue_append_le front more
  rw [parts] at bound
  rw [int32_of_nonneg (Int.natCast_nonneg _) (by omega)]
  omega

theorem readBack_iff :
    ReadBack maxFrameSize (encodeLength length) length ↔ length < 2097152 := by
  have short := (encodeLength_field length).2.1
  obtain ⟨lost, some, none, value⟩ := encodeLength_value least most
  have accepted := encodeLength_accepted least most fits
  have top : maxInt = 2147483647 := rfl
  have register := int32_of_nonneg (Int.natCast_nonneg (groupValue (encodeLength length)))
    (by omega)
  constructor
  · intro back
    have reading := @readingOf_reading maxFrameSize (encodeLength length ++ [])
      (by rw [List.append_nil]; omega)
    obtain ⟨after, ran, -⟩ := reading.accepted_run accepted
    obtain ⟨after', ran', -⟩ := back [] _ reading
    rw [ran] at ran'
    injection ran' with same
    have whole := Option.some.inj same
    omega
  · intro low rest context reading
    obtain ⟨after, ran, behind⟩ := reading.accepted_run accepted
    have whole : int32 (groupValue (encodeLength length)) = length := by omega
    rw [whole] at ran
    exact ⟨after, ran, behind⟩

end

/-- A length of at least 2^21 is not read back, and a limit of 2^24 or more lets the register turn
over. -/
theorem length_field_iff (maxFrameSize : Int) (frame : DefaultWebSocketFrame) (bytes : List Byte) :
    (frame.isText = false → frame.binaryData.Sound →
      frame.binaryData.readableBytes ≤ maxFrameSize →
      (LengthReadBack maxFrameSize frame ↔ frame.binaryData.readableBytes < 2097152)) ∧
    ((bytes.length : Int) ≤ maxInt →
      (ReadRight maxFrameSize bytes ↔ ∀ field rest, bytes = field ++ rest →
        Accepted maxFrameSize field → (groupValue field : Int) ≤ maxInt)) ∧
    ((∀ bytes, ReadRight maxFrameSize bytes) ↔ maxFrameSize < 16777216) := by
  refine ⟨?_, readRight_iff, readRight_all_iff maxFrameSize⟩
  intro binary sound fits
  have least : 0 ≤ frame.binaryData.readableBytes := by
    rw [sound.readableBytes_eq]
    exact Int.natCast_nonneg _
  have most : frame.binaryData.readableBytes ≤ maxInt := (int32_bounds _).2
  constructor
  · intro back
    exact (readBack_iff least most fits).mp back.2
  · intro low
    have top : maxInt = 2147483647 := rfl
    exact ⟨encode_binary binary least (by omega), (readBack_iff least most fits).mpr low⟩

/-- A binary frame of two bytes, and its length as the sequence. -/
theorem length_field_two :
    (LengthReadBack 16384 ⟨128, .heap ⟨.big, [7, 9], ⟨0, 2, 0, 0⟩⟩⟩ ↔
      (ChannelBuffer.heap ⟨.big, [7, 9], ⟨0, 2, 0, 0⟩⟩).readableBytes < 2097152) ∧
    (ReadRight 16384 [2] ↔ ∀ field rest, [2] = field ++ rest → Accepted 16384 field →
      (groupValue field : Int) ≤ maxInt) ∧
    ((∀ bytes, ReadRight 16384 bytes) ↔ (16384 : Int) < 16777216) := by
  have all := length_field_iff 16384 ⟨128, .heap ⟨.big, [7, 9], ⟨0, 2, 0, 0⟩⟩⟩ [2]
  have sound : (ChannelBuffer.heap ⟨.big, [7, 9], ⟨0, 2, 0, 0⟩⟩).Sound :=
    ChannelBuffer.heap_sound (by decide) ⟨by decide, by decide, by decide⟩
  exact ⟨all.1 (by decide) sound (by decide), all.2.1 (by decide), all.2.2⟩

/-- A binary frame whose payload is too long for 21 bits. -/
def longFrame : DefaultWebSocketFrame :=
  ⟨128, .heap ⟨.big, List.replicate 2097152 0, ⟨0, 2097152, 0, 0⟩⟩⟩

/-- The length 2^21 does not come back, and five bytes are no number within the limit. -/
theorem length_field_lost :
    longFrame.isText = false ∧ longFrame.binaryData.Sound ∧
    longFrame.binaryData.readableBytes = 2097152 ∧ ¬LengthReadBack maxInt longFrame ∧
    ¬ReadRight maxInt turning := by
  have length : longFrame.binaryData.readableBytes = 2097152 := by decide
  refine ⟨by decide, ?_, length, ?_, ?_⟩
  · have cells : ((List.replicate 2097152 (0 : Byte)).length : Int) = 2097152 := by
      rw [List.length_replicate]
      rfl
    apply ChannelBuffer.heap_sound
    · rw [cells]
      decide
    · rw [cells]
      exact ⟨by decide, by decide, by decide⟩
  · intro back
    have read := back.2
    rw [length] at read
    exact absurd ((readBack_iff (by decide) (by decide) (by decide)).mp read) (by decide)
  · intro right
    have bounded := (readRight_iff (by decide)).mp right turning [] (List.append_nil _).symm
      (turning_accepted (by decide))
    exact absurd bounded (by decide)

end Claims

end WebSocketFrameDecoder

end Cetty
