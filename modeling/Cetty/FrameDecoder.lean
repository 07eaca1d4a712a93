import Cetty.BufferOperations

/-!
# The frame decoder

`FrameDecoder::messageReceived` and `callDecode` over an arbitrary subclass: the
subclass is its fields and its `decode`, a program that may move the buffer, fire
events and change its fields. The pipeline turns an exception that leaves
`messageReceived` into an `exceptionCaught` event and goes on with the next buffer.
-/

namespace Cetty

inductive ChannelMessage where
  | empty
  | buffer (buffer : ChannelBuffer)
  | vector (messages : List ChannelMessage)
  | object (identity : Nat)

namespace ChannelMessage

def isEmpty : ChannelMessage → Bool
  | empty => true
  | _ => false

/-- The bytes a handler further up can read from a message. -/
def bytes : ChannelMessage → List Byte
  | .buffer frame => frame.readableContent
  | _ => []

end ChannelMessage

inductive UpstreamEvent where
  | messageReceived (message : ChannelMessage)
  | exceptionCaught (cause : Exception)

namespace UpstreamEvent

/-- The bytes of a received frame; other events show none. -/
def frameBytes : UpstreamEvent → Option (List Byte)
  | messageReceived (.buffer frame) => some frame.readableContent
  | _ => none

end UpstreamEvent

structure DecodeContext (Fields : Type) where
  fields : Fields
  buffer : ChannelBuffer
  fired : List UpstreamEvent

abbrev DecodeM (Fields Value : Type) := Exec (DecodeContext Fields) Value

section Decode

variable {Fields Value : Type}

def onBuffer (program : BufferM Value) : DecodeM Fields Value :=
  focus DecodeContext.buffer (fun context buffer => { context with buffer := buffer }) program

def fire (events : List UpstreamEvent) : DecodeM Fields Unit :=
  modify fun context => { context with fired := context.fired ++ events }

def unfoldAndFireMessageReceived (unfold_ : Bool) (result : ChannelMessage) :
    DecodeM Fields Unit :=
  match unfold_, result with
  | true, .vector messages => fire (messages.map .messageReceived)
  | _, result => fire [.messageReceived result]

def noProgress : Stop := .thrown ⟨.illegalState,
  "decode() method must read at least one byte " ++
    "                if it returned a frame (caused by: )"⟩

/-- One round of the `while` loop; the result says whether the loop goes on. -/
def decodeRound (decode : DecodeM Fields ChannelMessage) (unfold_ : Bool) :
    DecodeM Fields Bool := do
  let oldReaderIndex := (← get).buffer.readerIdx
  if (← get).buffer.readable then
    let frame ← decode
    let readerIndex := (← get).buffer.readerIdx
    if frame.isEmpty then
      -- no progress: more data is required; progress: data has been discarded
      pure (oldReaderIndex ≠ readerIndex)
    else if oldReaderIndex = readerIndex then throw noProgress
    else
      unfoldAndFireMessageReceived unfold_ frame
      pure true
  else pure false

/-- `fuel` bounds the rounds of the `while` loop. -/
def callDecode (decode : DecodeM Fields ChannelMessage) (unfold_ channelOwnBuffer : Bool) :
    Nat → DecodeM Fields Unit
  | 0 => throw .outOfFuel
  | fuel + 1 => do
      if ← decodeRound decode unfold_ then callDecode decode unfold_ channelOwnBuffer fuel
      else if channelOwnBuffer then onBuffer BufferM.discardReadBytes

section

variable {program : BufferM Value} {context : DecodeContext Fields}

theorem onBuffer_ok {value : Value}
    {after : ChannelBuffer} (ran : program.run context.buffer = .ok value after) :
    (onBuffer program).run context = .ok value { context with buffer := after } :=
  run_focus_ok ran

theorem onBuffer_error {stop : Stop}
    {after : ChannelBuffer} (ran : program.run context.buffer = .error stop after) :
    (onBuffer program).run context = .error stop { context with buffer := after } :=
  run_focus_error ran

end

/-- The messages a frame is handed on as. -/
def unfolded (unfold_ : Bool) (frame : ChannelMessage) : List UpstreamEvent :=
  match unfold_, frame with
  | true, .vector messages => messages.map .messageReceived
  | _, frame => [.messageReceived frame]

theorem unfoldAndFire_run (unfold_ : Bool) (frame : ChannelMessage)
    (context : DecodeContext Fields) :
    (unfoldAndFireMessageReceived unfold_ frame).run context =
      .ok () { context with fired := context.fired ++ unfolded unfold_ frame } := by
  cases unfold_ <;> cases frame <;> rfl

section Rounds

variable {decode : DecodeM Fields ChannelMessage} {unfold_ own : Bool} {fuel : Nat}
  {context after : DecodeContext Fields} {frame : ChannelMessage} {stop : Stop}

theorem decodeRound_unreadable (unreadable : context.buffer.readable = false) :
    (decodeRound decode unfold_).run context = .ok false context := by
  unfold decodeRound
  rw [run_bind_get]
  rw [run_bind_get]
  simp [unreadable]

section

variable (readable : context.buffer.readable = true)

include readable

/-- The part of a round behind a readable buffer. -/
theorem decodeRound_readable :
    (decodeRound decode unfold_).run context = (do
      let frame ← decode
      let readerIndex := (← get).buffer.readerIdx
      if frame.isEmpty then pure (context.buffer.readerIdx ≠ readerIndex)
      else if context.buffer.readerIdx = readerIndex then throw noProgress
      else
        unfoldAndFireMessageReceived unfold_ frame
        pure true : DecodeM Fields Bool).run context := by
  unfold decodeRound
  rw [run_bind_get]
  rw [run_bind_get]
  simp only [readable, if_true]

theorem decodeRound_stops (decoded : decode.run context = .error stop after) :
    (decodeRound decode unfold_).run context = .error stop after := by
  rw [decodeRound_readable readable, run_bind_error _ decoded]

theorem decodeRound_empty (decoded : decode.run context = .ok .empty after) :
    (decodeRound decode unfold_).run context =
      .ok (decide (context.buffer.readerIdx ≠ after.buffer.readerIdx)) after := by
  rw [decodeRound_readable readable, run_bind_ok _ decoded, run_bind_get]
  rfl

section

variable (decoded : decode.run context = .ok frame after) (shown : frame.isEmpty = false)

include decoded shown

theorem decodeRound_fires (moved : context.buffer.readerIdx ≠ after.buffer.readerIdx) :
    (decodeRound decode unfold_).run context =
      .ok true { after with fired := after.fired ++ unfolded unfold_ frame } := by
  rw [decodeRound_readable readable, run_bind_ok _ decoded, run_bind_get]
  simp only [shown]
  rw [if_neg Bool.false_ne_true, if_neg moved, run_bind_ok _ (unfoldAndFire_run _ _ _)]
  rfl

/-- A frame without progress of the reader index leaves the loop as an exception. -/
theorem decodeRound_noProgress (unmoved : context.buffer.readerIdx = after.buffer.readerIdx) :
    (decodeRound decode unfold_).run context = .error noProgress after := by
  rw [decodeRound_readable readable, run_bind_ok _ decoded, run_bind_get]
  simp only [shown]
  rw [if_neg Bool.false_ne_true, if_pos unmoved]
  rfl

end

end

theorem callDecode_stops (round : (decodeRound decode unfold_).run context = .error stop after) :
    (callDecode decode unfold_ own (fuel + 1)).run context = .error stop after := by
  rw [callDecode, run_bind_error _ round]

theorem callDecode_goes_on (round : (decodeRound decode unfold_).run context = .ok true after) :
    (callDecode decode unfold_ own (fuel + 1)).run context =
      (callDecode decode unfold_ own fuel).run after := by
  rw [callDecode, run_bind_ok _ round, if_pos rfl]

theorem callDecode_ends (round : (decodeRound decode unfold_).run context = .ok false after) :
    (callDecode decode unfold_ false (fuel + 1)).run context = .ok () after := by
  rw [callDecode, run_bind_ok _ round]
  rfl

theorem callDecode_unreadable (unreadable : context.buffer.readable = false) :
    (callDecode decode unfold_ false (fuel + 1)).run context = .ok () context :=
  callDecode_ends (decodeRound_unreadable unreadable)

section

variable (readable : context.buffer.readable = true)
  (decoded : decode.run context = .ok .empty after)

include readable decoded

theorem callDecode_waits (unmoved : context.buffer.readerIdx = after.buffer.readerIdx) :
    (callDecode decode unfold_ false (fuel + 1)).run context = .ok () after := by
  apply callDecode_ends
  rw [decodeRound_empty readable decoded, unmoved]
  simp

theorem callDecode_continues (moved : context.buffer.readerIdx ≠ after.buffer.readerIdx) :
    (callDecode decode unfold_ own (fuel + 1)).run context =
      (callDecode decode unfold_ own fuel).run after := by
  apply callDecode_goes_on
  rw [decodeRound_empty readable decoded, decide_eq_true moved]

end

theorem callDecode_fires {frame : ChannelBuffer} (readable : context.buffer.readable = true)
    (decoded : decode.run context = .ok (.buffer frame) after)
    (moved : context.buffer.readerIdx ≠ after.buffer.readerIdx) :
    (callDecode decode unfold_ own (fuel + 1)).run context =
      (callDecode decode unfold_ own fuel).run
        { after with fired := after.fired ++ [.messageReceived (.buffer frame)] } := by
  have plain : unfolded unfold_ (.buffer frame) = [.messageReceived (.buffer frame)] := by
    cases unfold_ <;> rfl
  apply callDecode_goes_on
  rw [decodeRound_fires readable decoded rfl moved, plain]

end Rounds

end Decode

/-- What a frame decoder asks the configuration of its channel for. -/
structure ChannelConfig where
  channelOwnBuffer : Bool
  bufferFactory : ByteOrder

structure FrameDecoder (Fields : Type) where
  channelOwnBuffer : Bool
  unfold_ : Bool
  cumulation : Option ChannelBuffer
  fields : Fields

structure Reception (Fields : Type) where
  decoder : FrameDecoder Fields
  input : ChannelBuffer
  fired : List UpstreamEvent

/-- `ChannelBuffers::dynamicBuffer(factory)`. -/
def dynamicBuffer (factory : ByteOrder) : Except Stop ChannelBuffer := do
  let buffer ← ChannelBuffer.allocate factory 256
  pure (.dynamic factory factory buffer .zero)

namespace FrameDecoder

variable {Fields Value : Type}

def onInput (program : DecodeM Fields Value) : Exec (Reception Fields) Value :=
  focus (fun reception => ⟨reception.decoder.fields, reception.input, reception.fired⟩)
    (fun reception context =>
      { decoder := { reception.decoder with fields := context.fields }
        input := context.buffer
        fired := context.fired })
    program

def onCumulation (program : DecodeM Fields Value) : Exec (Reception Fields) Value :=
  focus (fun reception => ⟨reception.decoder.fields,
      reception.decoder.cumulation.getD ChannelBuffer.emptyBuffer, reception.fired⟩)
    (fun reception context =>
      { reception with
        decoder := { reception.decoder with
          fields := context.fields
          cumulation := some context.buffer }
        fired := context.fired })
    program

section Focus

variable {program : DecodeM Fields Value} {decoder : FrameDecoder Fields}
  {input cumulation : ChannelBuffer} {fired : List UpstreamEvent} {value : Value} {stop : Stop}
  {after : DecodeContext Fields}

theorem onInput_ok (ran : program.run ⟨decoder.fields, input, fired⟩ = .ok value after) :
    (onInput program).run ⟨decoder, input, fired⟩ =
      .ok value ⟨{ decoder with fields := after.fields }, after.buffer, after.fired⟩ := by
  unfold onInput
  rw [run_focus_ok]
  exact ran

theorem onInput_error (ran : program.run ⟨decoder.fields, input, fired⟩ = .error stop after) :
    (onInput program).run ⟨decoder, input, fired⟩ =
      .error stop ⟨{ decoder with fields := after.fields }, after.buffer, after.fired⟩ := by
  unfold onInput
  rw [run_focus_error]
  exact ran

theorem onCumulation_ok (stored : decoder.cumulation = some cumulation)
    (ran : program.run ⟨decoder.fields, cumulation, fired⟩ = .ok value after) :
    (onCumulation program).run ⟨decoder, input, fired⟩ =
      .ok value ⟨{ decoder with fields := after.fields, cumulation := some after.buffer }, input,
        after.fired⟩ := by
  unfold onCumulation
  rw [run_focus_ok]
  simp only [stored, Option.getD_some]
  exact ran

theorem onCumulation_error (stored : decoder.cumulation = some cumulation)
    (ran : program.run ⟨decoder.fields, cumulation, fired⟩ = .error stop after) :
    (onCumulation program).run ⟨decoder, input, fired⟩ =
      .error stop ⟨{ decoder with fields := after.fields, cumulation := some after.buffer }, input,
        after.fired⟩ := by
  unfold onCumulation
  rw [run_focus_error]
  simp only [stored, Option.getD_some]
  exact ran

end Focus

def getCumulation (factory : ByteOrder) : Exec (Reception Fields) ChannelBuffer := do
  match (← get).decoder.cumulation with
  | some cumulation => pure cumulation
  | none =>
      let cumulation ← call (dynamicBuffer factory)
      modify fun reception =>
        { reception with decoder := { reception.decoder with cumulation := some cumulation } }
      pure cumulation

def cumulate : Exec (Reception Fields) Unit := do
  let drained ← onCumulation (onBuffer (BufferM.writeBytes (← get).input))
  modify fun reception => { reception with input := drained }

/-- `messageReceived` for a message that is a buffer. -/
def receiveBuffer (decode : DecodeM Fields ChannelMessage) (config : ChannelConfig)
    (fuel : Nat) : Exec (Reception Fields) Unit := do
  if (← get).input.readable then
    modify fun reception =>
      { reception with
        decoder := { reception.decoder with channelOwnBuffer := config.channelOwnBuffer } }
    let unfold_ := (← get).decoder.unfold_
    if config.channelOwnBuffer then onInput (callDecode decode unfold_ true fuel)
    else
      let cumulation ← getCumulation config.bufferFactory
      if cumulation.readable then
        onCumulation (onBuffer BufferM.discardReadBytes)
        cumulate
        onCumulation (callDecode decode unfold_ false fuel)
      else
        onInput (callDecode decode unfold_ false fuel)
        if (← get).input.readable then cumulate

end FrameDecoder

/-- A frame decoder in its pipeline, with the events it has sent upstream. -/
structure Handler (Fields : Type) where
  decoder : FrameDecoder Fields
  fired : List UpstreamEvent

namespace Handler

variable {Fields : Type}

/-- `messageReceived`, as the context in front of the decoder calls it. -/
def messageReceived (decode : DecodeM Fields ChannelMessage) (config : ChannelConfig)
    (fuel : Nat) (handler : Handler Fields) (message : ChannelMessage) :
    Except Stop (Handler Fields) :=
  match message with
  | .buffer input =>
      match (FrameDecoder.receiveBuffer decode config fuel).run
          ⟨handler.decoder, input, handler.fired⟩ with
      | .ok _ reception => .ok ⟨reception.decoder, reception.fired⟩
      | .error (.thrown exception) reception =>
          .ok ⟨reception.decoder, reception.fired ++ [.exceptionCaught exception]⟩
      | .error stop _ => .error stop
  | other => .ok { handler with fired := handler.fired ++ [.messageReceived other] }

/-- The received buffers, one after the other. -/
def receiveAll (decode : DecodeM Fields ChannelMessage) (config : ChannelConfig) (fuel : Nat)
    (handler : Handler Fields) (received : List ChannelBuffer) : Except Stop (Handler Fields) :=
  received.foldlM
    (fun handler input => messageReceived decode config fuel handler (.buffer input)) handler

end Handler

/-- A handler that has received nothing. -/
def FrameDecoder.fresh {Fields : Type} (channelOwnBuffer unfold_ : Bool) (fields : Fields) :
    Handler Fields :=
  ⟨⟨channelOwnBuffer, unfold_, none, fields⟩, []⟩

end Cetty
