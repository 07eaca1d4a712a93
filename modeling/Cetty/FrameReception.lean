import Cetty.FrameDecoder

/-!
# One delivery to a frame decoder

Whichever path `messageReceived` takes, the decoding loop runs on a buffer whose
readable bytes are the unread ones followed by the received ones, and what the
loop leaves unread is what the cumulation holds afterwards.
-/

namespace Cetty

open MachineInt ByteWindow ChannelBuffer

/-- The same buffer with its indices moved: nothing new to read, nothing past the writer. -/
def ChannelBuffer.Repositioned (before after : ChannelBuffer) : Prop :=
  ∃ idx, after = before.withIdx idx ∧ idx.Inside before.content.length ∧
    idx.writerIdx ≤ before.writerIdx ∧
    after.readableContent.length ≤ before.readableContent.length

theorem ChannelBuffer.Sound.repositioned {before after : ChannelBuffer} (sound : before.Sound)
    (moved : before.Repositioned after) : after.Sound := by
  obtain ⟨idx, rfl, inside, _⟩ := moved
  exact sound.withIdx inside

theorem ChannelBuffer.IsDynamic.repositioned {factory : ByteOrder} {before after : ChannelBuffer}
    (growing : before.IsDynamic factory) (moved : before.Repositioned after) :
    after.IsDynamic factory := by
  obtain ⟨idx, rfl, inside, _⟩ := moved
  obtain ⟨heap, old, rfl, shape⟩ := growing
  exact ⟨heap, idx, rfl, shape.power, shape.ordered, by simpa only [content] using inside⟩

theorem ChannelBuffer.Sound.advance_repositioned {buffer : ChannelBuffer} (sound : buffer.Sound)
    {count : Nat} (bounded : count ≤ buffer.readableContent.length) :
    buffer.Repositioned (buffer.advance count) := by
  have inside := sound.advance_inside bounded
  refine ⟨(buffer.advance count).idx, ?_, inside, ?_, ?_⟩
  · unfold ChannelBuffer.advance
    rw [idx_withIdx]
  · unfold ChannelBuffer.advance
    rw [idx_withIdx]
    exact Int.le_refl _
  · rw [sound.readable_advance, List.length_drop]
    omega

namespace FrameDecoder

variable {Fields : Type}

/-- The bytes kept for the next delivery. -/
def unread (decoder : FrameDecoder Fields) : List Byte :=
  match decoder.cumulation with
  | some cumulation => cumulation.readableContent
  | none => []

/-- Where the next byte would be written in the cumulation. -/
def filled (decoder : FrameDecoder Fields) : Int :=
  match decoder.cumulation with
  | some cumulation => cumulation.writerIdx
  | none => 0

/-- The cumulation was created by the factory and never took in more than `received` bytes. -/
structure Holding (factory : ByteOrder) (received : Nat) (decoder : FrameDecoder Fields) :
    Prop where
  dynamic : ∀ cumulation, decoder.cumulation = some cumulation → cumulation.IsDynamic factory
  filled : decoder.filled ≤ received

section

variable {decoder : FrameDecoder Fields} {kept : ChannelBuffer}
  (stored : decoder.cumulation = some kept)

include stored

theorem unread_of_kept : decoder.unread = kept.readableContent := by
  unfold unread
  rw [stored]

theorem filled_of_kept : decoder.filled = kept.writerIdx := by
  unfold FrameDecoder.filled
  rw [stored]

end

section

variable {factory : ByteOrder} {received : Nat} {decoder : FrameDecoder Fields}

theorem holding_of_kept {kept : ChannelBuffer} (stored : decoder.cumulation = some kept)
    (growing : kept.IsDynamic factory) (bound : kept.writerIdx ≤ received) :
    decoder.Holding factory received := by
  constructor
  · intro cumulation found
    rw [stored] at found
    cases found
    exact growing
  · rw [filled_of_kept stored]
    exact bound

theorem Holding.unread_le
    (holding : decoder.Holding factory received) : decoder.unread.length ≤ received := by
  have filled := holding.filled
  cases stored : decoder.cumulation with
  | none =>
      unfold unread
      rw [stored]
      exact Nat.zero_le _
  | some cumulation =>
      have sound := (holding.dynamic cumulation stored).sound
      have size := sound.readable_length
      have start := sound.reader_nonneg
      rw [filled_of_kept stored] at filled
      rw [unread_of_kept stored]
      omega

theorem Holding.filled_nonneg (holding : decoder.Holding factory received) :
    0 ≤ decoder.filled := by
  cases stored : decoder.cumulation with
  | none =>
      have nothing : decoder.filled = 0 := by
        unfold FrameDecoder.filled
        simp only [stored]
      exact Int.le_of_eq nothing.symm
  | some cumulation =>
      have sound := (holding.dynamic cumulation stored).sound
      rw [filled_of_kept stored]
      exact Int.le_trans sound.reader_nonneg sound.reader_le_writer

end

section Delivery

variable {factory : ByteOrder} {received : Nat} {decoder : FrameDecoder Fields}
  {input : ChannelBuffer} {fired : List UpstreamEvent}

theorem getCumulation_run (input : ChannelBuffer) (fired : List UpstreamEvent)
    (holding : decoder.Holding factory received) :
    ∃ cumulation, (getCumulation factory).run ⟨decoder, input, fired⟩ =
        .ok cumulation ⟨{ decoder with cumulation := some cumulation }, input, fired⟩ ∧
      cumulation.IsDynamic factory ∧ cumulation.writerIdx = decoder.filled ∧
      cumulation.readableContent = decoder.unread := by
  cases stored : decoder.cumulation with
  | some cumulation =>
      refine ⟨cumulation, ?_, holding.dynamic cumulation stored, (filled_of_kept stored).symm, ?_⟩
      · unfold getCumulation
        rw [run_bind_get]
        simp only [stored]
        rw [← stored]
        rfl
      · unfold unread
        rw [stored]
  | none =>
      let cells : CharArray := List.replicate 256 0
      have size : cells.length = 256 := List.length_replicate
      have made : dynamicBuffer factory =
          .ok (.dynamic factory factory ⟨factory, cells, .zero⟩ .zero) := rfl
      refine ⟨.dynamic factory factory ⟨factory, cells, .zero⟩ .zero, ?_,
        ⟨_, _, rfl, ⟨8, by decide, size⟩, rfl, ?_⟩, ?_, ?_⟩
      · unfold getCumulation
        rw [run_bind_get]
        simp only [stored]
        rw [made, run_bind_ok _ (run_call_ok _ _)]
        rfl
      · exact ⟨Int.le_refl _, Int.le_refl _, Int.natCast_nonneg _⟩
      · unfold FrameDecoder.filled
        rw [stored]
        rfl
      · unfold unread
        rw [stored]
        rfl

variable {cumulation : ChannelBuffer}

/-- The cumulation takes the input in and the input is drained. -/
theorem cumulate_run (decoder : FrameDecoder Fields) (fired : List UpstreamEvent)
    (stored : decoder.cumulation = some cumulation)
    (growing : cumulation.IsDynamic factory) (sound : input.Sound) (present : input.readableContent ≠ [])
    (bounded : cumulation.writerIdx + input.readableContent.length ≤ 1073741824) :
    ∃ written, cumulate.run ⟨decoder, input, fired⟩ =
        .ok () ⟨{ decoder with cumulation := some written },
          input.advance input.readableContent.length, fired⟩ ∧
      written.IsDynamic factory ∧
      written.readableContent = cumulation.readableContent ++ input.readableContent ∧
      written.readerIdx = cumulation.readerIdx ∧
      written.writerIdx = cumulation.writerIdx + input.readableContent.length := by
  obtain ⟨written, wrote, growing', content, reader, writer⟩ :=
    BufferM.writeBytes_dynamic growing sound present bounded
  refine ⟨written, ?_, growing', content, reader, writer⟩
  have through : (onCumulation (onBuffer (BufferM.writeBytes input))).run
      (⟨decoder, input, fired⟩ : Reception Fields) =
      .ok (input.advance input.readableContent.length)
        ⟨{ decoder with cumulation := some written }, input, fired⟩ :=
    onCumulation_ok stored (onBuffer_ok wrote)
  unfold cumulate
  rw [run_bind_get]
  rw [run_bind_ok _ through]
  rfl

theorem cumulate_refused (decoder : FrameDecoder Fields) (fired : List UpstreamEvent)
    (stored : decoder.cumulation = some cumulation)
    (growing : cumulation.IsDynamic factory) (sound : input.Sound)
    (beyond : 1073741824 < cumulation.writerIdx + input.readableContent.length) :
    ∃ stop after, cumulate.run ⟨decoder, input, fired⟩ = .error stop after ∧
      BufferM.Refusal stop ∧ after.fired = fired := by
  obtain ⟨stop, written, refused, kind⟩ := BufferM.writeBytes_beyond growing sound beyond
  have through : (onCumulation (onBuffer (BufferM.writeBytes input))).run
      (⟨decoder, input, fired⟩ : Reception Fields) =
      .error stop ⟨{ decoder with cumulation := some written }, input, fired⟩ :=
    onCumulation_error stored (onBuffer_error refused)
  refine ⟨stop, ⟨{ decoder with cumulation := some written }, input, fired⟩, ?_, kind, rfl⟩
  unfold cumulate
  rw [run_bind_get]
  rw [run_bind_error _ through]

end Delivery

/-- The flag `messageReceived` copies out of the configuration. -/
def cumulating (decoder : FrameDecoder Fields) : FrameDecoder Fields :=
  { decoder with channelOwnBuffer := false }

section Paths

variable {decode : DecodeM Fields ChannelMessage} {config : ChannelConfig} {received fuel : Nat}
  {decoder : FrameDecoder Fields} {input : ChannelBuffer} {fired : List UpstreamEvent}

theorem receiveBuffer_unreadable (unreadable : input.readable = false) :
    (receiveBuffer decode config fuel).run ⟨decoder, input, fired⟩ =
      .ok () ⟨decoder, input, fired⟩ := by
  unfold receiveBuffer
  rw [run_bind_get]
  simp [unreadable]

/-- `receiveBuffer` behind the test of the cumulation. -/
theorem receiveBuffer_cumulating (own : config.channelOwnBuffer = false)
    (readable : input.readable = true) :
    (receiveBuffer decode config fuel).run ⟨decoder, input, fired⟩ = (do
      let cumulation ← getCumulation config.bufferFactory
      if cumulation.readable then
        onCumulation (onBuffer BufferM.discardReadBytes)
        cumulate
        onCumulation (callDecode decode decoder.unfold_ false fuel)
      else
        onInput (callDecode decode decoder.unfold_ false fuel)
        if (← get).input.readable then cumulate : Exec (Reception Fields) Unit).run
          ⟨decoder.cumulating, input, fired⟩ := by
  unfold receiveBuffer
  rw [run_bind_get]
  simp only [readable, own]
  rfl

/-- Nothing was kept: the loop runs on the input. -/
theorem receiveBuffer_direct (decode : DecodeM Fields ChannelMessage) (fuel : Nat)
    (fired : List UpstreamEvent) (own : config.channelOwnBuffer = false) (sound : input.Sound)
    (present : input.readableContent ≠ [])
    (holding : decoder.Holding config.bufferFactory received) (empty : decoder.unread = []) :
    ∃ cumulation, cumulation.IsDynamic config.bufferFactory ∧
      cumulation.writerIdx = decoder.filled ∧ cumulation.readableContent = [] ∧
      (receiveBuffer decode config fuel).run ⟨decoder, input, fired⟩ = (do
        onInput (callDecode decode decoder.unfold_ false fuel)
        if (← get).input.readable then cumulate : Exec (Reception Fields) Unit).run
          ⟨{ decoder.cumulating with cumulation := some cumulation }, input, fired⟩ := by
  have readable : input.readable = true := sound.readable_iff.mpr present
  have held : decoder.cumulating.Holding config.bufferFactory received :=
    ⟨holding.dynamic, holding.filled⟩
  obtain ⟨cumulation, got, growing, bound, content⟩ := getCumulation_run input fired held
  have nothing : cumulation.readableContent = [] := by
    rw [content]
    exact empty
  have unreadable : cumulation.readable = false :=
    growing.sound.readable_eq_false_iff.mpr nothing
  refine ⟨cumulation, growing, bound, nothing, ?_⟩
  rw [receiveBuffer_cumulating own readable, run_bind_ok _ got]
  simp only [unreadable]
  rw [if_neg Bool.false_ne_true]

/-- What the loop leaves of the input is written behind everything the cumulation has seen. -/
theorem receiveBuffer_stash {cumulation : ChannelBuffer} (after : DecodeContext Fields)
    (ran : (receiveBuffer decode config fuel).run ⟨decoder, input, fired⟩ = (do
      onInput (callDecode decode decoder.unfold_ false fuel)
      if (← get).input.readable then cumulate : Exec (Reception Fields) Unit).run
        ⟨{ decoder.cumulating with cumulation := some cumulation }, input, fired⟩)
    (looped : (callDecode decode decoder.unfold_ false fuel).run ⟨decoder.fields, input, fired⟩ =
      .ok () after) :
    (receiveBuffer decode config fuel).run ⟨decoder, input, fired⟩ =
      (if after.buffer.readable then cumulate else pure () : Exec (Reception Fields) Unit).run
        ⟨{ decoder.cumulating with
          fields := after.fields, cumulation := some cumulation }, after.buffer, after.fired⟩ := by
  have onto : (onInput (callDecode decode decoder.unfold_ false fuel)).run
      ⟨{ decoder.cumulating with cumulation := some cumulation }, input, fired⟩ =
      .ok () ⟨{ decoder.cumulating with
        fields := after.fields, cumulation := some cumulation }, after.buffer, after.fired⟩ :=
    onInput_ok looped
  rw [ran, run_bind_ok _ onto, run_bind_get]

/-- Something was kept: it is moved to the front and the input follows it. -/
theorem receiveBuffer_onto (decode : DecodeM Fields ChannelMessage) (fuel : Nat)
    (fired : List UpstreamEvent) (own : config.channelOwnBuffer = false) (sound : input.Sound)
    (present : input.readableContent ≠ [])
    (holding : decoder.Holding config.bufferFactory received) (kept : decoder.unread ≠ []) :
    ∃ cumulation, cumulation.IsDynamic config.bufferFactory ∧
      cumulation.readableContent = decoder.unread ∧
      cumulation.readerIdx = 0 ∧ cumulation.writerIdx = (decoder.unread.length : Int) ∧
      (receiveBuffer decode config fuel).run ⟨decoder, input, fired⟩ = (do
        cumulate
        onCumulation (callDecode decode decoder.unfold_ false fuel) :
          Exec (Reception Fields) Unit).run
          ⟨{ decoder.cumulating with cumulation := some cumulation }, input, fired⟩ := by
  have readable : input.readable = true := sound.readable_iff.mpr present
  have held : decoder.cumulating.Holding config.bufferFactory received :=
    ⟨holding.dynamic, holding.filled⟩
  obtain ⟨cumulation, got, growing, bound, content⟩ := getCumulation_run input fired held
  have same : cumulation.readableContent = decoder.unread := content
  have remains : cumulation.readable = true := by
    apply growing.sound.readable_iff.mpr
    rw [same]
    exact kept
  obtain ⟨moved, discarded, growing', content', reader, writer⟩ :=
    BufferM.discardReadBytes_dynamic growing
  have discards : (onCumulation (onBuffer BufferM.discardReadBytes)).run
      ⟨{ decoder.cumulating with cumulation := some cumulation }, input, fired⟩ =
      .ok () ⟨{ decoder.cumulating with cumulation := some moved }, input, fired⟩ :=
    onCumulation_ok rfl (onBuffer_ok discarded)
  refine ⟨moved, growing', content'.trans same, reader, ?_, ?_⟩
  · rw [writer, same]
  · rw [receiveBuffer_cumulating own readable, run_bind_ok _ got]
    simp only [remains, if_true]
    rw [run_bind_ok _ discards]

end Paths

end FrameDecoder

section Invariants

variable {Fields : Type} {decode : DecodeM Fields ChannelMessage}
  {invariant : Fields → List UpstreamEvent → Prop}

/-- An assertion about the subclass and the fired events that `decode` keeps, the
frame it returns counted as fired. -/
def DecodeKeeps (invariant : Fields → List UpstreamEvent → Prop)
    (decode : DecodeM Fields ChannelMessage) : Prop :=
  ∀ context, invariant context.fields context.fired →
    match decode.run context with
    | .ok frame after => invariant after.fields after.fired ∧
        (frame.isEmpty = false → ∀ unfold_,
          invariant after.fields (after.fired ++ unfolded unfold_ frame))
    | .error _ after => invariant after.fields after.fired

theorem decodeRound_keeps (keeps : DecodeKeeps invariant decode) (unfold_ : Bool) :
    Keeps (fun context => invariant context.fields context.fired)
      (decodeRound decode unfold_) := by
  intro context holds
  cases readable : context.buffer.readable with
  | false =>
      rw [decodeRound_unreadable readable]
      exact holds
  | true =>
      have outcome := keeps context holds
      cases decoded : decode.run context with
      | error stop after =>
          rw [decoded] at outcome
          rw [decodeRound_stops readable decoded]
          exact outcome
      | ok frame after =>
          rw [decoded] at outcome
          cases shown : frame.isEmpty with
          | true =>
              have nothing : frame = .empty := by
                cases frame with
                | empty => rfl
                | _ => cases shown
              rw [nothing] at decoded
              rw [decodeRound_empty readable decoded]
              exact outcome.1
          | false =>
              by_cases unmoved : context.buffer.readerIdx = after.buffer.readerIdx
              · rw [decodeRound_noProgress readable decoded shown unmoved]
                exact outcome.1
              · rw [decodeRound_fires readable decoded shown unmoved]
                exact outcome.2 shown unfold_

theorem onBuffer_keeps {Value : Type} (program : BufferM Value) :
    Keeps (fun context : DecodeContext Fields => invariant context.fields context.fired)
      (onBuffer program) :=
  Keeps.focus program (fun _ _ holds => holds)

theorem callDecode_keeps (keeps : DecodeKeeps invariant decode) (unfold_ own : Bool)
    (fuel : Nat) :
    Keeps (fun context => invariant context.fields context.fired)
      (callDecode decode unfold_ own fuel) := by
  induction fuel with
  | zero => exact Keeps.throw _
  | succ fuel ih =>
      unfold callDecode
      apply Keeps.bind (decodeRound_keeps keeps unfold_)
      intro again
      apply Keeps.ite
      · intro _
        exact ih
      · intro _
        apply Keeps.ite
        · intro _
          exact onBuffer_keeps _
        · intro _
          exact Keeps.pure _

namespace FrameDecoder

/-- The same assertion about a decoder and what it has fired during a delivery. -/
abbrev Held (invariant : Fields → List UpstreamEvent → Prop) (reception : Reception Fields) :
    Prop :=
  invariant reception.decoder.fields reception.fired

section

variable {Value : Type} {program : DecodeM Fields Value}
  (keeps : Keeps (fun context => invariant context.fields context.fired) program)

include keeps

theorem onInput_keeps :
    Keeps (Held invariant) (onInput program) :=
  Keeps.focus_on keeps (fun _ holds => holds) (fun _ _ _ holds => holds)

theorem onCumulation_keeps :
    Keeps (Held invariant) (onCumulation program) :=
  Keeps.focus_on keeps (fun _ holds => holds) (fun _ _ _ holds => holds)

end

theorem getCumulation_keeps (factory : ByteOrder) :
    Keeps (Held invariant) (getCumulation factory) := by
  apply Keeps.bind Keeps.get
  intro reception
  split
  · exact Keeps.pure _
  · apply Keeps.bind (Keeps.call _)
    intro cumulation
    refine Keeps.bind (Keeps.modify ?_) ?_
    · intro _ holds
      exact holds
    · intro _
      exact Keeps.pure _

theorem cumulate_keeps : Keeps (Held invariant) cumulate := by
  apply Keeps.bind Keeps.get
  intro reception
  apply Keeps.bind (onCumulation_keeps (onBuffer_keeps _))
  intro drained
  apply Keeps.modify
  intro _ holds
  exact holds

theorem receiveBuffer_keeps (keeps : DecodeKeeps invariant decode) (config : ChannelConfig)
    (fuel : Nat) : Keeps (Held invariant) (receiveBuffer decode config fuel) := by
  have loops := fun unfold_ own => callDecode_keeps keeps unfold_ own fuel
  apply Keeps.bind Keeps.get
  intro reception
  apply Keeps.ite
  · intro _
    refine Keeps.bind (Keeps.modify fun _ holds => ?_) ?_
    · exact holds
    intro _
    apply Keeps.bind Keeps.get
    intro reception
    apply Keeps.ite
    · intro _
      exact onInput_keeps (loops _ _)
    · intro _
      apply Keeps.bind (getCumulation_keeps _)
      intro cumulation
      apply Keeps.ite
      · intro _
        apply Keeps.bind (onCumulation_keeps (onBuffer_keeps _))
        intro _
        apply Keeps.bind cumulate_keeps
        intro _
        exact onCumulation_keeps (loops _ _)
      · intro _
        apply Keeps.bind (onInput_keeps (loops _ _))
        intro _
        apply Keeps.bind Keeps.get
        intro reception
        apply Keeps.ite
        · intro _
          exact cumulate_keeps
        · intro _
          exact Keeps.pure _
  · intro _
    exact Keeps.pure _

end FrameDecoder

end Invariants

namespace Handler

variable {Fields : Type} {decode : DecodeM Fields ChannelMessage} {config : ChannelConfig}
  {fuel received : Nat} {handler : Handler Fields} {input : ChannelBuffer}

theorem messageReceived_unreadable (unreadable : input.readable = false) :
    messageReceived decode config fuel handler (.buffer input) = .ok handler := by
  unfold messageReceived
  simp only [FrameDecoder.receiveBuffer_unreadable unreadable]

variable {reception : Reception Fields}

theorem messageReceived_ok (ran : (FrameDecoder.receiveBuffer decode config fuel).run
      ⟨handler.decoder, input, handler.fired⟩ = .ok () reception) :
    messageReceived decode config fuel handler (.buffer input) =
      .ok ⟨reception.decoder, reception.fired⟩ := by
  unfold messageReceived
  simp only [ran]

theorem messageReceived_thrown {exception : Exception}
    (ran : (FrameDecoder.receiveBuffer decode config fuel).run
      ⟨handler.decoder, input, handler.fired⟩ = .error (.thrown exception) reception) :
    messageReceived decode config fuel handler (.buffer input) =
      .ok ⟨reception.decoder, reception.fired ++ [.exceptionCaught exception]⟩ := by
  unfold messageReceived
  simp only [ran]

/-- The cumulation has no room: the run ends, or a range exception is all that follows. -/
def Refused (decode : DecodeM Fields ChannelMessage) (config : ChannelConfig) (fuel : Nat)
    (handler : Handler Fields) (input : ChannelBuffer) (fired : List UpstreamEvent) : Prop :=
  (∃ stop, messageReceived decode config fuel handler (.buffer input) = .error stop) ∨
    ∃ decoder, messageReceived decode config fuel handler (.buffer input) =
      .ok ⟨decoder, fired ++ [.exceptionCaught ⟨.range, ""⟩]⟩

theorem refused_of_refusal {stop : Stop}
    (ran : (FrameDecoder.receiveBuffer decode config fuel).run
      ⟨handler.decoder, input, handler.fired⟩ = .error stop reception)
    (kind : BufferM.Refusal stop) :
    Refused decode config fuel handler input reception.fired := by
  rcases kind with rfl | rfl | rfl
  · left
    refine ⟨.diverges, ?_⟩
    unfold messageReceived
    simp only [ran]
  · left
    refine ⟨.outOfBounds, ?_⟩
    unfold messageReceived
    simp only [ran]
  · right
    exact ⟨_, messageReceived_thrown ran⟩

/-- The unread bytes and the received ones fit into the cumulation; nothing is
asked when nothing is unread, the loop then runs on the input. -/
def Admits (handler : Handler Fields) (input : ChannelBuffer) : Prop :=
  handler.decoder.unread = [] ∨
    handler.decoder.unread.length + input.readableContent.length ≤ 1073741824

/-- What the loop leaves of an input it ran on fits into the cumulation. -/
def Stores (handler : Handler Fields) (left : List Byte) : Prop :=
  handler.decoder.unread ≠ [] ∨ left = [] ∨
    handler.decoder.filled + left.length ≤ 1073741824

/-- Where the decoding loop runs when `input` arrives: on the input itself if
nothing was kept, else on the cumulation, moved to its front. -/
structure LoopBuffer (config : ChannelConfig) (handler : Handler Fields)
    (input buffer : ChannelBuffer) : Prop where
  sound : buffer.Sound
  content : buffer.readableContent = handler.decoder.unread ++ input.readableContent
  place : handler.decoder.unread = [] ∧ buffer = input ∨
    handler.decoder.unread ≠ [] ∧ buffer.IsDynamic config.bufferFactory ∧ buffer.readerIdx = 0

/-- A loop run that ends on the repositioned buffer is a delivery that keeps the rest. -/
def Kept (decode : DecodeM Fields ChannelMessage) (config : ChannelConfig) (fuel received : Nat)
    (handler : Handler Fields) (input : ChannelBuffer) (after : DecodeContext Fields) : Prop :=
  ∃ decoder, messageReceived decode config fuel handler (.buffer input) =
      .ok ⟨decoder, after.fired⟩ ∧
    decoder.fields = after.fields ∧ decoder.unfold_ = handler.decoder.unfold_ ∧
    decoder.Holding config.bufferFactory (received + input.readableContent.length) ∧
    decoder.unread = after.buffer.readableContent

/-- What a run of the decoding loop makes of the delivery it is part of. -/
structure Delivers (decode : DecodeM Fields ChannelMessage) (config : ChannelConfig)
    (fuel received : Nat) (handler : Handler Fields) (input buffer : ChannelBuffer) : Prop where
  keeps : ∀ after, (callDecode decode handler.decoder.unfold_ false fuel).run
      ⟨handler.decoder.fields, buffer, handler.fired⟩ = .ok () after →
    buffer.Repositioned after.buffer → handler.Stores after.buffer.readableContent →
    Kept decode config fuel received handler input after
  refuses : ∀ after, (callDecode decode handler.decoder.unfold_ false fuel).run
      ⟨handler.decoder.fields, buffer, handler.fired⟩ = .ok () after →
    buffer.Repositioned after.buffer → ¬handler.Stores after.buffer.readableContent →
    Refused decode config fuel handler input after.fired
  raises : ∀ exception after, (callDecode decode handler.decoder.unfold_ false fuel).run
      ⟨handler.decoder.fields, buffer, handler.fired⟩ = .error (.thrown exception) after →
    ∃ decoder, messageReceived decode config fuel handler (.buffer input) =
        .ok ⟨decoder, after.fired ++ [.exceptionCaught exception]⟩ ∧
      decoder.fields = after.fields
  follows : ∀ next, messageReceived decode config fuel handler (.buffer input) = .ok next →
    (∃ after, (callDecode decode handler.decoder.unfold_ false fuel).run
        ⟨handler.decoder.fields, buffer, handler.fired⟩ = .ok () after ∧
      after.fired <+: next.fired) ∨
    ∃ stop after, (callDecode decode handler.decoder.unfold_ false fuel).run
        ⟨handler.decoder.fields, buffer, handler.fired⟩ = .error stop after ∧
      after.fired <+: next.fired

/-- Events fired before a delivery stops stay fired. -/
theorem prefix_of_stopped {stop : Stop} {next : Handler Fields}
    (delivered : messageReceived decode config fuel handler (.buffer input) = .ok next)
    (ran : (FrameDecoder.receiveBuffer decode config fuel).run
      ⟨handler.decoder, input, handler.fired⟩ = .error stop reception) :
    reception.fired <+: next.fired := by
  cases stop with
  | thrown exception =>
      rw [messageReceived_thrown ran] at delivered
      cases delivered
      exact List.prefix_append _ _
  | _ =>
      unfold messageReceived at delivered
      simp only [ran] at delivered
      cases delivered

theorem prefix_of_received {program : Exec (Reception Fields) Unit} {start : Reception Fields}
    {events : List UpstreamEvent} {next : Handler Fields}
    (delivered : messageReceived decode config fuel handler (.buffer input) = .ok next)
    (ran : (FrameDecoder.receiveBuffer decode config fuel).run
      ⟨handler.decoder, input, handler.fired⟩ = program.run start)
    (stays : Keeps (FrameDecoder.Held fun _ fired => events <+: fired) program)
    (begun : events <+: start.fired) : events <+: next.fired := by
  cases outcome : program.run start with
  | ok _ reception =>
      have kept := stays.after_ok begun outcome
      rw [outcome] at ran
      rw [messageReceived_ok ran] at delivered
      cases delivered
      exact kept
  | error stop reception =>
      have kept := stays.after_error begun outcome
      rw [outcome] at ran
      exact kept.trans (prefix_of_stopped delivered ran)

section Deliveries

variable (decode fuel) (own : config.channelOwnBuffer = false) (sound : input.Sound)
  (present : input.readableContent ≠ [])
  (holding : handler.decoder.Holding config.bufferFactory received)

include own sound present holding

/-- The delivery of a buffer to a decoder that kept nothing. -/
theorem delivers_direct (empty : handler.decoder.unread = []) :
    Delivers decode config fuel received handler input input := by
  obtain ⟨cumulation, growing, written, nothing, ran⟩ :=
    FrameDecoder.receiveBuffer_direct decode fuel handler.fired own sound present holding empty
  have filled := holding.filled
  have stash := fun after looped => FrameDecoder.receiveBuffer_stash after ran looped
  constructor
  · intro after looped moved stores
    have after_sound := sound.repositioned moved
    have shorter : after.buffer.readableContent.length ≤ input.readableContent.length := by
      obtain ⟨idx, _, _, _, shorter⟩ := moved
      exact shorter
    have received_run := stash after looped
    by_cases left : after.buffer.readableContent = []
    · have drained : after.buffer.readable = false := after_sound.readable_eq_false_iff.mpr left
      rw [drained, if_neg Bool.false_ne_true] at received_run
      refine ⟨_, messageReceived_ok received_run, rfl, rfl, ?_, ?_⟩
      · exact FrameDecoder.holding_of_kept rfl growing (by omega)
      · exact nothing.trans left.symm
    · have remains : after.buffer.readable = true := after_sound.readable_iff.mpr left
      have room : handler.decoder.filled + after.buffer.readableContent.length ≤ 1073741824 := by
        rcases stores with kept | blank | room
        · exact absurd empty kept
        · exact absurd blank left
        · exact room
      obtain ⟨stored, wrote, growing', content', -, writer⟩ := FrameDecoder.cumulate_run
        { handler.decoder.cumulating with fields := after.fields, cumulation := some cumulation }
        after.fired rfl growing after_sound left (by omega)
      rw [remains, if_pos rfl, wrote] at received_run
      refine ⟨_, messageReceived_ok received_run, rfl, rfl, ?_, ?_⟩
      · exact FrameDecoder.holding_of_kept rfl growing' (by omega)
      · rw [← List.nil_append after.buffer.readableContent, ← nothing]
        exact content'
  · intro after looped moved full
    have after_sound := sound.repositioned moved
    have left : after.buffer.readableContent ≠ [] := fun blank => full (Or.inr (Or.inl blank))
    have beyond : 1073741824 < handler.decoder.filled + after.buffer.readableContent.length := by
      apply Int.not_le.mp
      intro room
      exact full (Or.inr (Or.inr room))
    have remains : after.buffer.readable = true := after_sound.readable_iff.mpr left
    obtain ⟨stop, final, refused, kind, same⟩ := FrameDecoder.cumulate_refused
      { handler.decoder.cumulating with fields := after.fields, cumulation := some cumulation }
      after.fired rfl growing after_sound (by rw [written]; exact beyond)
    have received_run := stash after looped
    rw [remains, if_pos rfl, refused] at received_run
    rw [← same]
    exact refused_of_refusal received_run kind
  · intro exception after looped
    have onto : (FrameDecoder.onInput
        (callDecode decode handler.decoder.unfold_ false fuel)).run
        ⟨{ handler.decoder.cumulating with cumulation := some cumulation }, input,
          handler.fired⟩ =
        .error (.thrown exception) ⟨{ handler.decoder.cumulating with
          fields := after.fields, cumulation := some cumulation }, after.buffer, after.fired⟩ :=
      FrameDecoder.onInput_error looped
    rw [run_bind_error _ onto] at ran
    exact ⟨_, messageReceived_thrown ran, rfl⟩
  · intro next delivered
    cases looped : (callDecode decode handler.decoder.unfold_ false fuel).run
        ⟨handler.decoder.fields, input, handler.fired⟩ with
    | ok _ after =>
        left
        have stays : Keeps (FrameDecoder.Held fun _ fired => after.fired <+: fired)
            (if after.buffer.readable then FrameDecoder.cumulate else pure () :
              Exec (Reception Fields) Unit) := by
          apply Keeps.ite
          · intro _
            exact FrameDecoder.cumulate_keeps
          · intro _
            exact Keeps.pure _
        refine ⟨after, rfl, ?_⟩
        exact prefix_of_received delivered (stash after looped) stays (List.prefix_refl _)
    | error stop after =>
        right
        have onto : (FrameDecoder.onInput
            (callDecode decode handler.decoder.unfold_ false fuel)).run
            ⟨{ handler.decoder.cumulating with cumulation := some cumulation }, input,
              handler.fired⟩ =
            .error stop ⟨{ handler.decoder.cumulating with
              fields := after.fields, cumulation := some cumulation }, after.buffer,
              after.fired⟩ := FrameDecoder.onInput_error looped
        rw [run_bind_error _ onto] at ran
        exact ⟨stop, after, rfl, prefix_of_stopped delivered ran⟩

section

variable (kept : handler.decoder.unread ≠ [])
  (room : handler.decoder.unread.length + input.readableContent.length ≤ 1073741824)

include kept room

/-- The kept bytes are moved to the front, the input follows them and the loop runs on both. -/
theorem receiveBuffer_behind :
    ∃ stored drained, LoopBuffer config handler input stored ∧
      stored.IsDynamic config.bufferFactory ∧
      stored.writerIdx =
        (handler.decoder.unread.length : Int) + input.readableContent.length ∧
      (FrameDecoder.receiveBuffer decode config fuel).run
          ⟨handler.decoder, input, handler.fired⟩ =
        (FrameDecoder.onCumulation (callDecode decode handler.decoder.unfold_ false fuel)).run
          ⟨{ handler.decoder.cumulating with cumulation := some stored }, drained,
            handler.fired⟩ := by
  obtain ⟨cumulation, growing, content, reader, writer, ran⟩ :=
    FrameDecoder.receiveBuffer_onto decode fuel handler.fired own sound present holding kept
  obtain ⟨stored, wrote, growing', content', reader', writer'⟩ := FrameDecoder.cumulate_run
    { handler.decoder.cumulating with cumulation := some cumulation } handler.fired rfl growing
    sound present (by omega)
  rw [content] at content'
  rw [run_bind_ok _ wrote] at ran
  rw [writer] at writer'
  exact ⟨stored, _, ⟨growing'.sound, content', Or.inr ⟨kept, growing', by omega⟩⟩, growing',
    writer', ran⟩

/-- The delivery of a buffer to a decoder that kept something. -/
theorem delivers_onto :
    ∃ buffer, LoopBuffer config handler input buffer ∧
      Delivers decode config fuel received handler input buffer := by
  obtain ⟨stored, drained, loop, growing, writer, ran⟩ :=
    receiveBuffer_behind decode fuel own sound present holding kept room
  have unread := holding.unread_le
  refine ⟨stored, loop, ⟨?_, ?_, ?_, ?_⟩⟩
  · intro after looped moved _
    have received_run := ran.trans (FrameDecoder.onCumulation_ok rfl looped)
    refine ⟨_, messageReceived_ok received_run, rfl, rfl, ?_, rfl⟩
    have bound : after.buffer.writerIdx ≤ stored.writerIdx := by
      obtain ⟨idx, same, _, bound, _⟩ := moved
      rw [same, writerIdx_withIdx]
      exact bound
    exact FrameDecoder.holding_of_kept rfl (growing.repositioned moved) (by omega)
  · intro after _ _ full
    exact absurd (Or.inl kept) full
  · intro exception after looped
    have received_run := ran.trans (FrameDecoder.onCumulation_error rfl looped)
    exact ⟨_, messageReceived_thrown received_run, rfl⟩
  · intro next delivered
    cases looped : (callDecode decode handler.decoder.unfold_ false fuel).run
        ⟨handler.decoder.fields, stored, handler.fired⟩ with
    | ok _ after =>
        left
        have received_run := ran.trans (FrameDecoder.onCumulation_ok rfl looped)
        rw [messageReceived_ok received_run] at delivered
        cases delivered
        exact ⟨after, rfl, List.prefix_refl _⟩
    | error stop after =>
        right
        have received_run := ran.trans (FrameDecoder.onCumulation_error rfl looped)
        exact ⟨stop, after, rfl, prefix_of_stopped delivered received_run⟩

end

/-- Both paths at once. -/
theorem delivery (admits : handler.Admits input) :
    ∃ buffer, LoopBuffer config handler input buffer ∧
      Delivers decode config fuel received handler input buffer := by
  by_cases empty : handler.decoder.unread = []
  · refine ⟨input, ⟨sound, ?_, Or.inl ⟨empty, rfl⟩⟩, ?_⟩
    · rw [empty, List.nil_append]
    · exact delivers_direct decode fuel own sound present holding empty
  · rcases admits with blank | room
    · exact absurd blank empty
    · exact delivers_onto decode fuel own sound present holding empty room

/-- Without room for the input nothing is decoded. -/
theorem delivery_refused
    (full : ¬handler.Admits input) : Refused decode config fuel handler input handler.fired := by
  have kept : handler.decoder.unread ≠ [] := fun blank => full (Or.inl blank)
  have beyond : 1073741824 < handler.decoder.unread.length + input.readableContent.length := by
    apply Nat.not_le.mp
    intro room
    exact full (Or.inr room)
  obtain ⟨cumulation, growing, -, -, writer, ran⟩ :=
    FrameDecoder.receiveBuffer_onto decode fuel handler.fired own sound present holding kept
  obtain ⟨stop, final, refused, kind, same⟩ := FrameDecoder.cumulate_refused
    { handler.decoder.cumulating with cumulation := some cumulation } handler.fired rfl growing
    sound (by omega)
  rw [run_bind_error _ refused] at ran
  have received_run := refused_of_refusal ran kind
  rw [same] at received_run
  exact received_run

end Deliveries

/-- Below 2^30 bytes in all there is always room. -/
theorem admits_of_bounded (holding : handler.decoder.Holding config.bufferFactory received)
    (bounded : received + input.readableContent.length ≤ 1073741824) : handler.Admits input := by
  have unread := holding.unread_le
  right
  omega

theorem stores_of_bounded {buffer after : ChannelBuffer}
    (holding : handler.decoder.Holding config.bufferFactory received)
    (bounded : received + input.readableContent.length ≤ 1073741824)
    (loop : LoopBuffer config handler input buffer) (moved : buffer.Repositioned after) :
    handler.Stores after.readableContent := by
  have filled := holding.filled
  obtain ⟨idx, _, _, _, shorter⟩ := moved
  rcases loop.place with ⟨_, rfl⟩ | ⟨kept, _⟩
  · right
    right
    omega
  · exact Or.inl kept

end Handler

section Invariants

variable {Fields : Type} {decode : DecodeM Fields ChannelMessage}
  {invariant : Fields → List UpstreamEvent → Prop}

namespace Handler

section

variable (keeps : DecodeKeeps invariant decode)
  (raised : ∀ fields fired exception, invariant fields fired → invariant fields (fired ++
    [.exceptionCaught exception]))

include keeps raised

/-- The events a delivery adds may end in an exception, which the assertion must allow. -/
theorem messageReceived_keeps
    {config : ChannelConfig} {fuel : Nat} {handler next : Handler Fields} {input : ChannelBuffer}
    (holds : invariant handler.decoder.fields handler.fired)
    (ran : handler.messageReceived decode config fuel (.buffer input) = .ok next) :
    invariant next.decoder.fields next.fired := by
  have received := FrameDecoder.receiveBuffer_keeps keeps config fuel
    ⟨handler.decoder, input, handler.fired⟩ holds
  cases outcome : (FrameDecoder.receiveBuffer decode config fuel).run
      ⟨handler.decoder, input, handler.fired⟩ with
  | ok _ reception =>
      rw [outcome] at received
      rw [messageReceived_ok outcome] at ran
      cases ran
      exact received
  | error stop reception =>
      rw [outcome] at received
      cases stop with
      | thrown exception =>
          rw [messageReceived_thrown outcome] at ran
          cases ran
          exact raised _ _ _ received
      | _ =>
          unfold messageReceived at ran
          simp only [outcome] at ran
          cases ran

theorem receiveAll_keeps {config : ChannelConfig} {fuel : Nat} (received : List ChannelBuffer)
    {handler final : Handler Fields} (holds : invariant handler.decoder.fields handler.fired)
    (ran : handler.receiveAll decode config fuel received = .ok final) :
    invariant final.decoder.fields final.fired := by
  unfold receiveAll at ran
  induction received generalizing handler with
  | nil =>
      cases ran
      exact holds
  | cons input rest ih =>
      rw [List.foldlM_cons] at ran
      cases step : handler.messageReceived decode config fuel (.buffer input) with
      | error stop =>
          rw [step] at ran
          cases ran
      | ok next =>
          rw [step, ok_bind] at ran
          exact ih (messageReceived_keeps keeps raised holds step) ran

end

/-- A subclass that never takes back an event. -/
def Appends (decode : DecodeM Fields ChannelMessage) : Prop :=
  ∀ start : List UpstreamEvent, Keeps (fun context => start <+: context.fired) decode

theorem Appends.keeps (appends : Appends decode) (start : List UpstreamEvent) :
    DecodeKeeps (fun _ fired => start <+: fired) decode := by
  intro context begun
  cases decoded : decode.run context with
  | ok frame after =>
      have kept := (appends start).after_ok begun decoded
      refine ⟨kept, ?_⟩
      intro _ unfold_
      exact kept.trans (List.prefix_append _ _)
  | error stop after => exact (appends start).after_error begun decoded

/-- Events stay fired over a whole run. -/
theorem fired_stays (appends : Appends decode) {config : ChannelConfig} {fuel : Nat}
    (received : List ChannelBuffer) {handler final : Handler Fields}
    (ran : handler.receiveAll decode config fuel received = .ok final) :
    handler.fired <+: final.fired := by
  have raised : ∀ (_ : Fields) (fired : List UpstreamEvent) (exception : Exception),
      handler.fired <+: fired → handler.fired <+: fired ++ [.exceptionCaught exception] := by
    intro _ fired exception begun
    exact begun.trans (List.prefix_append _ _)
  exact receiveAll_keeps (appends.keeps handler.fired) raised received (List.prefix_refl _) ran

section

variable {config : ChannelConfig} {fuel : Nat}

variable {input : ChannelBuffer} {rest : List ChannelBuffer}

theorem receiveAll_cons {handler next : Handler Fields}
    (step : handler.messageReceived decode config fuel (.buffer input) = .ok next) :
    handler.receiveAll decode config fuel (input :: rest) =
      next.receiveAll decode config fuel rest := by
  unfold receiveAll
  rw [List.foldlM_cons, step, ok_bind]

theorem receiveAll_append {handler reached : Handler Fields}
    {front : List ChannelBuffer} (rest : List ChannelBuffer)
    (ran : handler.receiveAll decode config fuel front = .ok reached) :
    handler.receiveAll decode config fuel (front ++ rest) =
      reached.receiveAll decode config fuel rest := by
  unfold receiveAll at ran ⊢
  rw [List.foldlM_append, ran, ok_bind]

/-- The first step of a run that returns. -/
theorem receiveAll_step {handler final : Handler Fields}
    (ran : handler.receiveAll decode config fuel (input :: rest) = .ok final) :
    ∃ next, handler.messageReceived decode config fuel (.buffer input) = .ok next ∧
      next.receiveAll decode config fuel rest = .ok final := by
  cases step : handler.messageReceived decode config fuel (.buffer input) with
  | error stop =>
      unfold receiveAll at ran
      rw [List.foldlM_cons, step, error_bind] at ran
      cases ran
  | ok next =>
      rw [receiveAll_cons step] at ran
      exact ⟨next, rfl, ran⟩

end

end Handler

end Invariants

end Cetty
