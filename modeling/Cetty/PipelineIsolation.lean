import Cetty.FrameStream
import Cetty.LengthFieldFrameDecoder
import Cetty.DelimiterFrameDecoder

/-!
# Isolation of the channels

Every channel gets a pipeline with a clone of each handler of the prototype. A clone of its own is
touched by its own channel only. The fixed length decoder that all channels share answers an event
as a function of its parameters as long as it holds nothing back.
-/

namespace Cetty

inductive StatefulDecoder where
  | fixedLength (decoder : FrameDecoder FixedLengthFrameDecoder)
  | delimiterBased (decoder : FrameDecoder DelimiterBasedFrameDecoder)
  | lengthFieldBased (decoder : FrameDecoder LengthFieldBasedFrameDecoder)

namespace StatefulDecoder

/-- A decoder as its constructor leaves it. -/
def constructed {Fields : Type} (fields : Fields) : FrameDecoder Fields := ⟨false, false, none, fields⟩

variable {Fields : Type}

/-- What a frame decoder does with an event that arrives. -/
def handle (decode : DecodeM Fields ChannelMessage) (config : ChannelConfig) (fuel : Nat)
    (handler : Handler Fields) : UpstreamEvent → Except Stop (Handler Fields)
  | .messageReceived message => handler.messageReceived decode config fuel message
  | .exceptionCaught cause =>
      .ok { handler with fired := handler.fired ++ [.exceptionCaught cause] }

def handleAll (decode : DecodeM Fields ChannelMessage) (config : ChannelConfig) (fuel : Nat)
    (handler : Handler Fields) (events : List UpstreamEvent) : Except Stop (Handler Fields) :=
  events.foldlM (handle decode config fuel) handler

/-- The decoder after the events that reach it, and the events it has sent on. -/
def receive (config : ChannelConfig) (fuel : Nat) (events : List UpstreamEvent) :
    StatefulDecoder → Except Stop (StatefulDecoder × List UpstreamEvent)
  | fixedLength decoder => do
      let handler ← handleAll FixedLengthFrameDecoder.decode config fuel ⟨decoder, []⟩ events
      pure (fixedLength handler.decoder, handler.fired)
  | delimiterBased decoder => do
      let handler ← handleAll DelimiterBasedFrameDecoder.decode config fuel ⟨decoder, []⟩ events
      pure (delimiterBased handler.decoder, handler.fired)
  | lengthFieldBased decoder => do
      let handler ← handleAll LengthFieldBasedFrameDecoder.decode config fuel ⟨decoder, []⟩ events
      pure (lengthFieldBased handler.decoder, handler.fired)

/-- The decoders of one pipeline, the first one in front. -/
def passThrough (config : ChannelConfig) (fuel : Nat) :
    List StatefulDecoder → List UpstreamEvent →
      Except Stop (List StatefulDecoder × List UpstreamEvent)
  | [], events => pure ([], events)
  | decoder :: rest, events => do
      let (decoder, events) ← receive config fuel events decoder
      let (rest, events) ← passThrough config fuel rest events
      pure (decoder :: rest, events)

end StatefulDecoder

/-- A handler of the prototype in the pipelines of all channels. -/
inductive Slot where
  | shared (decoder : StatefulDecoder)
  | own (decoders : Nat → StatefulDecoder)

namespace Slot

def decoder (channel : Nat) : Slot → StatefulDecoder
  | shared decoder => decoder
  | own decoders => decoders channel

def put (channel : Nat) : Slot → StatefulDecoder → Slot
  | shared _, decoder => shared decoder
  | own decoders, decoder => own (Function.update decoders channel decoder)

end Slot

abbrev ClonedPipelines := List Slot

namespace ClonedPipelines

open StatefulDecoder LengthFieldBasedFrameDecoder

/-- The copy constructor leaves two fields as they were in memory. -/
def copyLengthField (decoder : LengthFieldBasedFrameDecoder) (memory : Uninitialised) :
    LengthFieldBasedFrameDecoder :=
  { decoder with
    tooLongFrameLength := memory.tooLongFrameLength
    bytesToDiscard := memory.bytesToDiscard }

/-- What `clone()` puts into the pipelines of all channels. -/
def clone (memory : Nat → Uninitialised) : StatefulDecoder → Except Stop Slot
  | fixedLength decoder => pure (.shared (fixedLength decoder))
  | delimiterBased decoder => do
      let fields ← DelimiterBasedFrameDecoder.make decoder.fields.maxFrameLength
        decoder.fields.stripDelimiter decoder.fields.delimiters
      pure (.own fun _ => delimiterBased (constructed fields))
  | lengthFieldBased decoder =>
      pure (.own fun channel =>
        lengthFieldBased (constructed (copyLengthField decoder.fields (memory channel))))

/-- The pipelines that `CloneChannelPipelineFactory` makes of a prototype. -/
def create : List StatefulDecoder → (Nat → Nat → Uninitialised) → Except Stop ClonedPipelines
  | [], _ => pure []
  | decoder :: rest, memory => do
      let slot ← clone (memory 0) decoder
      let slots ← create rest fun position => memory (position + 1)
      pure (slot :: slots)

def pipeline (pipelines : ClonedPipelines) (channel : Nat) : List StatefulDecoder :=
  pipelines.map (Slot.decoder channel)

def withPipeline (pipelines : ClonedPipelines) (channel : Nat) (decoders : List StatefulDecoder) :
    ClonedPipelines :=
  List.zipWith (Slot.put channel) pipelines decoders

/-- A message that a channel receives. -/
def deliver (config : ChannelConfig) (fuel : Nat) (pipelines : ClonedPipelines) (channel : Nat)
    (message : ChannelMessage) : Except Stop (ClonedPipelines × List UpstreamEvent) := do
  let (decoders, events) ← passThrough config fuel (pipelines.pipeline channel)
    [.messageReceived message]
  pure (pipelines.withPipeline channel decoders, events)

/-- What comes out of a delivery at the end of a pipeline: frames, or the end of the program. -/
abbrev Observation := Except Stop (List (List Byte))

def framesOf (events : List UpstreamEvent) : List (List Byte) :=
  events.filterMap UpstreamEvent.frameBytes

/-- The observations on one channel in a run of deliveries to all channels; there are none when
a delivery to another channel ends the program. -/
def observe (config : ChannelConfig) (fuel : Nat) (channel : Nat) :
    ClonedPipelines → List (Nat × ChannelMessage) → Option (List Observation)
  | _, [] => some []
  | pipelines, (receiver, message) :: rest =>
      match pipelines.deliver config fuel receiver message with
      | .error stop => if receiver = channel then some [.error stop] else none
      | .ok (next, events) =>
          if receiver = channel then
            (observe config fuel channel next rest).map (.ok (framesOf events) :: ·)
          else observe config fuel channel next rest

/-- The messages of a run that go to one channel. -/
def addressed (channel : Nat) (run : List (Nat × ChannelMessage)) : List ChannelMessage :=
  run.filterMap fun delivery => if delivery.1 = channel then some delivery.2 else none

/-- What is fired on a channel depends on what that channel receives only. -/
def Isolated (config : ChannelConfig) (prototype : List StatefulDecoder) : Prop :=
  ∀ memory pipelines, create prototype memory = .ok pipelines →
  ∀ fuel channel run run', addressed channel run = addressed channel run' →
  ∀ observed observed',
    observe config fuel channel pipelines run = some observed →
    observe config fuel channel pipelines run' = some observed' →
    observed = observed'

end ClonedPipelines

open MachineInt ByteWindow ChannelBuffer

namespace FixedLengthFrameDecoder

open StatefulDecoder

/-- The decoder never has to hold bytes back, and holds none. -/
def Settled (config : ChannelConfig) (decoder : FrameDecoder FixedLengthFrameDecoder) : Prop :=
  config.channelOwnBuffer = true ∨
    decoder.fields.frameLength = 1 ∧
      ∀ cumulation, decoder.cumulation = some cumulation → cumulation.readable = false

/-- The same decoder later on. -/
structure Succeeds (config : ChannelConfig)
    (before after : FrameDecoder FixedLengthFrameDecoder) : Prop where
  settled : Settled config after
  fields : after.fields = before.fields
  unfold_ : after.unfold_ = before.unfold_

variable {config : ChannelConfig}

theorem Succeeds.refl {decoder : FrameDecoder FixedLengthFrameDecoder}
    (settled : Settled config decoder) : Succeeds config decoder decoder :=
  ⟨settled, rfl, rfl⟩

theorem Succeeds.trans {first second third : FrameDecoder FixedLengthFrameDecoder}
    (earlier : Succeeds config first second) (later : Succeeds config second third) :
    Succeeds config first third :=
  ⟨later.settled, later.fields.trans earlier.fields, later.unfold_.trans earlier.unfold_⟩

/-- What a decoder that holds nothing back has fired after one more event. -/
def answer (config : ChannelConfig) (fuel : Nat) (fields : FixedLengthFrameDecoder)
    (unfold_ : Bool) (fired : List UpstreamEvent) :
    UpstreamEvent → Except Stop (List UpstreamEvent)
  | .messageReceived (.buffer input) =>
      if input.readable then
        match (callDecode decode unfold_ config.channelOwnBuffer fuel).run
            ⟨fields, input, fired⟩ with
        | .ok _ after => .ok after.fired
        | .error (.thrown exception) after => .ok (after.fired ++ [.exceptionCaught exception])
        | .error stop _ => .error stop
      else .ok fired
  | event => .ok (fired ++ [event])

theorem decode_keeps_fields (fields : FixedLengthFrameDecoder) :
    DecodeKeeps (fun held _ => held = fields) decode := by
  have keeps : Keeps (fun context : DecodeContext FixedLengthFrameDecoder =>
      context.fields = fields) decode := by
    apply Keeps.bind Keeps.get
    intro context
    apply Keeps.ite
    · intro _
      exact Keeps.pure _
    · intro _
      apply Keeps.bind (Keeps.call _)
      intro sub
      refine Keeps.bind (Keeps.focus _ fun _ _ holds => holds) ?_
      intro _
      exact Keeps.pure _
  intro context same
  cases decoded : decode.run context with
  | ok frame after =>
      have kept := keeps.after_ok same decoded
      exact ⟨kept, fun _ _ => kept⟩
  | error stop after => exact keeps.after_error same decoded

/-- Enough bytes for a frame are answered with one. -/
theorem decode_shows {context after : DecodeContext FixedLengthFrameDecoder}
    {frame : ChannelMessage} (long : ¬context.buffer.readableBytes < context.fields.frameLength)
    (decoded : decode.run context = .ok frame after) : frame.isEmpty = false := by
  unfold decode at decoded
  rw [run_bind_get] at decoded
  simp only at decoded
  rw [if_neg long] at decoded
  obtain ⟨sub, sliced, -, rest⟩ := ok_of_run_bind decoded
  obtain ⟨_, moved, -, returned⟩ := ok_of_run_bind rest
  cases returned
  rfl

theorem decodeRound_goes_on {unfold_ again : Bool}
    {context after : DecodeContext FixedLengthFrameDecoder}
    (readable : context.buffer.readable = true)
    (long : ¬context.buffer.readableBytes < context.fields.frameLength)
    (round : (decodeRound decode unfold_).run context = .ok again after) : again = true := by
  cases decoded : decode.run context with
  | error stop stopped =>
      rw [decodeRound_stops readable decoded] at round
      cases round
  | ok frame next =>
      have shown := decode_shows long decoded
      by_cases unmoved : context.buffer.readerIdx = next.buffer.readerIdx
      · rw [decodeRound_noProgress readable decoded shown unmoved] at round
        cases round
      · rw [decodeRound_fires readable decoded shown unmoved] at round
        cases round
        rfl

/-- A decoder of frames of one byte leaves nothing to be read. -/
theorem callDecode_exhausts (unfold_ : Bool) (fuel : Nat)
    {context after : DecodeContext FixedLengthFrameDecoder}
    (single : context.fields.frameLength = 1)
    (ran : (callDecode decode unfold_ false fuel).run context = .ok () after) :
    after.buffer.readable = false := by
  induction fuel generalizing context with
  | zero => cases ran
  | succ fuel ih =>
      cases readable : context.buffer.readable with
      | false =>
          rw [callDecode_unreadable readable] at ran
          cases ran
          exact readable
      | true =>
          have kept := decodeRound_keeps (decode_keeps_fields context.fields) unfold_ context rfl
          cases round : (decodeRound decode unfold_).run context with
          | error stop stopped =>
              rw [callDecode_stops round] at ran
              cases ran
          | ok again next =>
              rw [round] at kept
              have still : next.fields = context.fields := kept
              have present : 0 < context.buffer.readableBytes := by
                simpa [ChannelBuffer.readable] using readable
              have goes : again = true :=
                decodeRound_goes_on readable (by rw [single]; omega) round
              rw [goes] at round
              rw [callDecode_goes_on round] at ran
              refine ih ?_ ran
              rw [still]
              exact single

variable {config : ChannelConfig} {fuel : Nat}
  {decoder : FrameDecoder FixedLengthFrameDecoder} {input : ChannelBuffer}
  {fired : List UpstreamEvent}

/-- The cumulation of a decoder that holds nothing back is there and cannot be read. -/
theorem getCumulation_settled (decoder : FrameDecoder FixedLengthFrameDecoder)
    (config : ChannelConfig) (input : ChannelBuffer) (fired : List UpstreamEvent)
    (nothing : ∀ cumulation, decoder.cumulation = some cumulation → cumulation.readable = false) :
    ∃ cumulation, cumulation.readable = false ∧
      (FrameDecoder.getCumulation config.bufferFactory).run ⟨decoder, input, fired⟩ =
        .ok cumulation ⟨{ decoder with cumulation := some cumulation }, input, fired⟩ := by
  cases stored : decoder.cumulation with
  | some cumulation =>
      refine ⟨cumulation, nothing cumulation stored, ?_⟩
      unfold FrameDecoder.getCumulation
      rw [run_bind_get]
      simp only [stored]
      rw [← stored]
      rfl
  | none =>
      let cumulation : ChannelBuffer := .dynamic config.bufferFactory config.bufferFactory
        ⟨config.bufferFactory, List.replicate 256 0, .zero⟩ .zero
      have made : dynamicBuffer config.bufferFactory = .ok cumulation := rfl
      refine ⟨cumulation, rfl, ?_⟩
      unfold FrameDecoder.getCumulation
      rw [run_bind_get]
      simp only [stored]
      rw [made, run_bind_ok _ (run_call_ok _ _)]
      rfl

/-- A delivery is a run of the loop on what has been received; what comes after the loop does
nothing when the loop leaves nothing. -/
theorem receiveBuffer_settled (fuel : Nat) (fired : List UpstreamEvent)
    (settled : Settled config decoder) (readable : input.readable = true) :
    ∃ start rest, Succeeds config decoder start ∧
      (FrameDecoder.receiveBuffer decode config fuel).run ⟨decoder, input, fired⟩ =
        (FrameDecoder.onInput
          (callDecode decode decoder.unfold_ config.channelOwnBuffer fuel) >>= fun _ => rest).run
          ⟨start, input, fired⟩ ∧
      ∀ reception : Reception FixedLengthFrameDecoder,
        config.channelOwnBuffer = true ∨ reception.input.readable = false →
        rest.run reception = .ok () reception := by
  cases own : config.channelOwnBuffer with
  | true =>
      refine ⟨{ decoder with channelOwnBuffer := true }, pure (), ⟨Or.inl own, rfl, rfl⟩, ?_, ?_⟩
      · unfold FrameDecoder.receiveBuffer
        rw [run_bind_get, bind_pure_unit]
        simp only [readable, own]
        rfl
      · intro reception _
        rfl
  | false =>
      obtain ⟨single, nothing⟩ : decoder.fields.frameLength = 1 ∧
          ∀ cumulation, decoder.cumulation = some cumulation → cumulation.readable = false := by
        rcases settled with yes | unheld
        · rw [own] at yes
          cases yes
        · exact unheld
      obtain ⟨cumulation, unreadable, got⟩ :=
        getCumulation_settled decoder.cumulating config input fired nothing
      let stash : Exec (Reception FixedLengthFrameDecoder) Unit := do
        if (← get).input.readable then FrameDecoder.cumulate
      refine ⟨{ decoder.cumulating with cumulation := some cumulation }, stash, ?_, ?_, ?_⟩
      · refine ⟨Or.inr ⟨single, ?_⟩, rfl, rfl⟩
        intro other stored
        cases stored
        exact unreadable
      · rw [FrameDecoder.receiveBuffer_cumulating own readable, run_bind_ok _ got]
        simp only [unreadable]
        rw [if_neg Bool.false_ne_true]
      · intro reception drained
        rcases drained with yes | drained
        · cases yes
        · show (EStateM.run (do if (← get).input.readable then FrameDecoder.cumulate) _) = _
          rw [run_bind_get]
          simp only [drained]
          rfl

/-- The fields are the same after the loop. -/
theorem Succeeds.same_fields {start : FrameDecoder FixedLengthFrameDecoder}
    {fields : FixedLengthFrameDecoder} (later : Succeeds config decoder start)
    (still : fields = decoder.fields) : Succeeds config decoder { start with fields := fields } := by
  have same : { start with fields := fields } = start := by
    rw [still, ← later.fields]
  rw [same]
  exact later

section

variable (settled : Settled config decoder) (readable : input.readable = true)

include settled readable

theorem receiveBuffer_answers {after : DecodeContext FixedLengthFrameDecoder}
    (ran : (callDecode decode decoder.unfold_ config.channelOwnBuffer fuel).run
      ⟨decoder.fields, input, fired⟩ = .ok () after) :
    ∃ reception, (FrameDecoder.receiveBuffer decode config fuel).run ⟨decoder, input, fired⟩ =
        .ok () reception ∧
      reception.fired = after.fired ∧ Succeeds config decoder reception.decoder := by
  have still : after.fields = decoder.fields :=
    (callDecode_keeps (decode_keeps_fields decoder.fields) decoder.unfold_
      config.channelOwnBuffer fuel).after_ok rfl ran
  obtain ⟨start, rest, later, received, ends⟩ :=
    receiveBuffer_settled fuel fired settled readable
  have drained : config.channelOwnBuffer = true ∨ after.buffer.readable = false := by
    rcases settled with own | ⟨single, -⟩
    · exact Or.inl own
    · cases own : config.channelOwnBuffer with
      | true => exact Or.inl rfl
      | false =>
          rw [own] at ran
          exact Or.inr (callDecode_exhausts decoder.unfold_ fuel single ran)
  rw [← later.fields] at ran
  have looped := FrameDecoder.onInput_ok ran
  have ended := ends ⟨{ start with fields := after.fields }, after.buffer, after.fired⟩ drained
  rw [run_bind_ok _ looped, ended] at received
  exact ⟨_, received, rfl, later.same_fields still⟩

theorem receiveBuffer_stops {stop : Stop}
    {after : DecodeContext FixedLengthFrameDecoder}
    (ran : (callDecode decode decoder.unfold_ config.channelOwnBuffer fuel).run
      ⟨decoder.fields, input, fired⟩ = .error stop after) :
    ∃ reception, (FrameDecoder.receiveBuffer decode config fuel).run ⟨decoder, input, fired⟩ =
        .error stop reception ∧
      reception.fired = after.fired ∧ Succeeds config decoder reception.decoder := by
  have still : after.fields = decoder.fields :=
    (callDecode_keeps (decode_keeps_fields decoder.fields) decoder.unfold_
      config.channelOwnBuffer fuel).after_error rfl ran
  obtain ⟨start, rest, later, received, -⟩ := receiveBuffer_settled fuel fired settled readable
  rw [← later.fields] at ran
  have looped := FrameDecoder.onInput_error ran
  rw [run_bind_error _ looped] at received
  exact ⟨_, received, rfl, later.same_fields still⟩

end

/-- The decoder answers as its parameters say, whatever it has received before. -/
theorem handle_settled (fuel : Nat) (fired : List UpstreamEvent)
    (settled : Settled config decoder) (event : UpstreamEvent) :
    ∃ later, Succeeds config decoder later ∧
      handle decode config fuel ⟨decoder, fired⟩ event =
        (answer config fuel decoder.fields decoder.unfold_ fired event).map (⟨later, ·⟩) := by
  cases event with
  | exceptionCaught cause => exact ⟨decoder, .refl settled, rfl⟩
  | messageReceived message =>
      cases message with
      | empty => exact ⟨decoder, .refl settled, rfl⟩
      | vector messages => exact ⟨decoder, .refl settled, rfl⟩
      | object identity => exact ⟨decoder, .refl settled, rfl⟩
      | buffer input =>
          show ∃ later, Succeeds config decoder later ∧
            Handler.messageReceived decode config fuel ⟨decoder, fired⟩ (.buffer input) = _
          cases readable : input.readable with
          | false =>
              refine ⟨decoder, .refl settled, ?_⟩
              rw [Handler.messageReceived_unreadable readable]
              unfold answer
              simp only [readable]
              rfl
          | true =>
              unfold answer
              simp only [readable, if_true]
              cases ran : (callDecode decode decoder.unfold_ config.channelOwnBuffer fuel).run
                  ⟨decoder.fields, input, fired⟩ with
              | ok _ after =>
                  obtain ⟨reception, received, same, later⟩ :=
                    receiveBuffer_answers settled readable ran
                  refine ⟨reception.decoder, later, ?_⟩
                  rw [Handler.messageReceived_ok received, same]
                  rfl
              | error stop after =>
                  obtain ⟨reception, received, same, later⟩ :=
                    receiveBuffer_stops settled readable ran
                  refine ⟨reception.decoder, later, ?_⟩
                  cases stop with
                  | thrown exception =>
                      rw [Handler.messageReceived_thrown received, same]
                      rfl
                  | _ =>
                      unfold Handler.messageReceived
                      simp only [received]
                      rfl

/-- The answers to several events. -/
def answers (config : ChannelConfig) (fuel : Nat) (fields : FixedLengthFrameDecoder)
    (unfold_ : Bool) (fired events : List UpstreamEvent) : Except Stop (List UpstreamEvent) :=
  events.foldlM (answer config fuel fields unfold_) fired

theorem handleAll_settled (fuel : Nat) (fired : List UpstreamEvent)
    (settled : Settled config decoder) (events : List UpstreamEvent) :
    ∃ later, Succeeds config decoder later ∧
      handleAll decode config fuel ⟨decoder, fired⟩ events =
        (answers config fuel decoder.fields decoder.unfold_ fired events).map (⟨later, ·⟩) := by
  induction events generalizing decoder fired with
  | nil => exact ⟨decoder, .refl settled, rfl⟩
  | cons event rest ih =>
      obtain ⟨next, step, handled⟩ := handle_settled fuel fired settled event
      unfold handleAll answers
      rw [List.foldlM_cons, List.foldlM_cons, handled]
      cases answered : answer config fuel decoder.fields decoder.unfold_ fired event with
      | error stop => exact ⟨decoder, .refl settled, rfl⟩
      | ok sent =>
          obtain ⟨later, steps, handled'⟩ := ih sent step.settled
          refine ⟨later, step.trans steps, ?_⟩
          rw [step.fields, step.unfold_] at handled'
          exact handled'

end FixedLengthFrameDecoder

namespace StatefulDecoder

open FixedLengthFrameDecoder (Succeeds)

/-- Decoders that cannot be told apart. -/
inductive Alike (config : ChannelConfig) : StatefulDecoder → StatefulDecoder → Prop where
  | same (decoder : StatefulDecoder) : Alike config decoder decoder
  | settled {first second : FrameDecoder FixedLengthFrameDecoder}
      (left : FixedLengthFrameDecoder.Settled config first)
      (right : FixedLengthFrameDecoder.Settled config second)
      (fields : first.fields = second.fields)
      (unfold_ : first.unfold_ = second.unfold_) :
      Alike config (fixedLength first) (fixedLength second)

variable {config : ChannelConfig} {fuel : Nat}

theorem alike_of_succeeds {before after : FrameDecoder FixedLengthFrameDecoder}
    (settled : FixedLengthFrameDecoder.Settled config before)
    (later : Succeeds config before after) :
    Alike config (fixedLength before) (fixedLength after) :=
  .settled settled later.settled later.fields.symm later.unfold_.symm

theorem receive_fixedLength (fuel : Nat) {decoder : FrameDecoder FixedLengthFrameDecoder}
    (settled : FixedLengthFrameDecoder.Settled config decoder) (events : List UpstreamEvent) :
    ∃ later, Succeeds config decoder later ∧
      receive config fuel events (fixedLength decoder) =
        (FixedLengthFrameDecoder.answers config fuel decoder.fields decoder.unfold_ [] events).map
          (fixedLength later, ·) := by
  obtain ⟨later, steps, handled⟩ :=
    FixedLengthFrameDecoder.handleAll_settled fuel [] settled events
  refine ⟨later, steps, ?_⟩
  show (handleAll FixedLengthFrameDecoder.decode config fuel ⟨decoder, []⟩ events >>=
    fun handler => pure (fixedLength handler.decoder, handler.fired)) = _
  rw [handled]
  cases FixedLengthFrameDecoder.answers config fuel decoder.fields decoder.unfold_ [] events with
  | error stop => rfl
  | ok fired => rfl

/-- A settled decoder stays settled. -/
theorem receive_settled {decoder : FrameDecoder FixedLengthFrameDecoder}
    (settled : FixedLengthFrameDecoder.Settled config decoder) {events sent : List UpstreamEvent}
    {next : StatefulDecoder}
    (ran : receive config fuel events (fixedLength decoder) = .ok (next, sent)) :
    ∃ later, Succeeds config decoder later ∧ next = fixedLength later := by
  obtain ⟨later, steps, received⟩ := receive_fixedLength fuel settled events
  rw [received] at ran
  cases answered : FixedLengthFrameDecoder.answers config fuel decoder.fields decoder.unfold_ []
      events with
  | error stop =>
      rw [answered] at ran
      cases ran
  | ok fired =>
      rw [answered] at ran
      cases ran
      exact ⟨later, steps, rfl⟩

theorem receive_alike (fuel : Nat) {first second : StatefulDecoder} (alike : Alike config first second)
    (events : List UpstreamEvent) :
    (∃ stop, receive config fuel events first = .error stop ∧
      receive config fuel events second = .error stop) ∨
    ∃ next next' sent, receive config fuel events first = .ok (next, sent) ∧
      receive config fuel events second = .ok (next', sent) ∧ Alike config next next' := by
  cases alike with
  | same =>
      cases ran : receive config fuel events first with
      | error stop => exact Or.inl ⟨stop, rfl, rfl⟩
      | ok outcome => exact Or.inr ⟨outcome.1, outcome.1, outcome.2, rfl, rfl, .same _⟩
  | @settled left right settled settled' fields unfold_ =>
      obtain ⟨later, steps, received⟩ := receive_fixedLength fuel settled events
      obtain ⟨later', steps', received'⟩ := receive_fixedLength fuel settled' events
      rw [← fields, ← unfold_] at received'
      rw [received, received']
      cases answered : FixedLengthFrameDecoder.answers config fuel left.fields left.unfold_ []
          events with
      | error stop => exact Or.inl ⟨stop, rfl, rfl⟩
      | ok fired =>
          refine Or.inr ⟨fixedLength later, fixedLength later', fired, rfl, rfl, ?_⟩
          refine .settled steps.settled steps'.settled ?_ ?_
          · rw [steps.fields, steps'.fields, fields]
          · rw [steps.unfold_, steps'.unfold_, unfold_]

/-- Pipelines that cannot be told apart answer alike, and stay so. -/
theorem passThrough_alike (fuel : Nat) {decoders decoders' : List StatefulDecoder}
    (alike : List.Forall₂ (Alike config) decoders decoders') (events : List UpstreamEvent) :
    (∃ stop, passThrough config fuel decoders events = .error stop ∧
      passThrough config fuel decoders' events = .error stop) ∨
    ∃ next next' sent, passThrough config fuel decoders events = .ok (next, sent) ∧
      passThrough config fuel decoders' events = .ok (next', sent) ∧
      List.Forall₂ (Alike config) next next' := by
  induction alike generalizing events with
  | nil => exact Or.inr ⟨[], [], events, rfl, rfl, .nil⟩
  | cons here _ ih =>
      unfold passThrough
      rcases receive_alike fuel here events with
        ⟨stop, ran, ran'⟩ | ⟨next, next', sent, ran, ran', still⟩
      · rw [ran, ran']
        exact Or.inl ⟨stop, rfl, rfl⟩
      · rw [ran, ran', ok_bind, ok_bind]
        rcases ih sent with ⟨stop, passed, passed'⟩ | ⟨rest, rest', sent', passed, passed', stay⟩
        · dsimp only
          rw [passed, passed']
          exact Or.inl ⟨stop, rfl, rfl⟩
        · dsimp only
          rw [passed, passed']
          exact Or.inr ⟨_, _, sent', rfl, rfl, .cons still stay⟩

/-- One decoder after the other. -/
theorem passThrough_cons {decoder : StatefulDecoder} {rest after : List StatefulDecoder}
    {events sent : List UpstreamEvent}
    (ran : passThrough config fuel (decoder :: rest) events = .ok (after, sent)) :
    ∃ next between later, receive config fuel events decoder = .ok (next, between) ∧
      passThrough config fuel rest between = .ok (later, sent) ∧ after = next :: later := by
  unfold passThrough at ran
  obtain ⟨⟨next, between⟩, received, passed⟩ := ok_of_bind ran
  obtain ⟨⟨later, sent'⟩, passed', returned⟩ := ok_of_bind passed
  cases returned
  exact ⟨next, between, later, received, passed', rfl⟩

end StatefulDecoder

namespace ClonedPipelines

open StatefulDecoder

variable {config : ChannelConfig} {fuel : Nat}

/-- What the channels share does not remember anything. -/
def Forgetful (config : ChannelConfig) : Slot → Prop
  | .shared decoder =>
      ∃ fixed, decoder = fixedLength fixed ∧ FixedLengthFrameDecoder.Settled config fixed
  | .own _ => True

theorem passThrough_length {decoders after : List StatefulDecoder}
    {events sent : List UpstreamEvent}
    (ran : passThrough config fuel decoders events = .ok (after, sent)) :
    after.length = decoders.length := by
  induction decoders generalizing after events with
  | nil =>
      cases ran
      rfl
  | cons decoder rest ih =>
      obtain ⟨next, between, later, -, passed, rfl⟩ := passThrough_cons ran
      rw [List.length_cons, List.length_cons, ih passed]

section

variable {pipelines : ClonedPipelines}

/-- The receiving channel has its new pipeline. -/
theorem pipeline_withPipeline (channel : Nat)
    {decoders : List StatefulDecoder} (fits : decoders.length = pipelines.length) :
    (pipelines.withPipeline channel decoders).pipeline channel = decoders := by
  unfold withPipeline pipeline
  induction pipelines generalizing decoders with
  | nil =>
      cases decoders with
      | nil => rfl
      | cons _ _ => cases fits
  | cons slot rest ih =>
      cases decoders with
      | nil => cases fits
      | cons decoder later =>
          have shown : (slot.put channel decoder).decoder channel = decoder := by
            cases slot with
            | shared _ => rfl
            | own decoders => exact Function.update_self ..
          rw [List.zipWith_cons_cons, List.map_cons, shown, ih (Nat.succ.inj fits)]

/-- The other channels have the pipelines they had, as far as they can tell. -/
theorem pipeline_elsewhere {receiver channel : Nat}
    (elsewhere : receiver ≠ channel) (forgetful : ∀ slot ∈ pipelines, Forgetful config slot)
    {after : List StatefulDecoder} {events sent : List UpstreamEvent}
    (ran : passThrough config fuel (pipelines.pipeline receiver) events = .ok (after, sent)) :
    List.Forall₂ (Alike config) (pipelines.pipeline channel)
      ((pipelines.withPipeline receiver after).pipeline channel) := by
  unfold withPipeline
  unfold pipeline at ran ⊢
  induction pipelines generalizing after events with
  | nil => exact .nil
  | cons slot rest ih =>
      rw [List.map_cons] at ran
      obtain ⟨next, between, later, received, passed, rfl⟩ := passThrough_cons ran
      rw [List.zipWith_cons_cons, List.map_cons, List.map_cons]
      refine .cons ?_ (ih (fun slot member => forgetful slot (List.mem_cons_of_mem _ member)) passed)
      have here := forgetful slot List.mem_cons_self
      cases slot with
      | shared decoder =>
          obtain ⟨fixed, rfl, settled⟩ := here
          obtain ⟨final, steps, rfl⟩ := receive_settled settled received
          exact alike_of_succeeds settled steps
      | own decoders =>
          show Alike config (decoders channel) (Function.update decoders receiver next channel)
          rw [Function.update_of_ne elsewhere.symm]
          exact .same _

theorem forgetful_withPipeline (receiver : Nat)
    (forgetful : ∀ slot ∈ pipelines, Forgetful config slot)
    {after : List StatefulDecoder} {events sent : List UpstreamEvent}
    (ran : passThrough config fuel (pipelines.pipeline receiver) events = .ok (after, sent)) :
    ∀ slot ∈ pipelines.withPipeline receiver after, Forgetful config slot := by
  unfold withPipeline
  unfold pipeline at ran
  induction pipelines generalizing after events with
  | nil =>
      intro slot member
      cases member
  | cons slot rest ih =>
      rw [List.map_cons] at ran
      obtain ⟨next, between, later, received, passed, rfl⟩ := passThrough_cons ran
      rw [List.zipWith_cons_cons]
      intro other member
      rcases List.mem_cons.mp member with rfl | behind
      · have here := forgetful slot List.mem_cons_self
        cases slot with
        | shared decoder =>
            obtain ⟨fixed, rfl, settled⟩ := here
            obtain ⟨final, steps, rfl⟩ := receive_settled settled received
            exact ⟨final, rfl, steps.settled⟩
        | own decoders => exact trivial
      · exact ih (fun slot member => forgetful slot (List.mem_cons_of_mem _ member)) passed other
          behind

end

/-- What a channel with a pipeline of its own would fire. -/
def alone (config : ChannelConfig) (fuel : Nat) :
    List StatefulDecoder → List ChannelMessage → List Observation
  | _, [] => []
  | decoders, message :: rest =>
      match passThrough config fuel decoders [.messageReceived message] with
      | .error stop => [.error stop]
      | .ok (next, events) => .ok (framesOf events) :: alone config fuel next rest

theorem alone_alike {decoders decoders' : List StatefulDecoder}
    (alike : List.Forall₂ (Alike config) decoders decoders') (messages : List ChannelMessage) :
    alone config fuel decoders messages = alone config fuel decoders' messages := by
  induction messages generalizing decoders decoders' with
  | nil => rfl
  | cons message rest ih =>
      unfold alone
      rcases passThrough_alike fuel alike [.messageReceived message] with
        ⟨stop, ran, ran'⟩ | ⟨next, next', sent, ran, ran', still⟩
      · rw [ran, ran']
      · rw [ran, ran']
        dsimp only
        rw [ih still]

section Observations

variable {pipelines next : ClonedPipelines} {receiver channel : Nat} {message : ChannelMessage}
  {rest : List (Nat × ChannelMessage)} {events : List UpstreamEvent} {stop : Stop}

theorem addressed_here (channel : Nat) (message : ChannelMessage)
    (rest : List (Nat × ChannelMessage)) :
    addressed channel ((channel, message) :: rest) = message :: addressed channel rest := by
  unfold addressed
  rw [List.filterMap_cons]
  simp only [if_true]

theorem addressed_elsewhere (elsewhere : receiver ≠ channel) (message : ChannelMessage)
    (rest : List (Nat × ChannelMessage)) :
    addressed channel ((receiver, message) :: rest) = addressed channel rest := by
  unfold addressed
  rw [List.filterMap_cons]
  simp only [elsewhere, if_false]

theorem observe_here (ran : pipelines.deliver config fuel channel message = .ok (next, events)) :
    observe config fuel channel pipelines ((channel, message) :: rest) =
      (observe config fuel channel next rest).map (.ok (framesOf events) :: ·) := by
  conv_lhs => unfold observe
  rw [ran]
  simp only [if_true]

theorem observe_elsewhere (elsewhere : receiver ≠ channel)
    (ran : pipelines.deliver config fuel receiver message = .ok (next, events)) :
    observe config fuel channel pipelines ((receiver, message) :: rest) =
      observe config fuel channel next rest := by
  conv_lhs => unfold observe
  rw [ran]
  simp only [elsewhere, if_false]

theorem observe_stops (ran : pipelines.deliver config fuel receiver message = .error stop) :
    observe config fuel channel pipelines ((receiver, message) :: rest) =
      if receiver = channel then some [.error stop] else none := by
  unfold observe
  rw [ran]

theorem deliver_stops (ran : passThrough config fuel (pipelines.pipeline receiver)
    [.messageReceived message] = .error stop) :
    pipelines.deliver config fuel receiver message = .error stop := by
  unfold deliver
  rw [ran, error_bind]

theorem deliver_ok {after : List StatefulDecoder}
    (ran : passThrough config fuel (pipelines.pipeline receiver) [.messageReceived message] =
      .ok (after, events)) :
    pipelines.deliver config fuel receiver message =
      .ok (pipelines.withPipeline receiver after, events) := by
  unfold deliver
  rw [ran, ok_bind]
  rfl

end Observations

variable {pipelines : ClonedPipelines} {prototype : List StatefulDecoder}

/-- Among others, a channel fires what it would fire alone. -/
theorem observe_alone (channel : Nat) (run : List (Nat × ChannelMessage))
    (forgetful : ∀ slot ∈ pipelines, Forgetful config slot)
    {observed : List Observation}
    (seen : observe config fuel channel pipelines run = some observed) :
    observed = alone config fuel (pipelines.pipeline channel) (addressed channel run) := by
  induction run generalizing pipelines observed with
  | nil =>
      cases seen
      rfl
  | cons delivery rest ih =>
      obtain ⟨receiver, message⟩ := delivery
      cases ran : passThrough config fuel (pipelines.pipeline receiver)
          [.messageReceived message] with
      | error stop =>
          rw [observe_stops (deliver_stops ran)] at seen
          by_cases here : receiver = channel
          · subst here
            rw [if_pos rfl] at seen
            cases seen
            rw [addressed_here]
            unfold alone
            rw [ran]
          · rw [if_neg here] at seen
            cases seen
      | ok outcome =>
          obtain ⟨after, sent⟩ := outcome
          have later := forgetful_withPipeline receiver forgetful ran
          by_cases here : receiver = channel
          · subst here
            rw [observe_here (deliver_ok ran)] at seen
            obtain ⟨further, seen', rfl⟩ := Option.map_eq_some_iff.mp seen
            have kept := ih later seen'
            have fits : after.length = pipelines.length := by
              rw [passThrough_length ran]
              exact List.length_map ..
            rw [pipeline_withPipeline receiver fits] at kept
            rw [addressed_here, kept]
            conv_rhs => unfold alone
            rw [ran]
          · rw [observe_elsewhere here (deliver_ok ran)] at seen
            rw [addressed_elsewhere here, ih later seen]
            exact (alone_alike (pipeline_elsewhere here forgetful ran) _).symm

/-- Every decoder keeps its bytes to itself or keeps none. -/
def Separated (config : ChannelConfig) (prototype : List StatefulDecoder) : Prop :=
  config.channelOwnBuffer = true ∨
    ∀ decoder, fixedLength decoder ∈ prototype → decoder.fields.frameLength = 1

/-- A handler of the prototype has been constructed and has received nothing. -/
inductive Constructed : StatefulDecoder → Prop where
  | fixedLength {frameLength : Int} {fields : FixedLengthFrameDecoder}
      (bounded : frameLength ≤ maxInt)
      (made : FixedLengthFrameDecoder.make frameLength = .ok fields) :
      Constructed (.fixedLength (constructed fields))
  | delimiterBased {maxFrameLength : Int} {stripDelimiter : Bool}
      {delimiters : List ChannelBuffer} {fields : DelimiterBasedFrameDecoder}
      (made : DelimiterBasedFrameDecoder.make maxFrameLength stripDelimiter delimiters =
        .ok fields) :
      Constructed (.delimiterBased (constructed fields))
  | lengthFieldBased {maxFrameLength lengthFieldOffset lengthFieldLength lengthAdjustment
      initialBytesToStrip : Int} {memory : LengthFieldBasedFrameDecoder.Uninitialised}
      {fields : LengthFieldBasedFrameDecoder}
      (made : LengthFieldBasedFrameDecoder.make maxFrameLength lengthFieldOffset lengthFieldLength
        lengthAdjustment initialBytesToStrip memory = .ok fields) :
      Constructed (.lengthFieldBased (constructed fields))

theorem create_forgetful {memory : Nat → Nat → LengthFieldBasedFrameDecoder.Uninitialised}
    (fresh : ∀ decoder ∈ prototype, Constructed decoder)
    (separated : Separated config prototype) (made : create prototype memory = .ok pipelines) :
    ∀ slot ∈ pipelines, Forgetful config slot := by
  induction prototype generalizing pipelines memory with
  | nil =>
      cases made
      intro slot member
      cases member
  | cons decoder rest ih =>
      unfold create at made
      obtain ⟨slot, cloned, others⟩ := ok_of_bind made
      obtain ⟨slots, made', returned⟩ := ok_of_bind others
      cases returned
      have later : Separated config rest := by
        rcases separated with own | single
        · exact Or.inl own
        · exact Or.inr fun decoder member => single decoder (List.mem_cons_of_mem _ member)
      have behind := ih (fun decoder member => fresh decoder (List.mem_cons_of_mem _ member))
        later made'
      intro other member
      rcases List.mem_cons.mp member with rfl | further
      · cases fresh decoder List.mem_cons_self with
        | @fixedLength frameLength fields bounded made =>
            cases cloned
            refine ⟨_, rfl, ?_⟩
            rcases separated with own | single
            · exact Or.inl own
            · refine Or.inr ⟨single _ List.mem_cons_self, ?_⟩
              intro cumulation stored
              cases stored
        | @delimiterBased _ _ _ fields made =>
            unfold clone at cloned
            obtain ⟨again, _, returned⟩ := ok_of_bind cloned
            cases returned
            exact trivial
        | lengthFieldBased made =>
            cases cloned
            exact trivial
      · exact behind other further

/-- Nothing that other channels receive shows. -/
theorem isolated_of_separated (fresh : ∀ decoder ∈ prototype, Constructed decoder)
    (separated : Separated config prototype) : Isolated config prototype := by
  intro memory pipelines made fuel channel run run' same observed observed' seen seen'
  have forgetful := create_forgetful fresh separated made
  rw [observe_alone channel run forgetful seen, observe_alone channel run' forgetful seen', same]

section Leaks

open FrameStream
open FixedLengthFrameDecoder (blocks lawful make make_of_pos)

/-- A received buffer. -/
def arrival (bytes : CharArray) : ChannelBuffer :=
  .heap ⟨.big, bytes, ⟨0, bytes.length, 0, 0⟩⟩

theorem arrival_sound (bytes : CharArray) (small : (bytes.length : Int) ≤ maxInt) :
    (arrival bytes).Sound :=
  heap_sound small ⟨Int.le_refl _, Int.natCast_nonneg _, Int.le_refl _⟩

theorem arrival_content (bytes : CharArray) : (arrival bytes).readableContent = bytes := by
  unfold readableContent arrival
  rw [content]
  exact window_whole bytes

theorem framesOf_shown {events : List UpstreamEvent} {frames : List (List Byte)}
    (shown : events.map UpstreamEvent.frameBytes = frames.map some) :
    framesOf events = frames := by
  have same : framesOf events = (events.map UpstreamEvent.frameBytes).filterMap id := by
    unfold framesOf
    rw [List.filterMap_map]
    rfl
  rw [same, shown, List.filterMap_map]
  exact List.filterMap_some

/-- Two channels share the decoder. -/
abbrev sharing (decoder : FrameDecoder FixedLengthFrameDecoder) : ClonedPipelines :=
  [.shared (fixedLength decoder)]

theorem deliver_sharing (decoder : FrameDecoder FixedLengthFrameDecoder) (channel : Nat)
    (message : ChannelMessage) :
    deliver config fuel (sharing decoder) channel message =
      (Handler.messageReceived FixedLengthFrameDecoder.decode config fuel ⟨decoder, []⟩
        message).map fun next => (sharing next.decoder, next.fired) := by
  have handled : handleAll FixedLengthFrameDecoder.decode config fuel ⟨decoder, []⟩
      [.messageReceived message] =
      Handler.messageReceived FixedLengthFrameDecoder.decode config fuel ⟨decoder, []⟩ message := by
    show (Handler.messageReceived _ config fuel _ message >>= pure) = _
    rw [bind_pure]
  have received : receive config fuel [.messageReceived message] (fixedLength decoder) =
      (handleAll FixedLengthFrameDecoder.decode config fuel ⟨decoder, []⟩
        [.messageReceived message] >>= fun handler =>
          pure (fixedLength handler.decoder, handler.fired)) := rfl
  unfold deliver
  show (passThrough config fuel [fixedLength decoder] [.messageReceived message] >>= _) = _
  unfold passThrough
  rw [received, handled]
  cases Handler.messageReceived FixedLengthFrameDecoder.decode config fuel ⟨decoder, []⟩
      message with
  | error stop => rfl
  | ok next => rfl

section

variable {decoder : FrameDecoder FixedLengthFrameDecoder}

theorem deliver_of_received
    {next : Handler FixedLengthFrameDecoder} (channel : Nat) {message : ChannelMessage}
    (ran : Handler.messageReceived FixedLengthFrameDecoder.decode config fuel ⟨decoder, []⟩
      message = .ok next) :
    deliver config fuel (sharing decoder) channel message =
      .ok (sharing next.decoder, next.fired) := by
  rw [deliver_sharing, ran]
  rfl

theorem deliver_of_stopped {stop : Stop}
    (channel : Nat) {message : ChannelMessage}
    (ran : Handler.messageReceived FixedLengthFrameDecoder.decode config fuel ⟨decoder, []⟩
      message = .error stop) :
    deliver config fuel (sharing decoder) channel message = .error stop := by
  rw [deliver_sharing, ran]
  rfl

end

variable {length : Nat}

theorem constructed_streamed (config : ChannelConfig) (positive : 0 < length) :
    Streamed config.bufferFactory (fun fields => make length = .ok fields)
      (blocks length positive) [] ⟨constructed ⟨length⟩, []⟩ :=
  streamed_fresh config.bufferFactory (blocks length positive) false false (make_of_pos positive)

/-- A frame that arrives whole at a fresh decoder is fired. -/
theorem whole_frame_fires (bytes : CharArray) (own : config.channelOwnBuffer = false) (positive : 0 < length)
    (whole : bytes.length = length) (small : (length : Int) ≤ maxInt) :
    ∃ next, Handler.messageReceived FixedLengthFrameDecoder.decode config (length + 2)
        ⟨constructed ⟨length⟩, []⟩ (.buffer (arrival bytes)) = .ok next ∧
      framesOf next.fired = [bytes] := by
  have start := constructed_streamed config positive
  have sound := arrival_sound bytes (by rw [whole]; exact small)
  have shown := arrival_content bytes
  have present : (arrival bytes).readableContent ≠ [] := by
    rw [shown]
    exact List.length_pos_iff.mp (by omega)
  have unread : (constructed (⟨length⟩ : FixedLengthFrameDecoder)).unread = [] := rfl
  obtain ⟨buffer, loop, delivers⟩ := Handler.delivery FixedLengthFrameDecoder.decode (length + 2)
    own sound present start.holding (Or.inl unread)
  have content : buffer.readableContent = bytes := by
    rw [loop.content, unread, shown]
    rfl
  obtain ⟨fields, events, count, ran, -, fits, frames, rest⟩ :=
    callDecode_drains (lawful positive) false (length + 2) ⟨⟨length⟩, buffer, []⟩
      (make_of_pos positive) loop.sound (by dsimp only; rw [content]; omega)
  have drained : (blocks length positive).drain bytes = ([bytes], []) := by
    have found : (blocks length positive).next bytes = some (bytes, length) := by
      show (if length ≤ bytes.length then some (bytes.take length, length) else none) = _
      rw [if_pos (by omega), List.take_of_length_le (by omega)]
    rw [(blocks length positive).drain_of_some found, List.drop_of_length_le (by omega),
      (blocks length positive).drain_nil]
  dsimp only at frames rest
  rw [content, drained] at frames rest
  obtain ⟨decoder, received, -⟩ := delivers.keeps _ ran
    (loop.sound.advance_repositioned fits) (Or.inr (Or.inl rest))
  exact ⟨_, received, framesOf_shown frames⟩

/-- One byte is not a frame. -/
theorem drain_byte (long : 1 < length) (byte : Byte) :
    (blocks length (Nat.zero_lt_of_lt long)).drain [byte] = ([], [byte]) := by
  apply PrefixDecoder.drain_of_none
  show (if length ≤ [byte].length then some ([byte].take length, length) else none) = none
  apply if_neg
  rw [List.length_singleton]
  omega

section

variable (own : config.channelOwnBuffer = false) (long : 1 < length)

include own long

/-- A byte that another channel has left behind shows in the next frame. -/
theorem left_byte_shows {decoder : FrameDecoder FixedLengthFrameDecoder}
    (streamed : Streamed config.bufferFactory (fun fields => make length = .ok fields)
      (blocks length (Nat.zero_lt_of_lt long)) [0] ⟨decoder, []⟩)
    (small : (length : Int) ≤ maxInt) {next : Handler FixedLengthFrameDecoder}
    (received : Handler.messageReceived FixedLengthFrameDecoder.decode config (length + 2)
      ⟨decoder, []⟩ (.buffer (arrival (List.replicate length 1))) = .ok next) :
    framesOf next.fired ≠ [List.replicate length 1] := by
  have size : (List.replicate length (1 : Byte)).length = length := List.length_replicate
  have sound := arrival_sound (List.replicate length 1) (by rw [size]; exact small)
  have shown := arrival_content (List.replicate length 1)
  have present : (arrival (List.replicate length 1)).readableContent ≠ [] := by
    rw [shown]
    exact List.length_pos_iff.mp (by omega)
  by_cases room : length + 1 ≤ 1073741824
  · let stream : List Byte := [0] ++ List.replicate length 1
    have whole : stream.length = length + 1 := by
      rw [List.length_append, size, List.length_singleton, Nat.add_comm]
    have grown : [0] ++ (arrival (List.replicate length 1)).readableContent = stream := by
      rw [shown]
    have enough : ([0] ++ (arrival (List.replicate length 1)).readableContent).length <
        length + 2 := by
      rw [grown]
      omega
    obtain ⟨final, ran, after⟩ := streamed_step (lawful (Nat.zero_lt_of_lt long)) own streamed
      sound present (by rw [grown]; omega) enough
    rw [received] at ran
    cases ran
    rw [grown] at after
    have frames := framesOf_shown after.frames
    have found : (blocks length (Nat.zero_lt_of_lt long)).next stream =
        some (stream.take length, length) := if_pos (by omega)
    rw [PrefixDecoder.drain_of_some _ found] at frames
    rw [frames]
    intro equal
    have first := (List.cons.inj equal).1
    obtain ⟨less, rfl⟩ : ∃ less, length = less + 1 := ⟨length - 1, by omega⟩
    rw [List.replicate_succ] at first
    exact absurd (List.cons.inj first).1 (by decide)
  · have unread : (⟨decoder, []⟩ : Handler FixedLengthFrameDecoder).decoder.unread = [0] := by
      rw [streamed.rest, drain_byte long]
    have full : ¬Handler.Admits ⟨decoder, []⟩ (arrival (List.replicate length 1)) := by
      unfold Handler.Admits
      rw [unread, shown, size]
      simp only [List.cons_ne_nil, false_or, List.length_singleton]
      omega
    rcases Handler.delivery_refused FixedLengthFrameDecoder.decode (length + 2) own sound present
      streamed.holding full with ⟨stop, ran⟩ | ⟨after, ran⟩
    · rw [received] at ran
      cases ran
    · rw [received] at ran
      cases ran
      exact (List.cons_ne_nil _ _).symm

/-- Longer frames are not kept apart. -/
theorem leaks_of_held (small : (length : Int) ≤ maxInt) :
    ¬Isolated config [fixedLength (constructed ⟨length⟩)] := by
  intro isolated
  have positive : 0 < length := Nat.zero_lt_of_lt long
  let memory : Nat → Nat → LengthFieldBasedFrameDecoder.Uninitialised := fun _ _ => ⟨0, 0⟩
  have made : create [fixedLength (constructed ⟨length⟩)] memory =
      .ok (sharing (constructed ⟨length⟩)) := rfl
  have start := constructed_streamed config positive
  let whole := arrival (List.replicate length 1)
  have first := arrival_content [0]
  have enough : ([] ++ (arrival [0]).readableContent).length < length + 2 := by
    rw [first, List.nil_append, List.length_singleton]
    omega
  obtain ⟨⟨left, sent⟩, received, streamed⟩ := streamed_step (lawful positive) own start
    (arrival_sound [0] (by decide)) (by rw [first]; exact List.cons_ne_nil _ _)
    (by rw [first]; decide) enough
  rw [first, List.nil_append] at streamed
  have silent : sent = [] := by
    have frames := streamed.frames
    rw [drain_byte long] at frames
    exact List.map_eq_nil_iff.mp frames
  subst silent
  obtain ⟨next, fired, frames⟩ := whole_frame_fires (List.replicate length 1) own positive
    List.length_replicate small
  have seen : observe config (length + 2) 0 (sharing (constructed ⟨length⟩))
      [(0, .buffer whole)] = some [.ok [List.replicate length 1]] := by
    rw [observe_here (deliver_of_received 0 fired), frames]
    rfl
  have begun : observe config (length + 2) 0 (sharing (constructed ⟨length⟩))
      [(1, .buffer (arrival [0])), (0, .buffer whole)] =
      observe config (length + 2) 0 (sharing left) [(0, .buffer whole)] :=
    observe_elsewhere Nat.one_ne_zero (deliver_of_received 1 received)
  have same : addressed 0 [(0, .buffer whole)] =
      addressed 0 [(1, .buffer (arrival [0])), (0, .buffer whole)] :=
    (addressed_elsewhere Nat.one_ne_zero _ _).symm
  cases ran : Handler.messageReceived FixedLengthFrameDecoder.decode config (length + 2)
      ⟨left, []⟩ (.buffer whole) with
  | error stop =>
      have seen' : observe config (length + 2) 0 (sharing left) [(0, .buffer whole)] =
          some [.error stop] := by
        rw [observe_stops (deliver_of_stopped 0 ran), if_pos rfl]
      have equal := isolated memory _ made (length + 2) 0 _ _ same _ _ seen (begun.trans seen')
      cases (List.cons.inj equal).1
  | ok after =>
      have seen' : observe config (length + 2) 0 (sharing left) [(0, .buffer whole)] =
          some [.ok (framesOf after.fired)] := by
        rw [observe_here (deliver_of_received 0 ran)]
        rfl
      have equal := isolated memory _ made (length + 2) 0 _ _ same _ _ seen (begun.trans seen')
      have frame := Except.ok.inj (List.cons.inj equal).1
      exact left_byte_shows own long streamed small ran frame.symm

end

end Leaks

/-- Channels are isolated when no shared decoder holds bytes back; a prototype of one decoder is
isolated in no other case. -/
theorem isolated_iff_separated (config : ChannelConfig) (prototype : List StatefulDecoder)
    (fresh : ∀ decoder ∈ prototype, Constructed decoder) :
    (Separated config prototype → Isolated config prototype) ∧
    (prototype.length = 1 → (Isolated config prototype ↔ Separated config prototype)) := by
  refine ⟨isolated_of_separated fresh, ?_⟩
  intro one
  refine ⟨?_, isolated_of_separated fresh⟩
  intro isolated
  obtain ⟨decoder, rfl⟩ := List.length_eq_one_iff.mp one
  cases own : config.channelOwnBuffer with
  | true => exact Or.inl own
  | false =>
      right
      intro fixed member
      rw [List.mem_singleton] at member
      subst member
      cases fresh _ List.mem_cons_self with
      | @fixedLength frameLength fields bounded made =>
          have positive : 0 < frameLength := by
            unfold FixedLengthFrameDecoder.make at made
            split at made
            · cases made
            · omega
          obtain ⟨length, rfl⟩ := Int.eq_ofNat_of_zero_le (Int.le_of_lt positive)
          have known : FixedLengthFrameDecoder.make length = .ok ⟨length⟩ :=
            FixedLengthFrameDecoder.make_of_pos (by omega)
          have same : fields = ⟨length⟩ := Except.ok.inj (made.symm.trans known)
          subst same
          show (length : Int) = 1
          by_contra other
          exact leaks_of_held own (by omega) bounded isolated

/-- A pipeline of a delimiter based and a length field based decoder, and one that hands on every
byte. -/
theorem separated_pipelines :
    Isolated ⟨false, .big⟩ [fixedLength (constructed ⟨1⟩)] ∧
    ∀ fields, LengthFieldBasedFrameDecoder.make 8 0 2 0 2 ⟨0, 0⟩ = .ok fields →
      Isolated ⟨false, .big⟩ [lengthFieldBased (constructed fields)] := by
  constructor
  · apply (isolated_iff_separated ⟨false, .big⟩ [fixedLength (constructed ⟨1⟩)] ?_).1
    · right
      intro decoder member
      rw [List.mem_singleton] at member
      cases member
      rfl
    · intro decoder member
      rw [List.mem_singleton] at member
      subst member
      exact .fixedLength (show (1 : Int) ≤ maxInt by decide) rfl
  · intro fields made
    apply (isolated_iff_separated ⟨false, .big⟩ [lengthFieldBased (constructed fields)] ?_).1
    · right
      intro decoder member
      rw [List.mem_singleton] at member
      cases member
    · intro decoder member
      rw [List.mem_singleton] at member
      subst member
      exact .lengthFieldBased made

/-- The second byte of a frame arrives on another channel, which fires the frame. -/
theorem half_frame_taken :
    observe ⟨false, .big⟩ 4 0 (sharing (constructed ⟨2⟩))
      [(0, .buffer (arrival [1])), (0, .buffer (arrival [3]))] = some [.ok [], .ok [[1, 3]]] ∧
    observe ⟨false, .big⟩ 4 0 (sharing (constructed ⟨2⟩))
      [(0, .buffer (arrival [1])), (1, .buffer (arrival [2])), (0, .buffer (arrival [3]))] =
      some [.ok [], .ok []] ∧
    ¬Isolated ⟨false, .big⟩ [fixedLength (constructed ⟨2⟩)] := by
  have seen : observe ⟨false, .big⟩ 4 0 (sharing (constructed ⟨2⟩))
      [(0, .buffer (arrival [1])), (0, .buffer (arrival [3]))] =
        some [.ok [], .ok [[1, 3]]] := by decide +kernel
  have seen' : observe ⟨false, .big⟩ 4 0 (sharing (constructed ⟨2⟩))
      [(0, .buffer (arrival [1])), (1, .buffer (arrival [2])), (0, .buffer (arrival [3]))] =
        some [.ok [], .ok []] := by decide +kernel
  refine ⟨seen, seen', ?_⟩
  intro isolated
  have same : addressed 0 [(0, .buffer (arrival [1])), (0, .buffer (arrival [3]))] =
      addressed 0 [(0, .buffer (arrival [1])), (1, .buffer (arrival [2])),
        (0, .buffer (arrival [3]))] := by
    rw [addressed_here, addressed_here, addressed_here, addressed_elsewhere Nat.one_ne_zero,
      addressed_here]
  have equal := isolated (fun _ _ => ⟨0, 0⟩) _ rfl 4 0 _ _ same _ _ seen seen'
  have second := (List.cons.inj (List.cons.inj equal).2).1
  cases second

end ClonedPipelines

end Cetty
