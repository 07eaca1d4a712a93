import Cetty.FrameReception
import Cetty.ReplayTruth
import Cetty.ReplayingDecoder

/-!
# One delivery to a replaying decoder

A received buffer is written behind what the cumulation has kept, and the loop runs on the
cumulation until a decode call reports a shortage.
-/

namespace Cetty

open MachineInt ByteWindow ChannelBuffer

namespace ReplayReception

variable {Fields : Type}

/-- `messageReceived`, as the context in front of the decoder calls it, for a buffer that is not the
cumulation itself. -/
def messageReceived (subclass : ReplayingSubclass Fields) (config : ChannelConfig) (fuel : Nat)
    (handler : ReplayReception Fields) (input : ChannelBuffer) :
    Except Stop (ReplayReception Fields) :=
  match (ReplayingDecoder.receiveBuffer subclass config fuel input false).run handler with
  | .ok _ reception => .ok reception
  | .error (.thrown exception) reception =>
      .ok { reception with fired := reception.fired ++ [.exceptionCaught exception] }
  | .error stop _ => .error stop

/-- The received buffers, one after the other. -/
def receiveAll (subclass : ReplayingSubclass Fields) (config : ChannelConfig) (fuel : Nat)
    (handler : ReplayReception Fields) (received : List ChannelBuffer) :
    Except Stop (ReplayReception Fields) :=
  received.foldlM (messageReceived subclass config fuel) handler

end ReplayReception

section Rounds

open ReplayingDecoder

variable {Fields : Type} {subclass : ReplayingSubclass Fields} {unfold_ : Bool} {fuel : Nat}
  {context after : ReplayContext Fields} {frame : ChannelMessage}

namespace ReplayingDecoder

/-- The context a round decodes in. -/
def checked (context : ReplayContext Fields) : ReplayContext Fields :=
  { context with checkedPoint := context.replayable.buffer.readerIdx }

theorem decodeRound_unreadable (unreadable : context.replayable.buffer.readable = false) :
    (decodeRound subclass unfold_).run context = .ok false context := by
  unfold decodeRound
  rw [run_bind_get]
  simp [unreadable]

/-- A round behind its decode call. -/
def conclude (subclass : ReplayingSubclass Fields) (unfold_ : Bool)
    (before : ReplayContext Fields) (frame : ChannelMessage) (after : ReplayContext Fields) :
    ReplayDecodeM Fields Bool :=
  if frame.isEmpty then
    if after.replayable.needMore then do
      if 0 ≤ after.checkedPoint then onCumulated (BufferM.readerIndex after.checkedPoint)
      pure false
    else if after.replayable.buffer.readerIdx = before.replayable.buffer.readerIdx ∧
        after.state = before.state then throw nothingConsumed
    else pure true
  else if after.replayable.buffer.readerIdx = before.replayable.buffer.readerIdx ∧
      after.state = before.state then throw (noProgress subclass.typeName)
  else do
    unfoldAndfireMessageReceived unfold_ frame
    pure true

theorem decodeRound_readable (readable : context.replayable.buffer.readable = true)
    (decoded : (subclass.decode context.state).run (checked context) = .ok frame after) :
    (decodeRound subclass unfold_).run context =
      (conclude subclass unfold_ context frame after).run after := by
  unfold decodeRound
  rw [run_bind_get]
  simp only [readable, if_true]
  rw [EStateM.run_bind, EStateM.run_set]
  show (subclass.decode context.state >>= _).run (checked context) = _
  rw [run_bind_ok _ decoded, run_bind_get]
  rfl

theorem decodeRound_stops {stop : Stop} (readable : context.replayable.buffer.readable = true)
    (decoded : (subclass.decode context.state).run (checked context) = .error stop after) :
    (decodeRound subclass unfold_).run context = .error stop after := by
  unfold decodeRound
  rw [run_bind_get]
  simp only [readable, if_true]
  rw [EStateM.run_bind, EStateM.run_set]
  show (subclass.decode context.state >>= _).run (checked context) = _
  rw [run_bind_error _ decoded]

/-- A shortage ends the loop at the checkpoint. -/
theorem decodeRound_short {rewound : ChannelBuffer}
    (readable : context.replayable.buffer.readable = true)
    (decoded : (subclass.decode context.state).run (checked context) = .ok .empty after)
    (short : after.replayable.needMore = true) (kept : 0 ≤ after.checkedPoint)
    (returned : (BufferM.readerIndex after.checkedPoint).run after.replayable.buffer =
      .ok () rewound) :
    (decodeRound subclass unfold_).run context =
      .ok false { after with replayable := { after.replayable with buffer := rewound } } := by
  have through : (onCumulated (BufferM.readerIndex after.checkedPoint)).run after =
      .ok () { after with replayable := { after.replayable with buffer := rewound } } :=
    run_focus_ok (run_focus_ok returned)
  rw [decodeRound_readable readable decoded, conclude,
    if_pos (show ChannelMessage.empty.isEmpty = true from rfl), if_pos short]
  dsimp only
  rw [if_pos kept, run_bind_ok _ through]
  rfl

section

variable (readable : context.replayable.buffer.readable = true)
  (decoded : (subclass.decode context.state).run (checked context) = .ok frame after)
  (shown : frame.isEmpty = false)

include readable decoded shown

theorem decodeRound_fires
    (moved : ¬(after.replayable.buffer.readerIdx = context.replayable.buffer.readerIdx ∧
      after.state = context.state)) :
    (decodeRound subclass unfold_).run context =
      .ok true { after with fired := after.fired ++ unfolded unfold_ frame } := by
  rw [decodeRound_readable readable decoded, conclude, shown, if_neg Bool.false_ne_true, if_neg moved]
  rfl

theorem decodeRound_unmoved
    (unmoved : after.replayable.buffer.readerIdx = context.replayable.buffer.readerIdx ∧
      after.state = context.state) :
    (decodeRound subclass unfold_).run context = .error (noProgress subclass.typeName) after := by
  rw [decodeRound_readable readable decoded, conclude, shown, if_neg Bool.false_ne_true, if_pos unmoved]
  rfl

end

theorem callDecode_ends (round : (decodeRound subclass unfold_).run context = .ok false after) :
    (callDecode subclass unfold_ (fuel + 1)).run context = .ok () after := by
  rw [callDecode, run_bind_ok _ round]
  rfl

theorem callDecode_goes_on
    (round : (decodeRound subclass unfold_).run context = .ok true after) :
    (callDecode subclass unfold_ (fuel + 1)).run context =
      (callDecode subclass unfold_ fuel).run after := by
  rw [callDecode, run_bind_ok _ round, if_pos rfl]

theorem callDecode_stops {stop : Stop}
    (round : (decodeRound subclass unfold_).run context = .error stop after) :
    (callDecode subclass unfold_ (fuel + 1)).run context = .error stop after := by
  rw [callDecode, run_bind_error _ round]

end ReplayingDecoder

end Rounds

namespace ReplayingDecoder

section Cumulating

variable {Fields : Type} {config : ChannelConfig} {handler : ReplayReception Fields}
  {input : ChannelBuffer}

/-- The cumulation is missing or one that the factory has made. -/
def Cumulates (factory : ByteOrder) (decoder : ReplayingDecoder Fields) : Prop :=
  ∀ replayable, decoder.cumulation = some replayable → replayable.buffer.IsDynamic factory

/-- The bytes that have not been read. -/
def unread (decoder : ReplayingDecoder Fields) : List Byte :=
  match decoder.cumulation with
  | some replayable => replayable.buffer.readableContent
  | none => []

/-- Whether the decoder has been closed. -/
def closed (decoder : ReplayingDecoder Fields) : Bool :=
  (decoder.cumulation.map ReplayingDecoderBuffer.terminated).getD false

/-- What `getCumulation` leaves in the decoder. -/
def cumulating (handler : ReplayReception Fields) (replayable : ReplayingDecoderBuffer) :
    ReplayReception Fields :=
  { handler with
    decoder := { handler.decoder with
      channelOwnBuffer := false
      cumulation := some replayable } }

variable {replayable : ReplayingDecoderBuffer}

theorem onCumulation_buffer {Value : Type} {program : BufferM Value} {value : Value}
    {after : ChannelBuffer}
    (ran : program.run replayable.buffer = .ok value after) :
    (onCumulation (onCumulated program)).run (cumulating handler replayable) =
      .ok value (cumulating handler { replayable with buffer := after }) :=
  run_focus_ok (run_focus_ok (run_focus_ok ran))

theorem onCumulation_refused {Value : Type} {program : BufferM Value} {stop : Stop}
    {after : ChannelBuffer}
    (ran : program.run replayable.buffer = .error stop after) :
    (onCumulation (onCumulated program)).run (cumulating handler replayable) =
      .error stop (cumulating handler { replayable with buffer := after }) :=
  run_focus_error (run_focus_error (run_focus_error ran))

theorem unsafeDynamicBuffer_made (factory : ByteOrder) :
    ∃ buffer, unsafeDynamicBuffer factory = .ok buffer ∧ buffer.IsDynamic factory ∧
      buffer.readableContent = [] :=
  ⟨.dynamic factory factory ⟨factory, List.replicate 256 0, .zero⟩ .zero, rfl,
    ⟨_, _, rfl, ⟨8, by decide, List.length_replicate⟩, rfl, Int.le_refl _, Int.le_refl _,
      Int.natCast_nonneg _⟩, rfl⟩

section

variable (own : config.channelOwnBuffer = false)
  (holding : handler.decoder.Cumulates config.bufferFactory)

include own holding

/-- The cumulation is there, and what it holds is moved to its front. -/
theorem getCumulation_moves (input : ChannelBuffer) :
    ∃ replayable : ReplayingDecoderBuffer, replayable.buffer.IsDynamic config.bufferFactory ∧
      replayable.buffer.readableContent = handler.decoder.unread ∧
      replayable.buffer.readerIdx = 0 ∧
      replayable.buffer.writerIdx = handler.decoder.unread.length ∧
      replayable.terminated = handler.decoder.closed ∧
      (getCumulation config input false).run handler =
        (onCumulation (onCumulated (do let _ ← BufferM.writeBytes input))).run
          (cumulating handler replayable) := by
  obtain ⟨replayable, growing, content, ended, found⟩ : ∃ replayable : ReplayingDecoderBuffer,
      replayable.buffer.IsDynamic config.bufferFactory ∧
      replayable.buffer.readableContent = handler.decoder.unread ∧
      replayable.terminated = handler.decoder.closed ∧
      (getCumulation config input false).run handler = (do
        onCumulation (onCumulated BufferM.discardReadBytes)
        onCumulation (onCumulated (do let _ ← BufferM.writeBytes input)) :
          Exec (ReplayReception Fields) Unit).run (cumulating handler replayable) := by
    cases stored : handler.decoder.cumulation with
    | some replayable =>
        refine ⟨replayable, holding replayable stored, ?_, ?_, ?_⟩
        · unfold unread
          rw [stored]
        · unfold closed
          rw [stored]
          rfl
        · unfold getCumulation
          rw [EStateM.run_bind, EStateM.run_modify]
          dsimp only
          rw [run_bind_get]
          simp only [stored, own]
          rw [cumulating, ← stored]
          rfl
    | none =>
        obtain ⟨buffer, made, growing, nothing⟩ := unsafeDynamicBuffer_made config.bufferFactory
        refine ⟨.make buffer, growing, ?_, ?_, ?_⟩
        · unfold unread
          rw [stored]
          exact nothing
        · unfold closed
          rw [stored]
          rfl
        · unfold getCumulation
          rw [EStateM.run_bind, EStateM.run_modify]
          dsimp only
          rw [run_bind_get]
          simp only [stored, own, made]
          rfl
  obtain ⟨moved, discarded, growing', same, reader, writer⟩ :=
    BufferM.discardReadBytes_dynamic growing
  refine ⟨{ replayable with buffer := moved }, growing', same.trans content, reader, ?_, ended, ?_⟩
  · rw [← content]
    exact writer
  · rw [found, run_bind_ok _ (onCumulation_buffer discarded)]

/-- The input follows what the cumulation has kept. -/
theorem getCumulation_run (sound : input.Sound)
    (present : input.readableContent ≠ [])
    (room : handler.decoder.unread.length + input.readableContent.length ≤ 1073741824) :
    ∃ replayable : ReplayingDecoderBuffer, replayable.buffer.IsDynamic config.bufferFactory ∧
      replayable.buffer.readableContent = handler.decoder.unread ++ input.readableContent ∧
      replayable.buffer.readerIdx = 0 ∧ replayable.terminated = handler.decoder.closed ∧
      (getCumulation config input false).run handler = .ok () (cumulating handler replayable) := by
  obtain ⟨replayable, growing, content, reader, writer, ended, ran⟩ :=
    getCumulation_moves own holding input
  obtain ⟨written, wrote, growing', same, reader', -⟩ :=
    BufferM.writeBytes_dynamic growing sound present (by omega)
  have writes : (do let _ ← BufferM.writeBytes input : BufferM Unit).run replayable.buffer =
      .ok () written := by
    rw [run_bind_ok _ wrote]
    rfl
  refine ⟨{ replayable with buffer := written }, growing', ?_, ?_, ended, ?_⟩
  · rw [← content]
    exact same
  · show written.readerIdx = 0
    rw [reader', reader]
  · rw [ran, onCumulation_buffer writes]

/-- Without room for the input the delivery ends in the write. -/
theorem getCumulation_refused (sound : input.Sound)
    (beyond : 1073741824 < handler.decoder.unread.length + input.readableContent.length) :
    ∃ stop after, (getCumulation config input false).run handler = .error stop after ∧
      BufferM.Refusal stop ∧ after.fired = handler.fired := by
  obtain ⟨replayable, growing, content, reader, writer, -, ran⟩ :=
    getCumulation_moves own holding input
  obtain ⟨stop, written, refused, kind⟩ :=
    BufferM.writeBytes_beyond growing sound (by omega)
  have refuses : (do let _ ← BufferM.writeBytes input : BufferM Unit).run replayable.buffer =
      .error stop written := by
    rw [run_bind_error _ refused]
  exact ⟨stop, _, ran.trans (onCumulation_refused refuses), kind, rfl⟩

end

/-- A delivery is a run of the loop on what is in the cumulation. -/
theorem receiveBuffer_loops (subclass : ReplayingSubclass Fields) (fuel : Nat)
    (readable : input.readable = true)
    (got : (getCumulation config input false).run handler = .ok () (cumulating handler replayable)) :
    (receiveBuffer subclass config fuel input false).run handler =
      (onCumulation (callDecode subclass handler.decoder.unfold_ fuel)).run
        (cumulating handler replayable) := by
  unfold receiveBuffer
  rw [if_pos readable, run_bind_ok _ got, run_bind_get]
  rfl

theorem receiveBuffer_refused (subclass : ReplayingSubclass Fields) (fuel : Nat) {stop : Stop} {after : ReplayReception Fields}
    (readable : input.readable = true)
    (got : (getCumulation config input false).run handler = .error stop after) :
    (receiveBuffer subclass config fuel input false).run handler = .error stop after := by
  unfold receiveBuffer
  rw [if_pos readable, run_bind_error _ got]

end Cumulating

end ReplayingDecoder

namespace ReplayReception

section Runs

variable {Fields : Type} {subclass : ReplayingSubclass Fields} {config : ChannelConfig}
  {fuel : Nat} {handler reception : ReplayReception Fields} {input : ChannelBuffer}

theorem messageReceived_ok
    (ran : (ReplayingDecoder.receiveBuffer subclass config fuel input false).run handler =
      .ok () reception) :
    messageReceived subclass config fuel handler input = .ok reception := by
  unfold messageReceived
  rw [ran]

/-- A delivery that ends in a stop ends the run, or is reported. -/
theorem messageReceived_stops {stop : Stop}
    (ran : (ReplayingDecoder.receiveBuffer subclass config fuel input false).run handler =
      .error stop reception) :
    (∃ stop, messageReceived subclass config fuel handler input = .error stop) ∨
      ∃ exception, messageReceived subclass config fuel handler input =
        .ok { reception with fired := reception.fired ++ [.exceptionCaught exception] } := by
  unfold messageReceived
  rw [ran]
  cases stop with
  | thrown exception => exact Or.inr ⟨exception, rfl⟩
  | _ => exact Or.inl ⟨_, rfl⟩

theorem receiveAll_cons {next : ReplayReception Fields} {rest : List ChannelBuffer}
    (step : messageReceived subclass config fuel handler input = .ok next) :
    receiveAll subclass config fuel handler (input :: rest) =
      receiveAll subclass config fuel next rest := by
  unfold receiveAll
  rw [List.foldlM_cons, step]
  rfl

/-- A subclass whose decode calls do not touch the fired events. -/
def Silent (subclass : ReplayingSubclass Fields) : Prop :=
  ∀ (start : List UpstreamEvent) (state : Int),
    Keeps (fun context => start <+: context.fired) (subclass.decode state)

/-- Behind the decode call only the fired events change, and not even these behind an empty result. -/
theorem conclude_keeps {kept : Fields → Int → List UpstreamEvent → Prop} (unfold_ : Bool)
    (before : ReplayContext Fields) (frame : ChannelMessage) (after : ReplayContext Fields)
    (fires : ¬frame.isEmpty → ∀ fields state fired events, kept fields state fired →
      kept fields state (fired ++ events)) :
    Keeps (fun context => kept context.fields context.state context.fired)
      (ReplayingDecoder.conclude subclass unfold_ before frame after) := by
  apply Keeps.ite
  · intro _
    apply Keeps.ite
    · intro _
      refine Keeps.ite (fun _ => ?_) fun _ => Keeps.pure _
      apply Keeps.bind
      · exact Keeps.focus _ fun _ _ holds => holds
      · intro _
        exact Keeps.pure _
    · intro _
      exact Keeps.ite (fun _ => Keeps.throw _) fun _ => Keeps.pure _
  · intro full
    refine Keeps.ite (fun _ => Keeps.throw _) fun _ => ?_
    apply Keeps.bind
    · apply Keeps.modify
      intro _ holds
      exact fires full _ _ _ _ holds
    · intro _
      exact Keeps.pure _

theorem decodeRound_fired (silent : Silent subclass) (start : List UpstreamEvent)
    (unfold_ : Bool) :
    Keeps (fun context => start <+: context.fired)
      (ReplayingDecoder.decodeRound subclass unfold_) := by
  intro context begun
  cases readable : context.replayable.buffer.readable with
  | false =>
      rw [ReplayingDecoder.decodeRound_unreadable readable]
      exact begun
  | true =>
      have kept := silent start context.state (ReplayingDecoder.checked context) begun
      cases decoded : (subclass.decode context.state).run (ReplayingDecoder.checked context) with
      | error stop after =>
          rw [decoded] at kept
          rw [ReplayingDecoder.decodeRound_stops readable decoded]
          exact kept
      | ok frame after =>
          rw [decoded] at kept
          rw [ReplayingDecoder.decodeRound_readable readable decoded]
          have concluded := @conclude_keeps Fields subclass (fun _ _ fired => start <+: fired) unfold_
            context frame after fun _ _ _ _ _ holds => holds.trans (List.prefix_append _ _)
          exact concluded after kept

section Keeping

variable {kept : Fields → Int → List UpstreamEvent → Prop}

/-- What every round keeps of the fields, the state and the fired events, the loop keeps. -/
theorem callDecode_keeps (unfold_ : Bool) (fuel : Nat)
    (rounds : Keeps (fun context => kept context.fields context.state context.fired)
      (ReplayingDecoder.decodeRound subclass unfold_)) :
    Keeps (fun context => kept context.fields context.state context.fired)
      (ReplayingDecoder.callDecode subclass unfold_ fuel) := by
  induction fuel with
  | zero => exact Keeps.throw _
  | succ fuel ih =>
      apply Keeps.bind rounds
      intro again
      apply Keeps.ite
      · intro _
        exact ih
      · intro _
        exact Keeps.pure _

theorem getCumulation_keeps (config : ChannelConfig) (input : ChannelBuffer) (same : Bool) :
    Keeps (fun reception : ReplayReception Fields => kept reception.decoder.fields reception.decoder.state reception.fired)
      (ReplayingDecoder.getCumulation config input same) := by
  have stores : ∀ replayable, Keeps (fun reception : ReplayReception Fields =>
      kept reception.decoder.fields reception.decoder.state reception.fired) (ReplayingDecoder.store replayable) := by
    intro replayable
    apply Keeps.modify
    intro _ holds
    exact holds
  have writes : ∀ program : BufferM Unit, Keeps (fun reception : ReplayReception Fields =>
      kept reception.decoder.fields reception.decoder.state reception.fired)
      (ReplayingDecoder.onCumulation (onCumulated program)) := by
    intro program
    have within : Keeps (fun context : ReplayContext Fields => kept context.fields context.state context.fired)
        (onCumulated program) := Keeps.focus _ fun _ _ holds => holds
    exact Keeps.focus_on within (fun _ holds => holds) fun _ _ _ holds => holds
  have written : Keeps (fun reception : ReplayReception Fields =>
      kept reception.decoder.fields reception.decoder.state reception.fired)
      (if (!config.channelOwnBuffer) = true then do
        ReplayingDecoder.onCumulation (onCumulated BufferM.discardReadBytes)
        ReplayingDecoder.onCumulation (onCumulated (do let _ ← BufferM.writeBytes input))
      else pure ()) := by
    apply Keeps.ite
    · intro _
      exact Keeps.bind (writes _) fun _ => writes _
    · intro _
      exact Keeps.pure _
  unfold ReplayingDecoder.getCumulation
  refine Keeps.bind (Keeps.modify ?_) fun _ => Keeps.bind Keeps.get fun reception => ?_
  · intro _ holds
    exact holds
  cases reception.decoder.cumulation with
  | none =>
      apply Keeps.ite
      · intro _
        exact Keeps.bind (stores _) fun _ => written
      · intro _
        exact Keeps.bind (Keeps.call _) fun _ => Keeps.bind (stores _) fun _ => written
  | some replayable =>
      apply Keeps.ite
      · intro _
        apply Keeps.ite
        · intro _
          exact Keeps.bind (stores _) fun _ => written
        · intro _
          apply Keeps.bind (Keeps.call _)
          intro equal
          exact Keeps.ite (fun _ => Keeps.bind (stores _) fun _ => written) fun _ => written
      · intro _
        exact written

theorem receiveBuffer_keeps (config : ChannelConfig) (fuel : Nat) (input : ChannelBuffer)
    (same : Bool)
    (rounds : ∀ unfold_, Keeps (fun context => kept context.fields context.state context.fired)
      (ReplayingDecoder.decodeRound subclass unfold_)) :
    Keeps (fun reception : ReplayReception Fields => kept reception.decoder.fields reception.decoder.state reception.fired)
      (ReplayingDecoder.receiveBuffer subclass config fuel input same) := by
  apply Keeps.ite
  · intro _
    refine Keeps.bind (getCumulation_keeps config input same) fun _ =>
      Keeps.bind Keeps.get fun reception => ?_
    exact Keeps.focus_on (callDecode_keeps _ fuel (rounds _)) (fun _ holds => holds)
      fun _ _ _ holds => holds
  · intro _
    exact Keeps.pure _

section

variable (rounds : ∀ unfold_, Keeps (fun context => kept context.fields context.state
    context.fired) (ReplayingDecoder.decodeRound subclass unfold_))
  (caught : ∀ fields state fired cause, kept fields state fired → kept fields state (fired ++
    [.exceptionCaught cause]))

include rounds caught

/-- A reported exception is one more event. -/
theorem messageReceived_keeps
    {next : ReplayReception Fields} (holds : kept handler.decoder.fields handler.decoder.state handler.fired)
    (step : messageReceived subclass config fuel handler input = .ok next) :
    kept next.decoder.fields next.decoder.state next.fired := by
  have after := receiveBuffer_keeps config fuel input false rounds handler holds
  unfold messageReceived at step
  cases ran : (ReplayingDecoder.receiveBuffer subclass config fuel input false).run handler with
  | ok _ reception =>
      rw [ran] at after step
      cases step
      exact after
  | error stop reception =>
      rw [ran] at after step
      cases stop with
      | thrown exception =>
          cases step
          exact caught _ _ _ _ after
      | _ => cases step

theorem receiveAll_keeps (received : List ChannelBuffer) {handler final : ReplayReception Fields}
    (holds : kept handler.decoder.fields handler.decoder.state handler.fired)
    (ran : receiveAll subclass config fuel handler received = .ok final) :
    kept final.decoder.fields final.decoder.state final.fired := by
  induction received generalizing handler with
  | nil =>
      cases ran
      exact holds
  | cons input rest ih =>
      cases step : messageReceived subclass config fuel handler input with
      | error stop =>
          unfold receiveAll at ran
          rw [List.foldlM_cons, step] at ran
          cases ran
      | ok next =>
          rw [receiveAll_cons step] at ran
          exact ih (messageReceived_keeps rounds caught holds step) ran

end

end Keeping

/-- Events stay fired. -/
theorem receiveAll_fired (silent : Silent subclass) (received : List ChannelBuffer)
    {handler final : ReplayReception Fields}
    (ran : receiveAll subclass config fuel handler received = .ok final) :
    handler.fired <+: final.fired := by
  have rounds : ∀ unfold_, Keeps (fun context : ReplayContext Fields =>
      handler.fired <+: context.fired) (ReplayingDecoder.decodeRound subclass unfold_) :=
    decodeRound_fired silent handler.fired
  have caught : ∀ (fields : Fields) (state : Int) (fired : List UpstreamEvent) (cause : Exception),
      handler.fired <+: fired → handler.fired <+: fired ++ [.exceptionCaught cause] := by
    intro _ _ fired cause holds
    exact holds.trans (List.prefix_append _ _)
  have kept := @receiveAll_keeps Fields subclass config fuel
    (fun _ _ fired => handler.fired <+: fired) rounds caught received handler final
  exact kept (List.prefix_refl _) ran

end Runs

end ReplayReception

end Cetty
