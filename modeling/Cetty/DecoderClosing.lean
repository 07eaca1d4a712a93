import Cetty.ReplayingDecoder

/-!
# Closing events at a decoder

`channelDisconnected` and `channelClosed` both end in `cleanup`, which decodes what is left. The
frame decoder passes the event on out of its `catch` clause, the replaying decoder behind the
decoding; neither does when nothing has been cumulated.
-/

namespace Cetty

inductive ClosingEvent where
  | channelDisconnected
  | channelClosed
  deriving DecidableEq, Repr

/-- What a decoder sends upstream. -/
inductive Upward where
  | event (event : UpstreamEvent)
  | closing (event : ClosingEvent)

inductive Delivery where
  | message (message : ChannelMessage) (same : Bool)
  | closing (event : ClosingEvent)

/-- A decoder in its pipeline, with all that it has sent upstream. -/
structure Sender (Decoder : Type) where
  decoder : Decoder
  sent : List Upward

namespace Sender

variable {Decoder : Type}

def send (upward : List Upward) : Exec (Sender Decoder) Unit :=
  modify fun sender => { sender with sent := sender.sent ++ upward }

/-- An exception that leaves a handler is sent upstream by the pipeline. -/
def handled (program : Exec (Sender Decoder) Unit) (sender : Sender Decoder) :
    Except Stop (Sender Decoder) :=
  match program.run sender with
  | .ok _ after => .ok after
  | .error (.thrown exception) after =>
      .ok { after with sent := after.sent ++ [.event (.exceptionCaught exception)] }
  | .error stop _ => .error stop

end Sender

/-- One delivery, with the handler before and after it. -/
structure Delivered (Decoder : Type) where
  before : Sender Decoder
  delivery : Delivery
  after : Sender Decoder

namespace Delivered

variable {Decoder : Type}

/-- A closing event has been passed on once, behind the frames fired on its account. -/
def PassedOn (made : Delivered Decoder) : Prop :=
  match made.delivery with
  | .closing event => ∃ frames : List UpstreamEvent,
      made.after.sent = made.before.sent ++ frames.map .event ++ [.closing event]
  | .message _ _ => True

end Delivered

section Deliveries

variable {Decoder : Type}

def deliverAll (deliver : Sender Decoder → Delivery → Except Stop (Sender Decoder)) :
    Sender Decoder → List Delivery → Except Stop (List (Delivered Decoder))
  | _, [] => .ok []
  | before, delivery :: rest => do
      let after ← deliver before delivery
      let later ← deliverAll deliver after rest
      pure (⟨before, delivery, after⟩ :: later)

section

variable {deliver : Sender Decoder → Delivery → Except Stop (Sender Decoder)}

variable {deliveries : List Delivery}

theorem mem_deliverAll {start : Sender Decoder} {run : List (Delivered Decoder)}
    (ran : deliverAll deliver start deliveries = .ok run) {made : Delivered Decoder}
    (inside : made ∈ run) : deliver made.before made.delivery = .ok made.after := by
  induction deliveries generalizing start run with
  | nil =>
      cases ran
      cases inside
  | cons delivery rest ih =>
      rw [deliverAll] at ran
      obtain ⟨after, delivered, others⟩ := ok_of_bind ran
      obtain ⟨later, continued, collected⟩ := ok_of_bind others
      cases collected
      rcases List.mem_cons.mp inside with here | further
      · rw [here]
        exact delivered
      · exact ih continued further

/-- What holds of a delivery under a condition on the state before it, over whole runs. -/
theorem run_iff {condition : Sender Decoder → Prop}
    (step : ∀ before event after, deliver before (.closing event) = .ok after →
      (Delivered.PassedOn ⟨before, .closing event, after⟩ ↔ condition before))
    {start : Sender Decoder} {run : List (Delivered Decoder)}
    (ran : deliverAll deliver start deliveries = .ok run) :
    (∀ made ∈ run, made.PassedOn) ↔
      ∀ made ∈ run, ∀ event, made.delivery = .closing event → condition made.before := by
  constructor
  · intro passed made inside event closing
    have delivered := mem_deliverAll ran inside
    have good := passed made inside
    obtain ⟨before, delivery, after⟩ := made
    dsimp only at closing delivered ⊢
    rw [closing] at delivered good
    exact (step before event after delivered).mp good
  · intro holds made inside
    have delivered := mem_deliverAll ran inside
    have good := holds made inside
    obtain ⟨before, delivery, after⟩ := made
    cases delivery with
    | message => exact trivial
    | closing event => exact (step before event after delivered).mpr (good event rfl)

end

/-- A list of frames does not end with a closing event. -/
theorem frames_without_closing {sent : List Upward} {frames fired : List UpstreamEvent}
    {event : ClosingEvent} :
    sent ++ fired.map .event ≠ sent ++ frames.map .event ++ [.closing event] := by
  intro same
  rw [List.append_assoc] at same
  have tail := List.append_cancel_left same
  have inside : Upward.closing event ∈ fired.map Upward.event := by
    rw [tail]
    exact List.mem_append_right _ List.mem_cons_self
  obtain ⟨frame, -, wrong⟩ := List.mem_map.mp inside
  cases wrong

end Deliveries

structure FrameSubclass (Fields : Type) where
  decode : DecodeM Fields ChannelMessage
  decodeLast : DecodeM Fields ChannelMessage

namespace FrameDecoder

variable {Fields : Type}

/-- What `cleanup` does with a cumulation. -/
def finish (subclass : FrameSubclass Fields) (decoder : FrameDecoder Fields) (fuel : Nat) :
    DecodeM Fields Unit := do
  if (← get).buffer.readable then
    callDecode subclass.decode decoder.unfold_ decoder.channelOwnBuffer fuel
  let partialFrame ← subclass.decodeLast
  if !partialFrame.isEmpty then unfoldAndFireMessageReceived decoder.unfold_ partialFrame
  onBuffer BufferM.clear

def onKept (kept : ChannelBuffer) (program : DecodeM Fields Unit) :
    Exec (Sender (FrameDecoder Fields)) Unit :=
  focus (fun sender => ⟨sender.decoder.fields, kept, []⟩)
    (fun sender context =>
      { decoder := { sender.decoder with
          fields := context.fields
          cumulation := some context.buffer }
        sent := sender.sent ++ context.fired.map .event })
    program

def cleanup (subclass : FrameSubclass Fields) (fuel : Nat) (event : ClosingEvent) :
    Exec (Sender (FrameDecoder Fields)) Unit :=
  tryCatch
    (do
      let decoder := (← get).decoder
      match decoder.cumulation with
      | none => pure ()
      | some kept => onKept kept (finish subclass decoder fuel))
    fun stop =>
      match stop with
      | .thrown _ => Sender.send [.closing event]
      | stop => throw stop

def deliver (subclass : FrameSubclass Fields) (config : ChannelConfig) (fuel : Nat)
    (sender : Sender (FrameDecoder Fields)) :
    Delivery → Except Stop (Sender (FrameDecoder Fields))
  | .message message _ => do
      let handler ← Handler.messageReceived subclass.decode config fuel ⟨sender.decoder, []⟩ message
      pure ⟨handler.decoder, sender.sent ++ handler.fired.map .event⟩
  | .closing event => Sender.handled (cleanup subclass fuel event) sender

/-- Something has been cumulated, and decoding what is left of it throws. -/
def EndThrows (subclass : FrameSubclass Fields) (fuel : Nat)
    (sender : Sender (FrameDecoder Fields)) : Prop :=
  ∃ kept exception left, sender.decoder.cumulation = some kept ∧
    (finish subclass sender.decoder fuel).run ⟨sender.decoder.fields, kept, []⟩ =
      .error (.thrown exception) left

section Closing

variable {subclass : FrameSubclass Fields} {fuel : Nat} {event : ClosingEvent}
  {sender : Sender (FrameDecoder Fields)}

theorem cleanup_unused (unused : sender.decoder.cumulation = none) :
    (cleanup subclass fuel event).run sender = .ok () sender := by
  unfold cleanup
  apply run_tryCatch_ok
  rw [run_bind_get]
  simp only [unused]
  rfl

/-- The part of `cleanup` inside of `try`. -/
theorem cleanup_kept {kept : ChannelBuffer} (stored : sender.decoder.cumulation = some kept) :
    (do
      let decoder := (← get).decoder
      match decoder.cumulation with
      | none => pure ()
      | some kept => onKept kept (finish subclass decoder fuel) :
        Exec (Sender (FrameDecoder Fields)) Unit).run sender =
      (onKept kept (finish subclass sender.decoder fuel)).run sender := by
  rw [run_bind_get]
  simp only [stored]

section

variable {kept : ChannelBuffer} {left : DecodeContext Fields}

theorem cleanup_returns (stored : sender.decoder.cumulation = some kept)
    (ran : (finish subclass sender.decoder fuel).run ⟨sender.decoder.fields, kept, []⟩ =
      .ok () left) :
    ∃ decoder, (cleanup subclass fuel event).run sender =
      .ok () ⟨decoder, sender.sent ++ left.fired.map .event⟩ := by
  refine ⟨{ sender.decoder with fields := left.fields, cumulation := some left.buffer }, ?_⟩
  unfold cleanup
  apply run_tryCatch_ok
  rw [cleanup_kept stored]
  exact run_focus_ok ran

theorem cleanup_throws {stop : Stop}
    (stored : sender.decoder.cumulation = some kept)
    (ran : (finish subclass sender.decoder fuel).run ⟨sender.decoder.fields, kept, []⟩ =
      .error stop left) :
    ∃ decoder, (cleanup subclass fuel event).run sender =
      (match stop with
        | .thrown _ => Sender.send [.closing event]
        | stop => throw stop : Exec (Sender (FrameDecoder Fields)) Unit).run
        ⟨decoder, sender.sent ++ left.fired.map .event⟩ := by
  refine ⟨{ sender.decoder with fields := left.fields, cumulation := some left.buffer }, ?_⟩
  unfold cleanup
  apply run_tryCatch_error
  rw [cleanup_kept stored]
  exact run_focus_error ran

end

/-- The event is passed on out of the `catch` clause only. -/
theorem closing_step {config : ChannelConfig} {after : Sender (FrameDecoder Fields)}
    (delivered : deliver subclass config fuel sender (.closing event) = .ok after) :
    Delivered.PassedOn ⟨sender, .closing event, after⟩ ↔ EndThrows subclass fuel sender := by
  change Sender.handled (cleanup subclass fuel event) sender = .ok after at delivered
  unfold Sender.handled at delivered
  cases stored : sender.decoder.cumulation with
  | none =>
      rw [cleanup_unused stored] at delivered
      cases delivered
      apply iff_of_false
      · rintro ⟨frames, same⟩
        have none_ : sender.sent ++ ([] : List UpstreamEvent).map Upward.event = _ :=
          (List.append_nil _).trans same
        exact frames_without_closing none_
      · rintro ⟨kept, exception, left, found, -⟩
        rw [stored] at found
        cases found
  | some kept =>
      cases ran : (finish subclass sender.decoder fuel).run ⟨sender.decoder.fields, kept, []⟩ with
      | ok value left =>
          obtain ⟨decoder, cleaned⟩ :
              ∃ decoder, (cleanup subclass fuel event).run sender = .ok () ⟨decoder, _⟩ :=
            cleanup_returns stored ran
          rw [cleaned] at delivered
          cases delivered
          apply iff_of_false
          · rintro ⟨frames, same⟩
            exact frames_without_closing same
          · rintro ⟨kept', exception, left', found, threw⟩
            rw [stored] at found
            cases found
            rw [ran] at threw
            cases threw
      | error stop left =>
          obtain ⟨decoder, cleaned⟩ : ∃ decoder, (cleanup subclass fuel event).run sender =
              EStateM.run _ ⟨decoder, _⟩ := cleanup_throws stored ran
          rw [cleaned] at delivered
          cases stop with
          | thrown exception =>
              cases delivered
              apply iff_of_true
              · exact ⟨left.fired, rfl⟩
              · exact ⟨kept, exception, left, stored, ran⟩
          | _ => cases delivered

end Closing

end FrameDecoder

namespace ReplayingDecoder

variable {Fields : Type}

/-- What `cleanup` does with a cumulation. -/
def finish (subclass : ReplayingSubclass Fields) (unfold_ : Bool) (fuel : Nat) :
    ReplayDecodeM Fields Unit := do
  modify fun context => { context with replayable := context.replayable.terminate }
  if (← get).replayable.buffer.readable then callDecode subclass unfold_ fuel
  let partiallyDecoded ← subclass.decodeLast (← get).state
  if !partiallyDecoded.isEmpty then unfoldAndfireMessageReceived unfold_ partiallyDecoded

/-- The member `cumulation` has been reset before. -/
def onDropped (replayable : ReplayingDecoderBuffer) (program : ReplayDecodeM Fields Unit) :
    Exec (Sender (ReplayingDecoder Fields)) Unit :=
  focus (fun sender => sender.decoder.context false replayable [])
    (fun sender context =>
      { decoder := { sender.decoder with
          fields := context.fields
          state := context.state
          checkedPoint := context.checkedPoint
          cumulation := none }
        sent := sender.sent ++ context.fired.map .event })
    program

def cleanup (subclass : ReplayingSubclass Fields) (fuel : Nat) (event : ClosingEvent) :
    Exec (Sender (ReplayingDecoder Fields)) Unit := do
  let decoder := (← get).decoder
  match decoder.cumulation with
  | none => pure ()
  | some replayable =>
      onDropped replayable (finish subclass decoder.unfold_ fuel)
      Sender.send [.closing event]

def receiveMessage (subclass : ReplayingSubclass Fields) (config : ChannelConfig) (fuel : Nat)
    (message : ChannelMessage) (same : Bool) : Exec (Sender (ReplayingDecoder Fields)) Unit :=
  match message with
  | .buffer input =>
      focus (fun sender => ⟨sender.decoder, []⟩)
        (fun sender reception =>
          ⟨reception.decoder, sender.sent ++ reception.fired.map .event⟩)
        (receiveBuffer subclass config fuel input same)
  | other => Sender.send [.event (.messageReceived other)]

def deliver (subclass : ReplayingSubclass Fields) (config : ChannelConfig) (fuel : Nat)
    (sender : Sender (ReplayingDecoder Fields)) :
    Delivery → Except Stop (Sender (ReplayingDecoder Fields))
  | .message message same => Sender.handled (receiveMessage subclass config fuel message same) sender
  | .closing event => Sender.handled (cleanup subclass fuel event) sender

/-- Something has been cumulated, and decoding what is left of it does not throw. -/
def EndReturns (subclass : ReplayingSubclass Fields) (fuel : Nat)
    (sender : Sender (ReplayingDecoder Fields)) : Prop :=
  ∃ replayable left, sender.decoder.cumulation = some replayable ∧
    (finish subclass sender.decoder.unfold_ fuel).run
      (sender.decoder.context false replayable []) = .ok () left

section Closing

variable {subclass : ReplayingSubclass Fields} {fuel : Nat} {event : ClosingEvent}
  {sender : Sender (ReplayingDecoder Fields)}

theorem cleanup_unused (unused : sender.decoder.cumulation = none) :
    (cleanup subclass fuel event).run sender = .ok () sender := by
  unfold cleanup
  rw [run_bind_get]
  simp only [unused]
  rfl

theorem cleanup_used {replayable : ReplayingDecoderBuffer}
    (stored : sender.decoder.cumulation = some replayable) :
    (cleanup subclass fuel event).run sender = (do
      onDropped replayable (finish subclass sender.decoder.unfold_ fuel)
      Sender.send [.closing event] : Exec (Sender (ReplayingDecoder Fields)) Unit).run sender := by
  unfold cleanup
  rw [run_bind_get]
  simp only [stored]

/-- A decoder that has been closed. -/
def closedWith (decoder : ReplayingDecoder Fields) (left : ReplayContext Fields) :
    ReplayingDecoder Fields :=
  { decoder with
    fields := left.fields
    state := left.state
    checkedPoint := left.checkedPoint
    cumulation := none }

section

variable {replayable : ReplayingDecoderBuffer} {left : ReplayContext Fields}

theorem cleanup_returns (stored : sender.decoder.cumulation = some replayable)
    (ran : (finish subclass sender.decoder.unfold_ fuel).run
      (sender.decoder.context false replayable []) = .ok () left) :
    (cleanup subclass fuel event).run sender = .ok () ⟨closedWith sender.decoder left,
      sender.sent ++ left.fired.map .event ++ [.closing event]⟩ := by
  have dropped : (onDropped replayable (finish subclass sender.decoder.unfold_ fuel)).run sender =
      .ok () _ := run_focus_ok ran
  rw [cleanup_used stored, run_bind_ok _ dropped]
  rfl

theorem cleanup_throws {stop : Stop} (stored : sender.decoder.cumulation = some replayable)
    (ran : (finish subclass sender.decoder.unfold_ fuel).run
      (sender.decoder.context false replayable []) = .error stop left) :
    ∃ decoder, (cleanup subclass fuel event).run sender =
      .error stop ⟨decoder, sender.sent ++ left.fired.map .event⟩ := by
  have dropped : (onDropped replayable (finish subclass sender.decoder.unfold_ fuel)).run sender =
      .error stop _ := run_focus_error ran
  refine ⟨{ sender.decoder with
    fields := left.fields
    state := left.state
    checkedPoint := left.checkedPoint
    cumulation := none }, ?_⟩
  rw [cleanup_used stored, run_bind_error _ dropped]

end

/-- An exception of the subclass keeps the event back, and so does a missing cumulation. -/
theorem closing_step {config : ChannelConfig} {after : Sender (ReplayingDecoder Fields)}
    (delivered : deliver subclass config fuel sender (.closing event) = .ok after) :
    Delivered.PassedOn ⟨sender, .closing event, after⟩ ↔ EndReturns subclass fuel sender := by
  change Sender.handled (cleanup subclass fuel event) sender = .ok after at delivered
  unfold Sender.handled at delivered
  cases stored : sender.decoder.cumulation with
  | none =>
      rw [cleanup_unused stored] at delivered
      cases delivered
      apply iff_of_false
      · rintro ⟨frames, same⟩
        have none_ : sender.sent ++ ([] : List UpstreamEvent).map Upward.event = _ :=
          (List.append_nil _).trans same
        exact frames_without_closing none_
      · rintro ⟨replayable, left, found, -⟩
        rw [stored] at found
        cases found
  | some replayable =>
      cases ran : (finish subclass sender.decoder.unfold_ fuel).run
          (sender.decoder.context false replayable []) with
      | ok value left =>
          rw [cleanup_returns stored ran] at delivered
          cases delivered
          apply iff_of_true
          · exact ⟨left.fired, rfl⟩
          · exact ⟨replayable, left, stored, ran⟩
      | error stop left =>
          obtain ⟨decoder, cleaned⟩ :
              ∃ decoder, (cleanup subclass fuel event).run sender = .error stop ⟨decoder, _⟩ :=
            cleanup_throws stored ran
          rw [cleaned] at delivered
          cases stop with
          | thrown exception =>
              cases delivered
              apply iff_of_false
              · rintro ⟨frames, same⟩
                have merged : sender.sent ++ (left.fired ++ [UpstreamEvent.exceptionCaught exception]).map
                    Upward.event = sender.sent ++ frames.map .event ++ [.closing event] := by
                  rw [List.map_append, ← List.append_assoc]
                  exact same
                exact frames_without_closing merged
              · rintro ⟨other, left', found, returned⟩
                rw [stored] at found
                cases found
                rw [ran] at returned
                cases returned
          | _ => cases delivered

end Closing

end ReplayingDecoder

/-- In a run of either decoder every closing event is passed on exactly once, behind the frames,
just when every one of them finds a cumulation that a frame decoder fails to decode to its end and
a replaying decoder decodes to its end. -/
theorem closing_events_pass_iff (Fields : Type) (config : ChannelConfig) (fuel : Nat)
    (deliveries : List Delivery) :
    (∀ (subclass : FrameSubclass Fields) (start : Sender (FrameDecoder Fields))
      (run : List (Delivered (FrameDecoder Fields))),
      deliverAll (FrameDecoder.deliver subclass config fuel) start deliveries = .ok run →
        ((∀ made ∈ run, made.PassedOn) ↔ ∀ made ∈ run, ∀ event,
          made.delivery = .closing event → FrameDecoder.EndThrows subclass fuel made.before)) ∧
      ∀ (subclass : ReplayingSubclass Fields) (start : Sender (ReplayingDecoder Fields))
        (run : List (Delivered (ReplayingDecoder Fields))),
        deliverAll (ReplayingDecoder.deliver subclass config fuel) start deliveries = .ok run →
          ((∀ made ∈ run, made.PassedOn) ↔ ∀ made ∈ run, ∀ event,
            made.delivery = .closing event →
              ReplayingDecoder.EndReturns subclass fuel made.before) := by
  constructor
  · intro subclass start run ran
    exact run_iff (fun _ _ _ => FrameDecoder.closing_step) ran
  · intro subclass start run ran
    exact run_iff (fun _ _ _ => ReplayingDecoder.closing_step) ran

/-- A frame decoder that waits for more, and fails when the connection ends. -/
def unfinished : FrameSubclass Unit :=
  ⟨pure .empty, throw (.thrown ⟨.illegalState, "unfinished"⟩)⟩

def waiting : ReplayingSubclass Unit := ⟨fun _ => pure .empty, fun _ => pure .empty, "Waiting"⟩

def dynamicConfig : ChannelConfig := ⟨false, .big⟩

def unusedFrameDecoder : Sender (FrameDecoder Unit) := ⟨⟨false, false, none, ()⟩, []⟩

def drainedFrameDecoder : Sender (FrameDecoder Unit) :=
  ⟨⟨false, false, some ChannelBuffer.emptyBuffer, ()⟩, []⟩

def drainedReplayingDecoder : Sender (ReplayingDecoder Unit) :=
  ⟨⟨false, false, 0, 0, some (.make ChannelBuffer.emptyBuffer), ()⟩, []⟩

def droppedReplayingDecoder : Sender (ReplayingDecoder Unit) :=
  ⟨⟨false, false, 0, 0, none, ()⟩, [.closing .channelDisconnected]⟩

/-- A frame decoder passes on neither event, a replaying decoder only the first. -/
theorem closing_event_lost :
    (∃ run, deliverAll (FrameDecoder.deliver unfinished dynamicConfig 1) unusedFrameDecoder
        [.closing .channelClosed] = .ok run ∧ ¬∀ made ∈ run, made.PassedOn) ∧
      ∃ run, deliverAll (ReplayingDecoder.deliver waiting dynamicConfig 1) drainedReplayingDecoder
        [.closing .channelDisconnected, .closing .channelClosed] = .ok run ∧
        ¬∀ made ∈ run, made.PassedOn := by
  constructor
  · refine ⟨[⟨unusedFrameDecoder, .closing .channelClosed, unusedFrameDecoder⟩], rfl, ?_⟩
    intro passed
    obtain ⟨frames, same⟩ := passed _ List.mem_cons_self
    cases frames <;> cases same
  · refine ⟨[⟨drainedReplayingDecoder, .closing .channelDisconnected, droppedReplayingDecoder⟩,
      ⟨droppedReplayingDecoder, .closing .channelClosed, droppedReplayingDecoder⟩], rfl, ?_⟩
    intro passed
    obtain ⟨frames, same⟩ := passed _ (List.mem_cons_of_mem _ List.mem_cons_self)
    cases frames <;> cases same

theorem closing_event_passed :
    (∀ made ∈ [(⟨drainedFrameDecoder, .closing .channelClosed,
        ⟨drainedFrameDecoder.decoder, [.closing .channelClosed]⟩⟩ : Delivered (FrameDecoder Unit))],
      made.PassedOn) ∧
      ∀ made ∈ [(⟨drainedReplayingDecoder, .closing .channelDisconnected,
        droppedReplayingDecoder⟩ : Delivered (ReplayingDecoder Unit))], made.PassedOn := by
  have frames := (closing_events_pass_iff Unit dynamicConfig 1 [.closing .channelClosed]).1
    unfinished drainedFrameDecoder _ rfl
  have replays := (closing_events_pass_iff Unit dynamicConfig 1
    [.closing .channelDisconnected]).2 waiting drainedReplayingDecoder _ rfl
  constructor
  · apply frames.mpr
    intro made inside event closing
    rw [List.mem_singleton.mp inside]
    exact ⟨_, _, _, rfl, rfl⟩
  · apply replays.mpr
    intro made inside event closing
    rw [List.mem_singleton.mp inside]
    exact ⟨_, _, rfl, rfl⟩

end Cetty
