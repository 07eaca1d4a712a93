import Cetty.DecoderClosing
import Cetty.Outcomes
import Cetty.ReplayReception

/-!
# The decode calls of a run

What each decode call of a run keeps of the fields and the state, the run keeps. The buffer, the
checkpoint and the fired events are the affair of the loop around the calls.
-/

namespace Cetty

namespace ReplayingDecoder

variable {Fields : Type}

section Calls

variable (subclass : ReplayingSubclass Fields) (config : ChannelConfig) (fuel : Nat)

/-- The contexts in which the loop makes its decode calls. -/
def loopCalls (unfold_ : Bool) : Nat → ReplayContext Fields → List (ReplayContext Fields)
  | 0, _ => []
  | fuel + 1, context =>
      if context.replayable.buffer.readable then
        checked context ::
          match (decodeRound subclass unfold_).run context with
          | .ok true next => loopCalls unfold_ fuel next
          | _ => []
      else []

def ended (context : ReplayContext Fields) : ReplayContext Fields :=
  { context with replayable := context.replayable.terminate }

/-- Behind the loop there is one more call. -/
def finishCalls (unfold_ : Bool) (context : ReplayContext Fields) : List (ReplayContext Fields) :=
  if (ended context).replayable.buffer.readable then
    loopCalls subclass unfold_ fuel (ended context) ++
      match (callDecode subclass unfold_ fuel).run (ended context) with
      | .ok _ left => [left]
      | .error _ _ => []
  else [ended context]

def deliveryCalls (sender : Sender (ReplayingDecoder Fields)) :
    Delivery → List (ReplayContext Fields)
  | .message (.buffer input) same =>
      if input.readable then
        match (getCumulation config input same).run ⟨sender.decoder, []⟩ with
        | .ok _ reception =>
            loopCalls subclass reception.decoder.unfold_ fuel
              (reception.decoder.context true
                (reception.decoder.cumulation.getD (.make .emptyBuffer)) reception.fired)
        | .error _ _ => []
      else []
  | .message _ _ => []
  | .closing _ =>
      match sender.decoder.cumulation with
      | some replayable =>
          finishCalls subclass fuel sender.decoder.unfold_
            (sender.decoder.context false replayable [])
      | none => []

def handle : Delivery → Exec (Sender (ReplayingDecoder Fields)) Unit
  | .message message same => receiveMessage subclass config fuel message same
  | .closing event => cleanup subclass fuel event

/-- What a delivery leaves, however it ends. -/
def delivered (sender : Sender (ReplayingDecoder Fields)) (delivery : Delivery) :
    Sender (ReplayingDecoder Fields) :=
  match (handle subclass config fuel delivery).run sender with
  | .ok _ after => after
  | .error (.thrown exception) after =>
      { after with sent := after.sent ++ [.event (.exceptionCaught exception)] }
  | .error _ after => after

def deliveredAll (sender : Sender (ReplayingDecoder Fields)) (deliveries : List Delivery) :
    Sender (ReplayingDecoder Fields) :=
  deliveries.foldl (delivered subclass config fuel) sender

/-- The decode calls of a run. -/
def runCalls : Sender (ReplayingDecoder Fields) → List Delivery → List (ReplayContext Fields)
  | _, [] => []
  | sender, delivery :: rest =>
      deliveryCalls subclass config fuel sender delivery ++
        runCalls (delivered subclass config fuel sender delivery) rest

end Calls

section Keeping

variable {subclass : ReplayingSubclass Fields} {kept : Fields → Int → Prop}
  {good : ReplayContext Fields → Prop} {config : ChannelConfig} {fuel : Nat} {unfold_ : Bool}

/-- An assertion about the fields and the state of a context. -/
def Within (kept : Fields → Int → Prop) (context : ReplayContext Fields) : Prop :=
  kept context.fields context.state

/-- A decode call that is made under a condition keeps an assertion. -/
def CallsKeep (subclass : ReplayingSubclass Fields) (kept : Fields → Int → Prop)
    (good : ReplayContext Fields → Prop) : Prop :=
  ∀ call, Within kept call → good call → Within kept (leaves (subclass.decode call.state) call)

theorem concluding (unfold_ : Bool) (before : ReplayContext Fields) (frame : ChannelMessage)
    (after : ReplayContext Fields) :
    Keeps (Within kept) (conclude subclass unfold_ before frame after) :=
  @ReplayReception.conclude_keeps Fields subclass (fun fields state _ => kept fields state) unfold_
    before frame after fun _ _ _ _ _ holds => holds

section

variable (calls : CallsKeep subclass kept good) {context : ReplayContext Fields}
  (holds : Within kept context)

include calls holds

theorem round_keeps (fine : context.replayable.buffer.readable = true → good (checked context)) :
    Within kept (leaves (decodeRound subclass unfold_) context) := by
  cases readable : context.replayable.buffer.readable with
  | false =>
      rw [leaves_ok (decodeRound_unreadable readable)]
      exact holds
  | true =>
      have outcome : Within kept (leaves (subclass.decode context.state) (checked context)) :=
        calls (checked context) holds (fine readable)
      cases decoded : (subclass.decode context.state).run (checked context) with
      | error stop after =>
          rw [leaves_error decoded] at outcome
          rw [leaves_error (decodeRound_stops readable decoded)]
          exact outcome
      | ok frame after =>
          rw [leaves_ok decoded] at outcome
          rw [leaves_same (decodeRound_readable readable decoded)]
          exact (concluding unfold_ context frame after).leaves outcome

theorem loop_keeps (fine : ∀ call ∈ loopCalls subclass unfold_ fuel context, good call) :
    Within kept (leaves (callDecode subclass unfold_ fuel) context) := by
  induction fuel generalizing context with
  | zero => exact holds
  | succ fuel induction =>
      have first : context.replayable.buffer.readable = true → good (checked context) := by
        intro readable
        apply fine
        rw [loopCalls, if_pos readable]
        exact List.mem_cons_self
      have outcome : Within kept (leaves (decodeRound subclass unfold_) context) :=
        round_keeps calls holds first
      cases round : (decodeRound subclass unfold_).run context with
      | error stop after =>
          rw [leaves_error round] at outcome
          rw [leaves_error (callDecode_stops round)]
          exact outcome
      | ok again after =>
          rw [leaves_ok round] at outcome
          cases again with
          | false =>
              rw [leaves_ok (callDecode_ends round)]
              exact outcome
          | true =>
              rw [leaves_same (callDecode_goes_on round)]
              apply induction outcome
              intro call among
              cases readable : context.replayable.buffer.readable with
              | false =>
                  rw [decodeRound_unreadable readable] at round
                  cases round
              | true =>
                  apply fine
                  rw [loopCalls, if_pos readable, round]
                  exact List.mem_cons_of_mem _ among

end

/-- The last call and what is fired on its account. -/
def lastCall (subclass : ReplayingSubclass Fields) (unfold_ : Bool) :
    ReplayDecodeM Fields Unit := do
  let partiallyDecoded ← subclass.decodeLast (← get).state
  if !partiallyDecoded.isEmpty then unfoldAndfireMessageReceived unfold_ partiallyDecoded

theorem lastCall_keeps (last : subclass.decodeLast = subclass.decode)
    (calls : CallsKeep subclass kept good) {context : ReplayContext Fields}
    (holds : Within kept context) (fine : good context) :
    Within kept (leaves (lastCall subclass unfold_) context) := by
  have outcome : Within kept (leaves (subclass.decodeLast context.state) context) := by
    rw [last]
    exact calls context holds fine
  have got : (lastCall subclass unfold_).run context = (do
      let partiallyDecoded ← subclass.decodeLast context.state
      if !partiallyDecoded.isEmpty then unfoldAndfireMessageReceived unfold_ partiallyDecoded :
      ReplayDecodeM Fields Unit).run context := rfl
  rw [leaves_same got]
  cases decoded : (subclass.decodeLast context.state).run context with
  | error stop after =>
      rw [leaves_error decoded] at outcome
      rw [leaves_error (run_bind_error _ decoded)]
      exact outcome
  | ok frame after =>
      rw [leaves_ok decoded] at outcome
      rw [leaves_same (run_bind_ok _ decoded)]
      have fires : Keeps (Within kept)
          (if (!frame.isEmpty) = true then unfoldAndfireMessageReceived unfold_ frame
            else pure () : ReplayDecodeM Fields Unit) := by
        refine Keeps.ite (fun _ => Keeps.modify ?_) fun _ => Keeps.pure _
        intro _ holds
        exact holds
      exact fires.leaves outcome

theorem finish_run (subclass : ReplayingSubclass Fields) (unfold_ : Bool) (fuel : Nat) (context : ReplayContext Fields) :
    (finish subclass unfold_ fuel).run context =
      if (ended context).replayable.buffer.readable then
        (callDecode subclass unfold_ fuel >>= fun _ => lastCall subclass unfold_).run (ended context)
      else (lastCall subclass unfold_).run (ended context) := by
  by_cases readable : (ended context).replayable.buffer.readable = true
  · rw [if_pos readable]
    unfold finish
    rw [EStateM.run_bind, EStateM.run_modify]
    dsimp only
    rw [run_bind_get]
    rw [if_pos (show context.replayable.terminate.buffer.readable = true from readable)]
    rfl
  · rw [if_neg readable]
    unfold finish
    rw [EStateM.run_bind, EStateM.run_modify]
    dsimp only
    rw [run_bind_get]
    rw [if_neg (show ¬context.replayable.terminate.buffer.readable = true from readable)]
    rfl

theorem finish_keeps (last : subclass.decodeLast = subclass.decode)
    (calls : CallsKeep subclass kept good) {context : ReplayContext Fields}
    (holds : Within kept context)
    (fine : ∀ call ∈ finishCalls subclass fuel unfold_ context, good call) :
    Within kept (leaves (finish subclass unfold_ fuel) context) := by
  unfold finishCalls at fine
  have ran := finish_run subclass unfold_ fuel context
  by_cases readable : (ended context).replayable.buffer.readable = true
  · rw [if_pos readable] at fine ran
    rw [leaves_same ran]
    have outcome : Within kept (leaves (callDecode subclass unfold_ fuel) (ended context)) :=
      loop_keeps calls holds fun call among => fine call (List.mem_append_left _ among)
    cases looped : (callDecode subclass unfold_ fuel).run (ended context) with
    | error stop after =>
        rw [leaves_error looped] at outcome
        rw [leaves_error (run_bind_error _ looped)]
        exact outcome
    | ok value left =>
        rw [leaves_ok looped] at outcome
        rw [looped] at fine
        rw [leaves_same (run_bind_ok _ looped)]
        exact lastCall_keeps last calls outcome
          (fine left (List.mem_append_right _ List.mem_cons_self))
  · rw [if_neg readable] at fine ran
    rw [leaves_same ran]
    exact lastCall_keeps last calls holds (fine _ List.mem_cons_self)

/-- An assertion about the fields and the state of a decoder. -/
def Held (kept : Fields → Int → Prop) (decoder : ReplayingDecoder Fields) : Prop :=
  kept decoder.fields decoder.state

theorem getCumulation_holds (config : ChannelConfig) (input : ChannelBuffer) (same : Bool) :
    Keeps (fun reception : ReplayReception Fields => Held kept reception.decoder)
      (getCumulation config input same) :=
  @ReplayReception.getCumulation_keeps Fields (fun fields state _ => kept fields state)
    config input same

variable {sender : Sender (ReplayingDecoder Fields)}

theorem receive_keeps (calls : CallsKeep subclass kept good) {same : Bool} {input : ChannelBuffer}
    (holds : Held kept sender.decoder)
    (fine : ∀ call ∈ deliveryCalls subclass config fuel sender (.message (.buffer input) same),
      good call) :
    Held kept (leaves (receiveBuffer subclass config fuel input same)
      ⟨sender.decoder, []⟩).decoder := by
  by_cases readable : input.readable = true
  · have fetched : Held kept
        (leaves (getCumulation config input same) ⟨sender.decoder, []⟩).decoder :=
      (getCumulation_holds config input same).leaves holds
    unfold deliveryCalls at fine
    dsimp only at fine
    rw [if_pos readable] at fine
    unfold receiveBuffer
    rw [if_pos readable]
    cases got : (getCumulation config input same).run ⟨sender.decoder, []⟩ with
    | error stop reception =>
        rw [leaves_error got] at fetched
        rw [leaves_error (run_bind_error _ got)]
        exact fetched
    | ok value reception =>
        rw [leaves_ok got] at fetched
        rw [got] at fine
        rw [leaves_same (run_bind_ok _ got)]
        have looped : Within kept (leaves (callDecode subclass reception.decoder.unfold_ fuel)
            (reception.decoder.context true
              (reception.decoder.cumulation.getD (.make .emptyBuffer)) reception.fired)) :=
          loop_keeps calls fetched fine
        have rest : (do
            let unfold_ := (← get).decoder.unfold_
            onCumulation (callDecode subclass unfold_ fuel) :
            Exec (ReplayReception Fields) Unit).run reception =
            (onCumulation (callDecode subclass reception.decoder.unfold_ fuel)).run reception := rfl
        rw [leaves_same rest]
        unfold onCumulation
        rw [leaves_focus]
        exact looped
  · unfold receiveBuffer
    rw [if_neg readable]
    exact holds

theorem cleanup_keeps (last : subclass.decodeLast = subclass.decode)
    (calls : CallsKeep subclass kept good)
    {event : ClosingEvent} (holds : Held kept sender.decoder)
    (fine : ∀ call ∈ deliveryCalls subclass config fuel sender (.closing event), good call) :
    Held kept (leaves (cleanup subclass fuel event) sender).decoder := by
  unfold deliveryCalls at fine
  dsimp only at fine
  cases stored : sender.decoder.cumulation with
  | none =>
      rw [leaves_ok (cleanup_unused stored)]
      exact holds
  | some replayable =>
      rw [stored] at fine
      have finished : Within kept (leaves (finish subclass sender.decoder.unfold_ fuel)
          (sender.decoder.context false replayable [])) := finish_keeps last calls holds fine
      have dropped : Held kept (leaves (onDropped replayable
          (finish subclass sender.decoder.unfold_ fuel)) sender).decoder := by
        unfold onDropped
        rw [leaves_focus]
        exact finished
      rw [leaves_same (cleanup_used stored)]
      cases ended : (onDropped replayable (finish subclass sender.decoder.unfold_ fuel)).run
          sender with
      | error stop after =>
          rw [leaves_error ended] at dropped
          rw [leaves_error (run_bind_error _ ended)]
          exact dropped
      | ok value after =>
          rw [leaves_ok ended] at dropped
          rw [leaves_same (run_bind_ok _ ended)]
          exact dropped

/-- The events of a delivery do not matter to the decoder. -/
theorem delivered_decoder (sender : Sender (ReplayingDecoder Fields)) (delivery : Delivery) :
    (delivered subclass config fuel sender delivery).decoder =
      (leaves (handle subclass config fuel delivery) sender).decoder := by
  unfold delivered
  cases ran : (handle subclass config fuel delivery).run sender with
  | ok value after => rw [leaves_ok ran]
  | error stop after =>
      rw [leaves_error ran]
      cases stop <;> rfl

section

variable (last : subclass.decodeLast = subclass.decode) (calls : CallsKeep subclass kept good)
  {sender : Sender (ReplayingDecoder Fields)}

include last calls

theorem delivery_keeps {delivery : Delivery} (holds : Held kept sender.decoder)
    (fine : ∀ call ∈ deliveryCalls subclass config fuel sender delivery, good call) :
    Held kept (delivered subclass config fuel sender delivery).decoder := by
  rw [delivered_decoder]
  cases delivery with
  | closing event => exact cleanup_keeps last calls holds fine
  | message message same =>
      cases message with
      | buffer input =>
          have received := receive_keeps calls holds fine
          change Held kept (leaves (focus _ _ _) sender).decoder
          rw [leaves_focus]
          exact received
      | _ => exact holds

/-- What every decode call of a run keeps, the run keeps. -/
theorem run_keeps {deliveries : List Delivery} (holds : Held kept sender.decoder)
    (fine : ∀ call ∈ runCalls subclass config fuel sender deliveries, good call) :
    Held kept (deliveredAll subclass config fuel sender deliveries).decoder := by
  induction deliveries generalizing sender with
  | nil => exact holds
  | cons delivery rest induction =>
      apply induction
      · exact delivery_keeps last calls holds
          fun call among => fine call (List.mem_append_left _ among)
      · exact fun call among => fine call (List.mem_append_right _ among)

end

end Keeping

end ReplayingDecoder

end Cetty
