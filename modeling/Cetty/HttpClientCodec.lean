import Cetty.HttpChunkAggregator
import Cetty.HttpMessageDecoder

/-!
# HttpClientCodec

The codec declares an encoder that notes the method of every request and a decoder that asks for it
when it decides whether a response has content. Neither function has the signature of the one it is
meant to override, and the second of those is not virtual, so the handlers call neither.
-/

namespace Cetty

open CLocale

/-- `popped` holds the methods that were taken out of the queue. -/
structure HttpClientCodec where
  queue : List HttpMethod
  done : Bool
  popped : List HttpMethod
  deriving DecidableEq, Repr

namespace HttpHeld

/-- `smartPointer<HttpRequest, HttpMessage>()`, of which the method is asked. -/
def requestMethod (held : HttpHeld) : Option HttpMethod :=
  match held.smartPointer with
  | some message =>
      match message.start with
      | .request method _ => some method
      | .response _ => none
  | none => none

end HttpHeld

namespace HttpClientCodec

abbrev Codec (Value : Type) := Exec HttpClientCodec Value

/-- `HttpMessageEncoder::encode`, as far as the codec is concerned. -/
def encodeMessage (_ : HttpHeld) : Codec Unit := pure ()

namespace Encoder

def encode (msg : HttpHeld) : Codec Unit := do
  match msg.requestMethod with
  | some method =>
      if (← get).done = false then
        modify fun codec => { codec with queue := method :: codec.queue }
  | none => pure ()
  encodeMessage msg

end Encoder

namespace Decoder

def isContentAlwaysEmpty (msg : HttpMessage) : Codec Bool := do
  match msg.start with
  | .request _ _ => throw .assertion
  | .response status =>
      if status.code = 100 then pure true
      else
        match (← get).queue with
        | [] => throw .outOfBounds
        | method :: queue =>
            modify fun codec => { codec with queue := queue, popped := codec.popped ++ [method] }
            if method.name.head? = some 72 ∧ HttpMethod.HM_HEAD.name = method.name then
              pure (!msg.isChunked)
            else if method.name.head? = some 67 ∧ status.code = 200 ∧
                HttpMethod.HM_CONNECT.name = method.name then
              modify fun codec => { codec with queue := [], done := true }
              pure true
            else pure (HttpMessageDecoder.isContentAlwaysEmpty msg)

end Decoder

/-- The functions behind two calls: of `encode` in `OneToOneEncoder::writeRequested` and of
`isContentAlwaysEmpty` in `HttpMessageDecoder::readHeaders`. -/
structure Calls where
  encode : HttpHeld → Codec Unit
  isContentAlwaysEmpty : HttpMessage → Codec Bool

/-- The first call passes a constant reference and the second is not virtual. -/
def reached : Calls where
  encode := encodeMessage
  isContentAlwaysEmpty msg := pure (HttpMessageDecoder.isContentAlwaysEmpty msg)

/-- What the codec declares for them. -/
def declared : Calls where
  encode := Encoder.encode
  isContentAlwaysEmpty := Decoder.isContentAlwaysEmpty

inductive Event where
  | written (msg : HttpHeld)
  | decoded (response : HttpMessage)

namespace Event

def method : Event → Option HttpMethod
  | written msg => msg.requestMethod
  | decoded _ => none

/-- A response other than 100-continue. -/
def isFinal : Event → Bool
  | written _ => false
  | decoded response =>
      match response.start with
      | .request _ _ => false
      | .response status => status.code != 100

end Event

def perform (calls : Calls) : Event → Codec Unit
  | .written msg => calls.encode msg
  | .decoded response => do
      let _ ← calls.isContentAlwaysEmpty response

def performAll (calls : Calls) : List Event → Codec Unit
  | [] => pure ()
  | event :: events => do
      perform calls event
      performAll calls events

def requested (events : List Event) : List HttpMethod := events.filterMap Event.method

def finals (events : List Event) : Nat := events.countP Event.isFinal

/-- No final response before its request. -/
def InTurn (events : List Event) : Prop :=
  ∀ before, before <+: events → finals before ≤ (requested before).length

/-- The methods taken out of the queue are those of the first requests, one for each final response,
and none is asked of an empty queue. -/
def Pairs (calls : Calls) (codec : HttpClientCodec) (events : List Event) : Prop :=
  ∃ after, (performAll calls events).run codec = .ok () after ∧
    after.popped = codec.popped ++ (requested events).take (finals events)

theorem reached_keeps (codec : HttpClientCodec) (events : List Event) :
    (performAll reached events).run codec = .ok () codec := by
  induction events with
  | nil => rfl
  | cons event events induction =>
      have first : (perform reached event).run codec = .ok () codec := by
        cases event with
        | written msg => rfl
        | decoded response => rfl
      rw [performAll, run_bind_ok _ first]
      exact induction

/-- No response is paired with its request. -/
theorem reached_pairs_iff (codec : HttpClientCodec) (events : List Event) (turn : InTurn events) :
    Pairs reached codec events ↔ finals events = 0 := by
  unfold Pairs
  rw [reached_keeps]
  constructor
  · rintro ⟨after, ran, popped⟩
    cases ran
    have enough := turn events List.prefix_rfl
    have none : (requested events).take (finals events) = [] :=
      List.append_cancel_left (popped.symm.trans (List.append_nil _).symm)
    have length := congrArg List.length none
    rw [List.length_take, Nat.min_eq_left enough] at length
    exact length
  · intro none
    refine ⟨codec, rfl, ?_⟩
    rw [none, List.take_zero, List.append_nil]

theorem reached_pairs_before_response :
    Pairs reached ⟨[], false, []⟩
      [.written (.httpMessage (HttpMessage.fresh HttpVersion.HTTP_1_1
        (.request HttpMethod.HM_HEAD (text "/"))))] ↔
      finals [.written (.httpMessage (HttpMessage.fresh HttpVersion.HTTP_1_1
        (.request HttpMethod.HM_HEAD (text "/"))))] = 0 := by
  refine reached_pairs_iff ⟨[], false, []⟩ _ fun before shorter => ?_
  have none : finals before = 0 := by
    refine List.countP_eq_zero.mpr fun event among => ?_
    rw [List.mem_singleton.mp (shorter.subset among)]
    exact Bool.false_ne_true
  rw [none]
  exact Nat.zero_le _

/-- The content of the response to a HEAD request is read, and of two requests that wait at once the
declared functions would take the second one first. -/
theorem head_response_keeps_content :
    ¬Pairs reached ⟨[], false, []⟩
      [.written (.httpMessage (HttpMessage.fresh HttpVersion.HTTP_1_1
          (.request HttpMethod.HM_HEAD (text "/")))),
        .decoded (HttpMessage.fresh HttpVersion.HTTP_1_1 (.response ⟨200, text "OK"⟩))] ∧
    (reached.isContentAlwaysEmpty
      (HttpMessage.fresh HttpVersion.HTTP_1_1 (.response ⟨200, text "OK"⟩))).run ⟨[], false, []⟩ =
      .ok false ⟨[], false, []⟩ ∧
    ¬Pairs declared ⟨[], false, []⟩
      [.written (.httpMessage (HttpMessage.fresh HttpVersion.HTTP_1_1
          (.request HttpMethod.HM_GET (text "/")))),
        .written (.httpMessage (HttpMessage.fresh HttpVersion.HTTP_1_1
          (.request HttpMethod.HM_HEAD (text "/")))),
        .decoded (HttpMessage.fresh HttpVersion.HTTP_1_1 (.response ⟨200, text "OK"⟩))] := by
  refine ⟨?_, rfl, ?_⟩
  · rintro ⟨after, ran, popped⟩
    cases ran
    revert popped
    decide
  · rintro ⟨after, ran, popped⟩
    cases ran
    revert popped
    decide

end HttpClientCodec

end Cetty
