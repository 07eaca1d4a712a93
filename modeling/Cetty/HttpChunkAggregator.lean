import Cetty.FrameDecoder
import Cetty.HeaderTable
import Cetty.HttpMessage

/-!
# HttpChunkAggregator

A message event carries a pointer of one declared type, and is asked for pointers by that type. The
aggregator asks for its chunks under the type of the messages, so it never sees one.
-/

namespace Cetty

open CLocale MachineInt

/-- A pointer with its declared type. -/
inductive HttpHeld where
  | httpMessage (message : HttpMessage)
  | httpChunk (chunk : HttpChunk)
  | httpChunkTrailer (header : DefaultHttpHeader)
  | other

namespace HttpHeld

/-- `smartPointer<HttpMessage>()`. -/
def smartPointer : HttpHeld → Option HttpMessage
  | httpMessage message => some message
  | _ => none

/-- `smartPointer<HttpChunk, HttpMessage>()`: a pointer to a message, cast to a chunk. No message is
one. -/
def chunkOfMessage (held : HttpHeld) : Option HttpChunk :=
  match held.smartPointer with
  | some _ => none
  | none => none

/-- The chunk behind the pointer. -/
def chunk : HttpHeld → Option HttpChunk
  | httpChunk chunk => some chunk
  | httpChunkTrailer header => some (.trailer header)
  | _ => none

end HttpHeld

namespace HttpChunk

def getContent : HttpChunk → ChannelBuffer
  | chunk content => content
  | trailer _ => .emptyBuffer

end HttpChunk

namespace DefaultHttpHeader

def removeValue (this : DefaultHttpHeader) (name value : Text) : DefaultHttpHeader :=
  if name = [] then this
  else ⟨this.entries.filter fun e => !(e.named name && eq value e.value)⟩

def set (this : DefaultHttpHeader) (name value : Text) : Except Stop DefaultHttpHeader :=
  if value = [] then pure this
  else do
    HttpCodecUtil.validateHeaderName name
    HttpCodecUtil.validateHeaderValue value
    pure ((this.remove name).addHeader name value)

end DefaultHttpHeader

structure HttpChunkAggregator where
  maxContentLength : Int
  positive : 0 < maxContentLength
  currentMessage : Option HttpMessage
  sent : List HttpHeld

namespace HttpChunkAggregator

abbrev Aggregate (Value : Type) := Exec HttpChunkAggregator Value

def fresh (maxContentLength : Int) (positive : 0 < maxContentLength) : HttpChunkAggregator :=
  ⟨maxContentLength, positive, none, []⟩

def sendUpstream (held : HttpHeld) : Aggregate Unit :=
  modify fun this => { this with sent := this.sent ++ [held] }

def keep (message : Option HttpMessage) : Aggregate Unit :=
  modify fun this => { this with currentMessage := message }

/-- `*currentMessage`. -/
def theMessage : Aggregate HttpMessage := do
  match (← get).currentMessage with
  | some message => pure message
  | none => throw .outOfBounds

def setHeader (name value : Text) : Aggregate Unit := do
  let message ← theMessage
  let header ← call (message.header.set name value)
  keep (some { message with header })

/-- `currentMessage` is already reset when its headers are set. -/
def finish (chunk : HttpChunk) (content : ChannelBuffer) : Aggregate Unit := do
  keep none
  match chunk with
  | .trailer header => header.getAll.forM fun value => setHeader value.1 value.2
  | .chunk _ => pure ()
  setHeader HttpHeaders.Names.CONTENT_LENGTH (DefaultHttpHeader.decimal content.readableBytes)
  sendUpstream (.httpMessage (← theMessage))

def tooLong (maxContentLength : Int) : Stop := .thrown ⟨.tooLongFrame,
  "HTTP content length exceeded " ++ ToString.toString maxContentLength ++ " bytes."⟩

def chunkReceived (chunk : HttpChunk) : Aggregate Unit := do
  let this ← get
  match this.currentMessage with
  | none => throw (.thrown ⟨.illegalState, "received HttpChunk  without HttpMessage"⟩)
  | some message =>
      match message.content with
      | none => throw .outOfBounds
      | some content =>
          if int32 (this.maxContentLength - chunk.getContent.readableBytes) <
              content.readableBytes then
            throw (tooLong this.maxContentLength)
          else
            match (BufferM.writeBytes chunk.getContent).run content with
            | .error stop written => do
                keep (some { message with content := some written })
                throw stop
            | .ok _ written => do
                keep (some { message with content := some written })
                if chunk.isLast then finish chunk written

def messageReceived (factory : ByteOrder) (held : HttpHeld) : Aggregate Unit := do
  match held.smartPointer with
  | some m =>
      if m.isChunked then
        let header := m.header.removeValue HttpHeaders.Names.TRANSFER_ENCODING
          HttpHeaders.Values.CHUNKED
        let m ← call ({ m with header }.setChunked false)
        let m ← call (m.setContent (← call (dynamicBuffer factory)))
        keep none
        keep (some m)
      else
        keep none
        sendUpstream held
  | none =>
      match held.chunkOfMessage with
      | some chunk => chunkReceived chunk
      | none => sendUpstream held

/-- What every event of a sequence raised, and the aggregator after it. -/
def receiveAll (factory : ByteOrder) :
    List HttpHeld → HttpChunkAggregator → List (Option Stop) × HttpChunkAggregator
  | [], this => ([], this)
  | held :: rest, this =>
      match (messageReceived factory held).run this with
      | .ok _ after =>
          let others := receiveAll factory rest after
          (none :: others.1, others.2)
      | .error stop after =>
          let others := receiveAll factory rest after
          (some stop :: others.1, others.2)

/-- The message that a sequence of chunks should be made into. -/
structure Whole (message : HttpMessage) (chunks : List HttpChunk) (whole : HttpMessage) : Prop where
  start : whole.start = message.start
  version : whole.version = message.version
  unchunked : whole.isChunked = false
  content : ∃ content, whole.content = some content ∧
    content.readableContent = chunks.flatMap fun chunk => chunk.getContent.readableContent
  length : whole.header.get HttpHeaders.Names.CONTENT_LENGTH =
    text (toString (chunks.flatMap fun chunk => chunk.getContent.readableContent).length)
  trailers : ∀ header, .trailer header ∈ chunks → ∀ value ∈ header.getAll,
    value.2 ∈ whole.header.gets value.1

/-- The length of the content of some chunks. -/
def totalLength (chunks : List HttpChunk) : Nat :=
  (chunks.flatMap fun chunk => chunk.getContent.readableContent).length

/-- What the aggregator is for: one whole message, or an exception at the first chunk that does not
fit any more. -/
def Aggregates (factory : ByteOrder) (this : HttpChunkAggregator) (message : HttpMessage)
    (events : List HttpHeld) : Prop :=
  let chunks := events.filterMap HttpHeld.chunk
  let outcome := receiveAll factory (.httpMessage message :: events) this
  ((totalLength chunks : Int) ≤ this.maxContentLength →
    outcome.1 = List.replicate (events.length + 1) none ∧ outcome.2.currentMessage = none ∧
    ∃ whole, outcome.2.sent = this.sent ++ [.httpMessage whole] ∧ Whole message chunks whole) ∧
  (this.maxContentLength < totalLength chunks →
    ∃ count stop exception, this.maxContentLength < totalLength (chunks.take (count + 1)) ∧
      (totalLength (chunks.take count) : Int) ≤ this.maxContentLength ∧
      outcome.1[count + 1]? = some (some stop) ∧ stop = .thrown exception ∧
      exception.cls = .tooLongFrame)

variable {factory : ByteOrder} {this : HttpChunkAggregator}

theorem chunkOfMessage_none (held : HttpHeld) : held.chunkOfMessage = none := by
  unfold HttpHeld.chunkOfMessage
  cases held.smartPointer with
  | none => rfl
  | some message => rfl

variable {held : HttpHeld} {events : List HttpHeld}

/-- What is no message goes on as it came. -/
theorem other_forwarded (other : held.smartPointer = none) :
    (messageReceived factory held).run this =
      .ok () { this with sent := this.sent ++ [held] } := by
  unfold messageReceived
  rw [other, chunkOfMessage_none]
  rfl

theorem others_forwarded (others : ∀ held ∈ events, held.smartPointer = none) :
    receiveAll factory events this =
      (List.replicate events.length none, { this with sent := this.sent ++ events }) := by
  induction events generalizing this with
  | nil =>
      rw [List.append_nil]
      rfl
  | cons held events induction =>
      have rest : receiveAll factory events { this with sent := this.sent ++ [held] } =
          (List.replicate events.length none,
            { this with sent := this.sent ++ [held] ++ events }) :=
        induction fun later among => others later (List.mem_cons_of_mem _ among)
      rw [receiveAll, other_forwarded (others held List.mem_cons_self)]
      dsimp only
      rw [rest, List.append_assoc]
      rfl

/-- A chunked message is kept and nothing is sent. -/
theorem chunked_kept {message : HttpMessage} (chunked : message.isChunked = true) :
    ∃ kept, (messageReceived factory (.httpMessage message)).run this =
      .ok () { this with currentMessage := some kept } := by
  unfold messageReceived HttpHeld.smartPointer
  dsimp only
  rw [if_pos chunked]
  exact ⟨_, rfl⟩

theorem sequence_forwarded (factory : ByteOrder) (this : HttpChunkAggregator)
    {message : HttpMessage} (chunked : message.isChunked = true) (others : ∀ held ∈ events, held.smartPointer = none) :
    ∃ kept, receiveAll factory (.httpMessage message :: events) this =
      (List.replicate (events.length + 1) none,
        { this with currentMessage := some kept, sent := this.sent ++ events }) := by
  obtain ⟨kept, first⟩ : ∃ kept, (messageReceived factory (.httpMessage message)).run this =
      .ok () { this with currentMessage := some kept } := chunked_kept chunked
  refine ⟨kept, ?_⟩
  rw [receiveAll, first]
  dsimp only
  rw [others_forwarded others]
  rfl

theorem other_of_chunk {chunk : HttpChunk} (carries : held.chunk = some chunk) :
    held.smartPointer = none := by
  cases held with
  | httpMessage message => cases carries
  | httpChunk chunk => rfl
  | httpChunkTrailer header => rfl
  | other => rfl

/-- No sequence is aggregated: the message stays behind and its chunks are sent on. -/
theorem never_aggregates (factory : ByteOrder) (this : HttpChunkAggregator)
    (message : HttpMessage) (chunked : message.isChunked = true) (chunks : List HttpHeld)
    (contents : ∀ held ∈ chunks, ∃ chunk, held.chunk = some chunk ∧ chunk.isLast = false)
    (last : HttpHeld) (ends : ∃ chunk, last.chunk = some chunk ∧ chunk.isLast = true) :
    ¬Aggregates factory this message (chunks ++ [last]) := by
  have others : ∀ held ∈ chunks ++ [last], held.smartPointer = none := by
    intro held among
    rcases List.mem_append.mp among with before | final
    · obtain ⟨chunk, carries, _⟩ := contents held before
      exact other_of_chunk carries
    · obtain ⟨chunk, carries, _⟩ := ends
      rw [List.mem_singleton.mp final]
      exact other_of_chunk carries
  obtain ⟨kept, outcome⟩ := sequence_forwarded factory this chunked others
  rintro ⟨fits, exceeds⟩
  rw [outcome] at fits exceeds
  by_cases room : (totalLength ((chunks ++ [last]).filterMap HttpHeld.chunk) : Int) ≤
      this.maxContentLength
  · obtain ⟨_, ready, _⟩ := fits room
    cases ready
  · obtain ⟨count, stop, exception, _, _, raised, _⟩ := exceeds (Int.not_le.mp room)
    have among := List.mem_of_getElem? raised
    rw [List.mem_replicate] at among
    cases among.2

theorem never_aggregates_upload :
    ¬Aggregates .big (fresh 16 (by decide))
      { HttpMessage.fresh HttpVersion.HTTP_1_1 (.request HttpMethod.HM_POST (text "/")) with
        chunked := true }
      ([.httpChunk (.chunk (.heap ⟨.big, [97, 98], ⟨0, 2, 0, 0⟩⟩))] ++
        [.httpChunkTrailer .fresh]) :=
  never_aggregates .big (fresh 16 (by decide))
    { HttpMessage.fresh HttpVersion.HTTP_1_1 (.request HttpMethod.HM_POST (text "/")) with
      chunked := true }
    rfl [.httpChunk (.chunk (.heap ⟨.big, [97, 98], ⟨0, 2, 0, 0⟩⟩))]
    (by
      intro held among
      cases List.mem_singleton.mp among
      exact ⟨_, rfl, rfl⟩)
    (.httpChunkTrailer .fresh) ⟨_, rfl, rfl⟩

/-- Two chunks and the last one: all three are sent on and the message is not. -/
theorem chunks_sent_on :
    (∃ kept, receiveAll .big
        [.httpMessage { HttpMessage.fresh HttpVersion.HTTP_1_1
            (.request HttpMethod.HM_POST (text "/")) with chunked := true },
          .httpChunk (.chunk (.heap ⟨.big, [97, 98], ⟨0, 2, 0, 0⟩⟩)),
          .httpChunk (.chunk (.heap ⟨.big, [99], ⟨0, 1, 0, 0⟩⟩)), .httpChunk .LAST_CHUNK]
        (fresh 16 (by decide)) =
      ([none, none, none, none],
        { fresh 16 (by decide) with
          currentMessage := some kept
          sent :=
            [.httpChunk (.chunk (.heap ⟨.big, [97, 98], ⟨0, 2, 0, 0⟩⟩)),
              .httpChunk (.chunk (.heap ⟨.big, [99], ⟨0, 1, 0, 0⟩⟩)),
              .httpChunk .LAST_CHUNK] })) ∧
    ¬Aggregates .big (fresh 16 (by decide))
      { HttpMessage.fresh HttpVersion.HTTP_1_1 (.request HttpMethod.HM_POST (text "/")) with
        chunked := true }
      [.httpChunk (.chunk (.heap ⟨.big, [97, 98], ⟨0, 2, 0, 0⟩⟩)),
        .httpChunk (.chunk (.heap ⟨.big, [99], ⟨0, 1, 0, 0⟩⟩)), .httpChunk .LAST_CHUNK] := by
  constructor
  · exact ⟨_, rfl⟩
  · intro aggregates
    obtain ⟨_, ready, _⟩ := aggregates.1 (by decide)
    cases ready

end HttpChunkAggregator

end Cetty
