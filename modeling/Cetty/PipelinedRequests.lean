import Cetty.EncoderRuns
import Cetty.PlainHeads

/-!
# Requests in a pipeline

A request without content is its head. Any number of them, written one behind the other, is read back
in order when every buffer that arrives holds whole requests.
-/

namespace Cetty

open CLocale MachineInt ByteWindow HttpMessageEncoder

theorem HttpMethod.letters (method : HttpMethod) :
    ∀ c ∈ method.name, Character.isISOControl c = false ∧ Character.isWhitespace c = false := by
  have proper := method.proper
  unfold properName at proper
  intro c among
  simpa using List.all_eq_true.mp (Bool.and_eq_true_iff.mp proper).2 c among

theorem HttpMethod.valueOf_name (method : HttpMethod) : valueOf method.name = .ok method := by
  have proper := method.proper
  unfold properName at proper
  simp only [Bool.and_eq_true, Bool.not_eq_true', List.isEmpty_eq_false_iff, beq_iff_eq] at proper
  have same : toUpper (trim method.name) = method.name := by
    rw [trim_none fun c among => (method.letters c among).2]
    exact proper.1.2
  unfold valueOf
  rw [same, if_neg proper.1.1]
  cases found : getHttpMethod method.name with
  | none =>
      unfold make
      dsimp only
      rw [same, if_neg proper.1.1, dif_pos method.proper]
      rfl
  | some result =>
      have named := List.find?_some found
      have whole : result = method := by
        cases result
        cases method
        cases beq_iff_eq.mp named
        rfl
      rw [whole]
      rfl

/-- The header lines as they are written. -/
def HttpMessage.fields (message : HttpMessage) : List HttpField :=
  message.header.entries.map fun e => ⟨e.key, [HttpCodecUtil.SP], e.value⟩

namespace HttpMessageDecoder

/-- A request without content that is read as it is written, within the limits. -/
structure PlainRequest (limits : HttpLimits) (method : HttpMethod) (uri : Text)
    (request : HttpMessage) : Prop where
  start : request.start = .request method uri
  word : FastString.Word uri
  version : request.version = HttpVersion.HTTP_1_0 ∨ request.version = HttpVersion.HTTP_1_1
  plain : ∀ e ∈ request.header.entries,
    e.key ≠ [] ∧ PlainHeader e.key [HttpCodecUtil.SP] e.value
  whole : request.isChunked = false
  bodiless : HttpHeaders.getContentLength request (-1) = 0 ∨
    HttpHeaders.getContentLength request (-1) = -1
  hollow : ∃ content, request.content = some content ∧ content.readable = false
  line : ((FastString.initialLine method.name uri request.version.text).length : Int) ≤
    limits.maxInitialLineLength
  lines : ((HttpField.lines request.fields).length : Int) ≤ limits.maxHeaderSize
  size : request.head.length ≤ 1073741824

section Requests

variable {limits : HttpLimits} {method : HttpMethod} {uri : Text} {request : HttpMessage}

/-- The request as it is read. -/
def received (request : HttpMessage) : HttpObject :=
  .message { request with content := some .emptyBuffer }

theorem head_of_request (start : request.start = .request method uri) : request.head =
    FastString.initialLine method.name uri request.version.text ++ lineEnd ++
      (HttpField.lines request.fields ++ lineEnd) := by
  have lines : encodeHeaders request.header.getAll = HttpField.lines request.fields := by
    unfold encodeHeaders DefaultHttpHeader.getAll HttpField.lines HttpMessage.fields
    rw [List.flatMap_map, List.map_map, ← List.flatMap_def]
    apply List.flatMap_congr
    intro e _
    unfold encodeHeader
    simp [HttpField.line, headerLine, lineEnd]
  unfold HttpMessage.head HttpMessage.initialLine FastString.initialLine
  rw [start, lines]
  simp [CRLF, lineEnd]

variable (plain : PlainRequest limits method uri request)

include plain

theorem PlainRequest.parts : PlainStart method.name uri request.version.text ∧
    ∃ c tail, method.name = c :: tail ∧ Begins c := by
  have proper := method.proper
  unfold properName at proper
  simp only [Bool.and_eq_true, Bool.not_eq_true', List.isEmpty_eq_false_iff] at proper
  refine ⟨⟨⟨proper.1.1, ?_⟩, plain.word, ?_, ?_⟩, ?_⟩
  · intro c among
    refine ⟨?_, (method.letters c among).2⟩
    intro zero
    have control := (method.letters c among).1
    rw [zero] at control
    exact absurd control (by decide)
  · refine ⟨[], 72, request.version.text.drop 1, ?_, nofun, by decide, ?_⟩
    · rcases plain.version with same | same <;> rw [same] <;> rfl
    · rcases plain.version with same | same <;> rw [same] <;> decide
  · rcases plain.version with same | same <;> rw [same] <;> decide
  · obtain ⟨c, tail, begins⟩ := List.exists_cons_of_ne_nil proper.1.1
    exact ⟨c, tail, begins, method.letters c (begins ▸ List.mem_cons_self)⟩

theorem PlainRequest.made (object : Option HttpMessage) :
    ∃ content, (HttpRequestDecoder.createMessage method.name uri
      (trimmed request.version.text)).run object =
        .ok () (some ⟨false, request.version, .fresh, content, request.start⟩) := by
  have version : HttpVersion.valueOf (trimmed request.version.text) = .ok request.version := by
    rcases plain.version with same | same <;> rw [same] <;> rfl
  rw [plain.start]
  unfold HttpRequestDecoder.createMessage
  rw [run_bind_get]
  cases object with
  | none =>
      refine ⟨some .emptyBuffer, ?_⟩
      dsimp only
      rw [version, run_bind_ok _ (run_call_ok _ _), method.valueOf_name,
        run_bind_ok _ (run_call_ok _ _)]
      rfl
  | some before =>
      refine ⟨none, ?_⟩
      dsimp only
      rw [EStateM.run_bind, EStateM.run_set]
      dsimp only
      rw [version, run_bind_ok _ (run_call_ok _ _), EStateM.run_bind, EStateM.run_set]
      dsimp only
      rw [method.valueOf_name, run_bind_ok _ (run_call_ok _ _)]
      rfl

/-- Behind the lines of the head there is nothing to wait for. -/
theorem PlainRequest.headerState_run {desk : Desk} {rest : List Byte} {content : Option ChannelBuffer}
    (fits : desk.Fits) (pointed : desk.fields.message = true)
    (made : desk.fields.object =
      some ⟨false, request.version, .fresh, content, request.start⟩)
    (cleared : desk.fields.headerSize = 0)
    (parts : desk.unread = HttpField.lines request.fields ++ lineEnd ++ rest) :
    ∃ after : Desk,
      desk.Onward (HttpField.lines request.fields ++ lineEnd).length rest after ∧
      after.state = SKIP_CONTROL_CHARS ∧
      after.fields.published = desk.fields.published ++ [received request] ∧
      (headerState limits HttpRequestDecoder.subclass).run desk.context =
        .ok (.object desk.fields.published.length) after.context := by
  have fields : ∀ field ∈ request.fields, field.Plain := by
    intro field among
    obtain ⟨e, listed, rfl⟩ := List.mem_map.mp among
    exact (plain.plain e listed).2
  have entries : HttpField.entries request.fields = request.header.entries := by
    unfold HttpField.entries
    rw [List.filter_eq_self.mpr ?_]
    · unfold HttpMessage.fields
      rw [List.map_map]
      exact List.map_id _
    · intro field among
      obtain ⟨e, listed, rfl⟩ := List.mem_map.mp among
      exact decide_eq_true (plain.plain e listed).1
  obtain ⟨cells, headerSize, same, ran⟩ := readHeaders_run fields fits pointed made cleared parts
    plain.lines
  let message : HttpMessage := ⟨false, request.version, request.header, content, request.start⟩
  have gathered : withEntries ⟨false, request.version, .fresh, content, request.start⟩
      (HttpField.entries request.fields) = message := by
    rw [entries]
    rfl
  rw [gathered] at ran
  have length : HttpHeaders.getContentLength message (-1) =
      HttpHeaders.getContentLength request (-1) := rfl
  have next : nextState message = READ_FIXED_LENGTH_CONTENT ∨
      nextState message = READ_VARIABLE_LENGTH_CONTENT := by
    have filled : isContentAlwaysEmpty message = false := by
      unfold isContentAlwaysEmpty
      rw [show message.start = _ from plain.start]
    have unchunked : message.isChunked = false := (Bool.or_eq_false_iff.mp plain.whole).2
    unfold nextState
    rw [filled, if_neg Bool.false_ne_true, unchunked, if_neg Bool.false_ne_true]
    by_cases measured : 0 ≤ HttpHeaders.getContentLength message (-1)
    · exact Or.inl (if_pos measured)
    · exact Or.inr (if_neg measured)
  have unlike : nextState message ≠ READ_HEADER ∧ nextState message ≠ READ_CHUNK_SIZE ∧
      nextState message ≠ SKIP_CONTROL_CHARS := by
    rcases next with here | here <;> rw [here] <;> decide
  have object : HttpObject.message { message with content := some .emptyBuffer } =
      received request :=
    congrArg (fun flag => HttpObject.message
      ⟨flag, request.version, request.header, some .emptyBuffer, request.start⟩)
      (Bool.or_eq_false_iff.mp plain.whole).1.symm
  let read : Desk := (desk.moved (HttpField.lines request.fields ++ lineEnd).length cells
    { desk.fields with
      object := some message
      headerSize := headerSize }).checkpointed (nextState message)
  let kept : Desk := { read with fields := { read.fields with content := some .emptyBuffer } }
  have filled := @Desk.publish_filled kept message .emptyBuffer pointed rfl rfl rfl
  rw [object] at filled
  have onward := fits.onward parts same { desk.fields with
    object := some message
    headerSize := headerSize } (nextState message)
  refine ⟨_, ?_, ?_, ?_, Eq.trans ?_ filled⟩
  · exact ⟨⟨onward.fits.ordered, onward.fits.small, onward.fits.order, onward.fits.bound⟩, rfl, rfl,
      rfl, rfl, onward.size, rfl, rfl, onward.unread, rfl⟩
  · rfl
  · rfl
  · unfold headerState
    rw [run_bind_ok _ ran, if_neg unlike.1, run_bind_ok _ (checkpointAt_run _ _),
      if_neg unlike.2.1, if_neg unlike.2.2]
    unfold lengthState
    refine (run_bind_ok _ (@theMessage_at read message pointed rfl)).trans ?_
    dsimp only
    rw [length, if_pos (plain.bodiless.imp_right fun none => ⟨none, rfl⟩)]
    exact run_bind_ok _ (update_run read _)

end Requests

/-- The desk behind some requests. -/
structure Desk.Served (desk : Desk) (requests : List HttpMessage) (rest : List Byte) (next : Desk) :
    Prop where
  fits : next.Fits
  ended : next.ended = desk.ended
  shell : next.shell = desk.shell
  size : next.cells.length = desk.cells.length
  unread : next.unread = rest
  state : next.state = SKIP_CONTROL_CHARS
  published : next.fields.published = desk.fields.published ++ requests.map received
  fired : next.fired = desk.fired ++ firings desk.fields.published.length requests.length

section Rounds

variable {limits : HttpLimits} {unfold_ : Bool} {fuel : Nat} {desk : Desk} {rest : List Byte}

/-- The three rounds of a request. -/
theorem PlainRequest.rounds {method : HttpMethod} {uri : Text} {request : HttpMessage}
    (plain : PlainRequest limits method uri request) (fits : desk.Fits)
    (state : desk.state = SKIP_CONTROL_CHARS) (parts : desk.unread = request.head ++ rest) :
    ∃ next : Desk, desk.Served [request] rest next ∧
      (ReplayingDecoder.callDecode (HttpRequestDecoder.replaying limits) unfold_ (fuel + 3)).run
          desk.context =
        (ReplayingDecoder.callDecode (HttpRequestDecoder.replaying limits) unfold_ fuel).run
          next.context := by
  obtain ⟨content, made⟩ := plain.made desk.fields.object
  obtain ⟨start, begins⟩ := plain.parts
  rw [head_of_request plain.start, List.append_assoc] at parts
  obtain ⟨middle, onward, reading, fields, two⟩ := @heading_rounds limits
    HttpRequestDecoder.subclass unfold_ (fuel + 1) desk _ _ _ _ _ start begins fits state plain.line
    made parts
  obtain ⟨after, read, idle, published, decoded⟩ := plain.headerState_run onward.fits.opened
    (congrArg HttpMessageDecoder.message fields) (congrArg HttpMessageDecoder.object fields)
    (congrArg HttpMessageDecoder.headerSize fields) onward.unread
  have before : middle.fields.published = desk.fields.published := by rw [fields]
  have reader : after.reader = middle.reader + _ := read.reader
  have writer : after.writer = middle.writer := read.writer
  have order := read.fits.order
  rw [List.length_append, show lineEnd.length = 2 from rfl] at reader
  have heads : (HttpRequestDecoder.replaying limits).decode middle.state =
      headerState limits HttpRequestDecoder.subclass := by
    rw [reading]
    rfl
  rw [← heads] at decoded
  have third := @callDecode_fires (HttpRequestDecoder.replaying limits) unfold_ fuel middle after _
    onward.fits (by omega) decoded rfl (by omega)
  refine ⟨{ after with fired := after.fired ++ unfolded unfold_ (.object middle.fields.published.length) },
    ⟨⟨read.fits.ordered, read.fits.small, read.fits.order, read.fits.bound⟩, ?_, ?_, ?_, read.unread,
    idle, ?_, ?_⟩, two.trans third⟩
  · exact read.ended.trans onward.ended
  · exact read.shell.trans onward.shell
  · exact read.size.trans onward.size
  · exact published.trans (congrArg (· ++ [received request]) before)
  · have fired : after.fired = desk.fired := read.fired.trans onward.fired
    dsimp only
    rw [fired, before]
    cases unfold_ <;> rfl

/-- The rounds of requests behind each other. -/
theorem requests_rounds {requests : List HttpMessage}
    (plain : ∀ request ∈ requests, ∃ method uri, PlainRequest limits method uri request)
    (fits : desk.Fits) (state : desk.state = SKIP_CONTROL_CHARS)
    (parts : desk.unread = (requests.map HttpMessage.head).flatten ++ rest) :
    ∃ next : Desk, desk.Served requests rest next ∧
      (ReplayingDecoder.callDecode (HttpRequestDecoder.replaying limits) unfold_
          (fuel + 3 * requests.length)).run desk.context =
        (ReplayingDecoder.callDecode (HttpRequestDecoder.replaying limits) unfold_ fuel).run
          next.context := by
  induction requests generalizing desk with
  | nil =>
      refine ⟨desk, ⟨fits, rfl, rfl, rfl, parts, state, ?_, ?_⟩, rfl⟩
      · exact (List.append_nil _).symm
      · exact (List.append_nil _).symm
  | cons request later induction =>
      obtain ⟨method, uri, first⟩ := plain request List.mem_cons_self
      rw [List.map_cons, List.flatten_cons, List.append_assoc] at parts
      obtain ⟨middle, served, one⟩ := @PlainRequest.rounds limits unfold_
        (fuel + 3 * later.length) desk _ method uri request first fits state parts
      obtain ⟨next, others, rounds⟩ := induction
        (fun other inside => plain other (List.mem_cons_of_mem _ inside)) served.fits served.state
        served.unread
      refine ⟨next, ⟨others.fits, others.ended.trans served.ended, others.shell.trans served.shell,
        others.size.trans served.size, others.unread, others.state, ?_, ?_⟩, one.trans rounds⟩
      · rw [others.published, served.published, List.append_assoc]
        rfl
      · rw [others.fired, served.fired, served.published, List.length_append, List.append_assoc,
          List.map_singleton, List.length_singleton, List.length_singleton, firings_append,
          Nat.add_comm 1, List.length_cons]

end Rounds

/-- What is on the wire when some events have been written. -/
def wire (outcomes : List (Nat × Except Stop (Option CharArray))) : List Byte :=
  outcomes.flatMap fun outcome => outcome.2.toOption.join.getD []

/-- Requests that an encoder has written, in a buffer of their own. -/
structure Batch (limits : HttpLimits) (factory : ByteOrder) (requests : List HttpMessage)
    (input : ChannelBuffer) : Prop where
  plain : ∀ request ∈ requests, ∃ method uri, PlainRequest limits method uri request
  some : requests ≠ []
  sound : input.Sound
  shown : ∃ encoding encoder encoders, encoding encoder = HttpEncoding.request ∧
    input.readableContent = wire (HttpEncoders.run encoding factory
      (requests.map fun request => (encoder, .httpMessage request)) encoders)
  small : input.readableContent.length ≤ 1073741824

/-- A decoder between two messages. -/
structure Idle (config : ChannelConfig) (published : List HttpObject)
    (decoder : ReplayingDecoder HttpMessageDecoder) : Prop where
  opened : Open config decoder
  state : decoder.state = SKIP_CONTROL_CHARS
  unread : decoder.unread = []
  published : decoder.fields.published = published

section Batches

variable {limits : HttpLimits} {factory : ByteOrder} {config : ChannelConfig} {fuel : Nat}
  {requests : List HttpMessage} {input : ChannelBuffer} {published : List HttpObject}
  {decoder : ReplayingDecoder HttpMessageDecoder} {sent : List Upward}

/-- An encoder writes the heads of the requests. -/
theorem wire_requests {encoding : Nat → HttpEncoding} {encoder : Nat}
    (plain : ∀ request ∈ requests, ∃ method uri, PlainRequest limits method uri request)
    (kind : encoding encoder = .request) (encoders : HttpEncoders) :
    wire (HttpEncoders.run encoding factory
      (requests.map fun request => (encoder, .httpMessage request)) encoders) =
      (requests.map HttpMessage.head).flatten := by
  induction requests generalizing encoders with
  | nil => rfl
  | cons request later induction =>
      obtain ⟨method, uri, first⟩ := plain request List.mem_cons_self
      obtain ⟨content, held, empty⟩ := first.hollow
      have fits : (encoding encoder).fits request := by
        unfold HttpEncoding.fits
        rw [kind, first.start]
        trivial
      have wrote := @HttpEncoders.message_written factory encoding encoder encoders request fits
        content held empty first.size
      have others := induction (fun other inside => plain other (List.mem_cons_of_mem _ inside))
        (HttpEncoders.write encoding factory encoder (.httpMessage request) encoders).2
      rw [List.map_cons, List.map_cons, List.flatten_cons, ← others, HttpEncoders.run, wrote]
      rfl

theorem Batch.heads (batch : Batch limits factory requests input) :
    input.readableContent = (requests.map HttpMessage.head).flatten := by
  obtain ⟨encoding, encoder, encoders, kind, shown⟩ := batch.shown
  exact shown.trans (wire_requests batch.plain kind encoders)

/-- One batch is read whole, and the decoder is as idle as before. -/
theorem Batch.delivered (batch : Batch limits factory requests input)
    (own : config.channelOwnBuffer = false) (idle : Idle config published decoder)
    (enough : 3 * requests.length < fuel) :
    ∃ next, ReplayingDecoder.deliver (HttpRequestDecoder.replaying limits) config fuel
        ⟨decoder, sent⟩ (.message (.buffer input) false) =
          .ok ⟨next, sent ++ (firings published.length requests.length).map .event⟩ ∧
      Idle config (published ++ requests.map received) next := by
  have heads := batch.heads
  have present : input.readableContent ≠ [] := by
    obtain ⟨request, later, rfl⟩ := List.exists_cons_of_ne_nil batch.some
    rw [heads, List.map_cons, List.flatten_cons]
    unfold HttpMessage.head CRLF
    simp
  have arrives : Arrives config decoder input.readableContent.length input.readableContent input
      false := by
    unfold Arrives
    rw [own, if_neg Bool.false_ne_true]
    exact ⟨batch.sound, rfl, rfl⟩
  obtain ⟨desk, laid, delivers⟩ := @delivery_loops (HttpRequestDecoder.replaying limits) config fuel
    decoder sent input _ _ false idle.opened arrives (batch.sound.readable_iff.mpr present)
    (by rw [idle.unread]; exact Nat.le_of_eq (Nat.zero_add _)) batch.small
  have unread := laid.unread
  rw [idle.unread, List.nil_append, heads] at unread
  obtain ⟨rounds, rfl⟩ : ∃ rounds, fuel = rounds + 1 + 3 * requests.length :=
    ⟨fuel - 1 - 3 * requests.length, by omega⟩
  obtain ⟨next, served, ran⟩ := @requests_rounds limits decoder.unfold_ (rounds + 1) desk [] requests
    batch.plain laid.fits (laid.state.trans idle.state) (by rw [unread, List.append_nil])
  have drained : next.reader = next.writer := by
    have length := served.fits.unread_length
    have order := served.fits.order
    rw [served.unread, List.length_nil] at length
    omega
  have delivered := delivers next (ran.trans (callDecode_done (HttpRequestDecoder.replaying limits)
    decoder.unfold_ rounds served.fits drained))
  rw [served.fired, laid.fired, laid.fields, idle.published, List.nil_append] at delivered
  refine ⟨_, delivered, Desk.open_left served.fits (served.ended.trans laid.running) ?_, served.state,
    (Desk.left_unread _ _ _).trans served.unread, ?_⟩
  · intro dynamic
    obtain ⟨⟨heapIdx, shell⟩, exponent, most, size⟩ := laid.grown dynamic
    exact ⟨⟨heapIdx, served.shell.trans shell⟩, exponent, most, served.size.trans size⟩
  · exact served.published.trans (by rw [laid.fields, idle.published])

end Batches

/-- Pipelined requests are read back in order, whatever the batches they arrive in. -/
theorem requests_received {limits : HttpLimits} {factory : ByteOrder} {config : ChannelConfig}
    {fuel : Nat} (own : config.channelOwnBuffer = false)
    (batches : List (List HttpMessage × ChannelBuffer))
    (good : ∀ batch ∈ batches, Batch limits factory batch.1 batch.2)
    (enough : ∀ batch ∈ batches, 3 * batch.1.length < fuel) :
    ∃ decoder, (batches.map fun batch => Delivery.message (.buffer batch.2) false).foldlM
        (ReplayingDecoder.deliver (HttpRequestDecoder.replaying limits) config fuel)
        ⟨fresh.decoder, []⟩ =
          .ok ⟨decoder, (firings 0 (batches.flatMap Prod.fst).length).map .event⟩ ∧
      Idle config ((batches.flatMap Prod.fst).map received) decoder := by
  induction batches using List.reverseRecOn with
  | nil => exact ⟨_, rfl, ⟨fun _ => nofun, rfl⟩, rfl, rfl, rfl⟩
  | append_singleton front batch induction =>
      have last : batch ∈ front ++ [batch] := List.mem_append_right _ (List.mem_singleton_self _)
      obtain ⟨middle, ran, idle⟩ := induction
        (fun other inside => good other (List.mem_append_left _ inside))
        fun other inside => enough other (List.mem_append_left _ inside)
      obtain ⟨next, delivered, idle⟩ := (good batch last).delivered own idle (enough batch last)
      refine ⟨next, ?_, ?_⟩
      · rw [List.map_append, List.foldlM_append, ran, ok_bind]
        refine (congrArg (· >>= pure) delivered).trans ?_
        have whole := firings_append 0 (front.flatMap Prod.fst).length batch.1.length
        rw [Nat.zero_add] at whole
        rw [List.length_map, ← List.map_append, whole, List.flatMap_append, List.flatMap_singleton,
          List.length_append]
        rfl
      · rw [List.flatMap_append, List.flatMap_singleton, List.map_append]
        exact idle

def fetch : HttpMessage :=
  ⟨false, HttpVersion.HTTP_1_1, ⟨[⟨text "Host", text "cetty"⟩]⟩, some .emptyBuffer,
    .request HttpMethod.HM_GET (text "/")⟩

theorem fetch_plain : PlainRequest ⟨100, 100, 4⟩ HttpMethod.HM_GET (text "/") fetch where
  start := rfl
  word := ⟨by decide, by decide⟩
  version := Or.inr rfl
  plain := by
    intro e among
    rw [List.mem_singleton.mp among]
    exact ⟨by decide, by decide, by decide, by decide, ⟨99, text "etty", rfl, by decide⟩⟩
  whole := by decide +kernel
  bodiless := by decide +kernel
  hollow := ⟨_, rfl, rfl⟩
  line := by decide
  lines := by decide
  size := by decide +kernel

def bothFetches : ChannelBuffer :=
  .heap ⟨.big, fetch.head ++ fetch.head, ⟨0, 62, 0, 0⟩⟩

theorem fetched_twice : ∃ decoder,
    ([([fetch, fetch], bothFetches)].map
      fun batch => Delivery.message (.buffer batch.2) false).foldlM
        (ReplayingDecoder.deliver (HttpRequestDecoder.replaying ⟨100, 100, 4⟩) ⟨false, .big⟩ 7)
        ⟨fresh.decoder, []⟩ = .ok ⟨decoder, (firings 0 2).map .event⟩ ∧
      Idle ⟨false, .big⟩ [received fetch, received fetch] decoder := by
  have plain : ∀ request ∈ [fetch, fetch],
      ∃ method uri, PlainRequest ⟨100, 100, 4⟩ method uri request := by
    intro request among
    have same : request = fetch := by simpa using among
    exact ⟨_, _, same ▸ fetch_plain⟩
  refine @requests_received ⟨100, 100, 4⟩ .big ⟨false, .big⟩ 7 rfl [_] ?_ (by decide)
  intro batch among
  rw [List.mem_singleton.mp among]
  exact ⟨plain, by decide, ChannelBuffer.heap_sound (by decide) ⟨by decide, by decide, by decide⟩,
    ⟨fun _ => .request, 0, ⟨LAST_CHUNK, fun _ => false⟩, rfl, (wire_requests plain rfl _).symm⟩,
    by decide +kernel⟩

end HttpMessageDecoder

end Cetty
