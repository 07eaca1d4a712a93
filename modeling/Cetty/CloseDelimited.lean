import Cetty.DecimalTexts
import Cetty.PlainHeads

/-!
# Responses whose end is the end of the connection

A response without a length is announced as chunked when its largest chunk is smaller than what the
buffer pretends to hold. A reason phrase of one character behind blanks is taken for a null pointer.
-/

namespace Cetty

open CLocale MachineInt ByteWindow

namespace DefaultHttpHeader

variable {header : DefaultHttpHeader} {name : Text}

/-- No header has this name. -/
def Lacks (header : DefaultHttpHeader) (name : Text) : Prop :=
  ∀ e ∈ header.entries, eq name e.key = false

theorem Lacks.unnamed (lacks : header.Lacks name) {i : Int} {e : Entry} (among : e ∈ header.bucket i) :
    e.named name = false := by
  have inside : e ∈ header.entries := List.mem_of_mem_filter (List.mem_reverse.mp among)
  unfold Entry.named
  rw [lacks e inside, Bool.and_false]

theorem Lacks.get (lacks : header.Lacks name) : header.get name = [] := by
  unfold DefaultHttpHeader.get
  by_cases empty : name = []
  · rw [if_pos empty]
  · rw [if_neg empty]
    have nothing : (header.bucket (index (hash name))).find? (fun e => e.named name) = none := by
      rw [List.find?_eq_none]
      intro e among
      rw [lacks.unnamed among]
      exact Bool.false_ne_true
    rw [nothing]

theorem Lacks.gets (lacks : header.Lacks name) : header.gets name = [] := by
  unfold DefaultHttpHeader.gets
  by_cases empty : name = []
  · rw [if_pos empty]
  · rw [if_neg empty]
    have nothing : (header.bucket (index (hash name))).filter (fun e => e.named name) = [] := by
      rw [List.filter_eq_nil_iff]
      intro e among
      rw [lacks.unnamed among]
      exact Bool.false_ne_true
    rw [nothing, List.map_nil]

end DefaultHttpHeader

namespace HttpMessageDecoder

/-- The head of a response with its lines. -/
structure ResponseHead where
  version : HttpVersion
  code : Nat
  reason : Text
  fields : List HttpField

namespace ResponseHead

def startLine (head : ResponseHead) : Text :=
  FastString.initialLine head.version.text (DefaultHttpHeader.decimal head.code) head.reason

def bytes (head : ResponseHead) : List Byte :=
  head.startLine ++ lineEnd ++ (HttpField.lines head.fields ++ lineEnd)

def header (head : ResponseHead) : DefaultHttpHeader := ⟨HttpField.entries head.fields⟩

/-- The response when it is announced. -/
def message (head : ResponseHead) (chunked : Bool) (content : Option ChannelBuffer) : HttpMessage :=
  ⟨chunked, head.version, head.header, content, .response ⟨head.code, trimmed head.reason⟩⟩

/-- A head without a length and without a coding, within the limits. -/
structure Unmeasured (head : ResponseHead) (limits : HttpLimits) : Prop where
  version : head.version = HttpVersion.HTTP_1_0 ∨ head.version = HttpVersion.HTTP_1_1
  least : 200 ≤ head.code
  most : head.code ≤ 2147483647
  filled : head.code ≠ 204 ∧ head.code ≠ 205 ∧ head.code ≠ 304
  worded : 2 ≤ head.reason.length
  unbroken : ∀ c ∈ head.reason, c ≠ 0 ∧ c ≠ HttpCodecUtil.CR ∧ c ≠ HttpCodecUtil.LF
  plain : ∀ field ∈ head.fields, field.Plain
  unmeasured : ∀ field ∈ head.fields,
    DefaultHttpHeader.eq HttpHeaders.Names.CONTENT_LENGTH field.name = false ∧
      DefaultHttpHeader.eq HttpHeaders.Names.TRANSFER_ENCODING field.name = false
  line : (head.startLine.length : Int) ≤ limits.maxInitialLineLength
  lines : ((HttpField.lines head.fields).length : Int) ≤ limits.maxHeaderSize

/-- A character in front of the last one is not blank. -/
def Spoken (head : ResponseHead) : Prop :=
  ∃ c ∈ head.reason.dropLast, Character.isWhitespace c = false

section Message

variable {head : ResponseHead} {limits : HttpLimits} {chunked : Bool} {content : Option ChannelBuffer}

theorem Unmeasured.lacks (bare : head.Unmeasured limits) :
    head.header.Lacks HttpHeaders.Names.CONTENT_LENGTH ∧
      head.header.Lacks HttpHeaders.Names.TRANSFER_ENCODING := by
  have from_field : ∀ e ∈ head.header.entries, ∃ field ∈ head.fields, e.key = field.name := by
    intro e among
    obtain ⟨field, inside, rfl⟩ := List.mem_map.mp among
    exact ⟨field, List.mem_of_mem_filter inside, rfl⟩
  constructor
  · intro e among
    obtain ⟨field, inside, same⟩ := from_field e among
    rw [same]
    exact (bare.unmeasured field inside).1
  · intro e among
    obtain ⟨field, inside, same⟩ := from_field e among
    rw [same]
    exact (bare.unmeasured field inside).2

theorem Unmeasured.contentLength (bare : head.Unmeasured limits) :
    HttpHeaders.getContentLength (head.message chunked content) (-1) = -1 := by
  have least := bare.least
  have nothing : (head.message chunked content).header.get HttpHeaders.Names.CONTENT_LENGTH = [] :=
    bare.lacks.1.get
  have other : ¬((head.code : Int) = 101 ∧
      (head.message chunked content).header.contains HttpHeaders.Names.SEC_WEBSOCKET_ORIGIN = true ∧
      (head.message chunked content).header.contains
        HttpHeaders.Names.SEC_WEBSOCKET_LOCATION = true) := by
    rintro ⟨same, -⟩
    omega
  unfold HttpHeaders.getContentLength
  dsimp only
  rw [nothing, if_neg (fun wrong => wrong rfl)]
  exact if_neg other

theorem Unmeasured.nextState (bare : head.Unmeasured limits) :
    nextState (head.message false content) = READ_VARIABLE_LENGTH_CONTENT := by
  have least := bare.least
  obtain ⟨noContent, resetContent, notModified⟩ := bare.filled
  have filled : isContentAlwaysEmpty (head.message false content) = false := by
    unfold isContentAlwaysEmpty message
    dsimp only
    simp only [Bool.or_eq_false_iff, decide_eq_false_iff_not]
    refine ⟨⟨⟨?_, ?_⟩, ?_⟩, ?_⟩ <;> omega
  have whole : (head.message false content).isChunked = false := by
    have nothing : (head.message false content).header.gets HttpHeaders.Names.TRANSFER_ENCODING = [] :=
      bare.lacks.2.gets
    unfold HttpMessage.isChunked HttpCodecUtil.isTransferEncodingChunked
    rw [nothing]
    rfl
  unfold HttpMessageDecoder.nextState
  rw [filled, if_neg Bool.false_ne_true, whole, if_neg Bool.false_ne_true, bare.contentLength,
    if_neg (by decide)]

theorem Unmeasured.start (bare : head.Unmeasured limits) (spoken : head.Spoken) :
    PlainStart head.version.text (DefaultHttpHeader.decimal head.code) head.reason where
  word := by
    rcases bare.version with older | newer
    · rw [older]
      refine ⟨by decide, ?_⟩
      decide
    · rw [newer]
      refine ⟨by decide, ?_⟩
      decide
  word' := by
    obtain ⟨digits, same, present, -, -⟩ := decimal_digits head.code
    refine ⟨?_, ?_⟩
    · rw [same]
      exact fun empty => present (List.map_eq_nil_iff.mp empty)
    · intro c among
      have solid := solid_of_isdigit (Integer.decimal_isdigit c among)
      exact ⟨solid.2.2.2, solid.1⟩
  solid := by
    obtain ⟨c, among, solid⟩ := spoken
    cases found : head.reason.dropLast.find? (fun c => !Character.isWhitespace c) with
    | none =>
        have blank := List.find?_eq_none.mp found c among
        rw [solid] at blank
        exact absurd rfl blank
    | some first =>
        obtain ⟨begins, lead, tail, split, blanks⟩ := List.find?_eq_some_iff_append.mp found
        have present : head.reason ≠ [] := by
          intro empty
          rw [empty] at among
          cases among
        refine ⟨lead, first, tail ++ [head.reason.getLast present], ?_, ?_, ?_, by simp⟩
        · have whole := List.dropLast_append_getLast present
          rw [split] at whole
          rw [← List.cons_append, ← List.append_assoc]
          exact whole.symm
        · intro x inside
          simpa using blanks x inside
        · simpa using begins
  unbroken := bare.unbroken

/-- The members of the response are set one after the other. -/
theorem Unmeasured.made (bare : head.Unmeasured limits) (response : HttpMessage) :
    (HttpResponseDecoder.createMessage head.version.text (DefaultHttpHeader.decimal head.code)
      (trimmed head.reason)).run (some response) =
      .ok () (some (.again head.version (.response ⟨head.code, trimmed head.reason⟩))) := by
  have version : HttpVersion.valueOf head.version.text = .ok head.version := by
    rcases bare.version with older | newer
    · rw [older]
      rfl
    · rw [newer]
      rfl
  have most := bare.most
  have code : Integer.parse (DefaultHttpHeader.decimal head.code) = head.code :=
    Integer.parse_decimal most
  have status : HttpResponseStatus.make head.code (trimmed head.reason) =
      .ok ⟨head.code, trimmed head.reason⟩ := by
    have clean : (trimmed head.reason).any (fun c => c = 10 || c = 13) = false := by
      rw [List.any_eq_false]
      intro c among
      have inside : c ∈ head.reason := (List.dropWhile_suffix _).subset among
      obtain ⟨-, carriage, feed⟩ := bare.unbroken c inside
      simp only [Bool.or_eq_true, decide_eq_true_eq]
      rintro (wrong | wrong)
      · exact feed wrong
      · exact carriage wrong
    unfold HttpResponseStatus.make
    rw [if_neg (by omega), clean, if_neg Bool.false_ne_true]
    rfl
  unfold HttpResponseDecoder.createMessage
  rw [run_bind_get]
  rw [EStateM.run_bind, EStateM.run_set]
  dsimp only
  rw [version, run_bind_ok _ (run_call_ok _ _), EStateM.run_bind, EStateM.run_set]
  dsimp only
  rw [code, status, run_bind_ok _ (run_call_ok _ _)]
  rfl

end Message

end ResponseHead

section Head

variable {head : ResponseHead} {limits : HttpLimits} {unfold_ : Bool} {fuel : Nat} {desk : Desk}
  {content : Option ChannelBuffer} {rest : List Byte}

/-- The desk behind the announcement of the response. -/
def Desk.announced (desk : Desk) (head : ResponseHead) : Desk :=
  { desk.checkpointed READ_VARIABLE_LENGTH_CONTENT_AS_CHUNKS with
    fields := { desk.fields with
      object := some (head.message true (some .emptyBuffer)) } }.publishing
    [HttpObject.message (head.message true (some .emptyBuffer))]

theorem announce_run (pointed : desk.fields.message = true)
    (made : desk.fields.object = some (head.message false content)) :
    (announce READ_VARIABLE_LENGTH_CONTENT_AS_CHUNKS).run desk.context =
      .ok (.object desk.fields.published.length) (desk.announced head).context := by
  have changes : (head.message false content).setChunked true =
      .ok (head.message true (some .emptyBuffer)) := rfl
  unfold announce
  refine (run_bind_ok _ (checkpointAt_run _ _)).trans ?_
  refine (run_bind_ok _ (@onMessage_run (desk.checkpointed READ_VARIABLE_LENGTH_CONTENT_AS_CHUNKS)
    (head.message false content) (head.message true (some .emptyBuffer))
    (fun message => message.setChunked true) pointed made changes)).trans ?_
  exact @publishMessage_run { desk.checkpointed READ_VARIABLE_LENGTH_CONTENT_AS_CHUNKS with
    fields := { desk.fields with object := some (head.message true (some .emptyBuffer)) } }
    (head.message true (some .emptyBuffer)) pointed rfl

theorem lengthState_run (bare : head.Unmeasured limits) (running : desk.ended = false)
    (inside : desk.reader ≤ 2147483647) (pointed : desk.fields.message = true)
    (made : desk.fields.object = some (head.message false content)) :
    (lengthState limits HttpResponseDecoder.subclass READ_VARIABLE_LENGTH_CONTENT).run desk.context =
      if limits.maxChunkSize < ((2147483647 - desk.reader : Nat) : Int) then
        .ok (.object desk.fields.published.length) (desk.announced head).context
      else .ok .empty desk.context := by
  have room := desk.readableBytes_open running inside
  unfold lengthState
  rw [run_bind_ok _ (theMessage_at pointed made)]
  dsimp only
  rw [bare.contentLength, if_neg (by decide), if_neg (by decide), run_bind_get]
  rw [room, run_bind_ok _ (theMessage_at pointed made)]
  have calm : HttpHeaders.is100ContinueExpected (head.message false content) = false := rfl
  rw [calm]
  by_cases announced : limits.maxChunkSize < ((2147483647 - desk.reader : Nat) : Int)
  · rw [if_pos (Or.inl announced), if_pos announced]
    exact announce_run pointed made
  · rw [if_neg (by simpa using announced), if_neg announced]
    rfl

theorem headerState_run (bare : head.Unmeasured limits) (fits : desk.Fits)
    (pointed : desk.fields.message = true)
    (made : desk.fields.object =
      some (.again head.version (.response ⟨head.code, trimmed head.reason⟩)))
    (cleared : desk.fields.headerSize = 0)
    (parts : desk.unread = HttpField.lines head.fields ++ lineEnd ++ rest) :
    ∃ cells headerSize,
      SameFrom (desk.reader + (HttpField.lines head.fields ++ lineEnd).length) desk.cells cells ∧
      (headerState limits HttpResponseDecoder.subclass).run desk.context =
        (lengthState limits HttpResponseDecoder.subclass READ_VARIABLE_LENGTH_CONTENT).run
          ((desk.moved (HttpField.lines head.fields ++ lineEnd).length cells { desk.fields with
            object := some (head.message false none)
            headerSize := headerSize }).checkpointed READ_VARIABLE_LENGTH_CONTENT).context := by
  obtain ⟨cells, headerSize, same, ran⟩ := readHeaders_run bare.plain fits pointed made cleared parts
    bare.lines
  have gathered : withEntries (.again head.version (.response ⟨head.code, trimmed head.reason⟩))
      (HttpField.entries head.fields) = head.message false none := rfl
  rw [gathered, bare.nextState] at ran
  refine ⟨cells, headerSize, same, ?_⟩
  unfold headerState
  rw [run_bind_ok _ ran, if_neg (by decide), run_bind_ok _ (checkpointAt_run _ _),
    if_neg (by decide), if_neg (by decide)]
  rfl

/-- The desk behind the lines of the head. -/
structure HeadRead (head : ResponseHead) (rest : List Byte) (desk read : Desk) : Prop where
  fits : read.Fits
  calm : read.short = false
  running : read.ended = false
  cumulated : read.cumulated = desk.cumulated
  shell : read.shell = desk.shell
  size : read.cells.length = desk.cells.length
  writer : read.writer = desk.writer
  reader : read.reader = desk.reader + head.bytes.length
  unread : read.unread = rest
  state : read.state = READ_VARIABLE_LENGTH_CONTENT
  pointed : read.fields.message = true
  made : read.fields.object = some (head.message false none)
  content : read.fields.content = desk.fields.content
  published : read.fields.published = desk.fields.published
  fired : read.fired = desk.fired

theorem head_run (bare : head.Unmeasured limits) (spoken : head.Spoken) (fits : desk.Fits)
    (running : desk.ended = false) (state : desk.state = SKIP_CONTROL_CHARS)
    {response : HttpMessage} (made : desk.fields.object = some response)
    (parts : desk.unread = head.bytes ++ rest) :
    ∃ before read : Desk, HeadRead head rest desk read ∧ before.Fits ∧
      before.reader < before.writer ∧ before.reader ≠ read.reader ∧
      (ReplayingDecoder.callDecode (HttpResponseDecoder.replaying limits) unfold_
          (fuel + 2)).run desk.context =
        (ReplayingDecoder.callDecode (HttpResponseDecoder.replaying limits) unfold_
          fuel).run before.context ∧
      ((HttpResponseDecoder.replaying limits).decode before.state).run before.opened.context =
        (lengthState limits HttpResponseDecoder.subclass READ_VARIABLE_LENGTH_CONTENT).run
          read.context := by
  have width : lineEnd.length = 2 := rfl
  have length := fits.unread_length
  have split : desk.unread =
      head.startLine ++ lineEnd ++ (HttpField.lines head.fields ++ lineEnd ++ rest) := by
    rw [← List.append_assoc]
    exact parts
  have begins : ∃ c tail, head.version.text = c :: tail ∧ Begins c := by
    rcases bare.version with older | newer
    · rw [older]
      exact ⟨_, _, rfl, by decide, by decide⟩
    · rw [newer]
      exact ⟨_, _, rfl, by decide, by decide⟩
  have created := bare.made response
  rw [← made] at created
  obtain ⟨second, onward, state₂, fields, two⟩ := @heading_rounds limits HttpResponseDecoder.subclass
    unfold_ fuel desk _ _ _ _ _ (bare.start spoken) begins fits state bare.line created split
  obtain ⟨cells, headerSize, same, headers⟩ := @headerState_run head limits second.opened rest bare
    onward.fits.opened (by rw [Desk.opened, fields]) (by rw [Desk.opened, fields]; rfl)
    (by rw [Desk.opened, fields]) onward.unread
  let read : Desk := (second.opened.moved (HttpField.lines head.fields ++ lineEnd).length cells
    { second.opened.fields with
      object := some (head.message false none)
      headerSize := headerSize }).checkpointed READ_VARIABLE_LENGTH_CONTENT
  have behind : second.opened.Onward (HttpField.lines head.fields ++ lineEnd).length rest read :=
    onward.fits.opened.onward onward.unread same _ _
  have position : second.reader = desk.reader + (head.startLine ++ lineEnd).length := onward.reader
  have position' : read.reader = second.reader + (HttpField.lines head.fields ++ lineEnd).length :=
    behind.reader
  have total : head.bytes.length = (head.startLine ++ lineEnd).length +
      (HttpField.lines head.fields ++ lineEnd).length := List.length_append
  rw [parts, List.length_append] at length
  have blank : (HttpField.lines head.fields ++ lineEnd).length =
      (HttpField.lines head.fields).length + lineEnd.length := List.length_append
  have writer : second.writer = desk.writer := onward.writer
  have content : second.fields.content = desk.fields.content := by rw [fields]
  have published : second.fields.published = desk.fields.published := by rw [fields]
  have decodes : (HttpResponseDecoder.replaying limits).decode second.state =
      headerState limits HttpResponseDecoder.subclass := by
    rw [state₂]
    rfl
  refine ⟨second, read, ⟨behind.fits, rfl, onward.ended.trans running, onward.cumulated, onward.shell,
    behind.size.trans onward.size, writer, by omega, behind.unread, rfl, by
      show second.fields.message = true
      rw [fields], rfl, content, published, onward.fired⟩, onward.fits, ?_, ?_, two, ?_⟩
  · omega
  · omega
  · rw [decodes]
    exact headers

end Head

section Stream

variable {head : ResponseHead} {limits : HttpLimits} {config : ChannelConfig} {fuel : Nat}
  {desk : Desk}

/-- A received buffer, and whether it is the one that the decoder has. -/
structure Piece where
  bytes : List Byte
  input : ChannelBuffer
  same : Bool

def Piece.delivery (piece : Piece) : Delivery := .message (.buffer piece.input) piece.same

/-- The buffers of a connection, and its end. -/
def untilClose (pieces : List Piece) : List Delivery :=
  pieces.map Piece.delivery ++ [.closing .channelDisconnected]

/-- The bytes of a stream arrive one buffer after the other. -/
def Feeds (subclass : ReplayingSubclass HttpMessageDecoder) (config : ChannelConfig) (fuel : Nat) :
    Sender (ReplayingDecoder HttpMessageDecoder) → Nat → List Piece → Prop
  | _, _, [] => True
  | sender, received, piece :: rest =>
      Arrives config sender.decoder (received + piece.bytes.length) piece.bytes piece.input
          piece.same ∧
        ∀ after, ReplayingDecoder.deliver subclass config fuel sender piece.delivery = .ok after →
          Feeds subclass config fuel after (received + piece.bytes.length) rest

/-- These objects have been fired in order, each when it showed this, and nothing else has. -/
structure Fires (sender : Sender (ReplayingDecoder HttpMessageDecoder)) (objects : List HttpObject)
    (behind : List Upward) : Prop where
  shown : sender.decoder.fields.published = objects
  sent : sender.sent = (firings 0 objects.length).map .event ++ behind

/-- Between two deliveries of the content. -/
structure Flowing (limits : HttpLimits) (config : ChannelConfig) (head : ResponseHead)
    (body : List Byte) (sender : Sender (ReplayingDecoder HttpMessageDecoder)) (desk : Desk)
    (parts : List ChannelBuffer) : Prop where
  fits : desk.Fits
  left : sender.decoder = desk.left config true
  running : desk.ended = false
  state : desk.state = READ_VARIABLE_LENGTH_CONTENT_AS_CHUNKS
  content : desk.fields.content = none
  grown : config.channelOwnBuffer = false → desk.Grown config.bufferFactory
  fires : Fires sender
    (HttpObject.message (head.message true (some .emptyBuffer)) :: parts.map chunkObject) []
  split : ∃ bytes, Split limits.maxChunkSize parts bytes ∧ body = bytes ++ desk.unread
  small : (desk.unread.length : Int) < limits.maxChunkSize

theorem Desk.Grown.of_same {factory : ByteOrder} {desk after : Desk} (grown : desk.Grown factory)
    (shell : after.shell = desk.shell) (size : after.cells.length = desk.cells.length) :
    after.Grown factory := by
  obtain ⟨⟨heapIdx, dynamic⟩, power⟩ := grown
  refine ⟨⟨heapIdx, shell.trans dynamic⟩, ?_⟩
  rw [size]
  exact power

/-- A buffer that shows nothing adds nothing. -/
theorem Arrives.blank {decoder : ReplayingDecoder HttpMessageDecoder} {received : Nat}
    {bytes : List Byte} {input : ChannelBuffer} {same : Bool}
    (arrives : Arrives config decoder received bytes input same) (none : input.readable = false) :
    bytes = [] := by
  unfold Arrives at arrives
  cases own : config.channelOwnBuffer with
  | true =>
      rw [if_pos own] at arrives
      obtain ⟨-, built, content, -⟩ := arrives
      obtain ⟨reader, count, -, amount, shown, -⟩ := built.readable
      have nothing : ¬0 < input.readableBytes := of_decide_eq_false none
      have empty : count = 0 := by omega
      rw [shown, empty, window_zero_count] at content
      exact (List.append_eq_nil_iff.mp content.symm).2
  | false =>
      rw [own, if_neg Bool.false_ne_true] at arrives
      obtain ⟨sound, content, -⟩ := arrives
      rw [← content]
      by_contra present
      rw [sound.readable_iff.mpr present] at none
      cases none

theorem Flowing.step {received : Nat} {body : List Byte} {desk : Desk}
    {parts : List ChannelBuffer} {sender : Sender (ReplayingDecoder HttpMessageDecoder)}
    (flowing : Flowing limits config head body sender desk parts)
    (positive : 1 ≤ limits.maxChunkSize) (most : limits.maxChunkSize ≤ 1073741824) (piece : Piece)
    (arrives : Arrives config sender.decoder received piece.bytes piece.input piece.same)
    (counted : body.length + piece.bytes.length ≤ received) (small : received < 1073741824)
    (enough : received < fuel) :
    ∃ after desk parts, ReplayingDecoder.deliver (HttpResponseDecoder.replaying limits) config fuel
        sender piece.delivery = .ok after ∧
      Flowing limits config head (body ++ piece.bytes) after desk parts := by
  obtain ⟨decoder, sent⟩ := sender
  obtain ⟨bytes, split, shown⟩ := flowing.split
  have left : decoder = desk.left config true := flowing.left
  have unread : decoder.unread = desk.unread := by
    rw [left]
    exact desk.left_unread config true
  have unfolds : decoder.unfold_ = true := by
    rw [left]
    rfl
  have opened : Open config decoder := by
    rw [left]
    exact Desk.open_left flowing.fits flowing.running flowing.grown
  have shorter : desk.unread.length ≤ body.length := by
    rw [shown, List.length_append]
    omega
  cases readable : piece.input.readable with
  | false =>
      have blank : piece.bytes = [] := arrives.blank readable
      refine ⟨⟨decoder, sent⟩, desk, parts, delivery_of_nothing readable, ?_⟩
      rw [blank, List.append_nil]
      exact flowing
  | true =>
      obtain ⟨next, laid, goes⟩ := @delivery_loops (HttpResponseDecoder.replaying limits) config fuel
        decoder sent piece.input received piece.bytes piece.same opened arrives readable
        (by rw [unread]; omega) (by omega)
      have state : next.state = READ_VARIABLE_LENGTH_CONTENT_AS_CHUNKS := by
        rw [laid.state, left]
        exact flowing.state
      have fields : next.fields = desk.fields := by
        rw [laid.fields, left]
        rfl
      have published : next.fields.published =
          HttpObject.message (head.message true (some .emptyBuffer)) :: parts.map chunkObject := by
        have shown := flowing.fires.shown
        rw [flowing.left] at shown
        rw [fields]
        exact shown
      have sentSoFar : sent = (firings 0
          (HttpObject.message (head.message true (some .emptyBuffer)) ::
            parts.map chunkObject).length).map Upward.event ++ [] := flowing.fires.sent
      have bound := laid.bound
      have pieces : next.unread = desk.unread ++ piece.bytes := by
        rw [laid.unread, unread]
      obtain ⟨after, more, drained, ran⟩ := @chunks_run limits HttpResponseDecoder.subclass true fuel
        next laid.fits laid.running most positive state (by omega) (by
          rw [pieces, List.length_append]
          omega)
      obtain ⟨others, splitMore, rest⟩ := drained.split
      refine ⟨_, after, parts ++ more, goes after (by rw [unfolds]; exact ran), drained.fits, ?_, ?_,
        ?_, ?_, ?_, ⟨?_, ?_⟩, ⟨bytes ++ others, split.append splitMore, ?_⟩, drained.small⟩
      · rw [unfolds]
      · rw [drained.ended]
        exact laid.running
      · rw [drained.state]
        exact state
      · rw [drained.fields]
        show next.fields.content = none
        rw [fields]
        exact flowing.content
      · intro dynamic
        exact (laid.grown dynamic).of_same drained.shell (by rw [drained.cells])
      · show after.fields.published = _
        rw [drained.fields]
        show next.fields.published ++ more.map chunkObject = _
        rw [published, List.cons_append, List.map_append]
      · show sent ++ after.fired.map .event = _
        rw [drained.fired, laid.fired, List.nil_append, published, sentSoFar, List.append_nil,
          List.append_nil, ← List.map_append]
        have counts := firings_append 0 (parts.map chunkObject).length.succ more.length
        rw [Nat.zero_add] at counts
        rw [List.length_cons, List.length_cons, counts, List.map_append, List.length_append,
          List.length_map, List.length_map]
        congr 2
        omega
      · rw [List.append_assoc, ← rest, pieces, ← List.append_assoc, ← shown]

/-- A response decoder before anything has been received. -/
def atStart : Sender (ReplayingDecoder HttpMessageDecoder) := ⟨HttpResponseDecoder.fresh.decoder, []⟩

theorem head_bytes_present (head : ResponseHead) : 0 < head.bytes.length := by
  unfold ResponseHead.bytes
  rw [List.length_append, List.length_append]
  have width : lineEnd.length = 2 := rfl
  omega

/-- The first buffer is laid out from the first cell on. -/
theorem first_laid {front : List Byte} {piece : Piece} (bytes : piece.bytes = head.bytes ++ front)
    (arrives : Arrives config atStart.decoder piece.bytes.length piece.bytes piece.input piece.same)
    (small : piece.bytes.length ≤ 1073741824) :
    ∃ desk : Desk, desk.Fits ∧ desk.reader = 0 ∧ desk.writer = piece.bytes.length ∧
      desk.unread = head.bytes ++ front ∧
      desk.fields = HttpResponseDecoder.fresh.decoder.fields ∧ desk.state = SKIP_CONTROL_CHARS ∧
      desk.cumulated = true ∧ desk.ended = false ∧ desk.fired = [] ∧
      (config.channelOwnBuffer = false → desk.Grown config.bufferFactory) ∧
      ∀ after : Desk, (ReplayingDecoder.callDecode (HttpResponseDecoder.replaying limits) true
          fuel).run desk.context = .ok () after.context →
        ReplayingDecoder.deliver (HttpResponseDecoder.replaying limits) config fuel atStart
          piece.delivery = .ok ⟨after.left config true, after.fired.map .event⟩ := by
  have opened : Open config atStart.decoder := by
    refine ⟨?_, rfl⟩
    rintro - replayable ⟨⟩
  have nothing : atStart.decoder.unread = [] := rfl
  have readable : piece.input.readable = true := by
    by_contra none
    rw [Bool.not_eq_true] at none
    have blank := arrives.blank none
    have present := head_bytes_present head
    rw [blank] at bytes
    rw [(List.append_eq_nil_iff.mp bytes.symm).1] at present
    exact absurd present (by decide)
  obtain ⟨desk, laid, goes⟩ := @delivery_loops (HttpResponseDecoder.replaying limits) config fuel
    atStart.decoder [] piece.input piece.bytes.length piece.bytes piece.same opened arrives readable
    (by rw [nothing, List.length_nil]; omega) small
  have unread : desk.unread = head.bytes ++ front := by
    rw [laid.unread, nothing, List.nil_append, bytes]
  have length := laid.fits.unread_length
  have bound := laid.bound
  have present := head_bytes_present head
  rw [unread, ← bytes] at length
  rw [bytes, List.length_append] at length bound
  refine ⟨desk, laid.fits, by omega, ?_, unread, laid.fields, laid.state, laid.cumulated,
    laid.running, laid.fired, laid.grown, goes⟩
  rw [bytes, List.length_append]
  omega

theorem Flowing.begin {front : List Byte} (bare : head.Unmeasured limits) (spoken : head.Spoken)
    (positive : 1 ≤ limits.maxChunkSize) (most : limits.maxChunkSize ≤ 1073741824)
    (room : head.bytes.length + limits.maxChunkSize < 2147483647) {piece : Piece}
    (bytes : piece.bytes = head.bytes ++ front)
    (arrives : Arrives config atStart.decoder piece.bytes.length piece.bytes piece.input piece.same)
    (small : piece.bytes.length < 1073741824) (enough : piece.bytes.length + 3 < fuel) :
    ∃ after desk parts, ReplayingDecoder.deliver (HttpResponseDecoder.replaying limits) config fuel
        atStart piece.delivery = .ok after ∧
      Flowing limits config head front after desk parts := by
  obtain ⟨desk, fits, reader, writer, unread, fields, state, -, running, fired, grown, goes⟩ :=
    @first_laid head limits config fuel front piece bytes arrives (by omega)
  obtain ⟨rounds, rfl⟩ : ∃ rounds, fuel = rounds + 3 := ⟨fuel - 3, by omega⟩
  have made : desk.fields.object = some HttpResponseDecoder.response := by
    rw [fields]
    rfl
  obtain ⟨before, read, headRead, fitsBefore, there, apart, two, decoded⟩ :=
    @head_run head limits true (rounds + 1) desk front bare spoken fits running state _ made unread
  have position : read.reader = head.bytes.length := by
    rw [headRead.reader, reader, Nat.zero_add]
  rw [lengthState_run bare headRead.running (by omega) headRead.pointed headRead.made,
    if_pos (by omega)] at decoded
  have fires := @callDecode_fires (HttpResponseDecoder.replaying limits) true rounds before
    (read.announced head) _ fitsBefore there decoded rfl (fun still => apart still.1.symm)
  let next : Desk := { read.announced head with
    fired := (read.announced head).fired ++
      unfolded true (.object read.fields.published.length) }
  have fitsNext : next.Fits :=
    ⟨headRead.fits.ordered, headRead.fits.small, headRead.fits.order, headRead.fits.bound⟩
  have unreadNext : next.unread = front := headRead.unread
  have writerNext : next.writer = piece.bytes.length := headRead.writer.trans writer
  have published : read.fields.published = [] := by
    rw [headRead.published, fields]
    rfl
  have firedNext : next.fired = firings 0 1 := by
    show read.fired ++ unfolded true (.object read.fields.published.length) = _
    rw [headRead.fired, fired, published]
    rfl
  have publishedNext : next.fields.published =
      [HttpObject.message (head.message true (some .emptyBuffer))] := by
    show read.fields.published ++ _ = _
    rw [published, List.nil_append]
  have counted : piece.bytes.length = head.bytes.length + front.length := by
    rw [bytes, List.length_append]
  obtain ⟨after, parts, drained, ran⟩ := @chunks_run limits HttpResponseDecoder.subclass true rounds
    next fitsNext headRead.running most positive rfl (by omega) (by rw [unreadNext]; omega)
  obtain ⟨bytes, split, rest⟩ := drained.split
  refine ⟨_, after, parts, goes after (two.trans (fires.trans ran)), drained.fits, rfl, ?_, ?_, ?_, ?_,
    ⟨?_, ?_⟩, ⟨bytes, split, ?_⟩, drained.small⟩
  · rw [drained.ended]
    exact headRead.running
  · rw [drained.state]
    rfl
  · rw [drained.fields]
    show read.fields.content = none
    rw [headRead.content, fields]
    rfl
  · intro dynamic
    apply (grown dynamic).of_same
    · exact drained.shell.trans headRead.shell
    · rw [drained.cells]
      exact headRead.size
  · show after.fields.published = _
    rw [drained.fields]
    show next.fields.published ++ parts.map chunkObject = _
    rw [publishedNext]
    rfl
  · show after.fired.map Upward.event = _
    have counts := firings_append 0 1 parts.length
    rw [Nat.zero_add, Nat.add_comm 1] at counts
    rw [drained.fired, firedNext, publishedNext, List.append_nil, List.length_singleton, counts,
      List.length_cons, List.length_map]
  · rw [← unreadNext]
    exact rest

theorem Flowing.run {rest : List Piece} {received : Nat} {body : List Byte} {desk : Desk}
    {parts : List ChannelBuffer} {sender : Sender (ReplayingDecoder HttpMessageDecoder)}
    (flowing : Flowing limits config head body sender desk parts)
    (positive : 1 ≤ limits.maxChunkSize) (most : limits.maxChunkSize ≤ 1073741824)
    (feeds : Feeds (HttpResponseDecoder.replaying limits) config fuel sender received rest)
    (counted : body.length ≤ received)
    (small : received + (rest.map Piece.bytes).flatten.length < 1073741824)
    (enough : received + (rest.map Piece.bytes).flatten.length < fuel) :
    ∃ after desk parts,
      (rest.map Piece.delivery).foldlM
        (ReplayingDecoder.deliver (HttpResponseDecoder.replaying limits) config fuel) sender =
        .ok after ∧
      Flowing limits config head (body ++ (rest.map Piece.bytes).flatten) after desk parts := by
  induction rest generalizing sender received body desk parts with
  | nil =>
      refine ⟨sender, desk, parts, rfl, ?_⟩
      rw [List.map_nil, List.flatten_nil, List.append_nil]
      exact flowing
  | cons piece rest ih =>
      rw [List.map_cons, List.flatten_cons, List.length_append] at small enough
      obtain ⟨arrives, later⟩ := feeds
      obtain ⟨next, desk', parts', delivered, goesOn⟩ := @Flowing.step head limits config fuel
        (received + piece.bytes.length) body desk parts sender flowing positive most piece arrives
        (by omega) (by omega) (by omega)
      obtain ⟨after, last, all, ran, flows⟩ := ih goesOn (later next delivered)
        (by rw [List.length_append]; omega) (by omega) (by omega)
      refine ⟨after, last, all, ?_, ?_⟩
      · rw [List.map_cons, List.foldlM_cons, delivered]
        exact ran
      · rw [List.map_cons, List.flatten_cons, ← List.append_assoc]
        exact flows

/-- The connection is closed. -/
theorem Flowing.closes {body : List Byte} {desk : Desk} {parts : List ChannelBuffer}
    {sender : Sender (ReplayingDecoder HttpMessageDecoder)}
    (flowing : Flowing limits config head body sender desk parts) (enough : 2 ≤ fuel) :
    ∃ after all last, ReplayingDecoder.deliver (HttpResponseDecoder.replaying limits) config fuel
        sender (.closing .channelDisconnected) = .ok after ∧
      Split limits.maxChunkSize all body ∧ last.isLast = true ∧
      Fires after (HttpObject.message (head.message true (some .emptyBuffer)) ::
        (all.map chunkObject ++ [.chunk last])) [.closing .channelDisconnected] := by
  obtain ⟨decoder, sent⟩ := sender
  obtain ⟨bytes, split, shown⟩ := flowing.split
  have left : decoder = desk.left config true := flowing.left
  subst left
  let dropped : Desk := { desk with cumulated := false, fired := [] }
  have fits : dropped.Fits := ⟨flowing.fits.ordered, flowing.fits.small, flowing.fits.order,
    flowing.fits.bound⟩
  obtain ⟨more, last, after, splitMore, isLast, published, fired, ran⟩ :=
    @finish_content limits HttpResponseDecoder.subclass fuel dropped fits flowing.content
      flowing.state flowing.small enough
  have shownSoFar : desk.fields.published =
      HttpObject.message (head.message true (some .emptyBuffer)) :: parts.map chunkObject :=
    flowing.fires.shown
  have sentSoFar := flowing.fires.sent
  dsimp only at sentSoFar
  have cleaned := @ReplayingDecoder.cleanup_returns HttpMessageDecoder
    (HttpResponseDecoder.replaying limits) fuel .channelDisconnected ⟨desk.left config true, sent⟩
    ⟨desk.short, desk.ended, desk.buffer⟩ after.context rfl ran
  refine ⟨⟨ReplayingDecoder.closedWith (desk.left config true) after.context,
    sent ++ after.fired.map Upward.event ++ [.closing .channelDisconnected]⟩, parts ++ more, last,
    ?_, ?_, isLast, ⟨?_, ?_⟩⟩
  · unfold ReplayingDecoder.deliver Sender.handled
    dsimp only
    rw [cleaned]
    rfl
  · rw [shown]
    exact split.append splitMore
  · show after.fields.published = _
    rw [published]
    show desk.fields.published ++ _ = _
    rw [shownSoFar, List.map_append, List.append_assoc, List.cons_append]
  · have start : dropped.fields.published.length = parts.length + 1 := by
      show desk.fields.published.length = _
      rw [shownSoFar, List.length_cons, List.length_map]
    have counts := firings_append 0 (parts.length + 1) (more.length + 1)
    rw [Nat.zero_add] at counts
    rw [fired, start, sentSoFar, List.length_cons, List.length_map, List.append_nil]
    show _ ++ (([] : List UpstreamEvent) ++ _).map Upward.event ++ _ = _
    rw [List.nil_append, ← List.map_append, counts, List.length_cons, List.length_append,
      List.length_map, List.length_append, List.length_singleton]
    congr 3
    omega

/-- A response without a length, received with its content and closed behind it. -/
theorem content_until_close (bare : head.Unmeasured limits) (spoken : head.Spoken)
    (positive : 1 ≤ limits.maxChunkSize) (most : limits.maxChunkSize ≤ 1073741824)
    (room : head.bytes.length + limits.maxChunkSize < 2147483647) {front body : List Byte}
    {first : Piece} {rest : List Piece} (whole : first.bytes = head.bytes ++ front)
    (cut : front ++ (rest.map Piece.bytes).flatten = body)
    (feeds : Feeds (HttpResponseDecoder.replaying limits) config fuel atStart 0 (first :: rest))
    (small : head.bytes.length + body.length < 1073741824)
    (enough : head.bytes.length + body.length + 3 < fuel) :
    ∃ after parts last,
      (untilClose (first :: rest)).foldlM
        (ReplayingDecoder.deliver (HttpResponseDecoder.replaying limits) config fuel) atStart =
        .ok after ∧
      Split limits.maxChunkSize parts body ∧ last.isLast = true ∧
      Fires after (HttpObject.message (head.message true (some .emptyBuffer)) ::
        (parts.map chunkObject ++ [.chunk last])) [Upward.closing .channelDisconnected] := by
  have size : first.bytes.length = head.bytes.length + front.length := by
    rw [whole, List.length_append]
  have total : body.length = front.length + (rest.map Piece.bytes).flatten.length := by
    rw [← cut, List.length_append]
  obtain ⟨arrives, later⟩ := feeds
  rw [Nat.zero_add] at arrives later
  obtain ⟨begun, desk, parts, delivered, flowing⟩ := @Flowing.begin head limits config fuel front
    bare spoken positive most room first whole arrives (by omega) (by omega)
  obtain ⟨before, desk', parts', ran, flows⟩ := flowing.run positive most (later begun delivered)
    (by omega) (by omega) (by omega)
  rw [cut] at flows
  obtain ⟨after, all, last, closed, split, isLast, fires⟩ := @Flowing.closes head limits config fuel
    body desk' parts' before flows (by omega)
  refine ⟨after, all, last, ?_, split, isLast, fires⟩
  unfold untilClose
  rw [List.map_cons, List.cons_append, List.foldlM_cons, delivered]
  show ((rest.map Piece.delivery) ++ [Delivery.closing .channelDisconnected]).foldlM _ begun = _
  rw [List.foldlM_append, ran, ok_bind, List.foldlM_cons, closed]
  rfl

/-- A response that has not been announced is fired whole when it has no content. -/
theorem variableState_drained (fits : desk.Fits) (gone : desk.ended = true)
    (drained : desk.reader = desk.writer) (pointed : desk.fields.message = true)
    (made : desk.fields.object = some (head.message false none)) :
    ∃ (part : ChannelBuffer) (after : Desk), part.readable = false ∧
      after.fields.published =
        desk.fields.published ++ [HttpObject.message (head.message false (some part))] ∧
      after.fired = desk.fired ∧
      variableState.run desk.context =
        .ok (.object desk.fields.published.length) after.context := by
  have room := desk.readableBytes_ended fits gone
  have none : desk.writer - desk.reader = 0 := by omega
  obtain ⟨part, -, readable, ran⟩ := @readSlice_run desk fits 0 (by omega)
  have hidden : part.readable = false := readable
  let kept : Desk := { desk.pass 0 with fields := { desk.fields with content := some part } }
  have read : variableState.run desk.context =
      (do publish (← reset) : Decode ChannelMessage).run kept.context := by
    unfold variableState
    rw [run_bind_get]
    rw [room, none, run_bind_ok _ ran]
    refine (run_bind_ok _ (update_run _ _)).trans ?_
    refine (run_bind_ok _ (needMoreBytes_run kept)).trans ?_
    rw [if_neg (show ¬kept.short = true from Bool.false_ne_true)]
  have filled := @Desk.publish_filled kept (head.message false .none) part pointed made rfl hidden
  refine ⟨part, _, hidden, ?_, ?_, read.trans filled⟩
  · rfl
  · rfl

/-- A head behind which the buffer pretends to hold no more than the largest chunk. -/
theorem head_alone (bare : head.Unmeasured limits) (spoken : head.Spoken)
    (full : 2147483647 ≤ head.bytes.length + limits.maxChunkSize) {piece : Piece}
    (bytes : piece.bytes = head.bytes)
    (arrives : Arrives config atStart.decoder piece.bytes.length piece.bytes piece.input piece.same)
    (small : piece.bytes.length < 1073741824) (enough : 4 ≤ fuel) :
    ∃ after part, (untilClose [piece]).foldlM
        (ReplayingDecoder.deliver (HttpResponseDecoder.replaying limits) config fuel) atStart =
        .ok after ∧
      Fires after [HttpObject.message (head.message false (some part))]
        [Upward.closing .channelDisconnected] := by
  have whole : piece.bytes = head.bytes ++ [] := by rw [bytes, List.append_nil]
  obtain ⟨desk, fits, reader, writer, unread, fields, state, -, running, fired, -, goes⟩ :=
    @first_laid head limits config fuel [] piece whole arrives (by omega)
  obtain ⟨rounds, rfl⟩ : ∃ rounds, fuel = rounds + 4 := ⟨fuel - 4, by omega⟩
  have made : desk.fields.object = some HttpResponseDecoder.response := by
    rw [fields]
    rfl
  obtain ⟨before, read, headRead, fitsBefore, there, apart, two, decoded⟩ :=
    @head_run head limits true (rounds + 2) desk [] bare spoken fits running state _ made unread
  have position : read.reader = head.bytes.length := by
    rw [headRead.reader, reader, Nat.zero_add]
  have drained : read.reader = read.writer := by
    rw [position, headRead.writer, writer, bytes]
  rw [bytes] at small
  rw [lengthState_run bare headRead.running (by omega) headRead.pointed headRead.made,
    if_neg (by omega)] at decoded
  have silent := @callDecode_silent (HttpResponseDecoder.replaying limits) true (rounds + 1) before
    read fitsBefore there decoded headRead.calm (fun still => apart still.1.symm)
  have done := callDecode_done (HttpResponseDecoder.replaying limits) true rounds headRead.fits drained
  have published : read.fields.published = [] := by
    rw [headRead.published, fields]
    rfl
  -- the connection is closed in front of the content
  let gone : Desk := { read with cumulated := false, fired := [], ended := true }
  have fitsOver : gone.Fits :=
    ⟨headRead.fits.ordered, headRead.fits.small, headRead.fits.order, headRead.fits.bound⟩
  obtain ⟨part, after, -, shown, firedAfter, last⟩ := @variableState_drained head gone fitsOver rfl
    drained headRead.pointed headRead.made
  have decodes : decode limits HttpResponseDecoder.subclass gone.state = variableState := by
    rw [show gone.state = READ_VARIABLE_LENGTH_CONTENT from headRead.state]
    rfl
  rw [← decodes] at last
  have fires := @lastCall_fires limits HttpResponseDecoder.subclass true gone after _ last rfl
  have unreadable : ¬gone.context.replayable.buffer.readable = true := by
    show ¬gone.buffer.readable = true
    have nothing : ¬gone.reader < gone.writer := by
      show ¬read.reader < read.writer
      omega
    rw [fitsOver.readable, decide_eq_false nothing]
    exact Bool.false_ne_true
  let left : Desk := { after with
    fired := after.fired ++ unfolded true (.object gone.fields.published.length) }
  have ended : (ReplayingDecoder.finish (HttpResponseDecoder.replaying limits) true
      (rounds + 4)).run { read with cumulated := false, fired := [] : Desk }.context =
      .ok () left.context := by
    rw [ReplayingDecoder.finish_run]
    exact (if_neg unreadable).trans fires
  have cleaned := @ReplayingDecoder.cleanup_returns HttpMessageDecoder
    (HttpResponseDecoder.replaying limits) (rounds + 4) .channelDisconnected
    ⟨read.left config true, read.fired.map .event⟩ ⟨read.short, read.ended, read.buffer⟩ left.context
    rfl ended
  refine ⟨⟨ReplayingDecoder.closedWith (read.left config true) left.context,
    read.fired.map .event ++ left.fired.map .event ++ [.closing .channelDisconnected]⟩, part, ?_,
    ⟨?_, ?_⟩⟩
  · unfold untilClose
    rw [List.map_singleton, List.singleton_append, List.foldlM_cons, goes read (two.trans (silent.trans done)), ok_bind, List.foldlM_cons]
    unfold ReplayingDecoder.deliver Sender.handled
    dsimp only
    rw [cleaned]
    rfl
  · show after.fields.published = _
    rw [shown]
    show read.fields.published ++ _ = _
    rw [published, List.nil_append]
  · show read.fired.map Upward.event ++ left.fired.map Upward.event ++ _ = _
    have count : gone.fields.published.length = 0 := by
      rw [show gone.fields.published = [] from published]
      rfl
    rw [headRead.fired, fired]
    show _ ++ (after.fired ++ unfolded true (.object gone.fields.published.length)).map
      Upward.event ++ _ = _
    rw [firedAfter, count]
    rfl

end Stream

section Responses

/-- A buffer of its own. -/
def Piece.of (bytes : List Byte) : Piece :=
  ⟨bytes, .heap ⟨.big, bytes, ⟨0, bytes.length, 0, 0⟩⟩, false⟩

section

variable {config : ChannelConfig} (apart : config.channelOwnBuffer = false)

include apart

theorem Piece.of_arrives
    (decoder : ReplayingDecoder HttpMessageDecoder) (received : Nat) {bytes : List Byte}
    (small : bytes.length ≤ 2147483647) :
    Arrives config decoder received bytes (Piece.of bytes).input (Piece.of bytes).same := by
  unfold Arrives
  rw [apart, if_neg Bool.false_ne_true]
  have limit : (bytes.length : Int) ≤ maxInt := by
    unfold maxInt
    omega
  refine ⟨ChannelBuffer.heap_sound limit ⟨Int.le_refl _, Int.natCast_nonneg _, Int.le_refl _⟩, ?_,
    rfl⟩
  unfold Piece.of ChannelBuffer.readableContent
  rw [ChannelBuffer.content]
  exact window_whole _

theorem feeds_apart (subclass : ReplayingSubclass HttpMessageDecoder) (fuel : Nat)
    (sender : Sender (ReplayingDecoder HttpMessageDecoder)) (received : Nat)
    {pieces : List (List Byte)} (small : ∀ bytes ∈ pieces, bytes.length ≤ 2147483647) :
    Feeds subclass config fuel sender received (pieces.map Piece.of) := by
  induction pieces generalizing sender received with
  | nil => exact trivial
  | cons bytes rest ih =>
      refine ⟨Piece.of_arrives apart _ _ (small bytes List.mem_cons_self), fun after _ => ?_⟩
      exact ih after _ fun other among => small other (List.mem_cons_of_mem _ among)

end

def greeting : ResponseHead :=
  ⟨HttpVersion.HTTP_1_1, 200, text "OK", [⟨text "Server", text " ", text "cetty"⟩]⟩

theorem greeting_unmeasured : greeting.Unmeasured ⟨100, 100, 4⟩ where
  version := Or.inr rfl
  least := by decide
  most := by decide
  filled := by decide
  worded := by decide
  unbroken := by decide
  plain := by
    intro field among
    rw [List.mem_singleton.mp among]
    exact ⟨by decide, by decide, by decide, ⟨99, text "etty", rfl, by decide⟩⟩
  unmeasured := by decide
  line := by decide
  lines := by decide

theorem greeting_content :
    ∃ after parts last,
      (untilClose ([greeting.bytes ++ text "hello", text " wor", text "ld"].map Piece.of)).foldlM
        (ReplayingDecoder.deliver (HttpResponseDecoder.replaying ⟨100, 100, 4⟩) ⟨false, .big⟩ 100)
        atStart = .ok after ∧
      Split 4 parts (text "hello world") ∧ last.isLast = true ∧
      Fires after (HttpObject.message (greeting.message true (some .emptyBuffer)) ::
        (parts.map chunkObject ++ [.chunk last])) [Upward.closing .channelDisconnected] :=
  @content_until_close greeting ⟨100, 100, 4⟩ ⟨false, .big⟩ 100 greeting_unmeasured
    ⟨79, by decide, by decide⟩ (by decide) (by decide) (by decide) (text "hello")
    (text "hello world") (Piece.of (greeting.bytes ++ text "hello"))
    [Piece.of (text " wor"), Piece.of (text "ld")] rfl rfl
    (@feeds_apart ⟨false, .big⟩ rfl _ _ _ _ [greeting.bytes ++ text "hello", text " wor", text "ld"]
      (by decide)) (by decide) (by decide)

def whisper : ResponseHead := ⟨HttpVersion.HTTP_1_1, 200, text " a", []⟩

theorem whisper_unmeasured : whisper.Unmeasured ⟨100, 100, 4⟩ where
  version := Or.inr rfl
  least := by decide
  most := by decide
  filled := by decide
  worded := by decide
  unbroken := by decide
  plain := fun field among => absurd among List.not_mem_nil
  unmeasured := by decide
  line := by decide
  lines := by decide

/-- How a delivery ends. -/
def stopped {Value : Type} : Except Stop Value → Option Stop
  | .ok _ => none
  | .error stop => some stop

def lengthy : ResponseHead :=
  ⟨HttpVersion.HTTP_1_1, 200, text "OK", [⟨text "A", [], List.replicate 1073741800 98⟩]⟩

theorem lengthy_lines :
    (HttpField.lines lengthy.fields).length = 1073741804 := by
  have line : (headerLine (text "A") [] (List.replicate 1073741800 98)).length = 1073741802 := by
    rw [headerLine_length, List.length_replicate]
    rfl
  show (headerLine (text "A") [] (List.replicate 1073741800 98) ++ lineEnd ++ []).length = _
  rw [List.append_nil, List.length_append, line]
  rfl

theorem lengthy_length : lengthy.bytes.length = 1073741823 := by
  unfold ResponseHead.bytes
  rw [List.length_append, List.length_append, List.length_append, lengthy_lines]
  rfl

theorem lengthy_unmeasured : lengthy.Unmeasured ⟨100, 1073741824, 1073741824⟩ where
  version := Or.inr rfl
  least := by decide
  most := by decide
  filled := by decide
  worded := by decide
  unbroken := by decide
  plain := by
    intro field among
    rw [List.mem_singleton.mp among]
    refine ⟨by decide, fun c none => absurd none List.not_mem_nil, ?_, ?_⟩
    · intro c inside
      rw [(List.mem_replicate.mp inside).2]
      decide
    · exact ⟨98, List.replicate 1073741799 98, List.replicate_succ, by decide⟩
  unmeasured := by
    intro field among
    rw [List.mem_singleton.mp among]
    exact ⟨by decide, by decide⟩
  line := by decide
  lines := by
    rw [lengthy_lines]
    decide

/-- A reason phrase of a blank and a character is dereferenced as a null pointer; a response is fired
whole when its head leaves no more room than the largest chunk. -/
theorem whisper_and_lengthy :
    (whisper.Unmeasured ⟨100, 100, 4⟩ ∧
      stopped (ReplayingDecoder.deliver (HttpResponseDecoder.replaying ⟨100, 100, 4⟩) ⟨false, .big⟩
        100 atStart (Piece.of whisper.bytes).delivery) = some .outOfBounds) ∧
    (lengthy.Unmeasured ⟨100, 1073741824, 1073741824⟩ ∧ lengthy.bytes.length < 1073741824 ∧
      ∃ after part, (untilClose [Piece.of lengthy.bytes]).foldlM
          (ReplayingDecoder.deliver (HttpResponseDecoder.replaying ⟨100, 1073741824, 1073741824⟩)
            ⟨false, .big⟩ 1073741830) atStart = .ok after ∧
        Fires after [HttpObject.message (lengthy.message false (some part))]
          [Upward.closing .channelDisconnected]) := by
  have length := lengthy_length
  have arrives : Arrives ⟨false, .big⟩ atStart.decoder lengthy.bytes.length lengthy.bytes
      (Piece.of lengthy.bytes).input (Piece.of lengthy.bytes).same :=
    Piece.of_arrives rfl _ _ (by omega)
  refine ⟨⟨whisper_unmeasured, ?_⟩, lengthy_unmeasured, by omega, ?_⟩
  · decide +kernel
  · exact @head_alone lengthy ⟨100, 1073741824, 1073741824⟩ ⟨false, .big⟩ 1073741830
      lengthy_unmeasured ⟨79, by decide, by decide⟩ (by rw [length]; decide) (Piece.of lengthy.bytes)
      rfl arrives (by show lengthy.bytes.length < 1073741824; omega) (by decide)

end Responses

end HttpMessageDecoder

end Cetty
