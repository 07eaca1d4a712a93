import Cetty.DeskRounds
import Cetty.HttpHeads

/-!
# Content that ends with the connection

While the connection is open the content is cut into chunks of the largest size, and what is left is
kept. When it is closed the rest is a chunk with the last chunk behind it, or the last chunk itself.
-/

namespace Cetty

open MachineInt ByteWindow

namespace HttpMessageDecoder

open ReplayingDecoder (unfoldAndfireMessageReceived)

/-- The objects are fired one by one. -/
def firings (first count : Nat) : List UpstreamEvent :=
  (List.range' first count).map fun identity => .messageReceived (.object identity)

theorem firings_append (first count more : Nat) :
    firings first count ++ firings (first + count) more = firings first (count + more) := by
  unfold firings
  rw [← List.map_append, List.range'_append_1]

def chunkObject (part : ChannelBuffer) : HttpObject := .chunk (.chunk part)

/-- The parts are chunks of at most so many bytes, and show these bytes. -/
structure Split (most : Int) (parts : List ChannelBuffer) (bytes : List Byte) : Prop where
  readable : ∀ part ∈ parts, part.readable = true
  small : ∀ part ∈ parts, (part.readableContent.length : Int) ≤ most
  shown : (parts.map ChannelBuffer.readableContent).flatten = bytes

namespace Split

variable {most : Int} {parts more : List ChannelBuffer} {bytes others : List Byte}

theorem nil (most : Int) : Split most [] [] :=
  ⟨fun _ among => absurd among List.not_mem_nil, fun _ among => absurd among List.not_mem_nil, rfl⟩

theorem single {part : ChannelBuffer} (readable : part.readable = true)
    (small : (part.readableContent.length : Int) ≤ most) :
    Split most [part] part.readableContent := by
  refine ⟨?_, ?_, by simp⟩
  · intro other among
    rw [List.mem_singleton.mp among]
    exact readable
  · intro other among
    rw [List.mem_singleton.mp among]
    exact small

theorem append (front : Split most parts bytes) (back : Split most more others) :
    Split most (parts ++ more) (bytes ++ others) := by
  refine ⟨?_, ?_, ?_⟩
  · intro part among
    rcases List.mem_append.mp among with here | there
    · exact front.readable part here
    · exact back.readable part there
  · intro part among
    rcases List.mem_append.mp among with here | there
    · exact front.small part here
    · exact back.small part there
  · rw [List.map_append, List.flatten_append, front.shown, back.shown]

end Split

section Content

variable {limits : HttpLimits} {httpSubclass : HttpSubclass} {unfold_ : Bool} {fuel : Nat} {desk : Desk}

/-- Some objects have been published. -/
def Desk.publishing (desk : Desk) (objects : List HttpObject) : Desk :=
  { desk with fields := { desk.fields with published := desk.fields.published ++ objects } }

theorem Desk.publishing_publishing (desk : Desk) (front back : List HttpObject) :
    (desk.publishing front).publishing back = desk.publishing (front ++ back) := by
  unfold Desk.publishing
  rw [List.append_assoc]

theorem Desk.readableBytes_open (running : desk.ended = false) (small : desk.reader ≤ 2147483647) :
    desk.context.replayable.readableBytes = ((2147483647 - desk.reader : Nat) : Int) := by
  have index : desk.context.replayable.buffer.readerIdx = desk.reader := desk.buffer_readerIdx
  have terminated : desk.context.replayable.terminated = false := running
  unfold ReplayingDecoderBuffer.readableBytes
  rw [terminated, if_neg Bool.false_ne_true, index]
  unfold maxInt
  rw [int32_of_nonneg (by omega) (by unfold maxInt; omega)]
  omega

theorem Desk.readableBytes_ended (fits : desk.Fits) (gone : desk.ended = true) :
    desk.context.replayable.readableBytes = ((desk.writer - desk.reader : Nat) : Int) := by
  have terminated : desk.context.replayable.terminated = true := gone
  unfold ReplayingDecoderBuffer.readableBytes
  rw [terminated, if_pos rfl]
  exact fits.readableBytes

section

variable (fits : desk.Fits) (running : desk.ended = false)
  (most : limits.maxChunkSize ≤ 1073741824)

include fits running most

theorem variableChunks_whole (positive : 1 ≤ limits.maxChunkSize)
    (bound : desk.writer < 1073741824)
    (there : limits.maxChunkSize ≤ ((desk.writer - desk.reader : Nat) : Int)) :
    ∃ part, Split limits.maxChunkSize [part] (desk.unread.take limits.maxChunkSize.toNat) ∧
      (variableChunksState limits).run desk.context =
        .ok (.object desk.fields.published.length)
          ((desk.pass limits.maxChunkSize.toNat).publishing [chunkObject part]).context := by
  have order := fits.order
  obtain ⟨size, same⟩ := Int.eq_ofNat_of_zero_le (Int.le_trans (by decide) positive)
  rw [same, Int.toNat_natCast]
  have room := desk.readableBytes_open running (by omega)
  have least : min limits.maxChunkSize desk.context.replayable.readableBytes = (size : Int) := by
    rw [room, same]
    exact Int.min_eq_left (by omega)
  obtain ⟨part, shown, readable, ran⟩ := @readSlice_run desk fits size (by omega)
  have length : part.readableContent.length = size := by
    rw [shown, List.length_take, fits.unread_length]
    omega
  refine ⟨part, ?_, ?_⟩
  · rw [← shown]
    apply Split.single
    · rw [readable]
      exact decide_eq_true (by omega)
    · omega
  · unfold variableChunksState
    rw [run_bind_get]
    rw [least, run_bind_ok _ ran, run_bind_ok _ (desk.needMoreBytes_pass size),
      if_neg Bool.false_ne_true, run_bind_get]
    have goesOn : (!(desk.pass size).context.replayable.readable) = false := by
      have terminated : (desk.pass size).context.replayable.terminated = false := running
      unfold ReplayingDecoderBuffer.readable
      rw [terminated]
      rfl
    rw [goesOn, if_neg Bool.false_ne_true]
    exact publish_run (desk.pass size) (chunkObject part)

theorem variableChunks_short (bound : desk.writer < 1073741824)
    (lacking : ((desk.writer - desk.reader : Nat) : Int) < limits.maxChunkSize) :
    (variableChunksState limits).run desk.context =
      .ok .empty { desk with short := true }.context := by
  have order := fits.order
  have room := desk.readableBytes_open running (by omega)
  have least : min limits.maxChunkSize desk.context.replayable.readableBytes =
      limits.maxChunkSize := by
    rw [room]
    exact Int.min_eq_left (by omega)
  unfold variableChunksState
  rw [run_bind_get]
  rw [least, run_bind_ok _ (readSlice_short fits lacking), run_bind_ok _ (needMoreBytes_run _)]
  rfl

end

/-- What the loop makes of the content that is there, when more may come. -/
structure Drained (limits : HttpLimits) (desk after : Desk) (parts : List ChannelBuffer) : Prop where
  fits : after.Fits
  fields : after.fields = (desk.publishing (parts.map chunkObject)).fields
  state : after.state = desk.state
  cumulated : after.cumulated = desk.cumulated
  ended : after.ended = desk.ended
  shell : after.shell = desk.shell
  cells : after.cells = desk.cells
  writer : after.writer = desk.writer
  fired : after.fired = desk.fired ++ firings desk.fields.published.length parts.length
  split : ∃ bytes, Split limits.maxChunkSize parts bytes ∧ desk.unread = bytes ++ after.unread
  small : (after.unread.length : Int) < limits.maxChunkSize

theorem chunks_run (fits : desk.Fits) (running : desk.ended = false)
    (most : limits.maxChunkSize ≤ 1073741824) (positive : 1 ≤ limits.maxChunkSize)
    (state : desk.state = READ_VARIABLE_LENGTH_CONTENT_AS_CHUNKS)
    (bound : desk.writer < 1073741824) (enough : desk.unread.length < fuel) :
    ∃ after parts, Drained limits desk after parts ∧
      (ReplayingDecoder.callDecode (replaying limits httpSubclass) unfold_ fuel).run desk.context =
        .ok () after.context := by
  induction fuel generalizing desk with
  | zero => omega
  | succ fuel ih =>
      have length := fits.unread_length
      have order := fits.order
      by_cases drained : desk.reader = desk.writer
      · refine ⟨desk, [], ⟨fits, ?_, rfl, rfl, rfl, rfl, rfl, rfl, ?_, ⟨[], Split.nil _, rfl⟩, by omega⟩,
          callDecode_done _ unfold_ fuel fits drained⟩
        · unfold Desk.publishing
          rw [List.map_nil, List.append_nil]
        · rw [List.length_nil]
          exact (List.append_nil _).symm
      · have there : desk.reader < desk.writer := by omega
        have decodes : (replaying limits httpSubclass).decode desk.state = variableChunksState limits := by
          rw [state]
          rfl
        by_cases whole : limits.maxChunkSize ≤ ((desk.writer - desk.reader : Nat) : Int)
        · have opened : desk.opened.Fits := ⟨fits.ordered, fits.small, fits.order, fits.bound⟩
          obtain ⟨part, split, decoded⟩ :=
            @variableChunks_whole limits desk.opened opened running most positive bound whole
          rw [← decodes] at decoded
          obtain ⟨size, same⟩ := Int.eq_ofNat_of_zero_le (Int.le_trans (by decide) positive)
          have counted : limits.maxChunkSize.toNat = size := by
            rw [same, Int.toNat_natCast]
          rw [counted] at decoded split
          let read : Desk := (desk.opened.pass size).publishing [chunkObject part]
          let fired : Desk := { read with
            fired := desk.fired ++ firings desk.fields.published.length 1 }
          have fires := @callDecode_fires (replaying limits httpSubclass) unfold_ fuel desk read
            (.object desk.fields.published.length) fits there decoded rfl (by
              rintro ⟨still, -⟩
              have moved : desk.reader + size = desk.reader := still
              omega)
          have passed : (desk.pass size).Fits := fits.pass (by omega)
          have fits' : fired.Fits := ⟨passed.ordered, passed.small, passed.order, passed.bound⟩
          have parts : desk.unread = desk.unread.take size ++ desk.unread.drop size :=
            (List.take_append_drop _ _).symm
          have front : (desk.unread.take size).length = size := by
            rw [List.length_take]
            omega
          have rest : (desk.pass size).unread = desk.unread.drop size := by
            have left := fits.unread_pass parts
            rw [front] at left
            exact left
          have shorter : fired.unread.length < fuel := by
            show (desk.pass size).unread.length < fuel
            rw [rest, List.length_drop]
            omega
          obtain ⟨after, more, drainedRest, ran⟩ := ih fits' running state bound shorter
          obtain ⟨bytes, splitRest, left⟩ := drainedRest.split
          refine ⟨after, part :: more, ⟨drainedRest.fits, ?_, drainedRest.state, drainedRest.cumulated,
            drainedRest.ended, drainedRest.shell, drainedRest.cells, drainedRest.writer, ?_,
            ⟨desk.unread.take size ++ bytes, split.append splitRest, ?_⟩, drainedRest.small⟩, ?_⟩
          · rw [drainedRest.fields]
            have gathered := desk.publishing_publishing [chunkObject part] (more.map chunkObject)
            have same : (fired.publishing (more.map chunkObject)).fields =
                ((desk.publishing [chunkObject part]).publishing (more.map chunkObject)).fields := rfl
            rw [same, gathered]
            rfl
          · rw [drainedRest.fired]
            show desk.fired ++ firings desk.fields.published.length 1 ++
              firings (desk.fields.published ++ [chunkObject part]).length more.length = _
            rw [List.length_append, List.length_singleton, List.append_assoc, firings_append,
              List.length_cons, Nat.add_comm 1]
          · rw [List.append_assoc, ← left]
            show desk.unread = desk.unread.take size ++ (desk.pass size).unread
            rw [rest]
            exact parts
          · have shown : read.fired ++ unfolded unfold_ (.object desk.fields.published.length) =
                fired.fired := by
              cases unfold_ <;> rfl
            rw [shown] at fires
            exact fires.trans ran
        · have opened : desk.opened.Fits := ⟨fits.ordered, fits.small, fits.order, fits.bound⟩
          have short := @variableChunks_short limits desk.opened opened running most bound (by
            show ((desk.writer - desk.reader : Nat) : Int) < limits.maxChunkSize
            omega)
          rw [← decodes] at short
          let after : Desk := { desk.opened with short := true }
          have stops := @callDecode_short (replaying limits httpSubclass) unfold_ fuel desk after
            desk.reader fits there short rfl rfl order
          refine ⟨{ after with reader := desk.reader }, [],
            ⟨⟨fits.ordered, fits.small, fits.order, fits.bound⟩, ?_, rfl, rfl, rfl, rfl, rfl, rfl, ?_,
              ⟨[], Split.nil _, rfl⟩, ?_⟩, stops⟩
          · unfold Desk.publishing
            rw [List.map_nil, List.append_nil]
            rfl
          · rw [List.length_nil]
            exact (List.append_nil _).symm
          · show (desk.unread.length : Int) < limits.maxChunkSize
            omega

/-- What the pointer to the message points to. -/
def Desk.object (desk : Desk) : HttpObject :=
  match desk.fields.message, desk.fields.object with
  | true, some message => .message message
  | _, _ => .null

/-- The message is let go of. -/
def Desk.released (desk : Desk) : Desk :=
  { desk with fields := { desk.fields with message := false } }.checkpointed SKIP_CONTROL_CHARS

theorem Desk.release_run (desk : Desk) :
    release.run desk.context = .ok desk.object desk.released.context := by
  unfold release
  rw [run_bind_get]
  refine (run_bind_ok _ (update_run desk fun fields => { fields with message := false })).trans ?_
  exact run_bind_ok _ (checkpointAt_run _ _)

theorem Desk.reset_run (none : desk.fields.content = none) :
    reset.run desk.context = .ok desk.object desk.released.context := by
  have content : desk.context.fields.content = .none := none
  unfold reset
  rw [run_bind_get]
  rw [content]
  exact desk.release_run

/-- A message whose content has been read is published and let go of. -/
theorem Desk.publish_filled {message : HttpMessage} {part : ChannelBuffer}
    (pointed : desk.fields.message = true) (made : desk.fields.object = some message)
    (held : desk.fields.content = some part) (hidden : part.readable = false) :
    (do publish (← reset) : Decode ChannelMessage).run desk.context =
      .ok (.object desk.fields.published.length)
        ({ desk with fields := { desk.fields with
          content := none
          object := some { message with content := some part } } }.released.publishing
            [HttpObject.message { message with content := some part }]).context := by
  let filled : Desk := { desk with fields := { desk.fields with
    content := none
    object := some { message with content := some part } } }
  have sets : message.setContent part = .ok { message with content := some part } := by
    unfold HttpMessage.setContent
    rw [hidden, Bool.false_and, if_neg Bool.false_ne_true]
    rfl
  have object : filled.object = .message { message with content := some part } := by
    unfold Desk.object
    rw [show filled.fields.message = true from pointed]
  have resets : reset.run desk.context = .ok filled.object filled.released.context := by
    unfold reset
    rw [run_bind_get]
    rw [show desk.context.fields.content = some part from held]
    dsimp only
    rw [run_bind_ok _ (onMessage_run pointed made sets)]
    refine (run_bind_ok _ (update_run _ _)).trans ?_
    exact filled.release_run
  rw [object] at resets
  exact (run_bind_ok _ resets).trans (publish_run _ _)

theorem Desk.publishLast_run (none : desk.fields.content = none) (part : ChannelBuffer) :
    (publishLast (.chunk part)).run desk.context =
      if part.readable then
        .ok (.vector [.object desk.fields.published.length,
          .object (desk.fields.published.length + 1)])
          (desk.released.publishing [chunkObject part, .chunk .LAST_CHUNK]).context
      else .ok (.object desk.fields.published.length)
        (desk.released.publishing [chunkObject part]).context := by
  unfold publishLast
  rw [run_bind_ok _ (Desk.reset_run none)]
  by_cases readable : part.readable = true
  · have more : (HttpChunk.chunk part).isLast = false := by
      show (!part.readable) = false
      rw [readable]
      rfl
    rw [if_pos readable, more, if_neg Bool.false_ne_true]
    refine (run_bind_ok _ (publish_run _ _)).trans ?_
    refine (run_bind_ok _ (publish_run _ _)).trans ?_
    have length : (desk.released.fields.published ++ [chunkObject part]).length =
        desk.fields.published.length + 1 := by
      rw [List.length_append]
      rfl
    have first : desk.released.fields.published.length = desk.fields.published.length := rfl
    have gathered := desk.released.publishing_publishing [chunkObject part] [.chunk .LAST_CHUNK]
    show EStateM.Result.ok (ChannelMessage.vector [.object desk.released.fields.published.length,
      .object (desk.released.fields.published ++ [chunkObject part]).length])
      ((desk.released.publishing [chunkObject part]).publishing [.chunk .LAST_CHUNK]).context = _
    rw [length, first, gathered]
    rfl
  · have last : (HttpChunk.chunk part).isLast = true := by
      show (!part.readable) = true
      rw [Bool.not_eq_true] at readable
      rw [readable]
      rfl
    rw [if_neg readable, last, if_pos rfl]
    exact publish_run _ _

/-- The rest of the content: a chunk unless there is nothing of it, and the last chunk. -/
theorem variableChunks_ended (fits : desk.Fits) (gone : desk.ended = true)
    (none : desk.fields.content = none)
    (small : (desk.unread.length : Int) < limits.maxChunkSize) :
    ∃ parts last frame, Split limits.maxChunkSize parts desk.unread ∧ last.isLast = true ∧
      frame.isEmpty = false ∧
      unfolded true frame = firings desk.fields.published.length (parts.length + 1) ∧
      (variableChunksState limits).run desk.context = .ok frame
        ((desk.pass desk.unread.length).released.publishing
          (parts.map chunkObject ++ [.chunk last])).context := by
  have length := fits.unread_length
  have order := fits.order
  have room := desk.readableBytes_ended fits gone
  have least : min limits.maxChunkSize desk.context.replayable.readableBytes =
      (desk.unread.length : Int) := by
    rw [room, length]
    exact Int.min_eq_right (by omega)
  obtain ⟨part, shown, readable, ran⟩ := @readSlice_run desk fits desk.unread.length (by omega)
  rw [List.take_length] at shown
  have passed : (desk.pass desk.unread.length).Fits := fits.pass (by omega)
  have drained : (!(desk.pass desk.unread.length).context.replayable.readable) = true := by
    have terminated : (desk.pass desk.unread.length).context.replayable.terminated = true := gone
    have nothing : (desk.pass desk.unread.length).buffer.readable = false := by
      rw [passed.readable]
      apply decide_eq_false
      show ¬desk.reader + desk.unread.length < desk.writer
      omega
    unfold ReplayingDecoderBuffer.readable
    rw [terminated, if_pos rfl]
    show (!(desk.pass desk.unread.length).buffer.readable) = true
    rw [nothing]
    rfl
  have goes : (variableChunksState limits).run desk.context =
      (publishLast (.chunk part)).run (desk.pass desk.unread.length).context := by
    unfold variableChunksState
    rw [run_bind_get]
    rw [least, run_bind_ok _ ran, run_bind_ok _ (desk.needMoreBytes_pass _),
      if_neg Bool.false_ne_true, run_bind_get]
    rw [drained, if_pos rfl]
  have published := @Desk.publishLast_run (desk.pass desk.unread.length) none part
  rw [goes, published]
  by_cases present : 0 < desk.unread.length
  · have here : part.readable = true := by
      rw [readable]
      exact decide_eq_true present
    rw [if_pos here]
    refine ⟨[part], .LAST_CHUNK, _, ?_, rfl, rfl, rfl, rfl⟩
    rw [← shown]
    exact Split.single here (by rw [shown]; omega)
  · have nothing : desk.unread = [] := List.eq_nil_of_length_eq_zero (by omega)
    have hidden : part.readable = false := by
      rw [readable]
      exact decide_eq_false present
    rw [if_neg (by rw [hidden]; exact Bool.false_ne_true)]
    refine ⟨[], .chunk part, _, ?_, ?_, rfl, rfl, rfl⟩
    · rw [nothing]
      exact Split.nil _
    · show (!part.readable) = true
      rw [hidden]
      rfl

/-- In front of the next message nothing is decoded when nothing is left. -/
theorem skipState_drained (fits : desk.Fits) (drained : desk.reader = desk.writer) :
    ∃ checkedPoint, skipState.run desk.context =
      .ok .empty { desk with short := true, checkedPoint := checkedPoint }.context := by
  have read := readUnsignedByte_short fits (by omega)
  have looped : (skipLoop (desk.writer - desk.reader + 1)).run desk.context =
      .ok false { desk with short := true }.context := by
    rw [skipLoop, run_bind_ok _ read, run_bind_ok _ (needMoreBytes_run _)]
    rfl
  have skipped : skipControlCharacters.run desk.context =
      .ok false { desk with short := true }.context := by
    unfold skipControlCharacters
    rw [run_bind_ok _ (rounds_run fits)]
    exact looped
  refine ⟨if desk.cumulated then (desk.reader : Int) else -1, ?_⟩
  unfold skipState
  rw [run_bind_ok _ skipped, if_neg Bool.false_ne_true]
  exact run_bind_ok _ (checkpoint_run _)

theorem lastCall_fires {before after : Desk} {frame : ChannelMessage}
    (decoded : (decode limits httpSubclass before.state).run before.context =
      .ok frame after.context) (shown : frame.isEmpty = false) :
    (ReplayingDecoder.lastCall (replaying limits httpSubclass) unfold_).run before.context =
      .ok () { after with fired := after.fired ++ unfolded unfold_ frame }.context := by
  unfold ReplayingDecoder.lastCall
  rw [run_bind_get]
  refine (run_bind_ok _ decoded).trans ?_
  rw [shown]
  rfl

theorem lastCall_silent {before after : Desk}
    (decoded : (decode limits httpSubclass before.state).run before.context =
      .ok .empty after.context) :
    (ReplayingDecoder.lastCall (replaying limits httpSubclass) unfold_).run before.context =
      .ok () after.context := by
  unfold ReplayingDecoder.lastCall
  rw [run_bind_get]
  exact run_bind_ok _ decoded

/-- The end of the content when the connection is closed. -/
theorem finish_content (fits : desk.Fits) (none : desk.fields.content = none)
    (state : desk.state = READ_VARIABLE_LENGTH_CONTENT_AS_CHUNKS)
    (small : (desk.unread.length : Int) < limits.maxChunkSize) (enough : 2 ≤ fuel) :
    ∃ (parts : List ChannelBuffer) (last : HttpChunk) (after : Desk),
      Split limits.maxChunkSize parts desk.unread ∧ last.isLast = true ∧
      after.fields.published =
        desk.fields.published ++ (parts.map chunkObject ++ [.chunk last]) ∧
      after.fired = desk.fired ++ firings desk.fields.published.length (parts.length + 1) ∧
      (ReplayingDecoder.finish (replaying limits httpSubclass) true fuel).run desk.context =
        .ok () after.context := by
  let gone : Desk := { desk with ended := true }
  have fits' : gone.Fits := ⟨fits.ordered, fits.small, fits.order, fits.bound⟩
  have ended : ReplayingDecoder.ended desk.context = gone.context := rfl
  have ran := ReplayingDecoder.finish_run (replaying limits httpSubclass) true fuel desk.context
  rw [ended] at ran
  have length := fits.unread_length
  have decodes : ∀ other : Desk, other.state = desk.state →
      (replaying limits httpSubclass).decode other.state = variableChunksState limits := by
    intro other same
    rw [same, state]
    rfl
  by_cases there : desk.reader < desk.writer
  · have readable : gone.context.replayable.buffer.readable = true := readable_of fits' there
    have opened : gone.opened.Fits := ⟨fits.ordered, fits.small, fits.order, fits.bound⟩
    obtain ⟨parts, last, frame, split, isLast, shown, fired, decoded⟩ :=
      @variableChunks_ended limits gone.opened opened rfl none small
    rw [← decodes gone rfl] at decoded
    obtain ⟨rounds, rfl⟩ : ∃ rounds, fuel = rounds + 2 := ⟨fuel - 2, by omega⟩
    let read : Desk := (gone.opened.pass desk.unread.length).released.publishing
      (parts.map chunkObject ++ [.chunk last])
    let left : Desk := { read with fired := read.fired ++ unfolded true frame }
    have fires := @callDecode_fires (replaying limits httpSubclass) true (rounds + 1) gone read frame
      fits' there decoded shown (by
        rintro ⟨still, -⟩
        have moved : desk.reader + desk.unread.length = desk.reader := still
        omega)
    have drained : left.reader = left.writer := by
      show desk.reader + desk.unread.length = desk.writer
      omega
    have passed : (gone.opened.pass desk.unread.length).Fits :=
      opened.pass (by show desk.reader + desk.unread.length ≤ desk.writer; omega)
    have fitsLeft : left.Fits := ⟨passed.ordered, passed.small, passed.order, passed.bound⟩
    rw [callDecode_done _ true rounds fitsLeft drained] at fires
    obtain ⟨checkedPoint, skipped⟩ := skipState_drained fitsLeft drained
    have silent := @lastCall_silent limits httpSubclass true left
      { left with short := true, checkedPoint := checkedPoint } skipped
    refine ⟨parts, last, { left with short := true, checkedPoint := checkedPoint }, split, isLast,
      rfl, congrArg (desk.fired ++ ·) fired, ?_⟩
    rw [ran, if_pos readable, run_bind_ok _ fires]
    exact silent
  · have readable : ¬gone.context.replayable.buffer.readable = true := by
      show ¬gone.buffer.readable = true
      rw [fits'.readable, decide_eq_false (show ¬gone.reader < gone.writer from there)]
      exact Bool.false_ne_true
    obtain ⟨parts, last, frame, split, isLast, shown, fired, decoded⟩ :=
      @variableChunks_ended limits gone fits' rfl none small
    rw [← decodes gone rfl] at decoded
    let read : Desk := (gone.pass desk.unread.length).released.publishing
      (parts.map chunkObject ++ [.chunk last])
    have fires := @lastCall_fires limits httpSubclass true gone read frame decoded shown
    refine ⟨parts, last, { read with fired := read.fired ++ unfolded true frame }, split, isLast,
      rfl, congrArg (desk.fired ++ ·) fired, ?_⟩
    rw [ran, if_neg readable]
    exact fires

end Content

end HttpMessageDecoder

end Cetty
