import Cetty.ChunkedOutput
import Cetty.Outcomes

/-!
# The encoders of a process

Every encoder has its own flag, all of them hand out the same buffer for a last chunk without
headers. A write request leaves that buffer with its indices at zero, so the next encoder that
hands it out writes nothing.
-/

namespace Cetty

open CLocale MachineInt

/-- The encoders of a process: the buffer of the last chunk is shared, the flag is each encoder's
own. -/
structure HttpEncoders where
  lastChunk : ChannelBuffer
  chunked : Nat → Bool

namespace HttpEncoders

open HttpMessageEncoder

variable (encoding : Nat → HttpEncoding) (factory : ByteOrder)

/-- What an encoder makes of an event and what is written of it; nothing, if the event is handed on
as it is. -/
def write (encoder : Nat) (msg : HttpHeld) (this : HttpEncoders) :
    Except Stop (Option CharArray) × HttpEncoders :=
  match (encode (encoding encoder) factory msg).run (this.chunked encoder) with
  | .error stop chunked =>
      (.error stop, { this with chunked := Function.update this.chunked encoder chunked })
  | .ok encoded chunked =>
      let this := { this with chunked := Function.update this.chunked encoder chunked }
      match encoded with
      | .buffer buffer =>
          match AsioWriteRequest.make.run buffer with
          | .ok request _ => (.ok (some request.bytes), this)
          | .error stop _ => (.error stop, this)
      | .LAST_CHUNK =>
          match AsioWriteRequest.make.run this.lastChunk with
          | .ok request lastChunk => (.ok (some request.bytes), { this with lastChunk })
          | .error stop lastChunk => (.error stop, { this with lastChunk })
      | .EMPTY_MESSAGE => (.ok (some []), this)
      | .unknown => (.ok none, this)

/-- The events of all encoders, in the order in which they are written. -/
def run : List (Nat × HttpHeld) → HttpEncoders → List (Nat × Except Stop (Option CharArray))
  | [], _ => []
  | (encoder, msg) :: rest, this =>
      (encoder, (write encoding factory encoder msg this).1) ::
        run rest (write encoding factory encoder msg this).2

/-- What a chunked message is to be written as, event by event. Of other events nothing is said. -/
def wanted (chunked : Bool) : HttpHeld → Option Text
  | .httpMessage message => if message.isChunked then some message.head else none
  | msg => if chunked then msg.chunk.map HttpChunk.piece else none

/-- Whether a chunked message is unfinished after the event. -/
def follows (chunked : Bool) : HttpHeld → Bool
  | .httpMessage message => message.isChunked
  | msg =>
      match msg.chunk with
      | some chunk => chunked && !chunk.isLast
      | none => chunked

/-- A chunked message is one the encoder is for and has no content of its own; buffers are well
built. -/
def Proper (encoding : HttpEncoding) : HttpHeld → Prop
  | .httpMessage message => message.isChunked = true → encoding.fits message ∧
      ∃ content, message.content = some content ∧ content.readable = false
  | .httpChunk (.chunk content) => content.WellBuilt ∧ content.Undisturbed
  | _ => True

/-- The header of a chunked message says so and a buffer can hold its head; the content of a chunk
can be gathered, a trailer comes as a chunk, and the shared buffer has not been written before. -/
def Meets (chunked : Bool) (lastChunk : ChannelBuffer) : HttpHeld → Prop
  | .httpMessage message => message.isChunked = true →
      HttpCodecUtil.isTransferEncodingChunked message.header = true ∧
        message.head.length ≤ 1073741824
  | .httpChunk (.chunk content) => chunked = true →
      if content.readable then
        content.order = .big ∧ content.Gatherable ∧
          ((HttpChunk.chunk content).piece.length : Int) ≤ maxInt
      else lastChunk.readable = true
  | .httpChunk (.trailer header) => chunked = true →
      (HttpChunk.trailer header).piece.length ≤ 1073741824
  | .httpChunkTrailer _ => chunked = false
  | .other => True

section Steps

theorem encodeMessage_leads (encoding : HttpEncoding) (message : HttpMessage) :
    Leads (fun _ => True) (encodeMessage encoding factory message)
      (fun _ chunked => chunked = HttpCodecUtil.isTransferEncodingChunked message.header)
      (fun chunked => chunked = HttpCodecUtil.isTransferEncodingChunked message.header) := by
  have begun : Leads (fun _ => True)
      (set (HttpCodecUtil.isTransferEncodingChunked message.header) : Exec Bool Unit)
      (fun _ chunked => chunked = HttpCodecUtil.isTransferEncodingChunked message.header)
      (fun chunked => chunked = HttpCodecUtil.isTransferEncodingChunked message.header) :=
    Leads.set rfl
  unfold encodeMessage
  apply begun.bind
  intro _
  apply Leads.of_keeps _ (fun _ _ same => same) (fun _ same => same)
  apply (Keeps.call _).bind
  intro made
  apply (Keeps.call _).bind
  intro header
  cases message.content with
  | none => exact .throw _
  | some content =>
      apply Keeps.ite
      · exact fun _ => .pure _
      · intro _
        apply Keeps.ite
        · exact fun _ => .throw _
        · exact fun _ => (Keeps.call _).bind fun buffer => .pure _

variable {content : ChannelBuffer}

theorem encodeChunk_trailer (header : DefaultHttpHeader) :
    (encodeChunk factory (.trailer header)).run true =
      (do
        let trailer ← call (makeDynamic factory factory 1024)
        let trailer ← call (ChannelBuffers.writtenTo (writeTrailer header) trailer)
        pure (.buffer trailer) : Exec Bool Encoded).run false := by
  unfold encodeChunk
  rw [run_bind_get]
  rw [if_pos rfl, HttpChunk.isLast, if_pos rfl, EStateM.run_bind, EStateM.run_set]

theorem encodeChunk_last (empty : content.readable = false) :
    (encodeChunk factory (.chunk content)).run true = .ok .LAST_CHUNK false := by
  unfold encodeChunk
  rw [run_bind_get]
  rw [if_pos rfl, HttpChunk.isLast, empty, if_pos (show (!false) = true from rfl), EStateM.run_bind, EStateM.run_set]
  rfl

theorem encodeChunk_content (readable : content.readable = true) :
    (encodeChunk factory (.chunk content)).run true =
      (do
        let buffer ← call (ChannelBuffers.wrappedFourBuffers
          (ChannelBuffers.copiedBuffer .big (some (Integer.appendHex content.readableBytes)))
          LINE_BREAK content LINE_BREAK)
        pure (.buffer buffer) : Exec Bool Encoded).run true := by
  unfold encodeChunk
  rw [run_bind_get]
  rw [if_pos rfl, HttpChunk.isLast, readable, if_neg (by decide)]
  rfl

theorem encodeChunk_closed (chunk : HttpChunk) :
    (encodeChunk factory chunk).run false =
      .ok (if chunk.isLast then .EMPTY_MESSAGE else .buffer chunk.getContent) false := by
  unfold encodeChunk
  rw [run_bind_get]
  rw [if_neg (by decide)]
  cases chunk.isLast with
  | true => rfl
  | false => rfl

theorem encodeChunk_leaves (chunked : Bool) (chunk : HttpChunk) :
    leaves (encodeChunk factory chunk) chunked = (chunked && !chunk.isLast) := by
  cases chunked with
  | false => exact leaves_ok (encodeChunk_closed factory chunk)
  | true =>
      cases chunk with
      | trailer header =>
          have kept (made : Except Stop ChannelBuffer) : Keeps (fun flag => flag = false) (do
              let trailer ← call made
              let trailer ← call (ChannelBuffers.writtenTo (writeTrailer header) trailer)
              pure (.buffer trailer) : Exec Bool Encoded) :=
            (Keeps.call _).bind fun made => (Keeps.call _).bind fun trailer => .pure _
          rw [leaves_same (encodeChunk_trailer factory header), (kept _).leaves rfl]
          rfl
      | chunk content =>
          cases readable : content.readable with
          | false =>
              rw [leaves_ok (encodeChunk_last factory readable), HttpChunk.isLast, readable]
              rfl
          | true =>
              have kept : Keeps (fun flag => flag = true) (do
                  let buffer ← call (ChannelBuffers.wrappedFourBuffers
                    (ChannelBuffers.copiedBuffer .big
                      (some (Integer.appendHex content.readableBytes)))
                    LINE_BREAK content LINE_BREAK)
                  pure (.buffer buffer) : Exec Bool Encoded) :=
                (Keeps.call _).bind fun buffer => .pure _
              rw [leaves_same (encodeChunk_content factory readable), kept.leaves rfl,
                HttpChunk.isLast, readable]
              rfl

/-- The flag an encoder is left with. -/
theorem encode_leaves (encoding : HttpEncoding) (msg : HttpHeld) (chunked : Bool) :
    leaves (encode encoding factory msg) chunked =
      match msg with
      | .httpMessage message => HttpCodecUtil.isTransferEncodingChunked message.header
      | .httpChunk chunk => chunked && !chunk.isLast
      | _ => chunked := by
  cases msg with
  | httpMessage message => exact (encodeMessage_leads factory encoding message).leaves trivial
  | httpChunk chunk => exact encodeChunk_leaves factory chunked chunk
  | httpChunkTrailer header => rfl
  | other => rfl

/-- The shared buffer once it has been written. -/
def spent : ChannelBuffer := .heap ⟨.big, text "0\r\n\r\n", .zero⟩

theorem last_written : AsioWriteRequest.make.run LAST_CHUNK =
    .ok (.ofArray (text "0\r\n\r\n")) spent := rfl

theorem spent_written : AsioWriteRequest.make.run spent = .ok (.ofArray []) spent := rfl

/-- The shared buffer is as it was made, or it has been written. -/
def Shared (this : HttpEncoders) : Prop := this.lastChunk = LAST_CHUNK ∨ this.lastChunk = spent

variable (encoding : Nat → HttpEncoding) {encoder : Nat} {msg : HttpHeld} {this : HttpEncoders}

theorem write_chunked : (write encoding factory encoder msg this).2.chunked =
    Function.update this.chunked encoder
      (leaves (encode (encoding encoder) factory msg) (this.chunked encoder)) := by
  unfold write
  cases ran : (encode (encoding encoder) factory msg).run (this.chunked encoder) with
  | error stop chunked => rw [leaves_error ran]
  | ok encoded chunked =>
      rw [leaves_ok ran]
      cases encoded with
      | buffer buffer =>
          dsimp only
          cases AsioWriteRequest.make.run buffer with
          | ok request moved => rfl
          | error stop moved => rfl
      | LAST_CHUNK =>
          dsimp only
          cases AsioWriteRequest.make.run this.lastChunk with
          | ok request moved => rfl
          | error stop moved => rfl
      | EMPTY_MESSAGE => rfl
      | unknown => rfl

theorem write_shared (shared : Shared this) : Shared (write encoding factory encoder msg this).2 := by
  unfold write
  cases (encode (encoding encoder) factory msg).run (this.chunked encoder) with
  | error stop chunked => exact shared
  | ok encoded chunked =>
      cases encoded with
      | buffer buffer =>
          dsimp only
          cases AsioWriteRequest.make.run buffer with
          | ok request moved => exact shared
          | error stop moved => exact shared
      | LAST_CHUNK =>
          dsimp only
          rcases shared with fresh | again
          · rw [fresh, last_written]
            exact Or.inr rfl
          · rw [again, spent_written]
            exact Or.inr rfl
      | EMPTY_MESSAGE => exact shared
      | unknown => exact shared

theorem follows_leaves (meets : Meets (this.chunked encoder) this.lastChunk msg) :
    leaves (encode (encoding encoder) factory msg) (this.chunked encoder) =
      follows (this.chunked encoder) msg := by
  rw [encode_leaves]
  cases msg with
  | httpMessage message =>
      have direct : HttpCodecUtil.isTransferEncodingChunked message.header = message.isChunked := by
        cases chunked : message.isChunked with
        | true => exact (meets chunked).1
        | false =>
            unfold HttpMessage.isChunked at chunked
            exact (Bool.or_eq_false_iff.mp chunked).2
      exact direct
  | httpChunk chunk => rfl
  | httpChunkTrailer header =>
      have closed : this.chunked encoder = false := meets
      rw [closed]
      rfl
  | other => rfl

theorem write_buffer {buffer moved : ChannelBuffer} {request : AsioWriteRequest} {chunked : Bool}
    (ran : (encode (encoding encoder) factory msg).run (this.chunked encoder) =
      .ok (.buffer buffer) chunked)
    (made : AsioWriteRequest.make.run buffer = .ok request moved) :
    (write encoding factory encoder msg this).1 = .ok (some request.bytes) := by
  unfold write
  rw [ran]
  dsimp only
  rw [made]

theorem dynamicBuffer_eq : dynamicBuffer factory = makeDynamic factory factory (256 : Nat) := rfl

theorem message_written {message : HttpMessage} (fits : (encoding encoder).fits message)
    {content : ChannelBuffer} (held : message.content = some content)
    (empty : content.readable = false) (size : message.head.length ≤ 1073741824) :
    (write encoding factory encoder (.httpMessage message) this).1 = .ok (some message.head) := by
  have some_ : message.head ≠ [] := by
    unfold HttpMessage.head CRLF
    simp
  obtain ⟨made, filled, request, moved, began, wrote, sent, same⟩ :=
    (writeHead_puts fits).written some_ (by omega) factory (show ((256 : Nat) : Int) ≤ maxInt by decide)
  have ran : (encode (encoding encoder) factory (.httpMessage message)).run (this.chunked encoder) =
      .ok (.buffer filled) (HttpCodecUtil.isTransferEncodingChunked message.header) := by
    unfold encode encodeMessage
    dsimp only
    rw [EStateM.run_bind, EStateM.run_set]
    dsimp only
    rw [dynamicBuffer_eq, began, EStateM.run_bind, run_call_ok]
    dsimp only
    rw [wrote, EStateM.run_bind, run_call_ok]
    dsimp only
    rw [held]
    dsimp only
    rw [empty]
    rfl
  rw [write_buffer factory encoding ran sent, same]

theorem trailer_written {header : DefaultHttpHeader} (open_ : this.chunked encoder = true)
    (size : (HttpChunk.trailer header).piece.length ≤ 1073741824) :
    (write encoding factory encoder (.httpChunk (.trailer header)) this).1 =
      .ok (some (HttpChunk.trailer header).piece) := by
  obtain ⟨made, filled, request, moved, began, wrote, sent, same⟩ :=
    (writeTrailer_puts header).written (List.cons_ne_nil _ _) (by omega) factory
      (show ((1024 : Nat) : Int) ≤ maxInt by decide)
  have ran : (encode (encoding encoder) factory (.httpChunk (.trailer header))).run
      (this.chunked encoder) = .ok (.buffer filled) false := by
    unfold encode
    dsimp only
    rw [open_, encodeChunk_trailer]
    rw [show ((1024 : Nat) : Int) = 1024 from rfl] at began
    rw [began, EStateM.run_bind, run_call_ok]
    dsimp only
    rw [wrote, EStateM.run_bind, run_call_ok]
    rfl
  rw [write_buffer factory encoding ran sent, same]

theorem content_chunk_written (open_ : this.chunked encoder = true) (built : content.WellBuilt)
    (undisturbed : content.Undisturbed) (readable : content.readable = true)
    (ordered : content.order = .big) (gatherable : content.Gatherable)
    (small : ((HttpChunk.chunk content).piece.length : Int) ≤ maxInt) :
    (write encoding factory encoder (.httpChunk (.chunk content)) this).1 =
      .ok (some (HttpChunk.chunk content).piece) := by
  obtain ⟨buffer, request, moved, wrapped, sent, same⟩ :=
    content_written built undisturbed readable ordered gatherable small
  have ran : (encode (encoding encoder) factory (.httpChunk (.chunk content))).run
      (this.chunked encoder) = .ok (.buffer buffer) true := by
    unfold encode
    dsimp only
    rw [open_, encodeChunk_content factory readable, wrapped, EStateM.run_bind, run_call_ok]
    rfl
  rw [write_buffer factory encoding ran sent, same]

theorem last_chunk_written (shared : Shared this) (open_ : this.chunked encoder = true)
    (empty : content.readable = false) (unwritten : this.lastChunk.readable = true) :
    (write encoding factory encoder (.httpChunk (.chunk content)) this).1 =
      .ok (some (HttpChunk.chunk content).piece) := by
  have whole : (HttpChunk.chunk content).piece = text "0\r\n\r\n" := by
    unfold HttpChunk.piece
    dsimp only
    rw [empty, if_neg (by decide)]
  have fresh : this.lastChunk = LAST_CHUNK := by
    rcases shared with fresh | again
    · exact fresh
    · rw [again] at unwritten
      exact absurd unwritten (by decide)
  unfold write encode
  dsimp only
  rw [open_, encodeChunk_last factory empty]
  dsimp only
  rw [fresh, last_written, whole]
  rfl

/-- What is written of an event of a chunked message. -/
theorem write_wanted {bytes : Text} (shared : Shared this)
    (proper : Proper (encoding encoder) msg)
    (meets : Meets (this.chunked encoder) this.lastChunk msg)
    (asked : wanted (this.chunked encoder) msg = some bytes) :
    (write encoding factory encoder msg this).1 = .ok (some bytes) := by
  cases msg with
  | httpMessage message =>
      unfold wanted at asked
      dsimp only at asked
      cases chunked : message.isChunked with
      | false =>
          rw [chunked] at asked
          cases asked
      | true =>
          rw [chunked] at asked
          cases asked
          obtain ⟨fits, content, held, empty⟩ := proper chunked
          exact message_written factory encoding fits held empty (meets chunked).2
  | httpChunk chunk =>
      unfold wanted at asked
      dsimp only at asked
      cases open_ : this.chunked encoder with
      | false =>
          rw [open_] at asked
          cases asked
      | true =>
          rw [open_] at asked
          cases asked
          cases chunk with
          | trailer header => exact trailer_written factory encoding open_ (meets open_)
          | chunk content =>
              have condition := meets open_
              cases readable : content.readable with
              | true =>
                  rw [readable] at condition
                  obtain ⟨ordered, gatherable, small⟩ := condition
                  exact content_chunk_written factory encoding open_ proper.1 proper.2 readable
                    ordered gatherable small
              | false =>
                  rw [readable] at condition
                  exact last_chunk_written factory encoding shared open_ readable condition
  | httpChunkTrailer header =>
      have closed : this.chunked encoder = false := meets
      unfold wanted at asked
      dsimp only at asked
      rw [closed] at asked
      cases asked
  | other =>
      unfold wanted at asked
      dsimp only at asked
      split at asked
      · cases asked
      · cases asked

end Steps

/-- What belongs to one encoder. -/
def of {Value : Type} (encoder : Nat) (values : List (Nat × Value)) : List Value :=
  values.filterMap fun value => if value.1 = encoder then some value.2 else none

/-- Each event meets the condition in the state it is written in. -/
def AllMeet (encoding : Nat → HttpEncoding) (factory : ByteOrder) :
    List (Nat × HttpHeld) → HttpEncoders → Prop
  | [], _ => True
  | (encoder, msg) :: rest, this =>
      Meets (this.chunked encoder) this.lastChunk msg ∧
        AllMeet encoding factory rest (write encoding factory encoder msg this).2

def wantedAll : Bool → List HttpHeld → List (Option Text)
  | _, [] => []
  | chunked, msg :: rest => wanted chunked msg :: wantedAll (follows chunked msg) rest

section Runs

theorem of_cons_same {Value : Type} (encoder : Nat) (value : Value) (rest : List (Nat × Value)) :
    of encoder ((encoder, value) :: rest) = value :: of encoder rest := by
  unfold of
  rw [List.filterMap_cons, if_pos rfl]

theorem of_cons_other {Value : Type} {encoder other : Nat} (differs : other ≠ encoder)
    (value : Value) (rest : List (Nat × Value)) :
    of encoder ((other, value) :: rest) = of encoder rest := by
  unfold of
  rw [List.filterMap_cons, if_neg differs]

/-- A result is what was asked for. -/
def Gives (asked : Option Text) (result : Except Stop (Option CharArray)) : Prop :=
  ∀ bytes, asked = some bytes → result = .ok (some bytes)

theorem run_wanted (encoding : Nat → HttpEncoding) (factory : ByteOrder)
    {events : List (Nat × HttpHeld)} {this : HttpEncoders} (shared : Shared this)
    (proper : ∀ event ∈ events, Proper (encoding event.1) event.2)
    (meets : AllMeet encoding factory events this) (encoder : Nat) :
    List.Forall₂ Gives (wantedAll (this.chunked encoder) (of encoder events))
      (of encoder (run encoding factory events this)) := by
  induction events generalizing this with
  | nil => exact .nil
  | cons event rest ih =>
      obtain ⟨writer, msg⟩ := event
      obtain ⟨now, later⟩ := meets
      have here : Proper (encoding writer) msg := proper (writer, msg) List.mem_cons_self
      have flags : (write encoding factory writer msg this).2.chunked =
          Function.update this.chunked writer
            (leaves (encode (encoding writer) factory msg) (this.chunked writer)) :=
        write_chunked factory encoding
      rw [follows_leaves factory encoding now] at flags
      have behind := ih (write_shared factory encoding shared)
        (fun event among => proper event (List.mem_cons_of_mem _ among)) later
      rw [flags] at behind
      rw [run]
      by_cases same : writer = encoder
      · subst same
        rw [Function.update_self] at behind
        rw [of_cons_same, of_cons_same]
        exact .cons (fun bytes asked => write_wanted factory encoding shared here now asked) behind
      · rw [Function.update_of_ne (Ne.symm same)] at behind
        rw [of_cons_other same, of_cons_other same]
        exact behind

theorem wantedAll_append (chunked : Bool) (front back : List HttpHeld) :
    wantedAll chunked (front ++ back) =
      wantedAll chunked front ++ wantedAll (front.foldl follows chunked) back := by
  induction front generalizing chunked with
  | nil => rfl
  | cons msg rest ih =>
      rw [List.cons_append, wantedAll, wantedAll, ih]
      rfl

theorem wantedAll_length (chunked : Bool) (events : List HttpHeld) :
    (wantedAll chunked events).length = events.length := by
  induction events generalizing chunked with
  | nil => rfl
  | cons msg rest ih => rw [wantedAll, List.length_cons, ih, List.length_cons]

theorem wanted_chunk {msg : HttpHeld} {chunk : HttpChunk} (carries : msg.chunk = some chunk) :
    wanted true msg = some chunk.piece ∧ follows true msg = !chunk.isLast := by
  unfold wanted follows
  cases msg with
  | httpMessage message => cases carries
  | httpChunk inner =>
      cases carries
      exact ⟨rfl, rfl⟩
  | httpChunkTrailer header =>
      cases carries
      exact ⟨rfl, rfl⟩
  | other => cases carries

/-- The chunks of an open message and its end. -/
theorem wantedAll_chunks {chunks after : List HttpHeld} {last : HttpHeld}
    (contents : ∀ held ∈ chunks, ∃ chunk, held.chunk = some chunk ∧ chunk.isLast = false)
    (ends : ∃ chunk, last.chunk = some chunk ∧ chunk.isLast = true) :
    wantedAll true (chunks ++ last :: after) =
      (((chunks ++ [last]).filterMap HttpHeld.chunk).map fun chunk => some chunk.piece) ++
        wantedAll false after := by
  induction chunks with
  | nil =>
      obtain ⟨chunk, carries, final⟩ := ends
      obtain ⟨asked, closed⟩ := wanted_chunk carries
      rw [final] at closed
      rw [List.nil_append, List.nil_append, wantedAll, asked, closed]
      simp [carries]
  | cons held rest ih =>
      obtain ⟨chunk, carries, more⟩ := contents held List.mem_cons_self
      obtain ⟨asked, still⟩ := wanted_chunk carries
      rw [more] at still
      have behind := ih (fun held among => contents held (List.mem_cons_of_mem _ among))
      rw [List.cons_append, wantedAll, asked, still]
      simp only [Bool.not_false, behind, List.cons_append, List.filterMap_cons, carries, List.map_cons]

theorem filterMap_chunk_length {chunks : List HttpHeld}
    (contents : ∀ held ∈ chunks, ∃ chunk, held.chunk = some chunk) :
    (chunks.filterMap HttpHeld.chunk).length = chunks.length := by
  induction chunks with
  | nil => rfl
  | cons held rest ih =>
      obtain ⟨chunk, carries⟩ := contents held List.mem_cons_self
      rw [List.filterMap_cons, carries]
      exact congrArg Nat.succ (ih fun held among => contents held (List.mem_cons_of_mem _ among))

theorem gives_all {asked : List Text} {results : List (Except Stop (Option CharArray))}
    (gives : List.Forall₂ Gives (asked.map some) results) :
    results = asked.map fun bytes => .ok (some bytes) := by
  induction asked generalizing results with
  | nil =>
      cases gives
      rfl
  | cons bytes rest ih =>
      cases gives with
      | cons here later => rw [here bytes rfl, ih later, List.map_cons]

end Runs

/-- In a run whose events all meet the condition every chunked message is written as its head, its
chunks and the end of the chunks. -/
theorem chunked_messages_written (encoding : Nat → HttpEncoding) (factory : ByteOrder)
    (flags : Nat → Bool) (events : List (Nat × HttpHeld))
    (proper : ∀ event ∈ events, Proper (encoding event.1) event.2)
    (meets : AllMeet encoding factory events ⟨LAST_CHUNK, flags⟩) (encoder : Nat)
    (before chunks after : List HttpHeld) (message : HttpMessage) (last : HttpHeld)
    (chunked : message.isChunked = true)
    (contents : ∀ held ∈ chunks, ∃ chunk, held.chunk = some chunk ∧ chunk.isLast = false)
    (ends : ∃ chunk, last.chunk = some chunk ∧ chunk.isLast = true)
    (sequence : of encoder events =
      before ++ .httpMessage message :: (chunks ++ last :: after)) :
    ((of encoder (run encoding factory events ⟨LAST_CHUNK, flags⟩)).drop before.length).take
        (chunks.length + 2) =
      (message.head :: ((chunks ++ [last]).filterMap HttpHeld.chunk).map HttpChunk.piece).map
        fun bytes => .ok (some bytes) := by
  have gives := run_wanted encoding factory (Or.inl rfl) proper meets encoder
  have opened : wanted ((before.foldl follows (flags encoder))) (.httpMessage message) =
      some message.head ∧ follows (before.foldl follows (flags encoder)) (.httpMessage message) =
        true := by
    unfold wanted follows
    dsimp only
    rw [chunked, if_pos rfl]
    exact ⟨rfl, rfl⟩
  have asked : wantedAll (flags encoder) (of encoder events) =
      wantedAll (flags encoder) before ++
        ((message.head :: ((chunks ++ [last]).filterMap HttpHeld.chunk).map HttpChunk.piece).map some
          ++ wantedAll false after) := by
    rw [sequence, wantedAll_append, wantedAll, opened.1, opened.2, wantedAll_chunks contents ends,
      List.map_cons, List.map_map]
    rfl
  have count : ((message.head ::
      ((chunks ++ [last]).filterMap HttpHeld.chunk).map HttpChunk.piece).map some).length =
        chunks.length + 2 := by
    have all : ∀ held ∈ chunks ++ [last], ∃ chunk, held.chunk = some chunk := by
      intro held among
      rcases List.mem_append.mp among with inside | final
      · obtain ⟨chunk, carries, -⟩ := contents held inside
        exact ⟨chunk, carries⟩
      · obtain ⟨chunk, carries, -⟩ := ends
        rw [List.mem_singleton.mp final]
        exact ⟨chunk, carries⟩
    rw [List.length_map, List.length_cons, List.length_map, filterMap_chunk_length all,
      List.length_append, List.length_singleton]
  dsimp only at gives
  rw [asked] at gives
  apply gives_all
  have behind := List.forall₂_drop before.length gives
  rw [List.drop_left' (wantedAll_length _ _)] at behind
  have inside := List.forall₂_take (chunks.length + 2) behind
  rw [List.take_left' count] at inside
  exact inside

def answer : HttpMessage :=
  { HttpMessage.fresh .HTTP_1_1 (.response .NOT_FOUND) with
    header := DefaultHttpHeader.fresh.addHeader HttpHeaders.Names.TRANSFER_ENCODING
      HttpHeaders.Values.CHUNKED }

def hi : ChannelBuffer := .heap ⟨.big, text "hi", .full 2⟩

def once : List (Nat × HttpHeld) :=
  [(0, .httpMessage answer), (0, .httpChunk (.chunk hi)), (0, .httpChunk (.chunk .emptyBuffer))]

def twice : List (Nat × HttpHeld) :=
  [(0, .httpMessage answer), (0, .httpChunk (.chunk .emptyBuffer)), (0, .httpMessage answer),
    (0, .httpChunk (.chunk .emptyBuffer))]

theorem answer_proper : Proper .response (.httpMessage answer) :=
  fun _ => ⟨trivial, .emptyBuffer, rfl, rfl⟩

theorem emptyBuffer_proper : Proper .response (.httpChunk (.chunk .emptyBuffer)) :=
  ⟨.heap (by decide) ⟨by decide, by decide, by decide⟩, .heap⟩

theorem hi_built : hi.WellBuilt := .heap (by decide) ⟨by decide, by decide, by decide⟩

theorem chunked_message_written_once :
    ((of 0 (run (fun _ => .response) .big once ⟨LAST_CHUNK, fun _ => false⟩)).drop 0).take 3 =
      [answer.head, text "2\r\nhi\r\n", text "0\r\n\r\n"].map fun bytes => .ok (some bytes) := by
  have proper : ∀ event ∈ once, Proper .response event.2 := by
    intro event among
    simp only [once, List.mem_cons, List.not_mem_nil, or_false] at among
    rcases among with rfl | rfl | rfl
    · exact answer_proper
    · exact ⟨hi_built, .heap⟩
    · exact emptyBuffer_proper
  have gatherable : hi.Gatherable :=
    ChannelBuffer.gatherable_of_bared hi_built (by rw [hi, ChannelBuffer.bared]) rfl rfl
  have unwritten : (write (fun _ => .response) .big 0 (.httpChunk (.chunk hi))
      (write (fun _ => .response) .big 0 (.httpMessage answer)
        ⟨LAST_CHUNK, fun _ => false⟩).2).2.lastChunk.readable = true := by decide +kernel
  have head : ∀ flag, Meets flag LAST_CHUNK (.httpMessage answer) :=
    fun _ _ => ⟨by decide +kernel, by decide +kernel⟩
  have piece : ∀ flag lastChunk, Meets flag lastChunk (.httpChunk (.chunk hi)) :=
    fun _ _ _ => ⟨rfl, gatherable, by decide⟩
  have end_ : ∀ flag lastChunk, lastChunk.readable = true →
      Meets flag lastChunk (.httpChunk (.chunk .emptyBuffer)) := fun _ _ readable _ => readable
  have meets : AllMeet (fun _ => .response) .big once ⟨LAST_CHUNK, fun _ => false⟩ :=
    ⟨head _, piece _ _, end_ _ _ unwritten, trivial⟩
  exact chunked_messages_written (fun _ => .response) .big (fun _ => false) once proper meets 0 []
    [.httpChunk (.chunk hi)] [] answer (.httpChunk (.chunk .emptyBuffer))
    (by decide +kernel)
    (fun held among => ⟨.chunk hi, by rw [List.mem_singleton.mp among]; rfl, rfl⟩)
    ⟨.chunk .emptyBuffer, rfl, rfl⟩ rfl

/-- The second of two messages that end with a last chunk without headers has no end. -/
theorem last_chunk_lost :
    (∀ event ∈ twice, Proper .response event.2) ∧
      of 0 twice = [.httpMessage answer, .httpChunk (.chunk .emptyBuffer)] ++
        .httpMessage answer :: ([] ++ .httpChunk (.chunk .emptyBuffer) :: []) ∧
      ((of 0 (run (fun _ => .response) .big twice ⟨LAST_CHUNK, fun _ => false⟩)).drop 2).take 2 ≠
        [answer.head, text "0\r\n\r\n"].map fun bytes => .ok (some bytes) := by
  refine ⟨?_, rfl, by decide +kernel⟩
  intro event among
  simp only [twice, List.mem_cons, List.not_mem_nil, or_false] at among
  rcases among with rfl | rfl | rfl | rfl
  · exact answer_proper
  · exact emptyBuffer_proper
  · exact answer_proper
  · exact emptyBuffer_proper

end HttpEncoders

end Cetty
