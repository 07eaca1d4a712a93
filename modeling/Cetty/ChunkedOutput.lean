import Cetty.GatheredBlocks
import Cetty.HttpMessageEncoder

/-!
# What the encoders put on the wire

Each buffer an encoder returns is turned into a write request at once, which moves the indices of
that buffer. Only the buffer of the last chunk is ever returned a second time.
-/

namespace Cetty

open CLocale MachineInt ByteWindow

section Writing

open ChannelBuffer

/-- The program writes these bytes to every queue that has room for them. -/
def Puts (program : BufferM Unit) (bytes : Text) : Prop :=
  ∀ ⦃endianness factory : ByteOrder⦄ ⦃buffer : ChannelBuffer⦄,
    buffer.IsQueue endianness factory → buffer.writerIdx + bytes.length ≤ 1073741824 →
    ∃ after, program.run buffer = .ok () after ∧ Appended endianness factory buffer bytes after

theorem Puts.nothing : Puts (pure ()) [] := by
  intro endianness factory buffer queue _
  exact ⟨buffer, rfl, .nothing queue⟩

theorem Puts.bind {first second : BufferM Unit} {front back : Text} (one : Puts first front)
    (other : Puts second back) : Puts (first >>= fun _ => second) (front ++ back) := by
  intro endianness factory buffer queue room
  rw [List.length_append] at room
  obtain ⟨middle, began, grown⟩ := one queue (by omega)
  obtain ⟨after, ended, finished⟩ := other grown.queue (by rw [grown.writer]; omega)
  refine ⟨after, ?_, grown.trans finished⟩
  rw [EStateM.run_bind, began]
  exact ended

namespace HttpMessageEncoder

theorem writeText_puts (characters : Text) : Puts (writeText characters) characters := by
  intro endianness factory buffer queue room
  have writer := queue.sound.inside.writer
  have reader := queue.sound.inside.reader
  have start : (0 : Int) ≤ buffer.writerIdx := Int.le_trans reader writer
  have small : (characters.length : Int) ≤ maxInt := by
    have limit : maxInt = 2147483647 := rfl
    omega
  unfold writeText
  rw [int32_of_nonneg (Int.natCast_nonneg _) small]
  apply BufferM.writeFrom_queue queue room
  intro dst dstIndex target dstSmall
  have copied : CharArray.copy dst dstIndex characters (0 : Nat) characters.length =
      .ok (overwrite dst dstIndex (window characters 0 characters.length)) :=
    CharArray.copy_of_inside (by omega) target small dstSmall
  rw [window_whole, Int.natCast_zero] at copied
  simp only [Getters.heap]
  exact copied

theorem writeByte_puts (c : BitVec 8) : Puts (writeByte c) [c] := by
  intro endianness factory buffer queue room
  obtain ⟨after, run, grown⟩ := BufferM.writeTyped_queue queue (.byte (c.setWidth 32)) room
  have same : (TypedValue.byte (c.setWidth 32)).bytes endianness = [c] := by
    apply TypedValue.bytes_of_number
    · rfl
    · have bound := c.isLt
      have number : endianness.number [c] = c.toNat := by
        cases endianness with
        | big => exact Nat.zero_add c.toNat
        | little => exact Nat.zero_add c.toNat
      rw [number, TypedValue.stored, BitVec.toNat_setWidth]
      omega
  rw [same] at grown
  exact ⟨after, run, grown⟩

theorem writeHeader_puts (header value : Text) :
    Puts (writeHeader header value) (encodeHeader header value) := by
  have whole : encodeHeader header value = header ++ ([HttpCodecUtil.COLON] ++
      ([HttpCodecUtil.SP] ++ (value ++ ([HttpCodecUtil.CR] ++ [HttpCodecUtil.LF])))) := rfl
  rw [whole]
  exact (writeText_puts header).bind ((writeByte_puts _).bind ((writeByte_puts _).bind
    ((writeText_puts value).bind ((writeByte_puts _).bind (writeByte_puts _)))))

theorem writeHeaders_puts (headers : List (Text × Text)) :
    Puts (writeHeaders headers) (encodeHeaders headers) := by
  induction headers with
  | nil => exact .nothing
  | cons header rest ih =>
      have whole : encodeHeaders (header :: rest) =
          encodeHeader header.1 header.2 ++ encodeHeaders rest := List.flatMap_cons
      rw [whole]
      exact (writeHeader_puts header.1 header.2).bind ih

end HttpMessageEncoder

end Writing

section Pieces

open HttpMessageEncoder

def CRLF : Text := [HttpCodecUtil.CR, HttpCodecUtil.LF]

namespace HttpMessage

def initialLine (message : HttpMessage) : Text :=
  match message.start with
  | .request method uri =>
      method.name ++ ([HttpCodecUtil.SP] ++ (uri ++ ([HttpCodecUtil.SP] ++
        (message.version.text ++ CRLF))))
  | .response status =>
      message.version.text ++ ([HttpCodecUtil.SP] ++ (DefaultHttpHeader.decimal status.code ++
        ([HttpCodecUtil.SP] ++ (status.reasonPhrase ++ CRLF))))

/-- The head of a message. -/
def head (message : HttpMessage) : Text :=
  message.initialLine ++ (encodeHeaders message.header.getAll ++ CRLF)

end HttpMessage

/-- A chunk in the chunked encoding: its length, a line break, its content and a line break, or
what ends the chunks. -/
def HttpChunk.piece : HttpChunk → Text
  | .chunk content =>
      if content.readable then
        Integer.appendHex content.readableBytes ++ (CRLF ++ (content.readableContent ++ CRLF))
      else text "0\r\n\r\n"
  | .trailer header => [48] ++ (CRLF ++ (encodeHeaders header.getAll ++ CRLF))

/-- The encoder is one for messages of this kind. -/
def HttpEncoding.fits (encoding : HttpEncoding) (message : HttpMessage) : Prop :=
  match encoding, message.start with
  | .request, .request _ _ => True
  | .response, .response _ => True
  | _, _ => False

theorem CRLF_puts : Puts (do
    writeByte HttpCodecUtil.CR
    writeByte HttpCodecUtil.LF) CRLF :=
  Puts.bind (writeByte_puts HttpCodecUtil.CR) (writeByte_puts HttpCodecUtil.LF)

section

variable {encoding : HttpEncoding} {message : HttpMessage} (fits : encoding.fits message)

include fits

theorem encodeInitialLine_puts : Puts (encodeInitialLine encoding message) message.initialLine := by
  unfold HttpEncoding.fits at fits
  unfold HttpMessage.initialLine encodeInitialLine
  cases encoding with
  | request =>
      dsimp only
      cases kind : message.start with
      | request method uri =>
          exact (writeText_puts method.name).bind ((writeByte_puts _).bind
            ((writeText_puts uri).bind ((writeByte_puts _).bind
              ((writeText_puts message.version.text).bind CRLF_puts))))
      | response status =>
          rw [kind] at fits
          exact fits.elim
  | response =>
      dsimp only
      cases kind : message.start with
      | request method uri =>
          rw [kind] at fits
          exact fits.elim
      | response status =>
          exact (writeText_puts message.version.text).bind ((writeByte_puts _).bind
            ((writeText_puts _).bind ((writeByte_puts _).bind
              ((writeText_puts status.reasonPhrase).bind CRLF_puts))))

theorem writeHead_puts : Puts (writeHead encoding message) message.head :=
  (encodeInitialLine_puts fits).bind ((writeHeaders_puts message.header.getAll).bind CRLF_puts)

end

theorem writeTrailer_puts (header : DefaultHttpHeader) :
    Puts (writeTrailer header) (HttpChunk.trailer header).piece := by
  have whole : (HttpChunk.trailer header).piece = [48] ++ ([HttpCodecUtil.CR] ++
      ([HttpCodecUtil.LF] ++ (encodeHeaders header.getAll ++ CRLF))) := rfl
  rw [whole]
  exact (writeByte_puts 48).bind ((writeByte_puts _).bind ((writeByte_puts _).bind
    ((writeHeaders_puts header.getAll).bind CRLF_puts)))

/-- What a fresh dynamic buffer reads as once a program has written to it. -/
theorem Puts.written {program : BufferM Unit} {bytes : Text} (puts : Puts program bytes)
    (some_ : bytes ≠ []) (size : (bytes.length : Int) ≤ 1073741824) (factory : ByteOrder)
    {estimated : Nat} (small : (estimated : Int) ≤ maxInt) :
    ∃ made filled request moved, makeDynamic factory factory estimated = .ok made ∧
      ChannelBuffers.writtenTo program made = .ok filled ∧
      AsioWriteRequest.make.run filled = .ok request moved ∧ request.bytes = bytes := by
  obtain ⟨made, began, queue, empty, start⟩ := makeDynamic_queue factory factory small
  obtain ⟨after, run, grown⟩ := puts queue (by omega)
  have shown : after.readableContent = bytes := by
    rw [grown.readable, empty, List.nil_append]
  have built : after.WellBuilt := by
    obtain ⟨heap, idx, rfl, queueing⟩ := grown.queue
    exact .dynamic queueing.ordered queueing.small queueing.inside
  have readable : after.readable = true := by
    obtain ⟨reader, count, -, counted, held, inside⟩ := built.readable
    have length : count = bytes.length := by rw [← shown, held, window_length inside]
    have positive : 0 < bytes.length := List.length_pos_of_ne_nil some_
    unfold ChannelBuffer.readable
    rw [counted]
    exact decide_eq_true (by omega)
  have bare : after.bared = true := by
    obtain ⟨heap, idx, rfl, -⟩ := grown.queue
    rw [ChannelBuffer.bared]
  obtain ⟨request, moved, sent, same⟩ := AsioWriteRequest.make_bared built bare readable
  refine ⟨made, after, request, moved, began, ?_, sent, same.trans shown⟩
  unfold ChannelBuffers.writtenTo
  rw [run]

open ChannelBuffer ChannelBuffers

/-- A small array becomes one component. -/
theorem array_part {bytes : Text} (some_ : bytes ≠ []) (small : (bytes.length : Int) ≤ maxInt) :
    ∃ part, (wrappedBuffer .big (some bytes)).order = .big ∧
      (wrappedBuffer .big (some bytes)).readable = true ∧
      wrapParts (wrappedBuffer .big (some bytes)) = .ok [part] ∧ Fresh .big part ∧
      part.content = bytes ∧ part.bared = true := by
  obtain ⟨fresh, shown⟩ : Fresh .big (wrappedBuffer .big (some bytes)) ∧
      (wrappedBuffer .big (some bytes)).content = bytes := wrappedBuffer_fresh some_ small
  have positive : 0 < bytes.length := List.length_pos_of_ne_nil some_
  have readable : (wrappedBuffer .big (some bytes)).readable = true := by
    unfold ChannelBuffer.readable
    rw [fresh.readableBytes, shown]
    exact decide_eq_true (show (0 : Int) < (bytes.length : Int) by omega)
  have kind : ∃ heap, wrappedBuffer .big (some bytes) = .heap heap := by
    unfold wrappedBuffer
    rw [if_neg (show ¬(cells (some bytes)).length = 0 from fun none => some_
      (List.eq_nil_of_length_eq_zero none))]
    exact ⟨_, rfl⟩
  obtain ⟨heap, same⟩ := kind
  have undisturbed : (wrappedBuffer .big (some bytes)).Undisturbed := by
    rw [same]
    exact .heap
  have bare : (wrappedBuffer .big (some bytes)).bared = true := by
    rw [same, bared]
  obtain ⟨parts, cut, news, held⟩ := fresh.built.parts undisturbed fresh.ordered readable
  obtain ⟨part, rfl, bared_⟩ := wrapParts_bared fresh.built bare fresh.reader readable cut
  refine ⟨part, fresh.ordered, readable, cut, news part List.mem_cons_self, ?_, bared_⟩
  rw [componentContent, componentContent, List.append_nil, fresh.readableContent, shown] at held
  exact held

theorem appendHex_some (value : Int) : Integer.appendHex value ≠ [] := by
  unfold Integer.appendHex
  exact fun none => Nat.toDigits_ne_nil (List.map_eq_nil_iff.mp none)

/-- A chunk is written as its length, its content and the line breaks. -/
theorem content_written {content : ChannelBuffer} (built : content.WellBuilt)
    (undisturbed : content.Undisturbed) (readable : content.readable = true)
    (ordered : content.order = .big) (gatherable : content.Gatherable)
    (small : ((HttpChunk.chunk content).piece.length : Int) ≤ maxInt) :
    ∃ buffer request moved, wrappedFourBuffers
        (copiedBuffer .big (some (Integer.appendHex content.readableBytes))) LINE_BREAK content
        LINE_BREAK = .ok buffer ∧
      AsioWriteRequest.make.run buffer = .ok request moved ∧
      request.bytes = (HttpChunk.chunk content).piece := by
  have whole : (HttpChunk.chunk content).piece = Integer.appendHex content.readableBytes ++
      (CRLF ++ (content.readableContent ++ CRLF)) := by
    unfold HttpChunk.piece
    dsimp only
    rw [if_pos readable]
  rw [whole] at small ⊢
  have sizes : (Integer.appendHex content.readableBytes).length +
      (2 + (content.readableContent.length + 2)) ≤ maxInt := by
    rw [List.length_append, List.length_append, List.length_append] at small
    exact small
  obtain ⟨hex, hexOrder, hexReadable, hexCut, hexFresh, hexShown, hexBare⟩ :=
    array_part (appendHex_some content.readableBytes) (by omega)
  obtain ⟨line, lineOrder, lineReadable, lineCut, lineFresh, lineShown, lineBare⟩ :=
    array_part (show CRLF ≠ [] by decide) (by decide)
  obtain ⟨parts, cut, news, held⟩ := built.parts undisturbed ordered readable
  obtain ⟨few, bare⟩ := gatherable parts cut
  have fresh : ∀ part ∈ hex :: line :: (parts ++ [line]), Fresh .big part := by
    intro part among
    simp only [List.mem_cons, List.mem_append, List.not_mem_nil, or_false] at among
    rcases among with rfl | rfl | inside | rfl
    · exact hexFresh
    · exact lineFresh
    · exact news part inside
    · exact lineFresh
  have bares : ∀ part ∈ hex :: line :: (parts ++ [line]), part.bared = true := by
    intro part among
    simp only [List.mem_cons, List.mem_append, List.not_mem_nil, or_false] at among
    rcases among with rfl | rfl | inside | rfl
    · exact hexBare
    · exact lineBare
    · exact bare part inside
    · exact lineBare
  have joined : componentContent (hex :: line :: (parts ++ [line])) =
      Integer.appendHex content.readableBytes ++ (CRLF ++ (content.readableContent ++ CRLF)) := by
    rw [componentContent, componentContent, componentContent_append, componentContent,
      componentContent, List.append_nil, hexShown, lineShown, held]
  obtain ⟨buffer, made, -, -⟩ := compositeBuffer_fresh fresh (List.cons_ne_nil _ _)
    (by rw [joined]; exact small)
  obtain ⟨indices, last, idx, rfl⟩ := compositeBuffer_shape made
  obtain ⟨request, moved, sent, same⟩ :=
    AsioWriteRequest.make_composite indices last idx fresh bares (by simp; omega)
  refine ⟨_, request, moved, ?_, sent, same.trans joined⟩
  have wrapped : wrapFrom [] [wrappedBuffer .big (some (Integer.appendHex content.readableBytes)),
      LINE_BREAK, content, LINE_BREAK] = .ok (hex :: line :: (parts ++ [line])) := by
    have run := wrapFrom_parts
      (.cons ⟨hexOrder, hexReadable, hexCut, by simpa using hexFresh⟩
        (.cons ⟨lineOrder, lineReadable, lineCut, by simpa using lineFresh⟩
          (.cons ⟨ordered, readable, cut, news⟩
            (.cons ⟨lineOrder, lineReadable, lineCut, by simpa using lineFresh⟩ .nil))))
      (fun other (none : other ∈ []) => by cases none)
    have lineBreak : LINE_BREAK = wrappedBuffer .big (some CRLF) := rfl
    rw [lineBreak, run]
    simp
  have filled : [wrappedBuffer .big (some (Integer.appendHex content.readableBytes)), LINE_BREAK,
      content, LINE_BREAK].filter ChannelBuffer.readable =
        [wrappedBuffer .big (some (Integer.appendHex content.readableBytes)), LINE_BREAK, content,
          LINE_BREAK] := by
    rw [List.filter_eq_self]
    intro buffer among
    simp only [List.mem_cons, List.not_mem_nil, or_false] at among
    rcases among with rfl | rfl | rfl | rfl
    · exact hexReadable
    · exact lineReadable
    · exact readable
    · exact lineReadable
  unfold wrappedFourBuffers
  rw [copiedBuffer_eq, filled]
  dsimp only
  unfold wrappedBuffers
  rw [wrapped, ok_bind]
  dsimp only
  rw [hexFresh.ordered]
  exact made

end Pieces

end Cetty
