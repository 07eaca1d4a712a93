import Cetty.HttpDesk
import Cetty.ReplayCalls

/-!
# The rounds of a decoder, written out

A delivery puts its bytes behind what the decoder has left, in the decoder's own buffer or in the one
of its channel, and runs the loop. The rounds of the loop are taken one at a time.
-/

namespace Cetty

open MachineInt ByteWindow

namespace HttpMessageDecoder

open ReplayingDecoder (checked conclude unfoldAndfireMessageReceived)

section Rounds

variable {subclass : ReplayingSubclass HttpMessageDecoder} {unfold_ : Bool} {fuel : Nat}
  {desk after : Desk} {frame : ChannelMessage}

theorem Desk.Fits.readable (fits : desk.Fits) :
    desk.buffer.readable = decide (desk.reader < desk.writer) := by
  unfold ChannelBuffer.readable
  rw [fits.readableBytes]
  exact decide_eq_decide.mpr (by omega)

/-- The desk of a round, whose checkpoint is where it begins. -/
def Desk.opened (desk : Desk) : Desk := { desk with checkedPoint := desk.reader }

theorem Desk.checked_context (desk : Desk) : checked desk.context = desk.opened.context := by
  have index : desk.context.replayable.buffer.readerIdx = desk.reader := desk.buffer_readerIdx
  unfold checked
  rw [index]
  rfl

theorem readable_of (fits : desk.Fits) (there : desk.reader < desk.writer) :
    desk.context.replayable.buffer.readable = true := by
  show desk.buffer.readable = true
  rw [fits.readable]
  exact decide_eq_true there

theorem unmoved_iff (desk after : Desk) :
    (after.context.replayable.buffer.readerIdx = desk.context.replayable.buffer.readerIdx ∧
      after.context.state = desk.context.state) ↔
      after.reader = desk.reader ∧ after.state = desk.state := by
  have now : after.context.replayable.buffer.readerIdx = after.reader := after.buffer_readerIdx
  have before : desk.context.replayable.buffer.readerIdx = desk.reader := desk.buffer_readerIdx
  rw [now, before, Int.natCast_inj]
  rfl

variable (subclass unfold_) in
theorem round_done (fits : desk.Fits) (drained : desk.reader = desk.writer) :
    (ReplayingDecoder.decodeRound subclass unfold_).run desk.context = .ok false desk.context := by
  apply ReplayingDecoder.decodeRound_unreadable
  show desk.buffer.readable = false
  rw [fits.readable]
  exact decide_eq_false (by omega)

theorem round_silent (fits : desk.Fits) (there : desk.reader < desk.writer)
    (decoded : (subclass.decode desk.state).run desk.opened.context = .ok .empty after.context)
    (calm : after.short = false)
    (moved : ¬(after.reader = desk.reader ∧ after.state = desk.state)) :
    (ReplayingDecoder.decodeRound subclass unfold_).run desk.context = .ok true after.context := by
  rw [← desk.checked_context] at decoded
  rw [ReplayingDecoder.decodeRound_readable (readable_of fits there) decoded, conclude,
    if_pos (show ChannelMessage.empty.isEmpty = true from rfl),
    if_neg (show ¬after.context.replayable.needMore = true from fun short =>
      Bool.false_ne_true (calm.symm.trans short)),
    if_neg (fun same => moved ((unmoved_iff desk after).mp same))]
  rfl

theorem round_fires (fits : desk.Fits) (there : desk.reader < desk.writer)
    (decoded : (subclass.decode desk.state).run desk.opened.context = .ok frame after.context)
    (shown : frame.isEmpty = false)
    (moved : ¬(after.reader = desk.reader ∧ after.state = desk.state)) :
    (ReplayingDecoder.decodeRound subclass unfold_).run desk.context =
      .ok true { after with fired := after.fired ++ unfolded unfold_ frame }.context := by
  rw [← desk.checked_context] at decoded
  exact ReplayingDecoder.decodeRound_fires (readable_of fits there) decoded shown
    fun same => moved ((unmoved_iff desk after).mp same)

theorem round_short {point : Nat} (fits : desk.Fits) (there : desk.reader < desk.writer)
    (decoded : (subclass.decode desk.state).run desk.opened.context = .ok .empty after.context)
    (short : after.short = true) (kept : after.checkedPoint = point) (inside : point ≤ after.writer) :
    (ReplayingDecoder.decodeRound subclass unfold_).run desk.context =
      .ok false { after with reader := point }.context := by
  rw [← desk.checked_context] at decoded
  have checkedPoint : after.context.checkedPoint = point := kept
  have returned : (BufferM.readerIndex after.context.checkedPoint).run
      after.context.replayable.buffer = .ok () { after with reader := point }.buffer := by
    rw [checkedPoint]
    exact after.readerIndex_run inside
  exact ReplayingDecoder.decodeRound_short (readable_of fits there) decoded short
    (by rw [checkedPoint]; exact Int.natCast_nonneg _) returned

variable (subclass unfold_ fuel) in
theorem callDecode_done (fits : desk.Fits) (drained : desk.reader = desk.writer) :
    (ReplayingDecoder.callDecode subclass unfold_ (fuel + 1)).run desk.context = .ok () desk.context :=
  ReplayingDecoder.callDecode_ends (round_done subclass unfold_ fits drained)

theorem callDecode_silent (fits : desk.Fits) (there : desk.reader < desk.writer)
    (decoded : (subclass.decode desk.state).run desk.opened.context = .ok .empty after.context)
    (calm : after.short = false)
    (moved : ¬(after.reader = desk.reader ∧ after.state = desk.state)) :
    (ReplayingDecoder.callDecode subclass unfold_ (fuel + 1)).run desk.context =
      (ReplayingDecoder.callDecode subclass unfold_ fuel).run after.context :=
  ReplayingDecoder.callDecode_goes_on (round_silent fits there decoded calm moved)

theorem callDecode_fires (fits : desk.Fits) (there : desk.reader < desk.writer)
    (decoded : (subclass.decode desk.state).run desk.opened.context = .ok frame after.context)
    (shown : frame.isEmpty = false)
    (moved : ¬(after.reader = desk.reader ∧ after.state = desk.state)) :
    (ReplayingDecoder.callDecode subclass unfold_ (fuel + 1)).run desk.context =
      (ReplayingDecoder.callDecode subclass unfold_ fuel).run
        { after with fired := after.fired ++ unfolded unfold_ frame }.context :=
  ReplayingDecoder.callDecode_goes_on (round_fires fits there decoded shown moved)

theorem callDecode_short {point : Nat} (fits : desk.Fits) (there : desk.reader < desk.writer)
    (decoded : (subclass.decode desk.state).run desk.opened.context = .ok .empty after.context)
    (short : after.short = true) (kept : after.checkedPoint = point) (inside : point ≤ after.writer) :
    (ReplayingDecoder.callDecode subclass unfold_ (fuel + 1)).run desk.context =
      .ok () { after with reader := point }.context :=
  ReplayingDecoder.callDecode_ends (round_short fits there decoded short kept inside)

end Rounds

section Arrivals

variable {subclass : ReplayingSubclass HttpMessageDecoder} {config : ChannelConfig} {fuel : Nat}
  {decoder : ReplayingDecoder HttpMessageDecoder} {sent : List Upward} {input : ChannelBuffer}

/-- A desk in a buffer that the decoder has made. -/
def Desk.Grown (factory : ByteOrder) (desk : Desk) : Prop :=
  (∃ heapIdx, desk.shell = .dynamic factory factory factory heapIdx) ∧
    ∃ exponent, exponent ≤ 30 ∧ desk.cells.length = 2 ^ exponent

variable {desk : Desk} {same : Bool}

theorem Desk.Fits.isDynamic {factory : ByteOrder} (fits : desk.Fits)
    (grown : desk.Grown factory) : desk.buffer.IsDynamic factory := by
  obtain ⟨⟨heapIdx, shell⟩, power⟩ := grown
  refine ⟨⟨factory, desk.cells, heapIdx⟩,
    ⟨desk.reader, desk.writer, desk.markedReaderIndex, desk.markedWriterIndex⟩, ?_, power, rfl, ?_⟩
  · unfold Desk.buffer
    rw [shell]
    rfl
  · exact ⟨Int.natCast_nonneg _, Int.ofNat_le.mpr fits.order, Int.ofNat_le.mpr fits.bound⟩

/-- The context of a decoder whose buffer is of the decoder's own making. -/
theorem Desk.of_dynamic {factory : ByteOrder} {buffer : ChannelBuffer}
    (growing : buffer.IsDynamic factory) (fields : HttpMessageDecoder) (state checkedPoint : Int)
    (cumulated short ended : Bool) (fired : List UpstreamEvent) :
    ∃ desk : Desk, desk.Fits ∧ desk.Grown factory ∧ desk.buffer = buffer ∧
      desk.context = ⟨fields, state, checkedPoint, cumulated, ⟨short, ended, buffer⟩, fired⟩ := by
  obtain ⟨heap, idx, rfl, shape⟩ := growing
  have small := shape.limit
  obtain ⟨order, cells, heapIdx⟩ := heap
  obtain ⟨reader, writer, markedReader, markedWriter⟩ := idx
  have same : order = factory := shape.ordered
  subst same
  have lower : 0 ≤ reader := shape.inside.reader
  have middle : reader ≤ writer := shape.inside.writer
  have upper : writer ≤ cells.length := shape.inside.bound
  obtain ⟨reader, rfl⟩ := Int.eq_ofNat_of_zero_le lower
  obtain ⟨writer, rfl⟩ := Int.eq_ofNat_of_zero_le (Int.le_trans lower middle)
  refine ⟨⟨fields, state, checkedPoint, cumulated, short, ended, .dynamic order order order heapIdx,
    cells, reader, writer, markedReader, markedWriter, fired⟩, ⟨rfl, ?_, ?_, ?_⟩, ?_, rfl, rfl⟩
  · exact Nat.le_trans small (by decide)
  · exact Int.ofNat_le.mp middle
  · exact Int.ofNat_le.mp upper
  · exact ⟨⟨heapIdx, rfl⟩, shape.power⟩

/-- What arrives with the next bytes of a stream: a buffer of their own, or the channel's buffer with
the bytes behind what the decoder has left of it. The channel's buffer is not written to beyond as
many bytes as have been received. -/
def Arrives (config : ChannelConfig) (decoder : ReplayingDecoder HttpMessageDecoder)
    (received : Nat) (piece : List Byte) (input : ChannelBuffer) (same : Bool) : Prop :=
  if config.channelOwnBuffer then
    input.Direct ∧ input.WellBuilt ∧ input.readableContent = decoder.unread ++ piece ∧
      input.writerIdx ≤ received ∧ (same = true ∨ decoder.cumulation = none)
  else input.Sound ∧ input.readableContent = piece ∧ same = false

/-- A decoder that has not been closed. -/
structure Open (config : ChannelConfig) (decoder : ReplayingDecoder HttpMessageDecoder) : Prop where
  grown : config.channelOwnBuffer = false → decoder.Cumulates config.bufferFactory
  running : decoder.closed = false

/-- The decoder behind a run of the loop. -/
def Desk.left (desk : Desk) (config : ChannelConfig) (unfold_ : Bool) :
    ReplayingDecoder HttpMessageDecoder where
  channelOwnBuffer := config.channelOwnBuffer
  unfold_ := unfold_
  state := desk.state
  checkedPoint := desk.checkedPoint
  cumulation := some ⟨desk.short, desk.ended, desk.buffer⟩
  fields := desk.fields

/-- The desk on which the loop begins to run. -/
structure Laid (config : ChannelConfig) (decoder : ReplayingDecoder HttpMessageDecoder)
    (received : Nat) (piece : List Byte) (desk : Desk) : Prop where
  fits : desk.Fits
  unread : desk.unread = decoder.unread ++ piece
  fields : desk.fields = decoder.fields
  state : desk.state = decoder.state
  cumulated : desk.cumulated = true
  running : desk.ended = false
  fired : desk.fired = []
  bound : desk.writer ≤ received
  grown : config.channelOwnBuffer = false → desk.Grown config.bufferFactory

theorem getCumulation_own (own : config.channelOwnBuffer = true)
    (input : ChannelBuffer) (known : same = true ∨ decoder.cumulation = none) :
    ∃ needMore, (ReplayingDecoder.getCumulation config input same).run ⟨decoder, []⟩ =
      .ok () ⟨{ decoder with
        channelOwnBuffer := true
        cumulation := some ⟨needMore, decoder.closed, input⟩ }, []⟩ := by
  cases stored : decoder.cumulation with
  | none =>
      refine ⟨false, ?_⟩
      unfold ReplayingDecoder.getCumulation ReplayingDecoder.closed
      rw [EStateM.run_bind, EStateM.run_modify]
      dsimp only
      rw [run_bind_get]
      simp only [stored, own]
      rfl
  | some replayable =>
      have here : same = true := by
        rcases known with here | none
        · exact here
        · rw [stored] at none
          cases none
      refine ⟨replayable.needMore, ?_⟩
      unfold ReplayingDecoder.getCumulation ReplayingDecoder.closed
      rw [EStateM.run_bind, EStateM.run_modify]
      dsimp only
      rw [run_bind_get]
      simp only [stored, own, here]
      rfl

theorem onCumulation_run {reception : ReplayReception HttpMessageDecoder}
    {program : Decode Unit} {context : ReplayContext HttpMessageDecoder}
    (ran : program.run (reception.decoder.context true
      (reception.decoder.cumulation.getD (.make .emptyBuffer)) reception.fired) = .ok () context) :
    (ReplayingDecoder.onCumulation program).run reception = .ok ()
      { decoder := { reception.decoder with
          fields := context.fields
          state := context.state
          checkedPoint := context.checkedPoint
          cumulation := some context.replayable }
        fired := context.fired } :=
  run_focus_ok ran

section

variable {same : Bool} {reception : ReplayReception HttpMessageDecoder}

theorem receiveMessage_run {sender : Sender (ReplayingDecoder HttpMessageDecoder)}
    (ran : (ReplayingDecoder.receiveBuffer subclass config fuel input same).run
      ⟨sender.decoder, []⟩ = .ok () reception) :
    (ReplayingDecoder.receiveMessage subclass config fuel (.buffer input) same).run sender =
      .ok () ⟨reception.decoder, sender.sent ++ reception.fired.map .event⟩ :=
  run_focus_ok ran

theorem deliver_message
    (ran : (ReplayingDecoder.receiveBuffer subclass config fuel input same).run ⟨decoder, []⟩ =
      .ok () reception) :
    ReplayingDecoder.deliver subclass config fuel ⟨decoder, sent⟩ (.message (.buffer input) same) =
      .ok ⟨reception.decoder, sent ++ reception.fired.map .event⟩ := by
  unfold ReplayingDecoder.deliver Sender.handled
  dsimp only
  rw [receiveMessage_run ran]

end

/-- A delivery whose buffer is in the cumulation is a run of the loop. -/
theorem deliver_of_run {needMore : Bool} {buffer : ChannelBuffer} {after : Desk}
    (readable : input.readable = true)
    (got : (ReplayingDecoder.getCumulation config input same).run ⟨decoder, []⟩ =
      .ok () ⟨{ decoder with
        channelOwnBuffer := config.channelOwnBuffer
        cumulation := some ⟨needMore, false, buffer⟩ }, []⟩)
    (laid : desk.context = ⟨decoder.fields, decoder.state, decoder.checkedPoint, true,
      ⟨needMore, false, buffer⟩, []⟩)
    (ran : (ReplayingDecoder.callDecode subclass decoder.unfold_ fuel).run desk.context =
      .ok () after.context) :
    ReplayingDecoder.deliver subclass config fuel ⟨decoder, sent⟩ (.message (.buffer input) same) =
      .ok ⟨after.left config decoder.unfold_, sent ++ after.fired.map .event⟩ := by
  rw [laid] at ran
  let fetched : ReplayReception HttpMessageDecoder := ⟨{ decoder with
    channelOwnBuffer := config.channelOwnBuffer
    cumulation := some ⟨needMore, false, buffer⟩ }, []⟩
  have looped : (ReplayingDecoder.onCumulation
      (ReplayingDecoder.callDecode subclass decoder.unfold_ fuel)).run fetched =
      .ok () ⟨after.left config decoder.unfold_, after.fired⟩ :=
    @onCumulation_run fetched _ after.context ran
  have received : (ReplayingDecoder.receiveBuffer subclass config fuel input same).run
      ⟨decoder, []⟩ = .ok () ⟨after.left config decoder.unfold_, after.fired⟩ := by
    unfold ReplayingDecoder.receiveBuffer
    rw [if_pos readable, run_bind_ok _ got, run_bind_get]
    exact looped
  exact deliver_message received

section

variable {received : Nat} {piece : List Byte} {same : Bool} (opened : Open config decoder)
  (arrives : Arrives config decoder received piece input same) (readable : input.readable = true)
  (room : decoder.unread.length + piece.length ≤ received)

include opened arrives readable room

/-- What has been left and what has arrived is in the cumulation when the loop begins. -/
theorem arrival_laid (limit : config.channelOwnBuffer = false →
      decoder.unread.length + piece.length ≤ 1073741824) :
    ∃ desk needMore buffer, Laid config decoder received piece desk ∧
      (ReplayingDecoder.getCumulation config input same).run ⟨decoder, []⟩ =
        .ok () ⟨{ decoder with
          channelOwnBuffer := config.channelOwnBuffer
          cumulation := some ⟨needMore, false, buffer⟩ }, []⟩ ∧
      desk.context = ⟨decoder.fields, decoder.state, decoder.checkedPoint, true,
        ⟨needMore, false, buffer⟩, []⟩ := by
  unfold Arrives at arrives
  cases own : config.channelOwnBuffer with
  | true =>
      rw [if_pos own] at arrives
      obtain ⟨direct, built, content, bound, known⟩ := arrives
      obtain ⟨needMore, got⟩ := getCumulation_own own input known
      rw [opened.running] at got
      have present : input.readableContent ≠ [] := by
        obtain ⟨reader, count, -, amount, shown, inside⟩ := built.readable
        have positive : 0 < input.readableBytes := of_decide_eq_true readable
        rw [shown]
        apply List.length_pos_iff.mp
        rw [window_length inside]
        omega
      obtain ⟨desk, fits, whole, laid⟩ := Desk.of_direct direct built present decoder.fields
        decoder.state decoder.checkedPoint true needMore false []
      have parts := ReplayContext.mk.inj laid
      refine ⟨desk, needMore, input, ⟨fits, ?_, parts.1, parts.2.1, parts.2.2.2.1, ?_,
        parts.2.2.2.2.2, ?_, ?_⟩, got, laid⟩
      · rw [← desk.readableContent_eq, whole, content]
      · exact (ReplayingDecoderBuffer.mk.inj parts.2.2.2.2.1).2.1
      · have writer := desk.buffer_writerIdx
        rw [whole] at writer
        omega
      · intro dynamic
        rw [own] at dynamic
        cases dynamic
  | false =>
      rw [own, if_neg Bool.false_ne_true] at arrives
      obtain ⟨sound, content, rfl⟩ := arrives
      have present := sound.readable_iff.mp readable
      obtain ⟨replayable, growing, shown, reader, ended, got⟩ :=
        @ReplayingDecoder.getCumulation_run HttpMessageDecoder config ⟨decoder, []⟩ input own
          (opened.grown own) sound present (by rw [content]; exact limit own)
      obtain ⟨needMore, terminated, buffer⟩ := replayable
      have running : terminated = false := ended.trans opened.running
      subst running
      obtain ⟨desk, fits, grown, whole, laid⟩ := Desk.of_dynamic growing decoder.fields
        decoder.state decoder.checkedPoint true needMore false []
      have parts := ReplayContext.mk.inj laid
      have unread : desk.unread = decoder.unread ++ piece := by
        rw [← desk.readableContent_eq, whole, shown, content]
      refine ⟨desk, needMore, buffer, ⟨fits, unread, parts.1, parts.2.1, parts.2.2.2.1, ?_,
        parts.2.2.2.2.2, ?_, fun _ => grown⟩, got, laid⟩
      · exact (ReplayingDecoderBuffer.mk.inj parts.2.2.2.2.1).2.1
      · have index := desk.buffer_readerIdx
        have front : buffer.readerIdx = 0 := reader
        have counted := fits.unread_length
        rw [unread, List.length_append] at counted
        rw [whole, front] at index
        omega

/-- The loop runs on what has been left and what has arrived. -/
theorem delivery_loops (limit : received ≤ 1073741824) :
    ∃ desk, Laid config decoder received piece desk ∧ ∀ after : Desk,
      (ReplayingDecoder.callDecode subclass decoder.unfold_ fuel).run desk.context =
        .ok () after.context →
      ReplayingDecoder.deliver subclass config fuel ⟨decoder, sent⟩ (.message (.buffer input) same) =
        .ok ⟨after.left config decoder.unfold_, sent ++ after.fired.map .event⟩ := by
  obtain ⟨desk, needMore, buffer, laid, got, context⟩ :=
    arrival_laid opened arrives readable room fun _ => Nat.le_trans room limit
  exact ⟨desk, laid, fun after ran => deliver_of_run readable got context ran⟩

end

/-- A buffer that shows nothing is passed over. -/
theorem delivery_of_nothing (blank : input.readable = false) :
    ReplayingDecoder.deliver subclass config fuel ⟨decoder, sent⟩ (.message (.buffer input) same) =
      .ok ⟨decoder, sent⟩ := by
  have received : (ReplayingDecoder.receiveBuffer subclass config fuel input same).run
      ⟨decoder, []⟩ = .ok () ⟨decoder, []⟩ := by
    unfold ReplayingDecoder.receiveBuffer
    rw [blank, if_neg Bool.false_ne_true]
    rfl
  rw [deliver_message received, List.map_nil, List.append_nil]

/-- What the loop leaves is open again. -/
theorem Desk.open_left {unfold_ : Bool} (fits : desk.Fits)
    (running : desk.ended = false)
    (grown : config.channelOwnBuffer = false → desk.Grown config.bufferFactory) :
    Open config (desk.left config unfold_) where
  grown := by
    intro dynamic replayable same
    cases same
    exact fits.isDynamic (grown dynamic)
  running := running

theorem Desk.left_unread (desk : Desk) (config : ChannelConfig) (unfold_ : Bool) :
    (desk.left config unfold_).unread = desk.unread := desk.readableContent_eq

end Arrivals

end HttpMessageDecoder

end Cetty
