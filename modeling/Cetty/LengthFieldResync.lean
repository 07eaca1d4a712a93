import Cetty.LengthFieldDelivery

/-!
# Resynchronisation after a frame that is too long

From a state that is not discarding, a stream that begins with a frame that is too
long is followed to its header and from there by the number of bytes still to be
discarded. The flag stays set behind the frame, so nothing may follow it.
-/

namespace Cetty

open MachineInt ByteWindow ChannelBuffer

namespace LengthFieldBasedFrameDecoder

variable {decoder : LengthFieldBasedFrameDecoder}

section Runs

variable {config : ChannelConfig} {fuel : Nat} {stream : List Byte}
  {handler next : Handler LengthFieldBasedFrameDecoder} {input : ChannelBuffer}

/-- The number of bytes to discard is never negative between two deliveries. -/
def NeverNegative (config : ChannelConfig) (fuel : Nat)
    (handler : Handler LengthFieldBasedFrameDecoder) (received : List ChannelBuffer) : Prop :=
  ∀ sofar rest, received = sofar ++ rest → ∀ reached,
    handler.receiveAll decode config fuel sofar = .ok reached →
    reached.decoder.fields.discardingTooLongFrame = true →
    0 ≤ reached.decoder.fields.bytesToDiscard

theorem neverNegative_nil (start : handler.decoder.fields.discardingTooLongFrame = true →
    0 ≤ handler.decoder.fields.bytesToDiscard) : NeverNegative config fuel handler [] := by
  intro sofar rest split_ reached ran flag
  have nothing : sofar = [] := (List.append_eq_nil_iff.mp split_.symm).1
  subst nothing
  cases ran
  exact start flag

theorem neverNegative_cons {rest : List ChannelBuffer}
    (start : handler.decoder.fields.discardingTooLongFrame = true →
      0 ≤ handler.decoder.fields.bytesToDiscard)
    (delivered : handler.messageReceived decode config fuel (.buffer input) = .ok next)
    (later : NeverNegative config fuel next rest) :
    NeverNegative config fuel handler (input :: rest) := by
  intro sofar tail split_ reached ran flag
  cases sofar with
  | nil =>
      cases ran
      exact start flag
  | cons first sofar =>
      rw [List.cons_append] at split_
      injection split_ with same others
      subst same
      rw [Handler.receiveAll_cons delivered] at ran
      exact later sofar tail others reached ran flag

variable {final : Handler LengthFieldBasedFrameDecoder} {left : Int}

theorem flatten_length_cons (input : ChannelBuffer) (rest : List ChannelBuffer) :
    ((input :: rest).map readableContent).flatten.length =
      input.readableContent.length + (rest.map readableContent).flatten.length := by
  rw [List.map_cons, List.flatten_cons, List.length_append]

theorem received_pos (received : Received config input) : 0 < input.readableContent.length :=
  List.length_pos_iff.mpr received.present

section

variable (own : config.channelOwnBuffer = false) (enough : 2 ≤ fuel)
  (received : List ChannelBuffer) (chunks : ∀ input ∈ received, Received config input)
  (discarding : Discarding config.bufferFactory left [] handler)

include own enough received chunks discarding

/-- Exactly the bytes that were left arrive: one report, at the last of them. -/
theorem discards_run
    (all : ((received.map readableContent).flatten.length : Int) = left) (positive : 0 < left)
    (small : left ≤ maxInt) :
    (∃ final exception, handler.receiveAll decode config fuel received = .ok final ∧
      exception.cls = .tooLongFrame ∧ final.fired = [.exceptionCaught exception] ∧
      final.decoder.unread = []) ∧ NeverNegative config fuel handler received := by
  induction received generalizing handler left with
  | nil =>
      rw [List.map_nil, List.flatten_nil, List.length_nil] at all
      omega
  | cons input rest ih =>
      rw [flatten_length_cons] at all
      have first := chunks input List.mem_cons_self
      have others : ∀ later ∈ rest, Received config later :=
        fun later member => chunks later (List.mem_cons_of_mem _ member)
      have start : handler.decoder.fields.discardingTooLongFrame = true →
          0 ≤ handler.decoder.fields.bytesToDiscard := by
        intro _
        rw [discarding.left]
        omega
      by_cases less : (input.readableContent.length : Int) < left
      · obtain ⟨next, delivered, discarding'⟩ := discard_less own enough discarding first less small
        have remaining : ((rest.map readableContent).flatten.length : Int) =
            left - input.readableContent.length := by omega
        obtain ⟨run, nonneg⟩ := ih others discarding' remaining (by omega) (by omega)
        refine ⟨?_, neverNegative_cons start delivered nonneg⟩
        rw [Handler.receiveAll_cons delivered]
        exact run
      · have last : (input.readableContent.length : Int) = left := by omega
        obtain ⟨next, exception, delivered, cls, discarding'⟩ :=
          discard_exact own enough discarding first last
        have done : rest = [] := by
          cases rest with
          | nil => rfl
          | cons second more =>
              have size := received_pos (others second List.mem_cons_self)
              rw [flatten_length_cons] at all
              omega
        subst done
        have finishes : next.decoder.fields.discardingTooLongFrame = true →
            0 ≤ next.decoder.fields.bytesToDiscard := by
          intro _
          exact Int.le_of_eq discarding'.left.symm
        refine ⟨⟨next, exception, ?_, cls, discarding'.fired, discarding'.unread⟩,
          neverNegative_cons start delivered (neverNegative_nil finishes)⟩
        rw [Handler.receiveAll_cons delivered]
        rfl

/-- A run that ends with one report and nothing unread received what was left. -/
theorem reports_once (nonneg : 0 ≤ left)
    (small : left ≤ maxInt)
    (ran : handler.receiveAll decode config fuel received = .ok final)
    (once : final.fired.length = 1) (drained : final.decoder.unread = []) :
    ((received.map readableContent).flatten.length : Int) = left ∧ 0 < left := by
  induction received generalizing handler left with
  | nil =>
      cases ran
      rw [discarding.fired] at once
      cases once
  | cons input rest ih =>
      have first := chunks input List.mem_cons_self
      have size := received_pos first
      have others : ∀ later ∈ rest, Received config later :=
        fun later member => chunks later (List.mem_cons_of_mem _ member)
      obtain ⟨next, delivered, ran'⟩ := Handler.receiveAll_step ran
      have front := (Handler.fired_stays decode_appends rest ran').length_le
      rw [flatten_length_cons]
      rcases Int.lt_trichotomy input.readableContent.length left with less | last | beyond
      · obtain ⟨next', delivered', discarding'⟩ :=
          discard_less own enough discarding first less small
        rw [delivered'] at delivered
        cases delivered
        have rest_of := ih others discarding' (by omega) (by omega) ran'
        omega
      · obtain ⟨next', exception, delivered', -, discarding'⟩ :=
          discard_exact own enough discarding first last
        rw [delivered'] at delivered
        cases delivered
        cases rest with
        | nil =>
            rw [List.map_nil, List.flatten_nil, List.length_nil]
            omega
        | cons second more =>
            exfalso
            obtain ⟨third, delivered'', ran''⟩ := Handler.receiveAll_step ran'
            obtain ⟨total, holding⟩ := discarding'.holding
            have again := zero_fires own (by omega) discarding'.flag discarding'.left holding
              (others second List.mem_cons_self) delivered''
            have front' := (Handler.fired_stays decode_appends more ran'').length_le
            rw [discarding'.fired] at again
            rw [List.nil_append, List.length_singleton] at again
            omega
      · exfalso
        have overrun := discard_beyond own enough discarding nonneg first beyond delivered
        cases rest with
        | nil =>
            cases ran'
            rcases overrun with two | ⟨-, kept, -⟩
            · omega
            · exact kept drained
        | cons second more =>
            obtain ⟨third, delivered'', ran''⟩ := Handler.receiveAll_step ran'
            have two := overrun_step own (by omega) overrun (others second List.mem_cons_self)
              delivered''
            have front' := (Handler.fired_stays decode_appends more ran'').length_le
            omega

end

/-- The bytes buffered when the header is complete for the first time. -/
def bufferedAt (needed : Int) : Nat → List ChannelBuffer → Nat
  | buffered, [] => buffered
  | buffered, input :: rest =>
      if needed ≤ ((buffered + input.readableContent.length : Nat) : Int) then
        buffered + input.readableContent.length
      else bufferedAt needed (buffered + input.readableContent.length) rest

def firstLength : List ChannelBuffer → Nat
  | [] => 0
  | input :: _ => input.readableContent.length

/-- The header is complete in the first buffer, or it is cumulated within 2^30 bytes. -/
def Room (needed : Int) (buffered : Nat) (received : List ChannelBuffer) : Prop :=
  (buffered = 0 ∧ needed ≤ firstLength received) ∨
    bufferedAt needed buffered received ≤ 1073741824

theorem bufferedAt_ge (needed : Int) (buffered : Nat) (received : List ChannelBuffer) :
    buffered ≤ bufferedAt needed buffered received := by
  induction received generalizing buffered with
  | nil => exact Nat.le_refl _
  | cons input rest ih =>
      unfold bufferedAt
      split
      · omega
      · exact Nat.le_trans (by omega) (ih _)

/-- With room the run reaches the header and starts to discard there. -/
theorem reaches_header (own : config.channelOwnBuffer = false) (enough : 2 ≤ fuel)
    (constructed : Constructed decoder) (received : List ChannelBuffer)
    (chunks : ∀ input ∈ received, Received config input)
    (waiting : Waiting config.bufferFactory decoder stream handler)
    (short : (stream.length : Int) < decoder.lengthFieldEndOffset)
    (complete : decoder.lengthFieldEndOffset ≤
      (stream ++ (received.map readableContent).flatten).length)
    (oversized : Oversized config.bufferFactory decoder
      (stream ++ (received.map readableContent).flatten))
    (room : Room decoder.lengthFieldEndOffset stream.length received) :
    ∃ front rest reached, received = front ++ rest ∧
      handler.receiveAll decode config fuel front = .ok reached ∧
      stream.length + (front.map readableContent).flatten.length =
        bufferedAt decoder.lengthFieldEndOffset stream.length received ∧
      Discarding config.bufferFactory
        (int32 (computedLength config.bufferFactory decoder
            (stream ++ (received.map readableContent).flatten) -
          bufferedAt decoder.lengthFieldEndOffset stream.length received)) [] reached ∧
      (NeverNegative config fuel reached rest → NeverNegative config fuel handler received) := by
  induction received generalizing stream handler with
  | nil =>
      rw [List.map_nil, List.flatten_nil, List.append_nil] at complete
      omega
  | cons input rest ih =>
      have first := chunks input List.mem_cons_self
      have others : ∀ later ∈ rest, Received config later :=
        fun later member => chunks later (List.mem_cons_of_mem _ member)
      have quiet : handler.decoder.fields.discardingTooLongFrame = true →
          0 ≤ handler.decoder.fields.bytesToDiscard := by
        intro flag
        rw [waiting.fields, constructed.normal] at flag
        cases flag
      rw [List.map_cons, List.flatten_cons, ← List.append_assoc] at complete oversized ⊢
      unfold bufferedAt
      by_cases arrived : decoder.lengthFieldEndOffset ≤ (stream ++ input.readableContent).length
      · have reached_count := arrived
        rw [List.length_append] at reached_count
        rw [if_pos reached_count]
        have fits : stream = [] ∨
            (stream ++ input.readableContent).length ≤ 1073741824 := by
          rcases room with ⟨nothing, -⟩ | small
          · exact Or.inl (List.length_eq_zero_iff.mp nothing)
          · unfold bufferedAt at small
            rw [if_pos reached_count] at small
            rw [List.length_append]
            exact Or.inr small
        have same := oversized_append constructed config.bufferFactory
          (rest.map readableContent).flatten arrived
        obtain ⟨next, delivered, discarding⟩ := enter_step own enough constructed waiting first
          fits arrived (same.1.mp oversized)
        rw [same.2, ← List.length_append]
        refine ⟨[input], rest, next, rfl, ?_, ?_, discarding, ?_⟩
        · rw [Handler.receiveAll_cons delivered]
          rfl
        · simp
        · exact neverNegative_cons quiet delivered
      · have pending := arrived
        rw [List.length_append] at pending
        rw [if_neg pending]
        have small : bufferedAt decoder.lengthFieldEndOffset
            (stream ++ input.readableContent).length rest ≤ 1073741824 := by
          rw [List.length_append]
          rcases room with ⟨nothing, whole⟩ | small
          · change decoder.lengthFieldEndOffset ≤ (input.readableContent.length : Int) at whole
            omega
          · unfold bufferedAt at small
            rwa [if_neg pending] at small
        have bounded := Nat.le_trans (bufferedAt_ge decoder.lengthFieldEndOffset
          (stream ++ input.readableContent).length rest) small
        have waits : ∀ buffer : ChannelBuffer, buffer.Sound →
            buffer.order = config.bufferFactory →
            buffer.readableContent = stream ++ input.readableContent →
            decode.run ⟨decoder, buffer, []⟩ = .ok .empty ⟨decoder, buffer, []⟩ := by
          intro buffer sound _ content
          apply decode_short constructed sound
          rw [content]
          omega
        have some_fuel : 0 < fuel := by omega
        obtain ⟨next, delivered, waiting'⟩ :=
          waiting_step own some_fuel waiting first bounded waits
        obtain ⟨front, tail, reached, split_, ran, count, discarding, nonneg⟩ :=
          ih others waiting' (by omega) complete oversized (Or.inr small)
        rw [← List.length_append]
        refine ⟨input :: front, tail, reached, ?_, ?_, ?_, discarding, ?_⟩
        · rw [split_, List.cons_append]
        · rw [Handler.receiveAll_cons delivered]
          exact ran
        · rw [flatten_length_cons, ← count, List.length_append]
          omega
        · intro later
          exact neverNegative_cons quiet delivered (nonneg later)

section

variable (own : config.channelOwnBuffer = false) (enough : 0 < fuel)
  (constructed : Constructed decoder) (received : List ChannelBuffer)
  (chunks : ∀ input ∈ received, Received config input)
  (waiting : Waiting config.bufferFactory decoder stream handler)

include own enough constructed received chunks waiting

/-- Without room for the header the first event is not the report. -/
theorem full_run (short : (stream.length : Int) < decoder.lengthFieldEndOffset)
    (complete : decoder.lengthFieldEndOffset ≤
      (stream ++ (received.map readableContent).flatten).length)
    (full : ¬Room decoder.lengthFieldEndOffset stream.length received)
    (ran : handler.receiveAll decode config fuel received = .ok final) : Foreign final.fired := by
  induction received generalizing stream handler with
  | nil =>
      rw [List.map_nil, List.flatten_nil, List.append_nil] at complete
      omega
  | cons input rest ih =>
      have first := chunks input List.mem_cons_self
      have size := received_pos first
      have others : ∀ later ∈ rest, Received config later :=
        fun later member => chunks later (List.mem_cons_of_mem _ member)
      obtain ⟨next, delivered, ran'⟩ := Handler.receiveAll_step ran
      have front := Handler.fired_stays decode_appends rest ran'
      rw [List.map_cons, List.flatten_cons, ← List.append_assoc] at complete
      have beyond : ¬bufferedAt decoder.lengthFieldEndOffset stream.length (input :: rest) ≤
          1073741824 := fun small => full (Or.inr small)
      unfold bufferedAt at beyond
      rw [← List.length_append] at beyond
      by_cases arrived : decoder.lengthFieldEndOffset ≤ (stream ++ input.readableContent).length
      · rw [if_pos arrived] at beyond
        have kept : stream ≠ [] := by
          intro nothing
          apply full
          left
          subst nothing
          exact ⟨rfl, arrived⟩
        exact (full_step own enough constructed waiting first (by omega) (Or.inl kept)
          delivered).stays front
      · rw [if_neg arrived] at beyond
        by_cases fits : (stream ++ input.readableContent).length ≤ 1073741824
        · have waits : ∀ buffer : ChannelBuffer, buffer.Sound →
              buffer.order = config.bufferFactory →
              buffer.readableContent = stream ++ input.readableContent →
              decode.run ⟨decoder, buffer, []⟩ = .ok .empty ⟨decoder, buffer, []⟩ := by
            intro buffer sound _ content
            apply decode_short constructed sound
            rw [content]
            omega
          obtain ⟨next', delivered', waiting'⟩ :=
            waiting_step own enough waiting first fits waits
          rw [delivered'] at delivered
          cases delivered
          apply ih others waiting' (by omega) complete _ ran'
          intro room
          rcases room with ⟨nothing, -⟩ | small
          · rw [List.length_append] at nothing
            omega
          · exact beyond small
        · exact (full_step own enough constructed waiting first (by omega)
            (Or.inr (by omega)) delivered).stays front

/-- A header that is not too long is never reported as such. -/
theorem harmless_run (harmless : ¬Oversized config.bufferFactory decoder
      (stream ++ (received.map readableContent).flatten))
    (ran : handler.receiveAll decode config fuel received = .ok final) :
    final.fired = [] ∨ Foreign final.fired := by
  induction received generalizing stream handler with
  | nil =>
      cases ran
      left
      exact waiting.fired
  | cons input rest ih =>
      have first := chunks input List.mem_cons_self
      have others : ∀ later ∈ rest, Received config later :=
        fun later member => chunks later (List.mem_cons_of_mem _ member)
      obtain ⟨next, delivered, ran'⟩ := Handler.receiveAll_step ran
      have front := Handler.fired_stays decode_appends rest ran'
      rw [List.map_cons, List.flatten_cons, ← List.append_assoc] at harmless
      have outcomes : ∀ buffer : ChannelBuffer, buffer.Sound →
          buffer.order = config.bufferFactory →
          buffer.readableContent = stream ++ input.readableContent →
          Harmless ⟨decoder, buffer, []⟩ := by
        intro buffer sound ordered content
        by_cases arrived : decoder.lengthFieldEndOffset ≤ buffer.readableContent.length
        · apply decode_harmless constructed sound arrived
          rw [ordered, content]
          rw [content] at arrived
          intro oversized
          exact harmless ((oversized_append constructed config.bufferFactory _ arrived).1.mpr
            oversized)
        · left
          exact decode_short constructed sound (by omega)
      rcases harmless_step own enough waiting first outcomes delivered with waiting' | foreign
      · exact ih others waiting' harmless ran'
      · right
        exact foreign.stays front

end

end Runs

/-- One report, then the frames behind the one that was too long, each without its
first bytes, and nothing kept; the count of bytes to discard is never negative. -/
def Resynchronises (handler : Handler LengthFieldBasedFrameDecoder) (config : ChannelConfig)
    (fuel : Nat) (received : List ChannelBuffer) (frames : List (List Byte)) : Prop :=
  (∃ final event events, handler.receiveAll decode config fuel received = .ok final ∧
    final.fired = event :: events ∧ Reports event ∧
    events.map UpstreamEvent.frameBytes = (frames.map fun frame =>
      some (frame.drop handler.decoder.fields.initialBytesToStrip.toNat)) ∧
    final.decoder.unread = []) ∧
  NeverNegative config fuel handler received

/-- Nothing follows the frame, its length is an `int`, and part of it arrives only
after its header has been read. -/
structure Fits (config : ChannelConfig) (decoder : LengthFieldBasedFrameDecoder)
    (longFrame : List Byte) (frames : List (List Byte)) (received : List ChannelBuffer) : Prop where
  alone : frames = []
  field : (lengthField config.bufferFactory decoder longFrame : Int) ≤ maxInt
  total : (longFrame.length : Int) ≤ maxInt
  ahead : bufferedAt decoder.lengthFieldEndOffset 0 received < longFrame.length
  room : Room decoder.lengthFieldEndOffset 0 received

/-- A decoder that is not discarding, and a stream that begins with a frame too long for it. -/
structure OverLong (config : ChannelConfig) (decoder : LengthFieldBasedFrameDecoder)
    (longFrame : List Byte) (frames : List (List Byte)) (received : List ChannelBuffer) : Prop where
  constructed : Constructed decoder
  own : config.channelOwnBuffer = false
  long : decoder.maxFrameLength < longFrame.length
  declared : declaredLength config.bufferFactory decoder longFrame = longFrame.length
  wellFormed : ∀ frame ∈ frames, WellFormed config.bufferFactory decoder frame
  chunks : ∀ input ∈ received, Received config input
  cut : (received.map readableContent).flatten = longFrame ++ frames.flatten

section Streams

variable {config : ChannelConfig} {fuel : Nat} {decoder : LengthFieldBasedFrameDecoder}
  {longFrame : List Byte} {frames : List (List Byte)} {received : List ChannelBuffer}

theorem waiting_fresh (decoder : LengthFieldBasedFrameDecoder) (factory : ByteOrder)
    (own unfold_ : Bool) :
    Waiting factory decoder [] (FrameDecoder.fresh own unfold_ decoder) := by
  refine ⟨rfl, rfl, rfl, ?_, Int.le_refl _⟩
  intro cumulation stored
  cases stored

section

variable (overLong : OverLong config decoder longFrame frames received)

include overLong

/-- What the header of the stream says is what the header of the frame says. -/
theorem OverLong.header :
    decoder.lengthFieldEndOffset ≤ ((received.map readableContent).flatten.length : Int) ∧
      (Oversized config.bufferFactory decoder (received.map readableContent).flatten ↔
        Oversized config.bufferFactory decoder longFrame) ∧
      computedLength config.bufferFactory decoder (received.map readableContent).flatten =
        int32 longFrame.length := by
  have ends := overLong.constructed.end_eq
  have long := overLong.long
  have same := oversized_append overLong.constructed config.bufferFactory frames.flatten
    (show decoder.lengthFieldEndOffset ≤ (longFrame.length : Int) by omega)
  rw [overLong.cut]
  refine ⟨?_, same.1, ?_⟩
  · rw [List.length_append]
    omega
  · rw [same.2, computedLength_eq, overLong.declared]

theorem resynchronises_of_fits (enough : 2 ≤ fuel) (own unfold_ : Bool)
    (fits : Fits config decoder longFrame frames received) :
    Resynchronises (FrameDecoder.fresh own unfold_ decoder) config fuel received frames := by
  obtain ⟨alone, field, total, ahead, room⟩ := fits
  subst alone
  have constructed := overLong.constructed
  have ends := constructed.end_eq
  have offset := constructed.offset
  have width := constructed.width
  have long := overLong.long
  obtain ⟨complete, header, computed⟩ := overLong.header
  have exact_length : int32 (longFrame.length : Int) = longFrame.length :=
    int32_of_nonneg (by omega) total
  have oversized : Oversized config.bufferFactory decoder longFrame := by
    constructor
    · unfold readLength
      rw [int32_of_nonneg (Int.natCast_nonneg _) field]
      exact Int.natCast_nonneg _
    · rw [computedLength_eq, overLong.declared, exact_length]
      exact long
  have size : (received.map readableContent).flatten.length = longFrame.length := by
    rw [overLong.cut, List.flatten_nil, List.append_nil]
  obtain ⟨front, rest, reached, split_, ran, count, discarding, nonneg⟩ :=
    reaches_header overLong.own enough constructed received overLong.chunks
      (waiting_fresh decoder config.bufferFactory own unfold_) (by rw [List.length_nil]; omega)
      (by rw [List.nil_append]; exact complete)
      (by rw [List.nil_append]; exact header.mpr oversized) room
  rw [List.nil_append, computed, exact_length] at discarding
  clear computed exact_length
  rw [List.length_nil] at discarding count
  rw [int32_of_nonneg (by omega) (by omega)] at discarding
  have left : ((rest.map readableContent).flatten.length : Int) =
      longFrame.length - bufferedAt decoder.lengthFieldEndOffset 0 received := by
    rw [split_, List.map_append, List.flatten_append, List.length_append] at size
    omega
  have later : ∀ input ∈ rest, Received config input := by
    intro input member
    apply overLong.chunks
    rw [split_]
    exact List.mem_append_right front member
  obtain ⟨⟨final, exception, ran', cls, fired, unread⟩, never⟩ :=
    discards_run overLong.own enough rest later discarding left (by omega) (by omega)
  refine ⟨⟨final, _, [], ?_, fired, ⟨exception, rfl, cls⟩, rfl, unread⟩, nonneg never⟩
  rw [split_, Handler.receiveAll_append rest ran]
  exact ran'

end

theorem bufferedAt_small (chunks : ∀ input ∈ received, Received config input)
    (room : Room decoder.lengthFieldEndOffset 0 received) :
    (bufferedAt decoder.lengthFieldEndOffset 0 received : Int) ≤ maxInt := by
  have limit : maxInt = 2147483647 := rfl
  rcases room with ⟨-, whole⟩ | small
  · cases received with
    | nil =>
        unfold bufferedAt
        omega
    | cons input rest =>
        have sound := (chunks input List.mem_cons_self).sound
        have size := sound.readable_length
        have start := sound.reader_nonneg
        have bound := sound.writer_le_maxInt
        change decoder.lengthFieldEndOffset ≤ (input.readableContent.length : Int) at whole
        unfold bufferedAt
        rw [Nat.zero_add, if_pos whole]
        omega
  · omega

/-- The bytes still to be discarded were counted without a turn of the register. -/
theorem exact_length_of_rest {total buffered rest : Int} (positive : 0 < int32 total)
    (started : 0 ≤ buffered) (small : buffered ≤ maxInt)
    (whole : buffered + rest = total) (left : rest = int32 (int32 total - buffered)) :
    total ≤ maxInt := by
  have bounds := int32_bounds total
  have limit : minInt = -2147483648 := rfl
  have top : maxInt = 2147483647 := rfl
  rw [int32_of_bounds (by omega) (by omega)] at left
  have same : total = int32 total := by omega
  rw [same]
  exact bounds.2

theorem field_of_total {order : ByteOrder} {bytes : List Byte}
    (constructed : Constructed decoder) (read : 0 ≤ readLength order decoder bytes)
    (total : declaredLength order decoder bytes ≤ maxInt) :
    (lengthField order decoder bytes : Int) ≤ maxInt := by
  have ends := constructed.end_eq
  have offset := constructed.offset
  have width := constructed.width
  have lower := constructed.adjustmentLower
  have limit : minInt = -2147483648 := rfl
  have top : maxInt = 2147483647 := rfl
  unfold declaredLength at total
  by_contra beyond
  unfold readLength at read
  rw [int32_of_overflow (by omega) (by omega)] at read
  omega

theorem fits_of_resynchronises (overLong : OverLong config decoder longFrame frames received)
    (enough : 2 ≤ fuel) (own unfold_ : Bool)
    (resynchronises :
      Resynchronises (FrameDecoder.fresh own unfold_ decoder) config fuel received frames) :
    Fits config decoder longFrame frames received := by
  obtain ⟨⟨final, event, events, ran, fired, reports, shown, unread⟩, never⟩ := resynchronises
  have constructed := overLong.constructed
  have positive := constructed.positive
  have ends := constructed.end_eq
  have offset := constructed.offset
  have width := constructed.width
  have some_fuel : 0 < fuel := by omega
  obtain ⟨complete, header, computed⟩ := overLong.header
  have waiting := waiting_fresh decoder config.bufferFactory own unfold_
  have begun : (([] : List Byte).length : Int) < decoder.lengthFieldEndOffset := by
    rw [List.length_nil]
    omega
  have not_foreign : ¬Foreign final.fired := by
    intro foreign
    obtain ⟨first, rest, same, other⟩ := foreign
    rw [fired] at same
    cases same
    exact other reports
  have stream_oversized : Oversized config.bufferFactory decoder
      (received.map readableContent).flatten := by
    by_contra harmless
    rcases harmless_run overLong.own some_fuel constructed received overLong.chunks waiting
      (by rw [List.nil_append]; exact harmless) ran with nothing | foreign
    · rw [fired] at nothing
      cases nothing
    · exact not_foreign foreign
  have oversized := header.mp stream_oversized
  have room : Room decoder.lengthFieldEndOffset 0 received := by
    by_contra full
    exact not_foreign (full_run overLong.own some_fuel constructed received overLong.chunks
      waiting begun (by rw [List.nil_append]; exact complete) full ran)
  obtain ⟨front, rest, reached, split_, ran', count, discarding, -⟩ :=
    reaches_header overLong.own enough constructed received overLong.chunks waiting begun
      (by rw [List.nil_append]; exact complete)
      (by rw [List.nil_append]; exact stream_oversized) room
  rw [List.nil_append, computed] at discarding
  rw [List.length_nil] at discarding count
  have later : ∀ input ∈ rest, Received config input := by
    intro input member
    apply overLong.chunks
    rw [split_]
    exact List.mem_append_right front member
  have tail : reached.receiveAll decode config fuel rest = .ok final := by
    rw [split_, Handler.receiveAll_append rest ran'] at ran
    exact ran
  have nonneg := never front rest split_ reached ran' discarding.flag
  rw [discarding.left] at nonneg
  have alone : frames = [] := by
    have silent : Silent reached.decoder.fields reached.fired := by
      refine ⟨discarding.flag, ?_⟩
      rw [discarding.fired]
      intro event member
      cases member
    have hidden := (Handler.receiveAll_keeps silent_kept (fun _ _ _ => silent_exception) rest
      silent tail).2
    apply no_frames_of_silent _ shown
    intro later member
    apply hidden
    rw [fired]
    exact List.mem_cons_of_mem _ member
  subst alone
  have nothing_else : events = [] := List.map_eq_nil_iff.mp shown
  have once : final.fired.length = 1 := by
    rw [fired, nothing_else]
    rfl
  have bounds := int32_bounds (int32 longFrame.length -
    bufferedAt decoder.lengthFieldEndOffset 0 received)
  obtain ⟨rest_length, something⟩ := reports_once overLong.own enough rest later discarding nonneg
    bounds.2 tail once unread
  have size : (received.map readableContent).flatten.length = longFrame.length := by
    rw [overLong.cut, List.flatten_nil, List.append_nil]
  rw [split_, List.map_append, List.flatten_append, List.length_append] at size
  have buffered := bufferedAt_small overLong.chunks room
  have computes : 0 < int32 (longFrame.length : Int) := by
    rw [← overLong.declared, ← computedLength_eq]
    exact Int.lt_trans positive oversized.2
  have whole : (bufferedAt decoder.lengthFieldEndOffset 0 received : Int) +
      (rest.map readableContent).flatten.length = longFrame.length := by
    rw [← count, ← size]
    omega
  have total := exact_length_of_rest computes (Int.natCast_nonneg _) buffered whole rest_length
  refine ⟨rfl, ?_, total, ?_, room⟩
  · exact field_of_total constructed oversized.1 (by rw [overLong.declared]; exact total)
  · rw [rest_length] at whole
    apply Int.ofNat_lt.mp
    rw [← whole]
    exact Int.lt_add_of_pos_right _ something

end Streams

/-- A decoder as a constructor leaves it, but with the flag cleared. -/
def cleared (made : LengthFieldBasedFrameDecoder) : LengthFieldBasedFrameDecoder :=
  { made with discardingTooLongFrame := false }

theorem constructed_of_make {maxFrameLength lengthFieldOffset lengthFieldLength lengthAdjustment
    initialBytesToStrip : Int} {memory : Uninitialised} {made : LengthFieldBasedFrameDecoder}
    (built : make maxFrameLength lengthFieldOffset lengthFieldLength lengthAdjustment
      initialBytesToStrip memory = .ok made)
    (maxFrame : maxFrameLength ≤ maxInt) (lower : minInt ≤ lengthAdjustment)
    (upper : lengthAdjustment ≤ maxInt) : Constructed (cleared made) := by
  obtain ⟨fields, checked⟩ := make_ok built
  have valid := validated_of_ok checked
  subst fields
  exact
    { positive := valid.positive
      offset := valid.offset
      strip := valid.strip
      width := valid.width
      reach := valid.reach
      maxFrame := maxFrame
      adjustmentLower := lower
      adjustmentUpper := upper
      endOffset := rfl
      normal := rfl }

/-- From a state that is not discarding, the stream is followed as documented
exactly when it is one frame whose last bytes arrive after its header. -/
theorem resynchronises_iff {maxFrameLength lengthFieldOffset lengthFieldLength lengthAdjustment
    initialBytesToStrip : Int} {memory : Uninitialised} {made : LengthFieldBasedFrameDecoder}
    (built : make maxFrameLength lengthFieldOffset lengthFieldLength lengthAdjustment
      initialBytesToStrip memory = .ok made)
    (maxFrame : maxFrameLength ≤ maxInt) (lower : minInt ≤ lengthAdjustment)
    (upper : lengthAdjustment ≤ maxInt)
    (config : ChannelConfig) (shared : config.channelOwnBuffer = false)
    (longFrame : List Byte) (frames : List (List Byte)) (long : made.maxFrameLength < longFrame.length)
    (declared : declaredLength config.bufferFactory (cleared made) longFrame = longFrame.length)
    (wellFormed : ∀ frame ∈ frames, WellFormed config.bufferFactory (cleared made) frame)
    (received : List ChannelBuffer) (chunks : ∀ input ∈ received, Received config input)
    (cut : (received.map readableContent).flatten = longFrame ++ frames.flatten)
    (own unfold_ : Bool) (fuel : Nat) (enough : 2 ≤ fuel) :
    Resynchronises (FrameDecoder.fresh own unfold_ (cleared made)) config fuel received frames ↔
      Fits config (cleared made) longFrame frames received := by
  have overLong : OverLong config (cleared made) longFrame frames received :=
    ⟨constructed_of_make built maxFrame lower upper, shared, long, declared, wellFormed, chunks,
      cut⟩
  constructor
  · intro resynchronises
    exact fits_of_resynchronises overLong enough own unfold_ resynchronises
  · intro fits
    exact resynchronises_of_fits overLong enough own unfold_ fits

/-- A heap buffer of the big-endian factory, all of it readable. -/
def chunk (bytes : List Byte) : ChannelBuffer :=
  .heap ⟨.big, bytes, ⟨0, bytes.length, 0, 0⟩⟩

theorem chunk_received {bytes : List Byte} (present : bytes ≠ [])
    (small : (bytes.length : Int) ≤ maxInt) : Received ⟨false, .big⟩ (chunk bytes) := by
  refine ⟨heap_sound small ⟨Int.le_refl _, Int.natCast_nonneg _, Int.le_refl _⟩, ?_, rfl⟩
  intro nothing
  apply present
  rw [← nothing]
  simp [chunk, readableContent, content, readerIdx, writerIdx, idx]

/-- A frame of seven bytes where five are allowed, in two pieces, and a frame of two. -/
theorem following_frame_lost :
    ∃ made, make 5 0 1 0 0 ⟨0, 0⟩ = .ok made ∧
      WellFormed .big (cleared made) [1, 7] ∧
      ¬Resynchronises (FrameDecoder.fresh false false (cleared made)) ⟨false, .big⟩ 2
        [chunk [6, 1, 2], chunk [3, 4, 5, 6], chunk [1, 7]] [[1, 7]] := by
  have built : make 5 0 1 0 0 ⟨0, 0⟩ = .ok (initialised 5 0 1 0 0 ⟨0, 0⟩) := rfl
  have short : WellFormed .big (cleared (initialised 5 0 1 0 0 ⟨0, 0⟩)) [1, 7] :=
    ⟨by decide, by decide, by decide, by decide⟩
  refine ⟨_, built, short, ?_⟩
  intro resynchronises
  have wellFormed : ∀ frame ∈ [[1, 7]],
      WellFormed .big (cleared (initialised 5 0 1 0 0 ⟨0, 0⟩)) frame := by
    intro frame member
    rw [List.mem_singleton.mp member]
    exact short
  have chunks : ∀ input ∈ [chunk [6, 1, 2], chunk [3, 4, 5, 6], chunk [1, 7]],
      Received ⟨false, .big⟩ input := by
    intro input member
    simp only [List.mem_cons, List.not_mem_nil, or_false] at member
    rcases member with rfl | rfl | rfl <;> exact chunk_received (by decide) (by decide)
  have overLong : OverLong ⟨false, .big⟩ (cleared (initialised 5 0 1 0 0 ⟨0, 0⟩))
      [6, 1, 2, 3, 4, 5, 6] [[1, 7]] [chunk [6, 1, 2], chunk [3, 4, 5, 6], chunk [1, 7]] :=
    ⟨constructed_of_make built (by decide) (by decide) (by decide), rfl, by decide, by decide,
      wellFormed, chunks, rfl⟩
  cases (fits_of_resynchronises overLong (Nat.le_refl _) false false resynchronises).alone

/-- The same frame alone. -/
theorem resynchronises_iff_alone :
    Resynchronises (FrameDecoder.fresh false false (cleared (initialised 5 0 1 0 0 ⟨0, 0⟩)))
      ⟨false, .big⟩ 2 [chunk [6, 1, 2], chunk [3, 4, 5, 6]] [] := by
  have built : make 5 0 1 0 0 ⟨0, 0⟩ = .ok (initialised 5 0 1 0 0 ⟨0, 0⟩) := rfl
  have chunks : ∀ input ∈ [chunk [6, 1, 2], chunk [3, 4, 5, 6]],
      Received ⟨false, .big⟩ input := by
    intro input member
    simp only [List.mem_cons, List.not_mem_nil, or_false] at member
    rcases member with rfl | rfl <;> exact chunk_received (by decide) (by decide)
  have none_follow : ∀ frame ∈ ([] : List (List Byte)),
      WellFormed .big (cleared (initialised 5 0 1 0 0 ⟨0, 0⟩)) frame := by
    intro frame member
    cases member
  apply (resynchronises_iff built (by decide) (by decide) (by decide) ⟨false, .big⟩ rfl
    [6, 1, 2, 3, 4, 5, 6] [] (by decide) (by decide) none_follow _ chunks rfl false false 2
    (Nat.le_refl _)).mpr
  exact ⟨rfl, by decide, by decide, by decide, Or.inr (by decide)⟩

end LengthFieldBasedFrameDecoder

end Cetty

