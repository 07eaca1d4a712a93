import Cetty.HeaderLimits

/-!
# Headers that are limited

A section that has not come whole is read again from its beginning, which does no harm as long as no
line of it has been terminated. So the limit holds of a section that comes in any buffers, when the end
of its first line and its own end come in one of them.
-/

namespace Cetty

open CLocale MachineInt ByteWindow

namespace HttpMessageDecoder

open ReplayingDecoder (Reaches loopContext)

/-- The loop is in front of a header section. -/
structure InHeading (config : ChannelConfig) (message : HttpMessage) (desk : Desk) : Prop where
  fits : desk.Fits
  running : desk.ended = false
  cumulated : desk.cumulated = true
  grown : config.channelOwnBuffer = false → desk.Grown config.bufferFactory
  state : desk.state = READ_HEADER
  pointed : desk.fields.message = true
  made : desk.fields.object = some message
  cleared : desk.fields.headerSize = 0

section Rounds

variable {limits : HttpLimits} {httpSubclass : HttpSubclass} {config : ChannelConfig}
  {message : HttpMessage} {desk : Desk} {decoder : ReplayingDecoder HttpMessageDecoder}
  {sent : List Upward} {inputs : List (ChannelBuffer × Bool)} {heading : HeaderSection}
  {beyond : List Byte}

theorem decodes_header (limits : HttpLimits) (httpSubclass : HttpSubclass)
    (state : desk.state = READ_HEADER) :
    (replaying limits httpSubclass).decode desk.state = headerState limits httpSubclass := by
  rw [state]
  rfl

theorem heading_present (heading : HeaderSection) : heading.bytes ≠ [] := by
  unfold HeaderSection.bytes
  intro none
  have fewer := length_le_fed (heading.lines ++ [heading.last])
  rw [none, List.length_append, List.length_singleton, List.length_nil] at fewer
  omega

/-- A section that has come whole. -/
theorem InHeading.whole (within : InHeading config message desk)
    (unread : desk.unread = heading.bytes ++ beyond) :
    Raises limits httpSubclass config (.looping decoder desk.context sent) inputs ↔
      heading.Overruns limits.maxHeaderSize := by
  have fits := within.fits
  have opened := fits.opened
  have length := fits.unread_length
  have present := List.length_pos_iff.mpr (heading_present heading)
  rw [unread, List.length_append] at length
  have there : desk.reader < desk.writer := by omega
  have readable := readable_of fits there
  have read := @readHeaders_section limits desk.opened message opened within.pointed within.made
  have sizes : headersSection limits message desk.opened.fields.headerSize desk.opened.unread =
      headersSection limits message 0 (heading.bytes ++ beyond) := by
    rw [← unread, ← within.cleared]
    rfl
  have decides := @HeaderSection.decides limits heading message beyond
  rw [sizes] at read
  have state : desk.context.state = READ_HEADER := within.state
  have decode : (replaying limits httpSubclass).decode desk.context.state =
      headerState limits httpSubclass := decodes_header limits httpSubclass within.state
  generalize headersSection limits message 0 (heading.bytes ++ beyond) = how at read decides
  generalize ran : (readHeaders limits).run desk.opened.context = result at read
  cases read with
  | short context => exact decides.elim
  | full context => exact decides.elim
  | stopped stop context =>
      have stops := @headerState_stops limits httpSubclass _ _ stop ran
      rw [← desk.checked_context, ← decode] at stops
      have round : (ReplayingDecoder.decodeRound (replaying limits httpSubclass)
          decoder.unfold_).run desk.context = .error stop context :=
        ReplayingDecoder.decodeRound_stops readable stops
      exact (raises_stopped state round).trans decides
  | done changed counted cells headerSize same =>
      obtain ⟨placed, next, behind⟩ :=
        @headerState_ok limits httpSubclass _ _ _ (nextState_elsewhere changed) ran
      have away : Elsewhere placed := by
        unfold Elsewhere
        rw [next]
        exact nextState_elsewhere changed
      have tail := @Beside.headersRead limits httpSubclass (nextState changed)
      rw [← desk.checked_context, ← decode] at behind
      obtain ⟨stops, leaves⟩ := @round_leaves desk.context decoder.unfold_
        (replaying limits httpSubclass) readable
        (fun stop middle failed => tail.stops _ _ _ (behind.symm.trans failed))
        (fun frame middle called => tail.keeps.after_ok away (behind.symm.trans called))
      apply iff_of_false _ decides
      cases round : (ReplayingDecoder.decodeRound (replaying limits httpSubclass)
          decoder.unfold_).run desk.context with
      | error stop after =>
          rw [raises_stopped state round]
          rw [show stop.isTooLong = false from stops stop after round]
          exact Bool.false_ne_true
      | ok goesOn after =>
          rw [raises_round state round]
          intro raises
          apply leaves goesOn after round
          cases goesOn with
          | true => exact raises.heading
          | false => exact raises.heading

/-- A line that has not come whole, and is too large already. -/
theorem InHeading.large (within : InHeading config message desk)
    (unfed : HttpCodecUtil.LF ∉ desk.unread) (large : limits.maxHeaderSize ≤ looked desk.unread)
    (positive : 0 < limits.maxHeaderSize) :
    Raises limits httpSubclass config (.looping decoder desk.context sent) inputs := by
  have fits := within.fits
  have opened := fits.opened
  have length := fits.unread_length
  have less := looked_le desk.unread
  have there : desk.reader < desk.writer := by omega
  have scan := @readHeader_scan limits desk.opened opened
  have sizes : headerScan limits.maxHeaderSize desk.opened.fields.headerSize desk.opened.unread =
      .tooLarge := by
    have cleared : desk.opened.fields.headerSize = 0 := within.cleared
    have unread : desk.opened.unread = desk.unread := rfl
    rw [cleared, unread, headerScan_part unfed, if_pos ⟨by omega, by omega⟩]
  rw [sizes] at scan
  generalize ran : (readHeader limits).run desk.opened.context = result at scan
  cases scan with
  | tooLarge count inside =>
      have read : (readHeaders limits).run desk.opened.context =
          .error (headerTooLarge limits) (desk.opened.pass count).context := by
        unfold readHeaders
        rw [run_bind_error _ ran]
      have stops := @headerState_stops limits httpSubclass _ _ _ read
      rw [← desk.checked_context, ← decodes_header limits httpSubclass within.state] at stops
      have round : (ReplayingDecoder.decodeRound (replaying limits httpSubclass)
          decoder.unfold_).run desk.context =
            .error (headerTooLarge limits) (desk.opened.pass count).context :=
        ReplayingDecoder.decodeRound_stops (readable_of fits there) stops
      exact .now within.state round (headerTooLarge_isTooLong limits)

/-- A line that has not come whole and may go on: the decoder rests as it was. -/
theorem InHeading.short (within : InHeading config message desk)
    (unfed : HttpCodecUtil.LF ∉ desk.unread) (small : looked desk.unread < limits.maxHeaderSize)
    (unfolds : decoder.unfold_ = true)
    (own : decoder.channelOwnBuffer = config.channelOwnBuffer) :
    ∃ after : Desk, after.unread = desk.unread ∧ InHeading config message after ∧
      ∃ moved : ReplayContext HttpMessageDecoder,
        (ReplayingDecoder.decodeRound (replaying limits httpSubclass) decoder.unfold_).run
          desk.context = .ok false moved ∧
        Moment.behindRound decoder sent false moved =
          .resting ⟨after.left config true, sent ++ desk.fired.map .event⟩ := by
  have fits := within.fits
  have order := fits.order
  by_cases drained : desk.reader = desk.writer
  · refine ⟨desk, rfl, within, desk.context, round_done _ _ fits drained, ?_⟩
    rw [Moment.behindRound_false, Desk.behind_left unfolds own]
    rfl
  · have opened := fits.opened
    have bound := fits.bound
    have scan := @readHeader_scan limits desk.opened opened
    have sizes : headerScan limits.maxHeaderSize desk.opened.fields.headerSize desk.opened.unread =
        .short := by
      have cleared : desk.opened.fields.headerSize = 0 := within.cleared
      have unread : desk.opened.unread = desk.unread := rfl
      rw [cleared, unread, headerScan_part unfed, if_neg (by omega)]
    rw [sizes] at scan
    generalize ran : (readHeader limits).run desk.opened.context = result at scan
    cases scan with
    | full full =>
        have ended : desk.reader = desk.cells.length := full.2
        omega
    | short count inside =>
        let looked : Desk := { desk.opened.pass count with
          short := true
          fields := { desk.fields with headerSize := 0 } }
        have read : (readHeaders limits).run desk.opened.context = .ok READ_HEADER looked.context := by
          unfold readHeaders
          refine (run_bind_ok _ ran).trans ?_
          refine (run_bind_ok _ (update_run _ _)).trans ?_
          exact run_bind_ok _ (needMoreBytes_run looked)
        have more := @headerState_more limits httpSubclass _ _ read
        rw [← decodes_header limits httpSubclass within.state] at more
        have round := @round_short (replaying limits httpSubclass) decoder.unfold_ desk looked
          desk.reader fits (by omega) more rfl rfl order
        refine ⟨{ looked with reader := desk.reader }, rfl, ⟨⟨fits.ordered, fits.small, fits.order,
          fits.bound⟩, within.running, within.cumulated, within.grown, within.state, within.pointed,
          within.made, rfl⟩, _, round, ?_⟩
        rw [Moment.behindRound_false, Desk.behind_left unfolds own]
        rfl

end Rounds

/-- The end of the first line comes in the last of the buffers. -/
def Undivided (received : List Byte) (pieces : List Piece) : Prop :=
  ∀ front piece, pieces = front ++ [piece] →
    HttpCodecUtil.LF ∉ received ++ (front.map Piece.bytes).flatten

/-- A buffer of the decoder's own making has room for what arrives, as long as the decoder goes on. -/
def HasRoom (config : ChannelConfig) (max : Int) (received : List Byte) (pieces : List Piece) : Prop :=
  ∀ front piece back, pieces = front ++ piece :: back →
    (looked (received ++ (front.map Piece.bytes).flatten) : Int) < max →
    config.channelOwnBuffer = false →
    (received ++ (front.map Piece.bytes).flatten).length + piece.bytes.length ≤ 1073741824

section Pieces

variable {limits : HttpLimits} {httpSubclass : HttpSubclass} {config : ChannelConfig}
  {message : HttpMessage} {desk : Desk} {decoder : ReplayingDecoder HttpMessageDecoder}
  {sent : List Upward} {heading : HeaderSection} {received beyond : List Byte} {piece : Piece}
  {pieces : List Piece} {max : Int}

theorem flatten_cons (piece : Piece) (front : List Piece) :
    received ++ ((piece :: front).map Piece.bytes).flatten =
      received ++ piece.bytes ++ (front.map Piece.bytes).flatten := by
  rw [List.map_cons, List.flatten_cons, List.append_assoc]

theorem Undivided.first (undivided : Undivided received (piece :: pieces)) :
    HttpCodecUtil.LF ∉ received := by
  have parts : piece :: pieces = (piece :: pieces).dropLast ++
      [(piece :: pieces).getLast (List.cons_ne_nil _ _)] :=
    (List.dropLast_append_getLast _).symm
  intro among
  exact undivided _ _ parts (List.mem_append_left _ among)

theorem Undivided.tail (undivided : Undivided received (piece :: pieces)) :
    Undivided (received ++ piece.bytes) pieces := by
  intro front other same
  have whole := undivided (piece :: front) other (by rw [same]; rfl)
  rw [flatten_cons] at whole
  exact whole

theorem hasRoom_nil : HasRoom config max received [] := by
  intro front piece back same
  exact absurd same.symm (List.append_ne_nil_of_right_ne_nil _ (List.cons_ne_nil _ _))

theorem hasRoom_cons : HasRoom config max received (piece :: pieces) ↔
    ((looked received : Int) < max → config.channelOwnBuffer = false →
      received.length + piece.bytes.length ≤ 1073741824) ∧
      HasRoom config max (received ++ piece.bytes) pieces := by
  constructor
  · intro room
    constructor
    · have here := room [] piece pieces rfl
      rw [List.map_nil, List.flatten_nil, List.append_nil] at here
      exact here
    · intro front other back same
      have later := room (piece :: front) other back (by rw [same]; rfl)
      rw [flatten_cons] at later
      exact later
  · rintro ⟨here, later⟩ front other back same
    cases front with
    | nil =>
        cases same
        rw [List.map_nil, List.flatten_nil, List.append_nil]
        exact here
    | cons first front =>
        rw [List.cons_append] at same
        cases same
        rw [flatten_cons]
        exact later front other back rfl

/-- A decoder that has stopped needs no room. -/
theorem hasRoom_large (large : max ≤ looked received) : HasRoom config max received pieces := by
  intro front piece back same small
  have more := looked_append received (front.map Piece.bytes).flatten
  omega

/-- What has been received without a line feed is the front of the first line. -/
theorem front_of_line {line rest more : List Byte} (unfed : HttpCodecUtil.LF ∉ received)
    (stream : received ++ more = line ++ HttpCodecUtil.LF :: rest) :
    ∃ behind, line = received ++ behind := by
  rcases List.append_eq_append_iff.mp stream with ⟨behind, same, -⟩ | ⟨behind, same, shown⟩
  · exact ⟨behind, same⟩
  · cases behind with
    | nil => exact ⟨[], by rw [same, List.append_nil, List.append_nil]⟩
    | cons c behind =>
        rw [List.cons_append] at shown
        cases shown
        exact absurd (by rw [same]; exact List.mem_append_right _ List.mem_cons_self) unfed

/-- A first line that is too large already. -/
theorem overruns_of_front {more : List Byte} (unfed : HttpCodecUtil.LF ∉ received)
    (positive : 0 < max) (stream : received ++ more = heading.bytes ++ beyond)
    (large : max ≤ looked received) : heading.Overruns max := by
  obtain ⟨lines, last, whole, present, empty⟩ := heading
  unfold HeaderSection.bytes at stream
  unfold HeaderSection.Overruns
  dsimp only at stream ⊢
  cases lines with
  | nil =>
      rw [List.nil_append, fed_cons, List.append_assoc, List.cons_append] at stream
      obtain ⟨behind, rfl⟩ := front_of_line unfed stream
      have more := looked_append received behind
      rw [looked_empty empty] at more
      omega
  | cons first lines =>
      rw [List.cons_append, fed_cons, List.append_assoc, List.cons_append] at stream
      obtain ⟨behind, rfl⟩ := front_of_line unfed stream
      have more := looked_append received behind
      exact ⟨_, lines, rfl, Or.inl (by omega)⟩

theorem heading_fed (heading : HeaderSection) : HttpCodecUtil.LF ∈ heading.bytes := by
  unfold HeaderSection.bytes
  rw [fed_append, fed_cons]
  exact List.mem_append_right _ (List.mem_append_right _ List.mem_cons_self)

section

variable (within : InHeading config message desk) (positive : 0 < limits.maxHeaderSize)

include within positive

/-- The loop in front of a section, when it is known what comes of a decoder that rests. -/
theorem InHeading.looping
    (stream : desk.unread ++ (pieces.map Piece.bytes).flatten = heading.bytes ++ beyond)
    (undivided : Undivided desk.unread pieces) (unfolds : decoder.unfold_ = true)
    (own : decoder.channelOwnBuffer = config.channelOwnBuffer)
    (delivers : Delivers (replaying limits httpSubclass) config
      (.looping decoder desk.context sent) pieces)
    (rests : ∀ after sends, InHeading config message after → after.unread = desk.unread →
      HttpCodecUtil.LF ∉ desk.unread → (looked desk.unread : Int) < limits.maxHeaderSize →
      Delivers (replaying limits httpSubclass) config (.resting ⟨after.left config true, sends⟩)
        pieces →
      (Raises limits httpSubclass config (.resting ⟨after.left config true, sends⟩)
          (pieces.map Piece.handed) ↔
        heading.Overruns limits.maxHeaderSize ∧
          HasRoom config limits.maxHeaderSize desk.unread pieces)) :
    Raises limits httpSubclass config (.looping decoder desk.context sent)
        (pieces.map Piece.handed) ↔
      heading.Overruns limits.maxHeaderSize ∧
        HasRoom config limits.maxHeaderSize desk.unread pieces := by
  cases pieces with
  | nil =>
      rw [List.map_nil, List.flatten_nil, List.append_nil] at stream
      rw [within.whole stream, and_iff_left hasRoom_nil]
  | cons piece pieces =>
      have unfed := undivided.first
      by_cases large : limits.maxHeaderSize ≤ looked desk.unread
      · exact iff_of_true (within.large unfed large positive)
          ⟨overruns_of_front unfed positive stream large, hasRoom_large large⟩
      · obtain ⟨after, unread, goesOn, moved, round, resting⟩ :=
          @InHeading.short limits httpSubclass config message desk decoder sent within unfed
            (by omega) unfolds own
        rw [raises_round within.state round, resting]
        apply rests after _ goesOn unread unfed (by omega)
        intro front other back before same reaches
        apply delivers front other back before same
        rw [← resting] at reaches
        exact .decodes round reaches

/-- A decoder that rests within the first line. -/
theorem InHeading.resting (unfed : HttpCodecUtil.LF ∉ desk.unread)
    (small : (looked desk.unread : Int) < limits.maxHeaderSize)
    (stream : desk.unread ++ (pieces.map Piece.bytes).flatten = heading.bytes ++ beyond)
    (undivided : Undivided desk.unread pieces)
    (delivers : Delivers (replaying limits httpSubclass) config
      (.resting ⟨desk.left config true, sent⟩) pieces) :
    Raises limits httpSubclass config (.resting ⟨desk.left config true, sent⟩)
        (pieces.map Piece.handed) ↔
      heading.Overruns limits.maxHeaderSize ∧
        HasRoom config limits.maxHeaderSize desk.unread pieces := by
  induction pieces generalizing desk sent with
  | nil =>
      rw [List.map_nil, List.flatten_nil, List.append_nil] at stream
      rw [stream] at unfed
      exact absurd (List.mem_append_left _ (heading_fed heading)) unfed
  | cons piece pieces induction =>
      have arrives := delivers.first
      have heads : (desk.left config true).state = READ_HEADER := within.state
      rw [flatten_cons] at stream
      rw [List.map_cons, hasRoom_cons]
      cases readable : piece.input.readable with
      | false =>
          have blank := arrives.blank readable
          have later : Delivers (replaying limits httpSubclass) config
              (.resting ⟨desk.left config true, sent⟩) pieces := by
            intro front other back before same reaches
            apply delivers (piece :: front) other back before (by rw [same]; rfl)
            exact .passes readable reaches
          have onward := undivided.tail
          rw [blank, List.append_nil] at stream onward
          have rests := induction within unfed small stream onward later
          unfold Piece.handed
          rw [raises_passes heads readable, blank, List.append_nil, List.length_nil]
          refine rests.trans (and_congr_right fun _ => (and_iff_right fun _ dynamic => ?_).symm)
          obtain ⟨-, exponent, least, size⟩ := within.grown dynamic
          have bound := within.fits.bound
          have length := within.fits.unread_length
          have power : 2 ^ exponent ≤ 2 ^ 30 := Nat.pow_le_pow_right (by decide) least
          omega
      | true =>
          have unread : (desk.left config true).unread = desk.unread := desk.left_unread config true
          have opened : Open config (desk.left config true) :=
            Desk.open_left within.fits within.running within.grown
          by_cases room : config.channelOwnBuffer = false →
              desk.unread.length + piece.bytes.length ≤ 1073741824
          · have total : (desk.left config true).unread.length + piece.bytes.length ≤ 2147483647 := by
              cases own : config.channelOwnBuffer with
              | true => exact arrives_small own arrives
              | false =>
                  have fits := room own
                  rw [unread]
                  omega
            obtain ⟨next, needMore, buffer, laid, got, context⟩ :=
              arrival_laid opened arrives readable total (by rw [unread]; exact room)
            have fields : next.fields = desk.fields := laid.fields
            have received : next.unread = desk.unread ++ piece.bytes := by
              rw [laid.unread, unread]
            have begun : InHeading config message next := by
              refine ⟨laid.fits, laid.running, laid.cumulated, laid.grown, ?_, ?_, ?_, ?_⟩
              · rw [laid.state]
                exact within.state
              · rw [fields]
                exact within.pointed
              · rw [fields]
                exact within.made
              · rw [fields]
                exact within.cleared
            rw [← received] at stream ⊢
            have onward := undivided.tail
            rw [← received] at onward
            unfold Piece.handed
            rw [raises_receives heads readable got, and_iff_right fun _ => room]
            let decoder : ReplayingDecoder HttpMessageDecoder := { desk.left config true with
              channelOwnBuffer := config.channelOwnBuffer
              cumulation := some ⟨needMore, false, buffer⟩ }
            have looping : Moment.looping decoder next.context sent =
                .looping decoder (loopContext ⟨decoder, []⟩) sent := by
              rw [context]
              rfl
            have later : Delivers (replaying limits httpSubclass) config
                (.looping decoder next.context sent) pieces := by
              intro front other back before same reaches
              apply delivers (piece :: front) other back before (by rw [same]; rfl)
              rw [looping] at reaches
              exact .receives readable got reaches
            have goes := @InHeading.looping limits httpSubclass config message next decoder sent
              heading beyond pieces begun positive stream onward rfl rfl later ?_
            · rw [looping] at goes
              exact goes
            · intro after sends rests same unfed' small' delivered
              rw [← same] at unfed' small' stream onward ⊢
              exact induction rests unfed' small' stream onward delivered
          · obtain ⟨dynamic, beyond⟩ := Classical.not_imp.mp room
            have refusal : ¬((looked desk.unread : Int) < limits.maxHeaderSize →
                config.channelOwnBuffer = false →
                desk.unread.length + piece.bytes.length ≤ 1073741824) := fun all =>
              beyond (all small dynamic)
            unfold Arrives at arrives
            rw [dynamic, if_neg Bool.false_ne_true] at arrives
            obtain ⟨sound, content, same⟩ := arrives
            obtain ⟨stop, after, refused, -⟩ := @ReplayingDecoder.getCumulation_refused
              HttpMessageDecoder config ⟨desk.left config true, []⟩ piece.input dynamic
              (opened.grown dynamic) sound (by
                show _ < (desk.left config true).unread.length + _
                rw [unread, content]
                omega)
            rw [← same] at refused
            exact iff_of_false (not_raises_refused readable refused) fun all => refusal all.2.1

end

end Pieces

section Limits

variable {limits : HttpLimits} {httpSubclass : HttpSubclass} {config : ChannelConfig}
  {message : HttpMessage} {desk : Desk} {sent : List Upward} {pieces : List Piece}
  {heading : HeaderSection} {beyond : List Byte}

/-- The loop is in front of a header section, and the buffers bring the rest of it and perhaps more. -/
structure HeadingBegins (limits : HttpLimits) (httpSubclass : HttpSubclass) (config : ChannelConfig)
    (message : HttpMessage) (desk : Desk) (sent : List Upward) (pieces : List Piece)
    (heading : HeaderSection) (beyond : List Byte) : Prop where
  within : InHeading config message desk
  stream : desk.unread ++ (pieces.map Piece.bytes).flatten = heading.bytes ++ beyond
  delivers : Delivers (replaying limits httpSubclass) config
    (.looping (desk.left config true) desk.context sent) pieces

section

variable (begins : HeadingBegins limits httpSubclass config message desk sent pieces heading beyond)
  (positive : 0 < limits.maxHeaderSize) (undivided : Undivided desk.unread pieces)

include begins positive undivided

theorem HeadingBegins.raises_iff :
    Raises limits httpSubclass config (.looping (desk.left config true) desk.context sent)
        (pieces.map Piece.handed) ↔
      heading.Overruns limits.maxHeaderSize ∧
        HasRoom config limits.maxHeaderSize desk.unread pieces := by
  apply begins.within.looping positive begins.stream undivided rfl rfl begins.delivers
  intro after sends rests same unfed small delivered
  have stream := begins.stream
  rw [← same] at unfed small stream undivided ⊢
  exact rests.resting positive unfed small stream undivided delivered

theorem HeadingBegins.limited_iff :
    SizeLimited limits httpSubclass config (.looping (desk.left config true) desk.context sent)
        (pieces.map Piece.handed) heading.bytes.length ↔
      (heading.bytes.length : Int) ≤ limits.maxHeaderSize ∨
        (heading.Overruns limits.maxHeaderSize ∧
          HasRoom config limits.maxHeaderSize desk.unread pieces) := by
  rw [sizeLimited_iff, begins.raises_iff positive undivided]
  constructor
  · intro same
    by_cases larger : limits.maxHeaderSize < heading.bytes.length
    · exact Or.inr (same.mpr larger)
    · exact Or.inl (Int.not_lt.mp larger)
  · rintro (within | both)
    · exact iff_of_false (fun both => absurd both.1.larger (Int.not_lt.mpr within))
        (Int.not_lt.mpr within)
    · exact iff_of_true both both.1.larger

end

end Limits

/-- Whether the exception is raised within so many steps. -/
def raisesIn (limits : HttpLimits) (httpSubclass : HttpSubclass) (config : ChannelConfig) :
    Nat → Moment HttpMessageDecoder → List (ChannelBuffer × Bool) → Bool
  | 0, _, _ => false
  | steps + 1, .looping decoder context sent, inputs =>
      decide (context.state = READ_HEADER) &&
        match (ReplayingDecoder.decodeRound (replaying limits httpSubclass)
            decoder.unfold_).run context with
        | .error stop _ => stop.isTooLong
        | .ok goesOn after =>
            raisesIn limits httpSubclass config steps (.behindRound decoder sent goesOn after) inputs
  | _ + 1, .resting _, [] => false
  | steps + 1, .resting sender, (input, same) :: inputs =>
      decide (sender.decoder.state = READ_HEADER) &&
        if input.readable then
          match (ReplayingDecoder.getCumulation config input same).run ⟨sender.decoder, []⟩ with
          | .error _ _ => false
          | .ok _ after =>
              raisesIn limits httpSubclass config steps
                (.looping after.decoder (loopContext after) sender.sent) inputs
        else raisesIn limits httpSubclass config steps (.resting sender) inputs

section Examples

variable {limits : HttpLimits} {httpSubclass : HttpSubclass} {config : ChannelConfig}
  {moment : Moment HttpMessageDecoder} {inputs : List (ChannelBuffer × Bool)}

theorem raises_of_raisesIn {steps : Nat}
    (raised : raisesIn limits httpSubclass config steps moment inputs = true) :
    Raises limits httpSubclass config moment inputs := by
  induction steps generalizing moment inputs with
  | zero => cases raised
  | succ steps induction =>
      cases moment with
      | looping decoder context sent =>
          rw [raisesIn, Bool.and_eq_true, decide_eq_true_iff] at raised
          obtain ⟨heading, raised⟩ := raised
          cases round : (ReplayingDecoder.decodeRound (replaying limits httpSubclass)
              decoder.unfold_).run context with
          | error stop after =>
              rw [round] at raised
              exact .now heading round raised
          | ok goesOn after =>
              rw [round] at raised
              exact .decodes heading round (induction raised)
      | resting sender =>
          cases inputs with
          | nil => cases raised
          | cons received inputs =>
              obtain ⟨input, same⟩ := received
              rw [raisesIn, Bool.and_eq_true, decide_eq_true_iff] at raised
              obtain ⟨heading, raised⟩ := raised
              cases readable : input.readable with
              | false =>
                  rw [readable, if_neg Bool.false_ne_true] at raised
                  exact .passes heading readable (induction raised)
              | true =>
                  rw [readable, if_pos rfl] at raised
                  cases got : (ReplayingDecoder.getCumulation config input same).run
                      ⟨sender.decoder, []⟩ with
                  | error stop after =>
                      rw [got] at raised
                      cases raised
                  | ok _ after =>
                      rw [got] at raised
                      exact .receives heading readable got (induction raised)

/-- A decoder in front of a header section, with its front in a buffer of its own making. -/
def Desk.growing (bytes : List Byte) (room : Nat) : Desk :=
  { Desk.headed bytes with
    shell := .dynamic .big .big .big ⟨0, 0, 0, 0⟩
    cells := bytes ++ List.replicate room 0 }

/-- A section of one line, of eight bytes. -/
def shortHeading : HeaderSection :=
  ⟨[text "A: b\r"], text "\r", by decide, by decide, Or.inr rfl⟩

/-- A section of one line, of eleven bytes. -/
def longHeading : HeaderSection :=
  ⟨[text "Host: a\r"], text "\r", by decide, by decide, Or.inr rfl⟩

theorem short_begins : HeadingBegins ⟨100, 8, 100⟩ HttpResponseDecoder.subclass ⟨false, .big⟩
    HttpResponseDecoder.response (.growing (text "A: b") 4) [] [Piece.of (text "\r\n\r\n")]
    shortHeading [] where
  within := ⟨⟨rfl, by decide, by decide, by decide⟩, rfl, rfl,
    fun _ => ⟨⟨_, rfl⟩, 3, by decide, rfl⟩, rfl, rfl, rfl, rfl⟩
  stream := by decide
  delivers := by
    intro front piece back before same _
    have among : piece ∈ [Piece.of (text "\r\n\r\n")] := by
      rw [same]
      exact List.mem_append_right _ List.mem_cons_self
    rw [List.mem_singleton.mp among]
    exact Piece.of_arrives rfl _ _ (by decide)

theorem long_begins : HeadingBegins ⟨100, 8, 100⟩ HttpResponseDecoder.subclass ⟨true, .big⟩
    HttpResponseDecoder.response (.headed longHeading.bytes) [] [] longHeading [] where
  within := ⟨Desk.headed_fits (by decide), rfl, rfl, (fun dynamic => by cases dynamic), rfl, rfl, rfl,
    rfl⟩
  stream := by
    rw [Desk.headed_unread]
    rfl
  delivers := by
    intro front piece back before same _
    exact absurd same.symm (List.append_ne_nil_of_right_ne_nil _ (List.cons_ne_nil _ _))

end Examples

end HttpMessageDecoder

end Cetty
