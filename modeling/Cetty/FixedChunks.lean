import Cetty.CloseDelimited
import Cetty.HttpContents

/-!
# Content of a known length, in chunks

A replaying decoder rests between two deliveries or is in its loop. While more than a chunk is
announced, chunks of the largest size are cut off; what is announced last is one more chunk, and the
last chunk is fired with it. A decoder that cuts off nothing makes no progress.
-/

namespace Cetty

namespace ReplayingDecoder

variable {Fields : Type}

/-- The decoder behind its loop. -/
def behind (decoder : ReplayingDecoder Fields) (context : ReplayContext Fields) :
    ReplayingDecoder Fields :=
  { decoder with
    fields := context.fields
    state := context.state
    checkedPoint := context.checkedPoint
    cumulation := some context.replayable }

end ReplayingDecoder

inductive Moment (Fields : Type) where
  | looping (decoder : ReplayingDecoder Fields) (context : ReplayContext Fields)
      (sent : List Upward)
  | resting (sender : Sender (ReplayingDecoder Fields))

namespace Moment

variable {Fields : Type}

/-- Everything that has been sent upstream. -/
def upward : Moment Fields → List Upward
  | looping _ context sent => sent ++ context.fired.map .event
  | resting sender => sender.sent

/-- The moment behind a round, which says whether the loop goes on. -/
def behindRound (decoder : ReplayingDecoder Fields) (sent : List Upward) :
    Bool → ReplayContext Fields → Moment Fields
  | true, context => looping decoder context sent
  | false, context => resting ⟨decoder.behind context, sent ++ context.fired.map .event⟩

section

variable (decoder : ReplayingDecoder Fields) (sent : List Upward) (context : ReplayContext Fields)

include decoder sent context

@[simp] theorem behindRound_true :
    behindRound decoder sent true context = looping decoder context sent := rfl

@[simp] theorem behindRound_false :
    behindRound decoder sent false context =
      resting ⟨decoder.behind context, sent ++ context.fired.map .event⟩ := rfl

end

end Moment

namespace ReplayingDecoder

variable {Fields : Type}

/-- The context in which the loop begins. -/
def loopContext (reception : ReplayReception Fields) : ReplayContext Fields :=
  reception.decoder.context true (reception.decoder.cumulation.getD (.make .emptyBuffer))
    reception.fired

/-- The decoder comes from one moment to another while it receives the buffers, without an exception. -/
inductive Reaches (subclass : ReplayingSubclass Fields) (config : ChannelConfig) :
    Moment Fields → List (ChannelBuffer × Bool) → Moment Fields → Prop
  | here (moment : Moment Fields) : Reaches subclass config moment [] moment
  | decodes {decoder : ReplayingDecoder Fields} {context after : ReplayContext Fields}
      {sent : List Upward} {goesOn : Bool} {inputs : List (ChannelBuffer × Bool)}
      {last : Moment Fields}
      (round : (decodeRound subclass decoder.unfold_).run context = .ok goesOn after)
      (later : Reaches subclass config (.behindRound decoder sent goesOn after) inputs last) :
      Reaches subclass config (.looping decoder context sent) inputs last
  | receives {sender : Sender (ReplayingDecoder Fields)} {after : ReplayReception Fields}
      {input : ChannelBuffer} {same : Bool} {inputs : List (ChannelBuffer × Bool)}
      {last : Moment Fields} (readable : input.readable = true)
      (got : (getCumulation config input same).run ⟨sender.decoder, []⟩ = .ok () after)
      (later : Reaches subclass config (.looping after.decoder (loopContext after) sender.sent)
        inputs last) :
      Reaches subclass config (.resting sender) ((input, same) :: inputs) last
  | passes {sender : Sender (ReplayingDecoder Fields)} {input : ChannelBuffer} {same : Bool}
      {inputs : List (ChannelBuffer × Bool)} {last : Moment Fields}
      (blank : input.readable = false)
      (later : Reaches subclass config (.resting sender) inputs last) :
      Reaches subclass config (.resting sender) ((input, same) :: inputs) last

/-- The decoder comes to a moment of this kind. -/
def Comes (subclass : ReplayingSubclass Fields) (config : ChannelConfig) (moment : Moment Fields)
    (inputs : List (ChannelBuffer × Bool)) (goal : Moment Fields → Prop) : Prop :=
  ∃ last, Reaches subclass config moment inputs last ∧ goal last

section Runs

variable {subclass : ReplayingSubclass Fields} {config : ChannelConfig}
  {first middle last : Moment Fields} {inputs more : List (ChannelBuffer × Bool)}
  {decoder : ReplayingDecoder Fields} {context after : ReplayContext Fields} {sent : List Upward}
  {sender : Sender (ReplayingDecoder Fields)} {input : ChannelBuffer} {same : Bool}
  {goal : Moment Fields → Prop}

theorem concluded_keeps (fields : Fields) (state : Int) (unfold_ : Bool) (frame : ChannelMessage)
    (decoded : ReplayContext Fields) :
    Keeps (fun context => context.fields = fields ∧ context.state = state)
      (conclude subclass unfold_ context frame decoded) :=
  @ReplayReception.conclude_keeps Fields subclass (fun fields' state' _ => fields' = fields ∧
    state' = state) unfold_ context frame decoded fun _ _ _ _ _ holds => holds

/-- A round that goes through has called `decode`, and changes neither the fields nor the state behind
the call. -/
theorem decodeRound_ok {unfold_ goesOn : Bool}
    (round : (decodeRound subclass unfold_).run context = .ok goesOn after) :
    after = context ∨ ∃ frame decoded,
      (subclass.decode context.state).run (checked context) = .ok frame decoded ∧
      after.fields = decoded.fields ∧ after.state = decoded.state := by
  cases readable : context.replayable.buffer.readable with
  | false =>
      rw [decodeRound_unreadable readable] at round
      cases round
      exact .inl rfl
  | true =>
      cases called : (subclass.decode context.state).run (checked context) with
      | error stop stopped =>
          rw [decodeRound_stops readable called] at round
          cases round
      | ok frame decoded =>
          rw [decodeRound_readable readable called] at round
          refine .inr ⟨frame, decoded, rfl, ?_⟩
          exact (concluded_keeps _ _ _ _ _).after_ok ⟨rfl, rfl⟩ round

section Goals

theorem comes_here (now : goal first) : Comes subclass config first [] goal :=
  ⟨first, .here first, now⟩

theorem comes_round {goesOn : Bool}
    (round : (decodeRound subclass decoder.unfold_).run context = .ok goesOn after)
    (notYet : ¬goal (.looping decoder context sent)) :
    Comes subclass config (.looping decoder context sent) inputs goal ↔
      Comes subclass config (.behindRound decoder sent goesOn after) inputs goal := by
  constructor
  · rintro ⟨last, reaches, met⟩
    cases reaches with
    | here => exact absurd met notYet
    | decodes round' later =>
        rw [round] at round'
        cases round'
        exact ⟨last, later, met⟩
  · rintro ⟨last, reaches, met⟩
    exact ⟨last, .decodes round reaches, met⟩

theorem not_comes_stopped {stop : Stop}
    (round : (decodeRound subclass decoder.unfold_).run context = .error stop after)
    (notYet : ¬goal (.looping decoder context sent)) :
    ¬Comes subclass config (.looping decoder context sent) inputs goal := by
  rintro ⟨last, reaches, met⟩
  cases reaches with
  | here => exact notYet met
  | decodes round' _ =>
      rw [round] at round'
      cases round'

variable {reception : ReplayReception Fields}

theorem comes_receives (readable : input.readable = true)
    (got : (getCumulation config input same).run ⟨sender.decoder, []⟩ = .ok () reception) :
    Comes subclass config (.resting sender) ((input, same) :: inputs) goal ↔
      Comes subclass config (.looping reception.decoder (loopContext reception) sender.sent) inputs
        goal := by
  constructor
  · rintro ⟨last, reaches, met⟩
    cases reaches with
    | receives _ got' later =>
        rw [got] at got'
        cases got'
        exact ⟨last, later, met⟩
    | passes blank _ =>
        rw [readable] at blank
        cases blank
  · rintro ⟨last, reaches, met⟩
    exact ⟨last, .receives readable got reaches, met⟩

theorem not_comes_refused {stop : Stop}
    (readable : input.readable = true)
    (refused : (getCumulation config input same).run ⟨sender.decoder, []⟩ =
      .error stop reception) :
    ¬Comes subclass config (.resting sender) ((input, same) :: inputs) goal := by
  rintro ⟨last, reaches, -⟩
  cases reaches with
  | receives _ got _ =>
      rw [refused] at got
      cases got
  | passes blank _ =>
      rw [readable] at blank
      cases blank

theorem comes_passes (blank : input.readable = false) :
    Comes subclass config (.resting sender) ((input, same) :: inputs) goal ↔
      Comes subclass config (.resting sender) inputs goal := by
  constructor
  · rintro ⟨last, reaches, met⟩
    cases reaches with
    | receives readable _ _ =>
        rw [blank] at readable
        cases readable
    | passes _ later => exact ⟨last, later, met⟩
  · rintro ⟨last, reaches, met⟩
    exact ⟨last, .passes blank reaches, met⟩

end Goals

end Runs

end ReplayingDecoder

open MachineInt ByteWindow

namespace HttpMessageDecoder

open ReplayingDecoder (Reaches Comes loopContext)

section States

variable {limits : HttpLimits} {desk : Desk} {size : Nat}

/-- So much content is still to come. -/
def Desk.announcing (desk : Desk) (chunkSize : Int) : Desk :=
  { desk with fields := { desk.fields with chunkSize := chunkSize } }

theorem readPart_run (limits : HttpLimits) (desk : Desk) :
    (readPart limits).run desk.context =
      (do
        let buff ← readSlice (min limits.maxChunkSize desk.fields.chunkSize)
        pure (buff, if limits.maxChunkSize < desk.fields.chunkSize then
          desk.fields.chunkSize - limits.maxChunkSize else 0) :
        Decode (ChannelBuffer × Int)).run desk.context := by
  unfold readPart
  rw [run_bind_get]
  have announced : desk.context.fields.chunkSize = desk.fields.chunkSize := rfl
  rw [announced]
  by_cases more : limits.maxChunkSize < desk.fields.chunkSize
  · rw [if_pos more, if_pos more, Int.min_eq_left (Int.le_of_lt more)]
  · rw [if_neg more, if_neg more, Int.min_eq_right (Int.not_lt.mp more)]

/-- A chunk of the largest size, when more than that is announced. -/
theorem fixedChunks_whole (fits : desk.Fits) (most : limits.maxChunkSize = size)
    (more : limits.maxChunkSize < desk.fields.chunkSize)
    (there : size ≤ desk.writer - desk.reader) :
    ∃ part : ChannelBuffer, part.readableContent = desk.unread.take size ∧
      part.readable = decide (0 < size) ∧
      (fixedChunksState limits).run desk.context = .ok (.object desk.fields.published.length)
        (((desk.pass size).announcing (desk.fields.chunkSize - size)).publishing
          [chunkObject part]).context := by
  obtain ⟨part, shown, readable, ran⟩ := @readSlice_run desk fits size there
  refine ⟨part, shown, readable, ?_⟩
  have next : min limits.maxChunkSize desk.fields.chunkSize = size := by
    rw [Int.min_eq_left (Int.le_of_lt more), most]
  have part_run : (readPart limits).run desk.context =
      .ok (part, desk.fields.chunkSize - size) (desk.pass size).context := by
    rw [readPart_run, next, run_bind_ok _ ran, if_pos more, most]
    rfl
  unfold fixedChunksState
  rw [run_bind_ok _ part_run]
  dsimp only
  rw [run_bind_ok _ (desk.needMoreBytes_pass size), if_neg Bool.false_ne_true]
  refine (run_bind_ok _ (update_run (desk.pass size) _)).trans ?_
  rw [if_neg (by omega)]
  exact publish_run ((desk.pass size).announcing (desk.fields.chunkSize - size)) (chunkObject part)

/-- All that is announced, when it is no more than a chunk. -/
theorem fixedChunks_last (fits : desk.Fits) (announced : desk.fields.chunkSize = size)
    (last : desk.fields.chunkSize ≤ limits.maxChunkSize)
    (there : size ≤ desk.writer - desk.reader) :
    ∃ part : ChannelBuffer, part.readableContent = desk.unread.take size ∧
      part.readable = decide (0 < size) ∧
      (fixedChunksState limits).run desk.context =
        (publishLast (.chunk part)).run ((desk.pass size).announcing 0).context := by
  obtain ⟨part, shown, readable, ran⟩ := @readSlice_run desk fits size there
  refine ⟨part, shown, readable, ?_⟩
  have next : min limits.maxChunkSize desk.fields.chunkSize = size := by
    rw [Int.min_eq_right last, announced]
  have part_run : (readPart limits).run desk.context = .ok (part, 0) (desk.pass size).context := by
    rw [readPart_run, next, run_bind_ok _ ran, if_neg (Int.not_lt.mpr last)]
    rfl
  unfold fixedChunksState
  rw [run_bind_ok _ part_run]
  dsimp only
  rw [run_bind_ok _ (desk.needMoreBytes_pass size), if_neg Bool.false_ne_true]
  refine (run_bind_ok _ (update_run (desk.pass size) _)).trans ?_
  rw [if_pos rfl]
  rfl

theorem fixedChunks_short (fits : desk.Fits)
    (lacking : ((desk.writer - desk.reader : Nat) : Int) <
      min limits.maxChunkSize desk.fields.chunkSize) :
    (fixedChunksState limits).run desk.context =
      .ok .empty { desk with short := true }.context := by
  have part_run : ∃ left, (readPart limits).run desk.context =
      .ok (.emptyBuffer, left) { desk with short := true }.context := by
    rw [readPart_run, run_bind_ok _ (readSlice_short fits lacking)]
    exact ⟨_, rfl⟩
  obtain ⟨left, part_run⟩ := part_run
  unfold fixedChunksState
  rw [run_bind_ok _ part_run]
  dsimp only
  rw [run_bind_ok _ (needMoreBytes_run _)]
  rfl

end States

/-- The content has been fired in chunks with the last chunk behind them; what follows is unread. -/
def ContentFired (limits : HttpLimits) (published : List HttpObject) (sent : List Upward)
    (body rest : List Byte) (moment : Moment HttpMessageDecoder) : Prop :=
  ∃ decoder context before parts, moment = .looping decoder context before ∧
    context.state = SKIP_CONTROL_CHARS ∧ context.replayable.buffer.readableContent = rest ∧
    Split limits.maxChunkSize parts body ∧
    context.fields.published = published ++ (parts.map chunkObject ++ [.chunk .LAST_CHUNK]) ∧
    moment.upward = sent ++ (firings published.length (parts.length + 1)).map .event

/-- Within the content of a message. -/
structure InContent (limits : HttpLimits) (config : ChannelConfig) (published : List HttpObject)
    (sent : List Upward) (total : Nat) (received : List Byte) (desk : Desk) (upward : List Upward) :
    Prop where
  fits : desk.Fits
  running : desk.ended = false
  cumulated : desk.cumulated = true
  grown : config.channelOwnBuffer = false → desk.Grown config.bufferFactory
  state : desk.state = READ_FIXED_LENGTH_CONTENT_AS_CHUNKS
  content : desk.fields.content = none
  announced : 0 < desk.fields.chunkSize
  fired : ∃ parts bytes, Split limits.maxChunkSize parts bytes ∧ received = bytes ++ desk.unread ∧
    limits.maxChunkSize ∣ (bytes.length : Int) ∧
    (bytes.length : Int) + desk.fields.chunkSize = total ∧
    desk.fields.published = published ++ parts.map chunkObject ∧
    upward = sent ++ (firings published.length parts.length).map .event

section Loop

variable {limits : HttpLimits} {httpSubclass : HttpSubclass} {config : ChannelConfig}
  {published : List HttpObject} {sent upward before : List Upward} {total : Nat}
  {body received : List Byte} {desk : Desk} {decoder : ReplayingDecoder HttpMessageDecoder}

theorem decodes_fixed (limits : HttpLimits) (httpSubclass : HttpSubclass)
    (state : desk.state = READ_FIXED_LENGTH_CONTENT_AS_CHUNKS) :
    (replaying limits httpSubclass).decode desk.state = fixedChunksState limits := by
  rw [state]
  rfl

theorem Desk.behind_left (unfolds : decoder.unfold_ = true)
    (own : decoder.channelOwnBuffer = config.channelOwnBuffer) (desk : Desk) :
    decoder.behind desk.context = desk.left config true := by
  unfold ReplayingDecoder.behind Desk.left
  rw [← unfolds, ← own]
  rfl

/-- Nothing within the content is such a moment. -/
def Later (goal : Moment HttpMessageDecoder → Prop) : Prop :=
  ∀ decoder context before, context.state = READ_FIXED_LENGTH_CONTENT_AS_CHUNKS →
    ¬goal (.looping decoder context before)

theorem contentFired_later (limits : HttpLimits) (published : List HttpObject) (sent : List Upward)
    (body rest : List Byte) : Later (ContentFired limits published sent body rest) := by
  rintro decoder context before within ⟨_, _, _, _, same, state, -⟩
  injection same with _ same _
  rw [← same, within] at state
  exact absurd state (by decide)

theorem resting_later (sender : Sender (ReplayingDecoder HttpMessageDecoder)) :
    Later fun moment => moment = .resting sender := by
  intro decoder context before _ same
  cases same

/-- What has not been fired is shorter than what has been announced while the content lasts. -/
theorem InContent.counted (within : InContent limits config published sent total received desk upward) :
    (received.length : Int) + desk.fields.chunkSize = total + desk.unread.length := by
  obtain ⟨parts, bytes, -, parted, -, counted, -⟩ := within.fired
  rw [parted, List.length_append]
  push_cast
  omega

/-- A chunk of the largest size has been fired. -/
theorem InContent.whole (within : InContent limits config published sent total received desk
      (before ++ desk.fired.map .event))
    {size : Nat} (most : limits.maxChunkSize = size) (positive : 0 < size)
    (more : limits.maxChunkSize < desk.fields.chunkSize) (there : size ≤ desk.writer - desk.reader)
    (unfolds : decoder.unfold_ = true) :
    ∃ next : Desk, next.unread.length + size = desk.unread.length ∧
      (ReplayingDecoder.decodeRound (replaying limits httpSubclass) decoder.unfold_).run
        desk.context = .ok true next.context ∧
      InContent limits config published sent total received next
        (before ++ next.fired.map .event) := by
  have fits := within.fits
  have order := fits.order
  have opened := fits.opened
  obtain ⟨part, shown, readable, decoded⟩ :=
    @fixedChunks_whole limits desk.opened size opened most more there
  have shown : part.readableContent = desk.unread.take size := shown
  rw [← decodes_fixed limits httpSubclass within.state] at decoded
  let read : Desk := ((desk.opened.pass size).announcing (desk.fields.chunkSize - size)).publishing
    [chunkObject part]
  let next : Desk := { read with
    fired := read.fired ++ unfolded decoder.unfold_ (.object desk.fields.published.length) }
  have fires := @round_fires (replaying limits httpSubclass) decoder.unfold_ desk read _ fits
    (by omega) decoded rfl (by
      rintro ⟨still, -⟩
      have moved : desk.reader + size = desk.reader := still
      omega)
  have passed : (desk.pass size).Fits := fits.pass (by omega)
  have parted : desk.unread = desk.unread.take size ++ desk.unread.drop size :=
    (List.take_append_drop _ _).symm
  have length := fits.unread_length
  have front : (desk.unread.take size).length = size := by
    rw [List.length_take]
    omega
  have rest : next.unread = desk.unread.drop size := by
    have left := fits.unread_pass parted
    rw [front] at left
    exact left
  obtain ⟨parts, bytes, split, whole, divides, counted, publishes, sends⟩ := within.fired
  refine ⟨next, ?_, fires, ⟨passed.ordered, passed.small, passed.order, passed.bound⟩,
    within.running, within.cumulated, ?_, within.state, within.content, ?_,
    parts ++ [part], bytes ++ desk.unread.take size, ?_, ?_, ?_, ?_, ?_, ?_⟩
  · rw [rest, List.length_drop]
    omega
  · intro dynamic
    exact (within.grown dynamic).of_same rfl rfl
  · show 0 < desk.fields.chunkSize - size
    omega
  · apply split.append
    have single := @Split.single limits.maxChunkSize part (readable.trans (decide_eq_true positive))
      (by rw [shown, front]; omega)
    rw [shown] at single
    exact single
  · rw [rest, List.append_assoc, ← parted]
    exact whole
  · rw [List.length_append, front, Nat.cast_add, ← most]
    exact Int.dvd_add divides (Int.dvd_refl _)
  · rw [List.length_append, front]
    show _ + (desk.fields.chunkSize - size) = _
    push_cast
    omega
  · show desk.fields.published ++ [chunkObject part] = _
    rw [publishes, List.map_append, List.append_assoc]
    rfl
  · show before ++ (desk.fired ++ unfolded decoder.unfold_ _).map .event = _
    have one : unfolded true (.object desk.fields.published.length) =
        firings desk.fields.published.length 1 := rfl
    rw [unfolds, one, List.map_append, ← List.append_assoc, sends, publishes, List.length_append,
      List.length_map, List.append_assoc, ← List.map_append, firings_append, List.length_append]
    rfl

/-- What is announced is there, and no more than a chunk of it: the last chunk is fired with it. -/
theorem InContent.last (within : InContent limits config published sent total received desk
      (before ++ desk.fired.map .event))
    (enough : desk.fields.chunkSize ≤ ((desk.writer - desk.reader : Nat) : Int))
    (last : desk.fields.chunkSize ≤ limits.maxChunkSize) (unfolds : decoder.unfold_ = true)
    {rest : List Byte} (whole : received = body ++ rest) (length : body.length = total) :
    Comes (replaying limits httpSubclass) config (.looping decoder desk.context before) []
      (ContentFired limits published sent body rest) := by
  have fits := within.fits
  have order := fits.order
  have announced := within.announced
  obtain ⟨size, same⟩ := Int.eq_ofNat_of_zero_le (Int.le_of_lt announced)
  have there : size ≤ desk.writer - desk.reader := by omega
  have opened := fits.opened
  obtain ⟨part, shown, readable, decoded⟩ :=
    @fixedChunks_last limits desk.opened size opened same last there
  have shown : part.readableContent = desk.unread.take size := shown
  have readable : part.readable = true := readable.trans (decide_eq_true (by omega))
  let read : Desk := (desk.opened.pass size).announcing 0
  have released := @Desk.publishLast_run read within.content part
  rw [if_pos readable] at released
  have ended := decoded.trans released
  rw [← decodes_fixed limits httpSubclass within.state] at ended
  let after : Desk := read.released.publishing [chunkObject part, .chunk .LAST_CHUNK]
  have round := @round_fires (replaying limits httpSubclass) decoder.unfold_ desk after _ fits
    (by omega) ended rfl (by
      rintro ⟨still, -⟩
      have moved : desk.reader + size = desk.reader := still
      omega)
  have counted := fits.unread_length
  have front : (desk.unread.take size).length = size := by
    rw [List.length_take]
    omega
  have parted : desk.unread = desk.unread.take size ++ desk.unread.drop size :=
    (List.take_append_drop _ _).symm
  have left : after.unread = desk.unread.drop size := by
    have passed := fits.unread_pass parted
    rw [front] at passed
    exact passed
  obtain ⟨parts, bytes, split, split_received, -, sum, publishes, sends⟩ := within.fired
  have pieces : bytes ++ desk.unread.take size = body ∧ desk.unread.drop size = rest := by
    apply List.append_inj
    · rw [List.append_assoc, ← parted, ← split_received, whole]
    · rw [List.length_append, front]
      omega
  rw [ReplayingDecoder.comes_round round (contentFired_later _ _ _ _ _ _ _ _ within.state),
    Moment.behindRound_true]
  refine ReplayingDecoder.comes_here ⟨_, _, _, parts ++ [part], rfl, rfl, ?_, ?_, ?_, ?_⟩
  · show after.buffer.readableContent = rest
    rw [after.readableContent_eq, left, pieces.2]
  · rw [← pieces.1]
    apply split.append
    have single := @Split.single limits.maxChunkSize part readable (by rw [shown, front]; omega)
    rw [shown] at single
    exact single
  · show desk.fields.published ++ [chunkObject part, .chunk .LAST_CHUNK] = _
    rw [publishes, List.map_append, List.append_assoc, List.append_assoc]
    rfl
  · show before ++ (desk.fired ++ unfolded decoder.unfold_ _).map .event = _
    rw [unfolds, List.map_append, ← List.append_assoc, sends, List.append_assoc, ← List.map_append]
    have two : unfolded true (.vector [.object desk.fields.published.length,
        .object (desk.fields.published.length + 1)]) = firings desk.fields.published.length 2 := rfl
    have same : unfolded true (.vector [.object read.fields.published.length,
        .object (read.fields.published.length + 1)]) = firings desk.fields.published.length 2 := two
    rw [same, publishes, List.length_append, List.length_map, firings_append, List.length_append]
    rfl

/-- The next part has not arrived: the decoder rests. -/
theorem InContent.short (within : InContent limits config published sent total received desk
      (before ++ desk.fired.map .event))
    (lacking : ((desk.writer - desk.reader : Nat) : Int) <
      min limits.maxChunkSize desk.fields.chunkSize)
    (unfolds : decoder.unfold_ = true)
    (own : decoder.channelOwnBuffer = config.channelOwnBuffer) :
    ∃ after : Desk, after.unread = desk.unread ∧
      InContent limits config published sent total received after
        (before ++ desk.fired.map .event) ∧
      ∀ goal inputs, Later goal →
        (Comes (replaying limits httpSubclass) config (.looping decoder desk.context before) inputs
            goal ↔
          Comes (replaying limits httpSubclass) config
            (.resting ⟨after.left config true, before ++ desk.fired.map .event⟩) inputs goal) := by
  have fits := within.fits
  have order := fits.order
  by_cases drained : desk.reader = desk.writer
  · refine ⟨desk, rfl, within, fun goal inputs later => ?_⟩
    have round := round_done (replaying limits httpSubclass) decoder.unfold_ fits drained
    rw [ReplayingDecoder.comes_round round (later _ _ _ within.state), Moment.behindRound_false,
      Desk.behind_left unfolds own]
    rfl
  · have opened := fits.opened
    have decoded := @fixedChunks_short limits desk.opened opened lacking
    rw [← decodes_fixed limits httpSubclass within.state] at decoded
    have round := @round_short (replaying limits httpSubclass) decoder.unfold_ desk
      { desk.opened with short := true } desk.reader fits (by omega) decoded rfl rfl order
    refine ⟨{ desk.opened with short := true }, rfl, ⟨⟨fits.ordered, fits.small, fits.order,
      fits.bound⟩, within.running, within.cumulated, within.grown, within.state, within.content,
      within.announced, within.fired⟩,
      fun goal inputs later => ?_⟩
    rw [ReplayingDecoder.comes_round round (later _ _ _ within.state), Moment.behindRound_false,
      Desk.behind_left unfolds own]
    rfl

/-- The loop fires the rest of the content, or comes to rest where the next part lacks bytes. -/
theorem InContent.loop (within : InContent limits config published sent total received desk
      (before ++ desk.fired.map .event))
    (positive : 0 < limits.maxChunkSize) (unfolds : decoder.unfold_ = true)
    (own : decoder.channelOwnBuffer = config.channelOwnBuffer) (length : body.length = total) :
    (body.length ≤ received.length ∧ ∀ rest, received = body ++ rest →
      Comes (replaying limits httpSubclass) config (.looping decoder desk.context before) []
        (ContentFired limits published sent body rest)) ∨
    (received.length < body.length ∧ ∃ after upward,
      InContent limits config published sent total received after upward ∧
      (after.unread.length : Int) < limits.maxChunkSize ∧
      ∀ goal inputs, Later goal →
        (Comes (replaying limits httpSubclass) config (.looping decoder desk.context before) inputs
            goal ↔
          Comes (replaying limits httpSubclass) config (.resting ⟨after.left config true, upward⟩)
            inputs goal)) := by
  obtain ⟨size, most⟩ := Int.eq_ofNat_of_zero_le (Int.le_of_lt positive)
  induction steps : desk.unread.length using Nat.strong_induction_on generalizing desk with
  | _ steps induction =>
      have counted := within.counted
      have unread := within.fits.unread_length
      by_cases lacking : ((desk.writer - desk.reader : Nat) : Int) <
          min limits.maxChunkSize desk.fields.chunkSize
      · obtain ⟨after, same, rests, comes⟩ := within.short lacking unfolds own
        exact .inr ⟨by omega, after, _, rests, by rw [same]; omega, comes⟩
      · by_cases last : desk.fields.chunkSize ≤ limits.maxChunkSize
        · refine .inl ⟨by omega, fun rest whole => ?_⟩
          exact within.last (by omega) last unfolds whole length
        · obtain ⟨next, shorter, round, goesOn⟩ := @InContent.whole limits httpSubclass config published
            sent before total received desk decoder within size most (by omega) (by omega) (by omega)
            unfolds
          rcases induction next.unread.length (by omega) goesOn rfl with
            ⟨long, finishes⟩ | ⟨short, after, upward, rests, small, comes⟩
          · refine .inl ⟨long, fun rest whole => ?_⟩
            rw [ReplayingDecoder.comes_round round
              (contentFired_later _ _ _ _ _ _ _ _ within.state), Moment.behindRound_true]
            exact finishes rest whole
          · refine .inr ⟨short, after, upward, rests, small, fun goal inputs later => ?_⟩
            rw [ReplayingDecoder.comes_round round (later _ _ _ within.state),
              Moment.behindRound_true]
            exact comes goal inputs later

end Loop

section Pieces

variable {limits : HttpLimits} {httpSubclass : HttpSubclass} {config : ChannelConfig}
  {published : List HttpObject} {sent upward : List Upward} {total : Nat}
  {body received rest : List Byte} {desk : Desk} {pieces : List Piece} {piece : Piece}
  {moment : Moment HttpMessageDecoder}

/-- The buffer, and whether it is the one that the decoder has. -/
def Piece.handed (piece : Piece) : ChannelBuffer × Bool := (piece.input, piece.same)

/-- The buffers arrive one after the other. -/
def Delivers (subclass : ReplayingSubclass HttpMessageDecoder) (config : ChannelConfig)
    (moment : Moment HttpMessageDecoder) (pieces : List Piece) : Prop :=
  ∀ front piece back before, pieces = front ++ piece :: back →
    Reaches subclass config moment (front.map Piece.handed) (.resting before) →
    Arrives config before.decoder 2147483647 piece.bytes piece.input piece.same

/-- The end of the content is in the last of the buffers. -/
def EndsIn (pieces : List Piece) (rest : List Byte) : Prop :=
  ∀ front piece, pieces = front ++ [piece] → rest.length < piece.bytes.length

/-- A buffer of the decoder's own making has room for what is left of the chunks and what arrives. -/
def Roomy (config : ChannelConfig) (size : Int) : Nat → List Piece → Prop
  | _, [] => True
  | received, piece :: pieces =>
      (config.channelOwnBuffer = false →
        (received : Int) % size + piece.bytes.length ≤ 1073741824) ∧
        Roomy config size (received + piece.bytes.length) pieces

theorem EndsIn.tail (ends : EndsIn (piece :: pieces) rest) : EndsIn pieces rest := by
  intro front last same
  apply ends (piece :: front)
  rw [same]
  rfl

/-- As long as a buffer is to come, the content has not ended. -/
theorem EndsIn.lasts (ends : EndsIn pieces rest) (present : pieces ≠ [])
    (stream : received ++ (pieces.map Piece.bytes).flatten = body ++ rest) :
    received.length < body.length := by
  obtain ⟨front, last, same⟩ : ∃ front last, pieces = front ++ [last] :=
    ⟨pieces.dropLast, pieces.getLast present, (List.dropLast_append_getLast present).symm⟩
  have long := ends front last same
  have lengths := congrArg List.length stream
  rw [same, List.map_append, List.flatten_append, List.length_append, List.length_append,
    List.length_append] at lengths
  have single : ([last].map Piece.bytes).flatten = last.bytes := by simp
  rw [single] at lengths
  omega

theorem Delivers.first (delivers : Delivers (replaying limits httpSubclass) config (.resting
      ⟨desk.left config true, upward⟩) (piece :: pieces)) :
    Arrives config (desk.left config true) 2147483647 piece.bytes piece.input piece.same :=
  delivers [] piece pieces ⟨desk.left config true, upward⟩ rfl (.here _)

section

variable (within : InContent limits config published sent total received desk upward)

include within

/-- What is left of the chunks. -/
theorem InContent.left_over (small : (desk.unread.length : Int) < limits.maxChunkSize) :
    (received.length : Int) % limits.maxChunkSize = desk.unread.length := by
  obtain ⟨parts, bytes, -, parted, ⟨turns, divides⟩, -⟩ := within.fired
  rw [parted, List.length_append, Nat.cast_add, divides, Int.mul_add_emod_self_left]
  exact Int.emod_eq_of_lt (Int.natCast_nonneg _) small

/-- A buffer that the decoder has made is not larger. -/
theorem InContent.unread_le
    (dynamic : config.channelOwnBuffer = false) : desk.unread.length ≤ 1073741824 := by
  obtain ⟨-, exponent, least, size⟩ := within.grown dynamic
  have bound := within.fits.bound
  have length := within.fits.unread_length
  have power : 2 ^ exponent ≤ 2 ^ 30 := Nat.pow_le_pow_right (by decide) least
  omega

end

theorem arrives_small {decoder : ReplayingDecoder HttpMessageDecoder} {bytes : List Byte}
    {input : ChannelBuffer} {same : Bool} (own : config.channelOwnBuffer = true)
    (arrives : Arrives config decoder 2147483647 bytes input same) :
    decoder.unread.length + bytes.length ≤ 2147483647 := by
  unfold Arrives at arrives
  rw [if_pos own] at arrives
  obtain ⟨-, built, content, bound, -⟩ := arrives
  obtain ⟨reader, count, -, amount, shown, inside⟩ := built.readable
  have small : input.readableBytes ≤ maxInt := (int32_bounds _).2
  have top : maxInt = 2147483647 := rfl
  have length := congrArg List.length content
  rw [shown, window_length inside, List.length_append] at length
  omega

/-- What the decoder rests on, and what arrives. -/
theorem InContent.arrives (within : InContent limits config published sent total received desk upward)
    (arrives : Arrives config (desk.left config true) 2147483647 piece.bytes piece.input piece.same)
    (readable : piece.input.readable = true)
    (room : config.channelOwnBuffer = false →
      desk.unread.length + piece.bytes.length ≤ 1073741824) :
    ∃ (next : Desk) (decoder : ReplayingDecoder HttpMessageDecoder), decoder.unfold_ = true ∧
      decoder.channelOwnBuffer = config.channelOwnBuffer ∧
      InContent limits config published sent total (received ++ piece.bytes) next
        (upward ++ next.fired.map .event) ∧
      ∀ goal inputs, Comes (replaying limits httpSubclass) config
          (.resting ⟨desk.left config true, upward⟩) (piece.handed :: inputs) goal ↔
        Comes (replaying limits httpSubclass) config (.looping decoder next.context upward) inputs
          goal := by
  have unread : (desk.left config true).unread = desk.unread := desk.left_unread config true
  have total_small : (desk.left config true).unread.length + piece.bytes.length ≤ 2147483647 := by
    cases own : config.channelOwnBuffer with
    | true => exact arrives_small own arrives
    | false =>
        have fits := room own
        rw [unread]
        omega
  obtain ⟨next, needMore, buffer, laid, got, context⟩ :=
    arrival_laid (Desk.open_left within.fits within.running within.grown) arrives readable total_small
      (by rw [unread]; exact room)
  obtain ⟨parts, bytes, split, parted, divides, counted, publishes, sends⟩ := within.fired
  have fields : next.fields = desk.fields := laid.fields
  let decoder : ReplayingDecoder HttpMessageDecoder := { desk.left config true with
    channelOwnBuffer := config.channelOwnBuffer
    cumulation := some ⟨needMore, false, buffer⟩ }
  refine ⟨next, decoder, rfl, rfl, ⟨laid.fits, laid.running, laid.cumulated, laid.grown, ?_, ?_, ?_,
    parts, bytes, split, ?_, divides, ?_, ?_, ?_⟩, fun goal inputs => ?_⟩
  · rw [laid.state]
    exact within.state
  · rw [fields]
    exact within.content
  · rw [fields]
    exact within.announced
  · rw [laid.unread, unread, ← List.append_assoc, ← parted]
  · rw [fields]
    exact counted
  · rw [fields]
    exact publishes
  · rw [laid.fired, List.map_nil, List.append_nil]
    exact sends
  · unfold Piece.handed
    rw [ReplayingDecoder.comes_receives readable got, context]
    rfl

/-- The content is fired exactly when the decoder always has room. -/
theorem InContent.run (within : InContent limits config published sent total received desk upward)
    (positive : 0 < limits.maxChunkSize) (length : body.length = total)
    (small : (desk.unread.length : Int) < limits.maxChunkSize)
    (lasts : received.length < body.length)
    (stream : received ++ (pieces.map Piece.bytes).flatten = body ++ rest)
    (ends : EndsIn pieces rest)
    (delivers : Delivers (replaying limits httpSubclass) config
      (.resting ⟨desk.left config true, upward⟩) pieces) :
    Comes (replaying limits httpSubclass) config (.resting ⟨desk.left config true, upward⟩)
        (pieces.map Piece.handed) (ContentFired limits published sent body rest) ↔
      Roomy config limits.maxChunkSize received.length pieces := by
  induction pieces generalizing received desk upward with
  | nil =>
      have lengths := congrArg List.length stream
      rw [List.map_nil, List.flatten_nil, List.append_nil, List.length_append] at lengths
      omega
  | cons piece pieces induction =>
      have arrives := delivers.first
      have remaining := within.left_over small
      have onward : received ++ piece.bytes ++ (pieces.map Piece.bytes).flatten = body ++ rest := by
        rw [List.append_assoc]
        exact stream
      rw [List.map_cons, Roomy, remaining]
      cases readable : piece.input.readable with
      | false =>
          have blank := arrives.blank readable
          have later : Delivers (replaying limits httpSubclass) config
              (.resting ⟨desk.left config true, upward⟩) pieces := by
            intro front other back before same reaches
            apply delivers (piece :: front) other back before (by rw [same]; rfl)
            exact .passes readable reaches
          rw [blank, List.append_nil] at onward
          have rests := induction within small lasts onward ends.tail later
          unfold Piece.handed
          rw [ReplayingDecoder.comes_passes readable, blank, List.length_nil]
          refine rests.trans ⟨fun roomy => ⟨fun dynamic => ?_, roomy⟩, fun roomy => roomy.2⟩
          have bound := within.unread_le dynamic
          omega
      | true =>
          by_cases room : config.channelOwnBuffer = false →
              desk.unread.length + piece.bytes.length ≤ 1073741824
          · obtain ⟨next, decoder, unfolds, own, goesOn, receives⟩ :=
              @InContent.arrives limits httpSubclass config published sent upward total received desk
                piece within arrives readable room
            have fits : config.channelOwnBuffer = false →
                (desk.unread.length : Int) + piece.bytes.length ≤ 1073741824 := by
              intro dynamic
              have enough := room dynamic
              omega
            rw [receives]
            rcases @InContent.loop limits httpSubclass config published sent upward total body
                (received ++ piece.bytes) next decoder goesOn positive unfolds own length with
              ⟨long, finishes⟩ | ⟨short, after, sends, rests, tiny, comes⟩
            · have none : pieces = [] := by
                by_contra present
                have lasts := ends.tail.lasts present onward
                omega
              subst none
              rw [List.map_nil, List.flatten_nil, List.append_nil] at onward
              exact ⟨fun _ => ⟨fits, trivial⟩, fun _ => finishes rest onward⟩
            · have later : Delivers (replaying limits httpSubclass) config
                  (.resting ⟨after.left config true, sends⟩) pieces := by
                intro front other back before same reaches
                apply delivers (piece :: front) other back before (by rw [same]; rfl)
                have loops := (comes _ (front.map Piece.handed) (resting_later before)).mpr
                  ⟨_, reaches, rfl⟩
                have begins := (receives _ _).mpr loops
                obtain ⟨last, arrived, same⟩ := begins
                rw [same] at arrived
                exact arrived
              have run := induction rests tiny short onward ends.tail later
              rw [List.length_append] at run
              rw [comes _ _ (contentFired_later _ _ _ _ _), run]
              exact ⟨fun roomy => ⟨fits, roomy⟩, fun roomy => roomy.2⟩
          · obtain ⟨dynamic, beyond⟩ := Classical.not_imp.mp room
            constructor
            · intro comes
              unfold Arrives at arrives
              rw [dynamic, if_neg Bool.false_ne_true] at arrives
              obtain ⟨sound, content, same⟩ := arrives
              have opened : Open config (desk.left config true) :=
                Desk.open_left within.fits within.running within.grown
              have unread : (desk.left config true).unread = desk.unread :=
                desk.left_unread config true
              obtain ⟨stop, after, refused, -⟩ := @ReplayingDecoder.getCumulation_refused
                HttpMessageDecoder config ⟨desk.left config true, []⟩ piece.input dynamic
                (opened.grown dynamic) sound (by
                  show _ < (desk.left config true).unread.length + _
                  rw [unread, content]
                  omega)
              rw [← same] at refused
              exact absurd comes (ReplayingDecoder.not_comes_refused readable refused)
            · rintro ⟨enough, -⟩
              have fits := enough dynamic
              omega

/-- Inside the content, with a chunk size of nothing. -/
def Stuck (fields : HttpMessageDecoder) (state : Int) : Prop :=
  state = READ_FIXED_LENGTH_CONTENT_AS_CHUNKS ∧ 0 < fields.chunkSize

theorem fixedChunks_stuck {context after : ReplayContext HttpMessageDecoder} {frame : ChannelMessage}
    (none : limits.maxChunkSize = 0) (stuck : Stuck context.fields context.state)
    (ran : (fixedChunksState limits).run context = .ok frame after) :
    Stuck after.fields after.state := by
  unfold fixedChunksState at ran
  obtain ⟨⟨buff, chunkSize⟩, middle, part, later⟩ := ok_of_run_bind ran
  obtain ⟨fields, state⟩ := (Same.readPart limits _ _).after_ok ⟨rfl, rfl⟩ part
  have left : chunkSize = context.fields.chunkSize := by
    unfold readPart at part
    rw [run_bind_get] at part
    dsimp only at part
    rw [none, if_pos stuck.2] at part
    obtain ⟨_, _, _, returned⟩ := ok_of_run_bind part
    cases returned
    exact Int.sub_zero _
  dsimp only at later
  obtain ⟨more, asked, needs, goes⟩ := ok_of_run_bind later
  obtain ⟨fields', state'⟩ := (Same.needMoreBytes _ _).after_ok ⟨rfl, rfl⟩ needs
  have kept : Stuck asked.fields asked.state := by
    rw [fields', state', fields, state]
    exact stuck
  cases more with
  | true =>
      rw [if_pos rfl] at goes
      cases goes
      exact kept
  | false =>
      have positive : ¬chunkSize = 0 := by
        have announced := stuck.2
        omega
      rw [if_neg Bool.false_ne_true] at goes
      obtain ⟨_, updated, changed, published⟩ := ok_of_run_bind goes
      cases changed
      rw [if_neg positive] at published
      cases published
      refine ⟨kept.1, ?_⟩
      show 0 < chunkSize
      rw [left]
      exact stuck.2

/-- The fields and the state at a moment. -/
def stuckAt : Moment HttpMessageDecoder → Prop
  | .looping _ context _ => Stuck context.fields context.state
  | .resting sender => Stuck sender.decoder.fields sender.decoder.state

/-- Without a chunk size the decoder never leaves the content. -/
theorem stuck_reaches {inputs : List (ChannelBuffer × Bool)} {last : Moment HttpMessageDecoder}
    (none : limits.maxChunkSize = 0) (stuck : stuckAt moment)
    (reaches : Reaches (replaying limits httpSubclass) config moment inputs last) : stuckAt last := by
  induction reaches with
  | here => exact stuck
  | @decodes decoder context after sent goesOn inputs last round later induction =>
      apply induction
      have kept : Stuck after.fields after.state := by
        rcases ReplayingDecoder.decodeRound_ok round with
          same | ⟨frame, decoded, called, fields, state⟩
        · rw [same]
          exact stuck
        · have decodes : (replaying limits httpSubclass).decode context.state =
              fixedChunksState limits := by
            rw [stuck.1]
            rfl
          rw [decodes] at called
          have left := @fixedChunks_stuck limits (ReplayingDecoder.checked context) decoded frame none
            stuck called
          rw [fields, state]
          exact left
      cases goesOn with
      | true => exact kept
      | false => exact kept
  | @receives sender after input same inputs last readable got later induction =>
      apply induction
      have keeps := @ReplayReception.getCumulation_keeps HttpMessageDecoder
        (fun fields state _ => Stuck fields state) config input same
      have before : Stuck sender.decoder.fields sender.decoder.state := stuck
      exact @Keeps.after_ok _ _ _ _ keeps _ _ _ before got
  | passes blank later induction => exact induction stuck

end Pieces

section Contents

/-- The loop is in front of the content, and the buffers bring the rest of it and perhaps more. -/
structure ContentBegins (limits : HttpLimits) (httpSubclass : HttpSubclass) (config : ChannelConfig)
    (desk : Desk) (sent : List Upward) (pieces : List Piece) (body rest : List Byte) : Prop where
  fits : desk.Fits
  running : desk.ended = false
  cumulated : desk.cumulated = true
  grown : config.channelOwnBuffer = false → desk.Grown config.bufferFactory
  state : desk.state = READ_FIXED_LENGTH_CONTENT_AS_CHUNKS
  content : desk.fields.content = none
  announced : desk.fields.chunkSize = body.length
  present : body ≠ []
  stream : desk.unread ++ (pieces.map Piece.bytes).flatten = body ++ rest
  ends : EndsIn pieces rest
  delivers : Delivers (replaying limits httpSubclass) config
    (.looping (desk.left config true) desk.context sent) pieces

variable {limits : HttpLimits} {httpSubclass : HttpSubclass} {config : ChannelConfig} {desk : Desk}
  {sent : List Upward} {pieces : List Piece} {body rest : List Byte}

theorem ContentBegins.within
    (begins : ContentBegins limits httpSubclass config desk sent pieces body rest) :
    InContent limits config desk.fields.published (sent ++ desk.fired.map .event) body.length
      desk.unread desk (sent ++ desk.fired.map .event) where
  fits := begins.fits
  running := begins.running
  cumulated := begins.cumulated
  grown := begins.grown
  state := begins.state
  content := begins.content
  announced := by
    have present := List.length_pos_iff.mpr begins.present
    have announced := begins.announced
    omega
  fired := by
    refine ⟨[], [], Split.nil _, rfl, Int.dvd_zero _, ?_, ?_, ?_⟩
    · rw [begins.announced, List.length_nil]
      exact Int.zero_add _
    · rw [List.map_nil, List.append_nil]
    · exact (List.append_nil _).symm

/-- Content of a known length is fired in chunks, and what follows it is left alone, exactly when the
chunk size is positive and the decoder's own buffer always has room. -/
theorem fixed_chunks_iff (limits : HttpLimits) (httpSubclass : HttpSubclass)
    (config : ChannelConfig) (desk : Desk) (sent : List Upward) (pieces : List Piece)
    (body rest : List Byte) (accepted : 0 ≤ limits.maxChunkSize)
    (begins : ContentBegins limits httpSubclass config desk sent pieces body rest) :
    Comes (replaying limits httpSubclass) config
        (.looping (desk.left config true) desk.context sent) (pieces.map Piece.handed)
        (ContentFired limits desk.fields.published (sent ++ desk.fired.map .event) body rest) ↔
      0 < limits.maxChunkSize ∧ Roomy config limits.maxChunkSize desk.unread.length pieces := by
  have within := begins.within
  by_cases positive : 0 < limits.maxChunkSize
  · rw [and_iff_right positive]
    rcases @InContent.loop limits httpSubclass config desk.fields.published
        (sent ++ desk.fired.map .event) sent body.length body desk.unread desk
        (desk.left config true) within positive rfl rfl rfl with
      ⟨long, finishes⟩ | ⟨short, after, sends, rests, tiny, comes⟩
    · have none : pieces = [] := by
        by_contra present
        have lasts := begins.ends.lasts present begins.stream
        omega
      have stream := begins.stream
      subst none
      rw [List.map_nil, List.flatten_nil, List.append_nil] at stream
      exact ⟨fun _ => trivial, fun _ => finishes rest stream⟩
    · have later : Delivers (replaying limits httpSubclass) config
          (.resting ⟨after.left config true, sends⟩) pieces := by
        intro front piece back before same reaches
        apply begins.delivers front piece back before same
        obtain ⟨last, arrived, same⟩ :=
          (comes _ (front.map Piece.handed) (resting_later before)).mpr ⟨_, reaches, rfl⟩
        rw [same] at arrived
        exact arrived
      rw [comes _ _ (contentFired_later _ _ _ _ _)]
      exact rests.run positive rfl tiny short begins.stream begins.ends later
  · have none : limits.maxChunkSize = 0 := by omega
    constructor
    · rintro ⟨last, reaches, _, _, _, _, same, state, -⟩
      have stuck := @stuck_reaches limits httpSubclass config _ _ last none
        (show stuckAt (.looping (desk.left config true) desk.context sent) from
          ⟨within.state, within.announced⟩) reaches
      rw [same] at stuck
      have here := stuck.1
      rw [state] at here
      exact absurd here (by decide)
    · rintro ⟨least, -⟩
      exact absurd least positive

/-- A decoder with one of three bytes, in a buffer of its own making. -/
def threeBytes : Desk :=
  ⟨⟨3, 0, none, false, none, []⟩, READ_FIXED_LENGTH_CONTENT_AS_CHUNKS, -1, true, false, false,
    .dynamic .big .big .big ⟨0, 0, 0, 0⟩, [1, 0, 0, 0], 0, 1, 0, 0, []⟩

theorem threeBytes_begins : ContentBegins ⟨100, 100, 2⟩ HttpResponseDecoder.subclass ⟨false, .big⟩
    threeBytes [] [Piece.of [2, 3, 9]] [1, 2, 3] [9] where
  fits := ⟨rfl, by decide, by decide, by decide⟩
  running := rfl
  cumulated := rfl
  grown := fun _ => ⟨⟨_, rfl⟩, 2, by decide, rfl⟩
  state := rfl
  content := rfl
  announced := rfl
  present := by decide
  stream := by decide
  ends := by
    intro front piece same
    have single : [] ++ [Piece.of [2, 3, 9]] = front ++ [piece] := same
    rw [← (List.cons.inj (List.append_inj' single rfl).2).1]
    decide
  delivers := by
    intro front piece back before same _
    have among : piece ∈ [Piece.of [2, 3, 9]] := by
      rw [same]
      exact List.mem_append_right _ List.mem_cons_self
    rw [List.mem_singleton.mp among]
    exact Piece.of_arrives rfl _ _ (by decide)

/-- Two chunks, and a byte that is left for the next message. -/
theorem fixed_chunks_three :
    Comes (replaying ⟨100, 100, 2⟩ HttpResponseDecoder.subclass) ⟨false, .big⟩
        (.looping (threeBytes.left ⟨false, .big⟩ true) threeBytes.context [])
        ([Piece.of [2, 3, 9]].map Piece.handed)
        (ContentFired ⟨100, 100, 2⟩ threeBytes.fields.published
          ([] ++ threeBytes.fired.map .event) [1, 2, 3] [9]) ↔
      (0 : Int) < 2 ∧ Roomy ⟨false, .big⟩ 2 threeBytes.unread.length [Piece.of [2, 3, 9]] :=
  fixed_chunks_iff ⟨100, 100, 2⟩ HttpResponseDecoder.subclass ⟨false, .big⟩ threeBytes []
    [Piece.of [2, 3, 9]] [1, 2, 3] [9] (by decide) threeBytes_begins

/-- A decoder with the one byte that has been announced, in the buffer of its channel. -/
def oneByte : Desk :=
  ⟨⟨1, 0, none, false, none, []⟩, READ_FIXED_LENGTH_CONTENT_AS_CHUNKS, -1, true, false, false,
    .heap .big, [7], 0, 1, 0, 0, []⟩

/-- With a chunk size of nothing, which the constructor accepts, the first round throws. -/
theorem fixed_chunks_stuck :
    ContentBegins ⟨100, 100, 0⟩ HttpResponseDecoder.subclass ⟨true, .big⟩ oneByte [] [] [7] [] ∧
    (∃ after, (ReplayingDecoder.decodeRound (replaying ⟨100, 100, 0⟩ HttpResponseDecoder.subclass)
      true).run oneByte.context =
        .error (ReplayingDecoder.noProgress HttpResponseDecoder.subclass.typeName) after) ∧
    ¬Comes (replaying ⟨100, 100, 0⟩ HttpResponseDecoder.subclass) ⟨true, .big⟩
      (.looping (oneByte.left ⟨true, .big⟩ true) oneByte.context []) []
      (ContentFired ⟨100, 100, 0⟩ [] [] [7] []) := by
  have stops : ∃ after, (ReplayingDecoder.decodeRound (replaying ⟨100, 100, 0⟩
      HttpResponseDecoder.subclass) true).run oneByte.context =
        .error (ReplayingDecoder.noProgress HttpResponseDecoder.subclass.typeName) after := ⟨_, rfl⟩
  refine ⟨⟨⟨trivial, by decide, by decide, by decide⟩, rfl, rfl, ?_, rfl, rfl, rfl, by decide,
    by decide, ?_, ?_⟩, stops, ?_⟩
  · intro dynamic
    cases dynamic
  · intro front piece same
    exact absurd same.symm (List.append_ne_nil_of_right_ne_nil _ (List.cons_ne_nil _ _))
  · intro front piece back before same _
    exact absurd same.symm (List.append_ne_nil_of_right_ne_nil _ (List.cons_ne_nil _ _))
  · obtain ⟨after, stopped⟩ := stops
    exact ReplayingDecoder.not_comes_stopped stopped (contentFired_later _ _ _ _ _ _ _ _ rfl)

end Contents

end HttpMessageDecoder

end Cetty
