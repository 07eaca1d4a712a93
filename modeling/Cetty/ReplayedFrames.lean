import Cetty.IntegerHeaderFrameDecoder

/-!
# Frames behind their lengths, received in pieces

The run of the example decoder over a stream of frames that has been cut anywhere. A frame is lost
when its last byte arrives in one buffer with the fifth: the read that takes it drains the
cumulation, both indices are back where the decode call began, and so is the state.
-/

namespace Cetty

open MachineInt ByteWindow ChannelBuffer

namespace IntegerHeaderFrameDecoder

/-- The bytes behind the last checkpoint. -/
def sinceCheckpoint (pending : List Byte) : List Byte :=
  if pending.length < 4 then pending else pending.drop 4

theorem Rests.kept_eq {left : List (List Byte)} {pending : List Byte} {state length : Int}
    {kept : List Byte} (rests : Rests left pending state length kept) :
    kept = sinceCheckpoint pending := by
  unfold sinceCheckpoint
  cases rests with
  | length short begins same => rw [if_pos short, same]
  | content first long begun known same => rw [if_neg (by omega), same]

/-- The decoder between two deliveries of a stream of frames. -/
structure Stands (factory : ByteOrder) (frames done left : List (List Byte))
    (stream pending : List Byte) (handler : ReplayReception IntegerHeaderFrameDecoder) : Prop where
  frames : frames = done ++ left
  split : stream = encodeAll factory done ++ pending
  pends : Pending factory left pending
  fired : handler.fired.map UpstreamEvent.frameBytes = done.map some
  holding : handler.decoder.Cumulates factory
  rests : Rests left pending handler.decoder.state handler.decoder.fields.length
    handler.decoder.unread

/-- The next buffer finds room, and does not complete a frame whose length has not been read. -/
def Passes (factory : ByteOrder) (frames : List (List Byte)) (stream input : List Byte) : Prop :=
  ∀ done left pending, frames = done ++ left → stream = encodeAll factory done ++ pending →
    Pending factory left pending →
    (sinceCheckpoint pending).length + input.length ≤ 1073741824 ∧
      ∀ frame rest, left = frame :: rest → pending.length < 4 →
        pending ++ input ≠ encode factory frame

section Delivery

variable {config : ChannelConfig} {fuel : Nat} {frames done left : List (List Byte)}
  {stream pending : List Byte} {handler : ReplayReception IntegerHeaderFrameDecoder}
  {input : ChannelBuffer}

theorem stands_fresh (factory : ByteOrder) (unfold_ : Bool) (length : Int)
    (frames : List (List Byte)) :
    Stands factory frames [] frames [] [] (fresh unfold_ length) := by
  refine ⟨rfl, rfl, ⟨List.nil_prefix, ?_⟩, rfl, ?_, .length (by decide) rfl rfl⟩
  · intro frame rest _
    rw [List.length_nil]
    omega
  · intro replayable stored
    cases stored

theorem silent : ReplayReception.Silent subclass := by
  intro start state
  have reads : ∀ {Value : Type} (program : ReplayM Value),
      Keeps (fun context : ReplayContext IntegerHeaderFrameDecoder => start <+: context.fired)
        (onReplayable program) := by
    intro Value program
    exact Keeps.focus _ fun _ _ holds => holds
  have marks : ∀ state, Keeps
      (fun context : ReplayContext IntegerHeaderFrameDecoder => start <+: context.fired)
      (checkpointAt state) := by
    intro state
    refine Keeps.bind (Keeps.modify ?_) fun _ => Keeps.modify ?_
    · intro _ holds
      exact holds
    · intro _ holds
      exact holds
  have content : Keeps
      (fun context : ReplayContext IntegerHeaderFrameDecoder => start <+: context.fired)
      readContent := by
    refine Keeps.bind Keeps.get fun _ => Keeps.bind (reads _) fun _ => Keeps.bind Keeps.get
      fun _ => ?_
    exact Keeps.ite (fun _ => Keeps.pure _) fun _ => Keeps.bind (marks _) fun _ => Keeps.pure _
  apply Keeps.ite
  · intro _
    refine Keeps.bind (reads _) fun _ => Keeps.bind Keeps.get fun _ => ?_
    refine Keeps.ite (fun _ => Keeps.pure _) fun _ => Keeps.bind (Keeps.modify ?_) fun _ =>
      Keeps.bind (marks _) fun _ => content
    intro _ holds
    exact holds
  · intro _
    exact Keeps.ite (fun _ => content) fun _ => Keeps.throw _

/-- What the loop starts from. -/
def starting (handler : ReplayReception IntegerHeaderFrameDecoder)
    (replayable : ReplayingDecoderBuffer) : ReplayContext IntegerHeaderFrameDecoder :=
  handler.decoder.context true replayable handler.fired

/-- The bytes of the frame that has begun come first in what is received next. -/
theorem begins_left {factory : ByteOrder}
    (stands : Stands factory frames done left stream pending handler) {bytes : List Byte}
    (begins : stream ++ bytes <+: encodeAll factory frames) :
    pending ++ bytes <+: encodeAll factory left := by
  rw [stands.split, stands.frames, encodeAll_append, List.append_assoc] at begins
  exact (List.prefix_append_right_inj _).mp begins

variable {replayable : ReplayingDecoderBuffer}

/-- The loop consumes the received bytes behind those of the frame that has begun. -/
theorem settles_delivery {factory : ByteOrder}
    (announced : ∀ frame ∈ frames, Announced frame)
    (stands : Stands factory frames done left stream pending handler)
    {bytes : List Byte} (present : bytes ≠ [])
    (begins : stream ++ bytes <+: encodeAll factory frames)
    (passes : Passes factory frames stream bytes) (enough : (stream ++ bytes).length < fuel) (growing : replayable.buffer.IsDynamic factory)
    (content : replayable.buffer.readableContent = handler.decoder.unread ++ bytes) :
    Settles factory handler.decoder.unfold_ fuel left (pending ++ bytes)
      (starting handler replayable) := by
  have further := begins_left stands begins
  have fits : ∀ frame ∈ left, Announced frame := by
    intro frame member
    apply announced frame
    rw [stands.frames]
    exact List.mem_append_right _ member
  have smaller : (pending ++ bytes).length < fuel := by
    rw [stands.split, List.append_assoc, List.length_append] at enough
    omega
  cases stands.rests with
  | length short state kept =>
      rw [kept] at content
      refine settles_from_length handler.decoder.unfold_ fuel (starting handler replayable) fits
        growing rfl state content further (Or.inr ?_) smaller
      intro frame rest first
      exact (passes done left pending stands.frames stands.split stands.pends).2 frame rest first
        short
  | @content frame rest first long state known kept =>
      subst first
      rw [encodeAll_cons, encode, List.append_assoc] at further
      obtain ⟨more, parts, onward⟩ := split_prefix further (by
        rw [ByteOrder.digits_length, List.length_append]
        omega)
      have header := ByteOrder.digits_length factory 4 frame.length
      have same : more = pending.drop 4 ++ bytes := by
        have dropped := congrArg (List.drop 4) parts
        rw [List.drop_left' header, List.drop_append_of_le_length long] at dropped
        exact dropped.symm
      rw [parts, same]
      rw [same] at onward
      rw [kept] at content
      refine settles_from_content handler.decoder.unfold_ fuel (starting handler replayable) fits
        growing rfl state known content ?_ onward ?_
      · simp [present]
      · rw [List.length_append] at smaller ⊢
        rw [List.length_drop]
        omega

theorem unread_room {factory : ByteOrder}
    (stands : Stands factory frames done left stream pending handler) {bytes : List Byte}
    (passes : Passes factory frames stream bytes) :
    handler.decoder.unread.length + bytes.length ≤ 1073741824 := by
  rw [stands.rests.kept_eq]
  exact (passes done left pending stands.frames stands.split stands.pends).1

/-- A delivery that passes leaves the decoder as the longer stream says. -/
theorem stands_step (own : config.channelOwnBuffer = false)
    (announced : ∀ frame ∈ frames, Announced frame)
    (stands : Stands config.bufferFactory frames done left stream pending handler)
    (sound : input.Sound) (present : input.readableContent ≠ [])
    (begins : stream ++ input.readableContent <+: encodeAll config.bufferFactory frames)
    (passes : Passes config.bufferFactory frames stream input.readableContent)
    (enough : (stream ++ input.readableContent).length < fuel) :
    ∃ next done' left' pending',
      ReplayReception.messageReceived subclass config fuel handler input = .ok next ∧
      Stands config.bufferFactory frames done' left' (stream ++ input.readableContent) pending'
        next := by
  obtain ⟨replayable, growing, content, -, -, got⟩ := ReplayingDecoder.getCumulation_run own
    stands.holding sound present (unread_room stands passes)
  obtain ⟨fired, later, pending', after, ran, consumed⟩ :=
    settles_delivery announced stands present begins passes enough growing content
  have received := ReplayingDecoder.receiveBuffer_loops subclass fuel
    (sound.readable_iff.mpr present) got
  have looped : (ReplayingDecoder.onCumulation
      (ReplayingDecoder.callDecode subclass handler.decoder.unfold_ fuel)).run
        (ReplayingDecoder.cumulating handler replayable) = .ok () _ := run_focus_ok ran
  rw [looped] at received
  refine ⟨_, done ++ fired, later, pending', ReplayReception.messageReceived_ok received, ?_⟩
  refine ⟨?_, ?_, consumed.pends, ?_, ?_, consumed.rests⟩
  · rw [stands.frames, consumed.frames, List.append_assoc]
  · rw [stands.split, List.append_assoc, consumed.split, encodeAll_append, List.append_assoc]
  · obtain ⟨events, same, shown⟩ := consumed.fired
    show after.fired.map UpstreamEvent.frameBytes = _
    rw [same, List.map_append, List.map_append, shown]
    exact congrArg (· ++ fired.map some) stands.fired
  · intro stored found
    cases found
    exact consumed.growing

section

variable {factory : ByteOrder} {first second more others : List (List Byte)}
  {ahead behind : List Byte} (same : first ++ more = second ++ others)
  (split : encodeAll factory first ++ ahead = encodeAll factory second ++ behind)
  (pends : Pending factory more ahead)

include same split pends

/-- There is one frame that has begun, at most. -/
theorem pending_shorter : second.length ≤ first.length := by
  apply Nat.le_of_not_lt
  intro longer
  obtain ⟨between, rfl, rfl⟩ : ∃ between, second = first ++ between ∧ more = between ++ others := by
    rcases List.append_eq_append_iff.mp same with ⟨between, rest, whole⟩ | ⟨between, rest, whole⟩
    · exact ⟨between, rest, whole⟩
    · have size := congrArg List.length rest
      rw [List.length_append] at size
      omega
  rw [encodeAll_append, List.append_assoc] at split
  have parts := List.append_cancel_left split
  cases between with
  | nil =>
      rw [List.append_nil] at longer
      omega
  | cons frame rest =>
      have short := pends.incomplete frame (rest ++ others) rfl
      have size := congrArg List.length parts
      rw [encodeAll_cons, List.append_assoc, List.length_append, encode_length] at size
      omega

theorem pending_unique (pends' : Pending factory others behind) :
    first = second ∧ more = others ∧ ahead = behind := by
  have below := pending_shorter same split pends
  have above := pending_shorter same.symm split.symm pends'
  obtain ⟨rfl, rfl⟩ := List.append_inj same (Nat.le_antisymm above below)
  exact ⟨rfl, rfl, List.append_cancel_left split⟩

end

/-- The whole frame is read, and what is reported is an exception. -/
theorem swallowed {factory : ByteOrder} (announced : ∀ frame ∈ frames, Announced frame)
    (stands : Stands factory frames done left stream pending handler) {bytes : List Byte}
    {frame : List Byte} {rest : List (List Byte)} (first : left = frame :: rest)
    (short : pending.length < 4) (whole : pending ++ bytes = encode factory frame)
    (enough : 0 < fuel)
    (growing : replayable.buffer.IsDynamic factory)
    (content : replayable.buffer.readableContent = handler.decoder.unread ++ bytes)
    (front : replayable.buffer.readerIdx = 0) :
    ∃ after, (ReplayingDecoder.callDecode subclass handler.decoder.unfold_ fuel).run
      (starting handler replayable) = .error (ReplayingDecoder.noProgress subclass.typeName) after := by
  obtain ⟨fuel, rfl⟩ : ∃ less, fuel = less + 1 := ⟨fuel - 1, by omega⟩
  have fits : Announced frame := by
    apply announced frame
    rw [stands.frames, first]
    exact List.mem_append_right _ List.mem_cons_self
  cases stands.rests with
  | length _ state kept =>
      rw [kept, whole] at content
      exact ⟨_, ReplayingDecoder.callDecode_stops
        (round_length_swallowed growing rfl state fits content front)⟩
  | content _ long _ _ _ => omega

/-- A delivery that does not pass ends the run or is reported. -/
theorem fails_step (own : config.channelOwnBuffer = false)
    (announced : ∀ frame ∈ frames, Announced frame)
    (stands : Stands config.bufferFactory frames done left stream pending handler)
    (sound : input.Sound) (present : input.readableContent ≠ [])
    (refused : ¬Passes config.bufferFactory frames stream input.readableContent)
    (enough : 0 < fuel) :
    (∃ stop, ReplayReception.messageReceived subclass config fuel handler input = .error stop) ∨
      ∃ next exception,
        ReplayReception.messageReceived subclass config fuel handler input = .ok next ∧
        .exceptionCaught exception ∈ next.fired := by
  have readable := sound.readable_iff.mpr present
  obtain ⟨stop, after, ran⟩ : ∃ stop after,
      (ReplayingDecoder.receiveBuffer subclass config fuel input false).run handler =
        .error stop after := by
    by_cases room : handler.decoder.unread.length + input.readableContent.length ≤ 1073741824
    · obtain ⟨replayable, growing, content, front, -, got⟩ :=
        ReplayingDecoder.getCumulation_run own stands.holding sound present room
      obtain ⟨frame, rest, first, short, whole⟩ : ∃ frame rest, left = frame :: rest ∧
          pending.length < 4 ∧
          pending ++ input.readableContent = encode config.bufferFactory frame := by
        by_contra none
        apply refused
        intro done' left' pending' frames' split' pends'
        obtain ⟨rfl, rfl, rfl⟩ := pending_unique (stands.frames.symm.trans frames')
          (stands.split.symm.trans split') stands.pends pends'
        constructor
        · rw [← stands.rests.kept_eq]
          exact room
        · intro frame rest first short whole
          exact none ⟨frame, rest, first, short, whole⟩
      obtain ⟨after, looped⟩ := swallowed announced stands first short whole enough growing content
        front
      have stopped : (ReplayingDecoder.onCumulation
          (ReplayingDecoder.callDecode subclass handler.decoder.unfold_ fuel)).run
          (ReplayingDecoder.cumulating handler replayable) = .error _ _ := run_focus_error looped
      exact ⟨_, _, (ReplayingDecoder.receiveBuffer_loops subclass fuel readable got).trans stopped⟩
    · obtain ⟨stop, after, got, -⟩ := ReplayingDecoder.getCumulation_refused own stands.holding sound
        (Nat.lt_of_not_le room)
      exact ⟨stop, after, ReplayingDecoder.receiveBuffer_refused subclass fuel readable got⟩
  rcases ReplayReception.messageReceived_stops ran with ended | ⟨exception, reported⟩
  · exact Or.inl ended
  · exact Or.inr ⟨_, exception, reported, List.mem_append_right _ List.mem_cons_self⟩

end Delivery

section Runs

variable {config : ChannelConfig} {fuel : Nat} {frames done left : List (List Byte)}
  {stream pending : List Byte} {handler : ReplayReception IntegerHeaderFrameDecoder}

def streamOf (received : List ChannelBuffer) : List Byte :=
  (received.map readableContent).flatten

theorem streamOf_cons (input : ChannelBuffer) (rest : List ChannelBuffer) :
    streamOf (input :: rest) = input.readableContent ++ streamOf rest := by
  simp [streamOf]

/-- Every delivery passes, those in front of it taken into account. -/
def Harmless (factory : ByteOrder) (frames : List (List Byte)) (stream : List Byte)
    (received : List ChannelBuffer) : Prop :=
  ∀ front input back, received = front ++ input :: back →
    Passes factory frames (stream ++ streamOf front) input.readableContent

theorem harmless_cons {factory : ByteOrder} {input : ChannelBuffer} {rest : List ChannelBuffer} :
    Harmless factory frames stream (input :: rest) ↔
      Passes factory frames stream input.readableContent ∧
        Harmless factory frames (stream ++ input.readableContent) rest := by
  constructor
  · intro harmless
    constructor
    · have first := harmless [] input rest rfl
      rw [streamOf, List.map_nil, List.flatten_nil, List.append_nil] at first
      exact first
    · intro front later back split
      have further := harmless (input :: front) later back (by rw [split]; rfl)
      rw [streamOf_cons, ← List.append_assoc] at further
      exact further
  · intro holds front later back split
    cases front with
    | nil =>
        cases split
        rw [streamOf, List.map_nil, List.flatten_nil, List.append_nil]
        exact holds.1
    | cons first others =>
        cases split
        rw [streamOf_cons, ← List.append_assoc]
        exact holds.2 others later back rfl

section

variable (own : config.channelOwnBuffer = false)
  (announced : ∀ frame ∈ frames, Announced frame) (received : List ChannelBuffer)
  (stands : Stands config.bufferFactory frames done left stream pending handler)
  (sound : ∀ input ∈ received, input.Sound ∧ input.readableContent ≠ [])
  (begins : stream ++ streamOf received <+: encodeAll config.bufferFactory frames)

include own announced received stands sound begins

/-- When every delivery passes, the decoder stands where the stream says. -/
theorem stands_run (harmless : Harmless config.bufferFactory frames stream received)
    (enough : (stream ++ streamOf received).length < fuel) :
    ∃ final done' left' pending',
      handler.receiveAll subclass config fuel received = .ok final ∧
      Stands config.bufferFactory frames done' left' (stream ++ streamOf received) pending'
        final := by
  induction received generalizing stream pending done left handler with
  | nil =>
      refine ⟨handler, done, left, pending, rfl, ?_⟩
      rw [streamOf, List.map_nil, List.flatten_nil, List.append_nil]
      exact stands
  | cons input rest ih =>
      rw [streamOf_cons, ← List.append_assoc] at begins enough ⊢
      have first := sound input List.mem_cons_self
      obtain ⟨passes, onward⟩ := harmless_cons.mp harmless
      have within :=
        (List.prefix_append (stream ++ input.readableContent) (streamOf rest)).length_le
      obtain ⟨next, done', left', pending', step, stands'⟩ := stands_step own announced stands
        first.1 first.2 ((List.prefix_append _ _).trans begins) passes
        (Nat.lt_of_le_of_lt within enough)
      rw [ReplayReception.receiveAll_cons step]
      exact ih stands' (fun later member => sound later (List.mem_cons_of_mem _ member)) begins
        onward enough

/-- A run that fires the frames and nothing else had nothing but deliveries that pass. -/
theorem harmless_of_fired (enough : (stream ++ streamOf received).length < fuel)
    {final : ReplayReception IntegerHeaderFrameDecoder}
    (ran : handler.receiveAll subclass config fuel received = .ok final)
    (fired : ∀ event ∈ final.fired, ∀ exception, event ≠ .exceptionCaught exception) :
    Harmless config.bufferFactory frames stream received := by
  induction received generalizing stream pending done left handler with
  | nil =>
      intro front input back split
      cases front <;> cases split
  | cons input rest ih =>
      rw [streamOf_cons, ← List.append_assoc] at begins enough
      have first := sound input List.mem_cons_self
      have within :=
        (List.prefix_append (stream ++ input.readableContent) (streamOf rest)).length_le
      by_cases passes : Passes config.bufferFactory frames stream input.readableContent
      · obtain ⟨next, done', left', pending', step, stands'⟩ := stands_step own announced stands
          first.1 first.2 ((List.prefix_append _ _).trans begins) passes
          (Nat.lt_of_le_of_lt within enough)
        rw [ReplayReception.receiveAll_cons step] at ran
        exact harmless_cons.mpr ⟨passes, ih stands'
          (fun later member => sound later (List.mem_cons_of_mem _ member)) begins enough ran⟩
      · exfalso
        rcases fails_step own announced stands first.1 first.2 passes
          (Nat.zero_lt_of_lt enough) with ⟨stop, ended⟩ | ⟨next, exception, step, raised⟩
        · unfold ReplayReception.receiveAll at ran
          rw [List.foldlM_cons, ended] at ran
          cases ran
        · rw [ReplayReception.receiveAll_cons step] at ran
          have stays := ReplayReception.receiveAll_fired silent rest ran
          exact fired _ (stays.subset raised) exception rfl

end

/-- The decoder fires the frames and nothing else, and between two deliveries it keeps the bytes
behind the last checkpoint. -/
structure Replays (config : ChannelConfig) (fuel : Nat) (frames : List (List Byte))
    (handler : ReplayReception IntegerHeaderFrameDecoder) (received : List ChannelBuffer) :
    Prop where
  fires : ∃ final, handler.receiveAll subclass config fuel received = .ok final ∧
    final.fired.map UpstreamEvent.frameBytes = frames.map some
  rewinds : ∀ front back, received = front ++ back → ∃ between done left pending,
    handler.receiveAll subclass config fuel front = .ok between ∧ frames = done ++ left ∧
    streamOf front = encodeAll config.bufferFactory done ++ pending ∧
    Pending config.bufferFactory left pending ∧
    between.decoder.unread = sinceCheckpoint pending

end Runs

section Replay

variable {config : ChannelConfig} {fuel : Nat} {frames : List (List Byte)}

theorem streamOf_append (front back : List ChannelBuffer) :
    streamOf (front ++ back) = streamOf front ++ streamOf back := by
  simp [streamOf]

theorem Harmless.front {factory : ByteOrder} {front back : List ChannelBuffer}
    (harmless : Harmless factory frames [] (front ++ back)) : Harmless factory frames [] front := by
  intro earlier input later split
  exact harmless earlier input (later ++ back) (by rw [split, List.append_assoc]; rfl)

/-- All of the frames leave nothing over. -/
theorem pending_all (factory : ByteOrder) : Pending factory [] [] := by
  refine ⟨List.nil_prefix, ?_⟩
  intro frame rest impossible
  cases impossible

/-- Frames that can be announced, in buffers that each hold something, whole and cut anywhere. -/
structure Cut (factory : ByteOrder) (frames : List (List Byte)) (received : List ChannelBuffer) :
    Prop where
  announced : ∀ frame ∈ frames, Announced frame
  sound : ∀ input ∈ received, input.Sound ∧ input.readableContent ≠ []
  whole : streamOf received = encodeAll factory frames

/-- The example decoder replays without loss exactly when no frame ends in a buffer that begins
before the fifth byte of that frame. -/
theorem replays_iff_harmless (config : ChannelConfig) (own : config.channelOwnBuffer = false)
    (unfold_ : Bool) (length : Int) (frames : List (List Byte)) (received : List ChannelBuffer)
    (cut : Cut config.bufferFactory frames received) (fuel : Nat)
    (enough : (streamOf received).length < fuel) :
    Replays config fuel frames (fresh unfold_ length) received ↔
      Harmless config.bufferFactory frames [] received := by
  have start := stands_fresh config.bufferFactory unfold_ length frames
  have begins : [] ++ streamOf received <+: encodeAll config.bufferFactory frames := by
    refine ⟨[], ?_⟩
    rw [List.append_nil, List.nil_append]
    exact cut.whole
  constructor
  · intro replays
    obtain ⟨final, ran, fired⟩ := replays.fires
    refine harmless_of_fired own cut.announced received start cut.sound begins enough ran ?_
    intro event member exception raised
    have shown : event.frameBytes ∈ frames.map some := by
      rw [← fired]
      exact List.mem_map_of_mem member
    rw [raised] at shown
    obtain ⟨frame, -, impossible⟩ := List.mem_map.mp shown
    cases impossible
  · intro harmless
    constructor
    · obtain ⟨final, done, left, pending, ran, stands⟩ := stands_run own cut.announced received
        start cut.sound begins harmless enough
      have same : done ++ left = frames ++ [] := by
        rw [List.append_nil]
        exact stands.frames.symm
      have split : encodeAll config.bufferFactory done ++ pending =
          encodeAll config.bufferFactory frames ++ [] := by
        rw [List.append_nil, ← cut.whole]
        exact stands.split.symm
      obtain ⟨rfl, -, -⟩ := pending_unique same split stands.pends (pending_all _)
      exact ⟨final, ran, stands.fired⟩
    · intro front back split
      subst split
      rw [streamOf_append] at begins enough
      have sooner : [] ++ streamOf front <+: encodeAll config.bufferFactory frames :=
        (List.prefix_append (streamOf front) (streamOf back)).trans begins
      have within := (List.prefix_append (streamOf front) (streamOf back)).length_le
      obtain ⟨between, done, left, pending, ran, stands⟩ := stands_run own cut.announced front
        start (fun input member => cut.sound input (List.mem_append_left _ member)) sooner
        harmless.front (Nat.lt_of_le_of_lt within enough)
      exact ⟨between, done, left, pending, ran, stands.frames, stands.split, stands.pends,
        stands.rests.kept_eq⟩

/-- One way to see the frame that has begun is enough. -/
theorem passes_of_pending {factory : ByteOrder} {done left : List (List Byte)}
    {stream pending bytes : List Byte} (split : frames = done ++ left)
    (begun : stream = encodeAll factory done ++ pending) (pends : Pending factory left pending)
    (room : (sinceCheckpoint pending).length + bytes.length ≤ 1073741824)
    (clear : ∀ frame rest, left = frame :: rest → pending.length < 4 →
      pending ++ bytes ≠ encode factory frame) : Passes factory frames stream bytes := by
  intro done' left' pending' split' begun' pends'
  obtain ⟨rfl, rfl, rfl⟩ := pending_unique (split.symm.trans split')
    (begun.symm.trans begun') pends pends'
  exact ⟨room, clear⟩

def received (bytes : CharArray) : ChannelBuffer :=
  .heap ⟨.big, bytes, ⟨0, bytes.length, 0, 0⟩⟩

/-- The second frame is cut behind its length. -/
theorem two_frames_replayed :
    Replays ⟨false, .big⟩ 12 [[7], [8, 9]] (fresh false 0)
      [received [0, 0, 0, 1, 7, 0, 0, 0, 2], received [8, 9]] := by
  refine (replays_iff_harmless ⟨false, .big⟩ rfl false 0 [[7], [8, 9]] _ ⟨?_, ?_, rfl⟩ 12
    (by decide)).mpr ?_
  · intro frame member
    simp only [List.mem_cons, List.not_mem_nil, or_false] at member
    rcases member with rfl | rfl
    · exact ⟨by decide, by decide⟩
    · exact ⟨by decide, by decide⟩
  · intro input member
    simp only [List.mem_cons, List.not_mem_nil, or_false] at member
    rcases member with rfl | rfl
    · exact ⟨heap_sound (by decide) ⟨by decide, by decide, by decide⟩, by decide⟩
    · exact ⟨heap_sound (by decide) ⟨by decide, by decide, by decide⟩, by decide⟩
  · apply harmless_cons.mpr
    constructor
    · have begun : Pending .big [[7], [8, 9]] [] := by
        refine ⟨List.nil_prefix, ?_⟩
        intro frame rest _
        rw [List.length_nil]
        omega
      refine passes_of_pending (List.nil_append _).symm rfl begun (by decide) ?_
      intro frame rest first _
      cases first
      decide
    · apply harmless_cons.mpr
      constructor
      · have begun : Pending .big [[8, 9]] [0, 0, 0, 2] := by
          refine ⟨⟨[8, 9], by decide⟩, ?_⟩
          intro frame rest first
          cases first
          decide
        have split : [[7], [8, 9]] = [[7]] ++ [([8, 9] : List Byte)] := rfl
        refine passes_of_pending split rfl begun (by decide) ?_
        intro frame rest _ short
        exact absurd short (by decide)
      · intro front input back split
        cases front <;> cases split

/-- A frame that arrives whole by itself. -/
theorem single_frame_lost :
    (((fresh false 0).receiveAll subclass ⟨false, .big⟩ 6 [received [0, 0, 0, 1, 7]]).map
      fun final => final.fired.map UpstreamEvent.frameBytes) = .ok [none] ∧
    Cut .big [[7]] [received [0, 0, 0, 1, 7]] ∧
    ¬Replays ⟨false, .big⟩ 6 [[7]] (fresh false 0) [received [0, 0, 0, 1, 7]] := by
  have lost : (((fresh false 0).receiveAll subclass ⟨false, .big⟩ 6
      [received [0, 0, 0, 1, 7]]).map fun final => final.fired.map UpstreamEvent.frameBytes) =
      .ok [none] := by decide +kernel
  refine ⟨lost, ⟨?_, ?_, rfl⟩, ?_⟩
  · intro frame member
    rw [List.mem_singleton] at member
    subst member
    exact ⟨by decide, by decide⟩
  · intro input member
    rw [List.mem_singleton] at member
    subst member
    exact ⟨heap_sound (by decide) ⟨by decide, by decide, by decide⟩, by decide⟩
  · intro replays
    obtain ⟨final, ran, fired⟩ := replays.fires
    rw [ran] at lost
    have same : final.fired.map UpstreamEvent.frameBytes = [none] := Except.ok.inj lost
    rw [fired] at same
    cases same

end Replay

end IntegerHeaderFrameDecoder

end Cetty
