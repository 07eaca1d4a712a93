import Cetty.ReadProgress

/-!
# Datagram reception

`AsioDatagramChannel` receives every datagram into its one read buffer and hands
that buffer to the handlers as the message. Where the next datagram is put
depends on where they leave the indices.
-/

namespace Cetty

open MachineInt ByteWindow

/-- The receiving half of `AsioDatagramChannel`. -/
structure DatagramReceiver where
  readBuffer : HeapChannelBuffer
  /-- The window of the outstanding `async_receive_from`. -/
  receiving : Option ReadWindow
  /-- The windows of all receives so far. -/
  windows : List ReadWindow
  /-- The readable bytes of the messages fired so far. -/
  messages : List CharArray
  closeRequests : Nat
  deriving Repr

/-- A datagram, with the reads the handler makes of a message. -/
structure Arrival where
  datagram : CharArray
  reads : CharArray → List ReadOp

namespace DatagramReceiver

/-- What the constructor makes of `getChannelOwnBufferSize()`. -/
def create (order : ByteOrder) (channelOwnBufferSize : Int) : Except Stop DatagramReceiver := do
  let readBuffer ← ChannelBuffer.allocate order channelOwnBufferSize
  pure ⟨readBuffer, none, [], [], 0⟩

def asyncReceiveFrom : Exec DatagramReceiver Unit := do
  let window ← call (← get).readBuffer.writableArray
  modify fun this =>
    { this with receiving := some window, windows := this.windows ++ [window] }

def startChannel : Exec DatagramReceiver Unit := asyncReceiveFrom

def fireMessageReceived (reads : CharArray → List ReadOp) (this : DatagramReceiver) :
    DatagramReceiver :=
  { this with
    readBuffer := this.readBuffer.afterReads (reads this.readBuffer.readable)
    messages := this.messages ++ [this.readBuffer.readable] }

def handleReceiveFrom (error : Bool) (bytesTransferred : Nat)
    (reads : CharArray → List ReadOp) : Exec DatagramReceiver Unit := do
  if error then
    modify fun this => { this with closeRequests := this.closeRequests + 1 }
  else
    let moved ← call ((← get).readBuffer.offsetWriterIndex bytesTransferred)
    modify fun this => fireMessageReceived reads { this with readBuffer := moved }
    asyncReceiveFrom

/-- The receive is over: the socket has put into the window what it holds of the
datagram. -/
def received (this : DatagramReceiver) (window : ReadWindow) (datagram : CharArray) :
    DatagramReceiver :=
  { this with
    readBuffer := this.readBuffer.fill window (datagram.take window.length)
    receiving := none }

/-- A datagram arrives. Without an outstanding receive it is not read. -/
def arrive (this : DatagramReceiver) (arrival : Arrival) : DatagramReceiver :=
  match this.receiving with
  | none => this
  | some window =>
      stateAfter
        (handleReceiveFrom false (arrival.datagram.take window.length).length arrival.reads)
        (this.received window arrival.datagram)

def arrivals (this : DatagramReceiver) (incoming : List Arrival) : DatagramReceiver :=
  incoming.foldl arrive this

theorem arrive_idle {this : DatagramReceiver} (idle : this.receiving = none)
    (arrival : Arrival) : this.arrive arrival = this := by
  unfold arrive
  rw [idle]

theorem arrivals_idle {this : DatagramReceiver} (idle : this.receiving = none)
    (incoming : List Arrival) : this.arrivals incoming = this := by
  induction incoming with
  | nil => rfl
  | cons arrival rest ih =>
      unfold arrivals at ih ⊢
      rw [List.foldl_cons, arrive_idle idle, ih]

section Outcomes

variable {this : DatagramReceiver} {window : ReadWindow} {arrival : Arrival}

/-- The writer index would leave the array: the handler ends with the exception. -/
theorem arrive_refused (waiting : this.receiving = some window) {stop : Stop}
    (refused : (this.received window arrival.datagram).readBuffer.offsetWriterIndex
      ((arrival.datagram.take window.length).length : Nat) = .error stop) :
    this.arrive arrival = this.received window arrival.datagram := by
  unfold arrive
  rw [waiting]
  simp only [stateAfter, handleReceiveFrom, if_neg Bool.false_ne_true]
  rw [run_bind_get]
  rw [refused]
  rfl

theorem arrive_fires (waiting : this.receiving = some window) {moved : HeapChannelBuffer}
    (offset : (this.received window arrival.datagram).readBuffer.offsetWriterIndex
      ((arrival.datagram.take window.length).length : Nat) = .ok moved) :
    this.arrive arrival = stateAfter asyncReceiveFrom (fireMessageReceived arrival.reads
      { this.received window arrival.datagram with readBuffer := moved }) := by
  unfold arrive
  rw [waiting]
  simp only [stateAfter, handleReceiveFrom, if_neg Bool.false_ne_true]
  rw [run_bind_get]
  rw [offset]
  rfl

theorem resumed (room : this.readBuffer.writableArray = .ok window) :
    stateAfter asyncReceiveFrom this =
      { this with receiving := some window, windows := this.windows ++ [window] } := by
  unfold stateAfter asyncReceiveFrom
  rw [run_bind_get]
  rw [room]
  rfl

theorem not_resumed (this : DatagramReceiver) {stop : Stop} (full : this.readBuffer.writableArray = .error stop) :
    stateAfter asyncReceiveFrom this = this := by
  unfold stateAfter asyncReceiveFrom
  rw [run_bind_get]
  rw [full]
  rfl

end Outcomes

/-- What a later state has fired and started beyond an earlier one. -/
structure Grows (before after : DatagramReceiver) (rounds : Nat) : Prop where
  messages : ∃ fired, after.messages = before.messages ++ fired ∧ fired.length ≤ rounds
  windows : ∃ started, after.windows = before.windows ++ started

theorem Grows.refl (this : DatagramReceiver) (rounds : Nat) : Grows this this rounds :=
  ⟨⟨[], by simp, Nat.zero_le _⟩, ⟨[], by simp⟩⟩

theorem Grows.trans {first second third : DatagramReceiver} {early late : Nat}
    (before : Grows first second early) (after : Grows second third late) :
    Grows first third (early + late) := by
  obtain ⟨⟨fired, messages, few⟩, ⟨started, windows⟩⟩ := before
  obtain ⟨⟨fired', messages', few'⟩, ⟨started', windows'⟩⟩ := after
  refine ⟨⟨fired ++ fired', ?_, ?_⟩, ⟨started ++ started', ?_⟩⟩
  · rw [messages', messages, List.append_assoc]
  · rw [List.length_append]
    omega
  · rw [windows', windows, List.append_assoc]

section

variable (this : DatagramReceiver)

include this

theorem grows_resumed :
    Grows this (stateAfter asyncReceiveFrom this) 0 := by
  cases room : this.readBuffer.writableArray with
  | ok window =>
      rw [resumed room]
      exact ⟨⟨[], by simp, Nat.le_refl _⟩, ⟨[window], rfl⟩⟩
  | error stop =>
      rw [not_resumed this room]
      exact Grows.refl _ _

theorem messages_resumed :
    (stateAfter asyncReceiveFrom this).messages = this.messages := by
  cases room : this.readBuffer.writableArray with
  | ok window => rw [resumed room]
  | error stop => rw [not_resumed this room]

/-- A datagram fires at most one message. -/
theorem grows_arrive (arrival : Arrival) :
    Grows this (this.arrive arrival) 1 := by
  cases waiting : this.receiving with
  | none =>
      rw [arrive_idle waiting]
      exact Grows.refl _ _
  | some window =>
      cases offset : (this.received window arrival.datagram).readBuffer.offsetWriterIndex
          ((arrival.datagram.take window.length).length : Nat) with
      | error stop =>
          rw [arrive_refused waiting offset]
          exact ⟨⟨[], by simp [received], Nat.zero_le _⟩, ⟨[], by simp [received]⟩⟩
      | ok moved =>
          rw [arrive_fires waiting offset]
          have fires : Grows this (fireMessageReceived arrival.reads
              { this.received window arrival.datagram with readBuffer := moved }) 1 :=
            ⟨⟨[moved.readable], rfl, Nat.le_refl _⟩, ⟨[], by simp [fireMessageReceived, received]⟩⟩
          exact fires.trans (grows_resumed _)

theorem grows_arrivals (incoming : List Arrival) :
    Grows this (this.arrivals incoming) incoming.length := by
  induction incoming generalizing this with
  | nil => exact Grows.refl _ _
  | cons arrival rest ih =>
      have step := (grows_arrive this arrival).trans (ih (this.arrive arrival))
      rw [Nat.add_comm] at step
      exact step

end

/-- A receive is outstanding, at the indices the buffer stands at. -/
structure Waiting (this : DatagramReceiver) (capacity reader writer : Nat) : Prop where
  size : this.readBuffer.arry.length = capacity
  stands : this.readBuffer.Stands reader writer
  receiving : this.receiving = some ⟨writer, capacity - reader⟩

section Rounds

variable {this : DatagramReceiver} {capacity reader writer : Nat} {arrival : Arrival}

section

variable (waiting : this.Waiting capacity reader writer) {bytes : CharArray}
  (taken : arrival.datagram.take (capacity - reader) = bytes)

include waiting taken

/-- The datagram is cut to the window and put behind the bytes that are left; the
next receive starts where the handler leaves the indices. -/
theorem Waiting.arrive_fits (fits : writer + bytes.length ≤ capacity)
    (prefixes : ReadOp.Fits (arrival.reads (this.readBuffer.readable ++ bytes))
      (writer + bytes.length - reader)) :
    ∃ read : HeapChannelBuffer, read.arry.length = capacity ∧
      (if ReadOp.compacting (arrival.reads (this.readBuffer.readable ++ bytes))
          (writer + bytes.length - reader) then read.Stands 0 0
        else read.Stands (reader + ReadOp.total (arrival.reads (this.readBuffer.readable ++ bytes))
          (writer + bytes.length - reader)) (writer + bytes.length)) ∧
      this.arrive arrival = stateAfter asyncReceiveFrom
        { this with
          readBuffer := read
          receiving := none
          messages := this.messages ++ [this.readBuffer.readable ++ bytes] } := by
  obtain ⟨size, stands, receiving⟩ := waiting
  have filled := stands.fill bytes (capacity - reader)
  have shown := stands.filled bytes (capacity - reader)
    (by rw [size]; exact fits)
  have stored : (this.received ⟨writer, capacity - reader⟩ arrival.datagram).readBuffer =
      this.readBuffer.fill ⟨writer, capacity - reader⟩ bytes := by
    simp only [received]
    rw [taken]
  obtain ⟨moved, offset, arry, stands'⟩ := filled.2.offsetWriterIndex bytes.length
    (by rw [filled.1, size]; exact fits)
  have readable : moved.readable = this.readBuffer.readable ++ bytes := by
    rw [stands'.readable_eq, arry, shown]
  have reads := stands'.afterReads prefixes
  refine ⟨moved.afterReads (arrival.reads (this.readBuffer.readable ++ bytes)), ?_, reads.2, ?_⟩
  · rw [reads.1, arry, filled.1, size]
  · rw [← stored] at offset
    rw [← taken] at offset
    rw [arrive_fires receiving offset]
    unfold fireMessageReceived received
    simp only
    rw [readable]

/-- A datagram that does not fit behind the bytes that are left ends the reception. -/
theorem Waiting.arrive_beyond (outside : capacity < writer + bytes.length) :
    (this.arrive arrival).receiving = none ∧ (this.arrive arrival).messages = this.messages := by
  obtain ⟨size, stands, receiving⟩ := waiting
  have filled := stands.fill bytes (capacity - reader)
  have single : bytes.length ≤ capacity := by
    rw [← taken, List.length_take]
    omega
  have refused := filled.2.offsetWriterIndex_beyond bytes.length
    (by rw [filled.1, size]; exact single) (by rw [filled.1, size]; exact outside)
  have stored : (this.received ⟨writer, capacity - reader⟩ arrival.datagram).readBuffer =
      this.readBuffer.fill ⟨writer, capacity - reader⟩ bytes := by
    simp only [received]
    rw [taken]
  rw [← stored, ← taken] at refused
  rw [arrive_refused receiving refused]
  exact ⟨rfl, rfl⟩

end

/-- A receive is started where the indices stand, if there is room behind them. -/
theorem waiting_resumed (this : DatagramReceiver) (size : this.readBuffer.arry.length = capacity)
    (stands : this.readBuffer.Stands reader writer) (room : writer = 0 ∨ writer < capacity) :
    (stateAfter asyncReceiveFrom this).Waiting capacity reader writer ∧
      (stateAfter asyncReceiveFrom this).messages = this.messages ∧
      (stateAfter asyncReceiveFrom this).windows =
        this.windows ++ [⟨writer, capacity - reader⟩] := by
  have window := stands.writableArray (by rw [size]; exact room)
  rw [size] at window
  rw [resumed window]
  exact ⟨⟨size, stands, rfl⟩, rfl, rfl⟩

end Rounds

end DatagramReceiver

namespace Arrival

/-- The handler reads a prefix of whatever message it receives. -/
def ReadsPrefixes (arrival : Arrival) : Prop :=
  ∀ content : CharArray, ReadOp.Fits (arrival.reads content) content.length

def drains (arrival : Arrival) : Bool :=
  ReadOp.compacting (arrival.reads arrival.datagram) arrival.datagram.length

def consumed (arrival : Arrival) : Nat :=
  ReadOp.total (arrival.reads arrival.datagram) arrival.datagram.length

/-- The handler leaves the indices at the front of the buffer: there was nothing
to read, or it read the rest with `readBytes(int)` or `readSlice()`. -/
def Rewinds (arrival : Arrival) : Prop := arrival.datagram = [] ∨ arrival.drains = true

/-- Each datagram but the last leaves the indices at the front. Behind the last
one it is enough that nothing was read, or that no room is left for a receive. -/
def KeepsClear (capacity : Nat) : List Arrival → Prop
  | [] => True
  | [last] => last.Rewinds ∨ last.consumed = 0 ∨ last.datagram.length = capacity
  | arrival :: next :: rest => arrival.Rewinds ∧ KeepsClear capacity (next :: rest)

theorem keepsClear_of_rewinds {capacity : Nat} {arrival : Arrival} (rewinds : arrival.Rewinds)
    (rest : List Arrival) : KeepsClear capacity (arrival :: rest) ↔ KeepsClear capacity rest := by
  cases rest with
  | nil =>
      simp only [KeepsClear]
      exact ⟨fun _ => trivial, fun _ => Or.inl rewinds⟩
  | cons next rest =>
      simp only [KeepsClear]
      exact ⟨fun clear => clear.2, fun clear => ⟨rewinds, clear⟩⟩

end Arrival

namespace DatagramReceiver

section Fresh

variable {this : DatagramReceiver} {capacity : Nat} {arrival : Arrival}

section

variable (waiting : this.Waiting capacity 0 0)

include waiting

section

variable (short : arrival.datagram.length ≤ capacity) (prefixes : arrival.ReadsPrefixes)

include short prefixes

/-- A datagram received at the front of the buffer is the message. -/
theorem Waiting.arrive_front :
    ∃ read : HeapChannelBuffer, read.arry.length = capacity ∧
      (if arrival.drains then read.Stands 0 0
        else read.Stands arrival.consumed arrival.datagram.length) ∧
      this.arrive arrival = stateAfter asyncReceiveFrom
        { this with
          readBuffer := read
          receiving := none
          messages := this.messages ++ [arrival.datagram] } := by
  have blank : this.readBuffer.readable = [] :=
    List.length_eq_zero_iff.mp waiting.stands.readable_length
  have whole : arrival.datagram.take (capacity - 0) = arrival.datagram :=
    List.take_of_length_le short
  have all := prefixes arrival.datagram
  obtain ⟨read, size, stands, arrives⟩ := waiting.arrive_fits whole (by omega) (by
    rw [blank, List.nil_append, Nat.zero_add, Nat.sub_zero]
    exact all)
  rw [blank, List.nil_append] at arrives
  rw [blank, List.nil_append, Nat.zero_add, Nat.zero_add, Nat.sub_zero] at stands
  exact ⟨read, size, stands, arrives⟩

theorem Waiting.arrive_rewinds (rewinds : arrival.Rewinds) :
    (this.arrive arrival).Waiting capacity 0 0 ∧
      (this.arrive arrival).messages = this.messages ++ [arrival.datagram] ∧
      (this.arrive arrival).windows = this.windows ++ [⟨0, capacity⟩] := by
  obtain ⟨read, size, stands, arrives⟩ := waiting.arrive_front short prefixes
  have front : read.Stands 0 0 := by
    rcases rewinds with nothing | drains
    · have unread : arrival.consumed = 0 := by
        have bounded := ReadOp.total_le _ (prefixes arrival.datagram)
        unfold Arrival.consumed
        rw [nothing] at bounded ⊢
        exact Nat.le_zero.mp bounded
      rw [unread, nothing] at stands
      split at stands <;> exact stands
    · rw [if_pos drains] at stands
      exact stands
  rw [arrives]
  exact waiting_resumed { this with
    readBuffer := read
    receiving := none
    messages := this.messages ++ [arrival.datagram] } size front (Or.inl rfl)

end

theorem Waiting.arrive_remains
    (short : arrival.datagram.length < capacity) (prefixes : arrival.ReadsPrefixes)
    (keeps : arrival.drains = false) :
    (this.arrive arrival).Waiting capacity arrival.consumed arrival.datagram.length ∧
      (this.arrive arrival).messages = this.messages ++ [arrival.datagram] ∧
      (this.arrive arrival).windows =
        this.windows ++ [⟨arrival.datagram.length, capacity - arrival.consumed⟩] := by
  obtain ⟨read, size, stands, arrives⟩ :=
    waiting.arrive_front (Nat.le_of_lt short) prefixes
  rw [keeps, if_neg Bool.false_ne_true] at stands
  rw [arrives]
  exact waiting_resumed { this with
    readBuffer := read
    receiving := none
    messages := this.messages ++ [arrival.datagram] } size stands (Or.inr short)

/-- Behind a datagram that fills the buffer and is not drained no receive starts. -/
theorem Waiting.arrive_fills
    (full : arrival.datagram.length = capacity) (prefixes : arrival.ReadsPrefixes)
    (keeps : ¬arrival.Rewinds) :
    (this.arrive arrival).receiving = none ∧
      (this.arrive arrival).messages = this.messages ++ [arrival.datagram] ∧
      (this.arrive arrival).windows = this.windows := by
  obtain ⟨read, size, stands, arrives⟩ :=
    waiting.arrive_front (Nat.le_of_eq full) prefixes
  have undrained : arrival.drains = false := by
    cases drains : arrival.drains with
    | true => exact absurd (Or.inr drains) keeps
    | false => rfl
  have some_ : arrival.datagram.length ≠ 0 := by
    intro nothing
    exact keeps (Or.inl (List.length_eq_zero_iff.mp nothing))
  rw [undrained, if_neg Bool.false_ne_true] at stands
  have none_left := stands.writableArray_full some_ (by rw [size, full])
  rw [arrives, not_resumed { this with
    readBuffer := read
    receiving := none
    messages := this.messages ++ [arrival.datagram] } none_left]
  exact ⟨rfl, rfl, rfl⟩

end

/-- What a run of datagrams may fire and start, counted from any state. -/
def Separate (this : DatagramReceiver) (capacity : Nat) (incoming : List Arrival) : Prop :=
  (this.arrivals incoming).messages = this.messages ++ incoming.map Arrival.datagram ∧
    ∀ window ∈ (this.arrivals incoming).windows, capacity ≤ window.length

/-- Bytes left by one datagram are in the way of the next one. -/
theorem not_separate (waiting : this.Waiting capacity 0 0) {next : Arrival}
    {rest : List Arrival} (short : arrival.datagram.length ≤ capacity)
    (short' : next.datagram.length ≤ capacity) (prefixes : arrival.ReadsPrefixes)
    (prefixes' : next.ReadsPrefixes) (keeps : ¬arrival.Rewinds) :
    ¬this.Separate capacity (arrival :: next :: rest) := by
  rintro ⟨messages, windows⟩
  have undrained : arrival.drains = false := by
    cases drains : arrival.drains with
    | true => exact absurd (Or.inr drains) keeps
    | false => rfl
  have some_ : arrival.datagram.length ≠ 0 := by
    intro nothing
    exact keeps (Or.inl (List.length_eq_zero_iff.mp nothing))
  change ((this.arrive arrival).arrivals (next :: rest)).messages = _ at messages
  change ∀ window ∈ ((this.arrive arrival).arrivals (next :: rest)).windows, _ at windows
  by_cases full : arrival.datagram.length = capacity
  · obtain ⟨idle, fired, -⟩ := waiting.arrive_fills full prefixes keeps
    rw [arrivals_idle idle, fired] at messages
    have lengths := congrArg List.length messages
    simp at lengths
  · obtain ⟨waiting', fired, started⟩ :=
      waiting.arrive_remains (by omega) prefixes undrained
    by_cases touched : arrival.consumed = 0
    · -- the buffer is full of bytes nobody has read
      rw [touched] at waiting'
      have whole : next.datagram.take (capacity - 0) = next.datagram :=
        List.take_of_length_le short'
      change (((this.arrive arrival).arrive next).arrivals rest).messages = _ at messages
      by_cases outside : capacity < arrival.datagram.length + next.datagram.length
      · obtain ⟨idle, unchanged⟩ := waiting'.arrive_beyond whole outside
        rw [arrivals_idle idle, unchanged, fired] at messages
        have lengths := congrArg List.length messages
        simp at lengths
      · have left := waiting'.stands.readable_length
        obtain ⟨read, -, -, arrives⟩ := waiting'.arrive_fits whole (by omega) (by
          have all := prefixes' ((this.arrive arrival).readBuffer.readable ++ next.datagram)
          rw [List.length_append, left] at all
          have same : arrival.datagram.length - 0 + next.datagram.length =
            arrival.datagram.length + next.datagram.length - 0 := by omega
          rwa [same] at all)
        have merged : ((this.arrive arrival).arrive next).messages =
            this.messages ++ [arrival.datagram] ++
              [(this.arrive arrival).readBuffer.readable ++ next.datagram] := by
          rw [arrives, messages_resumed, fired]
        obtain ⟨⟨later, grown, -⟩, -⟩ := grows_arrivals ((this.arrive arrival).arrive next) rest
        rw [grown, merged] at messages
        simp only [List.map_cons, List.append_assoc, List.append_cancel_left_eq,
          List.cons_append, List.nil_append, List.cons.injEq, true_and] at messages
        have lengths := congrArg List.length messages.1
        rw [List.length_append, left] at lengths
        omega
    · obtain ⟨-, ⟨later, grown⟩⟩ := grows_arrivals (this.arrive arrival) (next :: rest)
      have outer := windows ⟨arrival.datagram.length, capacity - arrival.consumed⟩ (by
        rw [grown, started]
        simp)
      simp only at outer
      omega

/-- The last datagram of a run can only leave its mark on the receive behind it. -/
theorem separate_last (waiting : this.Waiting capacity 0 0)
    (short : arrival.datagram.length ≤ capacity) (prefixes : arrival.ReadsPrefixes)
    (clean : ∀ window ∈ this.windows, capacity ≤ window.length) (keeps : ¬arrival.Rewinds) :
    this.Separate capacity [arrival] ↔ Arrival.KeepsClear capacity [arrival] := by
  change (this.arrive arrival).messages = this.messages ++ [arrival.datagram] ∧
    (∀ window ∈ (this.arrive arrival).windows, capacity ≤ window.length) ↔
      arrival.Rewinds ∨ arrival.consumed = 0 ∨ arrival.datagram.length = capacity
  have undrained : arrival.drains = false := by
    cases drains : arrival.drains with
    | true => exact absurd (Or.inr drains) keeps
    | false => rfl
  by_cases full : arrival.datagram.length = capacity
  · obtain ⟨-, fired, started⟩ := waiting.arrive_fills full prefixes keeps
    rw [fired, started]
    exact ⟨fun _ => Or.inr (Or.inr full), fun _ => ⟨rfl, clean⟩⟩
  · obtain ⟨-, fired, started⟩ := waiting.arrive_remains (by omega) prefixes undrained
    rw [fired, started]
    constructor
    · intro separate
      have last := separate.2 ⟨arrival.datagram.length, capacity - arrival.consumed⟩ (by simp)
      simp only at last
      exact Or.inr (Or.inl (by omega))
    · intro clear
      have untouched : arrival.consumed = 0 := by
        rcases clear with rewinds | untouched | fills
        · exact absurd rewinds keeps
        · exact untouched
        · exact absurd fills full
      refine ⟨rfl, ?_⟩
      intro window started
      rcases List.mem_append.mp started with earlier | last
      · exact clean window earlier
      · rw [List.mem_singleton.mp last, untouched]
        exact Nat.le_refl _

theorem separate_iff (incoming : List Arrival) (waiting : this.Waiting capacity 0 0)
    (short : ∀ arrival ∈ incoming, arrival.datagram.length ≤ capacity)
    (prefixes : ∀ arrival ∈ incoming, arrival.ReadsPrefixes)
    (clean : ∀ window ∈ this.windows, capacity ≤ window.length) :
    this.Separate capacity incoming ↔ Arrival.KeepsClear capacity incoming := by
  induction incoming generalizing this with
  | nil =>
      refine ⟨fun _ => trivial, fun _ => ⟨?_, clean⟩⟩
      simp [arrivals]
  | cons arrival rest ih =>
      have fits := short arrival List.mem_cons_self
      have reads := prefixes arrival List.mem_cons_self
      by_cases rewinds : arrival.Rewinds
      · obtain ⟨waiting', fired, started⟩ := waiting.arrive_rewinds fits reads rewinds
        have later := ih waiting' (fun next member => short next (List.mem_cons_of_mem _ member))
          (fun next member => prefixes next (List.mem_cons_of_mem _ member)) (by
            intro window member
            rw [started] at member
            rcases List.mem_append.mp member with earlier | last
            · exact clean window earlier
            · rw [List.mem_singleton.mp last])
        rw [Arrival.keepsClear_of_rewinds rewinds, ← later]
        unfold Separate
        rw [fired, List.append_assoc]
        rfl
      · cases rest with
        | nil => exact separate_last waiting fits reads clean rewinds
        | cons next rest =>
            have following : next ∈ arrival :: next :: rest := by simp
            refine ⟨?_, fun clear => absurd clear.1 rewinds⟩
            intro separate
            exact absurd separate (not_separate waiting fits (short next following) reads
              (prefixes next following) rewinds)

end Fresh

/-- A new channel waits for its first datagram with the whole buffer. -/
theorem started_waiting {order : ByteOrder} {size : Int} {channel : DatagramReceiver}
    (small : size ≤ maxInt) (created : create order size = .ok channel) :
    (stateAfter startChannel channel).Waiting size.toNat 0 0 ∧
      (stateAfter startChannel channel).windows = [⟨0, size.toNat⟩] := by
  obtain ⟨buffer, allocated, made⟩ := ok_of_bind created
  cases made
  have fresh : buffer.arry.length = size.toNat ∧ buffer.Stands 0 0 := by
    unfold ChannelBuffer.allocate at allocated
    by_cases none_ : size = 0
    · rw [if_pos none_] at allocated
      cases allocated
      subst none_
      exact ⟨rfl, by decide, rfl, rfl, Nat.le_refl _, Nat.le_refl _⟩
    · by_cases negative : size < 0
      · rw [if_neg none_, if_pos negative] at allocated
        cases allocated
      · rw [if_neg none_, if_neg negative] at allocated
        cases allocated
        refine ⟨List.length_replicate, ⟨?_, rfl, rfl, Nat.le_refl _, Nat.zero_le _⟩⟩
        rw [List.length_replicate]
        omega
  obtain ⟨waiting, -, started⟩ := waiting_resumed
    ⟨buffer, none, [], [], 0⟩ fresh.1 fresh.2 (Or.inl rfl)
  exact ⟨waiting, started⟩

/-- The messages are the datagrams and every receive has the whole buffer, exactly
when the handlers leave the indices of the shared buffer at its front. -/
theorem datagrams_separate_iff {order : ByteOrder} {size : Int} {channel : DatagramReceiver}
    {incoming : List Arrival} (small : size ≤ maxInt)
    (created : create order size = .ok channel)
    (short : ∀ arrival ∈ incoming, (arrival.datagram.length : Int) ≤ size)
    (prefixes : ∀ arrival ∈ incoming, arrival.ReadsPrefixes) :
    (stateAfter startChannel channel).Separate size.toNat incoming ↔
      Arrival.KeepsClear size.toNat incoming := by
  obtain ⟨waiting, started⟩ := started_waiting small created
  apply separate_iff incoming waiting _ prefixes
  · intro window member
    rw [started, List.mem_singleton] at member
    rw [member]
  · intro arrival member
    have fits := short arrival member
    omega

/-- Two datagrams whose handler reads nothing. -/
theorem datagrams_merge :
    ∃ channel, create .big 8 = .ok channel ∧
      ((stateAfter startChannel channel).arrivals
        [⟨[1, 2], fun _ => []⟩, ⟨[3, 4], fun _ => []⟩]).messages = [[1, 2], [1, 2, 3, 4]] ∧
      ¬(stateAfter startChannel channel).Separate 8
        [⟨[1, 2], fun _ => []⟩, ⟨[3, 4], fun _ => []⟩] := by
  refine ⟨_, rfl, by decide +kernel, ?_⟩
  intro separate
  have messages := separate.1
  revert messages
  decide +kernel

/-- A handler that reads every message with `readBytes()` keeps them apart. -/
theorem datagrams_separate_drained :
    ∃ channel, create .big 4 = .ok channel ∧
      (stateAfter startChannel channel).Separate 4
        [⟨[1, 2, 3, 4], fun _ => [.readAllBytes]⟩, ⟨[5], fun _ => [.readAllBytes]⟩] := by
  have reads : ∀ arrival ∈ ([⟨[1, 2, 3, 4], fun _ => [.readAllBytes]⟩,
      ⟨[5], fun _ => [.readAllBytes]⟩] : List Arrival), arrival.ReadsPrefixes := by
    intro arrival member content
    rcases List.mem_cons.mp member with first | second
    · subst first
      exact ⟨Nat.le_refl _, trivial⟩
    · cases List.mem_singleton.mp second
      exact ⟨Nat.le_refl _, trivial⟩
  exact ⟨_, rfl, (datagrams_separate_iff (by decide : (4 : Int) ≤ maxInt) rfl (by decide) reads).mpr
    ⟨Or.inr rfl, Or.inl (Or.inr rfl)⟩⟩

end DatagramReceiver

end Cetty
