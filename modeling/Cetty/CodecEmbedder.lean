import Mathlib.Data.List.Induction
import Cetty.Exceptions
import Cetty.MachineInt

/-!
# The codec embedder

The sink at the end of an embedded pipeline puts every message that reaches it, from either
direction, into the product queue, which `poll`, `peek` and `pollAll` read. What the handlers of
the chain make of an event is, for the embedder, the sequence of messages that reach the sink.
-/

namespace Cetty

open MachineInt

structure AbstractCodecEmbedder (Message : Type) where
  productQueue : List Message
  deriving DecidableEq, Repr

namespace AbstractCodecEmbedder

variable {Message : Type}

abbrev EmbedderM (Message Value : Type) := Exec (AbstractCodecEmbedder Message) Value

/-- `EmbeddedChannelSink::handleMessageEvent`. -/
def handleMessageEvent (message : Message) : EmbedderM Message Unit :=
  modify fun this => { this with productQueue := message :: this.productQueue }

/-- The callbacks through which a message reaches the sink: the last upstream handler's and the
channel sink's. -/
inductive SinkCall (Message : Type) where
  | messageReceived (message : Message)
  | writeRequested (message : Message)
  deriving DecidableEq, Repr

def SinkCall.message : SinkCall Message → Message
  | messageReceived message => message
  | writeRequested message => message

def SinkCall.program : SinkCall Message → EmbedderM Message Unit
  | messageReceived message => handleMessageEvent message
  | writeRequested message => handleMessageEvent message

/-- `front()` and `pop_front()` of an empty deque have no meaning. -/
def poll : EmbedderM Message Message := do
  match (← get).productQueue with
  | [] => throw .outOfBounds
  | message :: rest =>
      modify fun this => { this with productQueue := rest }
      pure message

def peek : EmbedderM Message Message := do
  match (← get).productQueue with
  | [] => throw .outOfBounds
  | message :: _ => pure message

def pollAll : EmbedderM Message (List Message) := do
  let messages := (← get).productQueue
  modify fun this => { this with productQueue := [] }
  pure messages

def size : EmbedderM Message Int := do
  return int32 (← get).productQueue.length

def empty (this : AbstractCodecEmbedder Message) : Bool := this.productQueue.isEmpty

/-- `offer` of both embedders and `finish`: the events they send through the pipeline make these
messages reach the sink. -/
def offer : List (SinkCall Message) → EmbedderM Message Bool
  | [] => do return !(← get).empty
  | first :: rest => do
      first.program
      offer rest

/-- What happens at an embedder, one callback of its sink or one call of its user at a time. -/
inductive Call (Message : Type) where
  | sink (call : SinkCall Message)
  | poll
  | pollAll
  | peek
  | size
  deriving DecidableEq, Repr

namespace Call

/-- The call, with the messages it takes out of the queue. -/
def program : Call Message → EmbedderM Message (List Message)
  | sink call => do
      call.program
      pure []
  | poll => do
      let message ← AbstractCodecEmbedder.poll
      pure [message]
  | pollAll => AbstractCodecEmbedder.pollAll
  | peek => do
      let _ ← AbstractCodecEmbedder.peek
      pure []
  | size => do
      let _ ← AbstractCodecEmbedder.size
      pure []

/-- The message that reaches the sink. -/
def sent : Call Message → List Message
  | sink call => [call.message]
  | _ => []

/-- Whether a call takes messages out of the queue. -/
def Drains : Call Message → Prop
  | poll => True
  | pollAll => True
  | _ => False

end Call

/-- An embedder with everything polled from it and everything sent to its sink so far. -/
structure Ledger (Message : Type) where
  embedder : AbstractCodecEmbedder Message
  polled : List Message
  sent : List Message

namespace Ledger

def fresh : Ledger Message := ⟨⟨[]⟩, [], []⟩

def step (ledger : Ledger Message) (call : Call Message) : Except Stop (Ledger Message) :=
  match call.program.run ledger.embedder with
  | .ok messages embedder =>
      .ok ⟨embedder, ledger.polled ++ messages, ledger.sent ++ call.sent⟩
  | .error stop _ => .error stop

/-- The ledger after a sequence of calls. -/
def after (ledger : Ledger Message) : List (Call Message) → Except Stop (Ledger Message)
  | [] => .ok ledger
  | call :: rest => do
      let next ← ledger.step call
      next.after rest

/-- Everything polled, followed by what is left, is what was sent, in order. -/
def InOrder (ledger : Ledger Message) : Prop :=
  ledger.polled ++ ledger.embedder.productQueue = ledger.sent

/-- A message arrives behind nothing but messages equal to it, and a message is taken or looked
at only when there is one. -/
def Harmless (ledger : Ledger Message) : Call Message → Prop
  | .sink call => ∀ queued ∈ ledger.embedder.productQueue, queued = call.message
  | .poll => ledger.embedder.productQueue ≠ []
  | .peek => ledger.embedder.productQueue ≠ []
  | _ => True

end Ledger

/-- At every point of a run the order is kept, and a `peek` returns what the next `poll` takes. -/
structure KeepsOrder (calls : List (Call Message)) : Prop where
  ordered : ∀ earlier later, calls = earlier ++ later →
    ∃ ledger, Ledger.fresh.after earlier = .ok ledger ∧ ledger.InOrder
  ahead : ∀ earlier between later, calls = earlier ++ .peek :: (between ++ .poll :: later) →
    (∀ call ∈ between, ¬call.Drains) →
    ∃ first second message rest, Ledger.fresh.after earlier = .ok first ∧
      Ledger.fresh.after (earlier ++ .peek :: between) = .ok second ∧
      peek.run first.embedder = .ok message first.embedder ∧
      poll.run second.embedder = .ok message rest

/-- Every call of a run is harmless where it is made. -/
def AllHarmless (calls : List (Call Message)) : Prop :=
  ∀ earlier call later ledger, calls = earlier ++ call :: later →
    Ledger.fresh.after earlier = .ok ledger → ledger.Harmless call

namespace Ledger

variable {ledger next : Ledger Message}

theorem after_append (ledger : Ledger Message) (earlier later : List (Call Message)) :
    ledger.after (earlier ++ later) = (do
      let middle ← ledger.after earlier
      middle.after later) := by
  induction earlier generalizing ledger with
  | nil => rfl
  | cons call rest ih =>
      rw [List.cons_append, after, after]
      cases ran : ledger.step call with
      | error stop => rfl
      | ok next =>
          rw [ok_bind, ok_bind]
          exact ih next

theorem after_snoc {earlier : List (Call Message)} (ran : fresh.after earlier = .ok ledger)
    (call : Call Message) : fresh.after (earlier ++ [call]) = ledger.step call := by
  rw [after_append, ran, ok_bind, after]
  cases ledger.step call with
  | error stop => rfl
  | ok next => rfl

/-- One more message in front of a queue is one more behind it only among equal messages. -/
theorem cons_eq_append_iff (message : Message) (queue : List Message) :
    message :: queue = queue ++ [message] ↔ ∀ queued ∈ queue, queued = message := by
  induction queue with
  | nil => simp
  | cons first rest ih =>
      rw [List.cons_append, List.cons.injEq, List.forall_mem_cons, ← ih]
      constructor
      · rintro ⟨rfl, same⟩
        exact ⟨rfl, same⟩
      · rintro ⟨rfl, same⟩
        exact ⟨rfl, same⟩

theorem step_sink (ledger : Ledger Message) (call : SinkCall Message) :
    ledger.step (.sink call) = .ok
      { embedder := ⟨call.message :: ledger.embedder.productQueue⟩
        polled := ledger.polled ++ []
        sent := ledger.sent ++ [call.message] } := by
  cases call with
  | messageReceived message => rfl
  | writeRequested message => rfl

/-- A call keeps the order exactly when it is harmless. -/
theorem step_inOrder_iff (inOrder : ledger.InOrder) (call : Call Message) :
    (∃ next, ledger.step call = .ok next ∧ next.InOrder) ↔ ledger.Harmless call := by
  obtain ⟨⟨queue⟩, polled, sent⟩ := ledger
  unfold InOrder at inOrder
  dsimp only at inOrder
  subst inOrder
  cases call with
  | sink call =>
      rw [step_sink]
      change _ ↔ ∀ queued ∈ queue, queued = call.message
      rw [← cons_eq_append_iff]
      constructor
      · rintro ⟨next, ran, ordered⟩
        cases ran
        unfold InOrder at ordered
        dsimp only at ordered
        rw [List.append_nil, List.append_assoc] at ordered
        exact List.append_cancel_left ordered
      · intro same
        refine ⟨_, rfl, ?_⟩
        unfold InOrder
        dsimp only at same ⊢
        rw [List.append_nil, List.append_assoc, same]
  | poll =>
      cases queue with
      | nil =>
          constructor
          · rintro ⟨next, ran, -⟩
            cases ran
          · intro present
            exact absurd rfl present
      | cons message rest =>
          constructor
          · intro _
            exact List.cons_ne_nil message rest
          · intro _
            refine ⟨_, rfl, ?_⟩
            show polled ++ [message] ++ rest = polled ++ message :: rest ++ []
            simp
  | pollAll =>
      constructor
      · intro _
        trivial
      · intro _
        refine ⟨_, rfl, ?_⟩
        show polled ++ queue ++ [] = polled ++ queue ++ []
        rfl
  | peek =>
      cases queue with
      | nil =>
          constructor
          · rintro ⟨next, ran, -⟩
            cases ran
          · intro present
            exact absurd rfl present
      | cons message rest =>
          constructor
          · intro _
            exact List.cons_ne_nil message rest
          · intro _
            refine ⟨_, rfl, ?_⟩
            show polled ++ [] ++ message :: rest = polled ++ message :: rest ++ []
            simp
  | size =>
      constructor
      · intro _
        trivial
      · intro _
        refine ⟨_, rfl, ?_⟩
        show polled ++ [] ++ queue = polled ++ queue ++ []
        simp

/-- The message at the front stays there until something is taken out. -/
theorem step_front {message : Message} {queue : List Message} {call : Call Message}
    (front : ledger.embedder.productQueue = message :: queue) (harmless : ledger.Harmless call)
    (keeps : ¬call.Drains) (ran : ledger.step call = .ok next) :
    ∃ rest, next.embedder.productQueue = message :: rest := by
  obtain ⟨⟨products⟩, polled, sent⟩ := ledger
  dsimp only at front
  subst front
  cases call with
  | sink call =>
      rw [step_sink] at ran
      cases ran
      have same := harmless message List.mem_cons_self
      exact ⟨message :: queue, by rw [same]⟩
  | poll => exact absurd trivial keeps
  | pollAll => exact absurd trivial keeps
  | peek =>
      cases ran
      exact ⟨queue, rfl⟩
  | size =>
      cases ran
      exact ⟨queue, rfl⟩

end Ledger

open Ledger

theorem after_inOrder {calls earlier later : List (Call Message)} (harmless : AllHarmless calls)
    (split : calls = earlier ++ later) :
    ∃ ledger, Ledger.fresh.after earlier = .ok ledger ∧ ledger.InOrder := by
  induction earlier using List.reverseRecOn generalizing later with
  | nil => exact ⟨fresh, rfl, rfl⟩
  | append_singleton earlier call ih =>
      have shifted : calls = earlier ++ call :: later := by
        rw [split, List.append_assoc, List.singleton_append]
      obtain ⟨ledger, ran, inOrder⟩ := ih shifted
      have allowed := harmless earlier call later ledger shifted ran
      obtain ⟨next, stepped, kept⟩ := (step_inOrder_iff inOrder call).mpr allowed
      refine ⟨next, ?_, kept⟩
      rw [after_snoc ran, stepped]

theorem front_kept {calls earlier between later : List (Call Message)} {first : Ledger Message}
    {message : Message} {queue : List Message} (harmless : AllHarmless calls)
    (split : calls = earlier ++ (between ++ later))
    (keeps : ∀ call ∈ between, ¬call.Drains) (ran : Ledger.fresh.after earlier = .ok first)
    (front : first.embedder.productQueue = message :: queue) :
    ∃ second rest, Ledger.fresh.after (earlier ++ between) = .ok second ∧
      second.embedder.productQueue = message :: rest := by
  induction between using List.reverseRecOn generalizing later with
  | nil =>
      refine ⟨first, queue, ?_, front⟩
      rw [List.append_nil]
      exact ran
  | append_singleton between call ih =>
      have shifted : calls = earlier ++ (between ++ call :: later) := by
        rw [split, List.append_assoc, List.singleton_append]
      have fewer : ∀ other ∈ between, ¬other.Drains := by
        intro other member
        exact keeps other (List.mem_append_left _ member)
      obtain ⟨second, rest, reached, fronted⟩ := ih shifted fewer
      have regrouped : calls = (earlier ++ between) ++ call :: later := by
        rw [shifted, List.append_assoc]
      have allowed := harmless _ call later second regrouped reached
      have whole : calls = (earlier ++ between ++ [call]) ++ later := by
        rw [regrouped, List.append_assoc _ [call], List.singleton_append]
      obtain ⟨third, ended, -⟩ := after_inOrder harmless whole
      have stepped : second.step call = .ok third := by
        rw [← after_snoc reached call]
        exact ended
      have last := keeps call (List.mem_append_right _ List.mem_cons_self)
      obtain ⟨left, same⟩ := step_front fronted allowed last stepped
      refine ⟨third, left, ?_, same⟩
      rw [← List.append_assoc]
      exact ended

/-- The order is kept exactly in the runs all of whose calls are harmless. -/
theorem keepsOrder_iff (calls : List (Call Message)) : KeepsOrder calls ↔ AllHarmless calls := by
  constructor
  · intro keeps earlier call later ledger split ran
    obtain ⟨same, reached, inOrder⟩ := keeps.ordered earlier (call :: later) split
    rw [ran] at reached
    cases reached
    have grouped : calls = (earlier ++ [call]) ++ later := by
      rw [split, List.append_assoc, List.singleton_append]
    obtain ⟨next, stepped, kept⟩ := keeps.ordered (earlier ++ [call]) later grouped
    rw [after_snoc ran] at stepped
    exact (step_inOrder_iff inOrder call).mp ⟨next, stepped, kept⟩
  · intro harmless
    refine ⟨fun earlier later split => after_inOrder harmless split, ?_⟩
    intro earlier between later split keeps
    obtain ⟨first, ran, inOrder⟩ := after_inOrder harmless split
    have present := harmless earlier .peek _ first split ran
    obtain ⟨⟨products⟩, polled, sent⟩ := first
    cases products with
    | nil => exact absurd rfl present
    | cons message queue =>
        have all : ∀ call ∈ Call.peek :: between, ¬call.Drains := by
          intro call member
          rcases List.mem_cons.mp member with rfl | inside
          · exact id
          · exact keeps call inside
        have regrouped : calls = earlier ++ ((.peek :: between) ++ .poll :: later) := by
          rw [split, List.cons_append]
        obtain ⟨second, rest, reached, front⟩ := front_kept harmless regrouped all ran rfl
        obtain ⟨⟨left⟩, taken, given⟩ := second
        dsimp only at front
        subst front
        exact ⟨_, _, message, ⟨rest⟩, ran, reached, rfl, rfl⟩

/-- Two products pending at once come out in the wrong order. -/
theorem later_product_first :
    ¬KeepsOrder [Call.sink (.messageReceived 1), .sink (.messageReceived 2), .poll] := by
  intro keeps
  obtain ⟨ledger, ran, inOrder⟩ := keeps.ordered _ [] (List.append_nil _).symm
  cases ran
  revert inOrder
  show ¬[2] ++ [1] = [1, 2]
  decide

end AbstractCodecEmbedder

end Cetty
