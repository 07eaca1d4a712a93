import Mathlib.Algebra.GroupWithZero.Nat
import Mathlib.Data.List.Nodup
import Cetty.Exceptions
import Cetty.ActionRuns

/-!
# A future shared by many threads

The calls of any number of threads, interleaved at every access: a call's section under
the lock is one step, each access it makes afterwards another. What a listener throws is caught
where it is called. Waiting threads are left out.
-/

namespace Cetty

/-- A listener object, by its address. -/
structure ChannelFutureListener where
  address : Nat
  /-- It is a `ChannelFutureProgressListener` as well. -/
  progress : Bool
  deriving DecidableEq, Repr

/-- `cause` when it is not `NULL`: the address of `CANCELLED`, or a copy. The copy is a
plain `Exception`, whatever class the original has. -/
inductive FailureCause where
  | cancelled
  | copied (message : String)
  deriving DecidableEq, Repr

structure DefaultChannelFuture where
  cancellable : Bool
  done : Bool
  functionListener : Option Nat
  firstListener : Option ChannelFutureListener
  otherListeners : List ChannelFutureListener
  progressListeners : List ChannelFutureListener
  cause : Option FailureCause
  deriving DecidableEq, Repr

/-- What a call does after it has left the lock. -/
inductive Afterwards where
  /-- `notifyListeners`, from its first line on. -/
  | notifyFirst
  | clearFirst
  /-- The loop over the other listeners has come to this position. -/
  | notifyOther (position : Nat)
  | notifyFunction
  | clearFunction
  | returnTrue
  /-- The listener was added too late. -/
  | notifyNow (listener : ChannelFutureListener)
  | notifyFunctionNow (listener : Nat)
  /-- The loop of `setProgress` over its copy of the list. -/
  | notifyProgress (listeners : List ChannelFutureListener)
  deriving DecidableEq, Repr

inductive Notification where
  | operationComplete (listener : ChannelFutureListener)
  | function (listener : Nat)
  | operationProgressed (listener : ChannelFutureListener)
  deriving DecidableEq, Repr

inductive Answer where
  | nothing
  /-- Of `setSuccess`, `setFailure` or `cancel`. -/
  | completing (value : Bool)
  | progressing (value : Bool)
  deriving DecidableEq, Repr

/-- How far a call has come. -/
inductive Progress where
  | returns (answer : Answer)
  | goesOn (afterwards : Afterwards)
  deriving DecidableEq, Repr

namespace DefaultChannelFuture

def make (cancellable : Bool) : DefaultChannelFuture :=
  { cancellable := cancellable
    done := false
    functionListener := none
    firstListener := none
    otherListeners := []
    progressListeners := []
    cause := none }

def isDone (this : DefaultChannelFuture) : Bool := this.done

def isSuccess (this : DefaultChannelFuture) : Bool := this.done ∧ this.cause = none

def getCause (this : DefaultChannelFuture) : Option FailureCause :=
  if this.cause ≠ some .cancelled then this.cause else none

def isCancelled (this : DefaultChannelFuture) : Bool := this.cause = some .cancelled

def setListener (this : DefaultChannelFuture) (listener : Nat) :
    Progress × DefaultChannelFuture :=
  if this.done then (.goesOn (.notifyFunctionNow listener), this)
  else (.returns .nothing, { this with functionListener := some listener })

def addToListeners (this : DefaultChannelFuture) (listener : ChannelFutureListener) :
    DefaultChannelFuture :=
  match this.firstListener with
  | none => { this with firstListener := some listener }
  | some _ => { this with otherListeners := this.otherListeners ++ [listener] }

def addToProgressListeners (this : DefaultChannelFuture) (listener : ChannelFutureListener) :
    DefaultChannelFuture :=
  { this with
    progressListeners :=
      if listener.progress then this.progressListeners ++ [listener]
      else this.progressListeners }

def addListener (this : DefaultChannelFuture) (listener : ChannelFutureListener) :
    Progress × DefaultChannelFuture :=
  if this.done then (.goesOn (.notifyNow listener), this)
  else (.returns .nothing, (this.addToListeners listener).addToProgressListeners listener)

def removeFromListeners (this : DefaultChannelFuture) (listener : ChannelFutureListener) :
    DefaultChannelFuture :=
  if this.firstListener = some listener then
    match this.otherListeners with
    | front :: others => { this with firstListener := some front, otherListeners := others }
    | [] => { this with firstListener := none }
  else { this with otherListeners := this.otherListeners.filter (· ≠ listener) }

def removeFromProgressListeners (this : DefaultChannelFuture)
    (listener : ChannelFutureListener) : DefaultChannelFuture :=
  { this with
    progressListeners :=
      if listener.progress then this.progressListeners.filter (· ≠ listener)
      else this.progressListeners }

def removeListener (this : DefaultChannelFuture) (listener : ChannelFutureListener) :
    Progress × DefaultChannelFuture :=
  if ¬this.done then
    (.returns .nothing,
      (this.removeFromListeners listener).removeFromProgressListeners listener)
  else (.returns .nothing, this)

def setSuccess (this : DefaultChannelFuture) : Progress × DefaultChannelFuture :=
  if this.done then (.returns (.completing false), this)
  else (.goesOn .notifyFirst, { this with done := true })

def setFailure (this : DefaultChannelFuture) (cause : Exception) :
    Progress × DefaultChannelFuture :=
  if this.done then (.returns (.completing false), this)
  else
    (.goesOn .notifyFirst, { this with cause := some (.copied cause.message), done := true })

def cancel (this : DefaultChannelFuture) : Progress × DefaultChannelFuture :=
  if ¬this.cancellable then (.returns (.completing false), this)
  else if this.done then (.returns (.completing false), this)
  else (.goesOn .notifyFirst, { this with cause := some .cancelled, done := true })

def setProgress (this : DefaultChannelFuture) : Progress × DefaultChannelFuture :=
  if this.done then (.returns (.progressing false), this)
  else if this.progressListeners = [] then (.returns (.progressing true), this)
  else (.goesOn (.notifyProgress this.progressListeners), this)

/-- One access of a call outside the lock. -/
def proceed (this : DefaultChannelFuture) :
    Afterwards → List Notification × Progress × DefaultChannelFuture
  | .notifyFirst =>
      match this.firstListener with
      | some listener => ([.operationComplete listener], .goesOn .clearFirst, this)
      | none => ([], .goesOn .notifyFunction, this)
  | .clearFirst => ([], .goesOn (.notifyOther 0), { this with firstListener := none })
  | .notifyOther position =>
      match this.otherListeners[position]? with
      | some listener =>
          ([.operationComplete listener], .goesOn (.notifyOther (position + 1)), this)
      | none => ([], .goesOn .notifyFunction, this)
  | .notifyFunction =>
      match this.functionListener with
      | some listener => ([.function listener], .goesOn .clearFunction, this)
      | none => ([], .goesOn .returnTrue, this)
  | .clearFunction => ([], .goesOn .returnTrue, { this with functionListener := none })
  | .returnTrue => ([], .returns (.completing true), this)
  | .notifyNow listener => ([.operationComplete listener], .returns .nothing, this)
  | .notifyFunctionNow listener => ([.function listener], .returns .nothing, this)
  | .notifyProgress [] => ([], .returns (.progressing true), this)
  | .notifyProgress (listener :: listeners) =>
      ([.operationProgressed listener], .goesOn (.notifyProgress listeners), this)

end DefaultChannelFuture

open ActionRuns

namespace Afterwards

/-- The rest of a `setSuccess`, `setFailure` or `cancel` that has completed the future. -/
def completing : Afterwards → Bool
  | notifyFirst => true
  | clearFirst => true
  | notifyOther _ => true
  | notifyFunction => true
  | clearFunction => true
  | returnTrue => true
  | _ => false

def progressing : Afterwards → Bool
  | notifyProgress _ => true
  | _ => false

/-- The listeners the call has still to notify of the completion. -/
def owed (future : DefaultChannelFuture) : Afterwards → List ChannelFutureListener
  | notifyFirst => future.firstListener.toList ++ future.otherListeners
  | clearFirst => future.otherListeners
  | notifyOther position => future.otherListeners.drop position
  | notifyNow listener => [listener]
  | _ => []

/-- How many accesses the call has still to make at most. -/
def work (future : DefaultChannelFuture) : Afterwards → Nat
  | notifyFirst => future.otherListeners.length + 6
  | clearFirst => future.otherListeners.length + 5
  | notifyOther position => future.otherListeners.length - position + 4
  | notifyFunction => 3
  | clearFunction => 2
  | returnTrue => 1
  | notifyNow _ => 1
  | notifyFunctionNow _ => 1
  | notifyProgress listeners => listeners.length + 1

variable {afterwards : Afterwards}

theorem owed_of_not_completing (first second : DefaultChannelFuture)
    (other : afterwards.completing = false) : afterwards.owed first = afterwards.owed second := by
  cases afterwards with
  | notifyNow listener => rfl
  | notifyFunctionNow listener => rfl
  | notifyProgress listeners => rfl
  | _ => cases other

theorem owed_of_progressing (future : DefaultChannelFuture)
    (progresses : afterwards.progressing = true) : afterwards.owed future = [] := by
  cases afterwards with
  | notifyProgress listeners => rfl
  | _ => cases progresses

theorem not_completing_of_progressing (progresses : afterwards.progressing = true)
    : afterwards.completing = false := by
  cases afterwards with
  | notifyProgress listeners => rfl
  | _ => cases progresses

end Afterwards

namespace Notification

def completed : Notification → Option ChannelFutureListener
  | operationComplete listener => some listener
  | _ => none

end Notification

namespace Answer

def completion : Answer → Option Bool
  | completing value => some value
  | _ => none

end Answer

structure FutureCalls where
  future : DefaultChannelFuture
  /-- The calls that have left the lock and have not returned. -/
  outside : List Afterwards
  /-- Every listener an `addListener` has been called with. -/
  added : List ChannelFutureListener
  /-- Those that no `removeListener` has named between their addition and the completion. -/
  kept : List ChannelFutureListener
  notified : List Notification
  answers : List Answer

namespace FutureCalls

inductive Call where
  | setSuccess
  | setFailure (cause : Exception)
  | cancel
  | addListener (listener : ChannelFutureListener)
  | removeListener (listener : ChannelFutureListener)
  | setListener (listener : Nat)
  | setProgress

inductive Action where
  | call (made : Call)
  | proceed (position : Nat)

/-- Whether the call completes a future that is not done. -/
def Call.completes (cancellable : Bool) : Call → Bool
  | setSuccess => true
  | setFailure _ => true
  | cancel => cancellable
  | _ => false

def Action.completes (cancellable : Bool) : Action → Bool
  | .call made => made.completes cancellable
  | .proceed _ => false

def lockSection (future : DefaultChannelFuture) : Call → Progress × DefaultChannelFuture
  | .setSuccess => future.setSuccess
  | .setFailure cause => future.setFailure cause
  | .cancel => future.cancel
  | .addListener listener => future.addListener listener
  | .removeListener listener => future.removeListener listener
  | .setListener listener => future.setListener listener
  | .setProgress => future.setProgress

def fresh (cancellable : Bool) : FutureCalls :=
  { future := .make cancellable
    outside := []
    added := []
    kept := []
    notified := []
    answers := [] }

/-- The listeners `operationComplete` has been called on, in order. -/
def received (this : FutureCalls) : List ChannelFutureListener :=
  this.notified.filterMap Notification.completed

/-- What `setSuccess`, `setFailure` and `cancel` have returned. -/
def completions (this : FutureCalls) : List Bool := this.answers.filterMap Answer.completion

def record (this : FutureCalls) : Call → FutureCalls
  | .addListener listener =>
      { this with added := this.added ++ [listener], kept := this.kept ++ [listener] }
  | .removeListener listener =>
      if this.future.done then this
      else { this with kept := this.kept.filter (· ≠ listener) }
  | _ => this

def entered (this : FutureCalls) (progress : Progress) (future : DefaultChannelFuture) :
    FutureCalls :=
  match progress with
  | .returns answer => { this with future := future, answers := this.answers ++ [answer] }
  | .goesOn afterwards =>
      { this with future := future, outside := this.outside ++ [afterwards] }

def advanced (this : FutureCalls) (position : Nat) (notifications : List Notification)
    (progress : Progress) (future : DefaultChannelFuture) : FutureCalls :=
  match progress with
  | .returns answer =>
      { this with
        future := future
        outside := this.outside.eraseIdx position
        notified := this.notified ++ notifications
        answers := this.answers ++ [answer] }
  | .goesOn afterwards =>
      { this with
        future := future
        outside := this.outside.set position afterwards
        notified := this.notified ++ notifications }

/-- A listener object is added at most once. -/
def Admits (this : FutureCalls) : Call → Prop
  | .addListener listener => listener ∉ this.added
  | _ => True

instance (this : FutureCalls) (call : Call) : Decidable (this.Admits call) :=
  match call with
  | .addListener listener => inferInstanceAs (Decidable (listener ∉ this.added))
  | .setSuccess => isTrue trivial
  | .setFailure _ => isTrue trivial
  | .cancel => isTrue trivial
  | .removeListener _ => isTrue trivial
  | .setListener _ => isTrue trivial
  | .setProgress => isTrue trivial

def next (this : FutureCalls) : Action → Option FutureCalls
  | .call made =>
      if this.Admits made then
        let (progress, future) := lockSection this.future made
        some ((this.record made).entered progress future)
      else none
  | .proceed position =>
      match this.outside[position]? with
      | some afterwards =>
          let (notifications, progress, future) := this.future.proceed afterwards
          some (this.advanced position notifications progress future)
      | none => none

def Step (before : FutureCalls) (action : Action) (after : FutureCalls) : Prop :=
  before.next action = some after

/-- The listeners in the slot and the list. -/
def registered (future : DefaultChannelFuture) : List ChannelFutureListener :=
  future.firstListener.toList ++ future.otherListeners

def owedAll (future : DefaultChannelFuture) (outside : List Afterwards) :
    List ChannelFutureListener :=
  outside.flatMap (Afterwards.owed future)

theorem owedAll_append (future : DefaultChannelFuture) (first second : List Afterwards) :
    owedAll future (first ++ second) = owedAll future first ++ owedAll future second :=
  List.flatMap_append ..

theorem owedAll_single (future : DefaultChannelFuture) (afterwards : Afterwards) :
    owedAll future [afterwards] = afterwards.owed future := by
  unfold owedAll
  simp only [List.flatMap_cons, List.flatMap_nil, List.append_nil]

theorem owedAll_of_not_completing {outside : List Afterwards} (first second : DefaultChannelFuture)
    (others : outside.countP Afterwards.completing = 0) :
    owedAll first outside = owedAll second outside := by
  unfold owedAll
  apply List.flatMap_congr
  intro afterwards member
  have other : afterwards.completing = false := by
    have none := List.countP_eq_zero.mp others afterwards member
    simpa using none
  exact Afterwards.owed_of_not_completing first second other

theorem owedAll_of_progressing {outside : List Afterwards} (future : DefaultChannelFuture)
    (progress : ∀ afterwards ∈ outside, afterwards.progressing = true) :
    owedAll future outside = [] := by
  apply List.flatMap_eq_nil_iff.mpr
  intro afterwards member
  exact Afterwards.owed_of_progressing future (progress afterwards member)

theorem owedAll_of_same {first second : DefaultChannelFuture} {outside : List Afterwards}
    (slot : first.firstListener = second.firstListener)
    (others : first.otherListeners = second.otherListeners) :
    owedAll first outside = owedAll second outside := by
  apply List.flatMap_congr
  intro afterwards _
  cases afterwards with
  | notifyFirst =>
      unfold Afterwards.owed
      rw [slot, others]
  | clearFirst => exact others
  | notifyOther position => exact congrArg (List.drop position) others
  | _ => rfl

theorem done_addToListeners (future : DefaultChannelFuture) (listener : ChannelFutureListener) :
    (future.addToListeners listener).done = future.done := by
  unfold DefaultChannelFuture.addToListeners
  cases future.firstListener with
  | none => rfl
  | some first => rfl

theorem registered_addToListeners {future : DefaultChannelFuture}
    (promoted : future.firstListener = none → future.otherListeners = [])
    (listener : ChannelFutureListener) :
    registered (future.addToListeners listener) = registered future ++ [listener] ∧
      (future.addToListeners listener).firstListener ≠ none := by
  unfold DefaultChannelFuture.addToListeners registered
  cases first : future.firstListener with
  | none =>
      simp only [promoted first, Option.toList_none, Option.toList_some, List.append_nil,
        List.nil_append]
      exact ⟨trivial, nofun⟩
  | some front =>
      exact ⟨(List.append_assoc ..).symm, nofun⟩

theorem kept_removeFromListeners (future : DefaultChannelFuture)
    (listener : ChannelFutureListener) :
    (future.removeFromListeners listener).done = future.done ∧
      (future.removeFromListeners listener).cancellable = future.cancellable := by
  unfold DefaultChannelFuture.removeFromListeners
  split
  · cases future.otherListeners with
    | nil => exact ⟨rfl, rfl⟩
    | cons front others => exact ⟨rfl, rfl⟩
  · exact ⟨rfl, rfl⟩

/-- A listener stands in the slot and the list once, so taking it from the slot leaves
none behind. -/
theorem registered_removeFromListeners {future : DefaultChannelFuture}
    (promoted : future.firstListener = none → future.otherListeners = [])
    (distinct : (registered future).Nodup) (listener : ChannelFutureListener) :
    registered (future.removeFromListeners listener) =
        (registered future).filter (· ≠ listener) ∧
      ((future.removeFromListeners listener).firstListener = none →
        (future.removeFromListeners listener).otherListeners = []) := by
  unfold registered at distinct
  unfold DefaultChannelFuture.removeFromListeners registered
  by_cases first : future.firstListener = some listener
  · rw [if_pos first]
    rw [first] at distinct
    have absent : listener ∉ future.otherListeners := (List.nodup_cons.mp distinct).1
    have kept : future.otherListeners.filter (· ≠ listener) = future.otherListeners := by
      apply List.filter_eq_self.mpr
      intro other member
      exact decide_eq_true (fun same => absent (same ▸ member))
    have dropped : ((some listener).toList ++ future.otherListeners).filter (· ≠ listener) =
        future.otherListeners := by
      rw [Option.toList_some, List.filter_append, kept, List.filter_cons_of_neg (by simp)]
      rfl
    rw [first, dropped]
    cases others : future.otherListeners with
    | nil => exact ⟨rfl, fun _ => rfl⟩
    | cons front rest => exact ⟨rfl, nofun⟩
  · rw [if_neg first]
    constructor
    · rw [List.filter_append]
      cases slot : future.firstListener with
      | none => rfl
      | some front =>
          have different : front ≠ listener := fun same => first (slot.trans (congrArg some same))
          have stays : [front].filter (· ≠ listener) = [front] :=
            List.filter_eq_self.mpr (by simpa using different)
          rw [Option.toList_some, stays]
    · intro empty
      exact congrArg (List.filter (· ≠ listener)) (promoted empty)

theorem call_cases {before after : FutureCalls} {made : Call}
    (stepped : Step before (.call made) after) :
    before.Admits made ∧
      after = (before.record made).entered (lockSection before.future made).1
        (lockSection before.future made).2 := by
  by_cases admits : before.Admits made
  · simp only [Step, next, if_pos admits] at stepped
    exact ⟨admits, (Option.some.inj stepped).symm⟩
  · simp only [Step, next, if_neg admits] at stepped
    cases stepped

theorem proceed_cases {before after : FutureCalls} {position : Nat}
    (stepped : Step before (.proceed position) after) :
    ∃ afterwards, before.outside[position]? = some afterwards ∧
      after = before.advanced position (before.future.proceed afterwards).1
        (before.future.proceed afterwards).2.1 (before.future.proceed afterwards).2.2 := by
  cases found : before.outside[position]? with
  | none =>
      simp only [Step, next, found] at stepped
      cases stepped
  | some afterwards =>
      simp only [Step, next, found] at stepped
      exact ⟨afterwards, rfl, (Option.some.inj stepped).symm⟩

/-- What holds between any two accesses of any of the calls. -/
structure Settling (this : FutureCalls) : Prop where
  distinct : this.kept.Nodup
  known : ∀ listener ∈ this.kept, listener ∈ this.added
  /-- A removal fills the first slot again. -/
  promoted : (this.future.done = false ∨ .notifyFirst ∈ this.outside) →
    this.future.firstListener = none → this.future.otherListeners = []
  waiting : this.future.done = false → this.kept = registered this.future
  early : this.future.done = false →
    this.received = [] ∧ ∀ afterwards ∈ this.outside, afterwards.progressing = true
  delivering : this.future.done = true → ∀ listener,
    this.received.count listener + (owedAll this.future this.outside).count listener =
      this.kept.count listener
  single : this.completions.count true + this.outside.countP Afterwards.completing =
    if this.future.done then 1 else 0

namespace Settling

variable {before : FutureCalls}

theorem fresh (cancellable : Bool) : Settling (fresh cancellable) where
  distinct := List.nodup_nil
  known := nofun
  promoted := fun _ _ => rfl
  waiting := fun _ => rfl
  early := fun _ => ⟨rfl, nofun⟩
  delivering := nofun
  single := rfl

theorem not_completing (settling : Settling before) (open_ : before.future.done = false) :
    before.completions.count true = 0 ∧ before.outside.countP Afterwards.completing = 0 := by
  have single := settling.single
  rw [open_] at single
  exact ⟨by simpa using (Nat.add_eq_zero_iff.mp single).1,
    by simpa using (Nat.add_eq_zero_iff.mp single).2⟩

theorem complete (settling : Settling before) (open_ : before.future.done = false)
    (cause : Option FailureCause) :
    Settling
      { before with
        future := { before.future with cause := cause, done := true }
        outside := before.outside ++ [.notifyFirst] } where
  distinct := settling.distinct
  known := settling.known
  promoted := fun _ => settling.promoted (.inl open_)
  waiting := nofun
  early := nofun
  delivering := by
    intro _ listener
    rcases settling.early open_ with ⟨received, progress⟩
    change List.count listener before.received + _ = before.kept.count listener
    rw [received, owedAll_append, owedAll_of_progressing _ progress, owedAll_single,
      settling.waiting open_]
    simp only [List.count_nil, List.nil_append, Nat.zero_add]
    rfl
  single := by
    have none := settling.not_completing open_
    change before.completions.count true + _ = 1
    rw [List.countP_append, none.1, none.2]
    rfl

/-- A call that changes nothing but its own answer. -/
theorem answer (settling : Settling before) {answer : Answer}
    (other : answer.completion ≠ some true) :
    Settling { before with answers := before.answers ++ [answer] } where
  distinct := settling.distinct
  known := settling.known
  promoted := settling.promoted
  waiting := settling.waiting
  early := settling.early
  delivering := settling.delivering
  single := by
    have counted : ({ before with answers := before.answers ++ [answer] } :
        FutureCalls).completions.count true = before.completions.count true := by
      unfold completions
      rw [List.filterMap_append, List.count_append]
      cases answer with
      | nothing => rfl
      | progressing value => rfl
      | completing value =>
          cases value with
          | false => rfl
          | true => exact absurd rfl other
    rw [counted]
    exact settling.single

section

variable (settling : Settling before)

include settling

variable {listener : ChannelFutureListener} {afterwards : Afterwards}

theorem kept_added (unknown : listener ∉ before.added) :
    (before.kept ++ [listener]).Nodup ∧
      ∀ kept ∈ before.kept ++ [listener], kept ∈ before.added ++ [listener] := by
  constructor
  · apply List.nodup_append.mpr
    refine ⟨settling.distinct, List.nodup_cons.mpr ⟨List.not_mem_nil, List.nodup_nil⟩, ?_⟩
    intro kept member other single same
    rw [List.mem_singleton] at single
    rw [same, single] at member
    exact unknown (settling.known listener member)
  · intro kept member
    rcases List.mem_append.mp member with old | new
    · exact List.mem_append_left _ (settling.known kept old)
    · exact List.mem_append_right _ new

theorem added_late (done : before.future.done = true) (unknown : listener ∉ before.added) :
    Settling
      { before with
        added := before.added ++ [listener]
        kept := before.kept ++ [listener]
        outside := before.outside ++ [.notifyNow listener] } where
  distinct := (settling.kept_added unknown).1
  known := (settling.kept_added unknown).2
  promoted := by
    rintro (open_ | notifying)
    · rw [done] at open_
      cases open_
    · rcases List.mem_append.mp notifying with old | new
      · exact settling.promoted (.inr old)
      · cases List.mem_singleton.mp new
  waiting := by
    intro open_
    rw [done] at open_
    cases open_
  early := by
    intro open_
    rw [done] at open_
    cases open_
  delivering := by
    intro _ other
    have delivered := settling.delivering done other
    change before.received.count other + _ = _
    rw [owedAll_append, owedAll_single, List.count_append, List.count_append, ← delivered]
    exact (Nat.add_assoc _ _ _).symm
  single := by
    have single := settling.single
    rw [done] at single
    change before.completions.count true + _ = if before.future.done then 1 else 0
    rw [done, List.countP_append]
    exact single

section

variable (open_ : before.future.done = false) {listener : ChannelFutureListener}

include open_

theorem added_early (unknown : listener ∉ before.added)
    {future : DefaultChannelFuture} (same : future.done = false)
    (registers : registered future = registered before.future ++ [listener])
    (slot : future.firstListener ≠ none) :
    Settling
      { before with
        future := future
        added := before.added ++ [listener]
        kept := before.kept ++ [listener] } where
  distinct := (settling.kept_added unknown).1
  known := (settling.kept_added unknown).2
  promoted := fun _ empty => absurd empty slot
  waiting := by
    intro _
    rw [registers, settling.waiting open_]
  early := fun _ => settling.early open_
  delivering := by
    intro done
    change future.done = true at done
    rw [same] at done
    cases done
  single := by
    have single := settling.single
    rw [open_] at single
    change before.completions.count true + before.outside.countP _ = if future.done then 1 else 0
    rw [same]
    exact single

theorem removed {future : DefaultChannelFuture}
    (same : future.done = false)
    (registers : registered future = (registered before.future).filter (· ≠ listener))
    (promotes : future.firstListener = none → future.otherListeners = []) :
    Settling
      { before with
        future := future
        kept := before.kept.filter (· ≠ listener) } where
  distinct := settling.distinct.filter _
  known := fun kept member => settling.known kept (List.mem_filter.mp member).1
  promoted := fun _ => promotes
  waiting := by
    intro _
    rw [registers, settling.waiting open_]
  early := fun _ => settling.early open_
  delivering := by
    intro done
    change future.done = true at done
    rw [same] at done
    cases done
  single := by
    have single := settling.single
    rw [open_] at single
    change before.completions.count true + before.outside.countP _ = if future.done then 1 else 0
    rw [same]
    exact single

end

/-- A call goes on outside the lock with nothing to say about the completion. -/
theorem leaves (silent : ∀ future, afterwards.owed future = [])
    (other : afterwards.completing = false)
    (progresses : before.future.done = false → afterwards.progressing = true) :
    Settling { before with outside := before.outside ++ [afterwards] } where
  distinct := settling.distinct
  known := settling.known
  promoted := by
    rintro (open_ | notifying)
    · exact settling.promoted (.inl open_)
    · rcases List.mem_append.mp notifying with old | new
      · exact settling.promoted (.inr old)
      · rw [← List.mem_singleton.mp new] at other
        cases other
  waiting := settling.waiting
  early := by
    intro open_
    refine ⟨(settling.early open_).1, ?_⟩
    intro rest member
    rcases List.mem_append.mp member with old | new
    · exact (settling.early open_).2 rest old
    · rw [List.mem_singleton.mp new]
      exact progresses open_
  delivering := by
    intro done listener
    change before.received.count listener + _ = before.kept.count listener
    rw [owedAll_append, owedAll_single, silent, List.append_nil]
    exact settling.delivering done listener
  single := by
    change before.completions.count true + _ = if before.future.done then 1 else 0
    rw [List.countP_append, List.countP_singleton, if_neg (by rw [other]; exact nofun)]
    exact settling.single

/-- The call changes nothing that another call or a listener depends on. -/
theorem untouched {future : DefaultChannelFuture}
    (done : future.done = before.future.done)
    (first : future.firstListener = before.future.firstListener)
    (others : future.otherListeners = before.future.otherListeners) :
    Settling { before with future := future } where
  distinct := settling.distinct
  known := settling.known
  promoted := by
    change (future.done = false ∨ _) → future.firstListener = none → future.otherListeners = []
    rw [done, first, others]
    exact settling.promoted
  waiting := by
    change future.done = false → before.kept = registered future
    unfold registered
    rw [done, first, others]
    exact settling.waiting
  early := by
    change future.done = false → _
    rw [done]
    exact settling.early
  delivering := by
    change future.done = true → ∀ listener, before.received.count listener +
      (owedAll future before.outside).count listener = before.kept.count listener
    rw [done, owedAll_of_same first others]
    exact settling.delivering
  single := by
    change _ = if future.done then 1 else 0
    rw [done]
    exact settling.single

theorem cancelled {progress : Progress}
    {future : DefaultChannelFuture} (ran : before.future.cancel = (progress, future)) :
    Settling (before.entered progress future) := by
  unfold DefaultChannelFuture.cancel at ran
  split at ran
  · cases ran
    exact settling.answer nofun
  · split at ran
    · cases ran
      exact settling.answer nofun
    · rename_i open_
      cases ran
      exact settling.complete (Bool.eq_false_iff.mpr open_) _

theorem call {made : Call} {after : FutureCalls}
    (stepped : Step before (.call made) after) : Settling after := by
  rcases call_cases stepped with ⟨admits, rfl⟩
  cases made with
  | setSuccess =>
      cases done : before.future.done with
      | true =>
          simp only [lockSection, DefaultChannelFuture.setSuccess, done, if_true]
          exact settling.answer nofun
      | false =>
          simp only [lockSection, DefaultChannelFuture.setSuccess, done, Bool.false_eq_true,
            if_false]
          exact settling.complete done before.future.cause
  | setFailure cause =>
      cases done : before.future.done with
      | true =>
          simp only [lockSection, DefaultChannelFuture.setFailure, done, if_true]
          exact settling.answer nofun
      | false =>
          simp only [lockSection, DefaultChannelFuture.setFailure, done, Bool.false_eq_true,
            if_false]
          exact settling.complete done _
  | cancel => exact settling.cancelled (Prod.eta _).symm
  | addListener listener =>
      cases done : before.future.done with
      | true =>
          simp only [lockSection, DefaultChannelFuture.addListener, done, if_true]
          exact settling.added_late done admits
      | false =>
          simp only [lockSection, DefaultChannelFuture.addListener, done, Bool.false_eq_true,
            if_false]
          rcases registered_addToListeners (settling.promoted (.inl done)) listener
            with ⟨registers, slot⟩
          have added : Settling
              { before with
                future := (before.future.addToListeners listener).addToProgressListeners listener
                added := before.added ++ [listener]
                kept := before.kept ++ [listener] } :=
            settling.added_early done admits ((done_addToListeners _ _).trans done) registers slot
          exact added.answer nofun
  | removeListener listener =>
      cases done : before.future.done with
      | true =>
          simp only [lockSection, DefaultChannelFuture.removeListener, record, done]
          exact settling.answer nofun
      | false =>
          simp only [lockSection, DefaultChannelFuture.removeListener, record, done]
          have distinct : (registered before.future).Nodup :=
            settling.waiting done ▸ settling.distinct
          rcases registered_removeFromListeners (settling.promoted (.inl done)) distinct
            listener with ⟨registers, promotes⟩
          have removed : Settling
              { before with
                future := (before.future.removeFromListeners
                  listener).removeFromProgressListeners listener
                kept := before.kept.filter (· ≠ listener) } :=
            settling.removed done ((kept_removeFromListeners _ _).1.trans done) registers promotes
          exact removed.answer nofun
  | setListener listener =>
      cases done : before.future.done with
      | true =>
          simp only [lockSection, DefaultChannelFuture.setListener, done, if_true]
          exact settling.leaves (fun _ => rfl) rfl (by rw [done]; exact nofun)
      | false =>
          simp only [lockSection, DefaultChannelFuture.setListener]
          rw [if_neg (by rw [done]; exact nofun)]
          have changed : Settling
              { before with
                future := { before.future with functionListener := some listener } } :=
            settling.untouched rfl rfl rfl
          exact changed.answer nofun
  | setProgress =>
      simp only [lockSection, DefaultChannelFuture.setProgress]
      split
      · exact settling.answer nofun
      · split
        · exact settling.answer nofun
        · exact settling.leaves (fun _ => rfl) rfl (fun _ => rfl)

/-- The calls beside the one that has completed the future. -/
theorem others_not_completing {front back : List Afterwards}
    (whole : before.outside = front ++ afterwards :: back)
    (completing : afterwards.completing = true) :
    before.future.done = true ∧ front.countP Afterwards.completing = 0 ∧
      back.countP Afterwards.completing = 0 ∧ before.completions.count true = 0 := by
  have single := settling.single
  rw [whole, List.countP_append, List.countP_cons_of_pos completing] at single
  cases done : before.future.done with
  | true =>
      rw [done, if_pos rfl] at single
      exact ⟨rfl, by omega, by omega, by omega⟩
  | false =>
      rw [done, if_neg nofun] at single
      omega

end

theorem notifyFirst_not_mem {front back : List Afterwards}
    (frontOthers : front.countP Afterwards.completing = 0)
    (backOthers : back.countP Afterwards.completing = 0) {afterwards : Afterwards}
    (moved : afterwards ≠ .notifyFirst) : .notifyFirst ∉ front ++ afterwards :: back := by
  intro member
  rcases List.mem_append.mp member with inFront | inRest
  · exact List.countP_eq_zero.mp frontOthers _ inFront rfl
  · rcases List.mem_cons.mp inRest with same | inBack
    · exact moved same.symm
    · exact List.countP_eq_zero.mp backOthers _ inBack rfl

section

variable (settling : Settling before)

include settling

variable {position : Nat} {afterwards : Afterwards} {notifications : List Notification}

/-- The call that has completed the future makes its next access: what it notifies and
what it then still owes is what it owed. -/
theorem moves {moved : Afterwards} {future : DefaultChannelFuture}
    (found : before.outside[position]? = some afterwards)
    (completing : afterwards.completing = true) (still : moved.completing = true)
    (further : moved ≠ .notifyFirst) (done : future.done = before.future.done)
    (pays : notifications.filterMap Notification.completed ++ moved.owed future =
      afterwards.owed before.future) :
    Settling (before.advanced position notifications (.goesOn moved) future) := by
  rcases split_at found with ⟨front, back, whole, replaced, _⟩
  rcases settling.others_not_completing whole completing with ⟨isDone, frontOthers, backOthers, none⟩
  have outside : (before.advanced position notifications (.goesOn moved) future).outside =
      front ++ moved :: back := replaced moved
  have doneAfter : (before.advanced position notifications (.goesOn moved) future).future.done =
      true := done.trans isDone
  constructor
  · exact settling.distinct
  · exact settling.known
  · rintro (open_ | notifying)
    · rw [doneAfter] at open_
      cases open_
    · rw [outside] at notifying
      exact absurd notifying (notifyFirst_not_mem frontOthers backOthers further)
  · intro open_
    rw [doneAfter] at open_
    cases open_
  · intro open_
    rw [doneAfter] at open_
    cases open_
  · intro _ listener
    have delivered := settling.delivering isDone listener
    rw [whole] at delivered
    have received : (before.advanced position notifications (.goesOn moved) future).received =
        before.received ++ notifications.filterMap Notification.completed :=
      List.filterMap_append ..
    rw [outside, received]
    change _ + (owedAll future (front ++ moved :: back)).count listener =
      before.kept.count listener
    rw [← delivered]
    have frontSame := owedAll_of_not_completing future before.future frontOthers
    have backSame := owedAll_of_not_completing future before.future backOthers
    have paid := congrArg (List.count listener) pays
    rw [List.count_append] at paid
    have split (whose : DefaultChannelFuture) (rest : Afterwards) :
        owedAll whose (front ++ rest :: back) =
          owedAll whose front ++ (rest.owed whose ++ owedAll whose back) :=
      owedAll_append ..
    rw [split, split, frontSame, backSame]
    simp only [List.count_append]
    omega
  · rw [doneAfter, outside, List.countP_append, List.countP_cons_of_pos still, frontOthers,
      backOthers]
    change before.completions.count true + _ = _
    rw [none]
    rfl

theorem returns (found : before.outside[position]? = some .returnTrue) :
    Settling (before.advanced position [] (.returns (.completing true)) before.future) := by
  rcases split_at found with ⟨front, back, whole, _, erased⟩
  rcases settling.others_not_completing whole rfl with ⟨isDone, frontOthers, backOthers, none⟩
  have outside : (before.advanced position [] (.returns (.completing true))
      before.future).outside = front ++ back := erased
  have doneAfter : (before.advanced position [] (.returns (.completing true))
      before.future).future.done = true := isDone
  have received : (before.advanced position [] (.returns (.completing true))
      before.future).received = before.received := by
    unfold received advanced
    rw [List.append_nil]
  constructor
  · exact settling.distinct
  · exact settling.known
  · intro open_ empty
    apply settling.promoted _ empty
    rcases open_ with open_ | notifying
    · exact .inl open_
    · rw [outside] at notifying
      right
      rw [whole]
      rcases List.mem_append.mp notifying with inFront | inBack
      · exact List.mem_append_left _ inFront
      · exact List.mem_append_right _ (List.mem_cons_of_mem _ inBack)
  · exact settling.waiting
  · intro open_
    rw [doneAfter] at open_
    cases open_
  · intro _ listener
    have delivered := settling.delivering isDone listener
    rw [whole] at delivered
    rw [outside, received]
    change _ = before.kept.count listener
    rw [← delivered, owedAll_append, owedAll_append]
    rfl
  · rw [doneAfter, outside, List.countP_append, frontOthers, backOthers]
    unfold completions advanced
    rw [List.filterMap_append, List.count_append]
    change before.completions.count true + _ + _ = _
    rw [none]
    rfl

/-- A call that has not completed the future makes its next access. -/
theorem aside {front back rest : List Afterwards} {answers : List Answer}
    (whole : before.outside = front ++ afterwards :: back)
    (other : afterwards.completing = false) (others : rest.countP Afterwards.completing = 0)
    (progress : afterwards.progressing = true →
      notifications.filterMap Notification.completed = [] ∧
        ∀ left ∈ rest, left.progressing = true)
    (pays : notifications.filterMap Notification.completed ++ owedAll before.future rest =
      afterwards.owed before.future)
    (quiet : (answers.filterMap Answer.completion).count true = 0) :
    Settling
      { before with
        outside := front ++ (rest ++ back)
        notified := before.notified ++ notifications
        answers := before.answers ++ answers } := by
  have received : ({ before with
      outside := front ++ (rest ++ back)
      notified := before.notified ++ notifications
      answers := before.answers ++ answers } : FutureCalls).received =
      before.received ++ notifications.filterMap Notification.completed :=
    List.filterMap_append ..
  constructor
  · exact settling.distinct
  · exact settling.known
  · intro open_ empty
    apply settling.promoted _ empty
    rcases open_ with open_ | notifying
    · exact .inl open_
    · right
      rw [whole]
      rcases List.mem_append.mp notifying with inFront | inRest
      · exact List.mem_append_left _ inFront
      · rcases List.mem_append.mp inRest with left | inBack
        · exact absurd rfl (List.countP_eq_zero.mp others _ left)
        · exact List.mem_append_right _ (List.mem_cons_of_mem _ inBack)
  · exact settling.waiting
  · intro open_
    rcases settling.early open_ with ⟨nothing, progresses⟩
    rw [whole] at progresses
    have itself := progress (progresses afterwards (List.mem_append_right _ List.mem_cons_self))
    constructor
    · rw [received, nothing, itself.1]
      rfl
    · intro left member
      rcases List.mem_append.mp member with inFront | inRest
      · exact progresses left (List.mem_append_left _ inFront)
      · rcases List.mem_append.mp inRest with own | inBack
        · exact itself.2 left own
        · exact progresses left (List.mem_append_right _ (List.mem_cons_of_mem _ inBack))
  · intro done listener
    have delivered := settling.delivering done listener
    have paid := congrArg (List.count listener) pays
    rw [List.count_append] at paid
    have split : owedAll before.future (front ++ afterwards :: back) =
        owedAll before.future front ++ (afterwards.owed before.future ++
          owedAll before.future back) := owedAll_append ..
    rw [whole, split] at delivered
    rw [received]
    change _ + (owedAll before.future (front ++ (rest ++ back))).count listener =
      before.kept.count listener
    rw [← delivered, owedAll_append, owedAll_append]
    simp only [List.count_append]
    omega
  · have single := settling.single
    rw [whole, List.countP_append, List.countP_cons_of_neg (by rw [other]; exact nofun)] at single
    change ((before.answers ++ answers).filterMap Answer.completion).count true + _ = _
    rw [List.filterMap_append, List.count_append, quiet]
    change before.completions.count true + 0 + (front ++ (rest ++ back)).countP _ =
      if before.future.done then 1 else 0
    rw [← single, List.countP_append, List.countP_append, others]
    omega

theorem returns_aside {answer : Answer}
    (found : before.outside[position]? = some afterwards)
    (other : afterwards.completing = false)
    (progress : afterwards.progressing = true →
      notifications.filterMap Notification.completed = [])
    (pays : notifications.filterMap Notification.completed = afterwards.owed before.future)
    (quiet : answer.completion ≠ some true) :
    Settling (before.advanced position notifications (.returns answer) before.future) := by
  rcases split_at found with ⟨front, back, whole, _, erased⟩
  have silent : ([answer].filterMap Answer.completion).count true = 0 := by
    cases answer with
    | completing value =>
        cases value with
        | false => rfl
        | true => exact absurd rfl quiet
    | _ => rfl
  have gone : Settling
      { before with
        outside := front ++ ([] ++ back)
        notified := before.notified ++ notifications
        answers := before.answers ++ [answer] } :=
    settling.aside whole other rfl (fun own => ⟨progress own, nofun⟩)
      ((List.append_nil _).trans pays) silent
  simp only [advanced, erased]
  exact gone

theorem moves_aside {moved : Afterwards} (found : before.outside[position]? = some afterwards)
    (other : afterwards.progressing = true) (still : moved.progressing = true)
    (silent : notifications.filterMap Notification.completed = []) :
    Settling (before.advanced position notifications (.goesOn moved) before.future) := by
  rcases split_at found with ⟨front, back, whole, replaced, _⟩
  have others : [moved].countP Afterwards.completing = 0 := by
    rw [List.countP_singleton, Afterwards.not_completing_of_progressing still]
    rfl
  have pays : notifications.filterMap Notification.completed ++ owedAll before.future [moved] =
      afterwards.owed before.future := by
    rw [silent, owedAll_single, Afterwards.owed_of_progressing _ still,
      Afterwards.owed_of_progressing _ other]
    rfl
  have stays : Settling
      { before with
        outside := front ++ ([moved] ++ back)
        notified := before.notified ++ notifications
        answers := before.answers ++ [] } :=
    settling.aside whole (Afterwards.not_completing_of_progressing other) others
      (fun _ => ⟨silent, fun left member => List.mem_singleton.mp member ▸ still⟩) pays rfl
  simp only [advanced, replaced]
  rw [List.append_nil] at stays
  exact stays

theorem proceed {after : FutureCalls}
    (stepped : Step before (.proceed position) after) : Settling after := by
  rcases proceed_cases stepped with ⟨afterwards, found, rfl⟩
  cases afterwards with
  | notifyFirst =>
      cases first : before.future.firstListener with
      | some listener =>
          simp only [DefaultChannelFuture.proceed, first]
          refine settling.moves found rfl rfl nofun rfl ?_
          simp only [Afterwards.owed, first]
          rfl
      | none =>
          simp only [DefaultChannelFuture.proceed, first]
          refine settling.moves found rfl rfl nofun rfl ?_
          have others := settling.promoted (.inr (List.mem_of_getElem? found)) first
          simp only [Afterwards.owed, first, others]
          rfl
  | clearFirst => exact settling.moves found rfl rfl nofun rfl rfl
  | notifyOther index =>
      cases at_ : before.future.otherListeners[index]? with
      | some listener =>
          simp only [DefaultChannelFuture.proceed, at_]
          refine settling.moves found rfl rfl nofun rfl ?_
          rcases List.getElem?_eq_some_iff.mp at_ with ⟨bound, value⟩
          have split := List.drop_eq_getElem_cons bound
          rw [value] at split
          exact split.symm
      | none =>
          simp only [DefaultChannelFuture.proceed, at_]
          refine settling.moves found rfl rfl nofun rfl ?_
          exact (List.drop_eq_nil_of_le (List.getElem?_eq_none_iff.mp at_)).symm
  | notifyFunction =>
      cases function : before.future.functionListener with
      | some listener =>
          simp only [DefaultChannelFuture.proceed, function]
          exact settling.moves found rfl rfl nofun rfl rfl
      | none =>
          simp only [DefaultChannelFuture.proceed, function]
          exact settling.moves found rfl rfl nofun rfl rfl
  | clearFunction => exact settling.moves found rfl rfl nofun rfl rfl
  | returnTrue => exact settling.returns found
  | notifyNow listener => exact settling.returns_aside found rfl nofun rfl nofun
  | notifyFunctionNow listener => exact settling.returns_aside found rfl nofun rfl nofun
  | notifyProgress listeners =>
      cases listeners with
      | nil => exact settling.returns_aside found rfl (fun _ => rfl) rfl nofun
      | cons listener rest => exact settling.moves_aside found rfl rfl rfl

theorem step {action : Action} {after : FutureCalls}
    (stepped : Step before action after) : Settling after := by
  cases action with
  | call made => exact settling.call stepped
  | proceed position => exact settling.proceed stepped

end

theorem run {start final : FutureCalls} {actions : List Action} (settling : Settling start)
    (run : Run Step start actions final) : Settling final :=
  run.invariant (fun _ _ _ settled stepped => settled.step stepped) settling

end Settling

theorem future_entered (this : FutureCalls) (progress : Progress)
    (future : DefaultChannelFuture) : (this.entered progress future).future = future := by
  cases progress with
  | returns answer => rfl
  | goesOn afterwards => rfl

theorem future_advanced (this : FutureCalls) (position : Nat)
    (notifications : List Notification) (progress : Progress) (future : DefaultChannelFuture) :
    (this.advanced position notifications progress future).future = future := by
  cases progress with
  | returns answer => rfl
  | goesOn afterwards => rfl

/-- What a call under the lock does to the outcome. -/
theorem lockSection_outcome (future : DefaultChannelFuture) (made : Call) :
    (lockSection future made).2.cancellable = future.cancellable ∧
      (lockSection future made).2.done = (future.done || made.completes future.cancellable) ∧
      (future.done = true → (lockSection future made).2.cause = future.cause) := by
  rcases future with ⟨cancellable, done, function, slot, others, progressing, cause⟩
  cases done with
  | true =>
      cases made with
      | cancel =>
          cases cancellable with
          | true => exact ⟨rfl, rfl, fun _ => rfl⟩
          | false => exact ⟨rfl, rfl, fun _ => rfl⟩
      | _ => exact ⟨rfl, rfl, fun _ => rfl⟩
  | false =>
      cases made with
      | cancel =>
          cases cancellable with
          | true => exact ⟨rfl, rfl, nofun⟩
          | false => exact ⟨rfl, rfl, nofun⟩
      | addListener listener =>
          cases slot with
          | none => exact ⟨rfl, rfl, nofun⟩
          | some first => exact ⟨rfl, rfl, nofun⟩
      | removeListener listener =>
          rcases kept_removeFromListeners
            ⟨cancellable, false, function, slot, others, progressing, cause⟩ listener
            with ⟨done, kept⟩
          exact ⟨kept, done, nofun⟩
      | setProgress =>
          cases progressing with
          | nil => exact ⟨rfl, rfl, nofun⟩
          | cons listener rest => exact ⟨rfl, rfl, nofun⟩
      | _ => exact ⟨rfl, rfl, nofun⟩

theorem proceed_outcome (future : DefaultChannelFuture) (afterwards : Afterwards) :
    (future.proceed afterwards).2.2.cancellable = future.cancellable ∧
      (future.proceed afterwards).2.2.done = future.done ∧
      (future.proceed afterwards).2.2.cause = future.cause ∧
      (future.proceed afterwards).2.2.otherListeners = future.otherListeners := by
  cases afterwards with
  | notifyFirst =>
      simp only [DefaultChannelFuture.proceed]
      cases future.firstListener with
      | none => exact ⟨rfl, rfl, rfl, rfl⟩
      | some listener => exact ⟨rfl, rfl, rfl, rfl⟩
  | notifyOther position =>
      simp only [DefaultChannelFuture.proceed]
      cases future.otherListeners[position]? with
      | none => exact ⟨rfl, rfl, rfl, rfl⟩
      | some listener => exact ⟨rfl, rfl, rfl, rfl⟩
  | notifyFunction =>
      simp only [DefaultChannelFuture.proceed]
      cases future.functionListener with
      | none => exact ⟨rfl, rfl, rfl, rfl⟩
      | some listener => exact ⟨rfl, rfl, rfl, rfl⟩
  | notifyProgress listeners =>
      cases listeners with
      | nil => exact ⟨rfl, rfl, rfl, rfl⟩
      | cons listener rest => exact ⟨rfl, rfl, rfl, rfl⟩
  | _ => exact ⟨rfl, rfl, rfl, rfl⟩

theorem step_outcome {before after : FutureCalls} {action : Action}
    (stepped : Step before action after) :
    after.future.cancellable = before.future.cancellable ∧
      after.future.done =
        (before.future.done || action.completes before.future.cancellable) ∧
      (before.future.done = true → after.future.cause = before.future.cause) := by
  cases action with
  | call made =>
      rcases call_cases stepped with ⟨_, rfl⟩
      rw [future_entered]
      exact lockSection_outcome before.future made
  | proceed position =>
      rcases proceed_cases stepped with ⟨afterwards, _, rfl⟩
      rw [future_advanced]
      rcases proceed_outcome before.future afterwards with ⟨cancellable, done, cause, _⟩
      exact ⟨cancellable, done.trans (Bool.or_false _).symm, fun _ => cause⟩

theorem run_outcome {start final : FutureCalls} {actions : List Action}
    (run : Run Step start actions final) :
    final.future.done =
        (start.future.done || actions.any (Action.completes start.future.cancellable)) ∧
      (start.future.done = true → final.future.cause = start.future.cause) := by
  induction run with
  | nil state => exact ⟨(Bool.or_false _).symm, fun _ => rfl⟩
  | cons first later ih =>
      rcases step_outcome first with ⟨cancellable, done, cause⟩
      rcases ih with ⟨doneLater, causeLater⟩
      constructor
      · rw [doneLater, done, cancellable, List.any_cons, Bool.or_assoc]
      · intro isDone
        have still := done
        rw [isDone, Bool.true_or] at still
        exact (causeLater still).trans (cause isDone)

def workLeft (this : FutureCalls) : Nat :=
  (this.outside.map (Afterwards.work this.future)).sum

theorem work_of_same {first second : DefaultChannelFuture} (afterwards : Afterwards)
    (others : first.otherListeners = second.otherListeners) :
    afterwards.work first = afterwards.work second := by
  cases afterwards with
  | notifyFirst => exact congrArg (fun list => list.length + 6) others
  | clearFirst => exact congrArg (fun list => list.length + 5) others
  | notifyOther position => exact congrArg (fun list => list.length - position + 4) others
  | _ => rfl

/-- Each access brings its call nearer to its end. -/
theorem proceed_work (future : DefaultChannelFuture) (afterwards : Afterwards) :
    match (future.proceed afterwards).2.1 with
    | .returns _ => 0 < afterwards.work future
    | .goesOn moved => moved.work (future.proceed afterwards).2.2 < afterwards.work future := by
  cases afterwards with
  | notifyFirst =>
      cases first : future.firstListener with
      | none =>
          simp only [DefaultChannelFuture.proceed, first, Afterwards.work]
          omega
      | some listener =>
          simp only [DefaultChannelFuture.proceed, first, Afterwards.work]
          omega
  | clearFirst => exact Nat.lt_succ_self _
  | notifyOther position =>
      cases at_ : future.otherListeners[position]? with
      | none =>
          simp only [DefaultChannelFuture.proceed, at_, Afterwards.work]
          omega
      | some listener =>
          have bound := (List.getElem?_eq_some_iff.mp at_).1
          simp only [DefaultChannelFuture.proceed, at_, Afterwards.work]
          omega
  | notifyFunction =>
      cases function : future.functionListener with
      | none =>
          simp only [DefaultChannelFuture.proceed, function, Afterwards.work]
          omega
      | some listener =>
          simp only [DefaultChannelFuture.proceed, function, Afterwards.work]
          omega
  | clearFunction => exact Nat.lt_succ_self _
  | returnTrue => exact Nat.one_pos
  | notifyNow listener => exact Nat.one_pos
  | notifyFunctionNow listener => exact Nat.one_pos
  | notifyProgress listeners =>
      cases listeners with
      | nil => exact Nat.one_pos
      | cons listener rest => exact Nat.lt_succ_self _

theorem first_proceeds (this : FutureCalls) {afterwards : Afterwards} {rest : List Afterwards}
    (outside : this.outside = afterwards :: rest) :
    ∃ after, Step this (.proceed 0) after ∧ after.workLeft < this.workLeft := by
  have found : this.outside[0]? = some afterwards := by
    rw [outside]
    rfl
  refine ⟨this.advanced 0 (this.future.proceed afterwards).1
    (this.future.proceed afterwards).2.1 (this.future.proceed afterwards).2.2, ?_, ?_⟩
  · simp only [Step, next, found]
  · have less := proceed_work this.future afterwards
    have others := (proceed_outcome this.future afterwards).2.2.2
    have same : rest.map (Afterwards.work (this.future.proceed afterwards).2.2) =
        rest.map (Afterwards.work this.future) :=
      List.map_congr_left (fun left _ => work_of_same left others)
    unfold workLeft
    rw [future_advanced, outside]
    cases progress : (this.future.proceed afterwards).2.1 with
    | returns answer =>
        rw [progress] at less
        simp only [advanced, outside, List.eraseIdx_cons_zero, same, List.map_cons,
          List.sum_cons]
        exact Nat.lt_add_of_pos_left less
    | goesOn moved =>
        rw [progress] at less
        simp only [advanced, outside, List.set_cons_zero, same, List.map_cons, List.sum_cons]
        exact Nat.add_lt_add_right less _

/-- Whatever calls are under way, they can all return. -/
theorem comes_to_rest (work : Nat) (this : FutureCalls) (bound : this.workLeft ≤ work) :
    ∃ accesses quiet, Run Step this accesses quiet ∧
      (∀ action ∈ accesses, action = .proceed 0) ∧ quiet.outside = [] := by
  induction work generalizing this with
  | zero =>
      cases outside : this.outside with
      | nil => exact ⟨[], this, .nil this, nofun, outside⟩
      | cons afterwards rest =>
          rcases this.first_proceeds outside with ⟨after, _, less⟩
          omega
  | succ work ih =>
      cases outside : this.outside with
      | nil => exact ⟨[], this, .nil this, nofun, outside⟩
      | cons afterwards rest =>
          rcases this.first_proceeds outside with ⟨after, stepped, less⟩
          rcases ih after (by omega) with ⟨accesses, quiet, run, own, empty⟩
          refine ⟨.proceed 0 :: accesses, quiet, .cons stepped run, ?_, empty⟩
          intro action member
          rcases List.mem_cons.mp member with same | later
          · exact same
          · exact own action later

/-- The values the four observers return. -/
def observed (future : DefaultChannelFuture) : Bool × Bool × Bool × Option FailureCause :=
  (future.isDone, future.isSuccess, future.isCancelled, future.getCause)

theorem observed_of_same {first second : DefaultChannelFuture} (done : first.done = second.done)
    (cause : first.cause = second.cause) : observed first = observed second := by
  unfold observed DefaultChannelFuture.isDone DefaultChannelFuture.isSuccess
    DefaultChannelFuture.isCancelled DefaultChannelFuture.getCause
  rw [done, cause]

/-- Every run: one completing call returns true, what the observers return after the
completion never changes, and each listener that stays is notified once, not before. -/
theorem completes_once {cancellable : Bool} {middle final : FutureCalls}
    {earlier later : List Action} (before : Run Step (fresh cancellable) earlier middle)
    (after : Run Step middle later final) :
    middle.future.isDone = earlier.any (Action.completes cancellable) ∧
      middle.completions.count true + middle.outside.countP Afterwards.completing =
        (if middle.future.isDone then 1 else 0) ∧
      (middle.future.isDone = true → observed final.future = observed middle.future) ∧
      (∀ listener, middle.received.count listener ≤ 1) ∧
      (∀ listener ∈ middle.received, middle.future.isDone = true ∧ listener ∈ middle.kept) ∧
      (middle.future.isDone = true → middle.outside = [] →
        ∀ listener ∈ middle.kept, middle.received.count listener = 1) ∧
      ∃ accesses quiet, Run Step middle accesses quiet ∧
        (∀ action ∈ accesses, action = .proceed 0) ∧ quiet.outside = [] := by
  have settling := (Settling.fresh cancellable).run before
  have once (listener : ChannelFutureListener) : middle.kept.count listener ≤ 1 :=
    List.nodup_iff_count.mp settling.distinct listener
  refine ⟨(run_outcome before).1, settling.single, ?_, ?_, ?_, ?_,
    comes_to_rest middle.workLeft middle (Nat.le_refl _)⟩
  · intro done
    have outcome := run_outcome after
    have still : final.future.done = middle.future.done := by
      rw [outcome.1]
      change middle.future.done = true at done
      rw [done, Bool.true_or]
    exact observed_of_same still (outcome.2 done)
  · intro listener
    cases done : middle.future.done with
    | false =>
        rw [(settling.early done).1]
        exact Nat.zero_le _
    | true =>
        have delivered := settling.delivering done listener
        have single := once listener
        omega
  · intro listener member
    cases done : middle.future.done with
    | false =>
        rw [(settling.early done).1] at member
        cases member
    | true =>
        refine ⟨done, ?_⟩
        have delivered := settling.delivering done listener
        have received := List.count_pos_iff.mpr member
        apply List.count_pos_iff.mp
        omega
  · intro done rest listener member
    have delivered := settling.delivering done listener
    rw [rest] at delivered
    have kept := List.count_pos_iff.mpr member
    have single := once listener
    have nothing : (owedAll middle.future []).count listener = 0 := rfl
    omega

theorem completes_once_cancelled :
    ∃ quiet, Run Step (fresh true)
        [.call (.addListener ⟨0, false⟩), .call (.addListener ⟨1, true⟩),
          .call (.addListener ⟨2, false⟩), .call (.removeListener ⟨0, false⟩), .call .cancel,
          .call .setSuccess, .proceed 0, .proceed 0, .proceed 0, .proceed 0, .proceed 0,
          .proceed 0] quiet ∧
      quiet.kept = [⟨1, true⟩, ⟨2, false⟩] ∧
      ∀ listener ∈ quiet.kept, quiet.received.count listener = 1 := by
  have run : Run Step (fresh true)
      [.call (.addListener ⟨0, false⟩), .call (.addListener ⟨1, true⟩),
        .call (.addListener ⟨2, false⟩), .call (.removeListener ⟨0, false⟩), .call .cancel,
        .call .setSuccess, .proceed 0, .proceed 0, .proceed 0, .proceed 0, .proceed 0,
        .proceed 0] _ :=
    .cons rfl (.cons rfl (.cons rfl (.cons rfl (.cons rfl (.cons rfl (.cons rfl (.cons rfl
      (.cons rfl (.cons rfl (.cons rfl (.cons rfl (.nil _))))))))))))
  have once := completes_once run (.nil _)
  exact ⟨_, run, rfl, once.2.2.2.2.2.1 rfl rfl⟩

end FutureCalls

end Cetty
