import Cetty.FutureCompletion

/-!
# Progress of a future

The calls of any number of threads once more, now with the order of the notifications
and of the registrations: when a listener is told of progress. `setProgress` copies the
list under the lock and notifies the copy after it has left it.
-/

namespace Cetty

open ActionRuns

/-- The listeners whose progress the call has still to notify. -/
def Afterwards.pending : Afterwards → List ChannelFutureListener
  | .notifyProgress listeners => listeners
  | _ => []

namespace ProgressCalls

inductive Event where
  /-- An `addListener` has registered the listener. -/
  | added (listener : ChannelFutureListener)
  /-- A `removeListener` has returned. -/
  | removed (listener : ChannelFutureListener)
  | notified (notification : Notification)
  deriving DecidableEq, Repr

end ProgressCalls

structure ProgressCalls where
  future : DefaultChannelFuture
  /-- The calls that have left the lock and have not returned. -/
  outside : List Afterwards
  log : List ProgressCalls.Event

namespace ProgressCalls

open FutureCalls (Call Action lockSection)

def fresh (cancellable : Bool) : ProgressCalls := ⟨.make cancellable, [], []⟩

def logged (future : DefaultChannelFuture) : Call → List Event
  | .addListener listener => if future.done then [] else [.added listener]
  | .removeListener listener => [.removed listener]
  | _ => []

/-- What a call leaves to be done outside the lock. -/
def leaves : Progress → List Afterwards
  | .returns _ => []
  | .goesOn afterwards => [afterwards]

def next (this : ProgressCalls) : Action → Option ProgressCalls
  | .call made =>
      let (progress, future) := lockSection this.future made
      some ⟨future, this.outside ++ leaves progress, this.log ++ logged this.future made⟩
  | .proceed position =>
      match this.outside[position]? with
      | some afterwards =>
          let (notifications, progress, future) := this.future.proceed afterwards
          let outside :=
            match progress with
            | .returns _ => this.outside.eraseIdx position
            | .goesOn more => this.outside.set position more
          some ⟨future, outside, this.log ++ notifications.map .notified⟩
      | none => none

def Step (before : ProgressCalls) (action : Action) (after : ProgressCalls) : Prop :=
  before.next action = some after

def withdrawnBy (listener : ChannelFutureListener) (withdrawn : Bool) : Event → Bool
  | .added other => if other = listener then false else withdrawn
  | .removed other => if other = listener then true else withdrawn
  | .notified _ => withdrawn

/-- A removal of the listener has returned, and it has not been added again. -/
def withdrawn (log : List Event) (listener : ChannelFutureListener) : Bool :=
  log.foldl (withdrawnBy listener) false

/-- No listener is told of progress after the completion or after its removal. -/
def Orderly (log : List Event) : Prop :=
  ∀ front listener back, log = front ++ .notified (.operationProgressed listener) :: back →
    .notified (.operationComplete listener) ∉ front ∧ withdrawn front listener = false

/-- The listeners that some `setProgress` has copied and has still to notify. -/
def delivering (this : ProgressCalls) : List ChannelFutureListener :=
  this.outside.flatMap Afterwards.pending

/-- The future is completed while no `setProgress` is at its notifications, and a listener
is removed while none has still to notify it. -/
def Quiet (this : ProgressCalls) : Action → Prop
  | .call (.removeListener listener) => listener ∉ this.delivering
  | .call made =>
      made.completes this.future.cancellable = true → this.future.done = true ∨ this.delivering = []
  | .proceed _ => True

/-- What holds between any two accesses of any of the calls. -/
structure Tidy (this : ProgressCalls) : Prop where
  orderly : Orderly this.log
  kinds : ∀ listener ∈ this.future.progressListeners, listener.progress = true
  /-- Nobody is told of progress any more. -/
  settled : this.future.done = true → this.delivering = []
  early : this.future.done = false → (∀ listener,
    .notified (.operationComplete listener) ∉ this.log) ∧
    ∀ afterwards ∈ this.outside, afterwards.progressing = true
  registered : this.future.done = false → ∀ listener ∈ this.future.progressListeners,
    withdrawn this.log listener = false
  wanted : ∀ listener ∈ this.delivering, withdrawn this.log listener = false

section Logs

section

variable (log : List Event)

include log

theorem withdrawn_snoc (event : Event) (listener : ChannelFutureListener) :
    withdrawn (log ++ [event]) listener = withdrawnBy listener (withdrawn log listener) event := by
  unfold withdrawn
  rw [List.foldl_append]
  rfl

theorem withdrawn_added (added listener : ChannelFutureListener) :
    withdrawn (log ++ [.added added]) listener =
      if added = listener then false else withdrawn log listener :=
  withdrawn_snoc log (.added added) listener

theorem withdrawn_removed (removed listener : ChannelFutureListener) :
    withdrawn (log ++ [.removed removed]) listener =
      if removed = listener then true else withdrawn log listener :=
  withdrawn_snoc log (.removed removed) listener

theorem withdrawn_notified (notification : Notification)
    (listener : ChannelFutureListener) :
    withdrawn (log ++ [.notified notification]) listener = withdrawn log listener :=
  withdrawn_snoc log (.notified notification) listener

end

theorem orderly_nil : Orderly [] := by
  intro front listener back split_
  exact absurd split_.symm (by simp)

theorem orderly_snoc {log : List Event} {event : Event} (orderly : Orderly log)
    (timely : ∀ listener, event = .notified (.operationProgressed listener) →
      .notified (.operationComplete listener) ∉ log ∧ withdrawn log listener = false) :
    Orderly (log ++ [event]) := by
  intro front listener back split_
  cases back using List.reverseRecOn with
  | nil =>
      have same := List.append_inj_right' split_ rfl
      have before := List.append_inj_left' split_ rfl
      rw [← before]
      exact timely listener (List.cons.inj same).1
  | append_singleton rest last =>
      have grouped : log ++ [event] =
          (front ++ .notified (.operationProgressed listener) :: rest) ++ [last] := by
        rw [split_, List.append_assoc]
        rfl
      exact orderly front listener rest (List.append_inj_left' grouped rfl)

end Logs

namespace Tidy

variable {before : ProgressCalls}

/-- Once the future is done it only matters that no delivery is left. -/
theorem of_done {this : ProgressCalls} (done : this.future.done = true)
    (settled : this.delivering = []) (orderly : Orderly this.log)
    (kinds : ∀ listener ∈ this.future.progressListeners, listener.progress = true) :
    Tidy this where
  orderly := orderly
  kinds := kinds
  settled := fun _ => settled
  early := fun open_ => by
    rw [done] at open_
    cases open_
  registered := fun open_ => by
    rw [done] at open_
    cases open_
  wanted := by
    rw [settled]
    intro listener among
    cases among

theorem fresh (cancellable : Bool) : Tidy (fresh cancellable) where
  orderly := orderly_nil
  kinds := fun _ among => by cases among
  settled := fun _ => rfl
  early := fun _ => ⟨fun _ => List.not_mem_nil, fun _ among => by cases among⟩
  registered := fun _ _ among => by cases among
  wanted := fun _ among => by cases among

/-- A call that finds the future done. -/
theorem call_done (tidy : Tidy before) (done : before.future.done = true) {more : List Afterwards}
    (silent : more.flatMap Afterwards.pending = []) {events : List Event}
    (quiet : ∀ event ∈ events, ∃ listener, event = .removed listener) :
    Tidy ⟨before.future, before.outside ++ more, before.log ++ events⟩ := by
  refine of_done (show before.future.done = true from done) ?_ ?_ ?_
  · change (before.outside ++ more).flatMap Afterwards.pending = []
    rw [List.flatMap_append, silent, List.append_nil]
    exact tidy.settled done
  · change Orderly (before.log ++ events)
    induction events using List.reverseRecOn with
    | nil =>
        rw [List.append_nil]
        exact tidy.orderly
    | append_singleton events event ih =>
        rw [← List.append_assoc]
        apply orderly_snoc (ih fun other among => quiet other (List.mem_append_left _ among))
        intro listener told
        obtain ⟨other, removed⟩ := quiet event (List.mem_append_right _ List.mem_cons_self)
        rw [removed] at told
        cases told
  · exact tidy.kinds

/-- The section under the lock completes the future. -/
theorem complete (tidy : Tidy before) (quiet : before.delivering = []) (cause : Option FailureCause) :
    Tidy ⟨{ before.future with cause := cause, done := true },
      before.outside ++ [.notifyFirst], before.log⟩ := by
  apply of_done rfl
  · change (before.outside ++ [Afterwards.notifyFirst]).flatMap Afterwards.pending = []
    rw [List.flatMap_append]
    change before.delivering ++ [] = []
    rw [quiet, List.nil_append]
  · exact tidy.orderly
  · exact tidy.kinds

section

variable (future : DefaultChannelFuture) (listener : ChannelFutureListener)

include future listener

theorem progressListeners_addListener :
    ((future.addToListeners listener).addToProgressListeners listener).progressListeners =
      if listener.progress then future.progressListeners ++ [listener]
      else future.progressListeners := by
  unfold DefaultChannelFuture.addToProgressListeners DefaultChannelFuture.addToListeners
  cases future.firstListener <;> rfl

theorem progressListeners_removeListener :
    ((future.removeFromListeners listener).removeFromProgressListeners listener).progressListeners =
      if listener.progress then future.progressListeners.filter (· ≠ listener)
      else future.progressListeners := by
  have same : (future.removeFromListeners listener).progressListeners =
      future.progressListeners := by
    unfold DefaultChannelFuture.removeFromListeners
    split
    · cases future.otherListeners <;> rfl
    · rfl
  unfold DefaultChannelFuture.removeFromProgressListeners
  rw [same]

end

theorem add (tidy : Tidy before) (open_ : before.future.done = false)
    (listener : ChannelFutureListener) :
    Tidy ⟨(before.future.addToListeners listener).addToProgressListeners listener,
      before.outside, before.log ++ [.added listener]⟩ where
  orderly := orderly_snoc tidy.orderly (fun _ told => by cases told)
  kinds := by
    intro other among
    rw [progressListeners_addListener] at among
    split at among
    · rcases List.mem_append.mp among with earlier | new
      · exact tidy.kinds other earlier
      · rw [List.mem_singleton.mp new]
        assumption
    · exact tidy.kinds other among
  settled := by
    intro done
    have open' := FutureCalls.done_addToListeners before.future listener
    change (before.future.addToListeners listener).done = true at done
    rw [open', open_] at done
    cases done
  early := by
    intro _
    obtain ⟨silent, progress⟩ := tidy.early open_
    refine ⟨fun other among => ?_, progress⟩
    rcases List.mem_append.mp among with earlier | new
    · exact silent other earlier
    · cases List.mem_singleton.mp new
  registered := by
    intro _ other among
    rw [withdrawn_added]
    split
    · rfl
    · rename_i different
      rw [progressListeners_addListener] at among
      have earlier : other ∈ before.future.progressListeners := by
        split at among
        · rcases List.mem_append.mp among with earlier | new
          · exact earlier
          · exact absurd (List.mem_singleton.mp new).symm different
        · exact among
      exact tidy.registered open_ other earlier
  wanted := by
    intro other among
    rw [withdrawn_added]
    split
    · rfl
    · exact tidy.wanted other among

theorem remove (tidy : Tidy before) (open_ : before.future.done = false)
    {listener : ChannelFutureListener} (unwanted : listener ∉ before.delivering) :
    Tidy ⟨(before.future.removeFromListeners listener).removeFromProgressListeners listener,
      before.outside, before.log ++ [.removed listener]⟩ where
  orderly := orderly_snoc tidy.orderly (fun _ told => by cases told)
  kinds := by
    intro other among
    rw [progressListeners_removeListener] at among
    split at among
    · exact tidy.kinds other (List.mem_filter.mp among).1
    · exact tidy.kinds other among
  settled := by
    intro done
    have open' := (FutureCalls.kept_removeFromListeners before.future listener).1
    change (before.future.removeFromListeners listener).done = true at done
    rw [open', open_] at done
    cases done
  early := by
    intro _
    obtain ⟨silent, progress⟩ := tidy.early open_
    refine ⟨fun other among => ?_, progress⟩
    rcases List.mem_append.mp among with earlier | new
    · exact silent other earlier
    · cases List.mem_singleton.mp new
  registered := by
    intro _ other among
    rw [progressListeners_removeListener] at among
    have kept : other ∈ before.future.progressListeners ∧ listener ≠ other := by
      split at among
      · obtain ⟨earlier, different⟩ := List.mem_filter.mp among
        exact ⟨earlier, fun same => of_decide_eq_true different same.symm⟩
      · rename_i plain
        refine ⟨among, fun same => plain ?_⟩
        rw [same]
        exact tidy.kinds other among
    rw [withdrawn_removed, if_neg kept.2]
    exact tidy.registered open_ other kept.1
  wanted := by
    intro other among
    have different : listener ≠ other := by
      intro same
      rw [← same] at among
      exact unwanted among
    rw [withdrawn_removed, if_neg different]
    exact tidy.wanted other among

/-- `setProgress` leaves the lock with a copy of the list. -/
theorem progress (tidy : Tidy before) (open_ : before.future.done = false) :
    Tidy ⟨before.future,
      before.outside ++ [.notifyProgress before.future.progressListeners], before.log⟩ where
  orderly := tidy.orderly
  kinds := tidy.kinds
  settled := by
    intro done
    change before.future.done = true at done
    rw [open_] at done
    cases done
  early := by
    intro _
    obtain ⟨silent, progress⟩ := tidy.early open_
    refine ⟨silent, fun afterwards among => ?_⟩
    rcases List.mem_append.mp among with earlier | new
    · exact progress afterwards earlier
    · rw [List.mem_singleton.mp new]
      rfl
  registered := tidy.registered
  wanted := by
    intro listener among
    change listener ∈ (before.outside ++
      [Afterwards.notifyProgress before.future.progressListeners]).flatMap Afterwards.pending at among
    rw [List.flatMap_append] at among
    rcases List.mem_append.mp among with earlier | new
    · exact tidy.wanted listener earlier
    · rw [List.flatMap_singleton] at new
      exact tidy.registered open_ listener new

theorem lockSection (tidy : Tidy before) {made : Call} (quiet : before.Quiet (.call made)) :
    Tidy ⟨(lockSection before.future made).2,
      before.outside ++ leaves (lockSection before.future made).1,
      before.log ++ logged before.future made⟩ := by
  have same : Tidy ⟨before.future, before.outside ++ [], before.log ++ []⟩ := by
    rw [List.append_nil, List.append_nil]
    exact tidy
  cases done : before.future.done with
  | true =>
      have unchanged : before.future.done = true := done
      cases made with
      | setSuccess =>
          simp only [FutureCalls.lockSection, DefaultChannelFuture.setSuccess, if_pos unchanged]
          exact same
      | setFailure cause =>
          simp only [FutureCalls.lockSection, DefaultChannelFuture.setFailure, if_pos unchanged]
          exact same
      | cancel =>
          simp only [FutureCalls.lockSection, DefaultChannelFuture.cancel, if_pos unchanged, ite_self]
          exact same
      | addListener listener =>
          simp only [FutureCalls.lockSection, DefaultChannelFuture.addListener, if_pos unchanged,
            logged]
          exact tidy.call_done unchanged rfl (fun _ among => by cases among)
      | removeListener listener =>
          simp only [FutureCalls.lockSection, DefaultChannelFuture.removeListener,
            if_neg (not_not_intro unchanged), logged]
          apply tidy.call_done unchanged rfl
          intro event among
          exact ⟨listener, List.mem_singleton.mp among⟩
      | setListener listener =>
          simp only [FutureCalls.lockSection, DefaultChannelFuture.setListener, if_pos unchanged]
          exact tidy.call_done unchanged rfl (fun _ among => by cases among)
      | setProgress =>
          simp only [FutureCalls.lockSection, DefaultChannelFuture.setProgress, if_pos unchanged]
          exact same
  | false =>
      have open_ : ¬before.future.done = true := by
        rw [done]
        exact Bool.false_ne_true
      have still : made.completes before.future.cancellable = true →
          (∀ listener, made ≠ .removeListener listener) → before.delivering = [] := by
        intro completes other
        cases made with
        | removeListener listener => exact absurd rfl (other listener)
        | _ => exact (quiet completes).resolve_left open_
      cases made with
      | setSuccess =>
          simp only [FutureCalls.lockSection, DefaultChannelFuture.setSuccess, if_neg open_, logged,
            List.append_nil]
          exact tidy.complete (still rfl (fun _ same => by cases same)) before.future.cause
      | setFailure cause =>
          simp only [FutureCalls.lockSection, DefaultChannelFuture.setFailure, if_neg open_, logged,
            List.append_nil]
          exact tidy.complete (still rfl (fun _ same => by cases same)) _
      | cancel =>
          simp only [FutureCalls.lockSection, DefaultChannelFuture.cancel]
          by_cases cancellable : before.future.cancellable = true
          · rw [if_neg (not_not_intro cancellable), if_neg open_]
            have completed := tidy.complete
              (still cancellable (fun _ same => by cases same)) (some .cancelled)
            rw [← List.append_nil before.log] at completed
            exact completed
          · rw [if_pos cancellable]
            exact same
      | addListener listener =>
          simp only [FutureCalls.lockSection, DefaultChannelFuture.addListener, if_neg open_, logged,
            leaves, List.append_nil]
          exact tidy.add done listener
      | removeListener listener =>
          simp only [FutureCalls.lockSection, DefaultChannelFuture.removeListener, if_pos open_,
            logged, leaves, List.append_nil]
          exact tidy.remove done quiet
      | setListener listener =>
          simp only [FutureCalls.lockSection, DefaultChannelFuture.setListener, if_neg open_, logged,
            leaves, List.append_nil]
          exact ⟨tidy.orderly, tidy.kinds, tidy.settled, tidy.early, tidy.registered, tidy.wanted⟩
      | setProgress =>
          simp only [FutureCalls.lockSection, DefaultChannelFuture.setProgress, if_neg open_, logged]
          by_cases nobody : before.future.progressListeners = []
          · rw [if_pos nobody]
            exact same
          · rw [if_neg nobody, List.append_nil]
            exact tidy.progress done

/-- Outside the lock only the slots are emptied. -/
theorem proceed_future (future : DefaultChannelFuture) (afterwards : Afterwards) :
    (future.proceed afterwards).2.2.done = future.done ∧
      (future.proceed afterwards).2.2.progressListeners = future.progressListeners := by
  cases afterwards with
  | notifyFirst =>
      simp only [DefaultChannelFuture.proceed]
      cases future.firstListener <;> exact ⟨rfl, rfl⟩
  | notifyOther position =>
      simp only [DefaultChannelFuture.proceed]
      cases future.otherListeners[position]? <;> exact ⟨rfl, rfl⟩
  | notifyFunction =>
      simp only [DefaultChannelFuture.proceed]
      cases future.functionListener <;> exact ⟨rfl, rfl⟩
  | notifyProgress listeners => cases listeners <;> exact ⟨rfl, rfl⟩
  | _ => exact ⟨rfl, rfl⟩

variable {afterwards : Afterwards}

/-- The rest of any other call neither tells of progress nor has to. -/
theorem proceed_other (future : DefaultChannelFuture)
    (other : afterwards.progressing = false) :
    (∀ listener, .operationProgressed listener ∉ (future.proceed afterwards).1) ∧
      (leaves (future.proceed afterwards).2.1).flatMap Afterwards.pending = [] ∧
      afterwards.pending = [] := by
  cases afterwards with
  | notifyFirst =>
      simp only [DefaultChannelFuture.proceed]
      cases future.firstListener <;> simp [leaves, Afterwards.pending]
  | notifyOther position =>
      simp only [DefaultChannelFuture.proceed]
      cases future.otherListeners[position]? <;> simp [leaves, Afterwards.pending]
  | notifyFunction =>
      simp only [DefaultChannelFuture.proceed]
      cases future.functionListener <;> simp [leaves, Afterwards.pending]
  | notifyProgress listeners => cases other
  | _ => simp [DefaultChannelFuture.proceed, leaves, Afterwards.pending]

theorem orderly_append {log : List Event} (orderly : Orderly log) (notified : List Notification)
    (other : ∀ listener, .operationProgressed listener ∉ notified) :
    Orderly (log ++ notified.map .notified) := by
  induction notified using List.reverseRecOn with
  | nil =>
      rw [List.map_nil, List.append_nil]
      exact orderly
  | append_singleton notified last ih =>
      rw [List.map_append, ← List.append_assoc]
      apply orderly_snoc
      · exact ih fun listener among => other listener (List.mem_append_left _ among)
      · intro listener told
        cases told
        exact absurd (List.mem_append_right _ List.mem_cons_self) (other listener)

/-- An access of a call outside the lock. -/
theorem proceed (tidy : Tidy before) {front back : List Afterwards}
    (whole : before.outside = front ++ afterwards :: back) :
    Tidy ⟨(before.future.proceed afterwards).2.2,
      front ++ leaves (before.future.proceed afterwards).2.1 ++ back,
      before.log ++ (before.future.proceed afterwards).1.map .notified⟩ := by
  have kept := proceed_future before.future afterwards
  have kinds : ∀ listener ∈ (before.future.proceed afterwards).2.2.progressListeners,
      listener.progress = true := by
    rw [kept.2]
    exact tidy.kinds
  have waiting : before.delivering =
      front.flatMap Afterwards.pending ++ afterwards.pending ++ back.flatMap Afterwards.pending := by
    unfold delivering
    rw [whole, List.flatMap_append, List.flatMap_cons, List.append_assoc]
  cases progressing : afterwards.progressing with
  | false =>
      obtain ⟨silent, nothing, idle⟩ := proceed_other before.future progressing
      have done : before.future.done = true := by
        cases known : before.future.done with
        | true => rfl
        | false =>
            have progress := (tidy.early known).2 afterwards (by
              rw [whole]
              exact List.mem_append_right _ List.mem_cons_self)
            rw [progressing] at progress
            cases progress
      refine of_done (kept.1.trans done) ?_ (orderly_append tidy.orderly _ silent) kinds
      have settled := tidy.settled done
      rw [waiting, idle, List.append_nil] at settled
      change (front ++ leaves _ ++ back).flatMap Afterwards.pending = []
      rw [List.flatMap_append, List.flatMap_append, nothing, List.append_nil]
      exact settled
  | true =>
      cases afterwards with
      | notifyProgress listeners =>
          cases listeners with
          | nil =>
              change Tidy ⟨before.future, front ++ [] ++ back, before.log ++ []⟩
              have less : (front ++ [] ++ back).flatMap Afterwards.pending = before.delivering := by
                rw [waiting, List.flatMap_append, List.append_nil]
                change _ = front.flatMap Afterwards.pending ++ [] ++ _
                rw [List.append_nil]
              rw [List.append_nil before.log]
              refine ⟨tidy.orderly, tidy.kinds, ?_, ?_, tidy.registered, ?_⟩
              · intro done
                exact less.trans (tidy.settled done)
              · intro open_
                obtain ⟨silent, progress⟩ := tidy.early open_
                refine ⟨silent, fun other among => progress other ?_⟩
                rw [whole]
                change other ∈ front ++ [] ++ back at among
                rw [List.append_nil] at among
                rcases List.mem_append.mp among with early | late
                · exact List.mem_append_left _ early
                · exact List.mem_append_right _ (List.mem_cons_of_mem _ late)
              · intro listener among
                apply tidy.wanted listener
                rw [← less]
                exact among
          | cons listener listeners =>
              change Tidy ⟨before.future, front ++ [.notifyProgress listeners] ++ back,
                before.log ++ [.notified (.operationProgressed listener)]⟩
              have due : listener ∈ before.delivering := by
                rw [waiting]
                exact List.mem_append_left _ (List.mem_append_right _ List.mem_cons_self)
              have less : ∀ other, other ∈ (front ++ [Afterwards.notifyProgress listeners] ++
                  back).flatMap Afterwards.pending → other ∈ before.delivering := by
                intro other among
                rw [waiting]
                rw [List.flatMap_append, List.flatMap_append, List.flatMap_singleton] at among
                rcases List.mem_append.mp among with early | late
                · apply List.mem_append_left
                  rcases List.mem_append.mp early with first | rest
                  · exact List.mem_append_left _ first
                  · exact List.mem_append_right _ (List.mem_cons_of_mem _ rest)
                · exact List.mem_append_right _ late
              have open_ : before.future.done = false := by
                cases known : before.future.done with
                | false => rfl
                | true =>
                    rw [tidy.settled known] at due
                    cases due
              obtain ⟨silent, progress⟩ := tidy.early open_
              refine ⟨?_, tidy.kinds, ?_, ?_, ?_, ?_⟩
              · apply orderly_snoc tidy.orderly
                intro other told
                cases told
                exact ⟨silent listener, tidy.wanted listener due⟩
              · intro done
                change before.future.done = true at done
                rw [open_] at done
                cases done
              · intro _
                constructor
                · intro other among
                  rcases List.mem_append.mp among with early | last
                  · exact silent other early
                  · cases List.mem_singleton.mp last
                · intro other among
                  change other ∈ front ++ [Afterwards.notifyProgress listeners] ++ back at among
                  rcases List.mem_append.mp among with early | late
                  · rcases List.mem_append.mp early with first | rest
                    · apply progress other
                      rw [whole]
                      exact List.mem_append_left _ first
                    · rw [List.mem_singleton.mp rest]
                      rfl
                  · apply progress other
                    rw [whole]
                    exact List.mem_append_right _ (List.mem_cons_of_mem _ late)
              · intro _ other among
                rw [withdrawn_notified]
                exact tidy.registered open_ other among
              · intro other among
                rw [withdrawn_notified]
                exact tidy.wanted other (less other among)
      | _ => cases progressing

theorem step {action : Action} {after : ProgressCalls} (tidy : Tidy before)
    (stepped : Guarded Quiet Step before action after) : Tidy after := by
  obtain ⟨quiet, made⟩ := stepped
  unfold Step next at made
  cases action with
  | call called =>
      cases made
      exact tidy.lockSection quiet
  | proceed position =>
      simp only at made
      cases found : before.outside[position]? with
      | none =>
          rw [found] at made
          cases made
      | some afterwards =>
          simp only [found, Option.some.injEq] at made
          obtain ⟨front, back, whole, replaced, erased⟩ := split_at found
          have moved := tidy.proceed whole
          rw [← made]
          cases progress : (before.future.proceed afterwards).2.1 with
          | returns answer =>
              rw [progress] at moved
              simp only [erased]
              have gone : front ++ leaves (.returns answer) ++ back = front ++ back := by
                rw [leaves, List.append_nil]
              rw [gone] at moved
              exact moved
          | goesOn more =>
              rw [progress] at moved
              simp only [replaced]
              rw [List.append_assoc] at moved
              exact moved

end Tidy

/-- In every run in which the completion and the removals keep out of the notifications
of `setProgress`, no listener is told of progress after the completion or after its
removal. -/
theorem progress_before_completion (cancellable : Bool) (actions : List Action)
    (final : ProgressCalls) (run : Run (Guarded Quiet Step) (fresh cancellable) actions final) :
    Orderly final.log := by
  have tidy : Tidy final := by
    apply run.invariant _ (Tidy.fresh cancellable)
    intro before action after holds stepped
    exact holds.step stepped
  exact tidy.orderly

/-- A progress listener. -/
def watcher : ChannelFutureListener := ⟨1, true⟩

/-- `setProgress` has copied the list; the future is completed, or the listener removed,
before it comes to its notification. -/
theorem progress_after_completion :
    (∃ final, Run Step (fresh true) [.call (.addListener watcher), .call .setProgress,
        .call .setSuccess, .proceed 1, .proceed 0] final ∧ ¬Orderly final.log) ∧
    ∃ final, Run Step (fresh true) [.call (.addListener watcher), .call .setProgress,
        .call (.removeListener watcher), .proceed 0] final ∧ ¬Orderly final.log := by
  constructor
  · refine ⟨_, .cons rfl (.cons rfl (.cons rfl (.cons rfl (.cons rfl (.nil _))))), ?_⟩
    intro orderly
    have late := (orderly [.added watcher, .notified (.operationComplete watcher)] watcher [] rfl).1
    exact late (List.mem_cons_of_mem _ List.mem_cons_self)
  · refine ⟨_, .cons rfl (.cons rfl (.cons rfl (.cons rfl (.nil _)))), ?_⟩
    intro orderly
    have late := (orderly [.added watcher, .removed watcher] watcher [] rfl).2
    revert late
    decide

/-- The progress is notified, then the future is completed. -/
theorem progress_before_completion_notified :
    ∃ final, Run (Guarded Quiet Step) (fresh true) [.call (.addListener watcher),
        .call .setProgress, .proceed 0, .proceed 0, .call .setSuccess, .proceed 0] final ∧
      Orderly final.log := by
  have run : Run (Guarded Quiet Step) (fresh true) [.call (.addListener watcher),
      .call .setProgress, .proceed 0, .proceed 0, .call .setSuccess, .proceed 0] _ :=
    .cons ⟨fun _ => Or.inr rfl, rfl⟩ (.cons ⟨fun _ => Or.inr rfl, rfl⟩ (.cons ⟨trivial, rfl⟩
      (.cons ⟨trivial, rfl⟩ (.cons ⟨fun _ => Or.inr rfl, rfl⟩ (.cons ⟨trivial, rfl⟩ (.nil _))))))
  exact ⟨_, run, progress_before_completion true _ _ run⟩

end ProgressCalls

end Cetty
