import Mathlib.Data.List.Count
import Cetty.FutureCompletion

/-!
# The listeners of a future

Any sequence of registrations and removals made before the completion, and whom the
completion then notifies. A listener taken from the first slot leaves the other
registrations of the same listener behind, and a function replaces the one before it.
-/

namespace Cetty

namespace DefaultChannelFuture

inductive Registration where
  | addListener (listener : ChannelFutureListener)
  | setListener (listener : Nat)
  | removeListener (listener : ChannelFutureListener)
  deriving DecidableEq, Repr

inductive Completion where
  | setSuccess
  | setFailure (cause : Exception)
  | cancel

def register (this : DefaultChannelFuture) : Registration → DefaultChannelFuture
  | .addListener listener => (this.addListener listener).2
  | .setListener listener => (this.setListener listener).2
  | .removeListener listener => (this.removeListener listener).2

/-- A new future after these calls. -/
def afterCalls (cancellable : Bool) (calls : List Registration) : DefaultChannelFuture :=
  calls.foldl register (make cancellable)

/-- What is left of a call outside the lock, run to its end. -/
def finish : Nat → DefaultChannelFuture → Afterwards →
    Option (List Notification × Answer × DefaultChannelFuture)
  | 0, _, _ => none
  | fuel + 1, this, afterwards =>
      match this.proceed afterwards with
      | (notified, .returns answer, after) => some (notified, answer, after)
      | (notified, .goesOn more, after) => do
          let (rest, answer, final) ← finish fuel after more
          pure (notified ++ rest, answer, final)

def enter (this : DefaultChannelFuture) : Completion → Progress × DefaultChannelFuture
  | .setSuccess => this.setSuccess
  | .setFailure cause => this.setFailure cause
  | .cancel => this.cancel

/-- A completion with all its notifications. -/
def complete (this : DefaultChannelFuture) (completion : Completion) :
    Option (List Notification × Answer × DefaultChannelFuture) :=
  match this.enter completion with
  | (.returns answer, after) => some ([], answer, after)
  | (.goesOn afterwards, after) => finish (afterwards.work after) after afterwards

/-- The registrations that stand by the documentation, in order. -/
def stillAdded (kept : List ChannelFutureListener) : Registration → List ChannelFutureListener
  | .addListener listener => kept ++ [listener]
  | .setListener _ => kept
  | .removeListener listener => kept.filter (· ≠ listener)

def added (calls : List Registration) : List ChannelFutureListener := calls.foldl stillAdded []

def functionOf : Registration → Option Nat
  | .setListener listener => some listener
  | _ => none

/-- The functions passed to `setListener`, in order. -/
def functions (calls : List Registration) : List Nat := calls.filterMap functionOf

/-- Every listener that was added and not removed, and every function, is notified once
for each time it was registered, and no other one. -/
structure AsDocumented (calls : List Registration) (notified : List Notification) : Prop where
  listeners : ∀ listener,
    notified.count (.operationComplete listener) = (added calls).count listener
  functions : ∀ function,
    notified.count (.function function) = (functions calls).count function

/-- The last removal of a listener finds it either in the first slot or in the list. -/
def TakenWhole (cancellable : Bool) (calls : List Registration)
    (listener : ChannelFutureListener) : Prop :=
  ∀ before after, calls = before ++ .removeListener listener :: after →
    .removeListener listener ∉ after →
      ¬((afterCalls cancellable before).firstListener = some listener ∧
        listener ∈ (afterCalls cancellable before).otherListeners)

section Finishing

variable (this : DefaultChannelFuture)

theorem finish_function (fuel : Nat) :
    finish (fuel + 3) this .notifyFunction =
      some (this.functionListener.toList.map .function, .completing true,
        { this with functionListener := none }) := by
  cases slot : this.functionListener with
  | none =>
      have same : { this with functionListener := none } = this := by rw [← slot]
      simp only [finish, proceed, slot, same]
      rfl
  | some listener =>
      simp only [finish, proceed, slot]
      rfl

theorem finish_others (left : List ChannelFutureListener) (fuel position : Nat)
    (rest : this.otherListeners.drop position = left) :
    finish (left.length + fuel + 4) this (.notifyOther position) =
      some (left.map .operationComplete ++ this.functionListener.toList.map .function,
        .completing true, { this with functionListener := none }) := by
  induction left generalizing position with
  | nil =>
      have past : this.otherListeners[position]? = none := by
        rw [← List.head?_drop, rest]
        rfl
      rw [show ([] : List ChannelFutureListener).length + fuel + 4 = (fuel + 3) + 1 by
        rw [List.length_nil]; omega, finish]
      simp only [proceed, past, finish_function]
      rfl
  | cons listener left ih =>
      have here : this.otherListeners[position]? = some listener := by
        rw [← List.head?_drop, rest]
        rfl
      have next : this.otherListeners.drop (position + 1) = left := by
        rw [← List.tail_drop, rest]
        rfl
      rw [show (listener :: left).length + fuel + 4 = (left.length + fuel + 4) + 1 by
        rw [List.length_cons]; omega, finish]
      simp only [proceed, here, ih (position + 1) next]
      rfl

/-- Every registered listener is notified, then the function. -/
theorem finish_first (promoted : this.firstListener = none → this.otherListeners = []) :
    ∃ final, finish (Afterwards.work this .notifyFirst) this .notifyFirst =
      some ((FutureCalls.registered this).map .operationComplete ++
        this.functionListener.toList.map .function, .completing true, final) := by
  unfold Afterwards.work FutureCalls.registered
  cases slot : this.firstListener with
  | none =>
      refine ⟨{ this with functionListener := none }, ?_⟩
      rw [show this.otherListeners.length + 6 = (this.otherListeners.length + 2 + 3) + 1 by omega,
        finish]
      simp only [proceed, slot, finish_function, promoted slot]
      rfl
  | some listener =>
      have others := finish_others { this with firstListener := none } this.otherListeners 0 0 rfl
      refine ⟨{ { this with firstListener := none } with functionListener := none }, ?_⟩
      rw [show this.otherListeners.length + 6 = (this.otherListeners.length + 0 + 4) + 1 + 1 by omega,
        finish]
      simp only [proceed, slot]
      rw [finish]
      simp only [proceed, others]
      rfl

end Finishing

section Held

open FutureCalls

/-- What the slot and the list hold after a call. -/
def hold (held : List ChannelFutureListener) : Registration → List ChannelFutureListener
  | .addListener listener => held ++ [listener]
  | .setListener _ => held
  | .removeListener listener =>
      if held.head? = some listener then held.tail else held.filter (· ≠ listener)

/-- Before the completion: an empty slot has no listeners behind it. -/
structure Open (this : DefaultChannelFuture) : Prop where
  notDone : this.done = false
  promoted : this.firstListener = none → this.otherListeners = []

variable {this : DefaultChannelFuture}

theorem registered_head (open_ : this.Open) :
    (registered this).head? = this.firstListener ∧
      (registered this).tail = this.otherListeners := by
  unfold registered
  cases slot : this.firstListener with
  | none =>
      rw [open_.promoted slot]
      exact ⟨rfl, rfl⟩
  | some listener => exact ⟨rfl, rfl⟩

theorem hold_removed (held : List ChannelFutureListener) (listener : ChannelFutureListener) :
    hold held (.removeListener listener) =
      if held.head? = some listener then held.tail else held.filter (· ≠ listener) := rfl

theorem removeFromListeners_held (open_ : this.Open)
    (listener : ChannelFutureListener) :
    registered (this.removeFromListeners listener) =
        hold (registered this) (.removeListener listener) ∧
      ((this.removeFromListeners listener).firstListener = none →
        (this.removeFromListeners listener).otherListeners = []) := by
  rw [hold_removed, (registered_head open_).1, (registered_head open_).2]
  unfold removeFromListeners
  by_cases first : this.firstListener = some listener
  · rw [if_pos first, if_pos first]
    cases others : this.otherListeners with
    | nil => exact ⟨rfl, fun _ => rfl⟩
    | cons front rest => exact ⟨rfl, nofun⟩
  · rw [if_neg first, if_neg first]
    constructor
    · unfold registered
      cases slot : this.firstListener with
      | none => rfl
      | some front =>
          have different : decide (front ≠ listener) = true :=
            decide_eq_true (fun same => first (slot.trans (congrArg some same)))
          rw [Option.toList_some, List.filter_append, List.filter_singleton, different]
          rfl
    · intro empty
      exact congrArg (List.filter (· ≠ listener)) (open_.promoted empty)

theorem register_open (open_ : this.Open) (call : Registration) :
    (this.register call).Open ∧ registered (this.register call) = hold (registered this) call := by
  have notDone : ¬this.done = true := by
    rw [open_.notDone]
    exact Bool.false_ne_true
  cases call with
  | addListener listener =>
      have added := registered_addToListeners open_.promoted listener
      simp only [register, addListener, if_neg notDone]
      refine ⟨⟨(done_addToListeners this listener).trans open_.notDone, ?_⟩, added.1⟩
      intro empty
      exact absurd empty added.2
  | setListener listener =>
      simp only [register, setListener, if_neg notDone]
      exact ⟨⟨open_.notDone, open_.promoted⟩, rfl⟩
  | removeListener listener =>
      have removed := removeFromListeners_held open_ listener
      simp only [register, removeListener, if_pos notDone]
      refine ⟨⟨?_, removed.2⟩, removed.1⟩
      exact (kept_removeFromListeners this listener).1.trans open_.notDone

theorem cancellable_register (this : DefaultChannelFuture) (call : Registration) :
    (this.register call).cancellable = this.cancellable := by
  cases call with
  | addListener listener =>
      simp only [register, addListener, addToListeners]
      split
      · rfl
      · cases this.firstListener <;> rfl
  | setListener listener =>
      simp only [register, setListener]
      split <;> rfl
  | removeListener listener =>
      simp only [register, removeListener]
      split
      · exact (kept_removeFromListeners this listener).2
      · rfl

section

variable (cancellable : Bool) (calls : List Registration)

include cancellable calls

theorem afterCalls_snoc (call : Registration) :
    afterCalls cancellable (calls ++ [call]) = (afterCalls cancellable calls).register call := by
  unfold afterCalls
  rw [List.foldl_append]
  rfl

theorem afterCalls_open :
    (afterCalls cancellable calls).Open ∧
      registered (afterCalls cancellable calls) = calls.foldl hold [] := by
  induction calls using List.reverseRecOn with
  | nil => exact ⟨⟨rfl, fun _ => rfl⟩, rfl⟩
  | append_singleton calls call ih =>
      have next := register_open ih.1 call
      rw [afterCalls_snoc, List.foldl_append]
      refine ⟨next.1, ?_⟩
      rw [next.2, ih.2]
      rfl

theorem cancellable_afterCalls :
    (afterCalls cancellable calls).cancellable = cancellable := by
  induction calls using List.reverseRecOn with
  | nil => rfl
  | append_singleton calls call ih =>
      rw [afterCalls_snoc, cancellable_register]
      exact ih

end

theorem added_snoc (calls : List Registration) (call : Registration) :
    added (calls ++ [call]) = stillAdded (added calls) call := by
  unfold added
  rw [List.foldl_append]
  rfl

theorem count_filter_own (kept : List ChannelFutureListener) (listener : ChannelFutureListener) :
    (kept.filter (· ≠ listener)).count listener = 0 := by
  apply List.count_eq_zero.mpr
  intro among
  exact of_decide_eq_true (List.mem_filter.mp among).2 rfl

/-- A removal takes all registrations of the listener unless it takes the first of several. -/
theorem count_hold_removed (held : List ChannelFutureListener)
    (listener : ChannelFutureListener) :
    (hold held (.removeListener listener)).count listener = 0 ↔
      ¬(held.head? = some listener ∧ listener ∈ held.tail) := by
  rw [hold_removed]
  by_cases first : held.head? = some listener
  · rw [if_pos first, List.count_eq_zero]
    simp only [first, true_and]
  · rw [if_neg first, count_filter_own]
    simp only [first, false_and, not_false_eq_true]

section

variable {listener other : ChannelFutureListener} (different : other ≠ listener)

include different

theorem count_hold_other (held : List ChannelFutureListener) :
    (hold held (.removeListener other)).count listener = held.count listener := by
  rw [hold_removed]
  cases held with
  | nil => simp
  | cons front rest =>
      by_cases first : (front :: rest).head? = some other
      · rw [if_pos first]
        rw [Option.some.inj first, List.tail_cons, List.count_cons_of_ne different]
      · rw [if_neg first]
        exact List.count_filter (decide_eq_true different.symm)

theorem count_filter_other (kept : List ChannelFutureListener) :
    (kept.filter (· ≠ other)).count listener = kept.count listener :=
  List.count_filter (decide_eq_true different.symm)

end

/-- The last call decides, where it is a removal of this listener. -/
theorem takenWhole_removed (cancellable : Bool) (calls : List Registration)
    (listener : ChannelFutureListener) :
    TakenWhole cancellable (calls ++ [.removeListener listener]) listener ↔
      ¬((afterCalls cancellable calls).firstListener = some listener ∧
        listener ∈ (afterCalls cancellable calls).otherListeners) := by
  constructor
  · intro taken
    exact taken calls [] rfl List.not_mem_nil
  · intro whole before after split_ last
    have ending : after = [] := by
      cases after using List.reverseRecOn with
      | nil => rfl
      | append_singleton front final =>
          have same := congrArg List.getLast? split_
          rw [List.getLast?_concat, show before ++ .removeListener listener :: (front ++ [final]) =
            (before ++ .removeListener listener :: front) ++ [final] by simp,
            List.getLast?_concat] at same
          have equal := (Option.some.inj same).symm
          exact absurd (equal ▸ List.mem_append_right _ List.mem_cons_self) last
    rw [ending] at split_
    have front := List.append_inj_left' split_ rfl
    rw [← front]
    exact whole

theorem takenWhole_other {cancellable : Bool} {listener : ChannelFutureListener}
    {call : Registration} (other : call ≠ .removeListener listener) (calls : List Registration) :
    TakenWhole cancellable (calls ++ [call]) listener ↔ TakenWhole cancellable calls listener := by
  constructor
  · intro taken before after split_ last
    have longer : calls ++ [call] = before ++ .removeListener listener :: (after ++ [call]) := by
      rw [split_, List.append_assoc]
      rfl
    apply taken before (after ++ [call]) longer
    intro among
    rcases List.mem_append.mp among with early | final
    · exact last early
    · exact other (List.mem_singleton.mp final).symm
  · intro taken before after split_ last
    cases after using List.reverseRecOn with
    | nil =>
        have final := List.append_inj_right' split_ rfl
        exact absurd (List.cons.inj final).1 other
    | append_singleton front final =>
        have inner : calls = before ++ .removeListener listener :: front := by
          have grouped : calls ++ [call] = (before ++ .removeListener listener :: front) ++ [final] := by
            rw [split_, List.append_assoc]
            rfl
          exact List.append_inj_left' grouped rfl
        apply taken before front inner
        intro among
        exact last (List.mem_append_left _ among)

/-- The slot and the list hold a listener as often as it should stand exactly when its
last removal took it whole. -/
theorem held_iff (cancellable : Bool) (calls : List Registration)
    (listener : ChannelFutureListener) :
    (calls.foldl hold []).count listener = (added calls).count listener ↔
      TakenWhole cancellable calls listener := by
  induction calls using List.reverseRecOn with
  | nil =>
      refine ⟨fun _ before after split_ => ?_, fun _ => rfl⟩
      exact absurd split_.symm (by simp)
  | append_singleton calls call ih =>
      rw [List.foldl_append, added_snoc]
      change (hold (calls.foldl hold []) call).count listener = _ ↔ _
      cases call with
      | addListener other =>
          rw [takenWhole_other (by simp), ← ih]
          change (_ ++ [other]).count listener = (_ ++ [other]).count listener ↔ _
          rw [List.count_append, List.count_append]
          omega
      | setListener function =>
          rw [takenWhole_other (by simp), ← ih]
          rfl
      | removeListener other =>
          by_cases same : other = listener
          · subst same
            have gone : (stillAdded (added calls) (.removeListener other)).count other = 0 :=
              count_filter_own _ other
            have holds := afterCalls_open cancellable calls
            have head := registered_head holds.1
            rw [holds.2] at head
            rw [gone, count_hold_removed, takenWhole_removed, head.1, head.2]
          · rw [takenWhole_other (by simpa using same), ← ih, count_hold_other same]
            change _ = ((added calls).filter (· ≠ other)).count listener ↔ _
            rw [count_filter_other same]

theorem functionListener_register (open_ : this.Open)
    (call : Registration) :
    (this.register call).functionListener =
      (match functionOf call with
        | some listener => some listener
        | none => this.functionListener) := by
  have notDone : ¬this.done = true := by
    rw [open_.notDone]
    exact Bool.false_ne_true
  cases call with
  | addListener listener =>
      simp only [register, addListener, if_neg notDone]
      unfold addToListeners
      cases this.firstListener <;> rfl
  | setListener listener =>
      simp only [register, setListener, if_neg notDone]
      rfl
  | removeListener listener =>
      simp only [register, removeListener, if_pos notDone]
      unfold removeFromListeners
      split
      · cases this.otherListeners <;> rfl
      · rfl

/-- Only the last function is kept. -/
theorem functionListener_afterCalls (cancellable : Bool) (calls : List Registration) :
    (afterCalls cancellable calls).functionListener = (functions calls).getLast? := by
  induction calls using List.reverseRecOn with
  | nil => rfl
  | append_singleton calls call ih =>
      rw [afterCalls_snoc, functionListener_register (afterCalls_open cancellable calls).1]
      unfold functions at ih ⊢
      rw [List.filterMap_append]
      cases called : functionOf call with
      | some listener =>
          rw [List.filterMap_cons_some called, List.filterMap_nil, List.getLast?_append]
          rfl
      | none =>
          rw [List.filterMap_cons_none called, List.filterMap_nil, List.append_nil]
          exact ih

theorem last_only_iff (functions : List Nat) :
    (∀ function, functions.getLast?.toList.count function = functions.count function) ↔
      functions.length ≤ 1 := by
  constructor
  · intro counts
    have permuted := (List.perm_iff_count.mpr counts).length_eq
    rw [← permuted]
    exact Option.length_toList_le
  · intro few function
    match functions, few with
    | [], _ => rfl
    | [only], _ => rfl

theorem count_notified (listeners : List ChannelFutureListener) (function : Option Nat) :
    (∀ listener, (listeners.map Notification.operationComplete ++
        function.toList.map Notification.function).count (.operationComplete listener) =
      listeners.count listener) ∧
    ∀ listener, (listeners.map Notification.operationComplete ++
        function.toList.map Notification.function).count (.function listener) =
      function.toList.count listener := by
  constructor
  · intro listener
    rw [List.count_append, List.count_map_of_injective _ _ (fun _ _ same => by cases same; rfl)]
    have other : (function.toList.map Notification.function).count
        (.operationComplete listener) = 0 := by
      apply List.count_eq_zero.mpr
      simp
    rw [other, Nat.add_zero]
  · intro listener
    have other : (listeners.map Notification.operationComplete).count (.function listener) = 0 := by
      apply List.count_eq_zero.mpr
      simp
    rw [List.count_append, other, Nat.zero_add,
      List.count_map_of_injective _ _ (fun _ _ same => by cases same; rfl)]

/-- A completion notifies what the slots hold. -/
theorem complete_notifies (cancellable : Bool) (calls : List Registration)
    (completion : Completion) (completes : completion = .cancel → cancellable = true) :
    ∃ final, (afterCalls cancellable calls).complete completion =
      some ((registered (afterCalls cancellable calls)).map .operationComplete ++
        (functions calls).getLast?.toList.map .function, .completing true, final) := by
  have open_ := (afterCalls_open cancellable calls).1
  have notDone : ¬(afterCalls cancellable calls).done = true := by
    rw [open_.notDone]
    exact Bool.false_ne_true
  rw [← functionListener_afterCalls cancellable calls]
  unfold complete
  cases completion with
  | setSuccess =>
      simp only [enter, setSuccess, if_neg notDone]
      exact finish_first { afterCalls cancellable calls with done := true } open_.promoted
  | setFailure cause =>
      simp only [enter, setFailure, if_neg notDone]
      exact finish_first { afterCalls cancellable calls with
        cause := some (.copied cause.message), done := true } open_.promoted
  | cancel =>
      have allowed : (afterCalls cancellable calls).cancellable = true := by
        rw [cancellable_afterCalls]
        exact completes rfl
      simp only [enter, cancel]
      rw [if_neg (not_not_intro allowed), if_neg notDone]
      exact finish_first { afterCalls cancellable calls with
        cause := some .cancelled, done := true } open_.promoted

/-- The completion notifies whom the documentation names exactly when at most one function
was set and the last removal of each listener took all its registrations. -/
theorem listeners_notified_iff (cancellable : Bool) (calls : List Registration)
    (completion : Completion) (completes : completion = .cancel → cancellable = true) :
    ∃ notified final, (afterCalls cancellable calls).complete completion =
        some (notified, .completing true, final) ∧
      (AsDocumented calls notified ↔
        (functions calls).length ≤ 1 ∧ ∀ listener, TakenWhole cancellable calls listener) := by
  obtain ⟨final, notifies⟩ := complete_notifies cancellable calls completion completes
  refine ⟨_, final, notifies, ?_⟩
  have counts := count_notified (registered (afterCalls cancellable calls))
    (functions calls).getLast?
  constructor
  · intro documented
    constructor
    · apply (last_only_iff (functions calls)).mp
      intro function
      rw [← counts.2 function]
      exact documented.functions function
    · intro listener
      apply (held_iff cancellable calls listener).mp
      rw [← (afterCalls_open cancellable calls).2, ← counts.1 listener]
      exact documented.listeners listener
  · intro kept
    constructor
    · intro listener
      rw [counts.1 listener, (afterCalls_open cancellable calls).2]
      exact (held_iff cancellable calls listener).mpr (kept.2 listener)
    · intro function
      rw [counts.2 function]
      exact (last_only_iff (functions calls)).mpr kept.1 function

end Held

/-- A second function replaces the first one; a listener that was added twice and is
removed is notified all the same. -/
theorem listeners_lost :
    (∃ notified final, (afterCalls true [.setListener 1, .setListener 2]).complete .setSuccess =
        some (notified, .completing true, final) ∧
      ¬AsDocumented [.setListener 1, .setListener 2] notified) ∧
    ∃ notified final, (afterCalls true [.addListener ⟨1, false⟩, .addListener ⟨1, false⟩,
        .removeListener ⟨1, false⟩]).complete .setSuccess =
        some (notified, .completing true, final) ∧
      ¬AsDocumented [.addListener ⟨1, false⟩, .addListener ⟨1, false⟩,
        .removeListener ⟨1, false⟩] notified := by
  constructor
  · refine ⟨_, _, rfl, ?_⟩
    intro documented
    have first := documented.functions 1
    revert first
    decide
  · refine ⟨_, _, rfl, ?_⟩
    intro documented
    have removed := documented.listeners ⟨1, false⟩
    revert removed
    decide

/-- A listener is added twice behind another one and removed, and a function is set. -/
theorem listeners_notified_iff_removed :
    ∃ notified final, (afterCalls true [.addListener ⟨1, false⟩, .addListener ⟨2, false⟩,
        .addListener ⟨2, false⟩, .removeListener ⟨2, false⟩, .setListener 1]).complete .cancel =
        some (notified, .completing true, final) ∧
      (AsDocumented [.addListener ⟨1, false⟩, .addListener ⟨2, false⟩,
          .addListener ⟨2, false⟩, .removeListener ⟨2, false⟩, .setListener 1] notified ↔
        1 ≤ 1 ∧ ∀ listener, TakenWhole true [.addListener ⟨1, false⟩, .addListener ⟨2, false⟩,
          .addListener ⟨2, false⟩, .removeListener ⟨2, false⟩, .setListener 1] listener) :=
  listeners_notified_iff true [.addListener ⟨1, false⟩, .addListener ⟨2, false⟩,
    .addListener ⟨2, false⟩, .removeListener ⟨2, false⟩, .setListener 1] .cancel (fun _ => rfl)

end DefaultChannelFuture

end Cetty
