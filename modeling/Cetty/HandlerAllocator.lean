import Cetty.ActionRuns

/-!
# The storage of a handler allocator

Calls run in any number of threads, cut at the steps of the counter. A thread that comes too late has
raised the counter before it takes that back, so the counter tells how many have the storage or are
about to find out that they have not. The type of the counter is a parameter of the template; it counts
exactly here.
-/

namespace Cetty

open ActionRuns

inductive Pointer where
  | storage
  | heap (address : Nat)
  deriving DecidableEq, Repr

/-- Where the call of a thread stands. -/
inductive AllocatorPhase where
  | idle
  /-- In front of `++in_use_`. -/
  | counting
  /-- The counter was 1, and the storage is about to be returned. -/
  | winning
  /-- The counter was not 1; `--in_use_` comes next. -/
  | losing
  /-- In front of `::operator new`. -/
  | requesting
  /-- `--in_use_` comes next, for the storage. -/
  | releasing
  /-- In front of `::operator delete`. -/
  | deleting
  deriving DecidableEq, Repr

/-- The counter, the pointers that are allocated, and the threads. -/
structure HandlerAllocator where
  inUse : Int
  live : List Pointer
  threads : List AllocatorPhase
  deriving DecidableEq, Repr

namespace HandlerAllocator

inductive Action where
  | allocate (thread size : Nat)
  | increment (thread : Nat)
  | decrement (thread : Nat)
  | handStorage (thread : Nat)
  | operatorNew (thread address : Nat)
  | badAlloc (thread : Nat)
  | deallocate (thread : Nat) (pointer : Pointer)
  | operatorDelete (thread : Nat)
  deriving DecidableEq, Repr

def storageSize : Nat := 1024

def fresh (threads : Nat) : HandlerAllocator := ⟨0, [], List.replicate threads .idle⟩

def moved (this : HandlerAllocator) (thread : Nat) (phase : AllocatorPhase) : HandlerAllocator :=
  { this with threads := this.threads.set thread phase }

/-- What a thread may do next. A pointer is deallocated only while it is allocated, and then no
more. -/
def next (this : HandlerAllocator) : Action → Option HandlerAllocator
  | .allocate thread size =>
      if this.threads[thread]? = some .idle then
        some (this.moved thread (if size < storageSize then .counting else .requesting))
      else none
  | .increment thread =>
      if this.threads[thread]? = some .counting then
        let inUse := this.inUse + 1
        some { this.moved thread (if inUse = 1 then .winning else .losing) with inUse := inUse }
      else none
  | .decrement thread =>
      if this.threads[thread]? = some .losing then
        some { this.moved thread .requesting with inUse := this.inUse - 1 }
      else if this.threads[thread]? = some .releasing then
        some { this.moved thread .idle with inUse := this.inUse - 1 }
      else none
  | .handStorage thread =>
      if this.threads[thread]? = some .winning then
        some { this.moved thread .idle with live := .storage :: this.live }
      else none
  | .operatorNew thread address =>
      if this.threads[thread]? = some .requesting ∧ .heap address ∉ this.live then
        some { this.moved thread .idle with live := .heap address :: this.live }
      else none
  | .badAlloc thread =>
      if this.threads[thread]? = some .requesting then some (this.moved thread .idle) else none
  | .deallocate thread pointer =>
      if this.threads[thread]? = some .idle ∧ pointer ∈ this.live then
        some { this.moved thread (if pointer = .storage then .releasing else .deleting) with
          live := this.live.erase pointer }
      else none
  | .operatorDelete thread =>
      if this.threads[thread]? = some .deleting then some (this.moved thread .idle) else none

def step (before : HandlerAllocator) (action : Action) (after : HandlerAllocator) : Prop :=
  before.next action = some after

/-- How many have the storage: as a pointer, on the way to one or back. -/
def holders (this : HandlerAllocator) : Nat :=
  this.live.count .storage + this.threads.count .winning + this.threads.count .releasing

/-- The storage is handed out once at most, and the counter tells of no more than that when no call is
in progress. -/
structure Exclusive (this : HandlerAllocator) : Prop where
  once : this.live.count .storage + this.threads.count .winning ≤ 1
  nonneg : 0 ≤ this.inUse
  quiet : .storage ∉ this.live → (∀ phase ∈ this.threads, phase = .idle) → this.inUse = 0

/-- The invariant of the counter. -/
structure Tallied (this : HandlerAllocator) : Prop where
  tally : this.inUse = this.holders + this.threads.count .losing
  single : this.holders ≤ 1

/-- A thread that changes its phase is counted in the new one. -/
theorem count_set {threads : List AllocatorPhase} {thread : Nat} {old : AllocatorPhase}
    (found : threads[thread]? = some old) (new phase : AllocatorPhase) :
    (threads.set thread new).count phase + (if old = phase then 1 else 0) =
      threads.count phase + (if new = phase then 1 else 0) := by
  rcases split_at found with ⟨front, back, whole, replaced, _⟩
  rw [replaced, whole]
  simp only [List.count_append, List.count_cons, beq_iff_eq]
  omega

/-- What a thread in a phase has of the storage. -/
def share (phase : AllocatorPhase) : Nat :=
  (if phase = .winning then 1 else 0) + (if phase = .releasing then 1 else 0)

def lost (phase : AllocatorPhase) : Nat := if phase = .losing then 1 else 0

/-- The counter follows what becomes of one thread and of the pointers. A further holder comes in only
where the counter was 0. -/
theorem Tallied.changed {before after : HandlerAllocator} {thread : Nat} {old new : AllocatorPhase}
    (holds : before.Tallied) (found : before.threads[thread]? = some old)
    (threads : after.threads = before.threads.set thread new)
    (counter : after.inUse + share old + lost old + before.live.count .storage =
      before.inUse + share new + lost new + after.live.count .storage)
    (fewer : after.live.count .storage + share new ≤ before.live.count .storage + share old ∨
      before.inUse = 0 ∧ after.live.count .storage + share new ≤ 1 + before.live.count .storage) :
    after.Tallied := by
  have tally := holds.tally
  have single := holds.single
  have winning := count_set found new .winning
  have losing := count_set found new .losing
  have releasing := count_set found new .releasing
  rw [← threads] at winning losing releasing
  simp only [holders] at tally single
  simp only [share, lost] at counter fewer
  constructor
  · simp only [holders]
    omega
  · simp only [holders]
    omega

theorem Tallied.step {before after : HandlerAllocator} {action : Action} (holds : before.Tallied)
    (taken : before.step action after) : after.Tallied := by
  simp only [HandlerAllocator.step] at taken
  cases action with
  | allocate thread size =>
      simp only [next] at taken
      split at taken
      next found =>
        cases taken
        apply holds.changed found rfl
        · split <;> rfl
        · left
          split <;> exact Nat.le_refl _
      next => cases taken
  | increment thread =>
      simp only [next] at taken
      split at taken
      next found =>
        cases taken
        by_cases first : before.inUse + 1 = 1
        · simp only [if_pos first]
          apply holds.changed found rfl
          · simp [share, lost, HandlerAllocator.moved]
          · right
            simp [share, HandlerAllocator.moved]
            omega
        · simp only [if_neg first]
          apply holds.changed found rfl
          · simp [share, lost, HandlerAllocator.moved]
          · exact .inl (Nat.le_refl _)
      next => cases taken
  | decrement thread =>
      simp only [next] at taken
      split at taken
      next found =>
        cases taken
        apply holds.changed found rfl
        · simp [share, lost, HandlerAllocator.moved]
        · exact .inl (Nat.le_refl _)
      next =>
        split at taken
        next found =>
          cases taken
          apply holds.changed found rfl
          · simp [share, lost, HandlerAllocator.moved]
          · exact .inl (Nat.le_succ _)
        next => cases taken
  | handStorage thread =>
      simp only [next] at taken
      split at taken
      next found =>
        cases taken
        apply holds.changed found rfl
        · simp [share, lost, HandlerAllocator.moved]
          omega
        · left
          simp [share]
      next => cases taken
  | operatorNew thread address =>
      simp only [next] at taken
      split at taken
      next found =>
        cases taken
        apply holds.changed found.1 rfl
        · simp [share, lost, HandlerAllocator.moved]
        · left
          simp [share]
      next => cases taken
  | badAlloc thread =>
      simp only [next] at taken
      split at taken
      next found =>
        cases taken
        exact holds.changed found rfl rfl (.inl (Nat.le_refl _))
      next => cases taken
  | deallocate thread pointer =>
      simp only [next] at taken
      split at taken
      next found =>
        cases taken
        by_cases storage : pointer = .storage
        · subst storage
          have less : (before.live.erase .storage).count .storage + 1 =
              before.live.count .storage := by
            have taken := List.count_pos_iff.mpr found.2
            rw [List.count_erase_self]
            omega
          simp only [if_true]
          apply holds.changed found.1 rfl
          · simp only [share, lost, HandlerAllocator.moved, reduceCtorEq, if_true, if_false]
            omega
          · left
            simp only [share, reduceCtorEq, if_true, if_false]
            omega
        · have apart : (before.live.erase pointer).count .storage = before.live.count .storage :=
            List.count_erase_of_ne (fun same => storage same.symm)
          simp only [if_neg storage]
          apply holds.changed found.1 rfl
          · simp [share, lost, apart, HandlerAllocator.moved]
          · exact .inl (Nat.le_of_eq apart)
      next => cases taken
  | operatorDelete thread =>
      simp only [next] at taken
      split at taken
      next found =>
        cases taken
        exact holds.changed found rfl rfl (.inl (Nat.le_refl _))
      next => cases taken

theorem fresh_tallied (threads : Nat) : (fresh threads).Tallied := by
  constructor <;> simp [fresh, holders, List.count_replicate]

theorem Tallied.exclusive {this : HandlerAllocator} (holds : this.Tallied) : this.Exclusive := by
  have tally := holds.tally
  have single := holds.single
  simp only [holders] at tally single
  constructor
  · omega
  · omega
  · intro none resting
    have absent : ∀ phase, phase ≠ .idle → this.threads.count phase = 0 := by
      intro phase busy
      apply List.count_eq_zero.mpr
      intro present
      exact busy (resting phase present)
    rw [List.count_eq_zero.mpr none, absent .winning nofun, absent .releasing nofun,
      absent .losing nofun] at tally
    exact tally

/-- Whatever the threads do, in any order of their steps. -/
theorem storage_exclusive {threads : Nat} {actions : List Action} {after : HandlerAllocator}
    (run : Run step (fresh threads) actions after) : after.Exclusive := by
  have preserved : ∀ (before : HandlerAllocator) (action : Action) (after : HandlerAllocator),
      before.Tallied → before.step action after → after.Tallied := by
    intro before action after holds taken
    exact holds.step taken
  exact (run.invariant preserved (fresh_tallied threads)).exclusive

/-- The storage is given back by a thread that did not get it, while another is still losing. -/
theorem storage_exclusive_three :
    (⟨1, [], [.idle, .idle, .losing]⟩ : HandlerAllocator).Exclusive :=
  @storage_exclusive 3
    [.allocate 0 16, .increment 0, .handStorage 0, .allocate 2 16, .increment 2,
      .deallocate 1 .storage, .decrement 1] _
    (.cons rfl (.cons rfl (.cons rfl (.cons rfl (.cons rfl (.cons rfl (.cons rfl (.nil _))))))))

end HandlerAllocator

end Cetty
