import Cetty.ActionRuns
import Cetty.PipelineSoundness

/-!
# Modifications that fail

A modification refuses before it changes anything, or it goes through with its change.
Replacing the first or the last handler is the exception: the removal has been made when
the insertion refuses.
-/

namespace Cetty

open ActionRuns PipelineM

/-- The exceptions with which a modification refuses: of the lookup of a name, of the
check of a new one, of a handler of no direction, of `beforeAdd` and `beforeRemove`. -/
def Stop.refuses : Stop → Bool
  | .thrown ⟨.range, _⟩ => true
  | .thrown ⟨.invalidArgument, _⟩ => true
  | .thrown ⟨.lifeCycle, message⟩ =>
      message = ".beforeAdd() has thrown an exception; not adding." ||
        message = ".beforeRemove() has thrown an exception; not removing."
  | _ => false

namespace DefaultChannelPipeline

/-- The list, the map and both chains are as before: every pointer into them, and every
context there was. -/
structure Unchanged (before after : DefaultChannelPipeline) : Prop where
  head : after.head = before.head
  tail : after.tail = before.tail
  upstreamHead : after.upstreamHead = before.upstreamHead
  downstreamHead : after.downstreamHead = before.downstreamHead
  name2ctx : after.name2ctx = before.name2ctx
  contexts : ∀ address ctx, before.contexts address = some ctx →
    after.contexts address = some ctx

namespace Unchanged

theorem refl (this : DefaultChannelPipeline) : Unchanged this this :=
  ⟨rfl, rfl, rfl, rfl, rfl, fun _ _ stays => stays⟩

theorem trans {first second third : DefaultChannelPipeline} (early : Unchanged first second)
    (late : Unchanged second third) : Unchanged first third where
  head := late.head.trans early.head
  tail := late.tail.trans early.tail
  upstreamHead := late.upstreamHead.trans early.upstreamHead
  downstreamHead := late.downstreamHead.trans early.downstreamHead
  name2ctx := late.name2ctx.trans early.name2ctx
  contexts := fun address ctx stays => late.contexts address ctx (early.contexts address ctx stays)

end Unchanged

end DefaultChannelPipeline

namespace PipelineM

open DefaultChannelPipeline

section Refusals

variable {Value Next : Type}

/-- No outcome of the program is a refusal. -/
def Silent (program : PipelineM Value) : Prop :=
  ∀ before stop after, program.run before = .error stop after → stop.refuses = false

/-- A refusal of the program finds the pipeline as it was. -/
def Atomic (program : PipelineM Value) : Prop :=
  ∀ before, Sound before → ∀ stop after, program.run before = .error stop after →
    stop.refuses = true → Unchanged before after

/-- The program has changed nothing when it returns, or when it refuses. -/
structure Prelude (program : PipelineM Value) : Prop where
  atomic : Atomic program
  returns : ∀ before, Sound before → ∀ value after, program.run before = .ok value after →
    Unchanged before after ∧ Sound after

/-- The program changes nothing at all. -/
def ReadOnly (program : PipelineM Value) : Prop :=
  ∀ start, Keeps (fun this => this = start) program

namespace Silent

theorem pure (value : Value) : Silent (Pure.pure value : PipelineM Value) := by
  intro before stop after ran
  cases ran

theorem throw {stop : Stop} (silent : stop.refuses = false) :
    Silent (throw stop : PipelineM Value) := by
  intro before other after ran
  cases ran
  exact silent

theorem get : Silent (MonadState.get : PipelineM DefaultChannelPipeline) := by
  intro before stop after ran
  cases ran

theorem modify (change : DefaultChannelPipeline → DefaultChannelPipeline) :
    Silent (modify change : PipelineM Unit) := by
  intro before stop after ran
  cases ran

theorem bind {first : PipelineM Value} {next : Value → PipelineM Next} (now : Silent first)
    (later : ∀ value, Silent (next value)) : Silent (first >>= next) := by
  intro before stop after ran
  cases result : first.run before with
  | ok value middle =>
      rw [run_bind_ok _ result] at ran
      exact later value middle stop after ran
  | error early middle =>
      rw [run_bind_error _ result] at ran
      cases ran
      exact now before stop after result

theorem ite {condition : Prop} [Decidable condition] {yes no : PipelineM Value}
    (positive : Silent yes) (negative : Silent no) :
    Silent (if condition then yes else no) := by
  split
  · exact positive
  · exact negative

theorem context (address : Address) : Silent (context address) := by
  apply bind get
  intro this
  cases this.contexts address with
  | none => exact throw rfl
  | some ctx => exact pure ctx

theorem dereference (pointer : Option Address) : Silent (dereference pointer) := by
  cases pointer with
  | none => exact throw rfl
  | some address => exact pure address

theorem update (address : Address)
    (change : DefaultChannelHandlerContext → DefaultChannelHandlerContext) :
    Silent (update address change) := bind (context address) (fun _ => modify _)

theorem delete (address : Address) : Silent (delete address) :=
  bind (context address) (fun _ => modify _)

theorem updateUpstreamFrom (fuel : Nat) (up : Option Address) :
    Silent (updateUpstreamFrom fuel up) := by
  induction fuel generalizing up with
  | zero => exact throw rfl
  | succ fuel ih =>
      cases up with
      | none => exact pure ()
      | some up =>
          apply bind (context up)
          intro ctx
          apply bind
          · apply ite
            · exact bind get (fun _ => bind (ite (update up _) (pure ())) (fun _ => modify _))
            · exact pure ()
          · intro _
            exact ih ctx.prev

theorem updateDownstreamFrom (fuel : Nat) (down : Option Address) :
    Silent (updateDownstreamFrom fuel down) := by
  induction fuel generalizing down with
  | zero => exact throw rfl
  | succ fuel ih =>
      cases down with
      | none => exact pure ()
      | some down =>
          apply bind (context down)
          intro ctx
          apply bind
          · apply ite
            · exact bind get (fun _ => bind (ite (update down _) (pure ())) (fun _ => modify _))
            · exact pure ()
          · intro _
            exact ih ctx.next

theorem updateLists (ups downs : Bool) : Silent (updateLists ups downs) := by
  apply bind
  · exact ite (bind get (fun _ => bind (modify _) (fun _ => updateUpstreamFrom _ _))) (pure ())
  · intro _
    exact ite (bind get (fun _ => bind (modify _) (fun _ => updateDownstreamFrom _ _))) (pure ())

variable (throws : LifeCycleCall → Address → Bool)

theorem callAfterRemove (address : Address) : Silent (callAfterRemove throws address) :=
  bind (context address) (fun _ => ite (throw rfl) (pure ()))

/-- The last lines of every removal. -/
theorem discard (address : Address) (handler : ChannelHandler) :
    Silent (do
      PipelineM.callAfterRemove throws address
      PipelineM.delete address
      Pure.pure handler) :=
  bind (callAfterRemove throws address) (fun _ => bind (delete address) (fun _ => pure handler))

theorem callAfterAdd (address : Address) : Silent (callAfterAdd throws address) := by
  apply bind (context address)
  intro ctx
  apply ite
  · intro before stop after ran
    cases result : (do let _ ← removeContext throws address : PipelineM Unit).run before with
    | ok value middle =>
        unfold takeOut at ran
        rw [run_tryCatch_ok _ result] at ran
        cases ran
    | error early middle =>
        unfold takeOut at ran
        rw [run_tryCatch_error _ result] at ran
        cases early with
        | thrown exception =>
            cases ran
            rfl
        | _ =>
            cases ran
            rfl
  · exact pure ()

end Silent

namespace Atomic

theorem of_silent {program : PipelineM Value} (silent : Silent program) : Atomic program := by
  intro before _ stop after ran refuses
  rw [silent before stop after ran] at refuses
  cases refuses

theorem bind {first : PipelineM Value} {next : Value → PipelineM Next} (now : Prelude first)
    (later : ∀ value, Atomic (next value)) : Atomic (first >>= next) := by
  intro before sound stop after ran refuses
  cases result : first.run before with
  | ok value middle =>
      rw [run_bind_ok _ result] at ran
      rcases now.returns before sound value middle result with ⟨unchanged, still⟩
      exact unchanged.trans (later value middle still stop after ran refuses)
  | error early middle =>
      rw [run_bind_error _ result] at ran
      cases ran
      exact now.atomic before sound stop after result refuses

theorem ite {condition : Prop} [Decidable condition] {yes no : PipelineM Value}
    (positive : Atomic yes) (negative : Atomic no) :
    Atomic (if condition then yes else no) := by
  split
  · exact positive
  · exact negative

end Atomic

namespace Prelude

theorem of_readOnly {program : PipelineM Value} (reads : ReadOnly program) :
    Prelude program where
  atomic := by
    intro before _ stop after ran _
    have same := (reads before).after_error rfl ran
    rw [same]
    exact Unchanged.refl before
  returns := by
    intro before sound value after ran
    have same := (reads before).after_ok rfl ran
    rw [same]
    exact ⟨Unchanged.refl before, sound⟩

theorem get : Prelude (MonadState.get : PipelineM DefaultChannelPipeline) :=
  of_readOnly (fun _ => Keeps.get)

theorem context (address : Address) : Prelude (context address) := by
  apply of_readOnly
  intro start
  apply Keeps.bind Keeps.get
  intro this
  cases this.contexts address with
  | none => exact Keeps.throw _
  | some ctx => exact Keeps.pure ctx

theorem callback_readOnly (throws : LifeCycleCall → Address → Bool) (call : LifeCycleCall)
    (message : String) (address : Address) : ReadOnly (callback throws call message address) := by
  intro start
  apply Keeps.bind
  · apply Keeps.bind Keeps.get
    intro this
    cases this.contexts address with
    | none => exact Keeps.throw _
    | some ctx => exact Keeps.pure ctx
  · intro ctx
    exact Keeps.ite (fun _ => Keeps.throw _) (fun _ => Keeps.pure ())

theorem callback (throws : LifeCycleCall → Address → Bool) (call : LifeCycleCall)
    (message : String) (address : Address) : Prelude (callback throws call message address) :=
  of_readOnly (callback_readOnly throws call message address)

theorem checkDuplicateName (name : String) : Prelude (checkDuplicateName name) :=
  of_readOnly (fun _ => Keeps.bind Keeps.get (fun _ =>
    Keeps.ite (fun _ => Keeps.throw _) (fun _ => Keeps.pure ())))

theorem getContextOrDie (name : String) : Prelude (getContextOrDie name) := by
  apply of_readOnly
  intro start
  apply Keeps.bind Keeps.get
  intro this
  cases this.name2ctx.find name with
  | none => exact Keeps.throw _
  | some address => exact Keeps.pure address

theorem provided {condition : Prop} [Decidable condition] {program : PipelineM Unit}
    (now : Prelude program) : Prelude (provided condition program) := by
  unfold PipelineM.provided
  split
  · exact now
  · exact of_readOnly (fun _ => Keeps.pure ())

theorem newContext (name : String) (handler : ChannelHandler) (prev next : Option Address) :
    Prelude (newContext name handler prev next) where
  atomic := by
    intro before _ stop after ran _
    by_cases idle : ¬handler.upstream ∧ ¬handler.downstream
    · simp only [PipelineM.newContext, PipelineM.provided, if_pos idle] at ran
      cases ran
      exact Unchanged.refl before
    · simp only [PipelineM.newContext, PipelineM.provided, if_neg idle] at ran
      cases ran
  returns := by
    intro before sound value after ran
    by_cases idle : ¬handler.upstream ∧ ¬handler.downstream
    · simp only [PipelineM.newContext, PipelineM.provided, if_pos idle] at ran
      cases ran
    · simp only [PipelineM.newContext, PipelineM.provided, if_neg idle] at ran
      cases ran
      refine ⟨⟨rfl, rfl, rfl, rfl, rfl, ?_⟩, (soundAt_allocated sound _).sound⟩
      intro address ctx here
      have other : address ≠ before.fresh := by
        intro same
        rw [same, sound.allocated before.fresh (Nat.le_refl _)] at here
        cases here
      exact (if_neg other).trans here

end Prelude

section Operations

variable (throws : LifeCycleCall → Address → Bool)

theorem silent_unlinkFirst (ctx : DefaultChannelHandlerContext) : Silent (unlinkFirst ctx) := by
  unfold unlinkFirst
  cases ctx.next with
  | none => exact Silent.bind (Silent.modify _) (fun _ => Silent.bind (Silent.modify _)
      (fun _ => Silent.modify _))
  | some next => exact Silent.bind (Silent.update next _) (fun _ => Silent.bind
      (Silent.modify _) (fun _ => Silent.modify _))

theorem silent_unlinkLast (ctx : DefaultChannelHandlerContext) : Silent (unlinkLast ctx) := by
  unfold unlinkLast
  cases ctx.prev with
  | none => exact Silent.bind (Silent.modify _) (fun _ => Silent.bind (Silent.modify _)
      (fun _ => Silent.modify _))
  | some prev => exact Silent.bind (Silent.update prev _) (fun _ => Silent.bind
      (Silent.modify _) (fun _ => Silent.modify _))

theorem atomic_removeEnd (pointer : Option Address)
    {unlink : DefaultChannelHandlerContext → PipelineM Unit}
    (silent : ∀ ctx, Silent (unlink ctx)) : Atomic (removeEnd throws pointer unlink) := by
  unfold removeEnd
  cases pointer with
  | none =>
      intro before _ stop after ran _
      cases ran
      exact Unchanged.refl before
  | some address =>
      apply Atomic.bind (Prelude.callback throws _ _ address)
      intro _
      apply Atomic.bind (Prelude.context address)
      intro ctx
      apply Atomic.of_silent
      apply Silent.bind (silent ctx)
      intro _
      apply Silent.bind (Silent.updateLists _ _)
      intro _
      exact Silent.discard throws address ctx.handler

theorem atomic_throw {Value : Type} (stop : Stop) : Atomic (throw stop : PipelineM Value) := by
  intro before _ other after ran _
  cases ran
  exact Unchanged.refl before

theorem atomic_removeFirst : Atomic (removeFirst throws) :=
  Atomic.bind Prelude.get (fun _ => Atomic.ite (atomic_throw _)
    (atomic_removeEnd throws _ silent_unlinkFirst))

theorem atomic_removeLast : Atomic (removeLast throws) :=
  Atomic.bind Prelude.get (fun _ => Atomic.ite (atomic_throw _)
    (atomic_removeEnd throws _ silent_unlinkLast))

theorem atomic_removeMiddle (address : Address) : Atomic (removeMiddle throws address) := by
  apply Atomic.bind (Prelude.callback throws _ _ address)
  intro _
  apply Atomic.bind (Prelude.context address)
  intro ctx
  apply Atomic.of_silent
  apply Silent.bind (Silent.dereference _)
  intro prev
  apply Silent.bind (Silent.update prev _)
  intro _
  apply Silent.bind (Silent.dereference _)
  intro next
  apply Silent.bind (Silent.update next _)
  intro _
  apply Silent.bind (Silent.updateLists _ _)
  intro _
  apply Silent.bind (Silent.modify _)
  intro _
  exact Silent.discard throws address ctx.handler

theorem silent_removeOnly (address : Address) : Silent (removeOnly address) :=
  Silent.bind (Silent.modify _) (fun _ => Silent.bind (Silent.modify _) (fun _ =>
    Silent.bind (Silent.modify _) (fun _ => Silent.bind (Silent.context address) (fun ctx =>
      Silent.bind (Silent.delete address) (fun _ => Silent.pure ctx.handler)))))

theorem atomic_remove (name : String) : Atomic (remove throws name) := by
  apply Atomic.bind (Prelude.getContextOrDie name)
  intro ctx
  apply Atomic.bind Prelude.get
  intro this
  apply Atomic.ite (Atomic.of_silent (silent_removeOnly ctx))
  apply Atomic.ite (atomic_removeFirst throws)
  exact Atomic.ite (atomic_removeLast throws) (atomic_removeMiddle throws ctx)

variable {handler : ChannelHandler}

theorem atomic_insert {name : String} {prev next : Option Address}
    {link : Address → PipelineM Unit} (silent : ∀ newCtx, Silent (link newCtx)) :
    Atomic (insert throws name handler prev next link) := by
  apply Atomic.bind (Prelude.newContext name handler prev next)
  intro newCtx
  apply Atomic.bind (Prelude.callback throws _ _ newCtx)
  intro _
  apply Atomic.of_silent
  apply Silent.bind (silent newCtx)
  intro _
  apply Silent.bind (Silent.updateLists _ _)
  intro _
  exact Silent.bind (Silent.modify _) (fun _ => Silent.callAfterAdd throws newCtx)

theorem atomic_init (name : String) (handler : ChannelHandler) :
    Atomic (init throws name handler) := by
  apply Atomic.bind (Prelude.newContext name handler none none)
  intro newCtx
  apply Atomic.bind (Prelude.callback throws _ _ newCtx)
  intro _
  apply Atomic.of_silent
  apply Silent.bind (Silent.modify _)
  intro _
  apply Silent.bind (Silent.modify _)
  intro _
  apply Silent.bind (Silent.ite (Silent.modify _) (Silent.pure ()))
  intro _
  apply Silent.bind (Silent.ite (Silent.modify _) (Silent.pure ()))
  intro _
  exact Silent.bind (Silent.modify _) (fun _ => Silent.callAfterAdd throws newCtx)

theorem atomic_addFirst (name : String) (handler : Option ChannelHandler) :
    Atomic (addFirst throws name handler) := by
  cases handler with
  | none => exact Atomic.of_silent (Silent.pure ())
  | some handler =>
      apply Atomic.bind Prelude.get
      intro this
      apply Atomic.ite (atomic_init throws name handler)
      apply Atomic.bind (Prelude.checkDuplicateName name)
      intro _
      apply atomic_insert
      intro newCtx
      exact Silent.bind (Silent.dereference _) (fun head => Silent.bind (Silent.update head _)
        (fun _ => Silent.modify _))

theorem atomic_addLast (name : String) (handler : Option ChannelHandler) :
    Atomic (addLast throws name handler) := by
  cases handler with
  | none => exact Atomic.of_silent (Silent.pure ())
  | some handler =>
      apply Atomic.bind Prelude.get
      intro this
      apply Atomic.ite (atomic_init throws name handler)
      apply Atomic.bind (Prelude.checkDuplicateName name)
      intro _
      apply atomic_insert
      intro newCtx
      exact Silent.bind (Silent.dereference _) (fun tail => Silent.bind (Silent.update tail _)
        (fun _ => Silent.modify _))

theorem atomic_addBefore (baseName name : String) (handler : Option ChannelHandler) :
    Atomic (addBefore throws baseName name handler) := by
  cases handler with
  | none => exact Atomic.of_silent (Silent.pure ())
  | some handler =>
      apply Atomic.bind (Prelude.getContextOrDie baseName)
      intro ctx
      apply Atomic.bind Prelude.get
      intro this
      apply Atomic.ite (atomic_addFirst throws name (some handler))
      apply Atomic.bind (Prelude.checkDuplicateName name)
      intro _
      apply Atomic.bind (Prelude.context ctx)
      intro base
      apply atomic_insert
      intro newCtx
      exact Silent.bind (Silent.dereference _) (fun prev => Silent.bind (Silent.update prev _)
        (fun _ => Silent.update ctx _))

theorem atomic_addAfter (baseName name : String) (handler : Option ChannelHandler) :
    Atomic (addAfter throws baseName name handler) := by
  cases handler with
  | none => exact Atomic.of_silent (Silent.pure ())
  | some handler =>
      apply Atomic.bind (Prelude.getContextOrDie baseName)
      intro ctx
      apply Atomic.bind Prelude.get
      intro this
      apply Atomic.ite (atomic_addLast throws name (some handler))
      apply Atomic.bind (Prelude.checkDuplicateName name)
      intro _
      apply Atomic.bind (Prelude.context ctx)
      intro base
      apply atomic_insert
      intro newCtx
      exact Silent.bind (Silent.dereference _) (fun next => Silent.bind (Silent.update next _)
        (fun _ => Silent.update ctx _))

theorem silent_caught (program : PipelineM Unit) : Silent (caught program) := by
  intro before stop after ran
  cases result : program.run before with
  | ok value middle =>
      have whole : (do program; pure none : PipelineM (Option Exception)).run before =
          .ok none middle := run_bind_ok _ result
      unfold caught at ran
      rw [run_tryCatch_ok _ whole] at ran
      cases ran
  | error early middle =>
      have whole : (do program; pure none : PipelineM (Option Exception)).run before =
          .error early middle := run_bind_error _ result
      unfold caught at ran
      rw [run_tryCatch_error _ whole] at ran
      cases early with
      | thrown exception => cases ran
      | _ =>
          cases ran
          rfl

/-- What `callAfterRemove` and `callAfterAdd` throw is no refusal. -/
theorem caught_exception {program : PipelineM Unit} (silent : Silent program)
    {before after : DefaultChannelPipeline} {exception : Exception}
    (ran : (caught program).run before = .ok (some exception) after) :
    (Stop.thrown exception).refuses = false := by
  cases result : program.run before with
  | ok value middle =>
      have whole : (do program; pure none : PipelineM (Option Exception)).run before =
          .ok none middle := run_bind_ok _ result
      unfold caught at ran
      rw [run_tryCatch_ok _ whole] at ran
      cases ran
  | error early middle =>
      have whole : (do program; pure none : PipelineM (Option Exception)).run before =
          .error early middle := run_bind_error _ result
      unfold caught at ran
      rw [run_tryCatch_error _ whole] at ran
      cases early with
      | thrown thrown =>
          cases ran
          exact silent before _ _ result
      | _ => cases ran

theorem settleReplace_error {address : Address}
    {removeException addException : Option Exception}
    (removes : ∀ exception, removeException = some exception →
      (Stop.thrown exception).refuses = false)
    (adds : ∀ exception, addException = some exception →
      (Stop.thrown exception).refuses = false) :
    Silent (settleReplace address handler removeException addException) := by
  cases removeException with
  | none =>
      cases addException with
      | none => exact Silent.bind (Silent.delete address) (fun _ => Silent.pure handler)
      | some exception =>
          exact Silent.bind (Silent.delete address) (fun _ => Silent.throw (adds exception rfl))
  | some exception =>
      cases addException with
      | none =>
          exact Silent.bind (Silent.delete address) (fun _ => Silent.throw (removes exception rfl))
      | some other => exact Silent.bind (Silent.delete address) (fun _ => Silent.throw rfl)

theorem silent_callbacks (address newCtx : Address) (handler : ChannelHandler) :
    Silent (do
      let removeException ← caught (callAfterRemove throws address)
      let addException ← caught (callAfterAdd throws newCtx)
      settleReplace address handler removeException addException) := by
  have removing := Silent.callAfterRemove throws address
  have adding := Silent.callAfterAdd throws newCtx
  intro before stop after ran
  cases removed : (caught (callAfterRemove throws address)).run before with
  | error early middle =>
      rw [run_bind_error _ removed] at ran
      cases ran
      exact silent_caught _ before stop after removed
  | ok removeException middle =>
      rw [run_bind_ok _ removed] at ran
      cases added : (caught (callAfterAdd throws newCtx)).run middle with
      | error early later =>
          rw [run_bind_error _ added] at ran
          cases ran
          exact silent_caught _ middle stop after added
      | ok addException later =>
          rw [run_bind_ok _ added] at ran
          apply settleReplace_error _ _ later stop after ran
          · intro exception same
            rw [same] at removed
            exact caught_exception removing removed
          · intro exception same
            rw [same] at added
            exact caught_exception adding added

theorem atomic_replaceMiddle (address : Address) (newName : String)
    (newHandler : ChannelHandler) :
    Atomic (replaceMiddle throws address newName newHandler) := by
  apply Atomic.bind (Prelude.context address)
  intro ctx
  apply Atomic.bind (Prelude.provided (Prelude.checkDuplicateName newName))
  intro _
  apply Atomic.bind (Prelude.newContext newName newHandler ctx.prev ctx.next)
  intro newCtx
  apply Atomic.bind (Prelude.callback throws _ _ address)
  intro _
  apply Atomic.bind (Prelude.callback throws _ _ newCtx)
  intro _
  apply Atomic.of_silent
  apply Silent.bind (Silent.dereference _)
  intro prev
  apply Silent.bind (Silent.update prev _)
  intro _
  apply Silent.bind (Silent.dereference _)
  intro next
  apply Silent.bind (Silent.update next _)
  intro _
  apply Silent.bind (Silent.updateLists _ _)
  intro _
  apply Silent.bind (Silent.ite (Silent.modify _) (Silent.pure ()))
  intro _
  exact silent_callbacks throws address newCtx ctx.handler

end Operations

end Refusals

variable {address : Address} {before : DefaultChannelPipeline}

/-- The name is gone once the end of the list has been removed. -/
theorem forgets_removeEnd {throws : LifeCycleCall → Address → Bool}
    {unlink : DefaultChannelHandlerContext → PipelineM Unit} {after : DefaultChannelPipeline}
    {ctx : DefaultChannelHandlerContext} {handler : ChannelHandler}
    (here : before.contexts address = some ctx)
    (forgets : ∀ middle ended, (unlink ctx).run middle = .ok () ended →
      ended.name2ctx.find ctx.name = none)
    (ran : (removeEnd throws (some address) unlink).run before = .ok handler after) :
    after.name2ctx.find ctx.name = none := by
  unfold removeEnd at ran
  rcases ok_of_run_bind ran with ⟨_, first, called, ran⟩
  have same := (Prelude.callback_readOnly throws _ _ address before).after_ok rfl called
  rw [same] at ran
  have loaded : (context address).run before = .ok ctx before := run_context here
  rw [run_bind_ok _ loaded] at ran
  rcases ok_of_run_bind ran with ⟨_, unlinked, unlinking, ran⟩
  have forgotten := forgets before unlinked unlinking
  have rest : ∀ start, Keeps (Shrinks start) (do
      updateLists ctx.canHandleUps ctx.canHandleDowns
      callAfterRemove throws address
      delete address
      pure ctx.handler) := by
    intro start
    exact Keeps.bind (shrinks_updateLists _ _)
      (fun _ => shrinks_discard throws address ctx.handler)
  have shrunk := (rest unlinked).after_ok (Shrinks.refl unlinked) ran
  cases found : after.name2ctx.find ctx.name with
  | none => rfl
  | some other =>
      rw [shrunk.name2ctx ctx.name other found] at forgotten
      cases forgotten

section

variable {ctx : DefaultChannelHandlerContext} {before after : DefaultChannelPipeline}

theorem forgets_unlinkFirst (ran : (unlinkFirst ctx).run before = .ok () after) :
    after.name2ctx.find ctx.name = none := by
  unfold unlinkFirst at ran
  cases next : ctx.next with
  | none =>
      rw [next] at ran
      cases ran
      rfl
  | some next_ =>
      rw [next] at ran
      rcases ok_of_run_bind ran with ⟨_, middle, _, ran⟩
      cases ran
      exact ContextMap.find_erase_self _ _

theorem forgets_unlinkLast (ran : (unlinkLast ctx).run before = .ok () after) :
    after.name2ctx.find ctx.name = none := by
  unfold unlinkLast at ran
  cases prev : ctx.prev with
  | none =>
      rw [prev] at ran
      cases ran
      rfl
  | some prev_ =>
      rw [prev] at ran
      rcases ok_of_run_bind ran with ⟨_, middle, _, ran⟩
      cases ran
      exact ContextMap.find_erase_self _ _

end

/-- The handler's `beforeRemove` lets the removal go on. -/
def LetsGo (throws : LifeCycleCall → Address → Bool) (this : DefaultChannelPipeline)
    (address : Address) : Prop :=
  ∃ ctx, this.contexts address = some ctx ∧
    ¬(ctx.handler.lifeCycleAware ∧ throws .beforeRemove address)

section

variable {throws : LifeCycleCall → Address → Bool} {address : Address}
  {unlink : DefaultChannelHandlerContext → PipelineM Unit}
  {before after : DefaultChannelPipeline}

theorem letsGo_of_removeEnd {handler : ChannelHandler}
    (ran : (removeEnd throws (some address) unlink).run before = .ok handler after) :
    LetsGo throws before address := by
  unfold removeEnd at ran
  rcases ok_of_run_bind ran with ⟨_, first, called, _⟩
  cases here : before.contexts address with
  | none =>
      unfold callBeforeRemove callback at called
      rw [run_bind_error _ (run_context_none here)] at called
      cases called
  | some ctx =>
      refine ⟨ctx, here, ?_⟩
      intro stops
      unfold callBeforeRemove callback at called
      rw [run_bind_ok _ (run_context here)] at called
      simp only [provided, if_pos stops] at called
      cases called

theorem removeEnd_refuses
    {stop : Stop} (silent : ∀ ctx, Silent (unlink ctx)) (goes : LetsGo throws before address)
    (ran : (removeEnd throws (some address) unlink).run before = .error stop after) :
    stop.refuses = false := by
  rcases goes with ⟨ctx, here, goes⟩
  have called : (callBeforeRemove throws address).run before = .ok () before := by
    unfold callBeforeRemove callback
    rw [run_bind_ok _ (run_context here)]
    simp only [provided, if_neg goes]
    rfl
  unfold removeEnd at ran
  rw [run_bind_ok _ called] at ran
  have rest : Silent (do
      let ctx ← context address
      unlink ctx
      updateLists ctx.canHandleUps ctx.canHandleDowns
      callAfterRemove throws address
      delete address
      pure ctx.handler) :=
    Silent.bind (Silent.context address) (fun ctx => Silent.bind (silent ctx) (fun _ =>
      Silent.bind (Silent.updateLists _ _) (fun _ => Silent.discard throws address ctx.handler)))
  exact rest before stop after ran

end

/-- `removeFirst` and `removeLast` on a pipeline that knows a name. -/
theorem run_nonempty {name : String}
    (found : before.name2ctx.find name = some address) (program : PipelineM ChannelHandler) :
    (do
      let this ← get
      if this.name2ctx = [] then throw (rangeException "name2ctx is empty")
      else program : PipelineM ChannelHandler).run before = program.run before := by
  have nonempty : before.name2ctx ≠ [] := by
    intro empty
    rw [empty] at found
    cases found
  simp only [run_bind_get, if_neg nonempty]

/-- Replacing the context at an end refuses with its name gone, or before it begins. -/
theorem replaceEnd_refuses_iff {throws : LifeCycleCall → Address → Bool}
    {after : DefaultChannelPipeline} {stop : Stop} {oldName : String}
    {remove : PipelineM ChannelHandler} {add : PipelineM Unit}
    {unlink : DefaultChannelHandlerContext → PipelineM Unit} (sound : Sound before)
    (found : before.name2ctx.find oldName = some address)
    (removes : remove.run before = (removeEnd throws (some address) unlink).run before)
    (silent : ∀ ctx, Silent (unlink ctx))
    (forgets : ∀ ctx middle ended, (unlink ctx).run middle = .ok () ended →
      ended.name2ctx.find ctx.name = none)
    (keeps : Keeps Sound remove) (atomic : Atomic remove) (adds : Atomic add)
    (ran : (replaceEnd address remove add).run before = .error stop after)
    (refused : stop.refuses = true) :
    Unchanged before after ↔ ¬LetsGo throws before address := by
  unfold replaceEnd at ran
  cases removed : remove.run before with
  | error early middle =>
      rw [run_bind_error _ removed] at ran
      cases ran
      constructor
      · intro _ goes
        rw [removes] at removed
        rw [removeEnd_refuses silent goes removed] at refused
        cases refused
      · intro _
        exact atomic before sound stop after removed refused
  | ok handler middle =>
      have still := keeps.after_ok sound removed
      rw [run_bind_ok _ removed] at ran
      rw [removes] at removed
      have goes := letsGo_of_removeEnd removed
      rcases goes with ⟨ctx, here, stays⟩
      have forgotten := forgets_removeEnd here (forgets ctx) removed
      rw [sound.named oldName address ctx found here] at forgotten
      have lost : after.name2ctx.find oldName = none := by
        cases added : add.run middle with
        | error early later =>
            rw [run_bind_error _ added] at ran
            cases ran
            rw [(adds middle still stop after added refused).name2ctx]
            exact forgotten
        | ok value later =>
            rw [run_bind_ok _ added] at ran
            have rest : Silent (do
                delete address
                pure handler) := Silent.bind (Silent.delete address) (fun _ => Silent.pure handler)
            rw [rest later stop after ran] at refused
            cases refused
      constructor
      · intro unchanged
        rw [unchanged.name2ctx, found] at lost
        cases lost
      · intro stuck
        exact absurd ⟨ctx, here, stays⟩ stuck

end PipelineM

namespace DefaultChannelPipeline

/-- A replacement that goes on to remove the first or the last context. -/
def TakesEndApart (throws : LifeCycleCall → Address → Bool) (this : DefaultChannelPipeline) :
    Modification → Prop
  | .replace oldName _ (some _) =>
      ∃ address, this.name2ctx.find oldName = some address ∧
        (some address = this.head ∨ some address = this.tail) ∧ LetsGo throws this address
  | _ => False

/-- A modification that returns or throws. -/
def Modifies (before : DefaultChannelPipeline)
    (action : (LifeCycleCall → Address → Bool) × Modification)
    (after : DefaultChannelPipeline) : Prop :=
  (perform action.1 action.2).run before = .ok () after ∨
    ∃ exception, (perform action.1 action.2).run before = .error (.thrown exception) after

theorem sound_empty : Sound empty := ⟨fun _ _ => rfl, nofun, nofun⟩

theorem sound_run {actions : List ((LifeCycleCall → Address → Bool) × Modification)}
    {final : DefaultChannelPipeline} (run : Run Modifies empty actions final) : Sound final := by
  apply run.invariant _ sound_empty
  intro before action after sound stepped
  have keeps := sound_perform action.1 action.2
  rcases stepped with returned | ⟨exception, thrown⟩
  · exact keeps.after_ok sound returned
  · exact keeps.after_error sound thrown

theorem error_of_dropped {Value : Type} {program : PipelineM Value}
    {before after : DefaultChannelPipeline} {stop : Stop}
    (ran : (do let _ ← program : PipelineM Unit).run before = .error stop after) :
    program.run before = .error stop after := by
  cases result : program.run before with
  | ok value middle =>
      rw [run_bind_ok _ result] at ran
      cases ran
  | error early middle =>
      rw [run_bind_error _ result] at ran
      cases ran
      rfl

theorem replace_refuses_iff {throws : LifeCycleCall → Address → Bool}
    {before after : DefaultChannelPipeline} {stop : Stop} {oldName newName : String}
    {newHandler : Option ChannelHandler} (sound : Sound before)
    (ran : (replace throws oldName newName newHandler).run before = .error stop after)
    (refused : stop.refuses = true) :
    Unchanged before after ↔
      ¬TakesEndApart throws before (.replace oldName newName newHandler) := by
  unfold replace at ran
  cases found : before.name2ctx.find oldName with
  | none =>
      have missing : (getContextOrDie oldName).run before =
          .error (rangeException oldName) before := by
        simp only [getContextOrDie, run_bind_get, found]
        rfl
      rw [run_bind_error _ missing] at ran
      cases ran
      refine ⟨fun _ => ?_, fun _ => Unchanged.refl before⟩
      cases newHandler with
      | none => exact id
      | some handler =>
          rintro ⟨address, known, _⟩
          rw [found] at known
          cases known
  | some address =>
      have looked : (getContextOrDie oldName).run before = .ok address before := by
        simp only [getContextOrDie, run_bind_get, found]
        rfl
      rw [run_bind_ok _ looked] at ran
      cases newHandler with
      | none => cases ran
      | some handler =>
          have inner : (replaceContext throws address newName handler).run before =
              .error stop after := by
            cases result : (replaceContext throws address newName handler).run before with
            | ok value middle =>
                rw [run_bind_ok _ result] at ran
                cases ran
            | error early middle =>
                rw [run_bind_error _ result] at ran
                cases ran
                rfl
          have apart : TakesEndApart throws before (.replace oldName newName (some handler)) ↔
              (some address = before.head ∨ some address = before.tail) ∧
                LetsGo throws before address := by
            constructor
            · rintro ⟨other, known, atEnd, goes⟩
              rw [found] at known
              cases known
              exact ⟨atEnd, goes⟩
            · rintro ⟨atEnd, goes⟩
              exact ⟨address, found, atEnd, goes⟩
          rw [apart]
          simp only [replaceContext, run_bind_get] at inner
          by_cases first : some address = before.head
          · rw [if_pos first] at inner
            have removes : (removeFirst throws).run before =
                (removeEnd throws (some address) unlinkFirst).run before := by
              rw [first]
              exact run_nonempty found _
            rw [replaceEnd_refuses_iff sound found removes silent_unlinkFirst
              (fun _ _ _ => forgets_unlinkFirst) (sound_removeFirst throws)
              (atomic_removeFirst throws) (atomic_addFirst throws newName (some handler)) inner
              refused]
            exact not_congr ⟨fun goes => ⟨.inl first, goes⟩, fun both => both.2⟩
          · rw [if_neg first] at inner
            by_cases last : some address = before.tail
            · rw [if_pos last] at inner
              have removes : (removeLast throws).run before =
                  (removeEnd throws (some address) unlinkLast).run before := by
                rw [last]
                exact run_nonempty found _
              rw [replaceEnd_refuses_iff sound found removes silent_unlinkLast
                (fun _ _ _ => forgets_unlinkLast) (sound_removeLast throws)
                (atomic_removeLast throws) (atomic_addLast throws newName (some handler)) inner
                refused]
              exact not_congr ⟨fun goes => ⟨.inr last, goes⟩, fun both => both.2⟩
            · rw [if_neg last] at inner
              have unchanged := atomic_replaceMiddle throws address newName handler before sound
                stop after inner refused
              refine ⟨fun _ both => ?_, fun _ => unchanged⟩
              rcases both.1 with atHead | atTail
              · exact first atHead
              · exact last atTail

/-- A modification that refuses leaves the list, the map and the chains as they were,
unless it has begun by removing the first or the last context. -/
theorem refusal_changes_nothing_iff {throws : LifeCycleCall → Address → Bool}
    {modification : Modification}
    {actions : List ((LifeCycleCall → Address → Bool) × Modification)}
    {before after : DefaultChannelPipeline} {stop : Stop}
    (reached : Run Modifies empty actions before)
    (ran : (perform throws modification).run before = .error stop after)
    (refused : stop.refuses = true) :
    Unchanged before after ↔ ¬TakesEndApart throws before modification := by
  have sound := sound_run reached
  cases modification with
  | addFirst name handler =>
      exact ⟨fun _ => id, fun _ => atomic_addFirst throws name handler before sound stop after ran
        refused⟩
  | addLast name handler =>
      exact ⟨fun _ => id, fun _ => atomic_addLast throws name handler before sound stop after ran
        refused⟩
  | addBefore baseName name handler =>
      exact ⟨fun _ => id, fun _ => atomic_addBefore throws baseName name handler before sound stop
        after ran refused⟩
  | addAfter baseName name handler =>
      exact ⟨fun _ => id, fun _ => atomic_addAfter throws baseName name handler before sound stop
        after ran refused⟩
  | remove name =>
      exact ⟨fun _ => id, fun _ => atomic_remove throws name before sound stop after
        (error_of_dropped ran) refused⟩
  | removeFirst =>
      exact ⟨fun _ => id, fun _ => atomic_removeFirst throws before sound stop after
        (error_of_dropped ran) refused⟩
  | removeLast =>
      exact ⟨fun _ => id, fun _ => atomic_removeLast throws before sound stop after
        (error_of_dropped ran) refused⟩
  | replace oldName newName newHandler =>
      exact replace_refuses_iff sound (error_of_dropped ran) refused

/-- No callback throws. -/
def noneThrows : LifeCycleCall → Address → Bool := fun _ _ => false

/-- A handler of both directions. -/
def plainHandler (id : Nat) : ChannelHandler := ⟨id, true, true, false⟩

/-- The pipeline with the handlers "codec" and "logic". -/
def codecAndLogic : DefaultChannelPipeline :=
  stateAfter (perform noneThrows (.addLast "logic" (some (plainHandler 1))))
    (stateAfter (perform noneThrows (.addLast "codec" (some (plainHandler 0)))) empty)

theorem run_codecAndLogic :
    Run Modifies empty
      [(noneThrows, .addLast "codec" (some (plainHandler 0))),
        (noneThrows, .addLast "logic" (some (plainHandler 1)))] codecAndLogic := by
  have first : stopOf (perform noneThrows (.addLast "codec" (some (plainHandler 0)))) empty =
      none := by decide +kernel
  have second : stopOf (perform noneThrows (.addLast "logic" (some (plainHandler 1))))
      (stateAfter (perform noneThrows (.addLast "codec" (some (plainHandler 0)))) empty) =
      none := by decide +kernel
  exact .cons (.inl (run_of_stopOf_none first))
    (.cons (.inl (run_of_stopOf_none second)) (.nil _))

theorem refusal_changes_nothing_duplicate :
    ∃ before after, Run Modifies empty
        [(noneThrows, .addLast "codec" (some (plainHandler 0))),
          (noneThrows, .addLast "logic" (some (plainHandler 1)))] before ∧
      (perform noneThrows (.addFirst "logic" (some (plainHandler 2)))).run before =
        .error (invalidArgumentException "Duplicate handler name.") after ∧
      Unchanged before after := by
  have stops : stopOf (perform noneThrows (.addFirst "logic" (some (plainHandler 2))))
      codecAndLogic = some (invalidArgumentException "Duplicate handler name.") := by
    decide +kernel
  have ran := run_of_stopOf_some stops
  exact ⟨_, _, run_codecAndLogic, ran,
    (refusal_changes_nothing_iff run_codecAndLogic ran rfl).mpr id⟩

/-- The head is gone when the insertion of its replacement finds the name taken. -/
theorem replaced_head_lost :
    ∃ before after, Run Modifies empty
        [(noneThrows, .addLast "codec" (some (plainHandler 0))),
          (noneThrows, .addLast "logic" (some (plainHandler 1)))] before ∧
      (perform noneThrows (.replace "codec" "logic" (some (plainHandler 2)))).run before =
        .error (invalidArgumentException "Duplicate handler name.") after ∧
      before.name2ctx = [("logic", 1), ("codec", 0)] ∧ after.name2ctx = [("logic", 1)] ∧
      ¬Unchanged before after := by
  have stops : stopOf (perform noneThrows (.replace "codec" "logic" (some (plainHandler 2))))
      codecAndLogic = some (invalidArgumentException "Duplicate handler name.") := by
    decide +kernel
  have full : codecAndLogic.name2ctx = [("logic", 1), ("codec", 0)] := by decide +kernel
  have shorter : (stateAfter (perform noneThrows
      (.replace "codec" "logic" (some (plainHandler 2)))) codecAndLogic).name2ctx =
      [("logic", 1)] := by decide +kernel
  refine ⟨_, _, run_codecAndLogic, run_of_stopOf_some stops, full, shorter, ?_⟩
  intro unchanged
  have same := unchanged.name2ctx
  rw [full, shorter] at same
  cases same

end DefaultChannelPipeline

end Cetty
