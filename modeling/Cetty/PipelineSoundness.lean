import Cetty.ChannelPipeline

/-!
# What every modification keeps

The programs of a pipeline but for the making of a context only shrink it: no context
appears or takes another name, and no name is added to the map. A modification, however
it ends, leaves the map knowing contexts by their own names.
-/

namespace Cetty

open PipelineM

namespace DefaultChannelPipeline

/-- Addresses that have not been given out hold nothing, and the map knows a context by
its own name. -/
structure Sound (this : DefaultChannelPipeline) : Prop where
  allocated : ∀ address, this.fresh ≤ address → this.contexts address = none
  known : ∀ name address, this.name2ctx.find name = some address → address < this.fresh
  named : ∀ name address ctx, this.name2ctx.find name = some address →
    this.contexts address = some ctx → ctx.name = name

/-- No context appears or takes another name, and no name is added. -/
structure Shrinks (before after : DefaultChannelPipeline) : Prop where
  fresh : after.fresh = before.fresh
  contexts : ∀ address ctx, after.contexts address = some ctx →
    ∃ old, before.contexts address = some old ∧ old.name = ctx.name
  name2ctx : ∀ name address, after.name2ctx.find name = some address →
    before.name2ctx.find name = some address

namespace Shrinks

theorem refl (this : DefaultChannelPipeline) : Shrinks this this :=
  ⟨rfl, fun _ ctx here => ⟨ctx, here, rfl⟩, fun _ _ known => known⟩

theorem trans {first second third : DefaultChannelPipeline} (early : Shrinks first second)
    (late : Shrinks second third) : Shrinks first third where
  fresh := late.fresh.trans early.fresh
  contexts := by
    intro address ctx here
    rcases late.contexts address ctx here with ⟨middle, there, name⟩
    rcases early.contexts address middle there with ⟨old, first, same⟩
    exact ⟨old, first, same.trans name⟩
  name2ctx := fun name address known =>
    early.name2ctx name address (late.name2ctx name address known)

end Shrinks

theorem Sound.shrinks {before after : DefaultChannelPipeline} (sound : Sound before)
    (shrinks : Shrinks before after) : Sound after where
  allocated := by
    intro address outside
    rw [shrinks.fresh] at outside
    cases here : after.contexts address with
    | none => rfl
    | some ctx =>
        rcases shrinks.contexts address ctx here with ⟨old, there, _⟩
        rw [sound.allocated address outside] at there
        cases there
  known := by
    intro name address known
    rw [shrinks.fresh]
    exact sound.known name address (shrinks.name2ctx name address known)
  named := by
    intro name address ctx known here
    rcases shrinks.contexts address ctx here with ⟨old, there, same⟩
    exact same.symm.trans (sound.named name address old (shrinks.name2ctx name address known) there)

/-- A sound pipeline in which the context at an address has the given name. -/
structure SoundAt (pinned : Address) (name : String) (this : DefaultChannelPipeline) : Prop where
  sound : Sound this
  allocated : pinned < this.fresh
  named : ∀ ctx, this.contexts pinned = some ctx → ctx.name = name

theorem SoundAt.shrinks {pinned : Address} {name : String} {before after : DefaultChannelPipeline}
    (sound : SoundAt pinned name before) (shrinks : Shrinks before after) :
    SoundAt pinned name after where
  sound := sound.sound.shrinks shrinks
  allocated := by
    rw [shrinks.fresh]
    exact sound.allocated
  named := by
    intro ctx here
    rcases shrinks.contexts pinned ctx here with ⟨old, there, same⟩
    exact same.symm.trans (sound.named old there)

end DefaultChannelPipeline

namespace PipelineM

open DefaultChannelPipeline

section Shrinking

variable {start : DefaultChannelPipeline} {Value : Type}

theorem shrinks_modify {change : DefaultChannelPipeline → DefaultChannelPipeline}
    (shrinks : ∀ before, Shrinks before (change before)) :
    Keeps (Shrinks start) (modify change : PipelineM Unit) :=
  Keeps.modify (fun before since => since.trans (shrinks before))

theorem shrinks_provided {condition : Prop} [Decidable condition] {program : PipelineM Unit}
    (shrinks : Keeps (Shrinks start) program) :
    Keeps (Shrinks start) (provided condition program) :=
  Keeps.ite (fun _ => shrinks) (fun _ => Keeps.pure ())

theorem shrinks_context (address : Address) : Keeps (Shrinks start) (context address) := by
  apply Keeps.bind Keeps.get
  intro this
  cases this.contexts address with
  | none => exact Keeps.throw _
  | some ctx => exact Keeps.pure ctx

theorem shrinks_dereference (pointer : Option Address) :
    Keeps (Shrinks start) (dereference pointer) := by
  cases pointer with
  | none => exact Keeps.throw _
  | some address => exact Keeps.pure address

theorem shrinks_withContext (before : DefaultChannelPipeline) (address : Address)
    (ctx : Option DefaultChannelHandlerContext)
    (known : ∀ new, ctx = some new → ∃ old, before.contexts address = some old ∧
      old.name = new.name) : Shrinks before (before.withContext address ctx) where
  fresh := rfl
  contexts := by
    intro other new here
    unfold withContext at here
    by_cases same : other = address
    · rw [same]
      exact known new ((if_pos same).symm.trans here)
    · exact ⟨new, (if_neg same).symm.trans here, rfl⟩
  name2ctx := fun _ _ found => found

theorem run_context {before : DefaultChannelPipeline} {address : Address}
    {ctx : DefaultChannelHandlerContext} (here : before.contexts address = some ctx) :
    (context address).run before = .ok ctx before := by
  simp only [context, run_bind_get, here]
  rfl

theorem run_context_none {before : DefaultChannelPipeline} {address : Address}
    (gone : before.contexts address = none) :
    (context address).run before = .error .outOfBounds before := by
  simp only [context, run_bind_get, gone]
  rfl

theorem shrinks_update (address : Address)
    {change : DefaultChannelHandlerContext → DefaultChannelHandlerContext}
    (named : ∀ ctx, (change ctx).name = ctx.name) :
    Keeps (Shrinks start) (update address change) := by
  intro before since
  cases here : before.contexts address with
  | none =>
      unfold update
      rw [run_bind_error _ (run_context_none here)]
      exact since
  | some ctx =>
      unfold update
      rw [run_bind_ok _ (run_context here)]
      apply since.trans
      apply shrinks_withContext before address
      intro new changed
      cases changed
      exact ⟨ctx, here, (named ctx).symm⟩

theorem shrinks_setNext (address : Address) (next : Option Address) :
    Keeps (Shrinks start) (setNext address next) := shrinks_update address (fun _ => rfl)

theorem shrinks_setPrev (address : Address) (prev : Option Address) :
    Keeps (Shrinks start) (setPrev address prev) := shrinks_update address (fun _ => rfl)

theorem shrinks_setHead (head : Option Address) : Keeps (Shrinks start) (setHead head) :=
  shrinks_modify (fun _ => ⟨rfl, fun _ ctx here => ⟨ctx, here, rfl⟩, fun _ _ found => found⟩)

theorem shrinks_setTail (tail : Option Address) : Keeps (Shrinks start) (setTail tail) :=
  shrinks_modify (fun _ => ⟨rfl, fun _ ctx here => ⟨ctx, here, rfl⟩, fun _ _ found => found⟩)

theorem shrinks_setUpstreamHead (head : Option Address) :
    Keeps (Shrinks start) (setUpstreamHead head) :=
  shrinks_modify (fun _ => ⟨rfl, fun _ ctx here => ⟨ctx, here, rfl⟩, fun _ _ found => found⟩)

theorem shrinks_setDownstreamHead (head : Option Address) :
    Keeps (Shrinks start) (setDownstreamHead head) :=
  shrinks_modify (fun _ => ⟨rfl, fun _ ctx here => ⟨ctx, here, rfl⟩, fun _ _ found => found⟩)

theorem shrinks_clear : Keeps (Shrinks start) (setName2ctx fun _ => []) :=
  shrinks_modify (fun _ => ⟨rfl, fun _ ctx here => ⟨ctx, here, rfl⟩, nofun⟩)

theorem shrinks_erase (name : String) : Keeps (Shrinks start) (setName2ctx (·.erase name)) :=
  shrinks_modify (fun _ => ⟨rfl, fun _ ctx here => ⟨ctx, here, rfl⟩,
    fun _ _ found => ContextMap.find_of_find_erase found⟩)

theorem shrinks_delete (address : Address) : Keeps (Shrinks start) (delete address) :=
  Keeps.bind (shrinks_context address) (fun _ => shrinks_modify (fun before =>
    shrinks_withContext before address none nofun))

theorem shrinks_chainUpstream (up : Address) (ctx : DefaultChannelHandlerContext) :
    Keeps (Shrinks start) (chainUpstream up ctx) :=
  shrinks_provided (Keeps.bind Keeps.get (fun _ => Keeps.bind
    (shrinks_provided (shrinks_update up (fun _ => rfl)))
    (fun _ => shrinks_setUpstreamHead (some up))))

theorem shrinks_updateUpstreamFrom (fuel : Nat) (up : Option Address) :
    Keeps (Shrinks start) (updateUpstreamFrom fuel up) := by
  induction fuel generalizing up with
  | zero => exact Keeps.throw _
  | succ fuel ih =>
      cases up with
      | none => exact Keeps.pure ()
      | some up =>
          exact Keeps.bind (shrinks_context up) (fun ctx => Keeps.bind
            (shrinks_chainUpstream up ctx) (fun _ => ih ctx.prev))

theorem shrinks_chainDownstream (down : Address) (ctx : DefaultChannelHandlerContext) :
    Keeps (Shrinks start) (chainDownstream down ctx) :=
  shrinks_provided (Keeps.bind Keeps.get (fun _ => Keeps.bind
    (shrinks_provided (shrinks_update down (fun _ => rfl)))
    (fun _ => shrinks_setDownstreamHead (some down))))

theorem shrinks_updateDownstreamFrom (fuel : Nat) (down : Option Address) :
    Keeps (Shrinks start) (updateDownstreamFrom fuel down) := by
  induction fuel generalizing down with
  | zero => exact Keeps.throw _
  | succ fuel ih =>
      cases down with
      | none => exact Keeps.pure ()
      | some down =>
          exact Keeps.bind (shrinks_context down) (fun ctx => Keeps.bind
            (shrinks_chainDownstream down ctx) (fun _ => ih ctx.next))

theorem shrinks_updateLists (ups downs : Bool) :
    Keeps (Shrinks start) (updateLists ups downs) := by
  apply Keeps.bind
  · apply shrinks_provided
    apply Keeps.bind Keeps.get
    intro this
    exact Keeps.bind (shrinks_setUpstreamHead none) (fun _ => shrinks_updateUpstreamFrom _ _)
  · intro _
    apply shrinks_provided
    apply Keeps.bind Keeps.get
    intro this
    exact Keeps.bind (shrinks_setDownstreamHead none) (fun _ => shrinks_updateDownstreamFrom _ _)

variable (throws : LifeCycleCall → Address → Bool)

theorem shrinks_callback (call : LifeCycleCall) (message : String) (address : Address) :
    Keeps (Shrinks start) (callback throws call message address) :=
  Keeps.bind (shrinks_context address) (fun _ => shrinks_provided (Keeps.throw _))

theorem shrinks_unlinkFirst (ctx : DefaultChannelHandlerContext) :
    Keeps (Shrinks start) (unlinkFirst ctx) := by
  unfold unlinkFirst
  cases ctx.next with
  | none =>
      exact Keeps.bind (shrinks_setHead none) (fun _ => Keeps.bind (shrinks_setTail none)
        (fun _ => shrinks_clear))
  | some next =>
      exact Keeps.bind (shrinks_setPrev next none) (fun _ => Keeps.bind
        (shrinks_setHead (some next)) (fun _ => shrinks_erase ctx.name))

theorem shrinks_unlinkLast (ctx : DefaultChannelHandlerContext) :
    Keeps (Shrinks start) (unlinkLast ctx) := by
  unfold unlinkLast
  cases ctx.prev with
  | none =>
      exact Keeps.bind (shrinks_setHead none) (fun _ => Keeps.bind (shrinks_setTail none)
        (fun _ => shrinks_clear))
  | some prev =>
      exact Keeps.bind (shrinks_setNext prev none) (fun _ => Keeps.bind
        (shrinks_setTail (some prev)) (fun _ => shrinks_erase ctx.name))

/-- The last lines of every removal. -/
theorem shrinks_discard (address : Address) (handler : ChannelHandler) :
    Keeps (Shrinks start) (do
      callAfterRemove throws address
      delete address
      pure handler) :=
  Keeps.bind (shrinks_callback throws _ _ address) (fun _ => Keeps.bind (shrinks_delete address)
    (fun _ => Keeps.pure handler))

theorem shrinks_removeEnd (pointer : Option Address)
    {unlink : DefaultChannelHandlerContext → PipelineM Unit}
    (shrinks : ∀ ctx, Keeps (Shrinks start) (unlink ctx)) :
    Keeps (Shrinks start) (removeEnd throws pointer unlink) := by
  unfold removeEnd
  cases pointer with
  | none => exact Keeps.throw _
  | some address =>
      apply Keeps.bind (shrinks_callback throws _ _ address)
      intro _
      apply Keeps.bind (shrinks_context address)
      intro ctx
      apply Keeps.bind (shrinks ctx)
      intro _
      apply Keeps.bind (shrinks_updateLists _ _)
      intro _
      exact shrinks_discard throws address ctx.handler

theorem shrinks_removeFirst : Keeps (Shrinks start) (removeFirst throws) :=
  Keeps.bind Keeps.get (fun _ => Keeps.ite (fun _ => Keeps.throw _)
    (fun _ => shrinks_removeEnd throws _ shrinks_unlinkFirst))

theorem shrinks_removeLast : Keeps (Shrinks start) (removeLast throws) :=
  Keeps.bind Keeps.get (fun _ => Keeps.ite (fun _ => Keeps.throw _)
    (fun _ => shrinks_removeEnd throws _ shrinks_unlinkLast))

theorem shrinks_removeOnly (address : Address) : Keeps (Shrinks start) (removeOnly address) :=
  Keeps.bind (shrinks_setHead none) (fun _ => Keeps.bind (shrinks_setTail none)
    (fun _ => Keeps.bind shrinks_clear (fun _ => Keeps.bind (shrinks_context address)
      (fun ctx => Keeps.bind (shrinks_delete address) (fun _ => Keeps.pure ctx.handler)))))

theorem shrinks_removeMiddle (address : Address) :
    Keeps (Shrinks start) (removeMiddle throws address) := by
  apply Keeps.bind (shrinks_callback throws _ _ address)
  intro _
  apply Keeps.bind (shrinks_context address)
  intro ctx
  apply Keeps.bind (shrinks_dereference _)
  intro prev
  apply Keeps.bind (shrinks_setNext prev _)
  intro _
  apply Keeps.bind (shrinks_dereference _)
  intro next
  apply Keeps.bind (shrinks_setPrev next _)
  intro _
  apply Keeps.bind (shrinks_updateLists _ _)
  intro _
  apply Keeps.bind (shrinks_erase ctx.name)
  intro _
  exact shrinks_discard throws address ctx.handler

theorem shrinks_removeContext (address : Address) :
    Keeps (Shrinks start) (removeContext throws address) :=
  Keeps.bind Keeps.get (fun _ => Keeps.ite (fun _ => shrinks_removeOnly address)
    (fun _ => Keeps.ite (fun _ => shrinks_removeFirst throws)
      (fun _ => Keeps.ite (fun _ => shrinks_removeLast throws)
        (fun _ => shrinks_removeMiddle throws address))))

theorem shrinks_callAfterAdd (address : Address) :
    Keeps (Shrinks start) (callAfterAdd throws address) := by
  apply Keeps.bind (shrinks_context address)
  intro ctx
  apply shrinks_provided
  apply Keeps.tryCatch
  · exact Keeps.bind (shrinks_removeContext throws address) (fun _ => Keeps.pure ())
  · intro stop
    cases stop with
    | thrown exception => exact Keeps.throw _
    | _ => exact Keeps.throw _

theorem shrinks_caught {program : PipelineM Unit} (shrinks : Keeps (Shrinks start) program) :
    Keeps (Shrinks start) (caught program) := by
  apply Keeps.tryCatch
  · exact Keeps.bind shrinks (fun _ => Keeps.pure none)
  · intro stop
    cases stop with
    | thrown exception => exact Keeps.pure _
    | _ => exact Keeps.throw _

theorem shrinks_settleReplace (address : Address) (handler : ChannelHandler)
    (removeException addException : Option Exception) :
    Keeps (Shrinks start) (settleReplace address handler removeException addException) := by
  cases removeException with
  | none =>
      cases addException with
      | none => exact Keeps.bind (shrinks_delete address) (fun _ => Keeps.pure handler)
      | some exception => exact Keeps.bind (shrinks_delete address) (fun _ => Keeps.throw _)
  | some exception =>
      cases addException with
      | none => exact Keeps.bind (shrinks_delete address) (fun _ => Keeps.throw _)
      | some other => exact Keeps.bind (shrinks_delete address) (fun _ => Keeps.throw _)

end Shrinking

/-- A program that shrinks the pipeline keeps every assertion that shrinking keeps. -/
theorem keeps_of_shrinks {invariant : DefaultChannelPipeline → Prop}
    (closed : ∀ before after, invariant before → Shrinks before after → invariant after)
    {Value : Type} {program : PipelineM Value}
    (shrinks : ∀ start, Keeps (Shrinks start) program) : Keeps invariant program := by
  intro before holds
  have outcome := shrinks before before (Shrinks.refl before)
  cases ran : program.run before with
  | ok value after =>
      rw [ran] at outcome
      exact closed before after holds outcome
  | error stop after =>
      rw [ran] at outcome
      exact closed before after holds outcome

section Soundness

variable {Value : Type} {program : PipelineM Value}

theorem sound_of_shrinks (shrinks : ∀ start, Keeps (Shrinks start) program) :
    Keeps Sound program := keeps_of_shrinks (fun _ _ => Sound.shrinks) shrinks

theorem soundAt_of_shrinks {pinned : Address} {name : String}
    (shrinks : ∀ start, Keeps (Shrinks start) program) :
    Keeps (SoundAt pinned name) program := keeps_of_shrinks (fun _ _ => SoundAt.shrinks) shrinks

theorem soundAt_allocated {before : DefaultChannelPipeline} (sound : Sound before)
    (ctx : DefaultChannelHandlerContext) :
    SoundAt before.fresh ctx.name
      { before.withContext before.fresh (some ctx) with fresh := before.fresh + 1 } where
  sound :=
    { allocated := by
        intro address outside
        have later : address ≠ before.fresh := Nat.ne_of_gt outside
        exact (if_neg later).trans (sound.allocated address (Nat.le_of_lt outside))
      known := fun name address found => Nat.lt_succ_of_lt (sound.known name address found)
      named := by
        intro name address new found here
        have earlier : address ≠ before.fresh := Nat.ne_of_lt (sound.known name address found)
        exact sound.named name address new found ((if_neg earlier).symm.trans here) }
  allocated := Nat.lt_succ_self _
  named := by
    intro new here
    have same := (if_pos rfl).symm.trans here
    cases same
    rfl

/-- What runs after the new context has been made; the address is the one it is given. -/
theorem sound_newContext {name : String} {handler : ChannelHandler} {prev next : Option Address}
    {rest : Address → PipelineM Value}
    (keeps : ∀ pinned, Keeps (SoundAt pinned name) (rest pinned)) :
    Keeps Sound (newContext name handler prev next >>= rest) := by
  intro before sound
  by_cases idle : ¬handler.upstream ∧ ¬handler.downstream
  · have ran : (newContext name handler prev next).run before =
        .error (invalidArgumentException
          "handler must be either ChannelUpstreamHandler or ChannelDownstreamHandler.")
          before := by
      simp only [newContext, provided, if_pos idle]
      rfl
    rw [run_bind_error _ ran]
    exact sound
  · have ran : (newContext name handler prev next).run before =
        .ok before.fresh
          { before.withContext before.fresh (some
              { next := next
                prev := prev
                nextUpstream := none
                nextDownstream := none
                name := name
                handler := handler }) with
            fresh := before.fresh + 1 } := by
      simp only [newContext, provided, if_neg idle]
      rfl
    rw [run_bind_ok _ ran]
    have started := soundAt_allocated sound
      { next := next
        prev := prev
        nextUpstream := none
        nextDownstream := none
        name := name
        handler := handler }
    have outcome := keeps before.fresh _ started
    split
    · rename_i ended
      rw [ended] at outcome
      exact outcome.sound
    · rename_i ended
      rw [ended] at outcome
      exact outcome.sound

theorem soundAt_put {pinned : Address} {name : String}
    {change : ContextMap → ContextMap}
    (puts : ∀ map other address, (change map).find other = some address →
      (other = name ∧ address = pinned) ∨ map.find other = some address) :
    Keeps (SoundAt pinned name) (setName2ctx change) := by
  apply Keeps.modify
  intro before sound
  refine ⟨⟨sound.sound.allocated, ?_, ?_⟩, sound.allocated, sound.named⟩
  · intro other address found
    rcases puts _ other address found with ⟨_, same⟩ | old
    · rw [same]
      exact sound.allocated
    · exact sound.sound.known other address old
  · intro other address ctx found here
    rcases puts _ other address found with ⟨key, same⟩ | old
    · rw [same] at here
      rw [key]
      exact sound.named ctx here
    · exact sound.sound.named other address ctx old here

theorem find_put {map : ContextMap} {name other : String} {pinned address : Address}
    (found : (map.put name pinned).find other = some address) :
    (other = name ∧ address = pinned) ∨ map.find other = some address := by
  by_cases same : other = name
  · rw [same, ContextMap.find_put_self] at found
    exact .inl ⟨same, (Option.some.inj found).symm⟩
  · rw [ContextMap.find_put_of_ne map pinned same] at found
    exact .inr found

variable (throws : LifeCycleCall → Address → Bool)

theorem sound_insert {name : String} {handler : ChannelHandler} {prev next : Option Address}
    {link : Address → PipelineM Unit}
    (shrinks : ∀ start newCtx, Keeps (Shrinks start) (link newCtx)) :
    Keeps Sound (insert throws name handler prev next link) := by
  apply sound_newContext
  intro pinned
  apply Keeps.bind (soundAt_of_shrinks (fun _ => shrinks_callback throws _ _ pinned))
  intro _
  apply Keeps.bind (soundAt_of_shrinks (fun start => shrinks start pinned))
  intro _
  apply Keeps.bind (soundAt_of_shrinks (fun _ => shrinks_updateLists _ _))
  intro _
  apply Keeps.bind (soundAt_put (fun _ _ _ found => find_put found))
  intro _
  exact soundAt_of_shrinks (fun _ => shrinks_callAfterAdd throws pinned)

section

variable (name : String)

include name

theorem sound_init (handler : ChannelHandler) :
    Keeps Sound (init throws name handler) := by
  apply sound_newContext
  intro pinned
  apply Keeps.bind (soundAt_of_shrinks (fun _ => shrinks_callback throws _ _ pinned))
  intro _
  apply Keeps.bind (soundAt_of_shrinks (fun _ => shrinks_setHead _))
  intro _
  apply Keeps.bind (soundAt_of_shrinks (fun _ => shrinks_setTail _))
  intro _
  apply Keeps.bind (soundAt_of_shrinks (fun _ => shrinks_provided (shrinks_setUpstreamHead _)))
  intro _
  apply Keeps.bind (soundAt_of_shrinks (fun _ => shrinks_provided (shrinks_setDownstreamHead _)))
  intro _
  apply Keeps.bind
  · apply soundAt_put
    intro _ _ _ found
    rcases find_put found with new | old
    · exact .inl new
    · cases old
  · intro _
    exact soundAt_of_shrinks (fun _ => shrinks_callAfterAdd throws pinned)

theorem sound_checkDuplicateName : Keeps Sound (checkDuplicateName name) :=
  Keeps.bind Keeps.get (fun _ => Keeps.ite (fun _ => Keeps.throw _) (fun _ => Keeps.pure ()))

theorem sound_addFirst (handler : Option ChannelHandler) :
    Keeps Sound (addFirst throws name handler) := by
  cases handler with
  | none => exact Keeps.pure ()
  | some handler =>
      apply Keeps.bind Keeps.get
      intro this
      apply Keeps.ite
      · intro _
        exact sound_init throws name handler
      · intro _
        apply Keeps.bind (sound_checkDuplicateName name)
        intro _
        apply sound_insert
        intro start newCtx
        exact Keeps.bind (shrinks_dereference _) (fun head => Keeps.bind
          (shrinks_setPrev head _) (fun _ => shrinks_setHead _))

theorem sound_addLast (handler : Option ChannelHandler) :
    Keeps Sound (addLast throws name handler) := by
  cases handler with
  | none => exact Keeps.pure ()
  | some handler =>
      apply Keeps.bind Keeps.get
      intro this
      apply Keeps.ite
      · intro _
        exact sound_init throws name handler
      · intro _
        apply Keeps.bind (sound_checkDuplicateName name)
        intro _
        apply sound_insert
        intro start newCtx
        exact Keeps.bind (shrinks_dereference _) (fun tail => Keeps.bind
          (shrinks_setNext tail _) (fun _ => shrinks_setTail _))

theorem sound_getContextOrDie : Keeps Sound (getContextOrDie name) := by
  apply Keeps.bind Keeps.get
  intro this
  cases this.name2ctx.find name with
  | none => exact Keeps.throw _
  | some address => exact Keeps.pure address

end

theorem sound_context (address : Address) : Keeps Sound (context address) :=
  sound_of_shrinks (fun _ => shrinks_context address)

theorem sound_addBefore (baseName name : String) (handler : Option ChannelHandler) :
    Keeps Sound (addBefore throws baseName name handler) := by
  cases handler with
  | none => exact Keeps.pure ()
  | some handler =>
      apply Keeps.bind (sound_getContextOrDie baseName)
      intro ctx
      apply Keeps.bind Keeps.get
      intro this
      apply Keeps.ite
      · intro _
        exact sound_addFirst throws name (some handler)
      · intro _
        apply Keeps.bind (sound_checkDuplicateName name)
        intro _
        apply Keeps.bind (sound_context ctx)
        intro base
        apply sound_insert
        intro start newCtx
        exact Keeps.bind (shrinks_dereference _) (fun prev => Keeps.bind
          (shrinks_setNext prev _) (fun _ => shrinks_setPrev ctx _))

theorem sound_addAfter (baseName name : String) (handler : Option ChannelHandler) :
    Keeps Sound (addAfter throws baseName name handler) := by
  cases handler with
  | none => exact Keeps.pure ()
  | some handler =>
      apply Keeps.bind (sound_getContextOrDie baseName)
      intro ctx
      apply Keeps.bind Keeps.get
      intro this
      apply Keeps.ite
      · intro _
        exact sound_addLast throws name (some handler)
      · intro _
        apply Keeps.bind (sound_checkDuplicateName name)
        intro _
        apply Keeps.bind (sound_context ctx)
        intro base
        apply sound_insert
        intro start newCtx
        exact Keeps.bind (shrinks_dereference _) (fun next => Keeps.bind
          (shrinks_setPrev next _) (fun _ => shrinks_setNext ctx _))

theorem sound_replaceMiddle (address : Address) (newName : String)
    (newHandler : ChannelHandler) :
    Keeps Sound (replaceMiddle throws address newName newHandler) := by
  apply Keeps.bind (sound_context address)
  intro ctx
  apply Keeps.bind (Keeps.ite (fun _ => sound_checkDuplicateName newName) (fun _ => Keeps.pure ()))
  intro _
  apply sound_newContext
  intro pinned
  apply Keeps.bind (soundAt_of_shrinks (fun _ => shrinks_callback throws _ _ address))
  intro _
  apply Keeps.bind (soundAt_of_shrinks (fun _ => shrinks_callback throws _ _ pinned))
  intro _
  apply Keeps.bind (soundAt_of_shrinks (fun _ => shrinks_dereference _))
  intro prev
  apply Keeps.bind (soundAt_of_shrinks (fun _ => shrinks_setNext prev _))
  intro _
  apply Keeps.bind (soundAt_of_shrinks (fun _ => shrinks_dereference _))
  intro next
  apply Keeps.bind (soundAt_of_shrinks (fun _ => shrinks_setPrev next _))
  intro _
  apply Keeps.bind (soundAt_of_shrinks (fun _ => shrinks_updateLists _ _))
  intro _
  apply Keeps.bind
  · apply Keeps.ite
    · intro _
      apply soundAt_put
      intro map other found_ found
      rcases find_put found with new | old
      · exact .inl new
      · exact .inr (ContextMap.find_of_find_erase old)
    · intro _
      exact Keeps.pure ()
  intro _
  apply Keeps.bind (soundAt_of_shrinks (fun _ => shrinks_caught (shrinks_callback throws _ _ _)))
  intro removeException
  apply Keeps.bind (soundAt_of_shrinks (fun _ => shrinks_caught (shrinks_callAfterAdd throws _)))
  intro addException
  exact soundAt_of_shrinks (fun _ => shrinks_settleReplace _ _ _ _)

theorem sound_replaceEnd (address : Address) {remove : PipelineM ChannelHandler}
    {add : PipelineM Unit} (removes : Keeps Sound remove) (adds : Keeps Sound add) :
    Keeps Sound (replaceEnd address remove add) :=
  Keeps.bind removes (fun handler => Keeps.bind adds (fun _ => Keeps.bind
    (sound_of_shrinks (fun _ => shrinks_delete address)) (fun _ => Keeps.pure handler)))

theorem sound_removeFirst : Keeps Sound (removeFirst throws) :=
  sound_of_shrinks (fun _ => shrinks_removeFirst throws)

theorem sound_removeLast : Keeps Sound (removeLast throws) :=
  sound_of_shrinks (fun _ => shrinks_removeLast throws)

theorem sound_replaceContext (address : Address) (newName : String)
    (newHandler : ChannelHandler) :
    Keeps Sound (replaceContext throws address newName newHandler) :=
  Keeps.bind Keeps.get (fun _ => Keeps.ite
    (fun _ => sound_replaceEnd address (sound_removeFirst throws)
      (sound_addFirst throws newName (some newHandler)))
    (fun _ => Keeps.ite
      (fun _ => sound_replaceEnd address (sound_removeLast throws)
        (sound_addLast throws newName (some newHandler)))
      (fun _ => sound_replaceMiddle throws address newName newHandler)))

/-- Every modification leaves the pipeline sound, however it ends. -/
theorem sound_perform (modification : Modification) :
    Keeps Sound (perform throws modification) := by
  cases modification with
  | addFirst name handler => exact sound_addFirst throws name handler
  | addLast name handler => exact sound_addLast throws name handler
  | addBefore baseName name handler => exact sound_addBefore throws baseName name handler
  | addAfter baseName name handler => exact sound_addAfter throws baseName name handler
  | remove name =>
      exact Keeps.bind (Keeps.bind (sound_getContextOrDie name) (fun ctx =>
        sound_of_shrinks (fun _ => shrinks_removeContext throws ctx))) (fun _ => Keeps.pure ())
  | removeFirst => exact Keeps.bind (sound_removeFirst throws) (fun _ => Keeps.pure ())
  | removeLast => exact Keeps.bind (sound_removeLast throws) (fun _ => Keeps.pure ())
  | replace oldName newName newHandler =>
      apply Keeps.bind
      · apply Keeps.bind (sound_getContextOrDie oldName)
        intro ctx
        cases newHandler with
        | none => exact Keeps.pure none
        | some newHandler =>
            exact Keeps.bind (sound_replaceContext throws ctx newName newHandler)
              (fun replacedHandle => Keeps.pure (some replacedHandle))
      · intro _
        exact Keeps.pure ()

end Soundness

end PipelineM

end Cetty
