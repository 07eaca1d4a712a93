import Cetty.LinkedChains
import Cetty.PipelineSoundness

/-!
# The routes of events

A pipeline read as four link functions, the entry of each context and the name map. The
pipeline itself is the place before the first item of each chain. Upstream events follow the
list, downstream events go against it, each over the handlers of its direction. A route's
chain is rebuilt by walking the list the other way.
-/

namespace Cetty

open LinkedChains

/-- A handler under its name. -/
abbrev Entry := String × ChannelHandler

structure PipelineView where
  next : Link Address
  prev : Link Address
  up : Link Address
  down : Link Address
  entry : Address → Option Entry
  names : ContextMap
  fresh : Address

/-- The links that one pointer of the contexts makes, from a first one on. -/
def linkOf (contexts : Address → Option DefaultChannelHandlerContext)
    (pointer : DefaultChannelHandlerContext → Option Address) (first : Option Address) :
    Link Address
  | none => first
  | some address => (contexts address).bind pointer

theorem linkOf_first (contexts : Address → Option DefaultChannelHandlerContext)
    (pointer : DefaultChannelHandlerContext → Option Address) (old first : Option Address) :
    linkOf contexts pointer first = Function.update (linkOf contexts pointer old) none first := by
  funext place
  cases place with
  | none =>
      rw [Function.update_self]
      rfl
  | some address => exact (Function.update_of_ne (Option.some_ne_none address) first _).symm

namespace DefaultChannelPipeline

def entryAt (this : DefaultChannelPipeline) (address : Address) : Option Entry :=
  (this.contexts address).map (fun ctx => (ctx.name, ctx.handler))

def view (this : DefaultChannelPipeline) : PipelineView where
  next := linkOf this.contexts (·.next) this.head
  prev := linkOf this.contexts (·.prev) this.tail
  up := linkOf this.contexts (·.nextUpstream) this.upstreamHead
  down := linkOf this.contexts (·.nextDownstream) this.downstreamHead
  entry := this.entryAt
  names := this.name2ctx
  fresh := this.fresh

variable {this : DefaultChannelPipeline}

theorem contexts_of_entry {address : Address} {entry : Entry}
    (here : this.view.entry address = some entry) :
    ∃ ctx, this.contexts address = some ctx ∧ ctx.name = entry.1 ∧ ctx.handler = entry.2 := by
  rcases Option.map_eq_some_iff.mp here with ⟨ctx, found, same⟩
  subst same
  exact ⟨ctx, found, rfl, rfl⟩

section

variable {pointer : DefaultChannelHandlerContext → Option Address} {first : Option Address}
  {address : Address} {ctx : DefaultChannelHandlerContext}
  (found : this.contexts address = some ctx)

include found

theorem linkOf_found :
    linkOf this.contexts pointer first (some address) = pointer ctx :=
  congrArg (Option.bind · pointer) found

theorem linkOf_kept :
    Function.update (linkOf this.contexts pointer first) (some address) (pointer ctx) =
      linkOf this.contexts pointer first := by
  have same := Function.update_eq_self (some address) (linkOf this.contexts pointer first)
  rw [linkOf_found found] at same
  exact same

end

theorem view_entry {address : Address} {ctx : DefaultChannelHandlerContext}
    (found : this.contexts address = some ctx) :
    this.view.entry address = some (ctx.name, ctx.handler) := congrArg (Option.map _) found

theorem linkOf_withContext (pointer : DefaultChannelHandlerContext → Option Address)
    (first : Option Address) (address : Address) (ctx : Option DefaultChannelHandlerContext) :
    linkOf (this.withContext address ctx).contexts pointer first =
      Function.update (linkOf this.contexts pointer first) (some address) (ctx.bind pointer) := by
  funext place
  cases place with
  | none => exact (Function.update_of_ne (Option.some_ne_none address).symm _ _).symm
  | some other =>
      by_cases same : other = address
      · subst same
        rw [Function.update_self]
        exact congrArg (Option.bind · pointer) (if_pos rfl)
      · rw [Function.update_of_ne (fun both => same (Option.some.inj both))]
        exact congrArg (Option.bind · pointer) (if_neg same)

theorem entryAt_withContext (address : Address) (ctx : Option DefaultChannelHandlerContext) :
    (this.withContext address ctx).entryAt =
      Function.update this.entryAt address (ctx.map (fun ctx => (ctx.name, ctx.handler))) := by
  funext other
  by_cases same : other = address
  · subst same
    rw [Function.update_self]
    exact congrArg (Option.map _) (if_pos rfl)
  · rw [Function.update_of_ne same]
    exact congrArg (Option.map _) (if_neg same)

theorem view_withContext (address : Address) (ctx : Option DefaultChannelHandlerContext) :
    (this.withContext address ctx).view =
      { this.view with
        next := Function.update this.view.next (some address) (ctx.bind (·.next))
        prev := Function.update this.view.prev (some address) (ctx.bind (·.prev))
        up := Function.update this.view.up (some address) (ctx.bind (·.nextUpstream))
        down := Function.update this.view.down (some address) (ctx.bind (·.nextDownstream))
        entry := Function.update this.view.entry address
          (ctx.map (fun ctx => (ctx.name, ctx.handler))) } := by
  unfold view
  rw [linkOf_withContext, linkOf_withContext, linkOf_withContext, linkOf_withContext,
    entryAt_withContext]
  rfl

/-- A context stored over itself with some pointers changed. -/
theorem view_withContext_found {address : Address} {ctx changed : DefaultChannelHandlerContext}
    (found : this.contexts address = some ctx) (same : changed.name = ctx.name)
    (handler : changed.handler = ctx.handler) :
    (this.withContext address (some changed)).view =
      { this.view with
        next := Function.update this.view.next (some address) changed.next
        prev := Function.update this.view.prev (some address) changed.prev
        up := Function.update this.view.up (some address) changed.nextUpstream
        down := Function.update this.view.down (some address) changed.nextDownstream } := by
  have kept : Function.update this.view.entry address (some (changed.name, changed.handler)) =
      this.view.entry := by
    rw [same, handler, ← view_entry found]
    exact Function.update_eq_self _ _
  rw [view_withContext]
  exact congrArg (fun entry => PipelineView.mk _ _ _ _ entry _ _) kept

end DefaultChannelPipeline

namespace PipelineM

open DefaultChannelPipeline

section Steps

variable {before after : DefaultChannelPipeline} {address : Address}

theorem ok_of_provided {condition : Prop} [Decidable condition] {program : PipelineM Unit}
    (ran : (provided condition program).run before = .ok () after) :
    (condition ∧ program.run before = .ok () after) ∨ (¬condition ∧ after = before) := by
  unfold provided at ran
  by_cases holds : condition
  · rw [if_pos holds] at ran
    exact .inl ⟨holds, ran⟩
  · rw [if_neg holds] at ran
    cases ran
    exact .inr ⟨holds, rfl⟩

theorem found_of_context {ctx : DefaultChannelHandlerContext}
    (ran : (context address).run before = .ok ctx after) :
    before.contexts address = some ctx ∧ after = before := by
  cases found : before.contexts address with
  | none =>
      rw [run_context_none found] at ran
      cases ran
  | some other =>
      rw [run_context found] at ran
      cases ran
      exact ⟨rfl, rfl⟩

theorem found_of_update {change : DefaultChannelHandlerContext → DefaultChannelHandlerContext}
    (ran : (update address change).run before = .ok () after) :
    ∃ ctx, before.contexts address = some ctx ∧
      after = before.withContext address (some (change ctx)) := by
  rcases ok_of_run_bind ran with ⟨ctx, middle, looked, stored⟩
  rcases found_of_context looked with ⟨found, same⟩
  subst same
  cases stored
  exact ⟨ctx, found, rfl⟩

theorem view_of_setNext {next : Option Address}
    (ran : (setNext address next).run before = .ok () after) :
    after.view =
      { before.view with next := Function.update before.view.next (some address) next } := by
  rcases found_of_update ran with ⟨ctx, found, same⟩
  subst same
  rw [view_withContext_found found]
  · unfold view
    simp only [linkOf_kept found]
  · rfl
  · rfl

theorem view_of_setPrev {prev : Option Address}
    (ran : (setPrev address prev).run before = .ok () after) :
    after.view =
      { before.view with prev := Function.update before.view.prev (some address) prev } := by
  rcases found_of_update ran with ⟨ctx, found, same⟩
  subst same
  rw [view_withContext_found found]
  · unfold view
    simp only [linkOf_kept found]
  · rfl
  · rfl

theorem view_of_setNextUpstream {nextUpstream : Option Address}
    (ran : (update address fun ctx => { ctx with nextUpstream := nextUpstream }).run before =
      .ok () after) :
    after.view =
      { before.view with
        up := Function.update before.view.up (some address) nextUpstream } := by
  rcases found_of_update ran with ⟨ctx, found, same⟩
  subst same
  rw [view_withContext_found found]
  · unfold view
    simp only [linkOf_kept found]
  · rfl
  · rfl

theorem view_of_setNextDownstream {nextDownstream : Option Address}
    (ran : (update address fun ctx => { ctx with nextDownstream := nextDownstream }).run before =
      .ok () after) :
    after.view =
      { before.view with
        down := Function.update before.view.down (some address) nextDownstream } := by
  rcases found_of_update ran with ⟨ctx, found, same⟩
  subst same
  rw [view_withContext_found found]
  · unfold view
    simp only [linkOf_kept found]
  · rfl
  · rfl

theorem view_of_setHead {head : Option Address} (ran : (setHead head).run before = .ok () after) :
    after.view = { before.view with next := Function.update before.view.next none head } := by
  cases ran
  exact congrArg (fun next => PipelineView.mk next _ _ _ _ _ _) (linkOf_first _ _ before.head _)

theorem view_of_setTail {tail : Option Address} (ran : (setTail tail).run before = .ok () after) :
    after.view = { before.view with prev := Function.update before.view.prev none tail } := by
  cases ran
  exact congrArg (fun prev => PipelineView.mk _ prev _ _ _ _ _) (linkOf_first _ _ before.tail _)

theorem view_of_setUpstreamHead {head : Option Address}
    (ran : (setUpstreamHead head).run before = .ok () after) :
    after.view = { before.view with up := Function.update before.view.up none head } := by
  cases ran
  exact congrArg (fun up => PipelineView.mk _ _ up _ _ _ _)
    (linkOf_first _ _ before.upstreamHead _)

theorem view_of_setDownstreamHead {head : Option Address}
    (ran : (setDownstreamHead head).run before = .ok () after) :
    after.view = { before.view with down := Function.update before.view.down none head } := by
  cases ran
  exact congrArg (fun down => PipelineView.mk _ _ _ down _ _ _)
    (linkOf_first _ _ before.downstreamHead _)

theorem view_of_setName2ctx {change : ContextMap → ContextMap}
    (ran : (setName2ctx change).run before = .ok () after) :
    after.view = { before.view with names := change before.view.names } := by
  cases ran
  rfl

theorem view_of_delete (ran : (delete address).run before = .ok () after) :
    (∃ entry, before.view.entry address = some entry) ∧
    after.view =
      { before.view with
        next := Function.update before.view.next (some address) none
        prev := Function.update before.view.prev (some address) none
        up := Function.update before.view.up (some address) none
        down := Function.update before.view.down (some address) none
        entry := Function.update before.view.entry address none } := by
  rcases ok_of_run_bind ran with ⟨ctx, middle, looked, stored⟩
  rcases found_of_context looked with ⟨found, same⟩
  subst same
  cases stored
  exact ⟨⟨_, view_entry found⟩, view_withContext address none⟩

theorem dereferenced {pointer : Option Address}
    (ran : (dereference pointer).run before = .ok address after) :
    pointer = some address ∧ after = before := by
  cases pointer with
  | none => cases ran
  | some other =>
      cases ran
      exact ⟨rfl, rfl⟩

/-- A new context, at the next address, whose chain pointers are `NULL`. -/
theorem view_of_newContext {name : String} {handler : ChannelHandler}
    {prev next : Option Address}
    (ran : (newContext name handler prev next).run before = .ok address after) :
    address = before.view.fresh ∧
    after.view =
      { before.view with
        next := Function.update before.view.next (some address) next
        prev := Function.update before.view.prev (some address) prev
        up := Function.update before.view.up (some address) none
        down := Function.update before.view.down (some address) none
        entry := Function.update before.view.entry address (some (name, handler))
        fresh := address + 1 } := by
  by_cases idle : ¬handler.upstream ∧ ¬handler.downstream
  · simp only [newContext, provided, if_pos idle] at ran
    cases ran
  · simp only [newContext, provided, if_neg idle] at ran
    cases ran
    have stored : (before.withContext before.fresh (some
        { next := next
          prev := prev
          nextUpstream := none
          nextDownstream := none
          name := name
          handler := handler })).view = _ := view_withContext _ _
    exact ⟨rfl, congrArg (fun view => { view with fresh := before.fresh + 1 }) stored⟩

end Steps

end PipelineM

structure Route where
  can : ChannelHandler → Bool
  /-- Whether the route goes from the tail to the head. -/
  backwards : Bool
  link : PipelineView → Link Address
  store : PipelineView → Link Address → PipelineView
  /-- The links of the list against the route. -/
  against : PipelineView → Link Address
  link_store : ∀ view links, link (store view links) = links
  store_link : ∀ view, store view (link view) = view
  store_store : ∀ view first second, store (store view first) second = store view second
  entry_store : ∀ view links, (store view links).entry = view.entry
  against_store : ∀ view links, against (store view links) = against view

namespace Route

def upstream : Route where
  can := ChannelHandler.upstream
  backwards := false
  link := PipelineView.up
  store := fun view links => { view with up := links }
  against := PipelineView.prev
  link_store := fun _ _ => rfl
  store_link := fun _ => rfl
  store_store := fun _ _ _ => rfl
  entry_store := fun _ _ => rfl
  against_store := fun _ _ => rfl

def downstream : Route where
  can := ChannelHandler.downstream
  backwards := true
  link := PipelineView.down
  store := fun view links => { view with down := links }
  against := PipelineView.next
  link_store := fun _ _ => rfl
  store_link := fun _ => rfl
  store_store := fun _ _ _ => rfl
  entry_store := fun _ _ => rfl
  against_store := fun _ _ => rfl

variable (route : Route)

/-- The items of the list in the route's order. -/
def along {Item : Type} (items : List Item) : List Item :=
  if route.backwards then items.reverse else items

/-- Whether an event of the route stops at a context. -/
def able (view : PipelineView) (address : Address) : Bool :=
  (view.entry address).any (fun entry => route.can entry.2)

/-- The contexts the route has to visit. -/
def stations (view : PipelineView) (addresses : List Address) : List Address :=
  (route.along addresses).filter (route.able view)

theorem able_store (view : PipelineView) (links : Link Address) :
    route.able (route.store view links) = route.able view := by
  funext address
  unfold able
  rw [route.entry_store]

variable {route}

theorem able_found {this : DefaultChannelPipeline} {address : Address}
    {ctx : DefaultChannelHandlerContext} (found : this.contexts address = some ctx) :
    route.able this.view address = route.can ctx.handler := by
  unfold able
  rw [DefaultChannelPipeline.view_entry found]
  rfl

theorem mem_along {Item : Type} {items : List Item} {item : Item} :
    item ∈ route.along items ↔ item ∈ items := by
  unfold along
  split
  · exact List.mem_reverse
  · exact Iff.rfl

theorem nodup_along {Item : Type} {items : List Item} :
    (route.along items).Nodup ↔ items.Nodup := by
  unfold along
  split
  · exact List.nodup_reverse
  · exact Iff.rfl

end Route

namespace PipelineM

open DefaultChannelPipeline Route

/-- The loop of `updateUpstreamList` and of `updateDownstreamList`. -/
def rebuildFrom (round : Address → DefaultChannelHandlerContext → PipelineM Unit)
    (pointer : DefaultChannelHandlerContext → Option Address) :
    Nat → Option Address → PipelineM Unit
  | 0, _ => throw .diverges
  | _ + 1, none => pure ()
  | fuel + 1, some address => do
      let ctx ← context address
      round address ctx
      rebuildFrom round pointer fuel (pointer ctx)

theorem updateUpstreamFrom_eq (fuel : Nat) (up : Option Address) :
    updateUpstreamFrom fuel up = rebuildFrom chainUpstream (·.prev) fuel up := by
  induction fuel generalizing up with
  | zero => rfl
  | succ fuel ih =>
      cases up with
      | none => rfl
      | some up =>
          unfold updateUpstreamFrom rebuildFrom
          simp only [ih]

theorem updateDownstreamFrom_eq (fuel : Nat) (down : Option Address) :
    updateDownstreamFrom fuel down = rebuildFrom chainDownstream (·.next) fuel down := by
  induction fuel generalizing down with
  | zero => rfl
  | succ fuel ih =>
      cases down with
      | none => rfl
      | some down =>
          unfold updateDownstreamFrom rebuildFrom
          simp only [ih]

/-- A round puts a context that is able to take the event in front of the chain. -/
def Grows (route : Route) (round : Address → DefaultChannelHandlerContext → PipelineM Unit) :
    Prop :=
  ∀ before after address ctx, before.contexts address = some ctx →
    (round address ctx).run before = .ok () after →
    after.view = if route.can ctx.handler
      then route.store before.view (regrow (route.link before.view) address) else before.view

theorem grows_chainUpstream : Grows Route.upstream chainUpstream := by
  intro before after address ctx found ran
  rcases ok_of_provided ran with ⟨capable, ran⟩ | ⟨incapable, same⟩
  · rw [if_pos (show Route.upstream.can ctx.handler = true from capable)]
    rw [run_bind_get] at ran
    rcases ok_of_run_bind ran with ⟨_, middle, linked, moved⟩
    rw [view_of_setUpstreamHead moved]
    rcases ok_of_provided linked with ⟨chained, linked⟩ | ⟨alone, same⟩
    · rw [view_of_setNextUpstream linked]
      exact congrArg (Route.upstream.store before.view) (regrow_linked address chained).symm
    · rw [same]
      exact congrArg (Route.upstream.store before.view)
        (regrow_alone address (not_not.mp alone)).symm
  · rw [if_neg (show ¬Route.upstream.can ctx.handler = true from incapable), same]

theorem grows_chainDownstream : Grows Route.downstream chainDownstream := by
  intro before after address ctx found ran
  rcases ok_of_provided ran with ⟨capable, ran⟩ | ⟨incapable, same⟩
  · rw [if_pos (show Route.downstream.can ctx.handler = true from capable)]
    rw [run_bind_get] at ran
    rcases ok_of_run_bind ran with ⟨_, middle, linked, moved⟩
    rw [view_of_setDownstreamHead moved]
    rcases ok_of_provided linked with ⟨chained, linked⟩ | ⟨alone, same⟩
    · rw [view_of_setNextDownstream linked]
      exact congrArg (Route.downstream.store before.view) (regrow_linked address chained).symm
    · rw [same]
      exact congrArg (Route.downstream.store before.view)
        (regrow_alone address (not_not.mp alone)).symm
  · rw [if_neg (show ¬Route.downstream.can ctx.handler = true from incapable), same]

section Rebuilding

variable {route : Route} {round : Address → DefaultChannelHandlerContext → PipelineM Unit}
  {pointer : DefaultChannelHandlerContext → Option Address}

section

variable (grows : Grows route round)
  (points : ∀ (this : DefaultChannelPipeline) address ctx, this.contexts address = some ctx →
    route.against this.view (some address) = pointer ctx)
  {fuel : Nat}

include grows points

/-- The walk over `rest`, with the chain grown so far. The only link that is left as it was
is that of the first context put into an empty chain. -/
theorem view_of_rebuildFrom {rest : List Address} {before after : DefaultChannelPipeline}
    (ran : (rebuildFrom round pointer fuel rest.head?).run before = .ok () after)
    (leads : LinkedChains.Leads (route.against before.view) (rest.map some ++ [none])) :
    ∃ links, after.view = route.store before.view links ∧
      ∀ grown, Chain (route.link before.view) grown → (rest.reverse ++ grown).Nodup →
        (grown = [] → ∀ first, (rest.filter (route.able before.view)).head? = some first →
          route.link before.view (some first) = none) →
        Chain links ((rest.filter (route.able before.view)).reverse ++ grown) := by
  induction fuel generalizing rest before with
  | zero => cases ran
  | succ fuel ih =>
      cases rest with
      | nil =>
          cases ran
          exact ⟨_, (route.store_link _).symm, fun grown chain _ _ => chain⟩
      | cons address rest =>
          unfold rebuildFrom at ran
          rw [List.head?_cons] at ran
          rcases ok_of_run_bind ran with ⟨ctx, looked, read, later⟩
          rcases found_of_context read with ⟨found, same⟩
          rw [same] at later
          rcases ok_of_run_bind later with ⟨_, middle, grew, onwards⟩
          have turned := grows before middle address ctx found grew
          have onward : route.against before.view (some address) = rest.head? ∧
              LinkedChains.Leads (route.against before.view) (rest.map some ++ [none]) := by
            rcases places_back rest with ⟨late, split, _⟩
            rw [List.map_cons, List.cons_append, split] at leads
            rw [split]
            exact leads_cons.mp leads
          rw [← points before address ctx found, onward.1] at onwards
          by_cases capable : route.can ctx.handler
          · rw [if_pos capable] at turned
            have leads_on := onward.2
            rw [← route.against_store before.view, ← turned] at leads_on
            rcases ih onwards leads_on with ⟨links, ended, chained⟩
            rw [turned, route.store_store] at ended
            refine ⟨links, ended, ?_⟩
            intro grown chain distinct loose
            have apart := List.nodup_append'.mp distinct
            rw [List.filter_cons_of_pos ((able_found found).trans capable)] at loose ⊢
            rw [List.reverse_cons, List.append_assoc]
            rw [turned, route.able_store, route.link_store] at chained
            apply chained (address :: grown)
            · apply chain.regrow _ _ apart.2.1
              · exact fun inside =>
                  apart.2.2 (List.mem_reverse.mpr List.mem_cons_self) inside
              · intro empty
                exact loose empty address rfl
            · rw [List.reverse_cons, List.append_assoc] at distinct
              exact distinct
            · intro empty
              cases empty
          · rw [if_neg capable] at turned
            have leads_on := onward.2
            rw [← turned] at leads_on
            rcases ih onwards leads_on with ⟨links, ended, chained⟩
            rw [turned] at ended chained
            refine ⟨links, ended, ?_⟩
            intro grown chain distinct loose
            have unable : ¬route.able before.view address = true := by
              rw [able_found found]
              exact capable
            rw [List.filter_cons_of_neg unable] at loose ⊢
            apply chained grown chain _ loose
            rw [List.reverse_cons, List.append_assoc] at distinct
            exact distinct.sublist ((List.sublist_cons_self address grown).append_left rest.reverse)

theorem chain_of_rebuildFrom {addresses : List Address} {before after : DefaultChannelPipeline}
    (ran : (rebuildFrom round pointer fuel (route.against before.view none)).run before =
      .ok () after)
    (backward : Chain (route.against before.view) (route.along addresses).reverse)
    (distinct : addresses.Nodup) (emptied : route.link before.view none = none) :
    ∃ links, after.view = route.store before.view links ∧
      ((∀ last, (route.stations before.view addresses).getLast? = some last →
          route.link before.view (some last) = none) →
        Chain links (route.stations before.view addresses)) := by
  rw [backward.first] at ran
  have leads : LinkedChains.Leads (route.against before.view)
      ((route.along addresses).reverse.map some ++ [none]) := by
    rcases places_back (route.along addresses).reverse with ⟨late, split, _⟩
    unfold Chain at backward
    rw [List.cons_append, split] at backward
    rw [split]
    exact (leads_cons.mp backward).2
  rcases view_of_rebuildFrom grows points ran leads with ⟨links, ended, chained⟩
  have whole := chained [] (chain_nil.mpr emptied)
  rw [List.reverse_reverse, List.append_nil, List.append_nil, List.filter_reverse,
    List.reverse_reverse] at whole
  refine ⟨links, ended, ?_⟩
  intro loose
  apply whole (nodup_along.mpr distinct)
  intro _ first found
  rw [List.head?_reverse] at found
  exact loose first found

end

/-- What the route's update does: its own chain alone changes, and it visits the contexts
of the route if the last of them led nowhere before. -/
def Rebuilds (route : Route) (program : PipelineM Unit) : Prop :=
  ∀ before after addresses, program.run before = .ok () after →
    Chain (route.against before.view) (route.along addresses).reverse → addresses.Nodup →
    ∃ links, after.view = route.store before.view links ∧
      ((∀ last, (route.stations before.view addresses).getLast? = some last →
          route.link before.view (some last) = none) →
        Chain links (route.stations before.view addresses))

end Rebuilding

section

variable (this : DefaultChannelPipeline) (address : Address) (ctx : DefaultChannelHandlerContext)
  (found : this.contexts address = some ctx)

include this address ctx found

theorem points_prev :
    Route.upstream.against this.view (some address) = ctx.prev := by
  have pointed : linkOf this.contexts (·.prev) this.tail (some address) = ctx.prev :=
    linkOf_found found
  exact pointed

theorem points_next :
    Route.downstream.against this.view (some address) = ctx.next := by
  have pointed : linkOf this.contexts (·.next) this.head (some address) = ctx.next :=
    linkOf_found found
  exact pointed

end

theorem rebuilds_updateUpstreamList : Rebuilds Route.upstream updateUpstreamList := by
  intro before after addresses ran backward distinct
  unfold updateUpstreamList at ran
  rw [run_bind_get] at ran
  rcases ok_of_run_bind ran with ⟨_, middle, emptied, walked⟩
  have cleared := view_of_setUpstreamHead emptied
  rw [updateUpstreamFrom_eq] at walked
  have start : before.tail = Route.upstream.against middle.view none := by
    rw [cleared]
    rfl
  rw [start] at walked
  have turned : Chain (Route.upstream.against middle.view)
      (Route.upstream.along addresses).reverse := by
    rw [cleared]
    exact backward
  have none_first : Route.upstream.link middle.view none = none := by
    rw [cleared]
    change Function.update before.view.up none none none = none
    rw [Function.update_self]
  rcases chain_of_rebuildFrom grows_chainUpstream points_prev walked turned distinct none_first with ⟨links, ended, chained⟩
  rw [cleared] at ended chained
  refine ⟨links, ended, ?_⟩
  intro loose
  apply chained
  intro last found
  exact (Function.update_of_ne (Option.some_ne_none last) none _).trans (loose last found)

theorem rebuilds_updateDownstreamList : Rebuilds Route.downstream updateDownstreamList := by
  intro before after addresses ran backward distinct
  unfold updateDownstreamList at ran
  rw [run_bind_get] at ran
  rcases ok_of_run_bind ran with ⟨_, middle, emptied, walked⟩
  have cleared := view_of_setDownstreamHead emptied
  rw [updateDownstreamFrom_eq] at walked
  have start : before.head = Route.downstream.against middle.view none := by
    rw [cleared]
    rfl
  rw [start] at walked
  have turned : Chain (Route.downstream.against middle.view)
      (Route.downstream.along addresses).reverse := by
    rw [cleared]
    exact backward
  have none_first : Route.downstream.link middle.view none = none := by
    rw [cleared]
    change Function.update before.view.down none none none = none
    rw [Function.update_self]
  rcases chain_of_rebuildFrom grows_chainDownstream points_next walked turned distinct none_first with ⟨links, ended, chained⟩
  rw [cleared] at ended chained
  refine ⟨links, ended, ?_⟩
  intro loose
  apply chained
  intro last found
  exact (Function.update_of_ne (Option.some_ne_none last) none _).trans (loose last found)

end PipelineM

end Cetty
