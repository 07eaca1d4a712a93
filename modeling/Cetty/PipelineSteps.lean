import Cetty.PipelineLists

/-!
# What a modification that returns has done

Inserting, removing and replacing between any two neighbours.
-/

namespace Cetty

open LinkedChains PipelineView

namespace PipelineM

open DefaultChannelPipeline

/-- The exchange, with what became of the contexts. -/
structure Exchanged (before after : PipelineView) (front olds news back : List Item) : Prop
    extends Relinked before after front olds news back where
  entries : ∀ address entry, after.entry address = some entry →
    (address, entry) ∈ news ∨
      (before.entry address = some entry ∧ address ∉ olds.map Prod.fst)

section Relinking

variable {before after : PipelineView} {front olds news back : List Item}

theorem Relinked.named (relinked : Relinked before after front olds news back)
    (names : ContextMap) : Relinked before { after with names := names } front olds news back where
  listed :=
    { distinct := relinked.listed.distinct
      spelled := relinked.listed.spelled
      old := relinked.listed.old
      forward := relinked.listed.forward
      backward := relinked.listed.backward }
  upstream := relinked.upstream
  downstream := relinked.downstream

theorem Relinked.without {address : Address}
    (relinked : Relinked before after front olds news back)
    (apart : address ∉ (front ++ news ++ back).map Prod.fst) :
    Relinked before (after.without address) front olds news back where
  listed := relinked.listed.without apart
  upstream := fun stays routed =>
    (relinked.upstream stays routed).update_apart (fun stop => apart (Route.mem_stops stop)) none
  downstream := fun stays routed =>
    (relinked.downstream stays routed).update_apart (fun stop => apart (Route.mem_stops stop)) none

end Relinking

section Callbacks

variable {throws : LifeCycleCall → Address → Bool} {before after : DefaultChannelPipeline}
  {address : Address}

theorem same_of_callback {call : LifeCycleCall} {message : String}
    (ran : (callback throws call message address).run before = .ok () after) : after = before := by
  rcases ok_of_run_bind ran with ⟨ctx, middle, looked, called⟩
  rcases found_of_context looked with ⟨_, same⟩
  rcases ok_of_provided called with ⟨_, thrown⟩ | ⟨_, still⟩
  · cases thrown
  · exact still.trans same

/-- Either nothing happens, or the handler's exception has taken its context out again. -/
theorem removed_of_callAfterAdd
    (ran : (callAfterAdd throws address).run before = .ok () after) :
    (after = before ∧ ∃ ctx, before.contexts address = some ctx ∧
      ¬(ctx.handler.lifeCycleAware ∧ throws .afterAdd address)) ∨
    (∃ handler, (removeContext throws address).run before = .ok handler after ∧
      ∃ ctx, before.contexts address = some ctx ∧
        ctx.handler.lifeCycleAware ∧ throws .afterAdd address) := by
  rcases ok_of_run_bind ran with ⟨ctx, middle, looked, called⟩
  rcases found_of_context looked with ⟨found, same⟩
  rw [same] at called
  rcases ok_of_provided called with ⟨stops, taken⟩ | ⟨goes, still⟩
  · right
    cases removed : (do let _ ← removeContext throws address : PipelineM Unit).run before with
    | error stop ended =>
        unfold takeOut at taken
        rw [run_tryCatch_error _ removed] at taken
        cases stop with
        | thrown exception => cases taken
        | _ => cases taken
    | ok value ended =>
        unfold takeOut at taken
        rw [run_tryCatch_ok _ removed] at taken
        cases taken
        rcases ok_of_run_bind removed with ⟨handler, last, removed, dropped⟩
        cases dropped
        exact ⟨handler, removed, ctx, found, stops⟩
  · exact .inl ⟨still, ctx, found, goes⟩

end Callbacks

section Insertion

variable {throws : LifeCycleCall → Address → Bool} {before after : DefaultChannelPipeline}
  {front back : List Item} {name : String} {handler : ChannelHandler}

/-- Between two neighbours, whose links `link` moves. -/
theorem exchanged_insert {link : Address → PipelineM Unit}
    (listed : before.view.Listed (front ++ back))
    (links : ∀ newCtx start ended, (link newCtx).run start = .ok () ended →
      ended.view = start.view.withLinks (lastOf front) (firstOf back) (some newCtx) (some newCtx))
    (ran : (insert throws name handler (lastOf front) (firstOf back) link).run before =
      .ok () after) :
    ∃ added : DefaultChannelPipeline,
      Exchanged before.view added.view front [] [(before.view.fresh, name, handler)] back ∧
      added.view.names = before.view.names.put name before.view.fresh ∧
      (callAfterAdd throws before.view.fresh).run added = .ok () after := by
  rcases ok_of_run_bind ran with ⟨newCtx, made, created, ran⟩
  rcases view_of_newContext created with ⟨address, made_view⟩
  rcases ok_of_run_bind ran with ⟨_, asked, called, ran⟩
  have asked_same := same_of_callback called
  rcases ok_of_run_bind ran with ⟨_, linked, moving, ran⟩
  have linked_view := links newCtx asked linked moving
  rcases ok_of_run_bind ran with ⟨_, chained, updating, ran⟩
  rcases ok_of_run_bind ran with ⟨_, added, naming, ran⟩
  have named := view_of_setName2ctx naming
  have moved : linked.view =
      (before.view.withNew (name, handler) (lastOf front) (firstOf back)).withLinks (lastOf front)
        (firstOf back) (some before.view.fresh) (some before.view.fresh) := by
    rw [linked_view, asked_same, made_view, address]
    rfl
  have listed_around : before.view.Listed (front ++ [] ++ back) := by
    rw [List.append_nil]
    exact listed
  have told (route : Route) (can : Bool) (same : can = route.can handler) (no : can = false) :
      route.takes (([] : List Item).map Prod.snd) = false ∧
        route.takes [(name, handler)] = false := by
    refine ⟨rfl, ?_⟩
    unfold Route.takes
    rw [List.any_cons, List.any_nil, Bool.or_false, ← same]
    exact no
  rcases relinked_put listed_around (name, handler) moved (told Route.upstream _ rfl)
    (told Route.downstream _ rfl) updating with ⟨relinked, names, entries⟩
  rw [address] at named ran
  refine ⟨added, ⟨?_, ?_⟩, ?_, ran⟩
  · rw [named]
    exact relinked.named _
  · intro other entry here
    rw [named] at here
    change chained.view.entry other = some entry at here
    rw [entries] at here
    by_cases same : other = before.view.fresh
    · rw [same, Function.update_self] at here
      cases here
      rw [same]
      exact .inl (List.mem_singleton_self _)
    · rw [Function.update_of_ne same] at here
      exact .inr ⟨here, nofun⟩
  · rw [named, ← names]

end Insertion

section Removal

variable {throws : LifeCycleCall → Address → Bool} {before after : DefaultChannelPipeline}
  {front back : List Item} {address : Address} {entry : Entry} {handler : ChannelHandler}

/-- The last lines of a removal, when the list no longer has the context. -/
theorem exchanged_discard {chained : DefaultChannelPipeline}
    (listed : before.view.Listed (front ++ (address, entry) :: back))
    (relinked : Relinked before.view chained.view front [(address, entry)] [] back)
    (same : chained.view.entry = before.view.entry)
    (ran : (do
      callAfterRemove throws address
      delete address
      pure handler : PipelineM ChannelHandler).run chained = .ok handler after) :
    Exchanged before.view after.view front [(address, entry)] [] back ∧
      after.view.names = chained.view.names := by
  rcases ok_of_run_bind ran with ⟨_, told, called, ran⟩
  have told_same := same_of_callback called
  rcases ok_of_run_bind ran with ⟨_, ended, deleting, returned⟩
  cases returned
  rw [told_same] at deleting
  rcases view_of_delete deleting with ⟨_, deleted⟩
  have apart : address ∉ (front ++ [] ++ back).map Prod.fst := by
    have distinct := listed.distinct
    rw [List.map_append, List.map_cons, List.nodup_middle] at distinct
    rw [List.append_nil, List.map_append]
    exact (List.nodup_cons.mp distinct).1
  have gone := relinked.without apart
  change Relinked before.view _ front _ [] back at gone
  refine ⟨⟨?_, ?_⟩, ?_⟩
  · rw [deleted]
    exact gone
  · intro other kept here
    rw [deleted] at here
    change Function.update chained.view.entry address none other = some kept at here
    by_cases removed : other = address
    · rw [removed, Function.update_self] at here
      cases here
    · rw [Function.update_of_ne removed, same] at here
      refine .inr ⟨here, ?_⟩
      intro inside
      exact removed (List.mem_singleton.mp inside)
  · rw [deleted]

variable {ctx : DefaultChannelHandlerContext} {items : List Item}

theorem told_of_handler (found : before.contexts address = some ctx)
    (here : before.view.entry address = some entry) (route : Route)
    (no : route.can ctx.handler = false) :
    route.takes ([(address, entry)].map Prod.snd) = false := by
  rw [view_entry found] at here
  cases here
  unfold Route.takes
  rw [List.map_singleton, List.any_cons, List.any_nil, Bool.or_false]
  exact no

/-- The pointers of a context of the list. -/
theorem neighbours (listed : before.view.Listed (front ++ (address, entry) :: back))
    (found : before.contexts address = some ctx) :
    ctx.next = firstOf back ∧ ctx.prev = lastOf front := by
  have forward := listed.forward
  have backward := listed.backward
  rw [List.map_append, List.map_cons] at forward backward
  rw [List.reverse_append, List.reverse_cons, List.append_assoc] at backward
  have next : before.view.next (some address) = ctx.next := points_next before address ctx found
  have prev : before.view.prev (some address) = ctx.prev := points_prev before address ctx found
  constructor
  · rw [← next]
    exact forward.after
  · rw [← prev]
    exact backward.after.trans List.head?_reverse

theorem split_one (front back : List Item) (item : Item) :
    front ++ item :: back = front ++ [item] ++ back := by
  rw [List.append_assoc]
  rfl

theorem exchanged_removeEnd {unlink : DefaultChannelHandlerContext → PipelineM Unit}
    {names : ContextMap} (listed : before.view.Listed (front ++ (address, entry) :: back))
    (unlinked : ∀ ctx middle, before.contexts address = some ctx →
      (unlink ctx).run before = .ok () middle →
      middle.view =
        { before.view.withLinks (lastOf front) (firstOf back) (firstOf back) (lastOf front) with
          names := names })
    (ran : (removeEnd throws (some address) unlink).run before = .ok handler after) :
    Exchanged before.view after.view front [(address, entry)] [] back ∧
      after.view.names = names := by
  unfold removeEnd at ran
  rcases ok_of_run_bind ran with ⟨_, asked, called, ran⟩
  rw [same_of_callback called] at ran
  rcases ok_of_run_bind ran with ⟨ctx, _, looked, ran⟩
  rcases found_of_context looked with ⟨found, same⟩
  rw [same] at ran
  rcases ok_of_run_bind ran with ⟨_, middle, unlinking, ran⟩
  rcases ok_of_run_bind ran with ⟨_, chained, updating, ran⟩
  have here := listed.spelled (address, entry) (List.mem_append_right _ List.mem_cons_self)
  rcases relinked_cut (split_one front back _ ▸ listed) (unlinked ctx middle found unlinking)
    (told_of_handler found here Route.upstream) (told_of_handler found here Route.downstream)
    updating with ⟨relinked, named, entries⟩
  have returned : handler = ctx.handler := by
    rcases ok_of_run_bind ran with ⟨_, told, _, rest⟩
    rcases ok_of_run_bind rest with ⟨_, ended, _, last⟩
    cases last
    rfl
  rw [← returned] at ran
  rcases exchanged_discard listed relinked entries ran with ⟨exchanged, kept⟩
  exact ⟨exchanged, kept.trans named⟩

theorem exchanged_removeMiddle (listed : before.view.Listed (front ++ (address, entry) :: back))
    (ran : (removeMiddle throws address).run before = .ok handler after) :
    Exchanged before.view after.view front [(address, entry)] [] back ∧
      after.view.names = before.view.names.erase entry.1 := by
  rcases ok_of_run_bind ran with ⟨_, asked, called, ran⟩
  rw [same_of_callback called] at ran
  rcases ok_of_run_bind ran with ⟨ctx, _, looked, ran⟩
  rcases found_of_context looked with ⟨found, same⟩
  rw [same] at ran
  rcases neighbours listed found with ⟨next, prev⟩
  rcases ok_of_run_bind ran with ⟨left, _, pointed, ran⟩
  rcases dereferenced pointed with ⟨ahead, still⟩
  rw [still] at ran
  rcases ok_of_run_bind ran with ⟨_, first, moving, ran⟩
  rcases ok_of_run_bind ran with ⟨right, _, pointed, ran⟩
  rcases dereferenced pointed with ⟨behind, still⟩
  rw [still] at ran
  rcases ok_of_run_bind ran with ⟨_, middle, moving_back, ran⟩
  rcases ok_of_run_bind ran with ⟨_, chained, updating, ran⟩
  rcases ok_of_run_bind ran with ⟨_, forgotten, naming, ran⟩
  have here := listed.spelled (address, entry) (List.mem_append_right _ List.mem_cons_self)
  have moved : middle.view =
      { before.view.withLinks (lastOf front) (firstOf back) (firstOf back) (lastOf front) with
        names := before.view.names } := by
    rw [view_of_setPrev moving_back, view_of_setNext moving, ← ahead, ← behind, next, prev]
    rfl
  rcases relinked_cut (split_one front back _ ▸ listed) moved
    (told_of_handler found here Route.upstream) (told_of_handler found here Route.downstream)
    updating with ⟨relinked, named, entries⟩
  have named_view := view_of_setName2ctx naming
  have returned : handler = ctx.handler := by
    rcases ok_of_run_bind ran with ⟨_, told, _, rest⟩
    rcases ok_of_run_bind rest with ⟨_, ended, _, last⟩
    cases last
    rfl
  have still_relinked := relinked.named (chained.view.names.erase ctx.name)
  rw [← named_view] at still_relinked
  have still_entries : forgotten.view.entry = before.view.entry := by
    rw [named_view]
    exact entries
  rw [← returned] at ran
  rcases exchanged_discard listed still_relinked still_entries ran with ⟨exchanged, kept⟩
  rw [view_entry found] at here
  cases here
  refine ⟨exchanged, ?_⟩
  rw [kept, named_view, ← named]

theorem forward_first (listed : before.view.Listed items) :
    before.head = firstOf items := listed.forward.first

theorem backward_first (listed : before.view.Listed items) :
    before.tail = lastOf items :=
  listed.backward.first.trans List.head?_reverse

section

variable (distinct : ((front ++ (address, entry) :: back).map Prod.fst).Nodup)

include distinct

theorem first_alone
    (first : firstOf (front ++ (address, entry) :: back) = some address) : front = [] := by
  cases front with
  | nil => rfl
  | cons item rest =>
      have same : item.1 = address := Option.some.inj first
      rw [List.cons_append, List.map_cons, List.nodup_cons] at distinct
      exfalso
      apply distinct.1
      rw [same, List.map_append, List.map_cons]
      exact List.mem_append_right _ List.mem_cons_self

theorem last_alone
    (last : lastOf (front ++ (address, entry) :: back) = some address) : back = [] := by
  have reversed : ((back.reverse ++ (address, entry) :: front.reverse).map Prod.fst).Nodup := by
    rw [← List.nodup_reverse, ← List.map_reverse] at distinct
    rw [List.reverse_append, List.reverse_cons, List.append_assoc] at distinct
    exact distinct
  have first : firstOf (back.reverse ++ (address, entry) :: front.reverse) = some address := by
    rw [← last]
    unfold firstOf lastOf
    rw [← List.head?_reverse, ← List.map_reverse, List.reverse_append, List.reverse_cons,
      List.append_assoc]
    rfl
  exact List.reverse_eq_nil_iff.mp (first_alone reversed first)

theorem alone_of_ends (ends : firstOf (front ++ (address, entry) :: back) =
      lastOf (front ++ (address, entry) :: back)) : front = [] ∧ back = [] := by
  cases front with
  | nil => exact ⟨rfl, last_alone distinct ends.symm⟩
  | cons item rest =>
      have whole : (item.1, item.2) :: (rest ++ (address, entry) :: back) =
          [] ++ (item.1, item.2) :: (rest ++ (address, entry) :: back) := rfl
      rw [List.cons_append, whole] at distinct ends
      have nothing := last_alone distinct ends.symm
      exact absurd nothing (List.append_ne_nil_of_right_ne_nil rest (List.cons_ne_nil _ back))

end

section

variable {middle : DefaultChannelPipeline} {ctx : DefaultChannelHandlerContext}

theorem view_of_unlinkFirst (listed : before.view.Listed ([] ++ (address, entry) :: back))
    (found : before.contexts address = some ctx)
    (ran : (unlinkFirst ctx).run before = .ok () middle) :
    middle.view =
      { before.view.withLinks (lastOf []) (firstOf back) (firstOf back) (lastOf []) with
        names := if back = [] then [] else before.view.names.erase entry.1 } := by
  have here := listed.spelled (address, entry) List.mem_cons_self
  rw [view_entry found] at here
  cases here
  have next := (neighbours listed found).1
  unfold unlinkFirst at ran
  cases back with
  | nil =>
      rw [show ctx.next = none from next] at ran
      rcases ok_of_run_bind ran with ⟨_, first, headless, ran⟩
      rcases ok_of_run_bind ran with ⟨_, second, tailless, ran⟩
      rw [view_of_setName2ctx ran, view_of_setTail tailless, view_of_setHead headless]
      rfl
  | cons item rest =>
      rw [show ctx.next = some item.1 from next] at ran
      rcases ok_of_run_bind ran with ⟨_, first, moved, ran⟩
      rcases ok_of_run_bind ran with ⟨_, second, headed, ran⟩
      rw [view_of_setName2ctx ran, view_of_setHead headed, view_of_setPrev moved,
        if_neg (List.cons_ne_nil item rest)]
      rfl

theorem view_of_unlinkLast (listed : before.view.Listed (front ++ (address, entry) :: []))
    (found : before.contexts address = some ctx)
    (ran : (unlinkLast ctx).run before = .ok () middle) :
    middle.view =
      { before.view.withLinks (lastOf front) (firstOf []) (firstOf []) (lastOf front) with
        names := if front = [] then [] else before.view.names.erase entry.1 } := by
  have here := listed.spelled (address, entry) (List.mem_append_right _ List.mem_cons_self)
  rw [view_entry found] at here
  cases here
  have prev := (neighbours listed found).2
  unfold unlinkLast at ran
  rcases List.eq_nil_or_concat front with empty | ⟨init, item, split⟩
  · subst empty
    rw [show ctx.prev = none from prev] at ran
    rcases ok_of_run_bind ran with ⟨_, first, headless, ran⟩
    rcases ok_of_run_bind ran with ⟨_, second, tailless, ran⟩
    rw [view_of_setName2ctx ran, view_of_setTail tailless, view_of_setHead headless]
    rfl
  · rw [List.concat_eq_append] at split
    have last : lastOf front = some item.1 := by
      unfold lastOf
      rw [split, List.map_append, List.map_singleton, List.getLast?_concat]
    rw [prev, last] at ran
    rcases ok_of_run_bind ran with ⟨_, first, moved, ran⟩
    rcases ok_of_run_bind ran with ⟨_, second, tailed, ran⟩
    have nonempty : front ≠ [] := by
      rw [split]
      exact List.append_ne_nil_of_right_ne_nil init (List.cons_ne_nil item [])
    rw [view_of_setName2ctx ran, view_of_setTail tailed, view_of_setNext moved,
      if_neg nonempty, last]
    rfl

end

/-- A context has left the list. Its only context may leave the chains as they were. -/
structure Removed (before after : PipelineView) (front : List Item) (item : Item)
    (back : List Item) : Prop where
  listed : after.Listed (front ++ back)
  entries : ∀ address entry, after.entry address = some entry →
    before.entry address = some entry ∧ address ≠ item.1
  forgets : ∀ other, after.names.find other = (before.names.erase item.2.1).find other
  relinked : front ++ back ≠ [] → Relinked before after front [item] [] back

theorem Exchanged.removed
    (exchanged : Exchanged before.view after.view front [(address, entry)] [] back)
    (forgets : ∀ other, after.view.names.find other = (before.view.names.erase entry.1).find other) :
    Removed before.view after.view front (address, entry) back where
  listed := by
    have listed := exchanged.listed
    rw [List.append_nil] at listed
    exact listed
  entries := by
    intro other kept here
    rcases exchanged.entries other kept here with new | ⟨stays, apart⟩
    · cases new
    · refine ⟨stays, ?_⟩
      intro same
      exact apart (List.mem_singleton.mpr same)
  forgets := forgets
  relinked := fun _ => exchanged.toRelinked

/-- The only name there is goes with the whole map. -/
theorem forgets_all {view : PipelineView} (keyed : view.Keyed [(address, entry)]) (other : String) :
    ContextMap.find [] other = (view.names.erase entry.1).find other := by
  change none = _
  by_contra known
  have found : view.names.find other ≠ none := by
    intro missing
    by_cases same : other = entry.1
    · rw [same, ContextMap.find_erase_self] at known
      exact known rfl
    · rw [ContextMap.find_erase_of_ne _ same, missing] at known
      exact known rfl
  rcases (keyed.known other).mp found with ⟨item, inside, named⟩
  rw [List.mem_singleton.mp inside] at named
  rw [← named, ContextMap.find_erase_self] at known
  exact known rfl

theorem nonempty_of_keyed {view : PipelineView} {item : Item}
    (keyed : view.Keyed items) (inside : item ∈ items) : view.names ≠ [] := by
  intro empty
  apply (keyed.known item.2.1).mpr ⟨item, inside, rfl⟩
  rw [empty]
  rfl

theorem exchanged_removeFirst (listed : before.view.Listed ([] ++ (address, entry) :: back))
    (keyed : before.view.Keyed ([] ++ (address, entry) :: back))
    (ran : (removeFirst throws).run before = .ok handler after) :
    Exchanged before.view after.view [] [(address, entry)] [] back ∧
      ∀ other, after.view.names.find other = (before.view.names.erase entry.1).find other := by
  have nonempty : before.name2ctx ≠ [] := nonempty_of_keyed keyed List.mem_cons_self
  unfold removeFirst at ran
  rw [run_bind_get] at ran
  simp only [if_neg nonempty] at ran
  have first : before.head = some address := forward_first listed
  rw [first] at ran
  rcases exchanged_removeEnd listed (fun ctx middle found => view_of_unlinkFirst listed found)
    ran with ⟨exchanged, names⟩
  refine ⟨exchanged, ?_⟩
  intro other
  rw [names]
  cases back with
  | nil => exact forgets_all keyed other
  | cons item rest => rw [if_neg (List.cons_ne_nil item rest)]

theorem exchanged_removeLast (listed : before.view.Listed (front ++ (address, entry) :: []))
    (keyed : before.view.Keyed (front ++ (address, entry) :: []))
    (ran : (removeLast throws).run before = .ok handler after) :
    Exchanged before.view after.view front [(address, entry)] [] [] ∧
      ∀ other, after.view.names.find other = (before.view.names.erase entry.1).find other := by
  have nonempty : before.name2ctx ≠ [] :=
    nonempty_of_keyed keyed (List.mem_append_right _ List.mem_cons_self)
  unfold removeLast at ran
  rw [run_bind_get] at ran
  simp only [if_neg nonempty] at ran
  have last : before.tail = some address := by
    rw [backward_first listed]
    unfold lastOf
    rw [List.map_append, List.map_singleton, List.getLast?_concat]
  rw [last] at ran
  rcases exchanged_removeEnd listed (fun ctx middle found => view_of_unlinkLast listed found)
    ran with ⟨exchanged, names⟩
  refine ⟨exchanged, ?_⟩
  intro other
  rw [names]
  by_cases empty : front = []
  · rw [if_pos empty]
    rw [empty] at keyed
    exact forgets_all keyed other
  · rw [if_neg empty]

theorem removed_removeOnly (listed : before.view.Listed [(address, entry)])
    (keyed : before.view.Keyed [(address, entry)])
    (ran : (removeOnly address).run before = .ok handler after) :
    Removed before.view after.view [] (address, entry) [] := by
  rcases ok_of_run_bind ran with ⟨_, first, headless, ran⟩
  rcases ok_of_run_bind ran with ⟨_, second, tailless, ran⟩
  rcases ok_of_run_bind ran with ⟨_, third, cleared, ran⟩
  rcases ok_of_run_bind ran with ⟨ctx, _, looked, ran⟩
  rw [(found_of_context looked).2] at ran
  rcases ok_of_run_bind ran with ⟨_, ended, deleting, returned⟩
  cases returned
  rcases view_of_delete deleting with ⟨_, deleted⟩
  have view : after.view =
      ({ before.view.withLinks none none none none with names := [] } : PipelineView).without
        address := by
    rw [deleted, view_of_setName2ctx cleared, view_of_setTail tailless, view_of_setHead headless]
    rfl
  have around : before.view.Listed ([] ++ [(address, entry)] ++ []) := listed
  have cut := around.cut
  constructor
  · rw [view]
    have bare : ({ before.view.withLinks none none none none with
        names := [] } : PipelineView).Listed [] :=
      ⟨cut.distinct, cut.spelled, cut.old, cut.forward, cut.backward⟩
    exact bare.without nofun
  · intro other kept here
    rw [view] at here
    change Function.update before.view.entry address none other = some kept at here
    by_cases same : other = address
    · rw [same, Function.update_self] at here
      cases here
    · rw [Function.update_of_ne same] at here
      exact ⟨here, same⟩
  · intro other
    rw [view]
    exact forgets_all keyed other
  · intro nonempty
    exact absurd rfl nonempty

theorem removed_removeContext (listed : before.view.Listed (front ++ (address, entry) :: back))
    (keyed : before.view.Keyed (front ++ (address, entry) :: back))
    (ran : (removeContext throws address).run before = .ok handler after) :
    Removed before.view after.view front (address, entry) back := by
  have head := forward_first listed
  have tail := backward_first listed
  unfold removeContext at ran
  rw [run_bind_get] at ran
  simp only [head, tail] at ran
  by_cases single : firstOf (front ++ (address, entry) :: back) =
      lastOf (front ++ (address, entry) :: back)
  · rw [if_pos single] at ran
    rcases alone_of_ends listed.distinct single with ⟨none_before, none_behind⟩
    subst none_before none_behind
    exact removed_removeOnly listed keyed ran
  · rw [if_neg single] at ran
    by_cases first : some address = firstOf (front ++ (address, entry) :: back)
    · rw [if_pos first] at ran
      have empty := first_alone listed.distinct first.symm
      subst empty
      rcases exchanged_removeFirst listed keyed ran with ⟨exchanged, forgets⟩
      exact exchanged.removed forgets
    · rw [if_neg first] at ran
      by_cases last : some address = lastOf (front ++ (address, entry) :: back)
      · rw [if_pos last] at ran
        have empty := last_alone listed.distinct last.symm
        subst empty
        rcases exchanged_removeLast listed keyed ran with ⟨exchanged, forgets⟩
        exact exchanged.removed forgets
      · rw [if_neg last] at ran
        rcases exchanged_removeMiddle listed ran with ⟨exchanged, names⟩
        apply exchanged.removed
        intro other
        rw [names]

end Removal

section Replacement

variable {throws : LifeCycleCall → Address → Bool} {before after : DefaultChannelPipeline}
  {front back : List Item} {address : Address} {entry : Entry}

theorem ok_of_caught_none {program : PipelineM Unit}
    (ran : (caught program).run before = .ok none after) : program.run before = .ok () after := by
  cases result : program.run before with
  | ok value middle =>
      have whole : (do program; pure none : PipelineM (Option Exception)).run before =
          .ok none middle := run_bind_ok _ result
      unfold caught at ran
      rw [run_tryCatch_ok _ whole] at ran
      cases ran
      rfl
  | error stop middle =>
      have whole : (do program; pure none : PipelineM (Option Exception)).run before =
          .error stop middle := run_bind_error _ result
      unfold caught at ran
      rw [run_tryCatch_error _ whole] at ran
      cases stop with
      | thrown exception => cases ran
      | _ => cases ran

theorem ok_of_settleReplace {handler result : ChannelHandler}
    {removeException addException : Option Exception}
    (ran : (settleReplace address handler removeException addException).run before =
      .ok result after) :
    removeException = none ∧ addException = none ∧
      (delete address).run before = .ok () after := by
  cases removeException with
  | some exception =>
      cases addException with
      | some other =>
          rcases ok_of_run_bind ran with ⟨_, _, _, thrown⟩
          cases thrown
      | none =>
          rcases ok_of_run_bind ran with ⟨_, _, _, thrown⟩
          cases thrown
  | none =>
      cases addException with
      | some other =>
          rcases ok_of_run_bind ran with ⟨_, _, _, thrown⟩
          cases thrown
      | none =>
          rcases ok_of_run_bind ran with ⟨_, ended, deleting, returned⟩
          cases returned
          exact ⟨rfl, rfl, deleting⟩

/-- The new context is in place of the old one, which is still there until the end. -/
theorem relinked_replaceMiddle {newName : String} {newHandler handler : ChannelHandler}
    (listed : before.view.Listed (front ++ (address, entry) :: back))
    (ran : (replaceMiddle throws address newName newHandler).run before = .ok handler after) :
    (entry.1 ≠ newName → before.view.names.find newName = none) ∧
    ∃ placed settled : DefaultChannelPipeline,
      Relinked before.view placed.view front [(address, entry)]
        [(before.view.fresh, newName, newHandler)] back ∧
      placed.view.entry =
        Function.update before.view.entry before.view.fresh (some (newName, newHandler)) ∧
      placed.view.names =
        (if entry.1 ≠ newName then
          (before.view.names.erase entry.1).put newName before.view.fresh
        else before.view.names) ∧
      (callAfterAdd throws before.view.fresh).run placed = .ok () settled ∧
      (delete address).run settled = .ok () after := by
  have here := listed.spelled (address, entry) (List.mem_append_right _ List.mem_cons_self)
  rcases ok_of_run_bind ran with ⟨ctx, _, looked, ran⟩
  rcases found_of_context looked with ⟨found, same⟩
  rw [same] at ran
  rw [view_entry found] at here
  cases here
  rcases neighbours listed found with ⟨next, prev⟩
  rcases ok_of_run_bind ran with ⟨_, checked, checking, ran⟩
  have check : (ctx.name ≠ newName → before.view.names.find newName = none) ∧
      checked = before := by
    rcases ok_of_provided checking with ⟨_, free⟩ | ⟨sameName, still⟩
    · unfold checkDuplicateName at free
      rw [run_bind_get] at free
      rcases ok_of_provided free with ⟨_, thrown⟩ | ⟨unknown, still⟩
      · cases thrown
      · exact ⟨fun _ => not_not.mp unknown, still⟩
    · exact ⟨fun different => absurd different sameName, still⟩
  rw [check.2, next, prev] at ran
  rcases ok_of_run_bind ran with ⟨newCtx, made, created, ran⟩
  rcases view_of_newContext created with ⟨fresh, made_view⟩
  rw [fresh] at ran made_view
  rcases ok_of_run_bind ran with ⟨_, first, called, ran⟩
  rw [same_of_callback called] at ran
  rcases ok_of_run_bind ran with ⟨_, second, called, ran⟩
  rw [same_of_callback called] at ran
  rcases ok_of_run_bind ran with ⟨left, _, pointed, ran⟩
  rcases dereferenced pointed with ⟨ahead, still⟩
  rw [still] at ran
  rcases ok_of_run_bind ran with ⟨_, half, moving, ran⟩
  rcases ok_of_run_bind ran with ⟨right, _, pointed, ran⟩
  rcases dereferenced pointed with ⟨behind, still⟩
  rw [still] at ran
  rcases ok_of_run_bind ran with ⟨_, middle, moving_back, ran⟩
  rcases ok_of_run_bind ran with ⟨_, chained, updating, ran⟩
  rcases ok_of_run_bind ran with ⟨_, named, naming, ran⟩
  rcases ok_of_run_bind ran with ⟨removeException, told, telling, ran⟩
  rcases ok_of_run_bind ran with ⟨addException, settled, adding, ran⟩
  rcases ok_of_settleReplace ran with ⟨not_removed, not_added, deleting⟩
  subst not_removed not_added
  have told_same := same_of_callback (ok_of_caught_none telling)
  rw [told_same] at adding
  have moved : middle.view =
      (before.view.withNew (newName, newHandler) (lastOf front) (firstOf back)).withLinks
        (lastOf front) (firstOf back) (some before.view.fresh) (some before.view.fresh) := by
    rw [view_of_setPrev moving_back, view_of_setNext moving, made_view, ← ahead, ← behind]
    rfl
  have told_of (route : Route)
      (no : (route.can newHandler || route.can ctx.handler) = false) :
      route.takes ([(address, ctx.name, ctx.handler)].map Prod.snd) = false ∧
        route.takes [(newName, newHandler)] = false := by
    rw [Bool.or_eq_false_iff] at no
    unfold Route.takes
    simp only [List.map_cons, List.map_nil, List.any_cons, List.any_nil, Bool.or_false]
    exact ⟨no.2, no.1⟩
  rcases relinked_put (split_one front back _ ▸ listed) (newName, newHandler) moved
    (told_of Route.upstream) (told_of Route.downstream) updating with ⟨relinked, names, entries⟩
  refine ⟨check.1, named, settled, ?_, ?_, ?_, ok_of_caught_none adding, deleting⟩
  · rcases ok_of_provided naming with ⟨_, renamed⟩ | ⟨_, still⟩
    · rw [view_of_setName2ctx renamed]
      exact relinked.named _
    · rw [still]
      exact relinked
  · rcases ok_of_provided naming with ⟨_, renamed⟩ | ⟨_, still⟩
    · rw [view_of_setName2ctx renamed]
      exact entries
    · rw [still]
      exact entries
  · rcases ok_of_provided naming with ⟨different, renamed⟩ | ⟨sameName, still⟩
    · rw [view_of_setName2ctx renamed, if_pos different, ← names]
    · rw [still, if_neg sameName, names]

end Replacement

section Initialisation

variable {throws : LifeCycleCall → Address → Bool} {before after : DefaultChannelPipeline}
  {name : String} {handler : ChannelHandler}

/-- The chain of a route with the first context of a pipeline. -/
theorem routed_alone {route : Route} {view ended : PipelineView} {address : Address}
    (routed : route.Routed view [])
    (linked : route.link ended =
      if route.can handler then
        Function.update (Function.update (route.link view) (some address) none) none (some address)
      else Function.update (route.link view) (some address) none) :
    route.Routed ended [(address, name, handler)] := by
  have order : route.along [(address, name, handler)] = [(address, name, handler)] := by
    unfold Route.along
    split
    · rfl
    · rfl
  have bare : Chain (route.link view) [] := by
    unfold Route.Routed Route.stops Route.along at routed
    split at routed
    · exact routed
    · exact routed
  unfold Route.Routed Route.stops
  rw [order, linked]
  by_cases can : route.can handler
  · have kept : [(address, name, handler)].filter (fun item => route.can item.2.2) =
        [(address, name, handler)] := List.filter_cons_of_pos can
    rw [if_pos can, kept]
    have whole : Chain (route.link view) ([] ++ [] ++ []) := bare
    exact whole.put List.nodup_nil nofun
  · have dropped : [(address, name, handler)].filter (fun item => route.can item.2.2) = [] :=
      List.filter_cons_of_neg can
    rw [if_neg can, dropped]
    exact bare.update_apart nofun none

theorem exchanged_init (listed : before.view.Listed [])
    (ran : (init throws name handler).run before = .ok () after) :
    ∃ added : DefaultChannelPipeline,
      Exchanged before.view added.view [] [] [(before.view.fresh, name, handler)] [] ∧
      added.view.names = ContextMap.put [] name before.view.fresh ∧
      (callAfterAdd throws before.view.fresh).run added = .ok () after := by
  rcases ok_of_run_bind ran with ⟨newCtx, made, created, ran⟩
  rcases view_of_newContext created with ⟨fresh, made_view⟩
  rw [fresh] at ran made_view
  rcases ok_of_run_bind ran with ⟨_, asked, called, ran⟩
  rw [same_of_callback called] at ran
  rcases ok_of_run_bind ran with ⟨_, headed, heading, ran⟩
  rcases ok_of_run_bind ran with ⟨_, tailed, tailing, ran⟩
  rcases ok_of_run_bind ran with ⟨_, upped, upping, ran⟩
  rcases ok_of_run_bind ran with ⟨_, downed, downing, ran⟩
  rcases ok_of_run_bind ran with ⟨_, added, naming, ran⟩
  have tailed_view : tailed.view =
      (before.view.withNew (name, handler) none none).withLinks none none
        (some before.view.fresh) (some before.view.fresh) := by
    rw [view_of_setTail tailing, view_of_setHead heading, made_view]
    rfl
  have upped_view : upped.view = { tailed.view with
      up := if handler.upstream then Function.update tailed.view.up none (some before.view.fresh)
        else tailed.view.up } := by
    rcases ok_of_provided upping with ⟨can, upping⟩ | ⟨cannot, still⟩
    · rw [if_pos can, view_of_setUpstreamHead upping]
    · rw [if_neg cannot, still]
  have downed_view : downed.view = { upped.view with
      down := if handler.downstream then
          Function.update upped.view.down none (some before.view.fresh)
        else upped.view.down } := by
    rcases ok_of_provided downing with ⟨can, downing⟩ | ⟨cannot, still⟩
    · rw [if_pos can, view_of_setDownstreamHead downing]
    · rw [if_neg cannot, still]
  have around : before.view.Listed ([] ++ [] ++ []) := listed
  have placed := around.put (name, handler)
  have placed_tailed : tailed.view.Listed ([] ++ (before.view.fresh, name, handler) :: []) := by
    rw [tailed_view]
    exact placed
  have added_view := view_of_setName2ctx naming
  rw [downed_view, upped_view] at added_view
  refine ⟨added, ⟨⟨?_, ?_, ?_⟩, ?_⟩, ?_, ran⟩
  · rw [added_view]
    exact ⟨placed_tailed.distinct, placed_tailed.spelled, placed_tailed.old,
      placed_tailed.forward, placed_tailed.backward⟩
  · intro _ routed
    apply routed_alone routed
    rw [added_view, tailed_view]
    rfl
  · intro _ routed
    apply routed_alone routed
    rw [added_view, tailed_view]
    rfl
  · intro address entry here
    rw [added_view] at here
    change tailed.view.entry address = some entry at here
    rw [tailed_view] at here
    change Function.update before.view.entry before.view.fresh (some (name, handler)) address =
      some entry at here
    by_cases same : address = before.view.fresh
    · rw [same, Function.update_self] at here
      cases here
      rw [same]
      exact .inl (List.mem_singleton_self _)
    · rw [Function.update_of_ne same] at here
      exact .inr ⟨here, nofun⟩
  · rw [added_view]

end Initialisation

end PipelineM

end Cetty
