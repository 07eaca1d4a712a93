import Cetty.PipelineSteps

/-!
# The list, the contexts and the name map together

What an addition, a removal and a replacement leave when the life-cycle callbacks have
been called. A handler whose `afterAdd` throws has been taken out again.
-/

namespace Cetty

open LinkedChains PipelineView PipelineM

namespace PipelineView

structure InOrder (view : PipelineView) (items : List Item) : Prop where
  listed : view.Listed items
  live : view.Live items
  keyed : view.Keyed items

/-- Every name of the map leads to the context of the list that has it. -/
def Current (view : PipelineView) (items : List Item) : Prop :=
  ∀ name address, view.names.find name = some address →
    ∃ handler, (address, name, handler) ∈ items

section Names

variable {before after : PipelineView} {front back : List Item} {address : Address}
  {name : String} {handler : ChannelHandler} {item : Item}

theorem mem_around {item new : Item} (inside : item ∈ front ++ back) :
    item ∈ front ++ new :: back := by
  rcases List.mem_append.mp inside with ahead | behind
  · exact List.mem_append_left _ ahead
  · exact List.mem_append_right _ (List.mem_cons_of_mem _ behind)

theorem mem_between {item new : Item} (inside : item ∈ front ++ new :: back) :
    item = new ∨ item ∈ front ++ back := by
  rcases List.mem_append.mp inside with ahead | behind
  · exact .inr (List.mem_append_left _ ahead)
  · rcases List.mem_cons.mp behind with same | behind
    · exact .inl same
    · exact .inr (List.mem_append_right _ behind)

theorem Keyed.put (keyed : before.Keyed (front ++ back))
    (names : ∀ other, after.names.find other = (before.names.put name address).find other)
    (free : ∀ item ∈ front ++ back, item.2.1 ≠ name) :
    after.Keyed (front ++ (address, name, handler) :: back) where
  known := by
    intro other
    rw [names]
    by_cases same : other = name
    · rw [same, ContextMap.find_put_self]
      constructor
      · intro _
        exact ⟨_, List.mem_append_right _ List.mem_cons_self, rfl⟩
      · intro _
        exact Option.some_ne_none address
    · rw [ContextMap.find_put_of_ne _ _ same, keyed.known]
      constructor
      · rintro ⟨item, inside, named⟩
        exact ⟨item, mem_around inside, named⟩
      · rintro ⟨item, inside, named⟩
        rcases mem_between inside with new | kept
        · rw [new] at named
          exact absurd named.symm same
        · exact ⟨item, kept, named⟩
  unique := by
    have unique := keyed.unique
    rw [List.map_append] at unique
    rw [List.map_append, List.map_cons, List.nodup_middle, List.nodup_cons, ← List.map_append]
    refine ⟨?_, by rw [List.map_append]; exact unique⟩
    intro inside
    rcases List.mem_map.mp inside with ⟨item, member, same⟩
    exact free item member same

section

variable (keyed : before.Keyed (front ++ item :: back))

include keyed

theorem Keyed.names_apart :
    ∀ other ∈ front ++ back, other.2.1 ≠ item.2.1 := by
  intro other inside same
  have unique := keyed.unique
  rw [List.map_append, List.map_cons, List.nodup_middle, List.nodup_cons, ← List.map_append]
    at unique
  apply unique.1
  rw [← same]
  exact List.mem_map_of_mem inside

theorem Keyed.erase
    (forgets : ∀ other, after.names.find other = (before.names.erase item.2.1).find other) :
    after.Keyed (front ++ back) where
  known := by
    intro other
    rw [forgets]
    by_cases same : other = item.2.1
    · rw [same, ContextMap.find_erase_self]
      constructor
      · exact fun known => absurd rfl known
      · rintro ⟨kept, inside, named⟩
        exact absurd named (keyed.names_apart kept inside)
    · rw [ContextMap.find_erase_of_ne _ same, keyed.known]
      constructor
      · rintro ⟨kept, inside, named⟩
        rcases mem_between inside with gone | stays
        · rw [gone] at named
          exact absurd named.symm same
        · exact ⟨kept, stays, named⟩
      · rintro ⟨kept, inside, named⟩
        exact ⟨kept, mem_around inside, named⟩
  unique := by
    have unique := keyed.unique
    rw [List.map_append, List.map_cons, List.nodup_middle, List.nodup_cons] at unique
    rw [List.map_append]
    exact unique.2

/-- A context in place of another of its name. -/
theorem Keyed.swap {new : Item}
    (names : after.names = before.names) (same : new.2.1 = item.2.1) :
    after.Keyed (front ++ new :: back) where
  known := by
    intro other
    rw [names, keyed.known]
    constructor
    · rintro ⟨kept, inside, named⟩
      rcases mem_between inside with old | stays
      · exact ⟨new, List.mem_append_right _ List.mem_cons_self, by rw [same, ← old]; exact named⟩
      · exact ⟨kept, mem_around stays, named⟩
    · rintro ⟨kept, inside, named⟩
      rcases mem_between inside with fresh | stays
      · exact ⟨item, List.mem_append_right _ List.mem_cons_self, by
          rw [← same, ← fresh]
          exact named⟩
      · exact ⟨kept, mem_around stays, named⟩
  unique := by
    have unique := keyed.unique
    rw [List.map_append, List.map_cons] at unique ⊢
    rw [same]
    exact unique

end

theorem Current.put (current : before.Current (front ++ back))
    (names : ∀ other, after.names.find other = (before.names.put name address).find other) :
    after.Current (front ++ (address, name, handler) :: back) := by
  intro other found known
  rw [names] at known
  by_cases same : other = name
  · rw [same, ContextMap.find_put_self] at known
    cases known
    rw [same]
    exact ⟨handler, List.mem_append_right _ List.mem_cons_self⟩
  · rw [ContextMap.find_put_of_ne _ _ same] at known
    rcases current other found known with ⟨kept, inside⟩
    exact ⟨kept, mem_around inside⟩

theorem Current.erase (current : before.Current (front ++ item :: back))
    (forgets : ∀ other, after.names.find other = (before.names.erase item.2.1).find other) :
    after.Current (front ++ back) := by
  intro other found known
  rw [forgets] at known
  by_cases same : other = item.2.1
  · rw [same, ContextMap.find_erase_self] at known
    cases known
  · rw [ContextMap.find_erase_of_ne _ same] at known
    rcases current other found known with ⟨kept, inside⟩
    rcases mem_between inside with gone | stays
    · rw [← gone] at same
      exact absurd rfl same
    · exact ⟨kept, stays⟩

end Names

end PipelineView

/-- A route loses no stop it still needs: not by the exchange, and not when the new
handler is taken out again. A removal through `remove` leaves other handlers. -/
def Route.Spares (route : Route) (front olds news back : List Entry) (out alone : Bool) : Prop :=
  route.strands front olds news back = false ∧
    (out = true → route.strands front news [] back = false) ∧ (alone = true → front ++ back ≠ [])

/-- What stays between the neighbours. -/
def remaining {Kept : Type} (out : Bool) (news : List Kept) : List Kept := if out then [] else news

/-- The state after a modification that has returned. `out` says that the new context has
been taken out again, `alone` that a removal went through `remove`. -/
structure Settled (before after : PipelineView) (front olds news back : List Item)
    (out alone : Bool) : Prop where
  order : after.InOrder (front ++ remaining out news ++ back)
  current : (∀ old ∈ olds, ∀ new ∈ news, old.2.1 ≠ new.2.1) →
    before.Current (front ++ olds ++ back) → after.Current (front ++ remaining out news ++ back)
  upstream : Route.upstream.Spares (front.map Prod.snd) (olds.map Prod.snd) (news.map Prod.snd)
      (back.map Prod.snd) out alone →
    Route.upstream.Routed before (front ++ olds ++ back) →
    Route.upstream.Routed after (front ++ remaining out news ++ back)
  downstream : Route.downstream.Spares (front.map Prod.snd) (olds.map Prod.snd)
      (news.map Prod.snd) (back.map Prod.snd) out alone →
    Route.downstream.Routed before (front ++ olds ++ back) →
    Route.downstream.Routed after (front ++ remaining out news ++ back)

namespace PipelineM

open DefaultChannelPipeline

section Settling

variable {throws : LifeCycleCall → Address → Bool} {before added after : DefaultChannelPipeline}
  {front back : List Item} {address : Address} {entry : Entry} {name : String}
  {handler : ChannelHandler}

/-- Whether the context of a new handler has been taken out again. -/
def takesOut (throws : LifeCycleCall → Address → Bool) (address : Address)
    (handler : ChannelHandler) : Bool :=
  handler.lifeCycleAware && throws .afterAdd address

theorem spares_names {front back : List Item}
    (others : front.map Prod.snd ++ back.map Prod.snd ≠ []) : front ++ back ≠ [] := by
  intro empty
  apply others
  rw [← List.map_append, empty]
  rfl

theorem settled_add (order : before.view.InOrder (front ++ back))
    (exchanged : Exchanged before.view added.view front [] [(address, name, handler)] back)
    (names : ∀ other, added.view.names.find other =
      (before.view.names.put name address).find other)
    (free : ∀ item ∈ front ++ back, item.2.1 ≠ name)
    (ran : (callAfterAdd throws address).run added = .ok () after) :
    Settled before.view after.view front [] [(address, name, handler)] back
      (takesOut throws address handler) (takesOut throws address handler) := by
  have listed := exchanged.listed
  rw [← split_one] at listed
  have keyed : added.view.Keyed (front ++ (address, name, handler) :: back) :=
    order.keyed.put names free
  have here := listed.spelled (address, name, handler)
    (List.mem_append_right _ List.mem_cons_self)
  have handles : ∀ ctx, added.contexts address = some ctx → ctx.handler = handler := by
    intro ctx found
    rw [view_entry found] at here
    cases here
    rfl
  rcases removed_of_callAfterAdd ran with ⟨same, ctx, found, goes⟩ | ⟨_, removed, ctx, found, stops⟩
  · have stays : takesOut throws address handler = false := by
      rw [handles ctx found, ← Bool.and_eq_true] at goes
      exact (Bool.not_eq_true _).mp goes
    rw [same, stays]
    refine ⟨⟨exchanged.listed, ?_, ?_⟩, ?_, ?_, ?_⟩
    · intro other kept known
      change (other, kept) ∈ front ++ [(address, name, handler)] ++ back
      rw [← split_one]
      rcases exchanged.entries other kept known with new | ⟨old, _⟩
      · rw [List.mem_singleton.mp new]
        exact List.mem_append_right _ List.mem_cons_self
      · exact mem_around (order.live other kept old)
    · change added.view.Keyed (front ++ [(address, name, handler)] ++ back)
      rw [← split_one]
      exact keyed
    · intro _ current
      rw [List.append_nil] at current
      change added.view.Current (front ++ [(address, name, handler)] ++ back)
      rw [← split_one]
      exact current.put names
    · exact fun spares routed => exchanged.upstream spares.1 routed
    · exact fun spares routed => exchanged.downstream spares.1 routed
  · have goes : takesOut throws address handler = true := by
      rw [handles ctx found, ← Bool.and_eq_true] at stops
      exact stops
    have gone := removed_removeContext listed keyed removed
    rw [goes]
    have around : front ++ remaining true [(address, name, handler)] ++ back = front ++ back := by
      unfold remaining
      rw [if_pos rfl, List.append_nil]
    rw [split_one] at listed
    refine ⟨⟨?_, ?_, ?_⟩, ?_, ?_, ?_⟩
    · rw [around]
      exact gone.listed
    · intro other kept known
      rw [around]
      rcases gone.entries other kept known with ⟨still, apart⟩
      rcases exchanged.entries other kept still with new | ⟨old, _⟩
      · cases List.mem_singleton.mp new
        exact absurd rfl apart
      · exact order.live other kept old
    · rw [around]
      exact keyed.erase gone.forgets
    · intro _ current
      rw [List.append_nil] at current
      rw [around]
      have grown : added.view.Current (front ++ (address, name, handler) :: back) :=
        current.put names
      exact grown.erase gone.forgets
    · intro spares routed
      have relinked := gone.relinked (spares_names (spares.2.2 rfl))
      rw [around, ← List.append_nil front]
      exact relinked.upstream (spares.2.1 rfl) (exchanged.upstream spares.1 routed)
    · intro spares routed
      have relinked := gone.relinked (spares_names (spares.2.2 rfl))
      rw [around, ← List.append_nil front]
      exact relinked.downstream (spares.2.1 rfl) (exchanged.downstream spares.1 routed)

theorem settled_removed (order : before.view.InOrder (front ++ (address, entry) :: back))
    {alone : Bool} (removed : Removed before.view after.view front (address, entry) back)
    (relinked : alone = false → Relinked before.view after.view front [(address, entry)] [] back) :
    Settled before.view after.view front [(address, entry)] [] back false alone := by
  have around : front ++ remaining false ([] : List Item) ++ back = front ++ back := by
    rw [show remaining false ([] : List Item) = [] from rfl, List.append_nil]
  have linked (spares : alone = true → front.map Prod.snd ++ back.map Prod.snd ≠ []) :
      Relinked before.view after.view front [(address, entry)] [] back := by
    cases which : alone with
    | false => exact relinked which
    | true => exact removed.relinked (spares_names (spares which))
  refine ⟨⟨?_, ?_, ?_⟩, ?_, ?_, ?_⟩
  · rw [around]
    exact removed.listed
  · intro other kept known
    rw [around]
    rcases removed.entries other kept known with ⟨still, apart⟩
    rcases mem_between (order.live other kept still) with gone | stays
    · cases gone
      exact absurd rfl apart
    · exact stays
  · rw [around]
    exact order.keyed.erase removed.forgets
  · intro _ current
    rw [← split_one] at current
    rw [around]
    exact current.erase removed.forgets
  · exact fun spares routed => (linked spares.2.2).upstream spares.1 routed
  · exact fun spares routed => (linked spares.2.2).downstream spares.1 routed

/-- The names after `replace`, when a new name was free. -/
theorem keyed_replaced {placed : PipelineView} {new : Item}
    (keyed : before.view.Keyed (front ++ (address, entry) :: back))
    (free : entry.1 ≠ new.2.1 → before.view.names.find new.2.1 = none)
    (names : placed.names =
      if entry.1 ≠ new.2.1 then (before.view.names.erase entry.1).put new.2.1 new.1
      else before.view.names) :
    placed.Keyed (front ++ new :: back) := by
  by_cases different : entry.1 ≠ new.2.1
  · rw [if_pos different] at names
    have erased : ({ before.view with
        names := before.view.names.erase entry.1 } : PipelineView).Keyed (front ++ back) :=
      keyed.erase (fun _ => rfl)
    have unknown : ∀ item ∈ front ++ back, item.2.1 ≠ new.2.1 := by
      intro item inside same
      apply (keyed.known new.2.1).mpr ⟨item, mem_around inside, same⟩
      exact free different
    have put : placed.Keyed (front ++ (new.1, new.2.1, new.2.2) :: back) :=
      erased.put (fun _ => by rw [names]) unknown
    exact put
  · rw [if_neg different] at names
    exact keyed.swap names (not_not.mp different).symm

theorem settled_replace {fresh : Address} {newName : String} {newHandler : ChannelHandler}
    {placed settled : DefaultChannelPipeline}
    (order : before.view.InOrder (front ++ (address, entry) :: back))
    (free : entry.1 ≠ newName → before.view.names.find newName = none)
    (relinked : Relinked before.view placed.view front [(address, entry)]
      [(fresh, newName, newHandler)] back)
    (older : address ≠ fresh)
    (entries : placed.view.entry =
      Function.update before.view.entry fresh (some (newName, newHandler)))
    (names : placed.view.names =
      if entry.1 ≠ newName then (before.view.names.erase entry.1).put newName fresh
      else before.view.names)
    (adding : (callAfterAdd throws fresh).run placed = .ok () settled)
    (deleting : (delete address).run settled = .ok () after) :
    Settled before.view after.view front [(address, entry)] [(fresh, newName, newHandler)] back
      (takesOut throws fresh newHandler) (takesOut throws fresh newHandler) := by
  have listed := relinked.listed
  rw [← split_one] at listed
  have keyed : placed.view.Keyed (front ++ (fresh, newName, newHandler) :: back) :=
    keyed_replaced order.keyed free names
  have current (renamed : ∀ old ∈ [(address, entry)], ∀ new ∈ [(fresh, newName, newHandler)],
        old.2.1 ≠ new.2.1)
      (current : before.view.Current (front ++ [(address, entry)] ++ back)) :
      placed.view.Current (front ++ (fresh, newName, newHandler) :: back) := by
    have different : entry.1 ≠ newName :=
      renamed _ (List.mem_singleton_self _) _ (List.mem_singleton_self _)
    rw [if_pos different] at names
    rw [← split_one] at current
    have erased : ({ before.view with
        names := before.view.names.erase entry.1 } : PipelineView).Current (front ++ back) :=
      current.erase (fun _ => rfl)
    exact erased.put (fun _ => by rw [names])
  have apart : address ∉ (front ++ back).map Prod.fst := by
    have distinct := order.listed.distinct
    rw [List.map_append, List.map_cons, List.nodup_middle, List.nodup_cons,
      ← List.map_append] at distinct
    exact distinct.1
  have before_entry : ∀ other kept, placed.view.entry other = some kept → other ≠ fresh →
      before.view.entry other = some kept := by
    intro other kept known new
    rw [entries, Function.update_of_ne new] at known
    exact known
  have kept_around : ∀ other kept, before.view.entry other = some kept → other ≠ address →
      (other, kept) ∈ front ++ back := by
    intro other kept known still
    rcases mem_between (order.live other kept known) with gone | stays
    · cases gone
      exact absurd rfl still
    · exact stays
  have here := listed.spelled (fresh, newName, newHandler)
    (List.mem_append_right _ List.mem_cons_self)
  have handles : ∀ ctx, placed.contexts fresh = some ctx → ctx.handler = newHandler := by
    intro ctx found
    rw [view_entry found] at here
    cases here
    rfl
  rcases view_of_delete deleting with ⟨_, deleted⟩
  change after.view = settled.view.without address at deleted
  rcases removed_of_callAfterAdd adding with ⟨same, ctx, found, goes⟩ | ⟨_, removed, ctx, found, stops⟩
  · have stays : takesOut throws fresh newHandler = false := by
      rw [handles ctx found, ← Bool.and_eq_true] at goes
      exact (Bool.not_eq_true _).mp goes
    have apart_all : address ∉ (front ++ [(fresh, newName, newHandler)] ++ back).map Prod.fst := by
      intro inside
      rw [← split_one] at inside
      rcases List.mem_map.mp inside with ⟨item, member, this⟩
      rcases mem_between member with new | kept
      · rw [new] at this
        exact older this.symm
      · rw [← this] at apart
        exact apart (List.mem_map_of_mem kept)
    have final := relinked.without apart_all
    rw [stays, deleted, same]
    refine ⟨⟨final.listed, ?_, ?_⟩, ?_, ?_, ?_⟩
    · intro other kept known
      change (other, kept) ∈ front ++ [(fresh, newName, newHandler)] ++ back
      rw [← split_one]
      change Function.update placed.view.entry address none other = some kept at known
      by_cases gone : other = address
      · rw [gone, Function.update_self] at known
        cases known
      · rw [Function.update_of_ne gone] at known
        by_cases new : other = fresh
        · rw [new, entries, Function.update_self] at known
          cases known
          rw [new]
          exact List.mem_append_right _ List.mem_cons_self
        · exact mem_around (kept_around other kept (before_entry other kept known new) gone)
    · change PipelineView.Keyed _ (front ++ [(fresh, newName, newHandler)] ++ back)
      rw [← split_one]
      exact ⟨keyed.known, keyed.unique⟩
    · intro renamed old
      change PipelineView.Current _ (front ++ [(fresh, newName, newHandler)] ++ back)
      rw [← split_one]
      exact current renamed old
    · exact fun spares routed => final.upstream spares.1 routed
    · exact fun spares routed => final.downstream spares.1 routed
  · have goes : takesOut throws fresh newHandler = true := by
      rw [handles ctx found, ← Bool.and_eq_true] at stops
      exact stops
    have gone := removed_removeContext listed keyed removed
    have around : front ++ remaining true [(fresh, newName, newHandler)] ++ back =
        front ++ back := by
      unfold remaining
      rw [if_pos rfl, List.append_nil]
    have apart_around : address ∉ (front ++ [] ++ back).map Prod.fst := by
      rw [List.append_nil]
      exact apart
    rw [goes, deleted]
    refine ⟨⟨?_, ?_, ?_⟩, ?_, ?_, ?_⟩
    · rw [around]
      exact gone.listed.without apart
    · intro other kept known
      rw [around]
      change Function.update settled.view.entry address none other = some kept at known
      by_cases old : other = address
      · rw [old, Function.update_self] at known
        cases known
      · rw [Function.update_of_ne old] at known
        rcases gone.entries other kept known with ⟨still, new⟩
        exact kept_around other kept (before_entry other kept still new) old
    · rw [around]
      have erased := keyed.erase gone.forgets
      exact ⟨erased.known, erased.unique⟩
    · intro renamed old
      rw [around]
      exact (current renamed old).erase gone.forgets
    · intro spares routed
      have relinked_on := (gone.relinked (spares_names (spares.2.2 rfl))).without apart_around
      rw [around, ← List.append_nil front]
      exact relinked_on.upstream (spares.2.1 rfl) (relinked.upstream spares.1 routed)
    · intro spares routed
      have relinked_on := (gone.relinked (spares_names (spares.2.2 rfl))).without apart_around
      rw [around, ← List.append_nil front]
      exact relinked_on.downstream (spares.2.1 rfl) (relinked.downstream spares.1 routed)

end Settling

end PipelineM

end Cetty
