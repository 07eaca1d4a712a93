import Cetty.EventRoutes

/-!
# The list of a pipeline

The list is its contexts in order, each with its entry. Every modification exchanges some
contexts for others between two neighbours; it gives the neighbours their links to what is
new, and rebuilds the chains of the routes it may have touched.
-/

namespace Cetty

open LinkedChains

/-- A context of the list and the name and handler it holds. -/
abbrev Item := Address × Entry

namespace PipelineView

structure Listed (view : PipelineView) (items : List Item) : Prop where
  distinct : (items.map Prod.fst).Nodup
  spelled : ∀ item ∈ items, view.entry item.1 = some item.2
  old : ∀ item ∈ items, item.1 < view.fresh
  forward : Chain view.next (items.map Prod.fst)
  backward : Chain view.prev (items.map Prod.fst).reverse

/-- Every context there is belongs to the list. -/
def Live (view : PipelineView) (items : List Item) : Prop :=
  ∀ address entry, view.entry address = some entry → (address, entry) ∈ items

/-- The name map knows the names of the list, each of them once. -/
structure Keyed (view : PipelineView) (items : List Item) : Prop where
  known : ∀ name, view.names.find name ≠ none ↔ ∃ item ∈ items, item.2.1 = name
  unique : (items.map (fun item => item.2.1)).Nodup

def withNew (view : PipelineView) (entry : Entry) (prev next : Option Address) : PipelineView :=
  { view with
    next := Function.update view.next (some view.fresh) next
    prev := Function.update view.prev (some view.fresh) prev
    up := Function.update view.up (some view.fresh) none
    down := Function.update view.down (some view.fresh) none
    entry := Function.update view.entry view.fresh (some entry)
    fresh := view.fresh + 1 }

/-- The neighbours on both sides get their links. -/
def withLinks (view : PipelineView) (before behind next prev : Option Address) :
    PipelineView :=
  { view with
    next := Function.update view.next before next
    prev := Function.update view.prev behind prev }

def without (view : PipelineView) (address : Address) : PipelineView :=
  { view with
    next := Function.update view.next (some address) none
    prev := Function.update view.prev (some address) none
    up := Function.update view.up (some address) none
    down := Function.update view.down (some address) none
    entry := Function.update view.entry address none }

end PipelineView

def lastOf (items : List Item) : Option Address := (items.map Prod.fst).getLast?

def firstOf (items : List Item) : Option Address := (items.map Prod.fst).head?

namespace PipelineView.Listed

variable {view : PipelineView} {items front olds back : List Item}

section

variable (listed : view.Listed (front ++ olds ++ back))

include listed

theorem distinct_around :
    (front.map Prod.fst ++ back.map Prod.fst).Nodup := by
  rw [← List.map_append]
  apply List.Nodup.sublist _ listed.distinct
  apply List.Sublist.map
  exact (List.sublist_append_left front olds).append_right back

theorem around :
    ∀ item ∈ front ++ back, view.entry item.1 = some item.2 ∧ item.1 < view.fresh := by
  intro item inside
  have member : item ∈ front ++ olds ++ back := by
    rcases List.mem_append.mp inside with ahead | behind
    · exact List.mem_append_left _ (List.mem_append_left _ ahead)
    · exact List.mem_append_right _ behind
  exact ⟨listed.spelled item member, listed.old item member⟩

theorem fresh_apart :
    view.fresh ∉ front.map Prod.fst ++ back.map Prod.fst := by
  rw [← List.map_append]
  intro inside
  rcases List.mem_map.mp inside with ⟨item, member, same⟩
  exact Nat.ne_of_lt (listed.around item member).2 same

/-- A new context between two neighbours, in the place of those that were between them. -/
theorem put (entry : Entry) :
    ((view.withNew entry (lastOf front) (firstOf back)).withLinks (lastOf front) (firstOf back)
      (some view.fresh) (some view.fresh)).Listed (front ++ (view.fresh, entry) :: back) := by
  have forward := listed.forward
  have backward := listed.backward
  rw [List.map_append, List.map_append] at forward backward
  have either : ∀ item ∈ front ++ (view.fresh, entry) :: back,
      item = (view.fresh, entry) ∨ item ∈ front ++ back := by
    intro item inside
    rcases List.mem_append.mp inside with ahead | behind
    · exact .inr (List.mem_append_left _ ahead)
    · rcases List.mem_cons.mp behind with new | behind
      · exact .inl new
      · exact .inr (List.mem_append_right _ behind)
  constructor
  · rw [List.map_append, List.map_cons, List.nodup_middle]
    exact List.nodup_cons.mpr ⟨listed.fresh_apart, listed.distinct_around⟩
  · intro item inside
    change Function.update view.entry view.fresh (some entry) item.1 = some item.2
    rcases either item inside with new | kept
    · rw [new, Function.update_self]
    · rw [Function.update_of_ne (Nat.ne_of_lt (listed.around item kept).2)]
      exact (listed.around item kept).1
  · intro item inside
    rcases either item inside with new | kept
    · rw [new]
      exact Nat.lt_succ_self _
    · exact Nat.lt_succ_of_lt (listed.around item kept).2
  · rw [List.map_append, List.map_cons]
    exact forward.put listed.distinct_around listed.fresh_apart
  · rw [List.map_append, List.map_cons]
    exact backward.put_reverse listed.distinct_around listed.fresh_apart

/-- The neighbours of what goes are linked to each other. -/
theorem cut :
    (view.withLinks (lastOf front) (firstOf back) (firstOf back) (lastOf front)).Listed
      (front ++ back) := by
  have forward := listed.forward
  have backward := listed.backward
  rw [List.map_append, List.map_append] at forward backward
  constructor
  · rw [List.map_append]
    exact listed.distinct_around
  · exact fun item inside => (listed.around item inside).1
  · exact fun item inside => (listed.around item inside).2
  · rw [List.map_append]
    exact forward.cut listed.distinct_around
  · rw [List.map_append]
    exact backward.cut_reverse listed.distinct_around

end

theorem without {address : Address} (listed : view.Listed items)
    (apart : address ∉ items.map Prod.fst) : (view.without address).Listed items := by
  constructor
  · exact listed.distinct
  · intro item inside
    change Function.update view.entry address none item.1 = some item.2
    rw [Function.update_of_ne]
    · exact listed.spelled item inside
    · intro same
      rw [← same] at apart
      exact apart (List.mem_map_of_mem inside)
  · exact listed.old
  · exact listed.forward.update_apart apart none
  · exact listed.backward.update_apart (fun inside => apart (List.mem_reverse.mp inside)) none

end PipelineView.Listed

namespace Route

variable (route : Route)

/-- The contexts of the list the route has to visit, in its order. -/
def stops (items : List Item) : List Address :=
  ((route.along items).filter (fun item => route.can item.2.2)).map Prod.fst

def takes (entries : List Entry) : Bool := entries.any (fun entry => route.can entry.2)

/-- The last stop of the route goes, another one is before it, and nothing that comes takes
its place. -/
def strands (front olds news back : List Entry) : Bool :=
  route.takes olds && !route.takes news &&
    (if route.backwards then !route.takes front && route.takes back
      else !route.takes back && route.takes front)

variable {route}

variable {items : List Item}

theorem stations_listed {view : PipelineView} (listed : view.Listed items) :
    route.stations view (items.map Prod.fst) = route.stops items := by
  unfold stations stops
  have order : route.along (items.map Prod.fst) = (route.along items).map Prod.fst := by
    unfold along
    split
    · exact List.map_reverse.symm
    · rfl
  rw [order, List.filter_map]
  congr 1
  apply List.filter_congr
  intro item inside
  have spelled := listed.spelled item (mem_along.mp inside)
  simp only [Function.comp_apply, able, spelled, Option.any_some]

theorem stops_eq_nil :
    route.stops items = [] ↔ route.takes (items.map Prod.snd) = false := by
  unfold stops takes
  rw [List.map_eq_nil_iff, List.filter_eq_nil_iff, List.any_map, List.any_eq_false]
  constructor
  · intro none_stop item inside
    exact none_stop item (mem_along.mpr inside)
  · intro none_stop item inside
    exact none_stop item (mem_along.mp inside)

theorem mem_stops {address : Address}
    (stops : address ∈ route.stops items) : address ∈ items.map Prod.fst := by
  rcases List.mem_map.mp stops with ⟨item, kept, same⟩
  exact List.mem_map.mpr ⟨item, mem_along.mp (List.mem_filter.mp kept).1, same⟩

theorem stops_append (front middle back : List Item) :
    route.stops (front ++ middle ++ back) =
      if route.backwards then route.stops back ++ route.stops middle ++ route.stops front
      else route.stops front ++ route.stops middle ++ route.stops back := by
  unfold stops along
  split
  · simp
  · simp

/-- The route visits its stops, and no other context. -/
def Routed (route : Route) (view : PipelineView) (items : List Item) : Prop :=
  Chain (route.link view) (route.stops items)

/-- The chain of a route after a call that rebuilds it only when it is told to. -/
structure Rechained (route : Route) (told : Bool) (before after : PipelineView)
    (items : List Item) : Prop where
  untold : told = false → route.link after = route.link before
  rebuilt : told = true →
    (∀ last, (route.stops items).getLast? = some last →
      route.link before (some last) = none) → route.Routed after items

section Exchanges

variable {view moved ended : PipelineView} {front olds news back : List Item}

/-- Where no stop is left behind, the last stop leads nowhere after the exchange. -/
theorem loose_end_exchanged (routed : route.Routed view (front ++ olds ++ back))
    (kept : ∀ item ∈ front ++ back, route.link moved (some item.1) = route.link view (some item.1))
    (made : ∀ item ∈ news, route.link moved (some item.1) = none)
    (stays : route.strands (front.map Prod.snd) (olds.map Prod.snd) (news.map Prod.snd)
      (back.map Prod.snd) = false) {last : Address}
    (ends : (route.stops (front ++ news ++ back)).getLast? = some last) :
    route.link moved (some last) = none := by
  have made_stops : ∀ address ∈ route.stops news, route.link moved (some address) = none := by
    intro address stop
    rcases List.mem_map.mp (mem_stops stop) with ⟨item, inside, same⟩
    rw [← same]
    exact made item inside
  have kept_stops : ∀ address, address ∈ route.stops front ∨ address ∈ route.stops back →
      route.link moved (some address) = route.link view (some address) := by
    intro address stop
    have member : address ∈ (front ++ back).map Prod.fst := by
      rw [List.map_append]
      rcases stop with ahead | behind
      · exact List.mem_append_left _ (mem_stops ahead)
      · exact List.mem_append_right _ (mem_stops behind)
    rcases List.mem_map.mp member with ⟨item, inside, same⟩
    rw [← same]
    exact kept item inside
  have takes_of_stops {items : List Item} (stop : route.stops items ≠ []) :
      route.takes (items.map Prod.snd) = true := by
    rw [← Bool.not_eq_false, ← stops_eq_nil]
    exact stop
  unfold Routed at routed
  rw [stops_append] at routed ends
  unfold strands at stays
  by_cases turned : route.backwards
  · rw [if_pos turned] at routed ends stays
    apply routed.loose_end _ made_stops _ ends
    · intro gone none_new none_behind
      rw [takes_of_stops gone, stops_eq_nil.mp none_new, stops_eq_nil.mp none_behind] at stays
      apply stops_eq_nil.mpr
      simpa using stays
    · intro address inside
      exact kept_stops address (List.mem_append.mp inside).symm
  · rw [if_neg turned] at routed ends stays
    apply routed.loose_end _ made_stops _ ends
    · intro gone none_new none_behind
      rw [takes_of_stops gone, stops_eq_nil.mp none_new, stops_eq_nil.mp none_behind] at stays
      apply stops_eq_nil.mpr
      simpa using stays
    · intro address inside
      exact kept_stops address (List.mem_append.mp inside)

theorem Routed.exchange {told : Bool} (routed : route.Routed view (front ++ olds ++ back))
    (rechained : route.Rechained told moved ended (front ++ news ++ back))
    (unconcerned : told = false →
      route.takes (olds.map Prod.snd) = false ∧ route.takes (news.map Prod.snd) = false)
    (first : route.link moved none = route.link view none)
    (kept : ∀ item ∈ front ++ back, route.link moved (some item.1) = route.link view (some item.1))
    (made : ∀ item ∈ news, route.link moved (some item.1) = none)
    (stays : route.strands (front.map Prod.snd) (olds.map Prod.snd) (news.map Prod.snd)
      (back.map Prod.snd) = false) :
    route.Routed ended (front ++ news ++ back) := by
  cases rebuilds : told with
  | true =>
      apply rechained.rebuilt rebuilds
      intro last ends
      exact loose_end_exchanged routed kept made stays ends
  | false =>
      rcases unconcerned rebuilds with ⟨old, new⟩
      have same : route.stops (front ++ news ++ back) = route.stops (front ++ olds ++ back) := by
        rw [stops_append, stops_append, stops_eq_nil.mpr old, stops_eq_nil.mpr new]
      unfold Routed at routed ⊢
      rw [rechained.untold rebuilds, same]
      apply routed.transport
      intro place among
      rcases List.mem_cons.mp among with start | inside
      · rw [start]
        exact first
      · rcases List.mem_map.mp inside with ⟨address, stop, this⟩
        have member : address ∈ (front ++ back).map Prod.fst := by
          rw [stops_append, stops_eq_nil.mpr old] at stop
          rw [List.map_append, List.mem_append]
          split at stop
          · rw [List.append_nil, List.mem_append] at stop
            rcases stop with behind | ahead
            · exact .inr (mem_stops behind)
            · exact .inl (mem_stops ahead)
          · rw [List.append_nil, List.mem_append] at stop
            rcases stop with ahead | behind
            · exact .inl (mem_stops ahead)
            · exact .inr (mem_stops behind)
        rcases List.mem_map.mp member with ⟨item, within, equal⟩
        rw [← this, ← equal]
        exact kept item within

end Exchanges

end Route

namespace PipelineM

open DefaultChannelPipeline Route

variable {items : List Item}

theorem rechained_of_provided {route : Route} {told : Bool} {program : PipelineM Unit}
    (rebuilds : Rebuilds route program) {before after : DefaultChannelPipeline} (listed : before.view.Listed items)
    (against : Chain (route.against before.view) (route.along (items.map Prod.fst)).reverse)
    (ran : (provided (told = true) program).run before = .ok () after) :
    (∃ links, after.view = route.store before.view links) ∧
      route.Rechained told before.view after.view items := by
  rcases ok_of_provided ran with ⟨yes, ran⟩ | ⟨no, same⟩
  · rcases rebuilds before after _ ran against listed.distinct with ⟨links, ended, chained⟩
    rw [stations_listed listed] at chained
    refine ⟨⟨links, ended⟩, fun no => ?_, fun _ loose => ?_⟩
    · rw [yes] at no
      cases no
    · unfold Routed
      rw [ended, route.link_store]
      exact chained loose
  · subst same
    exact ⟨⟨_, (route.store_link _).symm⟩, fun _ => rfl, fun yes => absurd yes no⟩

theorem view_of_updateLists {ups downs : Bool} {before after : DefaultChannelPipeline}
    (listed : before.view.Listed items)
    (ran : (updateLists ups downs).run before = .ok () after) :
    (∃ up down, after.view = { before.view with up := up, down := down }) ∧
      Route.upstream.Rechained ups before.view after.view items ∧
      Route.downstream.Rechained downs before.view after.view items := by
  rcases ok_of_run_bind ran with ⟨_, middle, upwards, downwards⟩
  rcases rechained_of_provided rebuilds_updateUpstreamList listed listed.backward upwards with
    ⟨⟨up, rebuilt⟩, rechained⟩
  have still : middle.view.Listed items := by
    rw [rebuilt]
    exact ⟨listed.distinct, listed.spelled, listed.old, listed.forward, listed.backward⟩
  have against : Chain (Route.downstream.against middle.view)
      (Route.downstream.along (items.map Prod.fst)).reverse := by
    have turned : Route.downstream.along (items.map Prod.fst) = (items.map Prod.fst).reverse :=
      if_pos rfl
    rw [turned, List.reverse_reverse]
    exact still.forward
  rcases rechained_of_provided rebuilds_updateDownstreamList still against downwards with
    ⟨⟨down, finished⟩, rechained_down⟩
  have same_up : after.view.up = middle.view.up := by
    rw [finished]
    rfl
  have same_down : middle.view.down = before.view.down := by
    rw [rebuilt]
    rfl
  refine ⟨⟨up, down, ?_⟩, ⟨?_, ?_⟩, ⟨?_, ?_⟩⟩
  · rw [finished, rebuilt]
    rfl
  · intro untold
    exact same_up.trans (rechained.untold untold)
  · intro told loose
    have routed := rechained.rebuilt told loose
    unfold Route.Routed at routed ⊢
    change Chain after.view.up _
    rw [same_up]
    exact routed
  · intro untold
    exact (rechained_down.untold untold).trans same_down
  · intro told loose
    apply rechained_down.rebuilt told
    intro last ends
    exact (congrFun same_down (some last)).trans (loose last ends)

/-- The list and the chains after `news` have come between the neighbours of `olds`. -/
structure Relinked (before after : PipelineView) (front olds news back : List Item) : Prop where
  listed : after.Listed (front ++ news ++ back)
  upstream : Route.upstream.strands (front.map Prod.snd) (olds.map Prod.snd) (news.map Prod.snd)
      (back.map Prod.snd) = false →
    Route.upstream.Routed before (front ++ olds ++ back) →
    Route.upstream.Routed after (front ++ news ++ back)
  downstream : Route.downstream.strands (front.map Prod.snd) (olds.map Prod.snd)
      (news.map Prod.snd) (back.map Prod.snd) = false →
    Route.downstream.Routed before (front ++ olds ++ back) →
    Route.downstream.Routed after (front ++ news ++ back)

section Exchanging

variable {before middle after : DefaultChannelPipeline} {front olds back : List Item}
  {ups downs : Bool}

theorem relinked_put (listed : before.view.Listed (front ++ olds ++ back)) (entry : Entry)
    (moved : middle.view =
      (before.view.withNew entry (lastOf front) (firstOf back)).withLinks (lastOf front)
        (firstOf back) (some before.view.fresh) (some before.view.fresh))
    (told_up : ups = false → Route.upstream.takes (olds.map Prod.snd) = false ∧
      Route.upstream.takes [entry] = false)
    (told_down : downs = false → Route.downstream.takes (olds.map Prod.snd) = false ∧
      Route.downstream.takes [entry] = false)
    (ran : (updateLists ups downs).run middle = .ok () after) :
    Relinked before.view after.view front olds [(before.view.fresh, entry)] back ∧
      after.view.names = before.view.names ∧
      after.view.entry = Function.update before.view.entry before.view.fresh (some entry) := by
  have placed := listed.put entry
  rw [← moved] at placed
  rcases view_of_updateLists placed ran with ⟨⟨up, down, ended⟩, upwards, downwards⟩
  have whole : front ++ [(before.view.fresh, entry)] ++ back =
      front ++ (before.view.fresh, entry) :: back := by
    rw [List.append_assoc]
    rfl
  have apart : ∀ item ∈ front ++ back, some item.1 ≠ some before.view.fresh := by
    intro item inside same
    exact Nat.ne_of_lt (listed.around item inside).2 (Option.some.inj same)
  rw [← whole] at upwards downwards placed
  refine ⟨⟨?_, ?_, ?_⟩, ?_, ?_⟩
  · rw [ended]
    exact ⟨placed.distinct, placed.spelled, placed.old, placed.forward, placed.backward⟩
  · intro stays routed
    have edited : Route.upstream.link middle.view =
        Function.update (Route.upstream.link before.view) (some before.view.fresh) none := by
      rw [moved]
      rfl
    apply routed.exchange upwards told_up _ _ _ stays
    · rw [edited, Function.update_of_ne (Option.some_ne_none _).symm]
    · intro item inside
      rw [edited, Function.update_of_ne (apart item inside)]
    · intro item inside
      rw [edited, List.mem_singleton.mp inside, Function.update_self]
  · intro stays routed
    have edited : Route.downstream.link middle.view =
        Function.update (Route.downstream.link before.view) (some before.view.fresh) none := by
      rw [moved]
      rfl
    apply routed.exchange downwards told_down _ _ _ stays
    · rw [edited, Function.update_of_ne (Option.some_ne_none _).symm]
    · intro item inside
      rw [edited, Function.update_of_ne (apart item inside)]
    · intro item inside
      rw [edited, List.mem_singleton.mp inside, Function.update_self]
  · rw [ended]
    change middle.view.names = _
    rw [moved]
    rfl
  · rw [ended]
    change middle.view.entry = _
    rw [moved]
    rfl

theorem relinked_cut (listed : before.view.Listed (front ++ olds ++ back)) {names : ContextMap}
    (moved : middle.view =
      { before.view.withLinks (lastOf front) (firstOf back) (firstOf back) (lastOf front) with
        names := names })
    (told_up : ups = false → Route.upstream.takes (olds.map Prod.snd) = false)
    (told_down : downs = false → Route.downstream.takes (olds.map Prod.snd) = false)
    (ran : (updateLists ups downs).run middle = .ok () after) :
    Relinked before.view after.view front olds [] back ∧ after.view.names = names ∧
      after.view.entry = before.view.entry := by
  have joined := listed.cut
  have placed : middle.view.Listed (front ++ [] ++ back) := by
    rw [moved, List.append_nil]
    exact ⟨joined.distinct, joined.spelled, joined.old, joined.forward, joined.backward⟩
  rcases view_of_updateLists placed ran with ⟨⟨up, down, ended⟩, upwards, downwards⟩
  refine ⟨⟨?_, ?_, ?_⟩, ?_, ?_⟩
  · rw [ended]
    exact ⟨placed.distinct, placed.spelled, placed.old, placed.forward, placed.backward⟩
  · intro stays routed
    apply routed.exchange upwards (fun no => ⟨told_up no, rfl⟩) _ _ _ stays
    · rw [moved]
      rfl
    · intro item _
      rw [moved]
      rfl
    · nofun
  · intro stays routed
    apply routed.exchange downwards (fun no => ⟨told_down no, rfl⟩) _ _ _ stays
    · rw [moved]
      rfl
    · intro item _
      rw [moved]
      rfl
    · nofun
  · rw [ended]
    change middle.view.names = _
    rw [moved]
  · rw [ended]
    change middle.view.entry = _
    rw [moved]
    rfl

end Exchanging

end PipelineM

end Cetty
