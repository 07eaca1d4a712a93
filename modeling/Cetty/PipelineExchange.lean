import Cetty.PipelineOrder

/-!
# Modifications as exchanges in a list

Each modification that returns exchanges a part of the list for another.
-/

namespace Cetty

open LinkedChains PipelineView PipelineM

/-- What a modification does to a list: between `front` and `back`, `olds` go and `news`
come. -/
structure Exchange where
  front : List Entry
  olds : List Entry
  news : List Entry
  back : List Entry
  deriving DecidableEq

namespace Modification

def exchange (entries : List Entry) : Modification → Exchange
  | .addFirst name (some handler) => ⟨[], [], [(name, handler)], entries⟩
  | .addLast name (some handler) => ⟨entries, [], [(name, handler)], []⟩
  | .addBefore baseName name (some handler) =>
      ⟨entries.takeWhile (·.1 ≠ baseName), [], [(name, handler)],
        entries.dropWhile (·.1 ≠ baseName)⟩
  | .addAfter baseName name (some handler) =>
      ⟨entries.takeWhile (·.1 ≠ baseName) ++ (entries.dropWhile (·.1 ≠ baseName)).take 1, [],
        [(name, handler)], (entries.dropWhile (·.1 ≠ baseName)).drop 1⟩
  | .remove name =>
      ⟨entries.takeWhile (·.1 ≠ name), (entries.dropWhile (·.1 ≠ name)).take 1, [],
        (entries.dropWhile (·.1 ≠ name)).drop 1⟩
  | .removeFirst => ⟨[], entries.take 1, [], entries.drop 1⟩
  | .removeLast => ⟨entries.dropLast, entries.getLast?.toList, [], []⟩
  | .replace oldName newName (some handler) =>
      ⟨entries.takeWhile (·.1 ≠ oldName), (entries.dropWhile (·.1 ≠ oldName)).take 1,
        [(newName, handler)], (entries.dropWhile (·.1 ≠ oldName)).drop 1⟩
  | _ => ⟨entries, [], [], []⟩

/-- The handler that comes. -/
def comes : Modification → Option ChannelHandler
  | .addFirst _ handler => handler
  | .addLast _ handler => handler
  | .addBefore _ _ handler => handler
  | .addAfter _ _ handler => handler
  | .replace _ _ handler => handler
  | _ => none

/-- Whether the handler that comes is taken out again, its `afterAdd` having thrown. -/
def out (throws : LifeCycleCall → Address → Bool) (fresh : Address)
    (modification : Modification) : Bool :=
  modification.comes.any (takesOut throws fresh)

/-- Whether a context is removed by `remove`, which has its own way for the only one. -/
def alone (throws : LifeCycleCall → Address → Bool) (fresh : Address) : Modification → Bool
  | .remove _ => true
  | modification => modification.out throws fresh

theorem parts_around {front back : List Entry} {name : String} {handler : ChannelHandler}
    (others : ∀ entry ∈ front, entry.1 ≠ name) :
    (front ++ (name, handler) :: back).takeWhile (·.1 ≠ name) = front ∧
      (front ++ (name, handler) :: back).dropWhile (·.1 ≠ name) = (name, handler) :: back := by
  have passes : ∀ entry ∈ front, decide (entry.1 ≠ name) = true :=
    fun entry inside => decide_eq_true (others entry inside)
  constructor
  · rw [List.takeWhile_append_of_pos passes]
    simp
  · rw [List.dropWhile_append_of_pos passes]
    simp

end Modification

namespace PipelineM

open DefaultChannelPipeline

/-- The modification has made its exchange between two parts of the list. -/
def SettledBy (throws : LifeCycleCall → Address → Bool) (modification : Modification)
    (before after : PipelineView) (items : List Item) : Prop :=
  ∃ front olds news back, items = front ++ olds ++ back ∧
    modification.exchange (items.map Prod.snd) =
      ⟨front.map Prod.snd, olds.map Prod.snd, news.map Prod.snd, back.map Prod.snd⟩ ∧
    Settled before after front olds news back (modification.out throws before.fresh)
      (modification.alone throws before.fresh)

section Looking

variable {before after : DefaultChannelPipeline} {items : List Item} {name : String}
  {address : Address}

theorem found_of_getContextOrDie
    (ran : (getContextOrDie name).run before = .ok address after) :
    before.name2ctx.find name = some address ∧ after = before := by
  cases found : before.name2ctx.find name with
  | none =>
      simp only [getContextOrDie, run_bind_get, found] at ran
      cases ran
  | some other =>
      simp only [getContextOrDie, run_bind_get, found] at ran
      cases ran
      exact ⟨rfl, rfl⟩

theorem free_of_checkDuplicateName (order : before.view.InOrder items)
    (ran : (checkDuplicateName name).run before = .ok () after) :
    (∀ item ∈ items, item.2.1 ≠ name) ∧ after = before := by
  unfold checkDuplicateName at ran
  rw [run_bind_get] at ran
  rcases ok_of_provided ran with ⟨_, thrown⟩ | ⟨unknown, still⟩
  · cases thrown
  · refine ⟨?_, still⟩
    intro item inside same
    exact (order.keyed.known name).mpr ⟨item, inside, same⟩ (not_not.mp unknown)

/-- A context looked up by its name, and where it is in the list. -/
theorem split_of_found (sound : Sound before) (order : before.view.InOrder items)
    (known : before.name2ctx.find name = some address) {ctx : DefaultChannelHandlerContext}
    (found : before.contexts address = some ctx) :
    ∃ front back, items = front ++ (address, name, ctx.handler) :: back := by
  have named := sound.named name address ctx known found
  have inside := order.live address (ctx.name, ctx.handler) (view_entry found)
  rw [named] at inside
  exact List.append_of_mem inside

theorem contexts_of_listed (order : before.view.InOrder items) {item : Item}
    (inside : item ∈ items) :
    ∃ ctx, before.contexts item.1 = some ctx ∧ (ctx.name, ctx.handler) = item.2 := by
  rcases contexts_of_entry (order.listed.spelled item inside) with ⟨ctx, found, name, handler⟩
  exact ⟨ctx, found, Prod.ext name handler⟩

/-- The parts of the list around a name. -/
theorem around_name {front back : List Item} {handler : ChannelHandler} {view : PipelineView}
    (keyed : view.Keyed (front ++ (address, name, handler) :: back)) :
    ((front ++ (address, name, handler) :: back).map Prod.snd).takeWhile (·.1 ≠ name) =
        front.map Prod.snd ∧
      ((front ++ (address, name, handler) :: back).map Prod.snd).dropWhile (·.1 ≠ name) =
        (name, handler) :: back.map Prod.snd := by
  rw [List.map_append, List.map_cons]
  apply Modification.parts_around
  intro entry inside
  rcases List.mem_map.mp inside with ⟨item, member, same⟩
  rw [← same]
  exact keyed.names_apart item (List.mem_append_left _ member)

theorem empty_of_names (order : before.view.InOrder items) (empty : before.name2ctx = []) :
    items = [] := by
  cases items with
  | nil => rfl
  | cons item rest => exact absurd empty (nonempty_of_keyed order.keyed List.mem_cons_self)

end Looking

section Performing

variable {throws : LifeCycleCall → Address → Bool} {before after : DefaultChannelPipeline}
  {items : List Item} {name : String} {handler : ChannelHandler}

theorem settled_nothing (view : PipelineView) (order : view.InOrder items) :
    Settled view view items [] [] [] false false := by
  have around : items ++ remaining false ([] : List Item) ++ [] = items ++ [] ++ [] := rfl
  refine ⟨?_, fun _ current => current, fun _ routed => routed, fun _ routed => routed⟩
  rw [around, List.append_nil, List.append_nil]
  exact order

theorem settled_addFirst (order : before.view.InOrder items)
    (ran : (addFirst throws name (some handler)).run before = .ok () after) :
    Settled before.view after.view [] [] [(before.view.fresh, name, handler)] items
      (takesOut throws before.view.fresh handler) (takesOut throws before.view.fresh handler) := by
  unfold addFirst at ran
  rw [run_bind_get] at ran
  by_cases empty : before.name2ctx = []
  · simp only [if_pos empty] at ran
    have nothing := empty_of_names order empty
    subst nothing
    rcases exchanged_init order.listed ran with ⟨added, exchanged, names, adding⟩
    apply settled_add order exchanged _ nofun adding
    intro other
    rw [names]
    change _ = (ContextMap.put before.name2ctx name before.view.fresh).find other
    rw [empty]
  · simp only [if_neg empty] at ran
    rcases ok_of_run_bind ran with ⟨_, checked, checking, inserting⟩
    rcases free_of_checkDuplicateName order checking with ⟨free, same⟩
    rw [same, forward_first order.listed] at inserting
    have whole : before.view.InOrder ([] ++ items) := order
    have links : ∀ newCtx (start ended : DefaultChannelPipeline),
        (do
          setPrev (← dereference (firstOf items)) (some newCtx)
          setHead (some newCtx) : PipelineM Unit).run start = .ok () ended →
        ended.view = start.view.withLinks (lastOf []) (firstOf items) (some newCtx)
          (some newCtx) := by
      intro newCtx start ended linking
      rcases ok_of_run_bind linking with ⟨first, _, pointed, linking⟩
      rcases dereferenced pointed with ⟨some_first, still⟩
      rw [still] at linking
      rcases ok_of_run_bind linking with ⟨_, middle, moving, heading⟩
      rw [view_of_setHead heading, view_of_setPrev moving, some_first]
      rfl
    rcases exchanged_insert whole.listed links inserting with ⟨added, exchanged, names, adding⟩
    exact settled_add whole exchanged (fun other => by rw [names]) free adding

theorem settled_addLast (order : before.view.InOrder items)
    (ran : (addLast throws name (some handler)).run before = .ok () after) :
    Settled before.view after.view items [] [(before.view.fresh, name, handler)] []
      (takesOut throws before.view.fresh handler) (takesOut throws before.view.fresh handler) := by
  have whole : before.view.InOrder (items ++ []) := by
    rw [List.append_nil]
    exact order
  unfold addLast at ran
  rw [run_bind_get] at ran
  by_cases empty : before.name2ctx = []
  · simp only [if_pos empty] at ran
    have nothing := empty_of_names order empty
    subst nothing
    rcases exchanged_init order.listed ran with ⟨added, exchanged, names, adding⟩
    apply settled_add order exchanged _ nofun adding
    intro other
    rw [names]
    change _ = (ContextMap.put before.name2ctx name before.view.fresh).find other
    rw [empty]
  · simp only [if_neg empty] at ran
    rcases ok_of_run_bind ran with ⟨_, checked, checking, inserting⟩
    rcases free_of_checkDuplicateName whole checking with ⟨free, same⟩
    rw [same, backward_first order.listed] at inserting
    have links : ∀ newCtx (start ended : DefaultChannelPipeline),
        (do
          setNext (← dereference (lastOf items)) (some newCtx)
          setTail (some newCtx) : PipelineM Unit).run start = .ok () ended →
        ended.view = start.view.withLinks (lastOf items) (firstOf []) (some newCtx)
          (some newCtx) := by
      intro newCtx start ended linking
      rcases ok_of_run_bind linking with ⟨last, _, pointed, linking⟩
      rcases dereferenced pointed with ⟨some_last, still⟩
      rw [still] at linking
      rcases ok_of_run_bind linking with ⟨_, middle, moving, tailing⟩
      rw [view_of_setTail tailing, view_of_setNext moving, some_last]
      rfl
    rcases exchanged_insert whole.listed links inserting with ⟨added, exchanged, names, adding⟩
    exact settled_add whole exchanged (fun other => by rw [names]) free adding

section

variable {baseName : String} (sound : Sound before) (order : before.view.InOrder items)

include sound order

theorem settledBy_addBefore
    (ran : (addBefore throws baseName name (some handler)).run before = .ok () after) :
    SettledBy throws (.addBefore baseName name (some handler)) before.view after.view items := by
  unfold addBefore at ran
  rcases ok_of_run_bind ran with ⟨base, _, looked, ran⟩
  rcases found_of_getContextOrDie looked with ⟨known, same⟩
  rw [same, run_bind_get] at ran
  have split : ∃ front back baseHandler, items = front ++ (base, baseName, baseHandler) :: back ∧
      Settled before.view after.view front [] [(before.view.fresh, name, handler)]
        ((base, baseName, baseHandler) :: back)
        (takesOut throws before.view.fresh handler)
        (takesOut throws before.view.fresh handler) := by
    by_cases first : some base = before.head
    · simp only [if_pos first] at ran
      rw [forward_first order.listed] at first
      cases items with
      | nil => cases first
      | cons item rest =>
          have head : base = item.1 := Option.some.inj first
          rcases contexts_of_listed order List.mem_cons_self with ⟨ctx, found, _⟩
          rw [← head] at found
          have named := sound.named baseName base ctx known found
          have spelled := order.listed.spelled item List.mem_cons_self
          rw [← head, view_entry found, named] at spelled
          have this : item = (base, baseName, ctx.handler) :=
            Prod.ext head.symm (Option.some.inj spelled).symm
          subst this
          exact ⟨[], rest, ctx.handler, rfl, settled_addFirst order ran⟩
    · simp only [if_neg first] at ran
      rcases ok_of_run_bind ran with ⟨_, checked, checking, inserting⟩
      rcases free_of_checkDuplicateName order checking with ⟨free, same⟩
      rw [same] at inserting
      rcases ok_of_run_bind inserting with ⟨ctx, _, located, inserting⟩
      rcases found_of_context located with ⟨found, same⟩
      rw [same] at inserting
      rcases split_of_found sound order known found with ⟨front, back, whole⟩
      subst whole
      rw [(neighbours order.listed found).2] at inserting
      have links : ∀ newCtx (start ended : DefaultChannelPipeline),
          (do
            setNext (← dereference (lastOf front)) (some newCtx)
            setPrev base (some newCtx) : PipelineM Unit).run start = .ok () ended →
          ended.view = start.view.withLinks (lastOf front)
            (firstOf ((base, baseName, ctx.handler) :: back)) (some newCtx) (some newCtx) := by
        intro newCtx start ended linking
        rcases ok_of_run_bind linking with ⟨last, _, pointed, linking⟩
        rcases dereferenced pointed with ⟨some_last, still⟩
        rw [still] at linking
        rcases ok_of_run_bind linking with ⟨_, middle, moving, moving_back⟩
        rw [view_of_setPrev moving_back, view_of_setNext moving, some_last]
        rfl
      rcases exchanged_insert order.listed links inserting with
        ⟨added, exchanged, names, adding⟩
      exact ⟨front, back, ctx.handler, rfl,
        settled_add order exchanged (fun other => by rw [names]) free adding⟩
  rcases split with ⟨front, back, baseHandler, whole, settled⟩
  subst whole
  refine ⟨front, [], _, _, by rw [List.append_nil], ?_, settled⟩
  rcases around_name order.keyed with ⟨taken, dropped⟩
  simp only [Modification.exchange]
  rw [taken, dropped]
  rfl

theorem settledBy_addAfter
    (ran : (addAfter throws baseName name (some handler)).run before = .ok () after) :
    SettledBy throws (.addAfter baseName name (some handler)) before.view after.view items := by
  unfold addAfter at ran
  rcases ok_of_run_bind ran with ⟨base, _, looked, ran⟩
  rcases found_of_getContextOrDie looked with ⟨known, same⟩
  rw [same, run_bind_get] at ran
  have split : ∃ front back baseHandler, items = front ++ (base, baseName, baseHandler) :: back ∧
      Settled before.view after.view (front ++ [(base, baseName, baseHandler)]) []
        [(before.view.fresh, name, handler)] back
        (takesOut throws before.view.fresh handler)
        (takesOut throws before.view.fresh handler) := by
    by_cases last : some base = before.tail
    · simp only [if_pos last] at ran
      rw [backward_first order.listed] at last
      rcases List.eq_nil_or_concat items with empty | ⟨init, item, whole⟩
      · rw [empty] at last
        cases last
      · rw [List.concat_eq_append] at whole
        subst whole
        unfold lastOf at last
        rw [List.map_append, List.map_singleton, List.getLast?_concat] at last
        have tail : base = item.1 := Option.some.inj last
        have inside : item ∈ init ++ [item] := List.mem_append_right _ (List.mem_singleton_self _)
        rcases contexts_of_listed order inside with ⟨ctx, found, _⟩
        rw [← tail] at found
        have named := sound.named baseName base ctx known found
        have spelled := order.listed.spelled item inside
        rw [← tail, view_entry found, named] at spelled
        have this : item = (base, baseName, ctx.handler) :=
          Prod.ext tail.symm (Option.some.inj spelled).symm
        subst this
        exact ⟨init, [], ctx.handler, rfl, settled_addLast order ran⟩
    · simp only [if_neg last] at ran
      rcases ok_of_run_bind ran with ⟨_, checked, checking, inserting⟩
      rcases free_of_checkDuplicateName order checking with ⟨free, same⟩
      rw [same] at inserting
      rcases ok_of_run_bind inserting with ⟨ctx, _, located, inserting⟩
      rcases found_of_context located with ⟨found, same⟩
      rw [same] at inserting
      rcases split_of_found sound order known found with ⟨front, back, whole⟩
      subst whole
      rw [(neighbours order.listed found).1] at inserting
      have base_last : some base = lastOf (front ++ [(base, baseName, ctx.handler)]) := by
        unfold lastOf
        rw [List.map_append, List.map_singleton, List.getLast?_concat]
      have links : ∀ newCtx (start ended : DefaultChannelPipeline),
          (do
            setPrev (← dereference (firstOf back)) (some newCtx)
            setNext base (some newCtx) : PipelineM Unit).run start = .ok () ended →
          ended.view = start.view.withLinks (lastOf (front ++ [(base, baseName, ctx.handler)]))
            (firstOf back) (some newCtx) (some newCtx) := by
        intro newCtx start ended linking
        rcases ok_of_run_bind linking with ⟨first, _, pointed, linking⟩
        rcases dereferenced pointed with ⟨some_first, still⟩
        rw [still] at linking
        rcases ok_of_run_bind linking with ⟨_, middle, moving_back, moving⟩
        rw [view_of_setNext moving, view_of_setPrev moving_back, some_first, ← base_last]
        rfl
      have whole := split_one front back (base, baseName, ctx.handler)
      rw [base_last] at inserting
      rw [whole] at order free
      rcases exchanged_insert order.listed links inserting with
        ⟨added, exchanged, names, adding⟩
      exact ⟨front, back, ctx.handler, rfl,
        settled_add order exchanged (fun other => by rw [names]) free adding⟩
  rcases split with ⟨front, back, baseHandler, whole, settled⟩
  subst whole
  refine ⟨front ++ [(base, baseName, baseHandler)], [], _, back, ?_, ?_, settled⟩
  · rw [List.append_nil]
    exact split_one front back _
  · rcases around_name order.keyed with ⟨taken, dropped⟩
    simp only [Modification.exchange]
    rw [taken, dropped, List.map_append]
    rfl

end

variable {address : Address}

theorem exchange_around {front back : List Item} {news : List Entry}
    {view : PipelineView} (keyed : view.Keyed (front ++ (address, name, handler) :: back)) :
    (⟨((front ++ (address, name, handler) :: back).map Prod.snd).takeWhile (·.1 ≠ name),
        (((front ++ (address, name, handler) :: back).map Prod.snd).dropWhile
          (·.1 ≠ name)).take 1, news,
        (((front ++ (address, name, handler) :: back).map Prod.snd).dropWhile
          (·.1 ≠ name)).drop 1⟩ : Exchange) =
      ⟨front.map Prod.snd, [(address, name, handler)].map Prod.snd, news, back.map Prod.snd⟩ := by
  rcases around_name keyed with ⟨taken, dropped⟩
  rw [taken, dropped]
  rfl

/-- `remove` finds the context in the list: at an end, or by following its pointers. -/
theorem listed_of_removeContext (sound : Sound before) (order : before.view.InOrder items)
    {result : ChannelHandler}
    (known : before.name2ctx.find name = some address)
    (ran : (removeContext throws address).run before = .ok result after) :
    ∃ front back ctxHandler, items = front ++ (address, name, ctxHandler) :: back := by
  have found : ∃ ctx, before.contexts address = some ctx := by
    unfold removeContext at ran
    rw [run_bind_get] at ran
    by_cases single : before.head = before.tail
    · simp only [if_pos single] at ran
      rcases ok_of_run_bind ran with ⟨_, first, headless, ran⟩
      rcases ok_of_run_bind ran with ⟨_, second, tailless, ran⟩
      rcases ok_of_run_bind ran with ⟨_, third, cleared, ran⟩
      rcases ok_of_run_bind ran with ⟨ctx, _, looked, _⟩
      have found := (found_of_context looked).1
      cases headless
      cases tailless
      cases cleared
      exact ⟨ctx, found⟩
    · simp only [if_neg single] at ran
      by_cases first : some address = before.head
      · rw [forward_first order.listed] at first
        rcases List.mem_map.mp (List.mem_of_head? first.symm) with ⟨item, inside, same⟩
        rcases contexts_of_listed order inside with ⟨ctx, found, _⟩
        rw [same] at found
        exact ⟨ctx, found⟩
      · simp only [if_neg first] at ran
        by_cases last : some address = before.tail
        · rw [backward_first order.listed] at last
          rcases List.mem_map.mp (List.mem_of_getLast? last.symm) with ⟨item, inside, same⟩
          rcases contexts_of_listed order inside with ⟨ctx, found, _⟩
          rw [same] at found
          exact ⟨ctx, found⟩
        · simp only [if_neg last] at ran
          rcases ok_of_run_bind ran with ⟨_, _, called, _⟩
          rcases ok_of_run_bind called with ⟨ctx, _, looked, _⟩
          exact ⟨ctx, (found_of_context looked).1⟩
  rcases found with ⟨ctx, found⟩
  rcases split_of_found sound order known found with ⟨front, back, whole⟩
  exact ⟨front, back, ctx.handler, whole⟩

section

variable {result : ChannelHandler}

theorem settledBy_remove (sound : Sound before)
    (order : before.view.InOrder items)
    (ran : (remove throws name).run before = .ok result after) :
    SettledBy throws (.remove name) before.view after.view items := by
  rcases ok_of_run_bind ran with ⟨address, _, looked, ran⟩
  rcases found_of_getContextOrDie looked with ⟨known, same⟩
  rw [same] at ran
  rcases listed_of_removeContext sound order known ran with ⟨front, back, ctxHandler, whole⟩
  subst whole
  have removed := removed_removeContext order.listed order.keyed ran
  exact ⟨front, [_], [], back, split_one front back _, exchange_around order.keyed,
    settled_removed order removed nofun⟩

theorem settledBy_removeFirst (order : before.view.InOrder items)
    (ran : (removeFirst throws).run before = .ok result after) :
    SettledBy throws .removeFirst before.view after.view items := by
  cases items with
  | nil =>
      have headless : before.head = none := forward_first order.listed
      unfold removeFirst at ran
      rw [run_bind_get] at ran
      simp only [headless] at ran
      split at ran
      · cases ran
      · cases ran
  | cons item rest =>
      have whole : before.view.InOrder ([] ++ (item.1, item.2) :: rest) := order
      rcases exchanged_removeFirst whole.listed whole.keyed ran with ⟨exchanged, forgets⟩
      exact ⟨[], [item], [], rest, rfl, rfl,
        settled_removed whole (exchanged.removed forgets) (fun _ => exchanged.toRelinked)⟩

theorem settledBy_removeLast (order : before.view.InOrder items)
    (ran : (removeLast throws).run before = .ok result after) :
    SettledBy throws .removeLast before.view after.view items := by
  rcases List.eq_nil_or_concat items with empty | ⟨init, item, split⟩
  · subst empty
    have tailless : before.tail = none := backward_first order.listed
    unfold removeLast at ran
    rw [run_bind_get] at ran
    simp only [tailless] at ran
    split at ran
    · cases ran
    · cases ran
  · rw [List.concat_eq_append] at split
    subst split
    have whole : before.view.InOrder (init ++ (item.1, item.2) :: []) := order
    rcases exchanged_removeLast whole.listed whole.keyed ran with ⟨exchanged, forgets⟩
    refine ⟨init, [item], [], [], by rw [List.append_nil], ?_,
      settled_removed whole (exchanged.removed forgets) (fun _ => exchanged.toRelinked)⟩
    simp only [Modification.exchange]
    rw [List.map_append, List.map_singleton, List.dropLast_concat, List.getLast?_concat]
    rfl

end

/-- `replace` of a context that is gone when its last line deletes it does not return. -/
theorem replaceEnd_never {remove : PipelineM ChannelHandler}
    {add : PipelineM Unit} {result : ChannelHandler}
    (gone : ∀ handler middle later, remove.run before = .ok handler middle →
      add.run middle = .ok () later → later.view.entry address = none)
    (ran : (replaceEnd address remove add).run before = .ok result after) : False := by
  rcases ok_of_run_bind ran with ⟨removedHandler, middle, removing, ran⟩
  rcases ok_of_run_bind ran with ⟨_, later, adding, ran⟩
  rcases ok_of_run_bind ran with ⟨_, ended, deleting, _⟩
  rcases view_of_delete deleting with ⟨⟨entry, here⟩, _⟩
  rw [gone removedHandler middle later removing adding] at here
  cases here

/-- The context that went is not in the list a new handler is added to. -/
theorem no_entry_added {front news back rest : List Item} {out alone : Bool}
    {middle later : PipelineView} (settled : Settled middle later front [] news back out alone)
    (around : front ++ back = rest) (new : ∀ item ∈ news, item.1 ≠ address)
    (apart : address ∉ rest.map Prod.fst) : later.entry address = none := by
  cases here : later.entry address with
  | none => rfl
  | some entry =>
      have inside := settled.order.live address entry here
      exfalso
      rcases List.mem_append.mp inside with earlier | behind
      · rcases List.mem_append.mp earlier with ahead | between
        · apply apart
          rw [← around]
          exact List.mem_map.mpr ⟨_, List.mem_append_left _ ahead, rfl⟩
        · unfold remaining at between
          split at between
          · cases between
          · exact new _ between rfl
      · apply apart
        rw [← around]
        exact List.mem_map.mpr ⟨_, List.mem_append_right _ behind, rfl⟩

theorem settledBy_replace {newName : String} {newHandler result : ChannelHandler}
    (sound : Sound before) (order : before.view.InOrder items)
    (known : before.name2ctx.find name = some address)
    (ran : (replaceContext throws address newName newHandler).run before = .ok result after) :
    SettledBy throws (.replace name newName (some newHandler)) before.view after.view items := by
  have older := sound.known name address known
  unfold replaceContext at ran
  rw [run_bind_get] at ran
  by_cases first : some address = before.head
  · exfalso
    simp only [if_pos first] at ran
    apply replaceEnd_never _ ran
    intro handler middle later removing adding
    have fresh := ((shrinks_removeFirst throws).after_ok (Shrinks.refl before) removing).fresh
    rw [forward_first order.listed] at first
    cases items with
    | nil => cases first
    | cons item rest =>
        have whole : before.view.InOrder ([] ++ (item.1, item.2) :: rest) := order
        rcases exchanged_removeFirst whole.listed whole.keyed removing with ⟨exchanged, forgets⟩
        have removed := settled_removed whole (exchanged.removed forgets)
          (fun _ : false = false => exchanged.toRelinked)
        have same : address = item.1 := Option.some.inj first
        apply no_entry_added (settled_addFirst removed.order adding) rfl
        · intro new inside
          rw [List.mem_singleton.mp inside]
          change middle.fresh ≠ address
          rw [fresh]
          exact Nat.ne_of_gt older
        · rw [same]
          exact (List.nodup_cons.mp order.listed.distinct).1
  · simp only [if_neg first] at ran
    by_cases last : some address = before.tail
    · exfalso
      simp only [if_pos last] at ran
      apply replaceEnd_never _ ran
      intro handler middle later removing adding
      have fresh := ((shrinks_removeLast throws).after_ok (Shrinks.refl before) removing).fresh
      rw [backward_first order.listed] at last
      rcases List.eq_nil_or_concat items with empty | ⟨init, item, split⟩
      · rw [empty] at last
        cases last
      · rw [List.concat_eq_append] at split
        subst split
        have whole : before.view.InOrder (init ++ (item.1, item.2) :: []) := order
        rcases exchanged_removeLast whole.listed whole.keyed removing with ⟨exchanged, forgets⟩
        have removed := settled_removed whole (exchanged.removed forgets)
          (fun _ : false = false => exchanged.toRelinked)
        unfold lastOf at last
        rw [List.map_append, List.map_singleton, List.getLast?_concat] at last
        have same : address = item.1 := Option.some.inj last
        apply no_entry_added (settled_addLast removed.order adding) rfl
        · intro new inside
          rw [List.mem_singleton.mp inside]
          change middle.fresh ≠ address
          rw [fresh]
          exact Nat.ne_of_gt older
        · have distinct := order.listed.distinct
          rw [List.map_append, List.map_singleton, ← List.concat_eq_append,
            List.nodup_concat] at distinct
          rw [same]
          simp only [remaining, Bool.false_eq_true, if_false, List.append_nil]
          exact distinct.1
    · simp only [if_neg last] at ran
      have found : ∃ ctx, before.contexts address = some ctx := by
        rcases ok_of_run_bind ran with ⟨ctx, _, looked, _⟩
        exact ⟨ctx, (found_of_context looked).1⟩
      rcases found with ⟨ctx, found⟩
      rcases split_of_found sound order known found with ⟨front, back, whole⟩
      subst whole
      rcases relinked_replaceMiddle order.listed ran with
        ⟨free, placed, settled, relinked, entries, names, adding, deleting⟩
      exact ⟨front, [(address, name, ctx.handler)], [(before.view.fresh, newName, newHandler)], back,
        split_one front back _, exchange_around order.keyed,
        settled_replace order free relinked (Nat.ne_of_lt older) entries names adding deleting⟩

/-- Every modification that returns makes its exchange. -/
theorem settledBy_perform {modification : Modification} (sound : Sound before)
    (order : before.view.InOrder items)
    (ran : (perform throws modification).run before = .ok () after) :
    SettledBy throws modification before.view after.view items := by
  have nothing (idle : Modification)
      (same : idle.exchange (items.map Prod.snd) = ⟨items.map Prod.snd, [], [], []⟩)
      (stays : idle.out throws before.view.fresh = false)
      (never : idle.alone throws before.view.fresh = false) :
      SettledBy throws idle before.view before.view items := by
    refine ⟨items, [], [], [], ?_, same, ?_⟩
    · rw [List.append_nil, List.append_nil]
    · rw [stays, never]
      exact settled_nothing before.view order
  cases modification with
  | addFirst name handler =>
      cases handler with
      | none =>
          cases ran
          exact nothing _ rfl rfl rfl
      | some handler =>
          exact ⟨[], [], [_], items, rfl, rfl, settled_addFirst order ran⟩
  | addLast name handler =>
      cases handler with
      | none =>
          cases ran
          exact nothing _ rfl rfl rfl
      | some handler =>
          refine ⟨items, [], [_], [], ?_, rfl, settled_addLast order ran⟩
          rw [List.append_nil, List.append_nil]
  | addBefore baseName name handler =>
      cases handler with
      | none =>
          cases ran
          exact nothing _ rfl rfl rfl
      | some handler => exact settledBy_addBefore sound order ran
  | addAfter baseName name handler =>
      cases handler with
      | none =>
          cases ran
          exact nothing _ rfl rfl rfl
      | some handler => exact settledBy_addAfter sound order ran
  | remove name =>
      rcases ok_of_run_bind ran with ⟨result, _, removing, dropped⟩
      cases dropped
      exact settledBy_remove sound order removing
  | removeFirst =>
      rcases ok_of_run_bind ran with ⟨result, _, removing, dropped⟩
      cases dropped
      exact settledBy_removeFirst order removing
  | removeLast =>
      rcases ok_of_run_bind ran with ⟨result, _, removing, dropped⟩
      cases dropped
      exact settledBy_removeLast order removing
  | replace oldName newName newHandler =>
      rcases ok_of_run_bind ran with ⟨result, _, replacing, dropped⟩
      cases dropped
      rcases ok_of_run_bind replacing with ⟨address, _, looked, replacing⟩
      rcases found_of_getContextOrDie looked with ⟨known, same⟩
      rw [same] at replacing
      cases newHandler with
      | none =>
          cases replacing
          exact nothing _ rfl rfl rfl
      | some newHandler =>
          rcases ok_of_run_bind replacing with ⟨_, _, replaced, returned⟩
          cases returned
          exact settledBy_replace sound order known replaced

end Performing

end PipelineM

end Cetty
