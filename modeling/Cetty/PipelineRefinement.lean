import Mathlib.Data.List.Perm.Subperm
import Cetty.PipelineExchange
import Cetty.PipelineFailures

/-!
# DefaultChannelPipeline refines a list

Read from either end, as a map and through its names, a pipeline spells the list that the
same calls make of the empty one. The routes follow the list as long as no modification takes away
the last stop of a route that has another one before it.
-/

namespace Cetty

open LinkedChains PipelineView PipelineM ActionRuns

namespace Modification

/-- `change` in place of the entry of a name. -/
def atName (entries : List Entry) (name : String) (change : Entry → List Entry) : List Entry :=
  entries.flatMap (fun entry => if entry.1 = name then change entry else [entry])

/-- What a call is meant to do to a list of names and handlers. -/
def on (entries : List Entry) : Modification → List Entry
  | .addFirst name (some handler) => (name, handler) :: entries
  | .addLast name (some handler) => entries ++ [(name, handler)]
  | .addBefore baseName name (some handler) =>
      atName entries baseName (fun base => [(name, handler), base])
  | .addAfter baseName name (some handler) =>
      atName entries baseName (fun base => [base, (name, handler)])
  | .remove name => atName entries name (fun _ => [])
  | .removeFirst => entries.tail
  | .removeLast => entries.dropLast
  | .replace oldName newName (some handler) =>
      atName entries oldName (fun _ => [(newName, handler)])
  | _ => entries

/-- The name a call looks up. -/
def looksUp : Modification → Option String
  | .addBefore baseName _ (some _) => some baseName
  | .addAfter baseName _ (some _) => some baseName
  | .remove name => some name
  | .replace oldName _ (some _) => some oldName
  | _ => none

theorem atName_split {front back : List Entry} {name : String} {handler : ChannelHandler}
    (change : Entry → List Entry) (others : ∀ entry ∈ front ++ back, entry.1 ≠ name) :
    atName (front ++ (name, handler) :: back) name change =
      front ++ change (name, handler) ++ back := by
  have apart : ∀ entries : List Entry, (∀ entry ∈ entries, entry.1 ≠ name) →
      atName entries name change = entries := by
    intro entries all
    induction entries with
    | nil => rfl
    | cons entry rest ih =>
        have later := ih (fun other inside => all other (List.mem_cons_of_mem _ inside))
        unfold atName at later ⊢
        rw [List.flatMap_cons, later, if_neg (all entry List.mem_cons_self)]
        rfl
  have ahead := apart front (fun entry inside => others entry (List.mem_append_left _ inside))
  have behind := apart back (fun entry inside => others entry (List.mem_append_right _ inside))
  unfold atName at ahead behind ⊢
  rw [List.flatMap_append, List.flatMap_cons, ahead, behind, if_pos rfl, List.append_assoc]

/-- The exchange is what the call is meant to do, if the name it looks up is there. -/
theorem on_eq_exchange {entries : List Entry} (unique : (entries.map Prod.fst).Nodup)
    (modification : Modification)
    (known : ∀ name, modification.looksUp = some name → name ∈ entries.map Prod.fst) :
    modification.on entries =
      (modification.exchange entries).front ++ (modification.exchange entries).news ++
        (modification.exchange entries).back := by
  have around (name : String) (inside : name ∈ entries.map Prod.fst) :
      ∃ front handler back, entries.takeWhile (·.1 ≠ name) = front ∧
        entries.dropWhile (·.1 ≠ name) = (name, handler) :: back ∧
        ∀ change, atName entries name change = front ++ change (name, handler) ++ back := by
    rcases List.mem_map.mp inside with ⟨⟨same, handler⟩, member, this⟩
    cases this
    rcases List.append_of_mem member with ⟨front, back, split⟩
    subst split
    rw [List.map_append, List.map_cons, List.nodup_middle, List.nodup_cons,
      ← List.map_append] at unique
    have others : ∀ entry ∈ front ++ back, entry.1 ≠ same := by
      intro entry within equal
      have named := List.mem_map_of_mem (f := Prod.fst) within
      rw [equal] at named
      exact unique.1 named
    have parts : (front ++ (same, handler) :: back).takeWhile (·.1 ≠ same) = front ∧
        (front ++ (same, handler) :: back).dropWhile (·.1 ≠ same) = (same, handler) :: back :=
      parts_around (fun entry within => others entry (List.mem_append_left back within))
    exact ⟨front, handler, back, parts.1, parts.2, fun change => atName_split change others⟩
  cases modification with
  | addFirst name handler =>
      cases handler with
      | none => simp [on, exchange]
      | some handler => rfl
  | addLast name handler =>
      cases handler with
      | none => simp [on, exchange]
      | some handler => simp [on, exchange]
  | addBefore baseName name handler =>
      cases handler with
      | none => simp [on, exchange]
      | some handler =>
          rcases around baseName (known baseName rfl) with ⟨front, base, back, taken, dropped, put⟩
          simp only [on, exchange]
          rw [put, taken, dropped]
          simp
  | addAfter baseName name handler =>
      cases handler with
      | none => simp [on, exchange]
      | some handler =>
          rcases around baseName (known baseName rfl) with ⟨front, base, back, taken, dropped, put⟩
          simp only [on, exchange]
          rw [put, taken, dropped]
          simp
  | remove name =>
      rcases around name (known name rfl) with ⟨front, gone, back, taken, dropped, put⟩
      simp only [on, exchange]
      rw [put, taken, dropped]
      rfl
  | removeFirst => simp [on, exchange]
  | removeLast => simp [on, exchange]
  | replace oldName newName handler =>
      cases handler with
      | none => simp [on, exchange]
      | some handler =>
          rcases around oldName (known oldName rfl) with ⟨front, old, back, taken, dropped, put⟩
          simp only [on, exchange]
          rw [put, taken, dropped]
          rfl

end Modification

namespace PipelineM

open DefaultChannelPipeline

/-- The addresses met by following one pointer of the contexts. -/
def walk (pointer : DefaultChannelHandlerContext → Option Address) :
    Nat → Option Address → PipelineM (List Address)
  | 0, _ => throw .diverges
  | _ + 1, none => pure []
  | fuel + 1, some address => do
      let ctx ← context address
      let rest ← walk pointer fuel (pointer ctx)
      pure (address :: rest)

section Walking

variable {this : DefaultChannelPipeline}

variable {addresses : List Address} {fuel : Nat} {items : List Item}

theorem run_walk {pointer : DefaultChannelHandlerContext → Option Address} {link : Link Address}
    (points : ∀ address ctx, this.contexts address = some ctx →
      link (some address) = pointer ctx)
    (held : ∀ address ∈ addresses, ∃ ctx, this.contexts address = some ctx)
    (chain : Chain link addresses) (enough : addresses.length < fuel) :
    (walk pointer fuel (link none)).run this = .ok addresses this := by
  have from_place (addresses : List Address)
      (held : ∀ address ∈ addresses, ∃ ctx, this.contexts address = some ctx) (fuel : Nat)
      (enough : addresses.length < fuel) (place : Option Address)
      (leads : LinkedChains.Leads link (place :: addresses.map some ++ [none])) :
      (walk pointer fuel (link place)).run this = .ok addresses this := by
    induction addresses generalizing fuel place with
    | nil =>
        cases fuel with
        | zero => cases enough
        | succ fuel =>
            rw [leads_pair.mp leads]
            rfl
    | cons address rest ih =>
        cases fuel with
        | zero => cases enough
        | succ fuel =>
            rcases leads_cons.mp leads with ⟨here, onward⟩
            rcases held address List.mem_cons_self with ⟨ctx, found⟩
            have later := ih (fun other inside => held other (List.mem_cons_of_mem _ inside)) fuel
              (Nat.lt_of_succ_lt_succ enough) (some address) onward
            rw [points address ctx found] at later
            rw [here]
            unfold walk
            rw [run_bind_ok _ (run_context found), run_bind_ok _ later]
            rfl
  exact from_place addresses held fuel enough none chain

theorem run_toMapFrom {entries : List Entry} {address : Address}
    (spelled : (address :: addresses).map this.view.entry = entries.map some)
    (leads : LinkedChains.Leads this.view.next (some address :: addresses.map some ++ [none]))
    (enough : addresses.length < fuel) :
    (toMapFrom fuel address).run this = .ok entries this := by
  induction addresses generalizing entries fuel address with
  | nil =>
      cases fuel with
      | zero => cases enough
      | succ fuel =>
          cases entries with
          | nil => cases spelled
          | cons entry rest =>
              have empty : rest = [] := by
                cases rest with
                | nil => rfl
                | cons => cases (List.cons.inj spelled).2
              subst empty
              rcases contexts_of_entry (List.cons.inj spelled).1 with ⟨ctx, found, name, handler⟩
              have next := leads_pair.mp leads
              change this.view.next (some address) = none at next
              rw [show this.view.next (some address) = ctx.next from
                points_next this address ctx found] at next
              unfold toMapFrom
              rw [run_bind_ok _ (run_context found), next]
              have same : (ctx.name, ctx.handler) = entry := Prod.ext name handler
              rw [same]
              rfl
  | cons second rest ih =>
      cases fuel with
      | zero => cases enough
      | succ fuel =>
          cases entries with
          | nil => cases spelled
          | cons entry others =>
              rcases List.cons.inj spelled with ⟨first, later⟩
              rcases contexts_of_entry first with ⟨ctx, found, name, handler⟩
              rcases leads_cons.mp leads with ⟨next, onward⟩
              rw [show this.view.next (some address) = ctx.next from
                points_next this address ctx found] at next
              unfold toMapFrom
              rw [run_bind_ok _ (run_context found), next,
                run_bind_ok _ (ih later onward (Nat.lt_of_succ_lt_succ enough))]
              have same : (ctx.name, ctx.handler) = entry := Prod.ext name handler
              rw [same]
              rfl

theorem length_le_fresh (listed : this.view.Listed items) :
    items.length ≤ this.fresh := by
  have inside : items.map Prod.fst ⊆ List.range this.fresh := by
    intro address member
    rcases List.mem_map.mp member with ⟨item, among, same⟩
    rw [← same]
    exact List.mem_range.mpr (listed.old item among)
  have bound := (List.subperm_of_subset listed.distinct inside).length_le
  rw [List.length_map, List.length_range] at bound
  exact bound

theorem run_toMap (order : this.view.InOrder items) :
    toMap.run this = .ok (items.map Prod.snd) this := by
  unfold toMap
  rw [run_bind_get]
  cases items with
  | nil =>
      have empty : this.name2ctx = [] := by
        cases names : this.name2ctx with
        | nil => rfl
        | cons entry rest =>
            have known : this.view.names.find entry.1 ≠ none := by
              change this.name2ctx.find entry.1 ≠ none
              rw [names]
              unfold ContextMap.find
              rw [List.lookup_cons, beq_self_eq_true]
              exact Option.some_ne_none _
            rcases (order.keyed.known entry.1).mp known with ⟨item, inside, _⟩
            cases inside
      simp only [if_pos empty]
      rfl
  | cons item rest =>
      have nonempty : this.name2ctx ≠ [] := nonempty_of_keyed order.keyed List.mem_cons_self
      have head : this.head = some item.1 := forward_first order.listed
      simp only [if_neg nonempty, head]
      have spelled : (item.1 :: rest.map Prod.fst).map this.view.entry =
          ((item :: rest).map Prod.snd).map some := by
        rw [← List.map_cons, List.map_map, List.map_map]
        exact List.map_congr_left order.listed.spelled
      have forward := order.listed.forward
      unfold Chain at forward
      rw [List.map_cons, List.map_cons] at forward
      apply run_toMapFrom spelled (leads_cons.mp forward).2
      have bound := length_le_fresh order.listed
      rw [List.length_cons] at bound
      rw [List.length_map]
      exact Nat.lt_of_lt_of_le (Nat.lt_succ_self _) (Nat.le_succ_of_le bound)

end Walking

end PipelineM

namespace DefaultChannelPipeline

/-- What the pipeline shows is the list: read forwards from `head`, backwards from `tail`,
as a map, and through the name map. -/
def Spells (this : DefaultChannelPipeline) (entries : List Entry) : Prop :=
  ∃ addresses : List Address,
    (walk (·.next) (this.fresh + 1) this.head).run this = .ok addresses this ∧
    (walk (·.prev) (this.fresh + 1) this.tail).run this = .ok addresses.reverse this ∧
    addresses.map this.entryAt = entries.map some ∧
    toMap.run this = .ok entries this ∧
    (entries.map Prod.fst).Nodup ∧
    ∀ name address, this.name2ctx.find name = some address ↔
      address ∈ addresses ∧ (this.contexts address).map (·.name) = some name

/-- The pipeline is in order and its map is up to date. -/
structure Represents (this : DefaultChannelPipeline) (entries : List Entry) : Prop where
  sound : Sound this
  items : ∃ items : List Item,
    this.view.InOrder items ∧ this.view.Current items ∧ items.map Prod.snd = entries

theorem Represents.spells {this : DefaultChannelPipeline} {entries : List Entry}
    (represents : Represents this entries) : Spells this entries := by
  rcases represents.items with ⟨items, order, current, same⟩
  subst same
  have held : ∀ address ∈ items.map Prod.fst, ∃ ctx, this.contexts address = some ctx := by
    intro address inside
    rcases List.mem_map.mp inside with ⟨item, member, same⟩
    rcases contexts_of_listed order member with ⟨ctx, found, _⟩
    rw [same] at found
    exact ⟨ctx, found⟩
  have enough : (items.map Prod.fst).length < this.fresh + 1 := by
    rw [List.length_map]
    exact Nat.lt_succ_of_le (length_le_fresh order.listed)
  have enough_back : (items.map Prod.fst).reverse.length < this.fresh + 1 := by
    rw [List.length_reverse]
    exact enough
  refine ⟨items.map Prod.fst, ?_, ?_, ?_, run_toMap order, ?_, ?_⟩
  · exact run_walk (points_next this) held order.listed.forward enough
  · apply run_walk (points_prev this) _ order.listed.backward enough_back
    exact fun address inside => held address (List.mem_reverse.mp inside)
  · rw [List.map_map, List.map_map]
    exact List.map_congr_left order.listed.spelled
  · rw [List.map_map]
    exact order.keyed.unique
  · intro name address
    constructor
    · intro known
      rcases current name address known with ⟨handler, inside⟩
      rcases contexts_of_listed order inside with ⟨ctx, found, same⟩
      refine ⟨List.mem_map.mpr ⟨_, inside, rfl⟩, ?_⟩
      rw [found]
      exact congrArg (fun entry : Entry => some entry.1) same
    · rintro ⟨inside, named⟩
      rcases List.mem_map.mp inside with ⟨item, member, same⟩
      rcases contexts_of_listed order member with ⟨ctx, found, entry⟩
      rw [same] at found
      rw [found] at named
      have its_name : item.2.1 = name := by
        rw [← entry]
        exact Option.some.inj named
      cases known : this.name2ctx.find name with
      | none => exact absurd known ((order.keyed.known name).mpr ⟨item, member, its_name⟩)
      | some other =>
          rcases current name other known with ⟨handler, among⟩
          have equal := List.inj_on_of_nodup_map order.keyed.unique among member its_name.symm
          rw [← equal] at same
          rw [← same]

end DefaultChannelPipeline

namespace Modification

/-- The handler that comes knows nothing of its life cycle. -/
def plain (modification : Modification) : Prop :=
  ∀ handler, modification.comes = some handler → handler.lifeCycleAware = false

/-- A replacement under the name there was. -/
def keepsName : Modification → Prop
  | .replace oldName newName (some _) => oldName = newName
  | _ => False

variable {modification : Modification}

theorem stays_of_plain (plain : modification.plain)
    (throws : LifeCycleCall → Address → Bool) (fresh : Address) :
    modification.out throws fresh = false := by
  unfold out
  cases handler : modification.comes with
  | none => rfl
  | some handler' =>
      rw [Option.any_some]
      unfold takesOut
      rw [plain handler' handler, Bool.false_and]

theorem names_apart (renames : ¬modification.keepsName)
    (entries : List Entry) :
    ∀ old ∈ (modification.exchange entries).olds, ∀ new ∈ (modification.exchange entries).news,
      old.1 ≠ new.1 := by
  intro old gone new come
  cases modification with
  | replace oldName newName handler =>
      cases handler with
      | none => cases gone
      | some handler =>
          change old ∈ (entries.dropWhile (·.1 ≠ oldName)).take 1 at gone
          have named := List.head?_dropWhile_not (fun entry : Entry => decide (entry.1 ≠ oldName))
            entries
          cases rest : entries.dropWhile (·.1 ≠ oldName) with
          | nil =>
              rw [rest] at gone
              cases gone
          | cons entry others =>
              rw [rest] at gone named
              change old ∈ [entry] at gone
              rw [List.mem_singleton.mp gone]
              rw [List.mem_singleton.mp come]
              have same : entry.1 = oldName := by simpa using named
              rw [same]
              exact renames
  | addFirst name handler =>
      cases handler with
      | none => cases gone
      | some handler => cases gone
  | addLast name handler =>
      cases handler with
      | none => cases gone
      | some handler => cases gone
  | addBefore baseName name handler =>
      cases handler with
      | none => cases gone
      | some handler => cases gone
  | addAfter baseName name handler =>
      cases handler with
      | none => cases gone
      | some handler => cases gone
  | remove name => cases come
  | removeFirst => cases come
  | removeLast => cases come

end Modification

namespace DefaultChannelPipeline

/-- A call with a handler that is not life-cycle aware, which returns. -/
def Calls (before : DefaultChannelPipeline) (modification : Modification)
    (after : DefaultChannelPipeline) : Prop :=
  modification.plain ∧ ∃ throws, (perform throws modification).run before = .ok () after

theorem known_of_looksUp {throws : LifeCycleCall → Address → Bool} {modification : Modification}
    {before after : DefaultChannelPipeline}
    (ran : (perform throws modification).run before = .ok () after) {name : String}
    (looks : modification.looksUp = some name) : before.name2ctx.find name ≠ none := by
  have found {Value : Type} {next : Address → PipelineM Value} {value : Value}
      (looked : (getContextOrDie name >>= next).run before = .ok value after) :
      before.name2ctx.find name ≠ none := by
    rcases ok_of_run_bind looked with ⟨address, middle, looking, _⟩
    rw [(found_of_getContextOrDie looking).1]
    exact Option.some_ne_none address
  cases modification with
  | addBefore baseName newName handler =>
      cases handler with
      | none => cases looks
      | some handler =>
          cases looks
          exact found ran
  | addAfter baseName newName handler =>
      cases handler with
      | none => cases looks
      | some handler =>
          cases looks
          exact found ran
  | remove oldName =>
      cases looks
      rcases ok_of_run_bind ran with ⟨result, _, removing, dropped⟩
      cases dropped
      exact found removing
  | replace oldName newName handler =>
      cases handler with
      | none => cases looks
      | some handler =>
          cases looks
          rcases ok_of_run_bind ran with ⟨result, _, replacing, dropped⟩
          cases dropped
          exact found replacing
  | addFirst newName handler => cases looks
  | addLast newName handler => cases looks
  | removeFirst => cases looks
  | removeLast => cases looks

theorem represents_empty : Represents empty [] where
  sound := sound_empty
  items := by
    refine ⟨[], ⟨⟨List.nodup_nil, nofun, nofun, chain_nil.mpr rfl, chain_nil.mpr rfl⟩, ?_, ?_⟩,
      ?_, rfl⟩
    · intro address entry here
      cases here
    · refine ⟨?_, List.nodup_nil⟩
      intro name
      constructor
      · intro known
        exact absurd rfl known
      · rintro ⟨item, inside, _⟩
        cases inside
    · intro name address known
      cases known

/-- One call does to the pipeline what it is meant to do to the list. -/
theorem Represents.step {before after : DefaultChannelPipeline} {entries : List Entry}
    {modification : Modification} (represents : Represents before entries)
    (renames : ¬modification.keepsName) (called : Calls before modification after) :
    Represents after (modification.on entries) := by
  rcases represents.items with ⟨items, order, current, same⟩
  subst same
  rcases called with ⟨plain, throws, ran⟩
  have sound := (sound_perform throws modification).after_ok represents.sound ran
  have unique : ((items.map Prod.snd).map Prod.fst).Nodup := by
    rw [List.map_map]
    exact order.keyed.unique
  have known : ∀ name, modification.looksUp = some name →
      name ∈ (items.map Prod.snd).map Prod.fst := by
    intro name looks
    rcases (order.keyed.known name).mp (known_of_looksUp ran looks) with ⟨item, inside, named⟩
    rw [List.map_map]
    exact List.mem_map.mpr ⟨item, inside, named⟩
  have meant := modification.on_eq_exchange unique known
  have apart := Modification.names_apart renames (items.map Prod.snd)
  rcases settledBy_perform represents.sound order ran with
    ⟨front, olds, news, back, split, exchange, settled⟩
  rw [exchange] at meant apart
  rw [Modification.stays_of_plain plain] at settled
  refine ⟨sound, front ++ news ++ back, settled.order, ?_, ?_⟩
  · apply settled.current
    · intro old gone new come
      exact apart old.2 (List.mem_map_of_mem gone) new.2 (List.mem_map_of_mem come)
    · rw [← split]
      exact current
  · rw [meant, List.map_append, List.map_append]

theorem Represents.run {before after : DefaultChannelPipeline} {entries : List Entry}
    {actions : List Modification} (represents : Represents before entries)
    (run : Run (Guarded (fun _ modification => ¬modification.keepsName) Calls) before actions
      after) : Represents after (actions.foldl Modification.on entries) := by
  induction run generalizing entries with
  | nil state => exact represents
  | cons first later ih => exact ih (represents.step first.1 first.2)

theorem plain_plainHandler (modification : Modification) (id : Nat)
    (comes : modification.comes = some (plainHandler id)) : modification.plain := by
  intro handler this
  rw [comes] at this
  cases this
  rfl

/-- The pipeline with "codec", "logic" and "log". -/
def codecLogicLog : DefaultChannelPipeline :=
  stateAfter (perform noneThrows (.addLast "log" (some (plainHandler 2)))) codecAndLogic

/-- Its "logic" replaced under the same name. -/
def logicReplaced : DefaultChannelPipeline :=
  stateAfter (perform noneThrows (.replace "logic" "logic" (some (plainHandler 3)))) codecLogicLog

end DefaultChannelPipeline

namespace DefaultChannelPipeline

/-- The list, as `toMap` returns it. -/
def listed (this : DefaultChannelPipeline) : List Entry :=
  match toMap.run this with
  | .ok entries _ => entries
  | .error _ _ => []

/-- The contexts among these whose handlers take upstream events. -/
def upstreamOf (this : DefaultChannelPipeline) (addresses : List Address) : List Address :=
  addresses.filter (fun address => (this.contexts address).any (·.canHandleUps))

def downstreamOf (this : DefaultChannelPipeline) (addresses : List Address) : List Address :=
  addresses.filter (fun address => (this.contexts address).any (·.canHandleDowns))

/-- Upstream events visit the list's handlers for them in order, downstream events theirs
in reverse. -/
def RoutesEvents (this : DefaultChannelPipeline) : Prop :=
  ∃ addresses : List Address,
    (walk (·.next) (this.fresh + 1) this.head).run this = .ok addresses this ∧
    (walk (·.nextUpstream) (this.fresh + 1) this.upstreamHead).run this =
      .ok (this.upstreamOf addresses) this ∧
    (walk (·.nextDownstream) (this.fresh + 1) this.downstreamHead).run this =
      .ok (this.downstreamOf addresses).reverse this ∧
    this.upstreamHead = (this.upstreamOf addresses).head? ∧
    this.downstreamHead = (this.downstreamOf addresses).reverse.head?

/-- A call that returns. -/
def Returns (before : DefaultChannelPipeline)
    (action : (LifeCycleCall → Address → Bool) × Modification)
    (after : DefaultChannelPipeline) : Prop :=
  (perform action.1 action.2).run before = .ok () after

/-- The modification leaves no link to a context it takes away. -/
def KeepsRoutes (this : DefaultChannelPipeline)
    (action : (LifeCycleCall → Address → Bool) × Modification) : Prop :=
  let exchange := action.2.exchange this.listed
  let out := action.2.out action.1 this.fresh
  let alone := action.2.alone action.1 this.fresh
  Route.upstream.Spares exchange.front exchange.olds exchange.news exchange.back out alone ∧
    Route.downstream.Spares exchange.front exchange.olds exchange.news exchange.back out alone

structure Routing (this : DefaultChannelPipeline) : Prop where
  sound : Sound this
  items : ∃ items : List Item, this.view.InOrder items ∧
    Route.upstream.Routed this.view items ∧ Route.downstream.Routed this.view items

theorem routing_empty : Routing empty where
  sound := sound_empty
  items := by
    rcases represents_empty.items with ⟨items, order, _, same⟩
    have nothing : items = [] := List.map_eq_nil_iff.mp same
    subst nothing
    exact ⟨[], order, chain_nil.mpr rfl, chain_nil.mpr rfl⟩

theorem listed_of_order {this : DefaultChannelPipeline} {items : List Item}
    (order : this.view.InOrder items) : this.listed = items.map Prod.snd := by
  unfold listed
  rw [run_toMap order]

theorem Routing.step {before after : DefaultChannelPipeline}
    {action : (LifeCycleCall → Address → Bool) × Modification} (routing : Routing before)
    (keeps : KeepsRoutes before action) (ran : Returns before action after) : Routing after := by
  rcases routing.items with ⟨items, order, upstream, downstream⟩
  rcases settledBy_perform routing.sound order ran with
    ⟨front, olds, news, back, split, exchange, settled⟩
  unfold KeepsRoutes at keeps
  rw [listed_of_order order] at keeps
  simp only [exchange] at keeps
  rw [split] at upstream downstream
  exact ⟨(sound_perform action.1 action.2).after_ok routing.sound ran, _, settled.order,
    settled.upstream keeps.1 upstream, settled.downstream keeps.2 downstream⟩

theorem stops_filter {this : DefaultChannelPipeline} {items : List Item} {route : Route}
    (listed : this.view.Listed items)
    (field : DefaultChannelHandlerContext → Bool)
    (same : ∀ ctx, field ctx = route.can ctx.handler) :
    route.stops items =
      route.along ((items.map Prod.fst).filter (fun address =>
        (this.contexts address).any field)) := by
  have able : (fun address => (this.contexts address).any field) = route.able this.view := by
    funext address
    unfold Route.able
    change _ = Option.any _ ((this.contexts address).map _)
    cases this.contexts address with
    | none => rfl
    | some ctx => exact same ctx
  rw [← Route.stations_listed listed, able]
  unfold Route.stations Route.along
  split
  · rw [List.filter_reverse]
  · rfl

theorem Routing.routes {this : DefaultChannelPipeline} (routing : Routing this) :
    RoutesEvents this := by
  rcases routing.items with ⟨items, order, upstream, downstream⟩
  have held : ∀ address ∈ items.map Prod.fst, ∃ ctx, this.contexts address = some ctx := by
    intro address inside
    rcases List.mem_map.mp inside with ⟨item, member, same⟩
    rcases contexts_of_listed order member with ⟨ctx, found, _⟩
    rw [same] at found
    exact ⟨ctx, found⟩
  have bound : (items.map Prod.fst).length < this.fresh + 1 := by
    rw [List.length_map]
    exact Nat.lt_succ_of_le (length_le_fresh order.listed)
  have shorter (kept : Address → Bool) :
      ((items.map Prod.fst).filter kept).length < this.fresh + 1 :=
    Nat.lt_of_le_of_lt (List.length_filter_le ..) bound
  have held_kept (kept : Address → Bool) :
      ∀ address ∈ (items.map Prod.fst).filter kept,
        ∃ ctx, this.contexts address = some ctx :=
    fun address inside => held address (List.mem_filter.mp inside).1
  unfold Route.Routed at upstream downstream
  rw [stops_filter order.listed (·.canHandleUps) (fun _ => rfl)] at upstream
  rw [stops_filter order.listed (·.canHandleDowns) (fun _ => rfl)] at downstream
  change Chain this.view.up (this.upstreamOf (items.map Prod.fst)) at upstream
  change Chain this.view.down (this.downstreamOf (items.map Prod.fst)).reverse at downstream
  have points_up : ∀ address ctx, this.contexts address = some ctx →
      this.view.up (some address) = ctx.nextUpstream := by
    intro address ctx found
    have pointed : linkOf this.contexts (·.nextUpstream) this.upstreamHead (some address) =
        ctx.nextUpstream := linkOf_found found
    exact pointed
  have points_down : ∀ address ctx, this.contexts address = some ctx →
      this.view.down (some address) = ctx.nextDownstream := by
    intro address ctx found
    have pointed : linkOf this.contexts (·.nextDownstream) this.downstreamHead (some address) =
        ctx.nextDownstream := linkOf_found found
    exact pointed
  refine ⟨items.map Prod.fst, run_walk (points_next this) held order.listed.forward bound,
    run_walk points_up (held_kept _) upstream (shorter _), ?_, upstream.first, downstream.first⟩
  apply run_walk points_down _ downstream
  · rw [List.length_reverse]
    exact shorter _
  · exact fun address inside => held_kept _ address (List.mem_reverse.mp inside)

/-- A handler of upstream events only. -/
def upstreamHandler (id : Nat) : ChannelHandler := ⟨id, true, false, false⟩

def loggedCodec : DefaultChannelPipeline :=
  stateAfter (perform noneThrows (.addFirst "log" (some (upstreamHandler 2))))
    (stateAfter (perform noneThrows (.addLast "codec" (some (plainHandler 0)))) empty)

/-- The pipeline with "codec" and "logic" after `removeLast`. -/
def codecLeft : DefaultChannelPipeline :=
  stateAfter (perform noneThrows .removeLast) codecAndLogic

end DefaultChannelPipeline

end Cetty
