import Mathlib.Data.List.Chain
import Mathlib.Data.List.Nodup

/-!
# Chains of links

A link function sends each place to the place after it. The place `none` stands before the
first item and after the last: a chain spells a list of items when following its links
from `none` visits them in order and comes back to `none`.
-/

namespace LinkedChains

variable {Item : Type}

abbrev Link (Item : Type) := Option Item → Option Item

/-- Each place but the last leads to the one after it. -/
def Leads (link : Link Item) (places : List (Option Item)) : Prop :=
  places.IsChain (fun place next => link place = next)

def Chain (link : Link Item) (items : List Item) : Prop :=
  Leads link (none :: items.map some ++ [none])

variable {link other : Link Item}

theorem leads_pair {place next : Option Item} :
    Leads link [place, next] ↔ link place = next := List.isChain_pair

theorem leads_cons {place next : Option Item} {rest : List (Option Item)} :
    Leads link (place :: next :: rest) ↔ link place = next ∧ Leads link (next :: rest) :=
  List.isChain_cons_cons

/-- Two ways that meet at a place. -/
theorem leads_split {early late : List (Option Item)} {place : Option Item} :
    Leads link (early ++ place :: late) ↔
      Leads link (early ++ [place]) ∧ Leads link (place :: late) := List.isChain_split

theorem Leads.transport {places : List (Option Item)}
    (leads : Leads link places) (same : ∀ place ∈ places.dropLast, other place = link place) :
    Leads other places := by
  induction places with
  | nil => exact List.isChain_nil
  | cons place rest ih =>
      cases rest with
      | nil => exact List.isChain_singleton place
      | cons next rest =>
          rcases leads_cons.mp leads with ⟨now, later⟩
          rw [List.dropLast_cons_cons] at same
          apply leads_cons.mpr
          constructor
          · rw [same place List.mem_cons_self]
            exact now
          · exact ih later (fun other among => same other (List.mem_cons_of_mem _ among))

/-- The places up to the last item in front. -/
theorem places_front (front : List Item) :
    ∃ early, none :: front.map some = early ++ [front.getLast?] ∧
      ∀ place ∈ early, place ∈ none :: front.map some ∧
        (front.Nodup → place ≠ front.getLast?) := by
  rcases List.eq_nil_or_concat front with empty | ⟨init, last, split⟩
  · subst empty
    exact ⟨[], rfl, by simp⟩
  · rw [List.concat_eq_append] at split
    subst split
    refine ⟨none :: init.map some, by simp, ?_⟩
    intro place among
    constructor
    · rw [List.map_append]
      exact List.mem_append_left ([last].map some) among
    intro distinct same
    rw [List.getLast?_append, List.getLast?_singleton, Option.some_or] at same
    rw [same] at among
    rcases List.mem_cons.mp among with absent | earlier
    · cases absent
    · rcases List.mem_map.mp earlier with ⟨item, inside, this⟩
      cases this
      exact List.disjoint_of_nodup_append distinct inside (List.mem_singleton_self _)

/-- The places from the first item behind. -/
theorem places_back (back : List Item) :
    ∃ late, back.map some ++ [none] = back.head? :: late ∧
      (back.map some ++ [none]).dropLast = back.map some := by
  cases back with
  | nil => exact ⟨[], rfl, rfl⟩
  | cons first rest => exact ⟨rest.map some ++ [none], rfl, List.dropLast_concat⟩

/-- A chain cut at two seams. -/
theorem chain_cut (front middle back : List Item) :
    Chain link (front ++ middle ++ back) ↔
      Leads link (none :: front.map some) ∧
        Leads link (front.getLast? :: (middle.map some ++ [back.head?])) ∧
        Leads link (back.map some ++ [none]) := by
  rcases places_front front with ⟨early, ahead, _⟩
  rcases places_back back with ⟨late, behind, _⟩
  have whole : none :: (front ++ middle ++ back).map some ++ [none] =
      early ++ front.getLast? :: (middle.map some ++ back.head? :: late) := by
    rw [← behind]
    calc
      none :: (front ++ middle ++ back).map some ++ [none] =
          (none :: front.map some) ++ (middle.map some ++ (back.map some ++ [none])) := by simp
      _ = _ := by
        rw [ahead, List.append_assoc]
        rfl
  have seam : front.getLast? :: (middle.map some ++ back.head? :: late) =
      (front.getLast? :: middle.map some) ++ back.head? :: late := rfl
  unfold Chain
  rw [whole, leads_split, ← ahead, seam, leads_split, behind]
  rfl

/-- Between two seams other items take the place of those there were; the other links
stay. -/
theorem Chain.splice {front olds back : List Item} (news : List Item)
    (chain : Chain link (front ++ olds ++ back)) (distinct : (front ++ back).Nodup)
    (seam : Leads other (front.getLast? :: (news.map some ++ [back.head?])))
    (others : ∀ place ∈ none :: (front ++ back).map some, place ≠ front.getLast? →
      other place = link place) :
    Chain other (front ++ news ++ back) := by
  rcases (chain_cut front olds back).mp chain with ⟨ahead, _, behind⟩
  apply (chain_cut front news back).mpr
  refine ⟨ahead.transport ?_, seam, behind.transport ?_⟩
  · intro place among
    rcases places_front front with ⟨early, whole, inside⟩
    rw [whole, List.dropLast_concat] at among
    rcases inside place among with ⟨within, apart⟩
    apply others place _ (apart (List.Nodup.of_append_left distinct))
    rw [List.map_append]
    exact List.mem_append_left _ within
  · intro place among
    rcases places_back back with ⟨late, _, init⟩
    rw [init] at among
    apply others place
    · rw [List.map_append]
      exact List.mem_cons_of_mem _ (List.mem_append_right _ among)
    · intro same
      rcases List.mem_map.mp among with ⟨item, inside, this⟩
      rw [same] at this
      exact List.disjoint_of_nodup_append distinct (List.mem_of_getLast? this.symm) inside

section Places

variable {link other : Link Item} {front back : List Item}

variable {items : List Item}

theorem Chain.transport (chain : Chain link items)
    (same : ∀ place ∈ none :: items.map some, other place = link place) : Chain other items := by
  apply Leads.transport chain
  rw [List.dropLast_concat]
  exact same

theorem Chain.first {items : List Item} (chain : Chain link items) : link none = items.head? := by
  have cut := (chain_cut [] [] items).mp chain
  exact leads_pair.mp cut.2.1

/-- Where an item's link leads. -/
theorem Chain.after {item : Item} (chain : Chain link (front ++ item :: back)) :
    link (some item) = back.head? := by
  have cut := (chain_cut (front ++ [item]) [] back).mp (by simpa using chain)
  have seam := leads_pair.mp cut.2.1
  rw [List.getLast?_append, List.getLast?_singleton, Option.some_or] at seam
  exact seam

theorem Chain.last (chain : Chain link items) :
    link items.getLast? = none := by
  have cut := (chain_cut items [] []).mp (by simpa using chain)
  exact leads_pair.mp cut.2.1

end Places

/-- The last item has no link on after an exchange, unless it was made to point at what went. -/
theorem Chain.loose_end {front olds news back : List Item}
    (chain : Chain link (front ++ olds ++ back))
    (stays : olds ≠ [] → news = [] → back = [] → front = [])
    (made : ∀ item ∈ news, other (some item) = none)
    (others : ∀ item ∈ front ++ back, other (some item) = link (some item)) {last : Item}
    (ends : (front ++ news ++ back).getLast? = some last) : other (some last) = none := by
  rcases List.eq_nil_or_concat back with none_behind | ⟨init, final, split⟩
  · subst none_behind
    rw [List.append_nil] at ends chain
    rcases List.eq_nil_or_concat news with none_new | ⟨init, final, split⟩
    · subst none_new
      rw [List.append_nil] at ends
      have inside := List.mem_of_getLast? ends
      have nothing_went : olds = [] := by
        by_contra gone
        rw [stays gone rfl rfl] at inside
        cases inside
      have old := chain.last
      rw [nothing_went, List.append_nil, ends] at old
      rw [others last (List.mem_append_left _ inside)]
      exact old
    · rw [List.concat_eq_append] at split
      rw [split, ← List.append_assoc, List.getLast?_concat] at ends
      cases ends
      apply made
      rw [split]
      exact List.mem_append_right _ (List.mem_singleton_self _)
  · rw [List.concat_eq_append] at split
    rw [split, ← List.append_assoc, List.getLast?_concat] at ends
    cases ends
    have old := chain.last
    rw [split, ← List.append_assoc, List.getLast?_concat] at old
    rw [others]
    · exact old
    · rw [split]
      exact List.mem_append_right _ (List.mem_append_right _ (List.mem_singleton_self _))

section Edits

variable [DecidableEq Item] {link : Link Item} {front olds back : List Item} {item : Item}

section

variable (chain : Chain link (front ++ olds ++ back)) (distinct : (front ++ back).Nodup)

include chain distinct

/-- A new item between two neighbours, in the place of those that were between them. -/
theorem Chain.put (apart : item ∉ front ++ back) :
    Chain (Function.update (Function.update link (some item) back.head?) front.getLast?
      (some item)) (front ++ item :: back) := by
  have moved : some item ≠ front.getLast? := by
    intro same
    exact apart (List.mem_append_left _ (List.mem_of_getLast? same.symm))
  have spliced := chain.splice [item] distinct
    (leads_cons.mpr ⟨Function.update_self front.getLast? (some item)
        (Function.update link (some item) back.head?),
      leads_pair.mpr (by rw [Function.update_of_ne moved, Function.update_self])⟩)
  rw [List.append_assoc] at spliced
  apply spliced
  intro place among other
  rw [Function.update_of_ne other, Function.update_of_ne]
  intro same
  rw [same] at among
  rcases List.mem_map.mp (List.mem_of_ne_of_mem (Option.some_ne_none item) among) with
    ⟨kept, inside, this⟩
  cases this
  exact apart inside

/-- The neighbours of what goes are linked to each other. -/
theorem Chain.cut :
    Chain (Function.update link front.getLast? back.head?) (front ++ back) := by
  have spliced := chain.splice [] distinct
    (leads_pair.mpr (Function.update_self front.getLast? back.head? link))
  rw [List.append_nil] at spliced
  apply spliced
  intro place _ other
  rw [Function.update_of_ne other]

end

section

variable (chain : Chain link (front ++ olds ++ back).reverse) (distinct : (front ++ back).Nodup)

include chain distinct

theorem Chain.put_reverse (apart : item ∉ front ++ back) :
    Chain (Function.update (Function.update link (some item) front.getLast?) back.head?
      (some item)) (front ++ item :: back).reverse := by
  rw [List.reverse_append, List.reverse_append, ← List.append_assoc] at chain
  rw [← List.nodup_reverse, List.reverse_append] at distinct
  rw [← List.mem_reverse, List.reverse_append] at apart
  have placed := chain.put distinct apart
  rw [List.getLast?_reverse, List.head?_reverse] at placed
  rw [List.reverse_append, List.reverse_cons, List.append_assoc]
  exact placed

theorem Chain.cut_reverse :
    Chain (Function.update link back.head? front.getLast?) (front ++ back).reverse := by
  rw [List.reverse_append, List.reverse_append, ← List.append_assoc] at chain
  rw [← List.nodup_reverse, List.reverse_append] at distinct
  have joined := chain.cut distinct
  rw [List.getLast?_reverse, List.head?_reverse] at joined
  rw [List.reverse_append]
  exact joined

end

variable {items : List Item}

/-- The link of an item outside the chain. -/
theorem Chain.update_apart (chain : Chain link items) (apart : item ∉ items)
    (next : Option Item) : Chain (Function.update link (some item) next) items := by
  apply chain.transport
  intro place among
  rw [Function.update_of_ne]
  intro same
  rw [same] at among
  rcases List.mem_map.mp (List.mem_of_ne_of_mem (Option.some_ne_none item) among) with
    ⟨kept, inside, this⟩
  cases this
  exact apart inside

/-- An item put in front; it keeps its own link when the chain is empty. -/
def regrow (link : Link Item) (item : Item) : Link Item :=
  Function.update
    (Function.update link (some item) (if link none = none then link (some item) else link none))
    none (some item)

theorem regrow_linked (item : Item) (linked : link none ≠ none) :
    regrow link item =
      Function.update (Function.update link (some item) (link none)) none (some item) := by
  unfold regrow
  rw [if_neg linked]

theorem regrow_alone (item : Item) (alone : link none = none) :
    regrow link item = Function.update link none (some item) := by
  unfold regrow
  rw [if_pos alone, Function.update_eq_self]

theorem Chain.regrow (chain : Chain link items) (apart : item ∉ items)
    (loose : items = [] → link (some item) = none) (distinct : items.Nodup) :
    Chain (LinkedChains.regrow link item) (item :: items) := by
  have whole : Chain link ([] ++ [] ++ items) := chain
  have led : (if link none = none then link (some item) else link none) = items.head? := by
    rw [chain.first]
    cases items with
    | nil =>
        rw [if_pos List.head?_nil]
        exact loose rfl
    | cons first rest => exact if_neg (Option.some_ne_none first)
  unfold LinkedChains.regrow
  rw [led]
  exact whole.put distinct apart

end Edits

theorem chain_nil : Chain link [] ↔ link none = none := leads_pair

end LinkedChains
