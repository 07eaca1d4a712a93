import Mathlib.Data.List.Nodup
import Cetty.HeaderTable

/-!
# Buckets and ring agree

As long as no list of values is stored, the chain of a bucket is the part of the ring that belongs
to it, backwards. A list of values is stored in the buckets of its positions, so the header is in the
ring but not where it is looked for. A removal takes the entries out of their chain and the ring.
-/

namespace Cetty

open CLocale MachineInt

namespace DefaultHttpHeader

namespace Table

theorem removeLater_eq (found : Node → Bool) (chain ring : List Node) :
    removeLater found chain ring =
      (chain.filter fun e => !found e, (chain.filter found).foldl unlink ring) := by
  induction chain generalizing ring with
  | nil => rfl
  | cons next rest induction =>
      rw [removeLater]
      by_cases goes : found next = true
      · simp [goes, induction]
      · simp [goes, induction]

theorem removeFirst_eq (found : Node → Bool) (chain ring : List Node) :
    removeFirst found chain ring =
      (chain.filter fun e => !found e, (chain.filter found).foldl unlink ring) := by
  induction chain generalizing ring with
  | nil => rfl
  | cons e next induction =>
      rw [removeFirst]
      by_cases goes : found e = true
      · simp [goes, induction]
      · simp [goes, removeLater_eq]

theorem unlink_all (gone ring : List Node) :
    gone.foldl unlink ring =
      ring.filter fun other => gone.all fun e => other.address != e.address := by
  induction gone generalizing ring with
  | nil => simp
  | cons e gone induction =>
      rw [List.foldl_cons, induction, unlink, List.filter_filter]
      congr 1
      funext other
      rw [List.all_cons, Bool.and_comm]

variable {i : Int} {name : Text}

theorem chain_set {table : Table} {j : Int} (width : table.entries.length = 17) (least : 0 ≤ i)
    (below : i < BUCKET_SIZE) (other : 0 ≤ j) (chain ring : List Node) (made : Nat) :
    (Table.mk (table.entries.set i.toNat chain) ring made).chain j =
      if j = i then chain else table.chain j := by
  have inside : i.toNat < table.entries.length := by
    unfold BUCKET_SIZE at below
    omega
  unfold Table.chain
  rw [List.getD_eq_getElem?_getD, List.getD_eq_getElem?_getD, List.getElem?_set]
  by_cases same : j = i
  · subst same
    rw [if_pos rfl, if_pos rfl, if_pos inside]
    rfl
  · have apart : i.toNat ≠ j.toNat := by omega
    rw [if_neg apart, if_neg same]

/-- Every chain is the part of the ring in its bucket, backwards, and the addresses tell the entries
apart. -/
structure Sound (table : Table) : Prop where
  width : table.entries.length = 17
  chains : ∀ i, 0 ≤ i → i < BUCKET_SIZE →
    table.chain i = (table.ring.filter fun e => index e.hash == i).reverse
  distinct : (table.ring.map Node.address).Nodup
  older : ∀ e ∈ table.ring, e.address < table.made
  hashed : ∀ e ∈ table.ring, e.hash = hash e.key

theorem Sound.fresh : Sound fresh where
  width := rfl
  chains := by
    intro i least below
    have inside : i.toNat < buckets := by
      unfold buckets BUCKET_SIZE at *
      omega
    unfold Table.chain Table.fresh
    rw [List.getD_eq_getElem?_getD, List.getElem?_replicate, if_pos inside]
    rfl
  distinct := List.nodup_nil
  older := fun e among => absurd among List.not_mem_nil
  hashed := fun e among => absurd among List.not_mem_nil

theorem Sound.clear (table : Table) : table.clear.Sound where
  width := rfl
  chains := by
    intro i least below
    exact Sound.fresh.chains i least below
  distinct := List.nodup_nil
  older := fun e among => absurd among List.not_mem_nil
  hashed := fun e among => absurd among List.not_mem_nil

variable {table : Table}

theorem Sound.including (sound : table.Sound) (name value : Text) :
    (table.including name value).Sound where
  width := by
    unfold Table.including Table.place
    rw [List.length_set, sound.width]
  chains := by
    intro i least below
    obtain ⟨first, last⟩ := index_bounds name
    unfold Table.including Table.place
    rw [chain_set sound.width first last least]
    dsimp only
    rw [List.filter_append]
    by_cases same : i = index (hash name)
    · rw [if_pos same, ← same, sound.chains i least below]
      simp [same]
    · have apart : ¬index (hash name) = i := fun equal => same equal.symm
      rw [if_neg same, sound.chains i least below]
      simp [apart]
  distinct := by
    unfold Table.including Table.place
    rw [List.map_append, List.nodup_append]
    refine ⟨sound.distinct, List.nodup_singleton _, ?_⟩
    intro address among other last
    obtain ⟨e, before, same⟩ := List.mem_map.mp among
    have older := sound.older e before
    rw [List.mem_singleton.mp last, ← same]
    exact Nat.ne_of_lt older
  older := by
    intro e among
    unfold Table.including Table.place at among ⊢
    rcases List.mem_append.mp among with before | last
    · exact Nat.lt_succ_of_lt (sound.older e before)
    · rw [List.mem_singleton.mp last]
      exact Nat.lt_succ_self _
  hashed := by
    intro e among
    unfold Table.including Table.place at among
    rcases List.mem_append.mp among with before | last
    · exact sound.hashed e before
    · rw [List.mem_singleton.mp last]

/-- The ring loses the entries that are found in the chain. -/
theorem removeHeader_ring (distinct : (table.ring.map Node.address).Nodup)
    (chained : ∀ e ∈ table.chain i, e ∈ table.ring) (found : Node → Bool) :
    (table.removeHeader i found).ring =
      table.ring.filter fun e => !(found e && decide (e ∈ table.chain i)) := by
  unfold Table.removeHeader
  rw [removeFirst_eq, unlink_all]
  refine List.filter_congr fun e among => ?_
  cases goes : found e && decide (e ∈ table.chain i) with
  | true =>
      obtain ⟨taken, inside⟩ := Bool.and_eq_true_iff.mp goes
      have listed : e ∈ (table.chain i).filter found :=
        List.mem_filter.mpr ⟨of_decide_eq_true inside, taken⟩
      rw [Bool.not_true, List.all_eq_false]
      refine ⟨e, listed, ?_⟩
      rw [bne_self_eq_false]
      exact Bool.false_ne_true
  | false =>
      rw [Bool.not_false, List.all_eq_true]
      intro other listed
      obtain ⟨inside, taken⟩ := List.mem_filter.mp listed
      have different : e ≠ other := by
        intro same
        rw [same, taken, decide_eq_true inside] at goes
        cases goes
      rw [bne_iff_ne]
      intro equal
      exact different (List.inj_on_of_nodup_map distinct among (chained other inside) equal)

section

variable (sound : table.Sound) {i : Int} {found : Node → Bool} (least : 0 ≤ i)
  (below : i < BUCKET_SIZE) (here : ∀ e ∈ table.ring, found e = true → index e.hash = i)

include sound least below here

/-- Entries of one bucket are taken out of the ring and out of its chain. -/
theorem Sound.removeHeader_ring :
    (table.removeHeader i found).ring = table.ring.filter fun e => !found e := by
  have chains := sound.chains i least below
  have chained : ∀ e ∈ table.chain i, e ∈ table.ring := by
    intro e inside
    rw [chains, List.mem_reverse] at inside
    exact List.mem_of_mem_filter inside
  rw [Table.removeHeader_ring sound.distinct chained]
  refine List.filter_congr fun e among => ?_
  cases goes : found e with
  | false => rfl
  | true =>
      have inside : e ∈ table.chain i := by
        rw [chains, List.mem_reverse, List.mem_filter]
        exact ⟨among, beq_iff_eq.mpr (here e among goes)⟩
      rw [decide_eq_true inside]
      rfl

theorem Sound.removeHeader :
    (table.removeHeader i found).Sound where
  width := by
    unfold Table.removeHeader
    rw [List.length_set, sound.width]
  chains := by
    intro j other under
    rw [sound.removeHeader_ring least below here]
    unfold Table.removeHeader
    rw [chain_set sound.width least below other, removeFirst_eq, List.filter_filter]
    by_cases same : j = i
    · subst same
      rw [if_pos rfl, sound.chains j other under, List.filter_reverse, List.filter_filter]
      dsimp only
      congr 1
      refine List.filter_congr fun e _ => ?_
      rw [Bool.and_comm]
    · rw [if_neg same, sound.chains j other under]
      congr 1
      refine List.filter_congr fun e among => ?_
      cases goes : found e with
      | false => rw [Bool.not_false, Bool.and_true]
      | true =>
          have apart : index e.hash ≠ j := fun equal => same (equal.symm.trans (here e among goes))
          rw [beq_false_of_ne apart, Bool.false_and]
  distinct := by
    rw [sound.removeHeader_ring least below here]
    exact sound.distinct.sublist (List.filter_sublist.map _)
  older := by
    intro e among
    rw [sound.removeHeader_ring least below here] at among
    exact sound.older e (List.mem_of_mem_filter among)
  hashed := by
    intro e among
    rw [sound.removeHeader_ring least below here] at among
    exact sound.hashed e (List.mem_of_mem_filter among)

end

theorem holds_index {h : Int} {e : Node} (found : holds h name e = true) :
    index e.hash = index h := by
  have same := (Bool.and_eq_true_iff.mp found).1
  rw [eq_of_beq same]

theorem Sound.without (sound : table.Sound) (name : Text) : (table.without name).Sound := by
  obtain ⟨least, below⟩ := index_bounds name
  exact sound.removeHeader least below fun e _ found => holds_index found

theorem Sound.withoutValue (sound : table.Sound) (name value : Text) :
    (table.withoutValue name value).Sound := by
  obtain ⟨least, below⟩ := index_bounds name
  exact sound.removeHeader least below fun e _ found =>
    holds_index (Bool.and_eq_true_iff.mp found).1

/-- No stored header has an empty name. -/
def Named (table : Table) : Prop := ∀ e ∈ table.ring, e.key ≠ []

section

variable (named : table.Named) (sound : table.Sound)

include named sound

theorem Named.removeHeader {i : Int}
    {found : Node → Bool} (least : 0 ≤ i) (below : i < BUCKET_SIZE)
    (here : ∀ e ∈ table.ring, found e = true → index e.hash = i) :
    (table.removeHeader i found).Named := by
  intro e among
  rw [sound.removeHeader_ring least below here] at among
  exact named e (List.mem_of_mem_filter among)

theorem Named.without (name : Text) :
    (table.without name).Named := by
  obtain ⟨least, below⟩ := index_bounds name
  exact named.removeHeader sound least below fun e _ found => holds_index found

theorem Named.withoutValue (name value : Text) :
    (table.withoutValue name value).Named := by
  obtain ⟨least, below⟩ := index_bounds name
  exact named.removeHeader sound least below fun e _ found =>
    holds_index (Bool.and_eq_true_iff.mp found).1

end

theorem Named.including (named : table.Named) (nonempty : name ≠ []) (value : Text) :
    (table.including name value).Named := by
  intro e among
  unfold Table.including Table.place at among
  rcases List.mem_append.mp among with before | last
  · exact named e before
  · rw [List.mem_singleton.mp last]
    exact nonempty

/-- Buckets and ring hold the same entries, each in the bucket of its key, and every listed name is
found. -/
structure Linked (table : Table) : Prop where
  placed : ∀ e ∈ table.ring, 0 ≤ index (hash e.key) ∧ index (hash e.key) < BUCKET_SIZE ∧
    ∀ i, 0 ≤ i → i < BUCKET_SIZE → (e ∈ table.chain i ↔ i = index (hash e.key))
  onRing : ∀ i, 0 ≤ i → i < BUCKET_SIZE → ∀ e ∈ table.chain i, e ∈ table.ring
  found : ∀ name, (∃ e ∈ table.ring, eq name e.key = true) →
    ∃ e ∈ table.ring, eq name e.key = true ∧ table.find name = some e

theorem eq_nil (name : Text) : eq [] name = true ↔ name = [] := by
  unfold eq
  rw [beq_iff_eq, List.map_nil, eq_comm, List.map_eq_nil_iff]

theorem Sound.mem_chain (sound : table.Sound) (least : 0 ≤ i) (below : i < BUCKET_SIZE)
    (e : Node) : e ∈ table.chain i ↔ e ∈ table.ring ∧ index (hash e.key) = i := by
  rw [sound.chains i least below, List.mem_reverse, List.mem_filter, beq_iff_eq]
  constructor
  · rintro ⟨among, here⟩
    exact ⟨among, sound.hashed e among ▸ here⟩
  · rintro ⟨among, here⟩
    exact ⟨among, (sound.hashed e among).symm ▸ here⟩

theorem Sound.linked (sound : table.Sound) (named : table.Named) : table.Linked where
  placed := by
    intro e among
    obtain ⟨least, below⟩ := index_bounds e.key
    refine ⟨least, below, fun i first last => ?_⟩
    rw [sound.mem_chain first last]
    constructor
    · exact fun inside => inside.2.symm
    · exact fun here => ⟨among, here.symm⟩
  onRing := by
    intro i least below e inside
    exact ((sound.mem_chain least below e).mp inside).1
  found := by
    rintro name ⟨e, among, same⟩
    obtain ⟨least, below⟩ := index_bounds name
    have nonempty : name ≠ [] := by
      intro empty
      rw [empty, eq_nil] at same
      exact named e among same
    have matching : holds (hash name) name e = true := by
      unfold holds
      rw [sound.hashed e among, ← hash_of_eq same, same, Bool.and_true]
      exact beq_self_eq_true _
    have inside : e ∈ table.chain (index (hash name)) := by
      rw [sound.mem_chain least below, hash_of_eq same]
      exact ⟨among, rfl⟩
    cases first : (table.chain (index (hash name))).find? (holds (hash name) name) with
    | none => exact absurd matching (List.find?_eq_none.mp first e inside)
    | some other =>
        have listed := ((sound.mem_chain least below other).mp (List.mem_of_find?_eq_some first)).1
        have matches_ : holds (hash name) name other = true := List.find?_some first
        have equal := (Bool.and_eq_true_iff.mp matches_).2
        refine ⟨other, listed, equal, ?_⟩
        unfold find
        rw [if_neg nonempty, first]

end Table

/-- The bucket of a stored list is right when nothing is stored, or one value of a name that belongs
to the first bucket. -/
def OneInPlace (name : Text) (values : List Text) : Prop :=
  validName name = true → stored values = [] ∨
    index (hash name) = 0 ∧ (stored values).length = 1

namespace Call

def InPlace : Call → Prop
  | .setList name values => OneInPlace name values
  | .setInts name values => OneInPlace name (values.map decimal)
  | _ => True

/-- The call stores no header with an empty name. -/
def GivesName : Call → Prop
  | .add name value => name = [] → validValue value = false
  | .addInt name value => name = [] → validValue (decimal value) = false
  | .set name value => name = [] → value = [] ∨ validValue value = false
  | .setInt name value => name = [] → decimal value = [] ∨ validValue (decimal value) = false
  | .setList name values => name = [] → stored values = []
  | .setInts name values => name = [] → stored (values.map decimal) = []
  | _ => True

end Call

namespace Table

variable {table : Table}

theorem performs_add (sound : table.Sound) (name value : Text) :
    ∃ next, after (add name value) table = some next ∧ next.Sound ∧
      (table.Named → (name = [] → validValue value = false) → next.Named) := by
  rw [after_add]
  by_cases both : (validName name && validValue value) = true
  · rw [if_pos both]
    refine ⟨_, rfl, sound.including name value, fun named gives => named.including ?_ value⟩
    intro empty
    rw [gives empty, Bool.and_false] at both
    cases both
  · rw [if_neg both]
    exact ⟨_, rfl, sound, fun named _ => named⟩

theorem performs_set (sound : table.Sound) (name value : Text) :
    ∃ next, after (setValue name value) table = some next ∧ next.Sound ∧
      (table.Named → (name = [] → value = [] ∨ validValue value = false) → next.Named) := by
  rw [after_setValue]
  by_cases stores : value ≠ [] ∧ validName name = true ∧ validValue value = true
  · rw [if_pos stores]
    refine ⟨_, rfl, (sound.without name).including name value, fun named gives => ?_⟩
    refine (named.without sound name).including (fun empty => ?_) value
    rcases gives empty with nothing | refused
    · exact stores.1 nothing
    · exact absurd stores.2.2 (Bool.eq_false_iff.mp refused)
  · rw [if_neg stores]
    exact ⟨_, rfl, sound, fun named _ => named⟩

theorem performs_setList (sound : table.Sound) {name : Text} {values : List Text}
    (place : OneInPlace name values) :
    ∃ next, after (setList name values) table = some next ∧ next.Sound ∧
      (table.Named → (name = [] → stored values = []) → next.Named) := by
  rw [after_setList]
  by_cases stores : values ≠ [] ∧ validName name = true
  · rw [if_pos stores]
    rcases place stores.2 with nothing | ⟨first, single⟩
    · rw [nothing, List.length_nil, if_pos (Nat.zero_le _)]
      exact ⟨_, rfl, sound.without name, fun named _ => named.without sound name⟩
    · rw [single, if_pos (by omega)]
      obtain ⟨value, only⟩ := List.length_eq_one_iff.mp single
      rw [only]
      have same : placeAll (hash name) name 0 [value] (table.without name) =
          (table.without name).including name value := by
        unfold Table.including
        rw [first]
        rfl
      rw [same]
      refine ⟨_, rfl, (sound.without name).including name value, fun named gives => ?_⟩
      refine (named.without sound name).including (fun empty => ?_) value
      have nothing := gives empty
      cases nothing
  · rw [if_neg stores]
    exact ⟨_, rfl, sound, fun named _ => named⟩

/-- One call of the kind that keeps buckets and ring together. -/
theorem performs {call : Call} (sound : table.Sound) (place : call.InPlace) :
    ∃ next, table.perform call = some next ∧ next.Sound ∧
      (table.Named → call.GivesName → next.Named) := by
  cases call with
  | add name value => exact performs_add sound name value
  | addInt name value => exact performs_add sound name (decimal value)
  | remove name =>
      refine ⟨_, after_remove name table, ?_⟩
      by_cases empty : name = []
      · rw [if_pos empty]
        exact ⟨sound, fun named _ => named⟩
      · rw [if_neg empty]
        exact ⟨sound.without name, fun named _ => named.without sound name⟩
  | removeValue name value =>
      refine ⟨_, after_removeValue name value table, ?_⟩
      by_cases empty : name = []
      · rw [if_pos empty]
        exact ⟨sound, fun named _ => named⟩
      · rw [if_neg empty]
        exact ⟨sound.withoutValue name value, fun named _ => named.withoutValue sound name value⟩
  | set name value => exact performs_set sound name value
  | setInt name value => exact performs_set sound name (decimal value)
  | setList name values => exact performs_setList sound place
  | setInts name values => exact performs_setList sound place
  | clear =>
      refine ⟨table.clear, rfl, Sound.clear table, fun _ _ e among => ?_⟩
      exact absurd among List.not_mem_nil

theorem performsAll {calls : List Call} (sound : table.Sound)
    (place : ∀ call ∈ calls, call.InPlace) :
    ∃ next, performAll calls table = some next ∧ next.Sound ∧
      (table.Named → (∀ call ∈ calls, call.GivesName) → next.Named) := by
  induction calls generalizing table with
  | nil => exact ⟨table, rfl, sound, fun named _ => named⟩
  | cons call calls induction =>
      obtain ⟨middle, first, kept, names⟩ := performs sound (place call List.mem_cons_self)
      obtain ⟨next, others, last, allNames⟩ := induction kept fun other among =>
        place other (List.mem_cons_of_mem _ among)
      refine ⟨next, ?_, last, fun named gives => ?_⟩
      · rw [performAll, List.foldlM_cons, first]
        exact others
      · exact allNames (names named (gives call List.mem_cons_self)) fun other among =>
          gives other (List.mem_cons_of_mem _ among)

theorem Linked.named (linked : table.Linked) : table.Named := by
  intro e among empty
  obtain ⟨other, _, _, found⟩ := linked.found [] ⟨e, among, (eq_nil e.key).mpr empty⟩
  cases found

theorem mem_including (table : Table) (name value : Text) :
    ∃ e ∈ (table.including name value).ring, e.key = name :=
  ⟨_, List.mem_append_right _ (List.mem_singleton_self _), rfl⟩

theorem chain_place {i j : Int} (width : table.entries.length = 17) (least : 0 ≤ i)
    (below : i < BUCKET_SIZE) (other : 0 ≤ j) (h : Int) (name value : Text) :
    (table.place h i name value).chain j =
      if j = i then ⟨table.made, h, name, value⟩ :: table.chain i else table.chain j :=
  chain_set width least below other _ _ _

section

variable {h : Int} {name : Text} {i : Nat} {values : List Text}
  (width : table.entries.length = 17) (room : i + values.length ≤ 17)

include width room

/-- Storing a list takes nothing away. -/
theorem placeAll_keeps {e : Node} {j : Int}
    (least : 0 ≤ j) (ring : e ∈ table.ring) (chain : e ∈ table.chain j) :
    e ∈ (placeAll h name i values table).ring ∧
      e ∈ (placeAll h name i values table).chain j := by
  induction values generalizing i table with
  | nil => exact ⟨ring, chain⟩
  | cons value values induction =>
      rw [List.length_cons] at room
      have below : (i : Int) < BUCKET_SIZE := by
        unfold BUCKET_SIZE
        omega
      have wide : (table.place h i name value).entries.length = 17 := by
        unfold Table.place
        rw [List.length_set, width]
      have inRing : e ∈ (table.place h i name value).ring := List.mem_append_left _ ring
      have inChain : e ∈ (table.place h i name value).chain j := by
        rw [chain_place width (Int.natCast_nonneg i) below least]
        by_cases same : j = i
        · rw [if_pos same, ← same]
          exact List.mem_cons_of_mem _ chain
        · rw [if_neg same]
          exact chain
      exact induction wide (by omega) inRing inChain

theorem placeAll_mem {j : Nat}
    (inside : j < values.length) :
    ∃ e ∈ (placeAll h name i values table).ring, e.key = name ∧
      e ∈ (placeAll h name i values table).chain ((i + j : Nat) : Int) := by
  induction values generalizing i j table with
  | nil => exact absurd inside (Nat.not_lt_zero _)
  | cons value values induction =>
      rw [List.length_cons] at room inside
      have below : (i : Int) < BUCKET_SIZE := by
        unfold BUCKET_SIZE
        omega
      have wide : (table.place h i name value).entries.length = 17 := by
        unfold Table.place
        rw [List.length_set, width]
      cases j with
      | zero =>
          have inRing : (⟨table.made, h, name, value⟩ : Node) ∈ (table.place h i name value).ring :=
            List.mem_append_right _ (List.mem_singleton_self _)
          have inChain : (⟨table.made, h, name, value⟩ : Node) ∈
              (table.place h i name value).chain i := by
            rw [chain_place width (Int.natCast_nonneg i) below (Int.natCast_nonneg i), if_pos rfl]
            exact List.mem_cons_self
          obtain ⟨ring, chain⟩ := placeAll_keeps wide (show i + 1 + values.length ≤ 17 by omega)
            (Int.natCast_nonneg i) inRing inChain
          exact ⟨_, ring, rfl, chain⟩
      | succ j =>
          obtain ⟨e, ring, key, chain⟩ := induction wide
            (show i + 1 + values.length ≤ 17 by omega) (show j < values.length by omega)
          refine ⟨e, ring, key, ?_⟩
          rw [show i + (j + 1) = i + 1 + j by omega]
          exact chain

end

section

variable {name : Text} {values : List Text} {next : Table} (sound : table.Sound)
  (performed : after (setList name values) table = some next)

include sound performed

theorem onePlace_of_linked (linked : next.Linked) : OneInPlace name values := by
  intro valid
  rw [after_setList] at performed
  by_cases empty : values = []
  · exact .inl (by rw [empty]; rfl)
  · rw [if_pos ⟨empty, valid⟩] at performed
    by_cases room : (stored values).length ≤ 17
    · rw [if_pos room] at performed
      cases performed
      have width := (sound.without name).width
      have placed : ∀ j : Nat, j < (stored values).length → (j : Int) = index (hash name) := by
        intro j inside
        obtain ⟨e, ring, key, chain⟩ := placeAll_mem width
          (show 0 + (stored values).length ≤ 17 by omega) inside
        obtain ⟨_, _, only⟩ := linked.placed e ring
        have below : ((0 + j : Nat) : Int) < BUCKET_SIZE := by
          unfold BUCKET_SIZE
          omega
        have here := (only _ (Int.natCast_nonneg _) below).mp chain
        rw [key] at here
        rw [← here, Nat.zero_add]
      by_cases nothing : stored values = []
      · exact .inl nothing
      · have some := List.length_pos_iff.mpr nothing
        have first := placed 0 some
        refine .inr ⟨first.symm, ?_⟩
        by_contra more
        have second := placed 1 (by omega)
        omega
    · rw [if_neg room] at performed
      cases performed

theorem nameless_of_named (named : next.Named)
    (empty : name = []) : stored values = [] := by
  rw [after_setList] at performed
  by_cases nothing : values = []
  · rw [nothing]
    rfl
  · have valid : validName name = true := by
      rw [empty]
      rfl
    rw [if_pos ⟨nothing, valid⟩] at performed
    by_cases room : (stored values).length ≤ 17
    · rw [if_pos room] at performed
      cases performed
      by_contra some
      have first := List.length_pos_iff.mpr some
      obtain ⟨e, ring, key, _⟩ := placeAll_mem (sound.without name).width
        (show 0 + (stored values).length ≤ 17 by omega) first
      exact named e ring (key.trans empty)
    · rw [if_neg room] at performed
      cases performed

end

theorem refused_of_add {name value : Text} {next : Table}
    (performed : after (add name value) table = some next) (named : next.Named)
    (empty : name = []) : validValue value = false := by
  rw [after_add] at performed
  have validEmpty : validName name = true := by
    rw [empty]
    rfl
  cases valid : validValue value with
  | false => rfl
  | true =>
      rw [validEmpty, valid, Bool.and_self, if_pos rfl] at performed
      cases performed
      obtain ⟨e, ring, key⟩ := mem_including table name value
      exact absurd (key.trans empty) (named e ring)

theorem refused_of_set {name value : Text} {next : Table}
    (performed : after (setValue name value) table = some next) (named : next.Named)
    (empty : name = []) : value = [] ∨ validValue value = false := by
  rw [after_setValue] at performed
  have validEmpty : validName name = true := by
    rw [empty]
    rfl
  by_cases nothing : value = []
  · exact .inl nothing
  · cases valid : validValue value with
    | false => exact .inr rfl
    | true =>
        rw [if_pos ⟨nothing, validEmpty, valid⟩] at performed
        cases performed
        obtain ⟨e, ring, key⟩ := mem_including (table.without name) name value
        exact absurd (key.trans empty) (named e ring)

/-- A call that leaves buckets and ring together was of the kind that does. -/
theorem kept_of_linked {call : Call} {next : Table} (sound : table.Sound)
    (performed : table.perform call = some next) (linked : next.Linked) :
    call.InPlace ∧ call.GivesName := by
  have named := linked.named
  cases call with
  | add name value => exact ⟨trivial, refused_of_add performed named⟩
  | addInt name value => exact ⟨trivial, refused_of_add performed named⟩
  | remove name => exact ⟨trivial, trivial⟩
  | removeValue name value => exact ⟨trivial, trivial⟩
  | set name value => exact ⟨trivial, refused_of_set performed named⟩
  | setInt name value => exact ⟨trivial, refused_of_set performed named⟩
  | setList name values =>
      exact ⟨onePlace_of_linked sound performed linked,
        nameless_of_named sound performed named⟩
  | setInts name values =>
      exact ⟨onePlace_of_linked sound performed linked,
        nameless_of_named sound performed named⟩
  | clear => exact ⟨trivial, trivial⟩

theorem linked_from_iff (sound : table.Sound) (named : table.Named) (calls : List Call) :
    (∀ first, first <+: calls → ∃ next, performAll first table = some next ∧ next.Linked) ↔
      ∀ call ∈ calls, call.InPlace ∧ call.GivesName := by
  constructor
  · intro reached
    induction calls generalizing table with
    | nil =>
        intro call among
        cases among
    | cons call calls induction =>
        obtain ⟨next, run, linked⟩ := reached [call] (List.prefix_append [call] calls)
        obtain ⟨middle, performed, rest⟩ := performAll_cons run
        cases rest
        obtain ⟨place, gives⟩ := kept_of_linked sound performed linked
        obtain ⟨same, equal, kept, names⟩ := performs sound place
        rw [performed] at equal
        cases equal
        have others := induction kept (names named gives) fun first prefix_ => by
          obtain ⟨last, run, linked⟩ := reached (call :: first)
            (List.cons_prefix_cons.mpr ⟨rfl, prefix_⟩)
          obtain ⟨middle, again, rest⟩ := performAll_cons run
          rw [performed] at again
          cases again
          exact ⟨last, rest, linked⟩
        intro other among
        rcases List.mem_cons.mp among with rfl | among
        · exact ⟨place, gives⟩
        · exact others other among
  · intro good first prefix_
    obtain ⟨next, run, kept, names⟩ := performsAll sound fun call among =>
      (good call (prefix_.subset among)).1
    exact ⟨next, run, kept.linked (names named fun call among =>
      (good call (prefix_.subset among)).2)⟩

theorem Named.fresh : Named fresh := fun _ among => absurd among List.not_mem_nil

end Table

/-- Buckets and ring agree after every call exactly when no call stores a list beyond its bucket or a
header without a name. -/
theorem linked_throughout_iff (calls : List Call) :
    (∀ first, first <+: calls →
      ∃ table, Table.performAll first Table.fresh = some table ∧ table.Linked) ↔
      ∀ call ∈ calls, call.InPlace ∧ call.GivesName :=
  Table.linked_from_iff Table.Sound.fresh Table.Named.fresh calls

/-- Two values stored under one name: the ring lists them and no lookup finds them. -/
theorem stored_list_is_lost :
    ∃ table, Table.performAll [.setList (text "Accept") [text "a", text "b"]] Table.fresh =
        some table ∧
      table.getAll = [(text "Accept", text "a"), (text "Accept", text "b")] ∧
      table.find (text "Accept") = none ∧ ¬table.Linked := by
  refine ⟨_, rfl, by decide, by decide +kernel, fun linked => ?_⟩
  obtain ⟨_, _, only⟩ := linked.placed _ List.mem_cons_self
  have inside := only 0 (by decide) (by decide)
  revert inside
  decide +kernel

namespace Table

variable {table : Table}

/-- The values of the headers listed under a name. -/
def listed (table : Table) (name : Text) : List Text :=
  (table.getAll.filter fun header => eq name header.1).map Prod.snd

theorem listed_ring (table : Table) (name : Text) :
    table.listed name = (table.ring.filter fun e => eq name e.key).map Node.value := by
  unfold listed getAll
  rw [List.filter_map, List.map_map]
  rfl

theorem Sound.bucket (sound : table.Sound) (name : Text) :
    (table.chain (index (hash name))).filter (holds (hash name) name) =
      (table.ring.filter fun e => eq name e.key).reverse := by
  obtain ⟨least, below⟩ := index_bounds name
  rw [sound.chains _ least below, List.filter_reverse, List.filter_filter]
  congr 1
  refine List.filter_congr fun e among => ?_
  unfold holds
  rw [sound.hashed e among]
  cases same : eq name e.key with
  | false => rw [Bool.and_false, Bool.false_and]
  | true =>
      rw [hash_of_eq same, beq_self_eq_true, beq_self_eq_true]
      rfl

/-- The values under a name come newest first. -/
theorem Sound.gets_listed (sound : table.Sound) {name : Text} (nonempty : name ≠ []) :
    table.gets name = (table.listed name).reverse := by
  unfold gets
  rw [if_neg nonempty, listed_ring, ← List.map_reverse]
  exact congrArg (List.map Node.value) (sound.bucket name)

theorem get_head (table : Table) (name : Text) :
    table.get name = ((table.gets name).head?).getD [] := by
  unfold get gets find
  by_cases empty : name = []
  · rw [if_pos empty, if_pos empty]
    rfl
  · rw [if_neg empty, if_neg empty]
    dsimp only
    rw [List.head?_map, List.head?_filter]
    cases (table.chain (index (hash name))).find? (holds (hash name) name) with
    | none => rfl
    | some e => rfl

/-- What the lookups of a name should answer. -/
structure Agrees (table : Table) (name : Text) : Prop where
  gets : table.gets name = table.listed name
  get : table.get name = ((table.listed name).head?).getD []
  contains : table.contains name = true ↔ table.listed name ≠ []

theorem contains_iff (table : Table) (name : Text) :
    table.contains name = true ↔ table.get name ≠ [] := bne_iff_ne

theorem Sound.agrees_iff (sound : table.Sound) (name : Text) :
    table.Agrees name ↔
      (table.listed name).reverse = table.listed name ∧ (table.listed name).head? ≠ some [] ∧
        (name = [] → table.listed name = []) := by
  by_cases empty : name = []
  · have nothing : table.gets name = [] := by
      unfold Table.gets
      rw [if_pos empty]
    have blank : table.get name = [] := by
      rw [get_head, nothing]
      rfl
    constructor
    · intro agrees
      have none : table.listed name = [] := agrees.gets.symm.trans nothing
      rw [none]
      exact ⟨rfl, by simp, fun _ => rfl⟩
    · rintro ⟨_, _, none⟩
      refine ⟨nothing.trans (none empty).symm, ?_, ?_⟩
      · rw [none empty]
        exact blank
      · constructor
        · intro present
          exact absurd blank ((contains_iff table name).mp present)
        · intro some
          exact absurd (none empty) some
  · have found := sound.gets_listed empty
    constructor
    · intro agrees
      have same := found.symm.trans agrees.gets
      refine ⟨same, fun first => ?_, fun wrong => absurd wrong empty⟩
      have some : table.listed name ≠ [] := by
        intro none
        rw [none] at first
        cases first
      have blank : table.get name = [] := by
        rw [agrees.get, first]
        rfl
      exact (contains_iff table name).mp (agrees.contains.mpr some) blank
    · rintro ⟨same, first, _⟩
      have gets := found.trans same
      have get : table.get name = ((table.listed name).head?).getD [] := by
        rw [get_head, gets]
      refine ⟨gets, get, ?_⟩
      rw [contains_iff, get]
      cases values : table.listed name with
      | nil => simp
      | cons value values =>
          rw [values] at first
          simpa using first

end Table

/-- The calls that store one value at a time. -/
def Call.Single : Call → Prop
  | .setList _ _ => False
  | .setInts _ _ => False
  | _ => True

theorem Call.Single.inPlace {call : Call} (single : call.Single) : call.InPlace := by
  cases call with
  | setList name values => exact single.elim
  | setInts name values => exact single.elim
  | _ => exact trivial

end DefaultHttpHeader

namespace DefaultHttpHeader

namespace Table

/-- Every bucket holds the entries of the ring whose hash belongs to it, each once, in any order. -/
structure Represents (table : Table) : Prop where
  width : table.entries.length = 17
  chains : ∀ i, 0 ≤ i → i < BUCKET_SIZE →
    (table.chain i).Perm (table.ring.filter fun e => index e.hash == i)
  distinct : (table.ring.map Node.address).Nodup
  hashed : ∀ e ∈ table.ring, e.hash = hash e.key

theorem Sound.represents {table : Table} (sound : table.Sound) : table.Represents where
  width := sound.width
  chains := by
    intro i least below
    rw [sound.chains i least below]
    exact List.reverse_perm _
  distinct := sound.distinct
  hashed := sound.hashed

section Removal

variable {table : Table} {i : Int} {found : Node → Bool}

section

variable (represents : table.Represents) (least : 0 ≤ i) (below : i < BUCKET_SIZE)

include represents least below

theorem Represents.mem_chain (e : Node) :
    e ∈ table.chain i ↔ e ∈ table.ring ∧ index e.hash = i := by
  rw [(represents.chains i least below).mem_iff, List.mem_filter, beq_iff_eq]

section

variable (here : ∀ e ∈ table.ring, found e = true → index e.hash = i)

include here

theorem Represents.removeHeader_ring :
    (table.removeHeader i found).ring = table.ring.filter fun e => !found e := by
  have chained : ∀ e ∈ table.chain i, e ∈ table.ring := by
    intro e inside
    exact ((represents.mem_chain least below e).mp inside).1
  rw [Table.removeHeader_ring represents.distinct chained]
  refine List.filter_congr fun e among => ?_
  cases goes : found e with
  | false => rfl
  | true =>
      have inside := (represents.mem_chain least below e).mpr ⟨among, here e among goes⟩
      rw [decide_eq_true inside]
      rfl

/-- The other chains stay, and the entries they hold stay in the ring. -/
theorem Represents.removeHeader :
    (table.removeHeader i found).Represents where
  width := by
    unfold Table.removeHeader
    rw [List.length_set, represents.width]
  chains := by
    intro j other under
    rw [represents.removeHeader_ring least below here]
    unfold Table.removeHeader
    rw [chain_set represents.width least below other, removeFirst_eq, List.filter_filter]
    by_cases same : j = i
    · subst same
      have left := (represents.chains j other under).filter fun e => !found e
      rw [if_pos rfl]
      rw [List.filter_filter] at left
      dsimp only
      refine left.trans (List.Perm.of_eq (List.filter_congr fun e _ => ?_))
      rw [Bool.and_comm]
    · rw [if_neg same]
      refine (represents.chains j other under).trans
        (List.Perm.of_eq (List.filter_congr fun e among => ?_))
      cases goes : found e with
      | false => rw [Bool.not_false, Bool.and_true]
      | true =>
          have apart : index e.hash ≠ j := fun equal => same (equal.symm.trans (here e among goes))
          rw [beq_false_of_ne apart, Bool.false_and]
  distinct := by
    rw [represents.removeHeader_ring least below here]
    exact represents.distinct.sublist (List.filter_sublist.map _)
  hashed := by
    intro e among
    rw [represents.removeHeader_ring least below here] at among
    exact represents.hashed e (List.mem_of_mem_filter among)

end

end

end Removal

section Names

variable {table : Table}

/-- The hash of an entry never hides that its name is the one looked for. -/
theorem holds_of_hashed {e : Node} (hashed : e.hash = hash e.key) (name : Text) :
    holds (hash name) name e = eq name e.key := by
  unfold holds
  rw [hashed]
  cases same : eq name e.key with
  | false => rw [Bool.and_false]
  | true =>
      rw [hash_of_eq same, beq_self_eq_true]
      rfl

theorem getAll_filter {next : Table} {stays : Node → Bool} {kept : Text × Text → Bool}
    (ring : next.ring = table.ring.filter stays)
    (agree : ∀ e ∈ table.ring, stays e = kept (e.key, e.value)) :
    next.getAll = table.getAll.filter kept := by
  unfold getAll
  rw [ring, List.filter_map]
  congr 1
  exact List.filter_congr agree

theorem Represents.without (represents : table.Represents) (name : Text) :
    (table.without name).Represents ∧
      (table.without name).getAll = table.getAll.filter fun header => !eq name header.1 := by
  obtain ⟨least, below⟩ := index_bounds name
  have here : ∀ e ∈ table.ring, holds (hash name) name e = true → index e.hash = index (hash name) :=
    fun e _ found => holds_index found
  refine ⟨represents.removeHeader least below here, ?_⟩
  apply getAll_filter (represents.removeHeader_ring least below here)
  intro e among
  rw [holds_of_hashed (represents.hashed e among)]

theorem Represents.withoutValue (represents : table.Represents) (name value : Text) :
    (table.withoutValue name value).Represents ∧
      (table.withoutValue name value).getAll =
        table.getAll.filter fun header => !(eq name header.1 && eq value header.2) := by
  obtain ⟨least, below⟩ := index_bounds name
  have here : ∀ e ∈ table.ring, (holds (hash name) name e && eq value e.value) = true →
      index e.hash = index (hash name) :=
    fun e _ found => holds_index (Bool.and_eq_true_iff.mp found).1
  refine ⟨represents.removeHeader least below here, ?_⟩
  apply getAll_filter (represents.removeHeader_ring least below here)
  intro e among
  rw [holds_of_hashed (represents.hashed e among)]

end Names

/-- Two headers of one name around another one. -/
def cookies : Table :=
  ((fresh.including (text "Cookie") (text "a")).including (text "Host") (text "b")).including
    (text "cookie") (text "c")

end Table

end DefaultHttpHeader

end Cetty
