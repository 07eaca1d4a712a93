import Mathlib.Data.List.TakeWhile
import Cetty.HeaderLookups

/-!
# Setting a list of values

`set` removes the old headers of a name before it has seen whether the new values are valid. A list
that was stored earlier may stand in other buckets, where the removal does not look for it.
-/

namespace Cetty

open CLocale MachineInt

namespace DefaultHttpHeader

namespace Table

/-- What is true of a table after any calls. Only the entries of a stored list are outside the
bucket of their name, and their values are not empty. -/
structure Kept (table : Table) : Prop where
  width : table.entries.length = 17
  chained : ∀ i, 0 ≤ i → i < BUCKET_SIZE → ∀ e ∈ table.chain i, e ∈ table.ring
  apart : ∀ i, 0 ≤ i → i < BUCKET_SIZE → ∀ j, 0 ≤ j → j < BUCKET_SIZE → ∀ e,
    e ∈ table.chain i → e ∈ table.chain j → i = j
  distinct : (table.ring.map Node.address).Nodup
  older : ∀ e ∈ table.ring, e.address < table.made
  hashed : ∀ e ∈ table.ring, e.hash = hash e.key
  strayed : ∀ e ∈ table.ring, e ∉ table.chain (index (hash e.key)) → e.value ≠ []

theorem Sound.kept {table : Table} (sound : table.Sound) : table.Kept where
  width := sound.width
  chained := by
    intro i least below e inside
    exact ((sound.mem_chain least below e).mp inside).1
  apart := by
    intro i first last j least below e here there
    rw [← ((sound.mem_chain first last e).mp here).2, ((sound.mem_chain least below e).mp there).2]
  distinct := sound.distinct
  older := sound.older
  hashed := sound.hashed
  strayed := by
    intro e among outside
    obtain ⟨least, below⟩ := index_bounds e.key
    exact absurd ((sound.mem_chain least below e).mpr ⟨among, rfl⟩) outside

section Keeping

variable {table : Table} {i : Int} {name : Text}

theorem Kept.place (kept : table.Kept) (least : 0 ≤ i) (below : i < BUCKET_SIZE) {value : Text}
    (allowed : i = index (hash name) ∨ value ≠ []) :
    (table.place (hash name) i name value).Kept := by
  have width : (table.place (hash name) i name value).entries.length = 17 := by
    unfold Table.place
    rw [List.length_set, kept.width]
  have among : ∀ e, e ∈ (table.place (hash name) i name value).ring ↔
      e ∈ table.ring ∨ e = ⟨table.made, hash name, name, value⟩ := by
    intro e
    unfold Table.place
    rw [List.mem_append, List.mem_singleton]
  have inside : ∀ j, 0 ≤ j → j < BUCKET_SIZE → ∀ e,
      e ∈ (table.place (hash name) i name value).chain j ↔
        e ∈ table.chain j ∨ j = i ∧ e = ⟨table.made, hash name, name, value⟩ := by
    intro j first last e
    rw [chain_place kept.width least below first]
    by_cases same : j = i
    · rw [if_pos same, same, List.mem_cons]
      tauto
    · rw [if_neg same]
      tauto
  have fresh : ∀ j, 0 ≤ j → j < BUCKET_SIZE →
      (⟨table.made, hash name, name, value⟩ : Node) ∉ table.chain j := by
    intro j first last wrong
    exact absurd (kept.older _ (kept.chained j first last _ wrong)) (Nat.lt_irrefl _)
  refine ⟨width, ?_, ?_, ?_, ?_, ?_, ?_⟩
  · intro j first last e here
    rcases (inside j first last e).mp here with before | ⟨_, new⟩
    · exact (among e).mpr (.inl (kept.chained j first last e before))
    · exact (among e).mpr (.inr new)
  · intro j first last k low high e here there
    rcases (inside j first last e).mp here with before | ⟨same, new⟩
    · rcases (inside k low high e).mp there with also | ⟨_, new⟩
      · exact kept.apart j first last k low high e before also
      · exact absurd (new ▸ before) (fresh j first last)
    · rcases (inside k low high e).mp there with also | ⟨equal, _⟩
      · exact absurd (new ▸ also) (fresh k low high)
      · rw [same, equal]
  · unfold Table.place
    rw [List.map_append, List.nodup_append]
    refine ⟨kept.distinct, List.nodup_singleton _, ?_⟩
    intro address listed other last
    obtain ⟨e, before, same⟩ := List.mem_map.mp listed
    rw [List.mem_singleton.mp last, ← same]
    exact Nat.ne_of_lt (kept.older e before)
  · intro e listed
    have made : (table.place (hash name) i name value).made = table.made + 1 := rfl
    rw [made]
    rcases (among e).mp listed with before | new
    · exact Nat.lt_succ_of_lt (kept.older e before)
    · rw [new]
      exact Nat.lt_succ_self _
  · intro e listed
    rcases (among e).mp listed with before | new
    · exact kept.hashed e before
    · rw [new]
  · intro e listed outside
    obtain ⟨first, last⟩ := index_bounds e.key
    rw [inside _ first last, not_or] at outside
    rcases (among e).mp listed with before | new
    · exact kept.strayed e before outside.1
    · rcases allowed with home | some
      · exact absurd ⟨by rw [new]; exact home.symm, new⟩ outside.2
      · rw [new]
        exact some

/-- What the removal takes out of the ring is in the chain it searches. -/
theorem Kept.removeHeader_ring (kept : table.Kept) (least : 0 ≤ i) (below : i < BUCKET_SIZE)
    (found : Node → Bool) :
    (table.removeHeader i found).ring =
      table.ring.filter fun e => !(found e && decide (e ∈ table.chain i)) :=
  Table.removeHeader_ring kept.distinct (kept.chained i least below) found

theorem removeHeader_chain (width : table.entries.length = 17) (least : 0 ≤ i)
    (below : i < BUCKET_SIZE) (found : Node → Bool) {j : Int} (other : 0 ≤ j) :
    (table.removeHeader i found).chain j =
      if j = i then (table.chain i).filter fun e => !found e else table.chain j := by
  unfold Table.removeHeader
  rw [chain_set width least below other, removeFirst_eq]

theorem Kept.removeHeader (kept : table.Kept) (least : 0 ≤ i) (below : i < BUCKET_SIZE)
    (found : Node → Bool) : (table.removeHeader i found).Kept := by
  have ring := kept.removeHeader_ring least below found
  have inside : ∀ j, 0 ≤ j → ∀ e, e ∈ (table.removeHeader i found).chain j ↔
      e ∈ table.chain j ∧ (j = i → found e = false) := by
    intro j other e
    rw [removeHeader_chain kept.width least below found other]
    by_cases same : j = i
    · rw [if_pos same, same, List.mem_filter, Bool.not_eq_true']
      simp
    · rw [if_neg same]
      simp [same]
  have stays : ∀ e ∈ (table.removeHeader i found).ring, e ∈ table.ring := by
    intro e among
    rw [ring] at among
    exact List.mem_of_mem_filter among
  refine ⟨?_, ?_, ?_, ?_, ?_, ?_, ?_⟩
  · unfold Table.removeHeader
    rw [List.length_set, kept.width]
  · intro j first last e here
    obtain ⟨before, left⟩ := (inside j first e).mp here
    rw [ring, List.mem_filter]
    refine ⟨kept.chained j first last e before, ?_⟩
    rw [Bool.not_eq_true', Bool.and_eq_false_iff]
    by_cases searched : e ∈ table.chain i
    · exact .inl (left (kept.apart j first last i least below e before searched))
    · exact .inr (decide_eq_false searched)
  · intro j first last k low high e here there
    exact kept.apart j first last k low high e ((inside j first e).mp here).1
      ((inside k low e).mp there).1
  · rw [ring]
    exact kept.distinct.sublist (List.filter_sublist.map _)
  · exact fun e among => kept.older e (stays e among)
  · exact fun e among => kept.hashed e (stays e among)
  · intro e among outside
    obtain ⟨first, last⟩ := index_bounds e.key
    apply kept.strayed e (stays e among)
    intro home
    apply outside
    rw [inside _ first]
    refine ⟨home, ?_⟩
    intro same
    rw [ring, List.mem_filter, Bool.not_eq_true', Bool.and_eq_false_iff] at among
    rcases among.2 with left | missed
    · exact left
    · exact absurd (same ▸ home) (of_decide_eq_false missed)

end Keeping

section Calls

variable {table next : Table}

theorem Kept.including (kept : table.Kept) (name value : Text) :
    (table.including name value).Kept := by
  obtain ⟨least, below⟩ := index_bounds name
  exact kept.place least below (.inl rfl)

theorem Kept.without (kept : table.Kept) (name : Text) : (table.without name).Kept := by
  obtain ⟨least, below⟩ := index_bounds name
  exact kept.removeHeader least below _

theorem Kept.withoutValue (kept : table.Kept) (name value : Text) :
    (table.withoutValue name value).Kept := by
  obtain ⟨least, below⟩ := index_bounds name
  exact kept.removeHeader least below _

theorem Kept.placeAll (kept : table.Kept) (name : Text) {i : Nat} {values : List Text}
    (room : i + values.length ≤ 17) (some : ∀ value ∈ values, value ≠ []) :
    (placeAll (hash name) name i values table).Kept := by
  induction values generalizing i table with
  | nil => exact kept
  | cons value values induction =>
      rw [List.length_cons] at room
      have below : (i : Int) < BUCKET_SIZE := by
        unfold BUCKET_SIZE
        omega
      have placed : (table.place (hash name) i name value).Kept :=
        kept.place (Int.natCast_nonneg i) below (.inr (some value List.mem_cons_self))
      exact induction placed (by omega) fun other among => some other (List.mem_cons_of_mem _ among)

theorem stored_good {values : List Text} {value : Text} (among : value ∈ stored values) :
    value ≠ [] ∧ validValue value = true := by
  have good := List.mem_takeWhile_imp among
  rw [Bool.and_eq_true, bne_iff_ne] at good
  exact good

section

variable (kept : table.Kept)

include kept

theorem Kept.setList {name : Text} {values : List Text}
    (performed : after (setList name values) table = some next) : next.Kept := by
  rw [after_setList] at performed
  by_cases stores : values ≠ [] ∧ validName name = true
  · rw [if_pos stores] at performed
    by_cases room : (stored values).length ≤ 17
    · rw [if_pos room] at performed
      cases performed
      exact (kept.without name).placeAll name (by omega) fun value among => (stored_good among).1
    · rw [if_neg room] at performed
      cases performed
  · rw [if_neg stores] at performed
    cases performed
    exact kept

theorem Kept.add {name value : Text}
    (performed : after (add name value) table = some next) : next.Kept := by
  rw [after_add] at performed
  cases performed
  split
  · exact kept.including name value
  · exact kept

theorem Kept.setValue {name value : Text}
    (performed : after (setValue name value) table = some next) : next.Kept := by
  rw [after_setValue] at performed
  cases performed
  split
  · exact (kept.without name).including name value
  · exact kept

theorem Kept.perform {call : Call} (performed : table.perform call = some next) :
    next.Kept := by
  cases call with
  | add name value => exact kept.add performed
  | addInt name value => exact kept.add performed
  | remove name =>
      have removed := after_remove name table
      cases removed.symm.trans performed
      split
      · exact kept
      · exact kept.without name
  | removeValue name value =>
      have removed := after_removeValue name value table
      cases removed.symm.trans performed
      split
      · exact kept
      · exact kept.withoutValue name value
  | set name value => exact kept.setValue performed
  | setInt name value => exact kept.setValue performed
  | setList name values => exact kept.setList performed
  | setInts name values => exact kept.setList performed
  | clear =>
      cases performed
      exact (Sound.clear table).kept

theorem Kept.performAll {calls : List Call}
    (reached : performAll calls table = some next) : next.Kept := by
  induction calls generalizing table with
  | nil =>
      cases reached
      exact kept
  | cons call calls induction =>
      obtain ⟨middle, first, rest⟩ := performAll_cons reached
      exact induction (kept.perform first) rest

end

end Calls

section Setting

variable {table : Table}

theorem validates {value : Text} (valid : validValue value = true) (before : Table) :
    (call (HttpCodecUtil.validateHeaderValue value) : Exec Table Unit).run before =
      .ok () before := by
  rcases validValue_cases value with ⟨_, same⟩ | ⟨refused, _⟩
  · rw [same]
    exact run_call_ok () before
  · rw [valid] at refused
    cases refused

/-- Good values are stored one after the other. -/
theorem setEach_stored (h : Int) (name : Text) (i : Nat) (values rest : List Text)
    (good : ∀ value ∈ values, value ≠ [] ∧ validValue value = true)
    (room : i + values.length ≤ 17) (before : Table) :
    (setEach h name i (values ++ rest)).run before =
      (setEach h name (i + values.length) rest).run (placeAll h name i values before) := by
  induction values generalizing i before with
  | nil => rfl
  | cons value values induction =>
      obtain ⟨some, valid⟩ := good value List.mem_cons_self
      rw [List.length_cons] at room
      have below : ((i : Nat) : Int) < BUCKET_SIZE := by
        unfold BUCKET_SIZE
        omega
      rw [List.cons_append, setEach, if_neg some, run_bind_ok _ (validates valid before),
        run_bind_ok _ (addHeader_inside (Int.natCast_nonneg i) below name value before),
        induction (i + 1) (fun other among => good other (List.mem_cons_of_mem _ among))
          (by omega), List.length_cons, show i + 1 + values.length = i + (values.length + 1) by omega]
      rfl

theorem setEach_full (h : Int) (name value : Text) (rest : List Text) (some : value ≠ [])
    (valid : validValue value = true) (before : Table) :
    (setEach h name 17 (value :: rest)).run before = .error .outOfBounds before := by
  rw [setEach, if_neg some, run_bind_ok _ (validates valid before),
    run_bind_error _ (addHeader_outside (by decide) name value before)]

theorem setEach_refused (h : Int) (name : Text) (i : Nat) {value : Text} (rest : List Text)
    (some : value ≠ []) (refused : validValue value = false) (before : Table) :
    ∃ exception, (setEach h name i (value :: rest)).run before =
      .error (.thrown exception) before := by
  rcases validValue_cases value with ⟨valid, _⟩ | ⟨_, message, same⟩
  · rw [refused] at valid
    cases valid
  · refine ⟨⟨.invalidArgument, message⟩, ?_⟩
    rw [setEach, if_neg some, same, run_bind_error _ (run_call_error _ before)]
    rfl

/-- The entry is of the name and where the removal looks for it. -/
def inBucket (table : Table) (name : Text) (e : Node) : Bool :=
  eq name e.key && decide (e ∈ table.chain (index (hash name)))

/-- The values of the name that stand in other buckets. -/
def strays (table : Table) (name : Text) : List Text :=
  (table.ring.filter fun e => eq name e.key && !table.inBucket name e).map Node.value

/-- The headers that the removal leaves. -/
def spared (table : Table) (name : Text) : List (Text × Text) :=
  (table.ring.filter fun e => !table.inBucket name e).map fun e => (e.key, e.value)

def others (table : Table) (name : Text) : List (Text × Text) :=
  table.getAll.filter fun header => !eq name header.1

section

variable (kept : table.Kept)

include kept

theorem Kept.without_ring (name : Text) :
    (table.without name).ring = table.ring.filter fun e => !table.inBucket name e := by
  obtain ⟨least, below⟩ := index_bounds name
  rw [Table.without, kept.removeHeader_ring least below]
  refine List.filter_congr fun e among => ?_
  rw [holds_of_hashed (kept.hashed e among), inBucket]

theorem Kept.without_getAll (name : Text) :
    (table.without name).getAll = table.spared name := by
  unfold getAll spared
  rw [kept.without_ring name]

theorem Kept.without_listed (name : Text) :
    (table.without name).listed name = table.strays name := by
  rw [listed_ring, kept.without_ring name, List.filter_filter]
  rfl

theorem Kept.stray_nonempty {name : Text} {e : Node}
    (stray : e ∈ table.ring.filter fun e => eq name e.key && !table.inBucket name e) :
    e.value ≠ [] := by
  obtain ⟨among, outside⟩ := List.mem_filter.mp stray
  obtain ⟨same, missed⟩ := Bool.and_eq_true_iff.mp outside
  apply kept.strayed e among
  rw [← hash_of_eq same]
  rw [inBucket, same, Bool.true_and, Bool.not_eq_true'] at missed
  exact of_decide_eq_false missed

theorem Kept.without_others (name : Text) :
    (table.without name).others name = table.others name := by
  unfold others
  rw [kept.without_getAll name]
  unfold spared getAll
  rw [List.filter_map, List.filter_map, List.filter_filter]
  congr 1
  refine List.filter_congr fun e _ => ?_
  unfold inBucket
  change (!eq name e.key && !(eq name e.key && decide _)) = !eq name e.key
  cases eq name e.key with
  | false => rfl
  | true => rfl

end

theorem placeAll_getAll (h : Int) (name : Text) (i : Nat) (values : List Text) (before : Table) :
    (placeAll h name i values before).getAll =
      before.getAll ++ values.map fun value => (name, value) := by
  induction values generalizing i before with
  | nil => exact (List.append_nil _).symm
  | cons value values induction =>
      have first : (before.place h i name value).getAll = before.getAll ++ [(name, value)] := by
        unfold getAll Table.place
        rw [List.map_append]
        rfl
      rw [placeAll, induction, first, List.append_assoc]
      rfl

theorem eq_self (name : Text) : eq name name = true := beq_self_eq_true _

theorem placeAll_listed (h : Int) (name : Text) (i : Nat) (values : List Text) (before : Table) :
    (placeAll h name i values before).listed name = before.listed name ++ values := by
  have ours : (values.map fun value => (name, value)).filter (fun header => eq name header.1) =
      values.map fun value => (name, value) := by
    refine List.filter_eq_self.mpr fun header among => ?_
    obtain ⟨value, _, same⟩ := List.mem_map.mp among
    rw [← same]
    exact eq_self name
  unfold listed
  rw [placeAll_getAll, List.filter_append, List.map_append, ours, List.map_map]
  congr 1
  exact List.map_id' values

theorem placeAll_others (h : Int) (name : Text) (i : Nat) (values : List Text) (before : Table) :
    (placeAll h name i values before).others name = before.others name := by
  have none : (values.map fun value => (name, value)).filter (fun header => !eq name header.1) =
      [] := by
    refine List.filter_eq_nil_iff.mpr fun header among => ?_
    obtain ⟨value, _, same⟩ := List.mem_map.mp among
    rw [← same, eq_self name]
    exact Bool.false_ne_true
  unfold others
  rw [placeAll_getAll, List.filter_append, none, List.append_nil]

/-- `set` stores exactly the values, or throws and leaves the headers as they were. -/
def AllOrNothing (table : Table) (name : Text) (values : List Text) : Prop :=
  match (setList name values).run table with
  | .ok _ next => next.listed name = values ∧ next.others name = table.others name
  | .error (.thrown _) next => next.getAll = table.getAll
  | .error _ _ => False

/-- The values from the first on that is empty or refused. -/
def unstored (values : List Text) : List Text :=
  values.dropWhile fun value => value != [] && validValue value

theorem stored_unstored (values : List Text) : stored values ++ unstored values = values :=
  List.takeWhile_append_dropWhile

/-- When a list of values is stored as a whole or not at all. -/
def Settles (table : Table) (name : Text) (values : List Text) : Prop :=
  if values = [] then table.listed name = []
  else validName name = true → (stored values).length ≤ 17 ∧
    match unstored values with
    | [] => table.strays name = []
    | value :: _ => value ≠ [] ∧
        table.spared name ++ (stored values).map (fun value => (name, value)) = table.getAll

theorem setList_valid {name : Text} {values : List Text} (some : values ≠ [])
    (valid : validName name = true) (before : Table) :
    (setList name values).run before =
      (setEach (hash name) name 0 values).run (before.without name) := by
  have accepts : (call (HttpCodecUtil.validateHeaderName name) : Exec Table Unit).run before =
      .ok () before := by
    rcases validName_cases name with ⟨_, same⟩ | ⟨refused, _⟩
    · rw [same]
      exact run_call_ok () before
    · rw [valid] at refused
      cases refused
  rw [setList, if_neg some, run_bind_ok _ accepts]
  rfl

/-- More good values than there are buckets. -/
theorem setEach_overflow (h : Int) (name : Text) {values : List Text}
    (more : 17 < (stored values).length) (before : Table) :
    ∃ next, (setEach h name 0 values).run before = .error .outOfBounds next := by
  obtain ⟨front, rest, parts, size⟩ : ∃ front rest, stored values = front ++ rest ∧
      front.length = 17 :=
    ⟨(stored values).take 17, (stored values).drop 17, (List.take_append_drop _ _).symm, by
      rw [List.length_take]
      omega⟩
  cases rest with
  | nil =>
      rw [parts, List.append_nil] at more
      omega
  | cons value rest =>
      have good : ∀ other ∈ front ++ value :: rest, other ≠ [] ∧ validValue other = true := by
        intro other among
        rw [← parts] at among
        exact stored_good among
      obtain ⟨some, valid⟩ := good value (List.mem_append_right _ List.mem_cons_self)
      have whole : values = front ++ value :: (rest ++ unstored values) := by
        have split := stored_unstored values
        rw [parts, List.append_assoc, List.cons_append] at split
        exact split.symm
      rw [whole, setEach_stored h name 0 front _
        (fun other among => good other (List.mem_append_left _ among)) (by omega), Nat.zero_add,
        size, setEach_full h name value _ some valid]
      exact ⟨_, rfl⟩

theorem setEach_within (h : Int) (name : Text) {values : List Text}
    (room : (stored values).length ≤ 17) (before : Table) :
    (setEach h name 0 values).run before =
      (setEach h name (stored values).length (unstored values)).run
        (placeAll h name 0 (stored values) before) := by
  have run := setEach_stored h name 0 (stored values) (unstored values)
    (fun value among => stored_good among) (by omega) before
  rw [stored_unstored, Nat.zero_add] at run
  exact run

/-- What is first left unstored is empty or refused. -/
theorem unstored_first {values rest : List Text} {value : Text}
    (left : unstored values = value :: rest) : value = [] ∨ validValue value = false := by
  have bad : (value != [] && validValue value) = false := by
    have first := List.head?_dropWhile_not (fun value => value != [] && validValue value) values
    unfold unstored at left
    rw [left] at first
    exact first
  rcases Bool.and_eq_false_iff.mp bad with empty | refused
  · exact .inl (by simpa using empty)
  · exact .inr refused

section Outcomes

variable {name : Text} {values rest : List Text} {value : Text}

theorem set_whole_iff (kept : table.Kept) (some : values ≠ []) (valid : validName name = true)
    (room : (stored values).length ≤ 17) (left : unstored values = []) :
    AllOrNothing table name values ↔ table.strays name = [] := by
  have split := stored_unstored values
  rw [left, List.append_nil] at split
  have run : (setList name values).run table =
      .ok () (placeAll (hash name) name 0 (stored values) (table.without name)) := by
    rw [setList_valid some valid, setEach_within _ _ room, left]
    rfl
  unfold AllOrNothing
  rw [run]
  dsimp only
  rw [placeAll_listed, kept.without_listed, placeAll_others, kept.without_others, split]
  exact (and_iff_left rfl).trans List.append_left_eq_self

section

variable (kept : table.Kept) (valid : validName name = true)
  (room : (stored values).length ≤ 17)

include kept valid room

/-- The values behind an empty one are dropped without a word. -/
theorem set_short (left : unstored values = [] :: rest) :
    ¬AllOrNothing table name values := by
  have split := stored_unstored values
  have some : values ≠ [] := by
    intro empty
    rw [empty] at left
    cases left
  have run : (setList name values).run table =
      .ok () (placeAll (hash name) name 0 (stored values) (table.without name)) := by
    rw [setList_valid some valid, setEach_within _ _ room, left]
    rfl
  unfold AllOrNothing
  rw [run]
  dsimp only
  rw [placeAll_listed, kept.without_listed]
  rintro ⟨same, _⟩
  have among : [] ∈ table.strays name ++ stored values := by
    rw [same, ← split, left]
    exact List.mem_append_right _ List.mem_cons_self
  rcases List.mem_append.mp among with stray | good
  · obtain ⟨e, found, empty⟩ := List.mem_map.mp stray
    exact kept.stray_nonempty found empty
  · exact (stored_good good).1 rfl

/-- What was removed and stored in front of a refused value is not undone. -/
theorem set_refused_iff (left : unstored values = value :: rest)
    (present : value ≠ []) :
    AllOrNothing table name values ↔
      table.spared name ++ (stored values).map (fun value => (name, value)) = table.getAll := by
  have some : values ≠ [] := by
    intro empty
    rw [empty] at left
    cases left
  have refused := (unstored_first left).resolve_left present
  obtain ⟨exception, stops⟩ := setEach_refused (hash name) name (stored values).length rest present
    refused (placeAll (hash name) name 0 (stored values) (table.without name))
  have run : (setList name values).run table = .error (.thrown exception)
      (placeAll (hash name) name 0 (stored values) (table.without name)) := by
    rw [setList_valid some valid, setEach_within _ _ room, left]
    exact stops
  unfold AllOrNothing
  rw [run]
  dsimp only
  rw [placeAll_getAll, kept.without_getAll]

end

theorem set_overflow (some : values ≠ []) (valid : validName name = true)
    (more : ¬(stored values).length ≤ 17) : ¬AllOrNothing table name values := by
  obtain ⟨next, stops⟩ := setEach_overflow (hash name) name (Nat.lt_of_not_le more)
    (table.without name)
  unfold AllOrNothing
  rw [setList_valid some valid, stops]
  exact False.elim

theorem set_nothing_iff : AllOrNothing table name [] ↔ table.listed name = [] := by
  have run : (setList name []).run table = .ok () table := rfl
  unfold AllOrNothing
  rw [run]
  exact and_iff_left rfl

theorem set_unnamed (some : values ≠ []) (refused : validName name = false) :
    AllOrNothing table name values := by
  rcases validName_cases name with ⟨valid, _⟩ | ⟨_, message, thrown⟩
  · rw [refused] at valid
    cases valid
  · have run : (setList name values).run table =
        .error (.thrown ⟨.invalidArgument, message⟩) table := by
      rw [setList, if_neg some, thrown, run_bind_error _ (run_call_error _ table)]
      rfl
    unfold AllOrNothing
    rw [run]

theorem settles_iff (kept : table.Kept) (name : Text) (values : List Text) :
    AllOrNothing table name values ↔ Settles table name values := by
  unfold Settles
  by_cases empty : values = []
  · rw [if_pos empty, empty]
    exact set_nothing_iff
  · rw [if_neg empty]
    cases named : validName name with
    | false =>
        constructor
        · exact fun _ wrong => absurd wrong Bool.false_ne_true
        · exact fun _ => set_unnamed empty named
    | true =>
        rw [imp_iff_right (rfl : true = true)]
        by_cases room : (stored values).length ≤ 17
        · rw [and_iff_right room]
          cases left : unstored values with
          | nil => exact set_whole_iff kept empty named room left
          | cons value rest =>
              by_cases present : value ≠ []
              · exact (set_refused_iff kept named room left present).trans
                  (and_iff_right present).symm
              · have nothing : value = [] := not_not.mp present
                subst nothing
                constructor
                · exact fun holds => absurd holds (set_short kept named room left)
                · exact fun settles => absurd rfl settles.1
        · constructor
          · exact fun holds => absurd holds (set_overflow empty named room)
          · exact fun settles => absurd settles.1 room

end Outcomes

end Setting

end Table

end DefaultHttpHeader

end Cetty
