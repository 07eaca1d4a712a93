import Cetty.HeaderTable

/-!
# Hashing and comparing header names

Both loops run down from the last index as an `int`. Of a name with more characters than an `int`
counts they see only a part, so names that differ behind it are taken for the same.
-/

namespace Cetty

open CLocale MachineInt

namespace DefaultHttpHeader

/-- How often `for (int i = (int)length - 1; i >= 0; --i)` goes round. -/
def rounds (length : Nat) : Nat := (int32 (int32 length - 1) + 1).toNat

namespace Counted

def hashLoop (name : Text) : Nat → Int → Int
  | 0, h => h
  | i + 1, h => hashLoop name i (int32 (31 * h + (tolower (name.getD i 0)).toInt))

/-- `hash`, with the index that the source has. -/
def hash (name : Text) : Int :=
  let h := hashLoop name (rounds name.length) 0
  if 0 < h then h else if h = minInt then maxInt else -h

def eqLoop (name1 name2 : Text) : Nat → Bool
  | 0 => true
  | i + 1 =>
      let c1 := name1.getD i 0
      let c2 := name2.getD i 0
      if c1 ≠ c2 ∧ tolower c1 ≠ tolower c2 then false else eqLoop name1 name2 i

/-- `eq`, with the index that the source has. -/
def eq (name1 name2 : Text) : Bool :=
  if name1.length ≠ name2.length then false else eqLoop name1 name2 (rounds name1.length)

end Counted

section Names

variable {name name1 name2 : Text} {c : BitVec 8}

theorem rounds_same (length : Nat) : rounds length = (int32 ((length : Int) - 1) + 1).toNat := by
  unfold rounds
  rw [Int.sub_eq_add_neg, int32_add_left, Int.sub_eq_add_neg]

theorem rounds_le (length : Nat) : rounds length ≤ length := by
  have bounds := int32_bounds ((length : Int) - 1)
  rw [rounds_same]
  by_cases empty : length = 0
  · rw [empty]
    decide
  · by_cases small : (length : Int) - 1 ≤ maxInt
    · rw [int32_of_nonneg (by omega) small]
      omega
    · omega

theorem rounds_eq_iff (length : Nat) : rounds length = length ↔ length ≤ 2147483648 := by
  have bounds := int32_bounds ((length : Int) - 1)
  rw [rounds_same]
  unfold maxInt at bounds
  constructor
  · intro all
    omega
  · intro small
    by_cases empty : length = 0
    · rw [empty]
      decide
    · rw [int32_of_nonneg (by omega) (by unfold maxInt; omega)]
      omega

theorem take_next {i : Nat} (inside : i < name.length) :
    name.take (i + 1) = name.take i ++ [name.getD i 0] := by
  rw [List.take_add_one, List.getElem?_eq_getElem inside]
  simp [inside]

theorem hashLoop_take (name : Text) (i : Nat) (inside : i ≤ name.length) (h : Int) :
    Counted.hashLoop name i h =
      (name.take i).foldr (fun c h => int32 (31 * h + (tolower c).toInt)) h := by
  induction i generalizing h with
  | zero => rfl
  | succ i induction =>
      rw [Counted.hashLoop, induction (Nat.le_of_succ_le inside), take_next inside, List.foldr_append]
      rfl

/-- The hash is that of the characters that are seen. -/
theorem counted_hash (name : Text) :
    Counted.hash name = hash (name.take (rounds name.length)) := by
  unfold Counted.hash hash
  rw [hashLoop_take name _ (rounds_le _)]

theorem eqLoop_take (i : Nat) (inside1 : i ≤ name1.length) (inside2 : i ≤ name2.length) :
    Counted.eqLoop name1 name2 i = eq (name1.take i) (name2.take i) := by
  induction i with
  | zero => rfl
  | succ i induction =>
      have others := induction (Nat.le_of_succ_le inside1) (Nat.le_of_succ_le inside2)
      unfold eq at others ⊢
      rw [Counted.eqLoop, others, take_next inside1, take_next inside2, List.map_append,
        List.map_append]
      by_cases other : tolower (name1.getD i 0) = tolower (name2.getD i 0)
      · rw [if_neg (fun wrong => wrong.2 other), List.map_singleton, List.map_singleton, other]
        simp
      · rw [if_pos ⟨fun wrong => other (congrArg tolower wrong), other⟩]
        have lengths : ((name1.take i).map tolower).length = ((name2.take i).map tolower).length := by
          rw [List.length_map, List.length_map, List.length_take_of_le (Nat.le_of_succ_le inside1),
            List.length_take_of_le (Nat.le_of_succ_le inside2)]
        refine (beq_eq_false_iff_ne.mpr fun wrong => other ?_).symm
        exact List.head_eq_of_cons_eq (List.append_inj wrong lengths).2

theorem counted_eq (name1 name2 : Text) :
    Counted.eq name1 name2 = true ↔ name1.length = name2.length ∧
      eq (name1.take (rounds name1.length)) (name2.take (rounds name2.length)) = true := by
  unfold Counted.eq
  by_cases lengths : name1.length = name2.length
  · have inside := rounds_le name1.length
    rw [if_neg (not_not.mpr lengths), eqLoop_take _ inside (by omega), ← lengths]
    exact (and_iff_right rfl).symm
  · rw [if_pos lengths]
    exact ⟨nofun, fun wrong => absurd wrong.1 lengths⟩

/-- A name hashes and compares as it should, whatever it is compared with. -/
structure Compatible (name : Text) : Prop where
  bucket : 0 ≤ Counted.hash name ∧ 0 ≤ index (Counted.hash name) ∧
    index (Counted.hash name) < BUCKET_SIZE
  hashes : ∀ other, Counted.eq name other = true → Counted.hash name = Counted.hash other
  refl : Counted.eq name name = true
  symm : ∀ other, Counted.eq name other = true → Counted.eq other name = true
  trans : ∀ other third, Counted.eq name other = true → Counted.eq other third = true →
    Counted.eq name third = true
  letters : ∀ other, Counted.eq name other = true ↔ name.map tolower = other.map tolower

theorem compatible_of_small (small : name.length ≤ 2147483648) : Compatible name := by
  have whole : ∀ other : Text, other.length = name.length →
      other.take (rounds other.length) = other := by
    intro other same
    rw [(rounds_eq_iff other.length).mpr (by omega), List.take_length]
  have letters : ∀ other, Counted.eq name other = true ↔ name.map tolower = other.map tolower := by
    intro other
    rw [counted_eq]
    constructor
    · rintro ⟨lengths, same⟩
      rw [whole name rfl, whole other lengths.symm] at same
      exact eq_of_beq same
    · intro same
      have lengths := congrArg List.length same
      rw [List.length_map, List.length_map] at lengths
      rw [whole name rfl, whole other lengths.symm]
      exact ⟨lengths, beq_iff_eq.mpr same⟩
  refine ⟨?_, ?_, ?_, ?_, ?_, letters⟩
  · rw [counted_hash]
    exact ⟨Table.hash_least _, Table.index_bounds _⟩
  · intro other same
    rw [counted_hash, counted_hash]
    exact hash_of_eq ((counted_eq name other).mp same).2
  · exact (letters name).mpr rfl
  · intro other same
    obtain ⟨lengths, equal⟩ := (counted_eq name other).mp same
    exact (counted_eq other name).mpr ⟨lengths.symm, beq_iff_eq.mpr (eq_of_beq equal).symm⟩
  · intro other third same next
    obtain ⟨lengths, equal⟩ := (counted_eq name other).mp same
    obtain ⟨lengths', equal'⟩ := (counted_eq other third).mp next
    exact (counted_eq name third).mpr ⟨lengths.trans lengths',
      beq_iff_eq.mpr ((eq_of_beq equal).trans (eq_of_beq equal'))⟩

/-- The last character of a longer name is not seen. -/
theorem not_compatible (large : 2147483648 < name.length) : ¬Compatible name := by
  intro compatible
  obtain ⟨front, c, rfl⟩ : ∃ front c, name = front ++ [c] := by
    have some_ : name ≠ [] := by
      rintro rfl
      exact absurd large (by decide)
    exact ⟨_, _, (List.dropLast_append_getLast some_).symm⟩
  obtain ⟨d, other⟩ : ∃ d : BitVec 8, tolower c ≠ tolower d := by
    by_cases zero : tolower c = 48
    · exact ⟨49, fun same => absurd (zero.symm.trans same) (by decide)⟩
    · exact ⟨48, fun same => zero (same.trans (by decide))⟩
  have fewer : rounds (front ++ [c]).length ≤ front.length := by
    have le := rounds_le (front ++ [c]).length
    have ne := (rounds_eq_iff (front ++ [c]).length).not.mpr (by omega)
    rw [List.length_append, List.length_singleton] at le ne ⊢
    omega
  have lengths : (front ++ [c]).length = (front ++ [d]).length := by
    rw [List.length_append, List.length_append]
    rfl
  have seen : Counted.eq (front ++ [c]) (front ++ [d]) = true := by
    refine (counted_eq _ _).mpr ⟨lengths, ?_⟩
    rw [← lengths, List.take_append_of_le_length fewer, List.take_append_of_le_length fewer]
    exact beq_iff_eq.mpr rfl
  have same := (compatible.letters _).mp seen
  rw [List.map_append, List.map_append] at same
  exact other (List.head_eq_of_cons_eq (List.append_cancel_left same))

end Names

/-- Hash and comparison agree on the names that an `int` counts. -/
theorem header_names_compatible_iff (name : Text) : Compatible name ↔ name.length ≤ 2147483648 :=
  ⟨fun compatible => Nat.le_of_not_lt fun large => not_compatible large compatible,
    compatible_of_small⟩

theorem header_names_confused : ¬Compatible (List.replicate 2147483649 97) :=
  not_compatible (by rw [List.length_replicate]; decide)

end DefaultHttpHeader

end Cetty
