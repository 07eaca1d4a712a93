import Mathlib.Algebra.GroupWithZero.Nat
import Mathlib.Data.List.TakeWhile
import Cetty.URI

/-!
# Query strings there and back

Every escape of the encoder is the same two characters, and the decoder reads the character behind
them as the second digit. A query string is therefore read back as it was built only when nothing in
it was escaped; the lengths on both sides show it.
-/

namespace Cetty

open CLocale

/-- The values added under a name, in order. -/
def added (params : List (Text × Text)) (name : Text) : List Text :=
  (params.filter fun param => param.1 = name).map Prod.snd

namespace ParametersType

def addAll (params : ParametersType) (adds : List (Text × Text)) : ParametersType :=
  adds.foldl (fun params param => params.addParam param.1 param.2) params

theorem values_addAll (params : ParametersType) (adds : List (Text × Text)) (name : Text) :
    (params.addAll adds).values name = params.values name ++ added adds name := by
  induction adds generalizing params with
  | nil => exact (List.append_nil _).symm
  | cons param adds induction =>
      rcases param with ⟨key, value⟩
      have others := induction (params.addParam key value)
      rw [values_addParam] at others
      by_cases same : key = name
      · rw [if_pos same, List.append_assoc] at others
        simpa [added, addAll, same] using others
      · rw [if_neg same] at others
        simpa [added, addAll, same] using others

end ParametersType

theorem added_count (params : List (Text × Text)) (name value : Text) :
    (added params name).count value = params.count (name, value) := by
  induction params with
  | nil => rfl
  | cons param params induction =>
      rcases param with ⟨key, found⟩
      unfold added at induction ⊢
      by_cases same : key = name
      · subst same
        simp only [decide_true, List.filter_cons_of_pos, List.map_cons, List.count_cons,
          induction, beq_iff_eq, Prod.mk.injEq, true_and]
      · simp only [same, decide_false, Bool.false_eq_true, not_false_eq_true,
          List.filter_cons_of_neg, induction, List.count_cons, beq_iff_eq, Prod.mk.injEq,
          false_and, if_false, Nat.add_zero]

/-- The lists of values leave open only how the names are interleaved. -/
theorem perm_of_added {first second : List (Text × Text)}
    (same : ∀ name, added first name = added second name) : first.Perm second := by
  rw [List.perm_iff_count]
  rintro ⟨name, value⟩
  rw [← added_count, ← added_count, same]

def weight (params : List (Text × Text)) : Nat :=
  (params.map fun param => param.1.length + param.2.length).sum

theorem weight_perm {first second : List (Text × Text)} (perm : first.Perm second) :
    weight first = weight second :=
  (perm.map _).sum_nat

namespace QueryStringDecoder

/-- The parameters that a scan adds, from a name, the region read so far and what is left. -/
inductive Adds : Text → Text → Text → List (Text × Text) → Prop
  | lastName {region component : Text} (some : region ≠ [])
      (decoded : URI.decode region = .ok component) : Adds [] region [] [(component, [])]
  | lastValue {name region component : Text} (named : name ≠ [])
      (decoded : URI.decode region = .ok component) : Adds name region [] [(name, component)]
  | done : Adds [] [] [] []
  | name {region component rest : Text} {adds : List (Text × Text)} (some : region ≠ [])
      (decoded : URI.decode region = .ok component) (after : Adds component [] rest adds) :
      Adds [] region (61 :: rest) adds
  | noName {rest : Text} {adds : List (Text × Text)} (after : Adds [] [] rest adds) :
      Adds [] [] (61 :: rest) adds
  | onlyName {region component rest : Text} {adds : List (Text × Text)} (some : region ≠ [])
      (decoded : URI.decode region = .ok component) (after : Adds [] [] rest adds) :
      Adds [] region (38 :: rest) ((component, []) :: adds)
  | value {name region component rest : Text} {adds : List (Text × Text)} (named : name ≠ [])
      (decoded : URI.decode region = .ok component) (after : Adds [] [] rest adds) :
      Adds name region (38 :: rest) ((name, component) :: adds)
  | nothing {rest : Text} {adds : List (Text × Text)} (after : Adds [] [] rest adds) :
      Adds [] [] (38 :: rest) adds
  | more {name region rest : Text} {c : BitVec 8} {adds : List (Text × Text)} (other : c ≠ 38)
      (inside : c = 61 → name ≠ []) (after : Adds name (region ++ [c]) rest adds) :
      Adds name region (c :: rest) adds

theorem component_bind {Value : Type} {s component : Text}
    (decoded : URI.decode s = .ok component) (next : Text → Exec ParametersType Value)
    (params : ParametersType) :
    (decodeComponent s >>= next).run params = (next component).run params := by
  have ran : (decodeComponent s).run params = .ok component params := by
    rw [decodeComponent, decoded, run_call_ok]
  exact run_bind_ok next ran

theorem component_bind_ok {Value : Type} {s : Text} {next : Text → Exec ParametersType Value}
    {params after : ParametersType} {value : Value}
    (runs : (decodeComponent s >>= next).run params = .ok value after) :
    ∃ component, URI.decode s = .ok component ∧
      (next component).run params = .ok value after := by
  obtain ⟨component, middle, first, finish⟩ := ok_of_run_bind runs
  obtain ⟨decoded, same⟩ := ok_of_run_call first
  subst same
  exact ⟨component, decoded, finish⟩

theorem addParam_bind {Value : Type} (name value : Text)
    (next : Unit → Exec ParametersType Value) (params : ParametersType) :
    (addParam name value >>= next).run params = (next ()).run (params.addParam name value) := rfl

theorem addParam_run (name value : Text) (params : ParametersType) :
    (addParam name value).run params = .ok () (params.addAll [(name, value)]) := rfl

variable {adds : List (Text × Text)}

theorem Adds.run {name region s : Text}
    (scan : Adds name region s adds) (params : ParametersType) :
    (decodeRest name region s).run params = .ok () (params.addAll adds) := by
  induction scan generalizing params with
  | lastName some decoded =>
      rw [decodeRest, if_pos some, if_pos rfl, component_bind decoded]
      exact addParam_run _ _ _
  | @lastValue name region component named decoded =>
      by_cases empty : region = []
      · subst empty
        cases decoded
        rw [decodeRest, if_neg (fun wrong => wrong rfl), if_pos named]
        exact addParam_run _ _ _
      · rw [decodeRest, if_pos empty, if_neg named, component_bind decoded]
        exact addParam_run _ _ _
  | done => rfl
  | name some decoded after induction =>
      rw [decodeRest, if_pos ⟨rfl, rfl⟩, if_pos some, component_bind decoded]
      exact induction params
  | noName after induction =>
      rw [decodeRest, if_pos ⟨rfl, rfl⟩, if_neg (fun wrong => wrong rfl)]
      exact induction params
  | onlyName some decoded after induction =>
      rw [decodeRest, if_neg (fun wrong => absurd wrong.1 (by decide)), if_pos rfl,
        if_pos ⟨rfl, some⟩, component_bind decoded, addParam_bind]
      exact induction _
  | value named decoded after induction =>
      rw [decodeRest, if_neg (fun wrong => named wrong.2), if_pos rfl,
        if_neg (fun wrong => named wrong.1), if_pos named, component_bind decoded, addParam_bind]
      exact induction _
  | nothing after induction =>
      rw [decodeRest, if_neg (fun wrong => absurd wrong.1 (by decide)), if_pos rfl,
        if_neg (fun wrong => wrong.2 rfl), if_neg (fun wrong => wrong rfl)]
      exact induction params
  | more other inside after induction =>
      rw [decodeRest, if_neg (fun wrong => inside wrong.1 wrong.2), if_neg other]
      exact induction params

theorem adds_of_run {name region s : Text} {params after : ParametersType}
    (runs : (decodeRest name region s).run params = .ok () after) :
    ∃ adds, Adds name region s adds ∧ after = params.addAll adds := by
  induction s generalizing name region params with
  | nil =>
      rw [decodeRest] at runs
      by_cases some : region ≠ []
      · rw [if_pos some] at runs
        by_cases named : name = []
        · rw [if_pos named] at runs
          obtain ⟨component, decoded, finish⟩ := component_bind_ok runs
          cases finish
          subst named
          exact ⟨_, .lastName some decoded, rfl⟩
        · rw [if_neg named] at runs
          obtain ⟨component, decoded, finish⟩ := component_bind_ok runs
          cases finish
          exact ⟨_, .lastValue named decoded, rfl⟩
      · rw [if_neg some] at runs
        have empty : region = [] := not_not.mp some
        subst empty
        by_cases named : name ≠ []
        · rw [if_pos named] at runs
          cases runs
          exact ⟨_, .lastValue named rfl, rfl⟩
        · rw [if_neg named] at runs
          have unnamed : name = [] := not_not.mp named
          subst unnamed
          cases runs
          exact ⟨_, .done, rfl⟩
  | cons c rest induction =>
      rw [decodeRest] at runs
      by_cases equals : c = 61 ∧ name = []
      · rw [if_pos equals] at runs
        obtain ⟨rfl, rfl⟩ := equals
        by_cases some : region ≠ []
        · rw [if_pos some] at runs
          obtain ⟨component, decoded, goes⟩ := component_bind_ok runs
          obtain ⟨adds, scan, same⟩ := induction goes
          exact ⟨adds, .name some decoded scan, same⟩
        · rw [if_neg some] at runs
          have empty : region = [] := not_not.mp some
          subst empty
          obtain ⟨adds, scan, same⟩ := induction runs
          exact ⟨adds, .noName scan, same⟩
      · rw [if_neg equals] at runs
        by_cases ampersand : c = 38
        · subst ampersand
          rw [if_pos rfl] at runs
          by_cases only : name = [] ∧ region ≠ []
          · rw [if_pos only] at runs
            obtain ⟨rfl, some⟩ := only
            obtain ⟨component, decoded, goes⟩ := component_bind_ok runs
            rw [addParam_bind] at goes
            obtain ⟨adds, scan, same⟩ := induction goes
            exact ⟨_, .onlyName some decoded scan, same⟩
          · rw [if_neg only] at runs
            by_cases named : name ≠ []
            · rw [if_pos named] at runs
              obtain ⟨component, decoded, goes⟩ := component_bind_ok runs
              rw [addParam_bind] at goes
              obtain ⟨adds, scan, same⟩ := induction goes
              exact ⟨_, .value named decoded scan, same⟩
            · rw [if_neg named] at runs
              have unnamed : name = [] := not_not.mp named
              subst unnamed
              have empty : region = [] := by
                by_contra some
                exact only ⟨rfl, some⟩
              subst empty
              obtain ⟨adds, scan, same⟩ := induction runs
              exact ⟨adds, .nothing scan, same⟩
        · rw [if_neg ampersand] at runs
          obtain ⟨adds, scan, same⟩ := induction runs
          exact ⟨adds, .more ampersand (fun first last => equals ⟨first, last⟩) scan, same⟩

/-- The separators of a string: every ampersand, and the first equals sign before the next one. -/
def separators : Bool → Text → Nat
  | _, [] => 0
  | seen, c :: rest =>
      if c = 61 then (if seen then 0 else 1) + separators true rest
      else if c = 38 then 1 + separators false rest
      else separators seen rest

theorem separators_equals (seen : Bool) (rest : Text) :
    separators seen (61 :: rest) = (if seen then 0 else 1) + separators true rest := by
  rw [separators, if_pos rfl]

theorem separators_ampersand (seen : Bool) (rest : Text) :
    separators seen (38 :: rest) = 1 + separators false rest := by
  rw [separators, if_neg (by decide), if_pos rfl]

theorem separators_other {c : BitVec 8} (equals : c ≠ 61) (ampersand : c ≠ 38) (seen : Bool)
    (rest : Text) : separators seen (c :: rest) = separators seen rest := by
  rw [separators, if_neg equals, if_neg ampersand]

section

variable {name region s : Text} {adds : List (Text × Text)} (scan : Adds name region s adds)

include scan

/-- A scan loses every separator, and two characters at each escape. -/
theorem Adds.weight_le (seen : Bool) (inside : name ≠ [] → seen = true) :
    weight adds + 2 * (region ++ s).count URI.percent + separators seen s ≤
      name.length + region.length + s.length := by
  induction scan generalizing seen with
  | lastName some decoded =>
      have lengths := URI.decodeRest_length _ decoded
      simp only [weight, separators, List.map_cons, List.map_nil, List.sum_cons, List.sum_nil,
        List.length_nil, List.append_nil]
      omega
  | lastValue named decoded =>
      have lengths := URI.decodeRest_length _ decoded
      simp only [weight, separators, List.map_cons, List.map_nil, List.sum_cons, List.sum_nil,
        List.length_nil, List.append_nil]
      omega
  | done => exact Nat.le_refl 0
  | name some decoded after induction =>
      have lengths := URI.decodeRest_length _ decoded
      have others := induction true fun _ => rfl
      have letter : (61 : BitVec 8) ≠ URI.percent := by decide
      rw [separators_equals, List.count_append, List.count_cons_of_ne letter]
      simp only [List.nil_append, List.length_nil, List.length_cons] at others ⊢
      split <;> omega
  | noName after induction =>
      have others := induction true fun wrong => absurd rfl wrong
      have letter : (61 : BitVec 8) ≠ URI.percent := by decide
      rw [separators_equals, List.count_append, List.count_cons_of_ne letter]
      simp only [List.nil_append, List.length_nil, List.length_cons, List.count_nil] at others ⊢
      split <;> omega
  | onlyName some decoded after induction =>
      have lengths := URI.decodeRest_length _ decoded
      have others := induction false fun wrong => absurd rfl wrong
      have letter : (38 : BitVec 8) ≠ URI.percent := by decide
      rw [separators_ampersand, List.count_append, List.count_cons_of_ne letter]
      simp only [weight, List.map_cons, List.sum_cons, List.nil_append, List.length_nil,
        List.length_cons] at others ⊢
      omega
  | value named decoded after induction =>
      have lengths := URI.decodeRest_length _ decoded
      have others := induction false fun wrong => absurd rfl wrong
      have letter : (38 : BitVec 8) ≠ URI.percent := by decide
      rw [separators_ampersand, List.count_append, List.count_cons_of_ne letter]
      simp only [weight, List.map_cons, List.sum_cons, List.nil_append, List.length_nil,
        List.length_cons] at others ⊢
      omega
  | nothing after induction =>
      have others := induction false fun wrong => absurd rfl wrong
      have letter : (38 : BitVec 8) ≠ URI.percent := by decide
      rw [separators_ampersand, List.count_append, List.count_cons_of_ne letter]
      simp only [List.nil_append, List.length_nil, List.length_cons, List.count_nil] at others ⊢
      omega
  | @more name region rest c adds other named after induction =>
      have others := induction seen inside
      rw [List.append_assoc, List.singleton_append, List.length_append] at others
      have same : separators seen (c :: rest) = separators seen rest := by
        by_cases equals : c = 61
        · subst equals
          rw [inside (named rfl), separators_equals, if_pos rfl, Nat.zero_add]
        · rw [separators_other equals other]
      simp only [List.length_cons, List.length_nil] at others ⊢
      omega

/-- Without escapes no equals sign gets into a name. -/
theorem Adds.names (none : URI.percent ∉ region ++ s) (named : 61 ∉ name)
    (apart : name = [] → 61 ∉ region) : ∀ param ∈ adds, (61 : BitVec 8) ∉ param.1 := by
  induction scan with
  | lastName some decoded =>
      rw [List.append_nil] at none
      rw [URI.decode, URI.decodeRest_plain _ none] at decoded
      cases decoded
      intro param among
      rw [List.mem_singleton.mp among]
      exact apart rfl
  | lastValue nonempty decoded =>
      intro param among
      rw [List.mem_singleton.mp among]
      exact named
  | done =>
      intro param among
      cases among
  | name some decoded after induction =>
      rw [List.mem_append, not_or] at none
      rw [URI.decode, URI.decodeRest_plain _ none.1] at decoded
      cases decoded
      exact induction (fun among => none.2 (List.mem_cons_of_mem _ among)) (apart rfl)
        fun empty => absurd empty some
  | noName after induction =>
      exact induction (fun among => none (List.mem_cons_of_mem _ among)) named apart
  | onlyName some decoded after induction =>
      rw [List.mem_append, not_or] at none
      rw [URI.decode, URI.decodeRest_plain _ none.1] at decoded
      cases decoded
      have others := induction (fun among => none.2 (List.mem_cons_of_mem _ among)) named
        fun _ => List.not_mem_nil
      intro param among
      rcases List.mem_cons.mp among with rfl | among
      · exact apart rfl
      · exact others param among
  | value nonempty decoded after induction =>
      rw [List.mem_append, not_or] at none
      have others := induction (fun among => none.2 (List.mem_cons_of_mem _ among))
        List.not_mem_nil fun _ => List.not_mem_nil
      intro param among
      rcases List.mem_cons.mp among with rfl | among
      · exact named
      · exact others param among
  | nothing after induction =>
      exact induction (fun among => none (List.mem_cons_of_mem _ among)) named apart
  | more other inside after induction =>
      refine induction (by simpa using none) named fun empty => ?_
      rw [List.mem_append, List.mem_singleton, not_or]
      exact ⟨apart empty, fun same => inside same.symm empty⟩

end

/-- The characters of a component go into the region. -/
theorem Adds.append {name region rest chars : Text}
    (ampersand : 38 ∉ chars) (equals : name = [] → 61 ∉ chars)
    (after : Adds name (region ++ chars) rest adds) : Adds name region (chars ++ rest) adds := by
  induction chars generalizing region with
  | nil => simpa using after
  | cons c chars induction =>
      refine .more ?_ ?_ (induction ?_ ?_ ?_)
      · exact fun same => ampersand (same ▸ List.mem_cons_self)
      · exact fun same empty => equals empty (same ▸ List.mem_cons_self)
      · exact fun among => ampersand (List.mem_cons_of_mem _ among)
      · exact fun empty among => equals empty (List.mem_cons_of_mem _ among)
      · simpa using after

end QueryStringDecoder

namespace QueryStringEncoder

def escapes (params : List (Text × Text)) : Nat :=
  (params.map fun param => (encodeComponent param.1).count URI.percent +
    (encodeComponent param.2).count URI.percent).sum

def ampersands (params : List (Text × Text)) : Nat :=
  (params.map fun param => (encodeComponent param.1).count 38 +
    (encodeComponent param.2).count 38).sum

theorem encodeParams_length {params : List (Text × Text)} (some : params ≠ []) :
    (encodeParams params).length + 1 = weight params + escapes params + 2 * params.length := by
  induction params with
  | nil => exact absurd rfl some
  | cons param params induction =>
      rcases param with ⟨name, value⟩
      have first := URI.encode_length name
      have second := URI.encode_length value
      cases params with
      | nil =>
          simp only [encodeParams, encodeComponent, weight, escapes, List.length_append,
            List.length_cons, List.map_cons, List.map_nil, List.sum_cons, List.sum_nil,
            List.length_nil]
          omega
      | cons next params =>
          have others := induction (List.cons_ne_nil _ _)
          simp only [encodeParams, encodeComponent, weight, escapes, List.length_append,
            List.length_cons, List.map_cons, List.sum_cons] at others ⊢
          omega

theorem encodeParams_escapes (params : List (Text × Text)) :
    (encodeParams params).count URI.percent = escapes params := by
  have equals : (61 : BitVec 8) ≠ URI.percent := by decide
  have ampersand : (38 : BitVec 8) ≠ URI.percent := by decide
  induction params with
  | nil => rfl
  | cons param params induction =>
      rcases param with ⟨name, value⟩
      cases params with
      | nil =>
          simp only [encodeParams, escapes, List.count_append, List.count_cons_of_ne equals,
            List.map_cons, List.map_nil, List.sum_cons, List.sum_nil, Nat.add_zero]
      | cons next params =>
          simp only [encodeParams, escapes, List.count_append, List.count_cons_of_ne equals,
            List.count_cons_of_ne ampersand, List.map_cons, List.sum_cons] at induction ⊢
          omega

open QueryStringDecoder in
theorem separators_name (name rest : Text) (seen : Bool) :
    name.count 38 + (if seen then 0 else 1) + separators true rest ≤
      separators seen (name ++ 61 :: rest) := by
  induction name generalizing seen with
  | nil =>
      have start : separators seen (61 :: rest) = (if seen then 0 else 1) + separators true rest :=
        separators_equals seen rest
      rw [List.nil_append, List.count_nil]
      omega
  | cons c name induction =>
      rw [List.cons_append]
      by_cases equals : c = 61
      · have others := induction true
        have different : (61 : BitVec 8) ≠ 38 := by decide
        subst equals
        rw [separators_equals, List.count_cons_of_ne different]
        rw [if_pos rfl] at others
        omega
      · by_cases ampersand : c = 38
        · have others := induction false
          subst ampersand
          rw [separators_ampersand, List.count_cons_self]
          rw [if_neg Bool.false_ne_true] at others
          split <;> omega
        · have others := induction seen
          rw [separators_other equals ampersand, List.count_cons_of_ne ampersand]
          exact others

open QueryStringDecoder in
theorem separators_seen (rest : Text) (seen : Bool) : separators true rest ≤ separators seen rest := by
  induction rest generalizing seen with
  | nil => exact Nat.le_refl 0
  | cons c rest induction =>
      by_cases equals : c = 61
      · subst equals
        rw [separators_equals, separators_equals, if_pos rfl]
        omega
      · by_cases ampersand : c = 38
        · subst ampersand
          exact Nat.le_of_eq (by rw [separators_ampersand, separators_ampersand])
        · rw [separators_other equals ampersand, separators_other equals ampersand]
          exact induction seen

open QueryStringDecoder in
theorem separators_value (value rest : Text) (seen : Bool) :
    value.count 38 + separators true rest ≤ separators seen (value ++ rest) := by
  induction value generalizing seen with
  | nil =>
      rw [List.nil_append, List.count_nil, Nat.zero_add]
      exact separators_seen rest seen
  | cons c value induction =>
      rw [List.cons_append]
      by_cases equals : c = 61
      · have others := induction true
        have different : (61 : BitVec 8) ≠ 38 := by decide
        subst equals
        rw [separators_equals, List.count_cons_of_ne different]
        omega
      · by_cases ampersand : c = 38
        · have others := induction false
          subst ampersand
          rw [separators_ampersand, List.count_cons_self]
          omega
        · have others := induction seen
          rw [separators_other equals ampersand, List.count_cons_of_ne ampersand]
          exact others

open QueryStringDecoder in
theorem encodeParams_separators {params : List (Text × Text)} (some : params ≠ []) :
    2 * params.length + ampersands params ≤ separators false (encodeParams params) + 1 := by
  induction params with
  | nil => exact absurd rfl some
  | cons param params induction =>
      rcases param with ⟨name, value⟩
      cases params with
      | nil =>
          have first := separators_name (encodeComponent name) (encodeComponent value) false
          have second := separators_value (encodeComponent value) [] true
          rw [if_neg Bool.false_ne_true] at first
          rw [List.append_nil] at second
          simp only [encodeParams, ampersands, List.length_cons, List.length_nil, List.map_cons,
            List.map_nil, List.sum_cons, List.sum_nil]
          omega
      | cons next params =>
          have others := induction (List.cons_ne_nil _ _)
          have first := separators_name (encodeComponent name)
            (encodeComponent value ++ 38 :: encodeParams (next :: params)) false
          have second := separators_value (encodeComponent value)
            (38 :: encodeParams (next :: params)) true
          rw [if_neg Bool.false_ne_true] at first
          rw [separators_ampersand] at second
          simp only [encodeParams, ampersands, List.length_cons, List.map_cons,
            List.sum_cons] at others first second ⊢
          omega

end QueryStringEncoder

/-- A parameter in which nothing is escaped and no separator gets lost. -/
def Intact (param : Text × Text) : Prop :=
  (∀ c ∈ param.1, URI.Plain c ∧ c ≠ 61 ∧ c ≠ 38) ∧ ∀ c ∈ param.2, URI.Plain c ∧ c ≠ 38

instance (param : Text × Text) : Decidable (Intact param) := inferInstanceAs (Decidable (_ ∧ _))

open QueryStringEncoder (encodeParams encodeComponent escapes ampersands encodeParams_separators
  encodeParams_length encodeParams_escapes)
open QueryStringDecoder

variable {params : List (Text × Text)} {path : Text}

/-- When nothing is lost on the way back, nothing was escaped. -/
theorem intact_of_adds {adds : List (Text × Text)} (some : params ≠ [])
    (scan : Adds [] [] (encodeParams params) adds)
    (same : ∀ name, added adds name = added params name) : ∀ param ∈ params, Intact param := by
  have perm := perm_of_added same
  have lost := scan.weight_le false fun wrong => absurd rfl wrong
  have counted := encodeParams_separators some
  have lengths := encodeParams_length some
  have marks := encodeParams_escapes params
  rw [weight_perm perm, List.nil_append, marks] at lost
  simp only [List.length_nil, Nat.zero_add] at lost
  have noEscapes : escapes params = 0 := by omega
  have noAmpersands : ampersands params = 0 := by omega
  have equals : ∀ param ∈ params, (61 : BitVec 8) ∉ param.1 := by
    intro param among
    refine scan.names ?_ List.not_mem_nil (fun _ => List.not_mem_nil) param (perm.mem_iff.mpr among)
    rw [List.nil_append]
    exact List.count_eq_zero.mp (marks.trans noEscapes)
  intro param among
  have clean := List.sum_eq_zero_iff_forall_eq_nat.mp noEscapes _ (List.mem_map_of_mem among)
  have apart := List.sum_eq_zero_iff_forall_eq_nat.mp noAmpersands _ (List.mem_map_of_mem among)
  have plainName := URI.plain_of_no_percent (Nat.eq_zero_of_add_eq_zero_right clean)
  have plainValue := URI.plain_of_no_percent (Nat.eq_zero_of_add_eq_zero_left clean)
  rw [encodeComponent, encodeComponent, URI.encode_plain plainName,
    URI.encode_plain plainValue] at apart
  have nameApart := List.count_eq_zero.mp (Nat.eq_zero_of_add_eq_zero_right apart)
  have valueApart := List.count_eq_zero.mp (Nat.eq_zero_of_add_eq_zero_left apart)
  constructor
  · intro c inside
    exact ⟨plainName c inside, fun wrong => equals param among (wrong ▸ inside),
      fun wrong => nameApart (wrong ▸ inside)⟩
  · intro c inside
    exact ⟨plainValue c inside, fun wrong => valueApart (wrong ▸ inside)⟩

theorem decode_intact {s : Text} (plain : ∀ c ∈ s, URI.Plain c) : URI.decode s = .ok s := by
  refine URI.decodeRest_plain s fun among => ?_
  exact URI.percent_not_plain (plain _ among)

theorem adds_of_intact (named : ∀ param ∈ params, param.1 ≠ [])
    (intact : ∀ param ∈ params, Intact param) : Adds [] [] (encodeParams params) params := by
  induction params with
  | nil => exact .done
  | cons param params induction =>
      rcases param with ⟨name, value⟩
      have nonempty : name ≠ [] := named _ List.mem_cons_self
      obtain ⟨inName, inValue⟩ := intact _ List.mem_cons_self
      have plainName : ∀ c ∈ name, URI.Plain c := fun c among => (inName c among).1
      have plainValue : ∀ c ∈ value, URI.Plain c := fun c among => (inValue c among).1
      have decodedName := decode_intact plainName
      have decodedValue := decode_intact plainValue
      have others := induction (fun param among => named param (List.mem_cons_of_mem _ among))
        fun param among => intact param (List.mem_cons_of_mem _ among)
      have nameEquals : (61 : BitVec 8) ∉ name := fun among => (inName _ among).2.1 rfl
      have nameAmpersand : (38 : BitVec 8) ∉ name := fun among => (inName _ among).2.2 rfl
      have valueAmpersand : (38 : BitVec 8) ∉ value := fun among => (inValue _ among).2 rfl
      cases params with
      | nil =>
          rw [encodeParams, encodeComponent, encodeComponent, URI.encode_plain plainName,
            URI.encode_plain plainValue]
          refine Adds.append nameAmpersand (fun _ => nameEquals) ?_
          refine Adds.name nonempty decodedName ?_
          rw [← List.append_nil value]
          refine Adds.append valueAmpersand (fun wrong => absurd wrong nonempty) ?_
          rw [List.append_nil]
          exact Adds.lastValue nonempty decodedValue
      | cons next params =>
          rw [encodeParams, encodeComponent, encodeComponent, URI.encode_plain plainName,
            URI.encode_plain plainValue]
          · refine Adds.append nameAmpersand (fun _ => nameEquals) ?_
            refine Adds.name nonempty decodedName ?_
            refine Adds.append valueAmpersand (fun wrong => absurd wrong nonempty) ?_
            exact Adds.value nonempty decodedValue others
          · exact List.cons_ne_nil _ _

/-- An encoder to which the parameters were added. -/
def encoded (path : Text) (params : List (Text × Text)) : QueryStringEncoder :=
  params.foldl (fun encoder param => encoder.addParam param.1 param.2)
    (QueryStringEncoder.fresh path)

theorem encoded_fields (path : Text) (params : List (Text × Text)) :
    encoded path params = ⟨path, params⟩ := by
  have grows : ∀ before : List (Text × Text),
      params.foldl (fun encoder param => QueryStringEncoder.addParam encoder param.1 param.2)
        ⟨path, before⟩ = ⟨path, before ++ params⟩ := by
    induction params with
    | nil =>
        intro before
        rw [List.append_nil]
        rfl
    | cons param params induction =>
        intro before
        rw [List.foldl_cons, QueryStringEncoder.addParam, induction, List.append_assoc]
        rfl
  exact grows []

/-- What a decoder tells: the path and then the parameters. -/
def answers : Exec QueryStringDecoder (Text × ParametersType) := do
  let path ← getPath
  let params ← getParameters
  pure (path, params)

theorem path_found {rest : Text} (unquestioned : 63 ∉ path) :
    (path ++ 63 :: rest).takeWhile (· != 63) = path := by
  have before : ∀ c ∈ path, (c != 63) = true := by
    intro c among
    simpa using fun same : c = 63 => unquestioned (same ▸ among)
  rw [List.takeWhile_append_of_pos before]
  simp

theorem path_alone (unquestioned : 63 ∉ path) :
    path.takeWhile (· != 63) = path := by
  refine List.takeWhile_eq_self_iff.mpr fun c among => ?_
  simpa using fun same : c = 63 => unquestioned (same ▸ among)

theorem getPath_run {decoder : QueryStringDecoder}
    (first : decoder.uri.takeWhile (· != 63) = path)
    (made : decoder.path = [] ∨ decoder.path = path) :
    getPath.run decoder = .ok path { decoder with path } := by
  rw [getPath, run_bind_get]
  by_cases empty : decoder.path = []
  · rw [if_pos empty, ← first]
    rfl
  · have same := made.resolve_left empty
    rw [if_neg empty, same, ← same]
    rfl

theorem query_length (path query : Text) : (path ++ 63 :: query).length ≠ path.length := by
  rw [List.length_append, List.length_cons]
  omega

theorem query_rest (path query : Text) : (path ++ 63 :: query).drop (path.length + 1) = query := by
  rw [List.drop_append, List.drop_of_length_le (Nat.le_succ _), Nat.add_sub_cancel_left]
  rfl

theorem getParameters_alone (unquestioned : 63 ∉ path) :
    getParameters.run ⟨path, path, []⟩ = .ok [] ⟨path, path, []⟩ := by
  have found : getPath.run ⟨path, path, []⟩ = .ok path ⟨path, path, []⟩ :=
    getPath_run (path_alone unquestioned) (.inr rfl)
  rw [getParameters, run_bind_get]
  rw [if_pos rfl, run_bind_ok _ found, run_bind_get]
  rw [if_neg (fun wrong => wrong rfl)]
  rfl

theorem getParameters_query (unquestioned : 63 ∉ path) (query : Text) :
    getParameters.run ⟨path ++ 63 :: query, path, []⟩ =
      (do
        onParams (decodeParams query)
        pure (← get).params : Exec QueryStringDecoder ParametersType).run
          ⟨path ++ 63 :: query, path, []⟩ := by
  have found : getPath.run ⟨path ++ 63 :: query, path, []⟩ =
      .ok path ⟨path ++ 63 :: query, path, []⟩ := getPath_run (path_found unquestioned) (.inr rfl)
  rw [getParameters, run_bind_get]
  rw [if_pos rfl, run_bind_ok _ found, run_bind_get]
  rw [if_pos (query_length path query), query_rest]

theorem answers_start {uri : Text} (first : uri.takeWhile (· != 63) = path) :
    answers.run (QueryStringDecoder.fresh uri) = (do
      let params ← getParameters
      pure (path, params) : Exec QueryStringDecoder (Text × ParametersType)).run
        ⟨uri, path, []⟩ := by
  have found : getPath.run (QueryStringDecoder.fresh uri) = .ok path ⟨uri, path, []⟩ :=
    getPath_run first (.inl rfl)
  rw [answers, run_bind_ok _ found]

theorem answers_alone (unquestioned : 63 ∉ path) :
    answers.run (QueryStringDecoder.fresh path) = .ok (path, []) ⟨path, path, []⟩ := by
  rw [answers_start (path_alone unquestioned), run_bind_ok _ (getParameters_alone unquestioned)]
  rfl

theorem answers_of_decode {query : Text} (unquestioned : 63 ∉ path) {found : ParametersType}
    (decoded : (decodeParams query).run [] = .ok () found) :
    answers.run (QueryStringDecoder.fresh (path ++ 63 :: query)) =
      .ok (path, found) ⟨path ++ 63 :: query, path, found⟩ := by
  have focused : (onParams (decodeParams query)).run ⟨path ++ 63 :: query, path, []⟩ =
      .ok () ⟨path ++ 63 :: query, path, found⟩ := run_focus_ok decoded
  have told : getParameters.run ⟨path ++ 63 :: query, path, []⟩ =
      .ok found ⟨path ++ 63 :: query, path, found⟩ := by
    rw [getParameters_query unquestioned, run_bind_ok _ focused]
    rfl
  rw [answers_start (path_found unquestioned), run_bind_ok _ told]
  rfl

theorem decode_of_answers {query other : Text} (unquestioned : 63 ∉ path)
    {found : ParametersType} {after : QueryStringDecoder}
    (told : answers.run (QueryStringDecoder.fresh (path ++ 63 :: query)) =
      .ok (other, found) after) : (decodeParams query).run [] = .ok () found := by
  rw [answers_start (path_found unquestioned)] at told
  obtain ⟨params, middle, asked, last⟩ := ok_of_run_bind told
  cases last
  rw [getParameters_query unquestioned] at asked
  cases decoded : (decodeParams query).run [] with
  | ok value params =>
      have focused : (onParams (decodeParams query)).run ⟨path ++ 63 :: query, path, []⟩ =
          .ok value ⟨path ++ 63 :: query, path, params⟩ := run_focus_ok decoded
      rw [run_bind_ok _ focused] at asked
      cases asked
      rfl
  | error stop params =>
      have focused : (onParams (decodeParams query)).run ⟨path ++ 63 :: query, path, []⟩ =
          .error stop ⟨path ++ 63 :: query, path, params⟩ := run_focus_error decoded
      rw [run_bind_error _ focused] at asked
      cases asked

/-- Path and parameters come back exactly when no parameter has a character that is escaped, or a
separator where the decoder looks for one. -/
theorem query_strings_survive_iff (path : Text) (params : List (Text × Text))
    (unquestioned : 63 ∉ path) (named : ∀ param ∈ params, param.1 ≠ []) :
    (∃ found after,
      answers.run (QueryStringDecoder.fresh (encoded path params).toString) =
        .ok (path, found) after ∧
      ∀ name, found.values name = added params name) ↔
    ∀ param ∈ params, Intact param := by
  rw [encoded_fields]
  by_cases empty : params = []
  · subst empty
    rw [QueryStringEncoder.toString, if_pos rfl]
    constructor
    · intro _ param among
      cases among
    · intro _
      exact ⟨[], _, answers_alone unquestioned, fun _ => rfl⟩
  · rw [QueryStringEncoder.toString, if_neg empty]
    constructor
    · rintro ⟨found, after, told, same⟩
      obtain ⟨adds, scan, equal⟩ := adds_of_run (decode_of_answers unquestioned told)
      refine intact_of_adds empty scan fun name => ?_
      rw [← same name, equal, ParametersType.values_addAll]
      rfl
    · intro intact
      have decoded := (adds_of_intact named intact).run []
      refine ⟨_, _, answers_of_decode unquestioned decoded, fun name => ?_⟩
      rw [ParametersType.values_addAll]
      rfl

theorem query_strings_survive_search :
    ∃ found after,
      answers.run (QueryStringDecoder.fresh
        (encoded (text "/search") [(text "q", text "x=1"), (text "q", [])]).toString) =
        .ok (text "/search", found) after ∧
      ∀ name, found.values name = added [(text "q", text "x=1"), (text "q", [])] name :=
  (query_strings_survive_iff (text "/search") [(text "q", text "x=1"), (text "q", [])]
    (by decide) (by decide)).mpr (by decide)

/-- A blank in a value: what comes back is the character of the digits that follow the `2`. -/
theorem blank_in_query_changes :
    ¬ ∃ found after,
      answers.run (QueryStringDecoder.fresh
        (encoded (text "/search") [(text "q", text "a b")]).toString) =
        .ok (text "/search", found) after ∧
      ∀ name, found.values name = added [(text "q", text "a b")] name := by
  rintro ⟨found, after, told, same⟩
  have value := same (text "q")
  have run : answers.run (QueryStringDecoder.fresh
      (encoded (text "/search") [(text "q", text "a b")]).toString) =
      .ok (text "/search", [(text "q", [text "a+"])])
        ⟨text "/search?q=a%2b", text "/search", [(text "q", [text "a+"])]⟩ := rfl
  rw [run] at told
  cases told
  revert value
  decide

end Cetty
