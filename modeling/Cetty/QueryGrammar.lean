import Mathlib.Data.List.Nodup
import Cetty.QueryRoundTrip

/-!
# The grammar of a query string

What the scan of `decodeParams` should find is said segment by segment: the string is split at the
ampersands, and a segment without its leading equals signs is split at the first one that remains.
The map that is kept is the map that is filled, also by a call that throws.
-/

namespace Cetty

open CLocale

namespace URI

/-- Every percent sign has two hexadecimal digits behind it. -/
def WellFormed : Text → Bool
  | [] => true
  | c :: rest =>
      if c = percent then
        match rest with
        | [] => false
        | [_] => false
        | hi :: lo :: rest => (xdigit hi).isSome && (xdigit lo).isSome && WellFormed rest
      else WellFormed rest

/-- The text with a character in the place of every escape. -/
def unescape : Text → Text
  | [] => []
  | c :: rest =>
      if c = percent then
        match rest with
        | [] => [c]
        | [other] => [c, other]
        | hi :: lo :: rest =>
            BitVec.ofNat 8 ((xdigit hi).getD 0 * 16 + (xdigit lo).getD 0) :: unescape rest
      else c :: unescape rest

variable {c : BitVec 8} {rest str : Text}

theorem wellFormed_cons (different : c ≠ percent) (rest : Text) :
    WellFormed (c :: rest) = WellFormed rest := by
  cases rest with
  | nil => simp only [WellFormed, if_neg different]
  | cons hi rest =>
      cases rest with
      | nil => simp only [WellFormed, if_neg different]
      | cons lo rest => simp only [WellFormed, if_neg different]

theorem wellFormed_escape (hi lo : BitVec 8) (rest : Text) :
    WellFormed (percent :: hi :: lo :: rest) =
      ((xdigit hi).isSome && (xdigit lo).isSome && WellFormed rest) := by
  simp only [WellFormed, if_true]

theorem unescape_cons (different : c ≠ percent) (rest : Text) :
    unescape (c :: rest) = c :: unescape rest := by
  cases rest with
  | nil => simp only [unescape, if_neg different]
  | cons hi rest =>
      cases rest with
      | nil => simp only [unescape, if_neg different]
      | cons lo rest => simp only [unescape, if_neg different]

theorem unescape_escape (hi lo : BitVec 8) (rest : Text) :
    unescape (percent :: hi :: lo :: rest) =
      BitVec.ofNat 8 ((xdigit hi).getD 0 * 16 + (xdigit lo).getD 0) :: unescape rest := by
  simp only [unescape, if_true]

theorem hexDigit_some (digit : (xdigit c).isSome = true) :
    hexDigit c = .ok ((xdigit c).getD 0) := by
  unfold hexDigit
  cases value : xdigit c with
  | none =>
      rw [value] at digit
      cases digit
  | some value => rfl

theorem decodeRest_wellFormed (str : Text) (formed : WellFormed rest = true) :
    decodeRest str rest = .ok (unescape rest) := by
  induction rest using decodeRest.induct with
  | case1 => rfl
  | case2 => cases formed
  | case3 => cases formed
  | case4 hi lo rest induction =>
      rw [wellFormed_escape] at formed
      obtain ⟨digits, others⟩ := Bool.and_eq_true_iff.mp formed
      obtain ⟨high, low⟩ := Bool.and_eq_true_iff.mp digits
      rw [decodeRest_escape, hexDigit_some high, hexDigit_some low, induction others,
        unescape_escape]
      rfl
  | case5 c rest different induction =>
      rw [wellFormed_cons different] at formed
      rw [decodeRest_cons str different, induction formed, unescape_cons different]
      rfl

/-- A well-formed text is decoded. -/
theorem decode_wellFormed (formed : WellFormed str = true) :
    decode str = .ok (unescape str) :=
  decodeRest_wellFormed str formed

/-- The decoding of a text that is not well-formed throws. -/
theorem decodeRest_malformed (str : Text) (malformed : WellFormed rest = false) :
    ∃ stop, decodeRest str rest = .error stop := by
  induction rest using decodeRest.induct with
  | case1 => cases malformed
  | case2 => exact ⟨_, rfl⟩
  | case3 => exact ⟨_, rfl⟩
  | case4 hi lo rest induction =>
      rw [wellFormed_escape] at malformed
      rw [decodeRest_escape]
      unfold hexDigit
      cases high : xdigit hi with
      | none => exact ⟨_, rfl⟩
      | some upper =>
          cases low : xdigit lo with
          | none => exact ⟨_, rfl⟩
          | some lower =>
              rw [high, low] at malformed
              obtain ⟨stop, stopped⟩ := induction malformed
              rw [stopped]
              exact ⟨stop, rfl⟩
  | case5 c rest different induction =>
      rw [wellFormed_cons different] at malformed
      obtain ⟨stop, stopped⟩ := induction malformed
      rw [decodeRest_cons str different, stopped]
      exact ⟨stop, rfl⟩

theorem unescape_nonempty (present : str ≠ []) : unescape str ≠ [] := by
  induction str using decodeRest.induct with
  | case1 => exact absurd rfl present
  | case2 => exact List.cons_ne_nil _ _
  | case3 other => exact List.cons_ne_nil _ _
  | case4 hi lo rest _ =>
      rw [unescape_escape]
      exact List.cons_ne_nil _ _
  | case5 c rest different _ =>
      rw [unescape_cons different]
      exact List.cons_ne_nil _ _

section

variable {separator : BitVec 8} (plain : separator ≠ percent) (none : xdigit separator = none)

include plain none

/-- A separator is no part of an escape. -/
theorem wellFormed_split (first second : Text) :
    WellFormed (first ++ separator :: second) = (WellFormed first && WellFormed second) := by
  induction first using decodeRest.induct with
  | case1 =>
      rw [List.nil_append, wellFormed_cons plain]
      rfl
  | case2 =>
      cases second with
      | nil => rfl
      | cons c second =>
          rw [List.cons_append, List.nil_append, wellFormed_escape, none]
          rfl
  | case3 hi =>
      rw [List.cons_append, List.cons_append, List.nil_append, wellFormed_escape, none,
        Option.isSome_none, Bool.and_false]
      rfl
  | case4 hi lo rest induction =>
      rw [List.cons_append, List.cons_append, List.cons_append, wellFormed_escape,
        wellFormed_escape, induction, Bool.and_assoc _ (WellFormed rest)]
  | case5 c rest different induction =>
      rw [List.cons_append, wellFormed_cons different, wellFormed_cons different, induction]

theorem wellFormed_split_iff {first second : Text} :
    WellFormed (first ++ separator :: second) = true ↔
      WellFormed first = true ∧ WellFormed second = true := by
  rw [wellFormed_split plain none, Bool.and_eq_true]

end

end URI

namespace QueryStringDecoder

/-- The name and the value of a segment; a segment of equals signs has neither. -/
def parameter (segment : Text) : Option (Text × Text) :=
  let stripped := segment.dropWhile (· == 61)
  if stripped = [] then none
  else
    some (URI.unescape (stripped.takeWhile (· != 61)),
      URI.unescape ((stripped.dropWhile (· != 61)).drop 1))

/-- The part after the first question mark. -/
def query (uri : Text) : Text := (uri.dropWhile (· != 63)).drop 1

def parametersOf (query : Text) : List (Text × Text) := (query.splitOn 38).filterMap parameter

section Segments

variable {name region segment : Text} {params : ParametersType}

/-- The value runs to the end of the segment, equals signs included. -/
theorem adds_value (named : name ≠ []) (formed : URI.WellFormed (region ++ segment) = true)
    (inside : 38 ∉ segment) :
    Adds name region segment [(name, URI.unescape (region ++ segment))] := by
  induction segment generalizing region with
  | nil =>
      rw [List.append_nil] at formed ⊢
      exact .lastValue named (URI.decode_wellFormed formed)
  | cons c segment induction =>
      rw [List.mem_cons, not_or] at inside
      have onward : region ++ c :: segment = region ++ [c] ++ segment := by
        rw [List.append_assoc, List.singleton_append]
      rw [onward] at formed ⊢
      exact .more (Ne.symm inside.1) (fun _ => named) (induction formed inside.2)

theorem takeWhile_other {c : BitVec 8} (other : c ≠ 61) (segment : Text) :
    (c :: segment).takeWhile (· != 61) = c :: segment.takeWhile (· != 61) :=
  @List.takeWhile_cons_of_pos _ (· != 61) c segment (bne_iff_ne.mpr other)

theorem dropWhile_other {c : BitVec 8} (other : c ≠ 61) (segment : Text) :
    (c :: segment).dropWhile (· != 61) = segment.dropWhile (· != 61) :=
  @List.dropWhile_cons_of_pos _ (· != 61) c segment (bne_iff_ne.mpr other)

/-- Behind its first character the name runs to the first equals sign. -/
theorem adds_name (some : region ≠ []) (formed : URI.WellFormed (region ++ segment) = true)
    (inside : 38 ∉ segment) :
    Adds [] region segment
      [(URI.unescape (region ++ segment.takeWhile (· != 61)),
        URI.unescape ((segment.dropWhile (· != 61)).drop 1))] := by
  induction segment generalizing region with
  | nil =>
      rw [List.append_nil] at formed
      rw [List.takeWhile_nil, List.append_nil]
      exact .lastName some (URI.decode_wellFormed formed)
  | cons c segment induction =>
      rw [List.mem_cons, not_or] at inside
      by_cases equals : c = 61
      · subst equals
        obtain ⟨before, after⟩ := (URI.wellFormed_split_iff (by decide) (by decide)).mp formed
        rw [List.takeWhile_cons_of_neg (by decide), List.dropWhile_cons_of_neg (by decide),
          List.append_nil, List.drop_one, List.tail_cons]
        exact .name some (URI.decode_wellFormed before)
          (adds_value (URI.unescape_nonempty some) after inside.2)
      · have onward : region ++ c :: segment = region ++ [c] ++ segment := by
          rw [List.append_assoc, List.singleton_append]
        have taken : region ++ c :: segment.takeWhile (· != 61) =
            region ++ [c] ++ segment.takeWhile (· != 61) := by
          rw [List.append_assoc, List.singleton_append]
        rw [onward] at formed
        rw [takeWhile_other equals, dropWhile_other equals, taken]
        have longer : region ++ [c] ≠ [] := List.append_ne_nil_of_right_ne_nil _ (by simp)
        exact .more (Ne.symm inside.1) (fun wrong => absurd wrong equals)
          (induction longer formed inside.2)

/-- The leading equals signs of a segment are passed one by one. -/
theorem adds_segment (formed : URI.WellFormed segment = true) (inside : 38 ∉ segment) :
    Adds [] [] segment (parameter segment).toList := by
  induction segment with
  | nil => exact .done
  | cons c segment induction =>
      rw [List.mem_cons, not_or] at inside
      by_cases equals : c = 61
      · subst equals
        have same : parameter (61 :: segment) = parameter segment := by
          unfold parameter
          rw [List.dropWhile_cons_of_pos (by decide)]
        rw [URI.wellFormed_cons (by decide)] at formed
        rw [same]
        exact .noName (induction formed inside.2)
      · have begins : parameter (c :: segment) =
            Option.some (URI.unescape ([c] ++ segment.takeWhile (· != 61)),
              URI.unescape ((segment.dropWhile (· != 61)).drop 1)) := by
          unfold parameter
          rw [List.dropWhile_cons_of_neg (by simpa using equals)]
          dsimp only
          rw [if_neg (List.cons_ne_nil _ _), takeWhile_other equals, dropWhile_other equals]
          rfl
        rw [begins]
        exact .more (Ne.symm inside.1) (fun wrong => absurd wrong equals)
          (adds_name (List.cons_ne_nil _ _) formed inside.2)

theorem component_malformed {Value : Type} {s : Text} (malformed : URI.WellFormed s = false)
    (next : Text → Exec ParametersType Value) (params : ParametersType) :
    ∃ stop, (decodeComponent s >>= next).run params = .error stop params := by
  obtain ⟨stop, stopped⟩ := URI.decodeRest_malformed s malformed
  have ran : (decodeComponent s).run params = .error stop params := by
    rw [decodeComponent, URI.decode, stopped]
    rfl
  exact ⟨stop, run_bind_error next ran⟩

/-- A segment with a malformed escape adds nothing: what it is made of is decoded before. -/
theorem segment_malformed (malformed : URI.WellFormed (region ++ segment) = false)
    (inside : 38 ∉ segment) (name : Text) (params : ParametersType) :
    ∃ stop, (decodeRest name region segment).run params = .error stop params := by
  induction segment generalizing name region with
  | nil =>
      rw [List.append_nil] at malformed
      have some : region ≠ [] := by
        rintro rfl
        cases malformed
      rw [decodeRest, if_pos some]
      by_cases named : name = []
      · rw [if_pos named]
        exact component_malformed malformed _ params
      · rw [if_neg named]
        exact component_malformed malformed _ params
  | cons c segment induction =>
      rw [List.mem_cons, not_or] at inside
      rw [decodeRest]
      by_cases equals : c = 61 ∧ name = []
      · obtain ⟨rfl, rfl⟩ := equals
        rw [URI.wellFormed_split (by decide) (by decide)] at malformed
        rw [if_pos ⟨rfl, rfl⟩]
        by_cases some : region ≠ []
        · rw [if_pos some]
          cases before : URI.WellFormed region with
          | false => exact component_malformed before _ params
          | true =>
              rw [before, Bool.true_and] at malformed
              rw [component_bind (URI.decode_wellFormed before)]
              exact @induction [] malformed inside.2 _
        · rw [if_neg some]
          rw [not_not.mp some] at malformed
          exact @induction [] malformed inside.2 _
      · have onward : region ++ c :: segment = region ++ [c] ++ segment := by
          rw [List.append_assoc, List.singleton_append]
        rw [onward] at malformed
        rw [if_neg equals, if_neg (Ne.symm inside.1)]
        exact induction malformed inside.2 name

/-- An ampersand ends what is in front of it as the end of the string does. -/
theorem decodeRest_ampersand (name region front rest : Text) :
    decodeRest name region (front ++ 38 :: rest) =
      (decodeRest name region front >>= fun _ => decodeRest [] [] rest) := by
  have nothing : decodeComponent [] = pure [] := rfl
  induction front generalizing name region with
  | nil =>
      rw [List.nil_append, decodeRest, decodeRest,
        if_neg (fun wrong => absurd wrong.1 (by decide)), if_pos rfl]
      by_cases named : name = []
      · subst named
        by_cases some : region ≠ []
        · rw [if_pos ⟨rfl, some⟩, if_pos some, if_pos rfl, bind_assoc]
        · rw [if_neg (fun wrong => some wrong.2), if_neg (fun wrong => wrong rfl), if_neg some,
            if_neg (fun wrong => wrong rfl), pure_bind]
      · rw [if_neg (fun wrong => named wrong.1), if_pos named]
        by_cases some : region ≠ []
        · rw [if_pos some, if_neg named, bind_assoc]
        · rw [if_neg some, if_pos named, not_not.mp some, nothing, pure_bind]
  | cons c front induction =>
      rw [List.cons_append, decodeRest, decodeRest]
      by_cases equals : c = 61 ∧ name = []
      · rw [if_pos equals, if_pos equals]
        by_cases some : region ≠ []
        · rw [if_pos some, if_pos some, bind_assoc]
          exact bind_congr fun component => induction component []
        · rw [if_neg some, if_neg some]
          exact induction name []
      · rw [if_neg equals, if_neg equals]
        by_cases ampersand : c = 38
        · rw [if_pos ampersand, if_pos ampersand]
          by_cases only : name = [] ∧ region ≠ []
          · rw [if_pos only, if_pos only, bind_assoc]
            refine bind_congr fun component => ?_
            rw [bind_assoc]
            exact bind_congr fun _ => induction name []
          · rw [if_neg only, if_neg only]
            by_cases named : name ≠ []
            · rw [if_pos named, if_pos named, bind_assoc]
              refine bind_congr fun component => ?_
              rw [bind_assoc]
              exact bind_congr fun _ => induction [] []
            · rw [if_neg named, if_neg named]
              exact induction name []
        · rw [if_neg ampersand, if_neg ampersand]
          exact induction name (region ++ [c])

/-- The parameters in front of the first segment with a malformed escape. -/
def promised (query : Text) : List (Text × Text) :=
  ((query.splitOn 38).takeWhile URI.WellFormed).filterMap parameter

theorem promised_single (inside : 38 ∉ segment) :
    promised segment = if URI.WellFormed segment then (parameter segment).toList else [] := by
  unfold promised
  rw [List.splitOn_eq_singleton inside, List.takeWhile_cons]
  cases URI.WellFormed segment with
  | false => rfl
  | true =>
      rw [if_pos rfl, if_pos rfl, List.takeWhile_nil, List.filterMap_cons]
      cases parameter segment <;> rfl

theorem promised_cons (inside : 38 ∉ segment) (rest : Text) :
    promised (segment ++ 38 :: rest) =
      if URI.WellFormed segment then (parameter segment).toList ++ promised rest else [] := by
  unfold promised
  rw [List.splitOn_append_cons_self_of_not_mem inside, List.takeWhile_cons]
  cases URI.WellFormed segment with
  | false => rfl
  | true =>
      rw [if_pos rfl, if_pos rfl, List.filterMap_cons]
      cases parameter segment <;> rfl

/-- The scan adds what is promised, and it throws when an escape is malformed. -/
theorem decodeParams_run (query : Text) (params : ParametersType) :
    (URI.WellFormed query = true ∧
        (decodeParams query).run params = .ok () (params.addAll (promised query))) ∨
      (URI.WellFormed query = false ∧ ∃ stop,
        (decodeParams query).run params = .error stop (params.addAll (promised query))) := by
  unfold decodeParams
  by_cases more : 38 ∈ query
  · obtain ⟨segment, rest, parts, inside⟩ := List.eq_append_cons_of_mem more
    have shorter : rest.length < query.length := by
      rw [parts, List.length_append, List.length_cons]
      omega
    rw [parts, URI.wellFormed_split (by decide) (by decide), promised_cons inside,
      decodeRest_ampersand]
    cases formed : URI.WellFormed segment with
    | false =>
        obtain ⟨stop, stopped⟩ := @segment_malformed [] segment formed inside [] params
        exact Or.inr ⟨rfl, stop, run_bind_error _ stopped⟩
    | true =>
        have added := (adds_segment formed inside).run params
        have whole : params.addAll ((parameter segment).toList ++ promised rest) =
            (params.addAll (parameter segment).toList).addAll (promised rest) := List.foldl_append
        rw [run_bind_ok _ added, Bool.true_and, if_pos rfl, whole]
        exact decodeParams_run rest _
  · rw [promised_single more]
    cases formed : URI.WellFormed query with
    | false =>
        obtain ⟨stop, stopped⟩ := @segment_malformed [] query formed more [] params
        exact Or.inr ⟨rfl, stop, stopped⟩
    | true => exact Or.inl ⟨rfl, (adds_segment formed more).run params⟩
  termination_by query.length

theorem promised_wellFormed (query : Text) (formed : URI.WellFormed query = true) :
    promised query = parametersOf query := by
  by_cases more : 38 ∈ query
  · obtain ⟨segment, rest, parts, inside⟩ := List.eq_append_cons_of_mem more
    have shorter : rest.length < query.length := by
      rw [parts, List.length_append, List.length_cons]
      omega
    rw [parts] at formed ⊢
    obtain ⟨first, second⟩ := (URI.wellFormed_split_iff (by decide) (by decide)).mp formed
    rw [promised_cons inside, if_pos first, promised_wellFormed rest second]
    unfold parametersOf
    rw [List.splitOn_append_cons_self_of_not_mem inside, List.filterMap_cons]
    cases parameter segment <;> rfl
  · rw [promised_single more, if_pos formed]
    unfold parametersOf
    rw [List.splitOn_eq_singleton more, List.filterMap_cons]
    cases parameter query <;> rfl
  termination_by query.length

end Segments

end QueryStringDecoder

namespace ParametersType

def names (params : ParametersType) : List Text := params.map Prod.fst

theorem names_addParam (params : ParametersType) (name value : Text) :
    (params.addParam name value).names =
      if name ∈ params.names then params.names else params.names ++ [name] := by
  induction params with
  | nil => rfl
  | cons entry rest induction =>
      rcases entry with ⟨key, found⟩
      unfold names at induction ⊢
      rw [addParam]
      by_cases here : key = name
      · rw [if_pos here, List.map_cons, List.map_cons, here, if_pos List.mem_cons_self]
      · have apart : name ∈ key :: rest.map Prod.fst ↔ name ∈ rest.map Prod.fst := by
          rw [List.mem_cons, or_iff_right (Ne.symm here)]
        rw [if_neg here, List.map_cons, List.map_cons, induction]
        by_cases listed : name ∈ rest.map Prod.fst
        · rw [if_pos listed, if_pos (apart.mpr listed)]
        · rw [if_neg listed, if_neg fun wrong => listed (apart.mp wrong), List.cons_append]

theorem mem_names_addParam (params : ParametersType) (name value other : Text) :
    other ∈ (params.addParam name value).names ↔ other ∈ params.names ∨ other = name := by
  rw [names_addParam]
  by_cases listed : name ∈ params.names
  · rw [if_pos listed]
    constructor
    · exact .inl
    · rintro (among | same)
      · exact among
      · exact same ▸ listed
  · rw [if_neg listed, List.mem_append, List.mem_singleton]

theorem nodup_addParam {params : ParametersType} (distinct : params.names.Nodup)
    (name value : Text) : (params.addParam name value).names.Nodup := by
  rw [names_addParam]
  by_cases listed : name ∈ params.names
  · rw [if_pos listed]
    exact distinct
  · rw [if_neg listed]
    refine List.nodup_append.mpr ⟨distinct, List.nodup_singleton name, ?_⟩
    intro other among last single
    rw [List.mem_singleton.mp single]
    exact fun equal => listed (equal ▸ among)

/-- The map holds the pairs: every name once, with its values in order. -/
structure Holds (params : ParametersType) (pairs : List (Text × Text)) : Prop where
  distinct : params.names.Nodup
  names : ∀ name, name ∈ params.names ↔ ∃ value, (name, value) ∈ pairs
  values : ∀ name, params.values name = added pairs name

theorem addAll_holds (pairs : List (Text × Text)) : Holds (addAll [] pairs) pairs where
  distinct := by
    have kept : ∀ (pairs : List (Text × Text)) (params : ParametersType), params.names.Nodup →
        (addAll params pairs).names.Nodup := by
      intro pairs
      induction pairs with
      | nil => exact fun _ distinct => distinct
      | cons pair pairs induction =>
          intro params distinct
          exact induction _ (nodup_addParam distinct pair.1 pair.2)
    exact kept pairs [] List.nodup_nil
  names := by
    have kept : ∀ (pairs : List (Text × Text)) (params : ParametersType) (name : Text),
        name ∈ (addAll params pairs).names ↔
          name ∈ params.names ∨ ∃ value, (name, value) ∈ pairs := by
      intro pairs
      induction pairs with
      | nil => simp [addAll]
      | cons pair pairs induction =>
          intro params name
          rcases pair with ⟨key, found⟩
          have others := induction (params.addParam key found) name
          rw [mem_names_addParam] at others
          have step : addAll params ((key, found) :: pairs) =
              addAll (params.addParam key found) pairs := rfl
          rw [step, others, or_assoc]
          simp only [List.mem_cons, Prod.mk.injEq, exists_or, exists_and_left, exists_eq, and_true]
    intro name
    rw [kept pairs [] name]
    simp [names]
  values := by
    intro name
    rw [values_addAll]
    rfl

end ParametersType

namespace QueryStringDecoder

/-- What a decoder of the URI may hold after some of its getters were called. -/
inductive Asked (uri : Text) : QueryStringDecoder → Prop
  | fresh : Asked uri (.fresh uri)
  | path {before after : QueryStringDecoder} {path : Text} (asked : Asked uri before)
      (ran : getPath.run before = .ok path after) : Asked uri after
  | parameters {before after : QueryStringDecoder} {params : ParametersType}
      (asked : Asked uri before) (ran : getParameters.run before = .ok params after) :
      Asked uri after

/-- The members that are made on demand are missing or what they should be. -/
structure Answering (uri : Text) (decoder : QueryStringDecoder) : Prop where
  kept : decoder.uri = uri
  path : decoder.path = [] ∨ decoder.path = uri.takeWhile (· != 63)
  params : decoder.params = [] ∨
    decoder.params = ParametersType.addAll [] (promised (query uri))

theorem uri_parts (uri : Text) :
    (63 ∉ uri ∧ uri.takeWhile (· != 63) = uri ∧ query uri = []) ∨
      uri = uri.takeWhile (· != 63) ++ 63 :: query uri := by
  by_cases asks : 63 ∈ uri
  · obtain ⟨path, rest, parts, unquestioned⟩ := List.eq_append_cons_of_mem asks
    have behind : query uri = rest := by
      have whole := @List.takeWhile_append_dropWhile _ (· != 63) uri
      rw [parts] at whole ⊢
      rw [path_found unquestioned] at whole
      rw [query, List.append_cancel_left whole]
      rfl
    refine .inr ?_
    rw [behind, parts, path_found unquestioned]
  · have alone := path_alone asks
    refine .inl ⟨asks, alone, ?_⟩
    rw [query, List.dropWhile_eq_nil_iff.mpr (List.takeWhile_eq_self_iff.mp alone)]
    rfl

section Answers

variable {uri : Text} {decoder : QueryStringDecoder}

theorem Answering.path_run (answering : Answering uri decoder) :
    getPath.run decoder = .ok (uri.takeWhile (· != 63))
      { decoder with path := uri.takeWhile (· != 63) } := by
  apply getPath_run
  · rw [answering.kept]
  · exact answering.path

/-- The scan behind the path, where there is something behind it. -/
theorem Answering.decoded_run (answering : Answering uri decoder) (empty : decoder.params = []) :
    ∃ after, Answering uri after ∧
      after.params = ParametersType.addAll [] (promised (query uri)) ∧
      (URI.WellFormed (query uri) = true ∧ getParameters.run decoder = .ok after.params after ∨
        URI.WellFormed (query uri) = false ∧ ∃ stop,
          getParameters.run decoder = .error stop after) := by
  have start : getParameters.run decoder =
      (do
        if uri.length ≠ (uri.takeWhile (· != 63)).length then
          onParams (decodeParams (uri.drop ((uri.takeWhile (· != 63)).length + 1)))
        pure (← get).params : Exec QueryStringDecoder ParametersType).run
          { decoder with path := uri.takeWhile (· != 63) } := by
    rw [getParameters, run_bind_get]
    rw [if_pos empty, run_bind_ok _ answering.path_run, run_bind_get, answering.kept]
  refine ⟨{ decoder with
    path := uri.takeWhile (· != 63)
    params := ParametersType.addAll [] (promised (query uri)) },
    ⟨answering.kept, .inr rfl, .inr rfl⟩, rfl, ?_⟩
  rw [start, empty]
  rcases uri_parts uri with ⟨unquestioned, alone, none⟩ | parts
  · rw [alone, if_neg (fun wrong => wrong rfl), none]
    exact Or.inl ⟨rfl, rfl⟩
  · have longer : uri.length ≠ (uri.takeWhile (· != 63)).length := by
      have length := congrArg List.length parts
      rw [List.length_append, List.length_cons] at length
      omega
    have behind : uri.drop ((uri.takeWhile (· != 63)).length + 1) = query uri := by
      have rest := query_rest (uri.takeWhile (· != 63)) (query uri)
      rw [← parts] at rest
      exact rest
    rw [if_pos longer, behind]
    rcases decodeParams_run (query uri) [] with ⟨formed, decoded⟩ | ⟨malformed, stop, stopped⟩
    · have focused : (onParams (decodeParams (query uri))).run
          { decoder with path := uri.takeWhile (· != 63), params := [] } = .ok () _ :=
        run_focus_ok decoded
      exact Or.inl ⟨formed, run_bind_ok _ focused⟩
    · have focused : (onParams (decodeParams (query uri))).run
          { decoder with path := uri.takeWhile (· != 63), params := [] } = .error stop _ :=
        run_focus_error stopped
      exact Or.inr ⟨malformed, stop, run_bind_error _ focused⟩

theorem Answering.told_run (decoder : QueryStringDecoder) (some_ : decoder.params ≠ []) :
    getParameters.run decoder = .ok decoder.params decoder := by
  rw [getParameters, run_bind_get]
  rw [if_neg some_]
  rfl

theorem Answering.parameters_run (answering : Answering uri decoder)
    (formed : URI.WellFormed (query uri) = true) :
    ∃ after, getParameters.run decoder =
        .ok (ParametersType.addAll [] (promised (query uri))) after ∧ Answering uri after := by
  by_cases empty : decoder.params = []
  · obtain ⟨after, stands, same, ⟨-, ran⟩ | ⟨malformed, -⟩⟩ := answering.decoded_run empty
    · rw [same] at ran
      exact ⟨after, ran, stands⟩
    · rw [formed] at malformed
      cases malformed
  · have told := Answering.told_run decoder empty
    rw [answering.params.resolve_left empty] at told
    exact ⟨decoder, told, answering⟩

theorem Asked.answering (asked : Asked uri decoder)
    (formed : URI.WellFormed (query uri) = true) : Answering uri decoder := by
  induction asked with
  | fresh => exact ⟨rfl, .inl rfl, .inl rfl⟩
  | path asked ran induction =>
      rw [induction.path_run] at ran
      cases ran
      exact ⟨induction.kept, .inr rfl, induction.params⟩
  | parameters asked ran induction =>
      obtain ⟨after, told, answering⟩ := induction.parameters_run formed
      rw [told] at ran
      cases ran
      exact answering

theorem wellFormed_query (formed : URI.WellFormed uri = true) :
    URI.WellFormed (query uri) = true := by
  rcases uri_parts uri with ⟨-, -, none⟩ | parts
  · rw [none]
    rfl
  · rw [parts] at formed
    exact ((URI.wellFormed_split_iff (by decide) (by decide)).mp formed).2

end Answers

/-- Whatever has been asked before, the parameters of a well-formed URI are those of the grammar,
each name with its values in the order of the query. -/
theorem parameters_of_grammar (uri : Text) (formed : URI.WellFormed uri = true)
    (decoder : QueryStringDecoder) (asked : Asked uri decoder) :
    ∃ params after, getParameters.run decoder = .ok params after ∧
      ParametersType.Holds params (parametersOf (query uri)) := by
  have scanned := wellFormed_query formed
  obtain ⟨after, told, _⟩ := (asked.answering scanned).parameters_run scanned
  rw [promised_wellFormed _ scanned] at told
  exact ⟨_, after, told, ParametersType.addAll_holds _⟩

theorem parameters_of_grammar_escaped :
    ∃ params after, getParameters.run (.fresh (text "/foo?a=1=&&==%62=2&a")) = .ok params after ∧
      ParametersType.Holds params
        [(text "a", text "1="), (text "b", text "2"), (text "a", [])] := by
  have pairs : parametersOf (query (text "/foo?a=1=&&==%62=2&a")) =
      [(text "a", text "1="), (text "b", text "2"), (text "a", [])] := by decide +kernel
  have found := parameters_of_grammar (text "/foo?a=1=&&==%62=2&a") (by decide +kernel) _ .fresh
  rw [pairs] at found
  exact found

end QueryStringDecoder

namespace QueryStringDecoder

/-- What a decoder is after further calls of its getters, whichever way they end. -/
inductive Later (start : QueryStringDecoder) : QueryStringDecoder → Prop
  | here : Later start start
  | path {before after : QueryStringDecoder} {path : Text} (later : Later start before)
      (ran : getPath.run before = .ok path after) : Later start after
  | returned {before after : QueryStringDecoder} {params : ParametersType}
      (later : Later start before) (ran : getParameters.run before = .ok params after) :
      Later start after
  | thrown {before after : QueryStringDecoder} {stop : Stop} (later : Later start before)
      (ran : getParameters.run before = .error stop after) : Later start after

/-- Behind a call that throws every call throws, and behind one that returns every call returns the
same. -/
structure Steadfast (uri : Text) : Prop where
  throws : ∀ before after later stop, Later (.fresh uri) before →
    getParameters.run before = .error stop after → Later after later →
      ∃ stop last, getParameters.run later = .error stop last
  returns : ∀ before after later params, Later (.fresh uri) before →
    getParameters.run before = .ok params after → Later after later →
      ∃ last, getParameters.run later = .ok params last

section Repeating

variable {uri : Text} {start decoder after : QueryStringDecoder}

theorem Answering.onward (answering : Answering uri decoder) :
    (∀ params, getParameters.run decoder = .ok params after → Answering uri after) ∧
      (∀ stop, getParameters.run decoder = .error stop after → Answering uri after) := by
  by_cases empty : decoder.params = []
  · obtain ⟨after', stands, -, ⟨-, told⟩ | ⟨-, stop', told⟩⟩ := answering.decoded_run empty
    · refine ⟨fun params ran => ?_, fun stop ran => ?_⟩
      · rw [told] at ran
        cases ran
        exact stands
      · rw [told] at ran
        cases ran
    · refine ⟨fun params ran => ?_, fun stop ran => ?_⟩
      · rw [told] at ran
        cases ran
      · rw [told] at ran
        cases ran
        exact stands
  · have told := Answering.told_run decoder empty
    refine ⟨fun params ran => ?_, fun stop ran => ?_⟩
    · rw [told] at ran
      cases ran
      exact answering
    · rw [told] at ran
      cases ran

theorem Later.answering (answering : Answering uri start) (later : Later start decoder) :
    Answering uri decoder := by
  induction later with
  | here => exact answering
  | path later ran induction =>
      rw [induction.path_run] at ran
      cases ran
      exact ⟨induction.kept, .inr rfl, induction.params⟩
  | returned later ran induction => exact induction.onward.1 _ ran
  | thrown later ran induction => exact induction.onward.2 _ ran

theorem answering_fresh (uri : Text) : Answering uri (.fresh uri) := ⟨rfl, .inl rfl, .inl rfl⟩

/-- The map is empty only when nothing is promised. -/
theorem addAll_empty_iff (pairs : List (Text × Text)) :
    ParametersType.addAll [] pairs = [] ↔ pairs = [] := by
  constructor
  · intro empty
    cases pairs with
    | nil => rfl
    | cons pair pairs =>
        have listed := ((ParametersType.addAll_holds (pair :: pairs)).names pair.1).mpr
          ⟨pair.2, List.mem_cons_self⟩
        rw [empty] at listed
        cases listed
  · rintro rfl
    rfl

/-- A malformed escape behind nothing is found by every call. -/
theorem Answering.throws (answering : Answering uri decoder)
    (malformed : URI.WellFormed (query uri) = false) (nothing : promised (query uri) = []) :
    ∃ stop last, getParameters.run decoder = .error stop last := by
  have empty : decoder.params = [] := by
    rcases answering.params with empty | same
    · exact empty
    · rw [same, nothing]
      rfl
  obtain ⟨after, -, -, ⟨formed, -⟩ | ⟨-, stop, told⟩⟩ := answering.decoded_run empty
  · rw [malformed] at formed
    cases formed
  · exact ⟨stop, after, told⟩

theorem steadfast_of_plain
    (plain : URI.WellFormed (query uri) = true ∨ promised (query uri) = []) : Steadfast uri := by
  refine ⟨fun before after later stop reached ran behind => ?_,
    fun before after later params reached ran behind => ?_⟩
  · have stands := reached.answering (answering_fresh uri)
    have stands' := behind.answering (stands.onward.2 stop ran)
    cases formed : URI.WellFormed (query uri) with
    | true =>
        obtain ⟨last, told, -⟩ := stands.parameters_run formed
        rw [told] at ran
        cases ran
    | false =>
        rw [formed] at plain
        exact stands'.throws formed (plain.resolve_left Bool.false_ne_true)
  · have stands := reached.answering (answering_fresh uri)
    have stands' := behind.answering (stands.onward.1 params ran)
    cases formed : URI.WellFormed (query uri) with
    | true =>
        obtain ⟨last, told, -⟩ := stands.parameters_run formed
        obtain ⟨last', told', -⟩ := stands'.parameters_run formed
        rw [told] at ran
        cases ran
        exact ⟨last', told'⟩
    | false =>
        rw [formed] at plain
        obtain ⟨stop, last, told⟩ := stands.throws formed (plain.resolve_left Bool.false_ne_true)
        rw [told] at ran
        cases ran

/-- Behind a call that throws with something in the map a call returns that. -/
theorem not_steadfast (malformed : URI.WellFormed (query uri) = false)
    (some_ : promised (query uri) ≠ []) : ¬Steadfast uri := by
  intro steadfast
  obtain ⟨after, -, same, ⟨formed, -⟩ | ⟨-, stop, told⟩⟩ := (answering_fresh uri).decoded_run rfl
  · rw [malformed] at formed
    cases formed
  · have filled : after.params ≠ [] := by
      rw [same]
      exact fun empty => some_ ((addAll_empty_iff _).mp empty)
    obtain ⟨stop', last, again⟩ := steadfast.throws _ _ _ stop .here told .here
    rw [Answering.told_run after filled] at again
    cases again

end Repeating

/-- The parameters of a URI stay what a first call makes of them when every escape of its query is
well-formed, or when no parameter stands in front of the first segment with a malformed one. -/
theorem parameters_steadfast_iff (uri : Text) :
    Steadfast uri ↔ URI.WellFormed (query uri) = true ∨ promised (query uri) = [] := by
  refine ⟨fun steadfast => ?_, steadfast_of_plain⟩
  cases formed : URI.WellFormed (query uri) with
  | true => exact Or.inl rfl
  | false =>
      by_contra wrong
      exact not_steadfast formed (fun none => wrong (Or.inr none)) steadfast

/-- The second call returns the first parameter of `/foo?a=1&b=%zz`. -/
theorem parameters_steadfast_broken : ¬Steadfast (text "/foo?a=1&b=%zz") :=
  not_steadfast (by decide +kernel) (by decide +kernel)

end QueryStringDecoder

end Cetty
