import Mathlib.Data.List.TakeWhile
import Cetty.HeaderLookups
import Cetty.HttpMessageEncoder

/-!
# Header lines

A reader of header lines takes a line feed for the end of a line unless a blank follows it. Every
header that was let in is one such line, and name and value can be read off it.
-/

namespace Cetty

open CLocale

namespace DefaultHttpHeader

/-- A blank in front continues the line before. -/
def continues (rest : Text) : Bool :=
  rest.head? == some HttpCodecUtil.SP || rest.head? == some HttpCodecUtil.HT

/-- The lines of a text, from the beginning of one that was read already. -/
def lines (line : Text) : Text → List Text
  | [] => if line = [] then [] else [line]
  | c :: rest =>
      if c = HttpCodecUtil.LF ∧ continues rest = false then line :: lines [] rest
      else lines (line ++ [c]) rest

/-- Name and value of a line: the first colon, a blank, and the carriage return at the end. -/
def fields (line : Text) : Option (Text × Text) :=
  match line.dropWhile fun c => c != HttpCodecUtil.COLON with
  | _ :: space :: rest =>
      if space = HttpCodecUtil.SP ∧ rest.getLast? = some HttpCodecUtil.CR then
        some (line.takeWhile fun c => c != HttpCodecUtil.COLON, rest.dropLast)
      else none
  | _ => none

/-- Every line feed is continued. -/
def Folded : Text → Prop
  | [] => True
  | c :: rest => (c = HttpCodecUtil.LF → continues rest = true) ∧ Folded rest

theorem continues_append {first : Text} (folds : continues first = true) (second : Text) :
    continues (first ++ second) = true := by
  cases first with
  | nil => cases folds
  | cons c rest => exact folds

theorem Folded.append {first second : Text} (before : Folded first) (later : Folded second) :
    Folded (first ++ second) := by
  induction first with
  | nil => exact later
  | cons c rest induction =>
      exact ⟨fun feed => continues_append (before.1 feed) second, induction before.2⟩

theorem Folded.of_no_feed {characters : Text} (none : HttpCodecUtil.LF ∉ characters) :
    Folded characters := by
  induction characters with
  | nil => exact trivial
  | cons c rest induction =>
      refine ⟨fun feed => ?_, induction fun among => none (List.mem_cons_of_mem _ among)⟩
      exact absurd (feed ▸ List.mem_cons_self) none

theorem lines_folded {characters : Text} (folded : Folded characters) (line rest : Text) :
    lines line (characters ++ rest) = lines (line ++ characters) rest := by
  induction characters generalizing line with
  | nil => rw [List.nil_append, List.append_nil]
  | cons c characters induction =>
      have stays : ¬(c = HttpCodecUtil.LF ∧ continues (characters ++ rest) = false) := by
        rintro ⟨feed, ends⟩
        rw [continues_append (folded.1 feed) rest] at ends
        cases ends
      rw [List.cons_append, lines, if_neg stays, induction folded.2, List.append_assoc]
      rfl

theorem validateCharacter_ok {value : Text} {state next : HttpCodecUtil.ValueState} {c : BitVec 8}
    (step : HttpCodecUtil.validateCharacter value state c = .ok next) :
    (c = HttpCodecUtil.LF → next = .afterLF) ∧
      (state = .afterLF → c = HttpCodecUtil.HT ∨ c = HttpCodecUtil.SP) := by
  unfold HttpCodecUtil.validateCharacter at step
  by_cases tab : c = 11
  · rw [if_pos tab] at step
    cases step
  · rw [if_neg tab] at step
    by_cases form : c = 12
    · rw [if_pos form] at step
      cases step
    · rw [if_neg form] at step
      cases state with
      | other =>
          cases step
          refine ⟨fun feed => ?_, fun wrong => nomatch wrong⟩
          rw [feed]
          rfl
      | afterCR =>
          by_cases feed : c = HttpCodecUtil.LF
          · simp only [if_pos feed] at step
            cases step
            exact ⟨fun _ => rfl, fun wrong => nomatch wrong⟩
          · simp only [if_neg feed] at step
            cases step
      | afterLF =>
          by_cases blank : c = HttpCodecUtil.HT ∨ c = HttpCodecUtil.SP
          · refine ⟨fun feed => ?_, fun _ => blank⟩
            rw [feed] at blank
            exact absurd blank (by decide)
          · simp only [if_neg blank] at step
            cases step

/-- The scanner of a value leaves no line feed without a blank behind it. -/
theorem folded_of_scan {value rest : Text} {state : HttpCodecUtil.ValueState}
    (scanned : rest.foldlM (HttpCodecUtil.validateCharacter value) state = .ok .other) :
    Folded rest ∧ (state = .afterLF → continues rest = true) := by
  induction rest generalizing state with
  | nil =>
      cases scanned
      exact ⟨trivial, fun wrong => nomatch wrong⟩
  | cons c rest induction =>
      rw [List.foldlM_cons] at scanned
      cases step : HttpCodecUtil.validateCharacter value state c with
      | error stop =>
          rw [step] at scanned
          cases scanned
      | ok next =>
          rw [step] at scanned
          obtain ⟨later, needs⟩ := induction scanned
          obtain ⟨feed, blank⟩ := validateCharacter_ok step
          refine ⟨⟨fun same => needs (feed same), later⟩, fun after => ?_⟩
          rcases blank after with same | same
          · rw [same]
            rfl
          · rw [same]
            rfl

theorem folded_of_valid {value : Text} (valid : validValue value = true) : Folded value := by
  unfold validValue accepted HttpCodecUtil.validateHeaderValue at valid
  cases scanned : value.foldlM (HttpCodecUtil.validateCharacter value) .other with
  | error stop =>
      rw [scanned] at valid
      cases valid
  | ok state =>
      rw [scanned] at valid
      cases state with
      | other => exact (folded_of_scan scanned).1
      | afterCR => cases valid
      | afterLF => cases valid

theorem allowed_of_valid {name : Text} (valid : validName name = true) :
    ∀ c ∈ name, HttpCodecUtil.prohibitedInName c = false := by
  rcases validName_cases name with ⟨_, same⟩ | ⟨refused, _⟩
  · unfold HttpCodecUtil.validateHeaderName at same
    by_cases prohibited : name.any HttpCodecUtil.prohibitedInName = true
    · rw [if_pos prohibited] at same
      cases same
    · intro c among
      exact Bool.eq_false_iff.mpr fun wrong => prohibited (List.any_eq_true.mpr ⟨c, among, wrong⟩)
  · rw [valid] at refused
    cases refused

/-- A header line without its line feed. -/
def headLine (header : Text × Text) : Text :=
  header.1 ++ HttpCodecUtil.COLON :: HttpCodecUtil.SP :: (header.2 ++ [HttpCodecUtil.CR])

theorem encodeHeader_line (header : Text × Text) :
    HttpMessageEncoder.encodeHeader header.1 header.2 = headLine header ++ [HttpCodecUtil.LF] := by
  unfold HttpMessageEncoder.encodeHeader headLine
  simp

def ValidHeader (header : Text × Text) : Prop :=
  validName header.1 = true ∧ validValue header.2 = true

theorem headLine_folded {header : Text × Text} (valid : ValidHeader header) :
    Folded (headLine header) := by
  have name : Folded header.1 := by
    refine Folded.of_no_feed fun among => ?_
    have allowed := allowed_of_valid valid.1 _ among
    revert allowed
    decide
  have value : Folded (header.2 ++ [HttpCodecUtil.CR]) :=
    (folded_of_valid valid.2).append (Folded.of_no_feed (by decide))
  have front : Folded [HttpCodecUtil.COLON, HttpCodecUtil.SP] := Folded.of_no_feed (by decide)
  exact name.append (front.append value)

section

variable {headers : List (Text × Text)} (valid : ∀ header ∈ headers, ValidHeader header)

include valid

theorem encoded_starts :
    continues (HttpMessageEncoder.encodeHeaders headers) = false := by
  cases headers with
  | nil => rfl
  | cons header headers =>
      have allowed := allowed_of_valid (valid header List.mem_cons_self).1
      rcases header with ⟨name, value⟩
      cases name with
      | nil => rfl
      | cons c name =>
          have first : HttpCodecUtil.prohibitedInName c = false := allowed c List.mem_cons_self
          have blank : c ≠ HttpCodecUtil.SP := by
            intro same
            rw [same] at first
            cases first
          have tab : c ≠ HttpCodecUtil.HT := by
            intro same
            rw [same] at first
            cases first
          change (some c == some HttpCodecUtil.SP || some c == some HttpCodecUtil.HT) = false
          simp [blank, tab]

theorem lines_encoded :
    lines [] (HttpMessageEncoder.encodeHeaders headers) = headers.map headLine := by
  induction headers with
  | nil => rfl
  | cons header headers induction =>
      have others : ∀ other ∈ headers, ValidHeader other :=
        fun other among => valid other (List.mem_cons_of_mem _ among)
      have ends := encoded_starts others
      have split : HttpMessageEncoder.encodeHeaders (header :: headers) =
          headLine header ++ HttpCodecUtil.LF :: HttpMessageEncoder.encodeHeaders headers := by
        unfold HttpMessageEncoder.encodeHeaders
        rw [List.flatMap_cons, encodeHeader_line, List.append_assoc]
        rfl
      rw [split, lines_folded (headLine_folded (valid header List.mem_cons_self)), List.nil_append,
        lines, if_pos ⟨rfl, ends⟩, induction others]
      rfl

end

theorem fields_line {header : Text × Text} (valid : ValidHeader header) :
    fields (headLine header) = some header := by
  have before : ∀ c ∈ header.1, (c != HttpCodecUtil.COLON) = true := by
    intro c among
    have allowed := allowed_of_valid valid.1 c among
    rw [bne_iff_ne]
    intro same
    rw [same] at allowed
    cases allowed
  have rest : (headLine header).dropWhile (fun c => c != HttpCodecUtil.COLON) =
      HttpCodecUtil.COLON :: HttpCodecUtil.SP :: (header.2 ++ [HttpCodecUtil.CR]) := by
    unfold headLine
    rw [List.dropWhile_append_of_pos before]
    rfl
  have name : (headLine header).takeWhile (fun c => c != HttpCodecUtil.COLON) = header.1 := by
    unfold headLine
    rw [List.takeWhile_append_of_pos before]
    simp
  unfold fields
  rw [rest, name]
  simp

namespace Table

def Valid (table : Table) : Prop := ∀ header ∈ table.getAll, ValidHeader header

variable {table next : Table}

theorem Valid.place (valid : table.Valid) {name value : Text} (allowed : ValidHeader (name, value))
    (h i : Int) : (table.place h i name value).Valid := by
  intro header among
  unfold Table.getAll Table.place at among
  rw [List.map_append] at among
  rcases List.mem_append.mp among with before | last
  · exact valid header before
  · rw [List.mem_singleton.mp last]
    exact allowed

theorem Valid.placeAll (valid : table.Valid) {name : Text} {values : List Text}
    (allowed : ∀ value ∈ values, ValidHeader (name, value)) (h : Int) (i : Nat) :
    (Table.placeAll h name i values table).Valid := by
  induction values generalizing i table with
  | nil => exact valid
  | cons value values induction =>
      exact induction (valid.place (allowed value List.mem_cons_self) h i)
        (fun other among => allowed other (List.mem_cons_of_mem _ among)) (i + 1)

theorem Valid.removeHeader (valid : table.Valid) (i : Int) (found : Node → Bool) :
    (table.removeHeader i found).Valid := by
  intro header among
  unfold Table.removeHeader Table.getAll at among
  rw [removeFirst_eq, unlink_all] at among
  obtain ⟨e, listed, same⟩ := List.mem_map.mp among
  exact valid header (List.mem_map.mpr ⟨e, List.mem_of_mem_filter listed, same⟩)

theorem stored_valid {name : Text} {values : List Text} (valid : validName name = true) :
    ∀ value ∈ stored values, ValidHeader (name, value) := by
  intro value among
  have kept := List.mem_takeWhile_imp among
  exact ⟨valid, (Bool.and_eq_true_iff.mp kept).2⟩

end Table

/-- A stored list is no longer than the array of buckets. -/
def RoomFor (name : Text) (values : List Text) : Prop :=
  validName name = true → (stored values).length ≤ 17

namespace Call

def Fits : Call → Prop
  | .setList name values => RoomFor name values
  | .setInts name values => RoomFor name (values.map decimal)
  | _ => True

end Call

namespace Table

variable {table next : Table}

theorem valid_add (valid : table.Valid) (name value : Text) :
    ∃ next, after (add name value) table = some next ∧ next.Valid := by
  rw [after_add]
  by_cases both : (validName name && validValue value) = true
  · rw [if_pos both]
    exact ⟨_, rfl, valid.place (Bool.and_eq_true_iff.mp both) _ _⟩
  · rw [if_neg both]
    exact ⟨_, rfl, valid⟩

theorem valid_set (valid : table.Valid) (name value : Text) :
    ∃ next, after (setValue name value) table = some next ∧ next.Valid := by
  rw [after_setValue]
  by_cases stores : value ≠ [] ∧ validName name = true ∧ validValue value = true
  · rw [if_pos stores]
    exact ⟨_, rfl, (valid.removeHeader _ _).place stores.2 _ _⟩
  · rw [if_neg stores]
    exact ⟨_, rfl, valid⟩

theorem valid_setList (valid : table.Valid) {name : Text} {values : List Text}
    (room : RoomFor name values) :
    ∃ next, after (setList name values) table = some next ∧ next.Valid := by
  rw [after_setList]
  by_cases stores : values ≠ [] ∧ validName name = true
  · rw [if_pos stores, if_pos (room stores.2)]
    exact ⟨_, rfl, (valid.removeHeader _ _).placeAll (stored_valid stores.2) _ _⟩
  · rw [if_neg stores]
    exact ⟨_, rfl, valid⟩

theorem room_of_setList {name : Text} {values : List Text}
    (performed : after (setList name values) table = some next) : RoomFor name values := by
  intro valid
  rw [after_setList] at performed
  by_cases empty : values = []
  · rw [empty]
    exact Nat.zero_le 17
  · rw [if_pos ⟨empty, valid⟩] at performed
    by_contra full
    rw [if_neg full] at performed
    cases performed

theorem valid_perform (valid : table.Valid) {call : Call} (fits : call.Fits) :
    ∃ next, table.perform call = some next ∧ next.Valid := by
  cases call with
  | add name value => exact valid_add valid name value
  | addInt name value => exact valid_add valid name (decimal value)
  | remove name =>
      refine ⟨_, after_remove name table, ?_⟩
      split
      · exact valid
      · exact valid.removeHeader _ _
  | removeValue name value =>
      refine ⟨_, after_removeValue name value table, ?_⟩
      split
      · exact valid
      · exact valid.removeHeader _ _
  | set name value => exact valid_set valid name value
  | setInt name value => exact valid_set valid name (decimal value)
  | setList name values => exact valid_setList valid fits
  | setInts name values => exact valid_setList valid fits
  | clear => exact ⟨table.clear, rfl, fun header among => absurd among List.not_mem_nil⟩

theorem fits_of_perform {call : Call} (performed : table.perform call = some next) :
    call.Fits := by
  cases call with
  | setList name values => exact room_of_setList performed
  | setInts name values => exact room_of_setList performed
  | _ => exact trivial

theorem valid_performAll (valid : table.Valid) {calls : List Call}
    (fits : ∀ call ∈ calls, call.Fits) :
    ∃ next, performAll calls table = some next ∧ next.Valid := by
  induction calls generalizing table with
  | nil => exact ⟨table, rfl, valid⟩
  | cons call calls induction =>
      obtain ⟨middle, first, kept⟩ := valid_perform valid (fits call List.mem_cons_self)
      obtain ⟨next, others, last⟩ := induction kept fun other among =>
        fits other (List.mem_cons_of_mem _ among)
      refine ⟨next, ?_, last⟩
      rw [performAll, List.foldlM_cons, first]
      exact others

theorem fits_of_performAll {calls : List Call} (run : performAll calls table = some next) :
    ∀ call ∈ calls, call.Fits := by
  induction calls generalizing table with
  | nil =>
      intro call among
      cases among
  | cons call calls induction =>
      obtain ⟨middle, first, others⟩ := performAll_cons run
      intro other among
      rcases List.mem_cons.mp among with rfl | among
      · exact fits_of_perform first
      · exact induction others other among

end Table

/-- Every header is one line from which it can be read, exactly when no list longer than the array of
buckets is stored. -/
theorem header_lines_iff (calls : List Call) :
    (∃ table, Table.performAll calls Table.fresh = some table ∧
      (lines [] (HttpMessageEncoder.encodeHeaders table.getAll)).map fields =
        table.getAll.map some) ↔
      ∀ call ∈ calls, call.Fits := by
  constructor
  · rintro ⟨table, run, _⟩
    exact Table.fits_of_performAll run
  · intro fits
    have start : Table.fresh.Valid := fun header among => absurd among List.not_mem_nil
    obtain ⟨table, run, valid⟩ := Table.valid_performAll start fits
    refine ⟨table, run, ?_⟩
    rw [lines_encoded valid, List.map_map]
    exact List.map_congr_left fun header among => fields_line (valid header among)

/-- The eighteenth value of a list is stored behind the array of buckets. -/
theorem long_list_leaves_array :
    ¬ ∃ table, Table.performAll [.setList (text "Accept") (List.replicate 18 (text "a"))]
        Table.fresh = some table ∧
      (lines [] (HttpMessageEncoder.encodeHeaders table.getAll)).map fields =
        table.getAll.map some := by
  rintro ⟨table, run, _⟩
  have stops : (Table.performAll [.setList (text "Accept") (List.replicate 18 (text "a"))]
      Table.fresh).isSome = false := by decide +kernel
  rw [run] at stops
  cases stops

end DefaultHttpHeader

end Cetty
