import Cetty.HeaderLines
import Cetty.HeaderTrimming

/-!
# Folded headers

A header section that has been received whole is read as the list of its lines. A header may be
continued on lines that begin with a blank. The decoder makes the headers that are meant only of lines
that are not continued, whose values are neither empty nor followed by blanks. It makes no trailing
header at all.
-/

namespace Cetty

open CLocale MachineInt ByteWindow

/-- A line with its end. -/
structure WrittenLine where
  text : Text
  end_ : List Byte
  deriving DecidableEq, Repr

namespace WrittenLine

def bytes (line : WrittenLine) : List Byte := line.text ++ line.end_

/-- A line that is not the end of the section. -/
structure Proper (line : WrittenLine) : Prop where
  present : line.text ≠ []
  unbroken : HttpMessageDecoder.Unbroken line.text
  ends : EndsLine line.end_

end WrittenLine

def written (lines : List WrittenLine) : List Byte := (lines.map WrittenLine.bytes).flatten

@[simp] theorem written_nil : written [] = [] := rfl

@[simp] theorem written_cons (line : WrittenLine) (rest : List WrittenLine) :
    written (line :: rest) = line.bytes ++ written rest := by
  unfold written
  rw [List.map_cons, List.flatten_cons]

/-- The headers of lines that are all there, behind a header line that has been split. -/
def linesRead : SplitLine → List Text → HttpMessage → Except Stop HttpMessage
  | split, [], message => addSplit split message
  | split, line :: rest, message =>
      if continues split line then .error .diverges
      else
        match addSplit split message with
        | .error stop => .error stop
        | .ok message => linesRead (splitText line) rest message

namespace SectionRead

def of (counted : Nat) : Except Stop HttpMessage → SectionRead
  | .ok message => done message counted
  | .error stop => stopped stop

theorem behind_of (first second : Nat) (read : Except Stop HttpMessage) :
    (of second read).behind first = of (first + second) read := by
  cases read with
  | error stop => rfl
  | ok message => rfl

end SectionRead

section Lines

variable {limits : HttpLimits} {message : HttpMessage} {headerSize : Int} {line : WrittenLine}
  {lines rest : List WrittenLine} {end_ : List Byte}

theorem headerScan_written (proper : line.Proper)
    (small : headerSize + line.text.length < limits.maxHeaderSize) (beyond : List Byte) :
    headerScan limits.maxHeaderSize headerSize (line.bytes ++ beyond) =
      .ended (line.text.length + 1) line.bytes.length := by
  unfold WrittenLine.bytes
  rw [headerScan_line proper.unbroken proper.ends, if_neg (by rintro ⟨-, large⟩; omega),
    List.length_append]

theorem headerScan_empty (ends : EndsLine end_) (beyond : List Byte) :
    headerScan limits.maxHeaderSize headerSize (end_ ++ beyond) = .ended 1 end_.length := by
  have scanned := @headerScan_line limits.maxHeaderSize headerSize [] end_ nofun ends beyond
  rw [if_neg (fun wrong => absurd wrong.1 (Nat.lt_irrefl 0))] at scanned
  rw [List.nil_append] at scanned
  rw [scanned]
  simp

theorem headerSection_end {rounds : Nat} (positive : 0 < rounds) (split : SplitLine)
    (bytes : List Byte) :
    headerSection limits rounds split [] message headerSize bytes =
      .of 0 (addSplit split message) := by
  obtain ⟨rounds, rfl⟩ : ∃ more, rounds = more + 1 := ⟨rounds - 1, by omega⟩
  rw [headerSection, if_pos rfl]
  cases addSplit split message with
  | error stop => rfl
  | ok changed => rfl

/-- The lines of a section and its end; `after` is what has been counted behind the first of them. -/
theorem onward_lines {rounds : Nat → Nat} {after : Nat → Int} (split : SplitLine)
    (proper : ∀ line ∈ lines, line.Proper) (ends : EndsLine end_) (beyond : List Byte)
    (small : ∀ line rest, lines = line :: rest →
      headerSize + line.text.length < limits.maxHeaderSize ∧
        after line.bytes.length + (written rest).length ≤ limits.maxHeaderSize)
    (enough : ∀ line rest, lines = line :: rest → lines.length < rounds line.bytes.length)
    (enough' : lines = [] → 0 < rounds end_.length) :
    (headerScan limits.maxHeaderSize headerSize (written lines ++ end_ ++ beyond)).onward limits
        (fun characters counted =>
          headerSection limits (rounds counted) split
            ((written lines ++ end_ ++ beyond).take (characters - 1)) message (after counted)
            ((written lines ++ end_ ++ beyond).drop counted)) =
      .of (written lines ++ end_).length (linesRead split (lines.map WrittenLine.text) message) := by
  induction lines generalizing headerSize split message rounds after with
  | nil =>
      rw [written_nil, List.nil_append, headerScan_empty ends]
      show (headerSection limits (rounds end_.length) split ((end_ ++ beyond).take (1 - 1)) message _
        _).behind end_.length = _
      rw [Nat.sub_self, List.take_zero, headerSection_end (enough' rfl), SectionRead.behind_of]
      rfl
  | cons line rest induction =>
      have here := proper line List.mem_cons_self
      obtain ⟨fits, small'⟩ := small line rest rfl
      obtain ⟨fuel, same⟩ : ∃ fuel, rounds line.bytes.length = fuel + 1 :=
        ⟨rounds line.bytes.length - 1, by have counted := enough line rest rfl; omega⟩
      have parts : written (line :: rest) ++ end_ ++ beyond =
          line.bytes ++ (written rest ++ end_ ++ beyond) := by
        rw [written_cons]
        simp
      rw [parts, headerScan_written here fits]
      show (headerSection limits (rounds line.bytes.length) split
        ((line.bytes ++ (written rest ++ end_ ++ beyond)).take (line.text.length + 1 - 1)) message _
        ((line.bytes ++ (written rest ++ end_ ++ beyond)).drop line.bytes.length)).behind
          line.bytes.length = _
      have size : line.text.length + 1 - 1 = line.text.length := by omega
      have cut : (line.bytes ++ (written rest ++ end_ ++ beyond)).take line.text.length =
          line.text := by
        unfold WrittenLine.bytes
        rw [List.append_assoc, List.take_left]
      have whole : (written (line :: rest) ++ end_).length =
          line.bytes.length + (written rest ++ end_).length := by
        rw [written_cons, List.append_assoc, List.length_append]
      rw [size, cut, List.drop_left, same, headerSection, if_neg here.present, whole, List.map_cons,
        linesRead]
      by_cases continued : continues split line.text = true
      · rw [if_pos continued, if_pos continued]
        rfl
      · rw [if_neg continued, if_neg continued]
        cases addSplit split message with
        | error stop => rfl
        | ok changed =>
            dsimp only
            have later := @induction changed (after line.bytes.length) (fun _ => fuel)
              (fun counted => after line.bytes.length + counted) (splitText line.text)
              (fun other among => proper other (List.mem_cons_of_mem _ among)) ?_ ?_ ?_
            · rw [later, SectionRead.behind_of]
            · rintro next others rfl
              have bound := small'
              have width := (proper next (List.mem_cons_of_mem _ List.mem_cons_self)).ends.length
              have counted : next.bytes.length = next.text.length + next.end_.length :=
                List.length_append
              rw [written_cons, List.length_append] at bound
              exact ⟨by omega, by omega⟩
            · rintro next others rfl
              have counted := enough line (next :: others) rfl
              rw [List.length_cons] at counted
              omega
            · intro _
              have counted := enough line rest rfl
              rw [List.length_cons] at counted
              omega

theorem lines_le_written (proper : ∀ line ∈ lines, line.Proper) :
    lines.length ≤ (written lines).length := by
  induction lines with
  | nil => exact Nat.le_refl _
  | cons line rest induction =>
      have width := (proper line List.mem_cons_self).ends.length
      have counted : line.bytes.length = line.text.length + line.end_.length := List.length_append
      have fewer := induction fun other among => proper other (List.mem_cons_of_mem _ among)
      rw [written_cons, List.length_append, List.length_cons]
      omega

/-- A header section that fits is read as its lines. -/
theorem headersSection_lines (proper : ∀ line ∈ lines, line.Proper) (ends : EndsLine end_)
    (beyond : List Byte) (small : ((written lines).length : Int) ≤ limits.maxHeaderSize) :
    headersSection limits message 0 (written lines ++ end_ ++ beyond) =
      .of (written lines ++ end_).length
        (linesRead .fresh (lines.map WrittenLine.text) message) := by
  unfold headersSection
  refine onward_lines .fresh proper ends beyond ?_ ?_ ?_
  · rintro line rest rfl
    have width := (proper line List.mem_cons_self).ends.length
    have counted : line.bytes.length = line.text.length + line.end_.length := List.length_append
    rw [written_cons, List.length_append] at small
    exact ⟨by omega, by omega⟩
  · rintro line rest rfl
    have fewer := lines_le_written fun other among => proper other (List.mem_cons_of_mem line among)
    have width := ends.length
    rw [written_cons, List.length_append, List.length_append, List.length_append, List.length_cons]
    omega
  · rintro rfl
    exact Nat.succ_pos _

theorem opened (line : WrittenLine) (rest : List WrittenLine) (end_ beyond : List Byte) :
    written (line :: rest) ++ end_ ++ beyond = line.bytes ++ (written rest ++ end_ ++ beyond) ∧
      (written (line :: rest) ++ end_).length = line.bytes.length + (written rest ++ end_).length := by
  rw [written_cons, List.append_assoc line.bytes, List.length_append, List.append_assoc line.bytes]
  exact ⟨rfl, rfl⟩

theorem trailerSection_lines {rounds : Nat} (proper : ∀ line ∈ lines, line.Proper)
    (ends : EndsLine end_) (beyond : List Byte)
    (small : headerSize + (written lines).length ≤ limits.maxHeaderSize)
    (enough : lines.length < rounds) :
    trailerSection limits.maxHeaderSize rounds headerSize (written lines ++ end_ ++ beyond) =
      .ended 0 (written lines ++ end_).length := by
  induction lines generalizing headerSize rounds with
  | nil =>
      obtain ⟨rounds, rfl⟩ : ∃ more, rounds = more + 1 := ⟨rounds - 1, by simp at enough; omega⟩
      rw [written_nil, List.nil_append, trailerSection, headerScan_empty ends]
      rfl
  | cons line rest induction =>
      obtain ⟨rounds, rfl⟩ : ∃ more, rounds = more + 1 := ⟨rounds - 1, by omega⟩
      have here := proper line List.mem_cons_self
      have width := here.ends.length
      have counted : line.bytes.length = line.text.length + line.end_.length := List.length_append
      have positive := List.length_pos_iff.mpr here.present
      obtain ⟨parts, whole⟩ := opened line rest end_ beyond
      rw [written_cons, List.length_append] at small
      rw [List.length_cons] at enough
      have later := @induction (headerSize + line.bytes.length) rounds
        (fun other among => proper other (List.mem_cons_of_mem _ among)) (by omega) (by omega)
      rw [parts, trailerSection, headerScan_written here (by omega)]
      dsimp only
      rw [if_neg (by omega), List.drop_left, later, LineRead.behind_ended, whole]

theorem trailersSection_lines (proper : ∀ line ∈ lines, line.Proper) (ends : EndsLine end_)
    (beyond : List Byte) (small : ((written lines).length : Int) ≤ limits.maxHeaderSize) :
    HttpMessageDecoder.trailersSection limits.maxHeaderSize (written lines ++ end_ ++ beyond) =
      .ended 0 (written lines ++ end_).length := by
  cases lines with
  | nil =>
      rw [written_nil, List.nil_append, HttpMessageDecoder.trailersSection, headerScan_empty ends]
      rfl
  | cons line rest =>
      have here := proper line List.mem_cons_self
      have width := here.ends.length
      have counted : line.bytes.length = line.text.length + line.end_.length := List.length_append
      have positive := List.length_pos_iff.mpr here.present
      obtain ⟨parts, whole⟩ := opened line rest end_ beyond
      rw [written_cons, List.length_append] at small
      have properRest : ∀ line ∈ rest, line.Proper :=
        fun other among => proper other (List.mem_cons_of_mem _ among)
      have fewer := lines_le_written properRest
      have later := @trailerSection_lines limits line.bytes.length rest end_
        ((line.bytes ++ (written rest ++ end_ ++ beyond)).length - line.bytes.length + 2) properRest
        ends beyond (by omega) (by simp only [List.length_append]; omega)
      rw [parts, HttpMessageDecoder.trailersSection, headerScan_written here (by omega)]
      dsimp only
      rw [if_neg (by omega), List.drop_left, later, LineRead.behind_ended, whole]

/-- No line continues the one in front of it. -/
def Unfolded : SplitLine → List Text → Prop
  | _, [] => True
  | split, line :: rest => continues split line = false ∧ Unfolded (splitText line) rest

theorem Unfolded.apart {split : SplitLine} {front back : List Text} {line next : Text}
    (unfolded : Unfolded split (front ++ line :: next :: back)) :
    continues (splitText line) next = false := by
  induction front generalizing split with
  | nil => exact unfolded.2.1
  | cons other front induction => exact induction unfolded.2

/-- What is added for lines. -/
def linesEntries (lines : List Text) : List DefaultHttpHeader.Entry :=
  lines.flatMap fun line => (splitText line).entries

theorem withEntries_append (message : HttpMessage)
    (first second : List DefaultHttpHeader.Entry) :
    HttpMessageDecoder.withEntries (HttpMessageDecoder.withEntries message first) second =
      HttpMessageDecoder.withEntries message (first ++ second) := by
  unfold HttpMessageDecoder.withEntries
  rw [List.append_assoc]

theorem withEntries_inj {first second : List DefaultHttpHeader.Entry} :
    HttpMessageDecoder.withEntries message first = HttpMessageDecoder.withEntries message second ↔
      first = second := by
  constructor
  · intro same
    have header := congrArg (fun message => message.header.entries) same
    exact List.append_cancel_left header
  · rintro rfl
    rfl

theorem linesRead_ok_iff {split : SplitLine} {texts : List Text} {changed : HttpMessage} :
    linesRead split texts message = .ok changed ↔
      Unfolded split texts ∧ Addable split ∧ (∀ line ∈ texts, Addable (splitText line)) ∧
        changed = HttpMessageDecoder.withEntries message (split.entries ++ linesEntries texts) := by
  induction texts generalizing split message with
  | nil =>
      have none : linesEntries [] = [] := rfl
      rw [linesRead, none, List.append_nil]
      rcases addSplit_verdict split message with ⟨addable, added⟩ | ⟨not, stop, refused, -⟩
      · rw [added]
        exact ⟨fun same => ⟨trivial, addable, nofun, (Except.ok.inj same).symm⟩,
          fun parts => congrArg Except.ok parts.2.2.2.symm⟩
      · rw [refused]
        exact ⟨nofun, fun parts => absurd parts.2.1 not⟩
  | cons line rest induction =>
      have entries : linesEntries (line :: rest) = (splitText line).entries ++ linesEntries rest :=
        List.flatMap_cons
      rw [linesRead, entries]
      by_cases continued : continues split line = true
      · rw [if_pos continued]
        refine ⟨nofun, fun parts => ?_⟩
        have apart := parts.1.1
        rw [continued] at apart
        cases apart
      · rw [if_neg continued]
        rw [Bool.not_eq_true] at continued
        rcases addSplit_verdict split message with ⟨addable, added⟩ | ⟨not, stop, refused, -⟩
        · rw [added]
          dsimp only
          rw [induction, withEntries_append]
          constructor
          · rintro ⟨unfolded, first, others, same⟩
            refine ⟨⟨continued, unfolded⟩, addable, ?_, same⟩
            intro other among
            rcases List.mem_cons.mp among with rfl | later
            · exact first
            · exact others other later
          · rintro ⟨unfolded, -, others, same⟩
            exact ⟨unfolded.2, others line List.mem_cons_self,
              fun other among => others other (List.mem_cons_of_mem _ among), same⟩
        · rw [refused]
          exact ⟨nofun, fun parts => absurd parts.2.1 not⟩

end Lines

/-- A printable character, or a tab among the blanks. -/
def Printed (c : Byte) : Prop := c = HttpCodecUtil.HT ∨ (32 ≤ c.toNat ∧ c.toNat ≤ 126)

instance (c : Byte) : Decidable (Printed c) := by
  unfold Printed
  infer_instance

/-- A header with the lines that continue it. -/
structure FoldedHeader where
  name : Text
  gap : Text
  value : Text
  end_ : List Byte
  folds : List WrittenLine
  deriving DecidableEq, Repr

namespace FoldedHeader

def first (header : FoldedHeader) : WrittenLine :=
  ⟨headerLine header.name header.gap header.value, header.end_⟩

def lines (header : FoldedHeader) : List WrittenLine := header.first :: header.folds

/-- A line that continues a header. -/
structure Fold (line : WrittenLine) : Prop where
  blanked : ∃ c rest, line.text = c :: rest ∧ FastString.blank c = true
  printed : ∀ c ∈ line.text, Printed c
  ends : EndsLine line.end_

structure Described (header : FoldedHeader) : Prop where
  named : DefaultHttpHeader.validName header.name = true
  spaced : ∀ c ∈ header.gap, FastString.blank c = true
  valued : ∀ c ∈ header.value, Printed c
  ends : EndsLine header.end_
  folded : ∀ line ∈ header.folds, Fold line

/-- The trimmed parts of the value, each behind one space. -/
def joined (header : FoldedHeader) : Text :=
  header.folds.foldl (fun value line => value ++ HttpCodecUtil.SP :: FastString.trimmedText line.text)
    (FastString.trimmedText header.value)

/-- The header that is meant. -/
def entry (header : FoldedHeader) : DefaultHttpHeader.Entry := ⟨header.name, header.joined⟩

/-- A header that the decoder makes as it is meant. -/
structure Survives (header : FoldedHeader) : Prop where
  alone : header.folds = []
  some_ : header.name ≠ []
  solid : (0 : Byte) ∉ header.name
  untrailed : ∃ front c, header.value = front ++ [c] ∧ FastString.blank c = false

end FoldedHeader

section Printing

variable {c : Byte} {line value : Text}

theorem Printed.plain (printed : Printed c) :
    c ≠ 0 ∧ c ≠ 10 ∧ c ≠ 11 ∧ c ≠ 12 ∧ c ≠ 13 := by
  rcases printed with rfl | ⟨least, most⟩
  · decide
  · refine ⟨?_, ?_, ?_, ?_, ?_⟩ <;>
      · rintro rfl
        exact absurd least (by decide)

theorem Printed.blank_iff (printed : Printed c) :
    Character.isWhitespace c = FastString.blank c := by
  have plain := printed.plain
  clear printed
  revert c
  decide

theorem dropWhile_printed (printed : ∀ c ∈ value, Printed c) :
    value.dropWhile Character.isWhitespace = value.dropWhile FastString.blank := by
  induction value with
  | nil => rfl
  | cons c value induction =>
      have same := (printed c List.mem_cons_self).blank_iff
      rw [List.dropWhile_cons, List.dropWhile_cons, same,
        induction fun other among => printed other (List.mem_cons_of_mem _ among)]

theorem mem_splitText_name (among : c ∈ (splitText line).name) : c ∈ line := by
  obtain ⟨lead, behind, whole, -, -⟩ := FastString.splitText_name line
  rw [whole]
  exact List.mem_append_left _ (List.mem_append_right _ among)

end Printing

/-- A header line is split into its name and its value without the blanks in front. -/
theorem splitText_headerLine {name gap value : Text}
    (named : ∀ c ∈ name, HttpCodecUtil.prohibitedInName c = false)
    (spaced : ∀ c ∈ gap, FastString.blank c = true) :
    splitText (headerLine name gap value) =
      ⟨name, if value.dropWhile Character.isWhitespace = [] then none
        else some (value.dropWhile Character.isWhitespace)⟩ := by
  have colon : Character.isWhitespace HttpCodecUtil.COLON = false := by decide
  have begins : (headerLine name gap value).dropWhile Character.isWhitespace =
      headerLine name gap value := by
    unfold headerLine
    cases name with
    | nil => exact List.dropWhile_cons_of_neg (by rw [colon]; exact Bool.false_ne_true)
    | cons c rest =>
        have solid := (solid_of_allowed (named c List.mem_cons_self)).1
        exact List.dropWhile_cons_of_neg (by rw [solid]; exact Bool.false_ne_true)
  have passes : ∀ c ∈ name, (!endsName c) = true := by
    intro c among
    obtain ⟨white, other⟩ := solid_of_allowed (named c among)
    unfold endsName
    rw [white, other]
    rfl
  have stops : (!endsName HttpCodecUtil.COLON) = false := by decide
  have cut : (headerLine name gap value).takeWhile (fun c => !endsName c) = name := by
    unfold headerLine
    rw [List.takeWhile_append_of_pos passes, List.takeWhile_cons, stops]
    simp
  have left : (headerLine name gap value).dropWhile (fun c => !endsName c) =
      HttpCodecUtil.COLON :: (gap ++ value) := by
    unfold headerLine
    rw [List.dropWhile_append_of_pos passes]
    exact List.dropWhile_cons_of_neg (by rw [stops]; exact Bool.false_ne_true)
  have valued : valueText (HttpCodecUtil.COLON :: (gap ++ value)) =
      value.dropWhile Character.isWhitespace := by
    unfold valueText
    rw [List.dropWhile_cons_of_neg (by decide), List.drop_one, List.tail_cons,
      List.dropWhile_append_of_pos fun c among => isWhitespace_of_blank (spaced c among)]
  unfold splitText
  dsimp only
  rw [begins, cut, left, valued]

/-- The lines of headers. -/
def headerTexts (headers : List FoldedHeader) : List Text :=
  (headers.flatMap FoldedHeader.lines).map WrittenLine.text

section Headers

variable {headers : List FoldedHeader} {header : FoldedHeader} {line : Text}
  {e : DefaultHttpHeader.Entry} {split : SplitLine}

theorem headerTexts_cons (header : FoldedHeader) (rest : List FoldedHeader) :
    headerTexts (header :: rest) =
      header.first.text :: (header.folds.map WrittenLine.text ++ headerTexts rest) := by
  unfold headerTexts FoldedHeader.lines
  rw [List.flatMap_cons, List.map_append, List.map_cons, List.cons_append]

theorem mem_headerTexts (among : line ∈ headerTexts headers) :
    ∃ header ∈ headers, line = header.first.text ∨ ∃ fold ∈ header.folds, line = fold.text := by
  unfold headerTexts at among
  obtain ⟨written, inside, rfl⟩ := List.mem_map.mp among
  obtain ⟨header, listed, inside⟩ := List.mem_flatMap.mp inside
  refine ⟨header, listed, ?_⟩
  rcases List.mem_cons.mp inside with rfl | folded
  · exact Or.inl rfl
  · exact Or.inr ⟨written, folded, rfl⟩

theorem FoldedHeader.Described.splits (described : header.Described) :
    splitText header.first.text =
      ⟨header.name, if header.value.dropWhile FastString.blank = [] then none
        else some (header.value.dropWhile FastString.blank)⟩ := by
  have split := @splitText_headerLine header.name header.gap header.value
    (DefaultHttpHeader.allowed_of_valid described.named) described.spaced
  rw [dropWhile_printed described.valued] at split
  exact split

theorem mem_entries (among : e ∈ split.entries) :
    split.name ≠ [] ∧ ∃ value, split.value = some value ∧ e = ⟨cString split.name, cString value⟩ := by
  unfold SplitLine.entries at among
  by_cases named : split.name = []
  · rw [if_pos named] at among
    cases among
  · rw [if_neg named] at among
    cases valued : split.value with
    | none =>
        rw [valued] at among
        cases among
    | some value =>
        rw [valued] at among
        exact ⟨named, value, rfl, List.mem_singleton.mp among⟩

/-- No name that the decoder adds is empty, unless a terminator stands in what has been received. -/
theorem name_of_added (described : ∀ header ∈ headers, header.Described)
    (solid : ∀ header ∈ headers, (0 : Byte) ∉ header.name)
    (among : e ∈ linesEntries (headerTexts headers)) : e.key ≠ [] := by
  obtain ⟨line, inside, added⟩ := List.mem_flatMap.mp among
  obtain ⟨named, value, -, rfl⟩ := mem_entries added
  have whole : cString (splitText line).name = (splitText line).name := by
    apply cString_solid
    intro c listed
    obtain ⟨header, member, here⟩ := mem_headerTexts inside
    rcases here with rfl | ⟨fold, folded, rfl⟩
    · rw [(described header member).splits] at listed
      rintro rfl
      exact solid header member listed
    · have printed := ((described header member).folded fold folded).printed
      exact (printed c (mem_splitText_name listed)).plain.1
  show cString (splitText line).name ≠ []
  rw [whole]
  exact named

variable {before : SplitLine}

/-- A header that is continued is followed by a line that continues it. -/
theorem alone_of_unfolded (described : ∀ header ∈ headers, header.Described)
    (unfolded : Unfolded before (headerTexts headers)) (member : header ∈ headers)
    (some_ : header.name ≠ []) : header.folds = [] := by
  by_contra folded
  obtain ⟨fold, folds, same⟩ := List.exists_cons_of_ne_nil folded
  obtain ⟨front, back, parts⟩ := List.append_of_mem member
  have whole : headerTexts headers = headerTexts front ++ header.first.text :: fold.text ::
      (folds.map WrittenLine.text ++ headerTexts back) := by
    have here := headerTexts_cons header back
    rw [same, List.map_cons, List.cons_append] at here
    rw [parts, ← here]
    unfold headerTexts
    rw [List.flatMap_append, List.map_append]
  rw [whole] at unfolded
  have apart := unfolded.apart
  obtain ⟨c, rest, begins, blanked⟩ :=
    ((described header member).folded fold (by rw [same]; exact List.mem_cons_self)).blanked
  rw [(described header member).splits, begins, continues_cons,
    List.isEmpty_eq_false_iff.mpr some_, blanked] at apart
  cases apart

/-- Lines of which none is continued. -/
theorem headerTexts_alone (alone : ∀ header ∈ headers, header.folds = []) :
    headerTexts headers = headers.map fun header => header.first.text := by
  induction headers with
  | nil => rfl
  | cons header rest induction =>
      rw [headerTexts_cons, alone header List.mem_cons_self, List.map_nil, List.nil_append,
        List.map_cons, induction fun other among => alone other (List.mem_cons_of_mem _ among)]

/-- What a header is worth that is not continued. -/
theorem entries_of_described (described : header.Described) (solid : (0 : Byte) ∉ header.name)
    (some_ : header.name ≠ []) (present : header.value.dropWhile FastString.blank ≠ []) :
    (splitText header.first.text).entries =
      [⟨header.name, header.value.dropWhile FastString.blank⟩] := by
  have named : cString header.name = header.name :=
    cString_solid fun c among => by
      rintro rfl
      exact solid among
  have valued : cString (header.value.dropWhile FastString.blank) =
      header.value.dropWhile FastString.blank :=
    cString_solid fun c among =>
      (described.valued c ((List.dropWhile_sublist _).subset among)).plain.1
  rw [described.splits, if_neg present]
  unfold SplitLine.entries
  rw [if_neg some_, named]
  dsimp only
  rw [valued]

theorem entries_alone (described : ∀ header ∈ headers, header.Described)
    (solid : ∀ header ∈ headers, (0 : Byte) ∉ header.name)
    (some_ : ∀ header ∈ headers, header.name ≠ [])
    (present : ∀ header ∈ headers, header.value.dropWhile FastString.blank ≠ []) :
    linesEntries (headers.map fun header => header.first.text) =
      headers.map fun header => ⟨header.name, header.value.dropWhile FastString.blank⟩ := by
  induction headers with
  | nil => rfl
  | cons header rest induction =>
      have later := induction (fun other among => described other (List.mem_cons_of_mem _ among))
        (fun other among => solid other (List.mem_cons_of_mem _ among))
        (fun other among => some_ other (List.mem_cons_of_mem _ among))
        (fun other among => present other (List.mem_cons_of_mem _ among))
      have here := entries_of_described (described header List.mem_cons_self)
        (solid header List.mem_cons_self) (some_ header List.mem_cons_self)
        (present header List.mem_cons_self)
      unfold linesEntries at later ⊢
      rw [List.map_cons, List.flatMap_cons, here, later, List.map_cons, List.singleton_append]

theorem joined_alone (alone : header.folds = []) :
    header.joined = FastString.trimmedText header.value := by
  unfold FoldedHeader.joined
  rw [alone, List.foldl_nil]

/-- Blanks are trimmed from a value that has none behind it by dropping those in front. -/
theorem trimmedText_untrailed {front : Text} {c : Byte} (solid : FastString.blank c = false) :
    FastString.trimmedText (front ++ [c]) = (front ++ [c]).dropWhile FastString.blank ∧
      (front ++ [c]).dropWhile FastString.blank ≠ [] := by
  have stays : ¬FastString.blank c = true := by
    rw [solid]
    exact Bool.false_ne_true
  have left : ∃ more, (front ++ [c]).dropWhile FastString.blank = more ++ [c] := by
    induction front with
    | nil =>
        refine ⟨[], ?_⟩
        rw [List.nil_append]
        exact List.dropWhile_cons_of_neg stays
    | cons d front induction =>
        by_cases blanked : FastString.blank d = true
        · rw [List.cons_append, List.dropWhile_cons_of_pos blanked]
          exact induction
        · rw [List.cons_append, List.dropWhile_cons_of_neg blanked]
          exact ⟨d :: front, rfl⟩
  obtain ⟨more, same⟩ := left
  unfold FastString.trimmedText
  rw [same]
  exact ⟨List.rdropWhile_concat_neg FastString.blank more c stays, by simp⟩

theorem untrailed_of_trimmed {value : Text} (present : value.dropWhile FastString.blank ≠ [])
    (same : value.dropWhile FastString.blank = FastString.trimmedText value) :
    ∃ front c, value = front ++ [c] ∧ FastString.blank c = false := by
  have parts := List.takeWhile_append_dropWhile (p := FastString.blank) (l := value)
  obtain ⟨more, c, ends⟩ := (List.eq_nil_or_concat (value.dropWhile FastString.blank)).resolve_left
    present
  rw [List.concat_eq_append] at ends
  refine ⟨value.takeWhile FastString.blank ++ more, c, ?_, ?_⟩
  · rw [List.append_assoc, ← ends, parts]
  · by_contra blanked
    rw [Bool.not_eq_false] at blanked
    have shorter := congrArg List.length same
    unfold FastString.trimmedText at shorter
    rw [ends, List.rdropWhile_concat_pos FastString.blank more c blanked, List.length_append,
      List.length_singleton] at shorter
    have fewer := (List.rdropWhile_prefix FastString.blank more).length_le
    omega

/-- A first line does not begin with a blank. -/
theorem not_continues_first (described : header.Described) (before : SplitLine) :
    continues before header.first.text = false := by
  unfold FoldedHeader.first headerLine
  dsimp only
  cases named : header.name with
  | nil =>
      rw [List.nil_append, continues_cons]
      exact Bool.and_eq_false_imp.mpr fun _ => by decide
  | cons c rest =>
      have allowed := DefaultHttpHeader.allowed_of_valid described.named c
        (by rw [named]; exact List.mem_cons_self)
      have solid := (solid_of_allowed allowed).1
      rw [List.cons_append, continues_cons]
      refine Bool.and_eq_false_imp.mpr fun _ => ?_
      by_contra blanked
      rw [Bool.not_eq_false] at blanked
      rw [isWhitespace_of_blank blanked] at solid
      cases solid

theorem unfolded_alone (described : ∀ header ∈ headers, header.Described) :
    Unfolded before (headers.map fun header => header.first.text) := by
  induction headers generalizing before with
  | nil => trivial
  | cons header rest induction =>
      exact ⟨not_continues_first (described header List.mem_cons_self) before,
        induction fun other among => described other (List.mem_cons_of_mem _ among)⟩

theorem validValue_printed {value : Text} (printed : ∀ c ∈ value, Printed c) :
    DefaultHttpHeader.validValue value = true := by
  unfold DefaultHttpHeader.validValue
  rw [DefaultHttpHeader.validateHeaderValue_ok fun c among => (printed c among).plain]
  rfl

theorem addable_first (described : header.Described) (solid : (0 : Byte) ∉ header.name)
    (present : header.value.dropWhile FastString.blank ≠ []) :
    Addable (splitText header.first.text) := by
  have printed : ∀ c ∈ header.value.dropWhile FastString.blank, Printed c :=
    fun c among => described.valued c ((List.dropWhile_sublist _).subset among)
  have named : cString header.name = header.name :=
    cString_solid fun c among => by
      rintro rfl
      exact solid among
  rw [described.splits, if_neg present]
  refine Or.inr ⟨_, rfl, ?_, ?_⟩
  · dsimp only
    rw [named]
    exact described.named
  · rw [cString_solid fun c among => (printed c among).plain.1]
    exact validValue_printed printed

/-- The lines of headers are read as they are meant. -/
theorem headers_meant_iff (described : ∀ header ∈ headers, header.Described)
    (message : HttpMessage) :
    linesRead .fresh (headerTexts headers) message =
        .ok (HttpMessageDecoder.withEntries message (headers.map FoldedHeader.entry)) ↔
      ∀ header ∈ headers, header.Survives := by
  rw [linesRead_ok_iff, withEntries_inj]
  have none : SplitLine.fresh.entries = [] := rfl
  rw [none, List.nil_append]
  constructor
  · rintro ⟨unfolded, -, addable, same⟩
    have solid : ∀ header ∈ headers, (0 : Byte) ∉ header.name := by
      intro header member
      have among : header.entry ∈ linesEntries (headerTexts headers) := by
        rw [← same]
        exact List.mem_map_of_mem member
      obtain ⟨line, -, added⟩ := List.mem_flatMap.mp among
      obtain ⟨-, value, -, equal⟩ := mem_entries added
      have named : header.name = cString (splitText line).name :=
        congrArg DefaultHttpHeader.Entry.key equal
      rw [named]
      exact nul_not_mem_cString _
    have some_ : ∀ header ∈ headers, header.name ≠ [] := by
      intro header member
      have among : header.entry ∈ linesEntries (headerTexts headers) := by
        rw [← same]
        exact List.mem_map_of_mem member
      exact name_of_added described solid among
    have alone : ∀ header ∈ headers, header.folds = [] :=
      fun header member => alone_of_unfolded described unfolded member (some_ header member)
    rw [headerTexts_alone alone] at same addable
    have present : ∀ header ∈ headers, header.value.dropWhile FastString.blank ≠ [] := by
      intro header member
      rcases addable header.first.text (List.mem_map_of_mem member) with empty | ⟨value, valued, -⟩
      · rw [(described header member).splits] at empty
        exact absurd empty (some_ header member)
      · rw [(described header member).splits] at valued
        intro empty
        rw [if_pos empty] at valued
        cases valued
    rw [entries_alone described solid some_ present] at same
    intro header member
    have equal := List.map_inj_left.mp same header member
    have valued : header.joined = header.value.dropWhile FastString.blank :=
      congrArg DefaultHttpHeader.Entry.value equal
    rw [joined_alone (alone header member)] at valued
    exact ⟨alone header member, some_ header member, solid header member,
      untrailed_of_trimmed (present header member) valued.symm⟩
  · intro survives
    have alone : ∀ header ∈ headers, header.folds = [] :=
      fun header member => (survives header member).alone
    have solid : ∀ header ∈ headers, (0 : Byte) ∉ header.name :=
      fun header member => (survives header member).solid
    have some_ : ∀ header ∈ headers, header.name ≠ [] :=
      fun header member => (survives header member).some_
    have trims : ∀ header ∈ headers,
        FastString.trimmedText header.value = header.value.dropWhile FastString.blank ∧
          header.value.dropWhile FastString.blank ≠ [] := by
      intro header member
      obtain ⟨front, c, ends, untrailed⟩ := (survives header member).untrailed
      rw [ends]
      exact trimmedText_untrailed untrailed
    have present : ∀ header ∈ headers, header.value.dropWhile FastString.blank ≠ [] :=
      fun header member => (trims header member).2
    rw [headerTexts_alone alone]
    refine ⟨unfolded_alone described, Or.inl rfl, ?_, ?_⟩
    · intro line among
      obtain ⟨header, member, rfl⟩ := List.mem_map.mp among
      exact addable_first (described header member) (solid header member) (present header member)
    · rw [entries_alone described solid some_ present]
      refine List.map_inj_left.mpr fun header member => ?_
      unfold FoldedHeader.entry
      rw [joined_alone (alone header member), (trims header member).1]

theorem FoldedHeader.Described.proper (described : header.Described) :
    ∀ line ∈ header.lines, line.Proper := by
  have named := DefaultHttpHeader.allowed_of_valid described.named
  intro line among
  rcases List.mem_cons.mp among with rfl | folded
  · refine ⟨?_, ?_, described.ends⟩
    · unfold FoldedHeader.first headerLine
      exact List.append_ne_nil_of_right_ne_nil _ (List.cons_ne_nil _ _)
    · intro c listed
      unfold FoldedHeader.first headerLine at listed
      rcases List.mem_append.mp listed with one | listed
      · exact HttpMessageDecoder.not_end_of_solid (solid_of_allowed (named c one)).1
      · rcases List.mem_cons.mp listed with rfl | listed
        · decide
        · rcases List.mem_append.mp listed with spaced | valued
          · exact HttpField.not_end_of_blank (described.spaced c spaced)
          · have plain := (described.valued c valued).plain
            exact ⟨plain.2.2.2.2, plain.2.1⟩
  · obtain ⟨⟨c, rest, begins, -⟩, printed, ends⟩ := described.folded line folded
    refine ⟨?_, fun d listed => ?_, ends⟩
    · rw [begins]
      exact List.cons_ne_nil _ _
    · have plain := (printed d listed).plain
      exact ⟨plain.2.2.2.2, plain.2.1⟩

theorem headers_proper (described : ∀ header ∈ headers, header.Described) :
    ∀ line ∈ headers.flatMap FoldedHeader.lines, line.Proper := by
  intro line among
  obtain ⟨header, member, inside⟩ := List.mem_flatMap.mp among
  exact (described header member).proper line inside

end Headers

/-- The names that a trailer may not have. -/
def Reserved (name : Text) : Prop :=
  DefaultHttpHeader.eq name HttpHeaders.Names.CONTENT_LENGTH = true ∨
    DefaultHttpHeader.eq name HttpHeaders.Names.TRANSFER_ENCODING = true ∨
    DefaultHttpHeader.eq name (text "Trailer") = true

instance (name : Text) : Decidable (Reserved name) := by
  unfold Reserved
  infer_instance

namespace HttpMessageDecoder

/-- A decoder with a header section in front of it, and what has been received behind. -/
structure Presents (limits : HttpLimits) (desk : Desk) (headers : List FoldedHeader)
    (end_ beyond : List Byte) : Prop where
  fits : desk.Fits
  described : ∀ header ∈ headers, header.Described
  ends : EndsLine end_
  unread : desk.unread = written (headers.flatMap FoldedHeader.lines) ++ end_ ++ beyond
  small : (((written (headers.flatMap FoldedHeader.lines)) ++ end_).length : Int) ≤
    limits.maxHeaderSize

/-- The message has been given the headers that are meant, and nothing else. -/
def HeadersMeant (limits : HttpLimits) (desk : Desk) (message : HttpMessage)
    (headers : List FoldedHeader) : Prop :=
  ∃ context, (readHeaders limits).run desk.context =
      .ok (nextState (withEntries message (headers.map FoldedHeader.entry))) context ∧
    context.fields.object = some (withEntries message (headers.map FoldedHeader.entry))

/-- The trailer has the headers that are meant, without those it may not have. -/
def TrailersMeant (limits : HttpLimits) (desk : Desk) (trailers : List FoldedHeader) : Prop :=
  ∃ context, (readTrailingHeaders limits).run desk.context =
    .ok (.trailer ⟨(trailers.filter fun trailer => ¬Reserved trailer.name).map
      FoldedHeader.entry⟩) context

section Sections

variable {limits : HttpLimits} {desk : Desk} {message : HttpMessage}
  {headers trailers : List FoldedHeader} {end_ beyond : List Byte}

theorem headersMeant_iff (presents : Presents limits desk headers end_ beyond)
    (pointed : desk.fields.message = true) (made : desk.fields.object = some message)
    (cleared : desk.fields.headerSize = 0) :
    HeadersMeant limits desk message headers ↔ ∀ header ∈ headers, header.Survives := by
  have ends := @readHeaders_section limits desk message presents.fits pointed made
  have small := presents.small
  rw [List.length_append] at small
  rw [cleared, presents.unread, headersSection_lines (headers_proper presents.described)
    presents.ends beyond (by omega)] at ends
  rw [← headers_meant_iff presents.described message]
  unfold HeadersMeant headerTexts
  generalize linesRead .fresh ((headers.flatMap FoldedHeader.lines).map WrittenLine.text) message =
    read at *
  generalize (readHeaders limits).run desk.context = result at *
  cases read with
  | error stop =>
      cases ends
      refine ⟨?_, nofun⟩
      rintro ⟨context, wrong, -⟩
      cases wrong
  | ok changed =>
      cases ends
      constructor
      · rintro ⟨context, same, object⟩
        obtain ⟨-, reached⟩ := EStateM.Result.ok.inj same
        rw [← reached] at object
        exact congrArg Except.ok (Option.some.inj object)
      · intro same
        cases same
        exact ⟨_, rfl, rfl⟩

theorem trailersMeant_iff (presents : Presents limits desk trailers end_ beyond) :
    TrailersMeant limits desk trailers ↔ ∀ trailer ∈ trailers, Reserved trailer.name := by
  have ends := @readTrailingHeaders_section limits desk presents.fits
  have small := presents.small
  rw [List.length_append] at small
  rw [presents.unread, trailersSection_lines (headers_proper presents.described) presents.ends beyond
    (by omega)] at ends
  have none : (trailers.filter fun trailer => ¬Reserved trailer.name) = [] ↔
      ∀ trailer ∈ trailers, Reserved trailer.name := by
    rw [List.filter_eq_nil_iff]
    simp
  unfold TrailersMeant
  rw [← none]
  generalize (readTrailingHeaders limits).run desk.context = result at *
  cases ends
  constructor
  · rintro ⟨context, same⟩
    cases listed : trailers.filter fun trailer => ¬Reserved trailer.name with
    | nil => rfl
    | cons trailer rest =>
        rw [listed] at same
        cases same
  · intro empty
    rw [empty]
    exact ⟨_, rfl⟩

/-- The headers are read as they are meant exactly when none is continued, none has an empty name or a
terminator in it, and each value ends in a character that is not blank; the trailers exactly when each
has a name that a trailer may not have. -/
theorem header_sections_iff (limits : HttpLimits) (desk desk' : Desk) (message : HttpMessage)
    (headers trailers : List FoldedHeader) (end_ end' beyond beyond' : List Byte)
    (presents : Presents limits desk headers end_ beyond)
    (presents' : Presents limits desk' trailers end' beyond')
    (pointed : desk.fields.message = true) (made : desk.fields.object = some message)
    (cleared : desk.fields.headerSize = 0) :
    (HeadersMeant limits desk message headers ↔ ∀ header ∈ headers, header.Survives) ∧
      (TrailersMeant limits desk' trailers ↔ ∀ trailer ∈ trailers, Reserved trailer.name) :=
  ⟨headersMeant_iff presents pointed made cleared, trailersMeant_iff presents'⟩

/-- A header section of one header, in the buffer of the channel. -/
theorem presents_one {header : FoldedHeader} (described : header.Described)
    (small : ((written header.lines ++ lineEnd).length : Int) ≤ limits.maxHeaderSize)
    (bounded : (written header.lines ++ lineEnd).length ≤ 2147483647) :
    Presents limits (.headed (written header.lines ++ lineEnd)) [header] lineEnd [] := by
  have single : [header].flatMap FoldedHeader.lines = header.lines := List.append_nil _
  refine ⟨Desk.headed_fits bounded, ?_, Or.inl rfl, ?_, ?_⟩
  · intro other among
    rw [List.mem_singleton.mp among]
    exact described
  · rw [Desk.headed_unread, single, List.append_nil]
  · rw [single]
    exact small

/-- A header on a line of its own. -/
def plainHost : FoldedHeader := ⟨text "Host", [HttpCodecUtil.SP], text "a", lineEnd, []⟩

theorem plainHost_described : plainHost.Described :=
  ⟨by decide, by decide, by decide, Or.inl rfl, nofun⟩

/-- A trailer that its chunk may not have. -/
def reservedTrailer : FoldedHeader := ⟨text "trailer", [], text "a", lineEnd, []⟩

theorem reservedTrailer_described : reservedTrailer.Described :=
  ⟨by decide, by decide, by decide, Or.inl rfl, nofun⟩

theorem header_sections_plain :
    (HeadersMeant ⟨4096, 8192, 8192⟩ (.headed (written plainHost.lines ++ lineEnd))
        HttpResponseDecoder.response [plainHost] ↔ ∀ header ∈ [plainHost], header.Survives) ∧
      (TrailersMeant ⟨4096, 8192, 8192⟩ (.headed (written reservedTrailer.lines ++ lineEnd))
        [reservedTrailer] ↔ ∀ trailer ∈ [reservedTrailer], Reserved trailer.name) :=
  header_sections_iff ⟨4096, 8192, 8192⟩ _ _ HttpResponseDecoder.response [plainHost]
    [reservedTrailer] lineEnd lineEnd [] [] (presents_one plainHost_described (by decide) (by decide))
    (presents_one reservedTrailer_described (by decide) (by decide)) rfl rfl rfl

/-- A header that is continued on the next line. -/
def foldedHost : FoldedHeader :=
  ⟨text "Host", [HttpCodecUtil.SP], text "a", lineEnd, [⟨text " b", lineEnd⟩]⟩

theorem foldedHost_described : foldedHost.Described := by
  refine ⟨by decide, by decide, by decide, Or.inl rfl, ?_⟩
  intro line among
  rw [List.mem_singleton.mp among]
  exact ⟨⟨_, _, rfl, by decide⟩, by decide, Or.inl rfl⟩

/-- The continued header is not read, and a trailer that is not reserved is dropped. -/
theorem header_sections_lost :
    ¬HeadersMeant ⟨4096, 8192, 8192⟩ (.headed (written foldedHost.lines ++ lineEnd))
        HttpResponseDecoder.response [foldedHost] ∧
      ¬TrailersMeant ⟨4096, 8192, 8192⟩ (.headed (written plainHost.lines ++ lineEnd))
        [plainHost] := by
  constructor
  · rw [headersMeant_iff (presents_one foldedHost_described (by decide) (by decide)) rfl rfl rfl]
    intro survives
    have alone := (survives foldedHost List.mem_cons_self).alone
    cases alone
  · rw [trailersMeant_iff (presents_one plainHost_described (by decide) (by decide))]
    intro reserved
    exact absurd (reserved plainHost List.mem_cons_self) (by decide)

end Sections

end HttpMessageDecoder

end Cetty
