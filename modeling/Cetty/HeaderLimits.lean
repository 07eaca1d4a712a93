import Cetty.FixedChunks

/-!
# The limit on the headers

The size is looked at behind each character that does not end a line. What has been counted is given up
behind the first line, so that a section may be larger than is allowed. The exception is raised while
the section is read; what the decoder does behind it throws nothing of that kind.
-/

namespace Cetty

open CLocale MachineInt ByteWindow

/-- So many bytes of a line have been read when the size is looked at for the last time. -/
def looked : Text → Nat
  | [] => 0
  | [c] => if c = HttpCodecUtil.CR then 0 else 1
  | c :: d :: rest =>
      if c = HttpCodecUtil.CR then 2 + looked rest else 1 + looked (d :: rest)

/-- The characters of a line with its end, as they are counted. -/
def lineCharacters : Text → Nat
  | [] => 1
  | [c] => if c = HttpCodecUtil.CR then 1 else 2
  | c :: d :: rest =>
      if c = HttpCodecUtil.CR then 1 + lineCharacters rest else 1 + lineCharacters (d :: rest)

/-- The text that is made of a line. -/
def lineText (line : Text) : Text := line.take (lineCharacters line - 1)

/-- A line in which nothing stands but perhaps a carriage return in front of its end. -/
def Empty (line : Text) : Prop := line = [] ∨ line = [HttpCodecUtil.CR]

instance (line : Text) : Decidable (Empty line) := by
  unfold Empty
  infer_instance

section Looks

variable {line rest : Text} {limit headerSize : Int}

theorem looked_le (line : Text) : looked line ≤ line.length := by
  induction line using List.twoStepInduction with
  | nil => exact Nat.le_refl _
  | singleton c =>
      rw [looked]
      split
      · exact Nat.zero_le _
      · exact Nat.le_refl _
  | cons_cons c d rest first second =>
      have later := second d
      rw [looked, List.length_cons, List.length_cons]
      rw [List.length_cons] at later
      split
      · omega
      · omega

theorem looked_append (line more : Text) : looked line ≤ looked (line ++ more) := by
  induction line using List.twoStepInduction with
  | nil => exact Nat.zero_le _
  | singleton c =>
      cases more with
      | nil => exact Nat.le_refl _
      | cons d rest =>
          rw [looked, List.singleton_append, looked]
          split
          · exact Nat.zero_le _
          · exact Nat.le_add_right 1 _
  | cons_cons c d rest first second =>
      have later := second d
      rw [List.cons_append] at later
      rw [List.cons_append, List.cons_append, looked, looked]
      split
      · omega
      · omega

theorem looked_empty (empty : Empty line) : looked line = 0 := by
  rcases empty with rfl | rfl
  · rfl
  · rfl

theorem looked_pos (present : ¬Empty line) : 0 < looked line := by
  cases line with
  | nil => exact absurd (Or.inl rfl) present
  | cons c rest =>
      cases rest with
      | nil =>
          rw [looked, if_neg]
          · exact Nat.one_pos
          · rintro rfl
            exact present (Or.inr rfl)
      | cons d rest =>
          rw [looked]
          split
          · omega
          · omega

theorem lineText_empty (empty : Empty line) : lineText line = [] := by
  rcases empty with rfl | rfl
  · rfl
  · rfl

theorem lineCharacters_pos (line : Text) : 0 < lineCharacters line := by
  cases line with
  | nil => exact Nat.one_pos
  | cons c rest =>
      cases rest with
      | nil =>
          rw [lineCharacters]
          split
          · exact Nat.one_pos
          · exact Nat.two_pos
      | cons d rest =>
          rw [lineCharacters]
          split
          · omega
          · omega

theorem lineText_present (present : ¬Empty line) : lineText line ≠ [] := by
  have characters : 1 < lineCharacters line ∧ line ≠ [] := by
    cases line with
    | nil => exact absurd (Or.inl rfl) present
    | cons c rest =>
        refine ⟨?_, List.cons_ne_nil _ _⟩
        cases rest with
        | nil =>
            rw [lineCharacters, if_neg]
            · decide
            · rintro rfl
              exact present (Or.inr rfl)
        | cons d rest =>
            have one := lineCharacters_pos rest
            have other := lineCharacters_pos (d :: rest)
            rw [lineCharacters]
            split
            · omega
            · omega
  unfold lineText
  intro none
  rcases List.take_eq_nil_iff.mp none with zero | nothing
  · omega
  · exact characters.2 nothing

theorem lineCharacters_le (line : Text) : lineCharacters line ≤ line.length + 1 := by
  induction line using List.twoStepInduction with
  | nil => exact Nat.le_refl _
  | singleton c =>
      rw [lineCharacters]
      split
      · exact Nat.le_succ _
      · exact Nat.le_refl _
  | cons_cons c d rest first second =>
      have later := second d
      rw [lineCharacters, List.length_cons, List.length_cons]
      rw [List.length_cons] at later
      split
      · omega
      · omega

theorem take_line (line : Text) (rest : List Byte) :
    (line ++ HttpCodecUtil.LF :: rest).take (lineCharacters line - 1) = lineText line := by
  have less := lineCharacters_le line
  exact List.take_append_of_le_length (by omega)

theorem drop_line (line : Text) (rest : List Byte) :
    (line ++ HttpCodecUtil.LF :: rest).drop (line.length + 1) = rest := by
  rw [← List.drop_drop, List.drop_left]
  rfl

theorem unfed_of_empty (empty : Empty line) : HttpCodecUtil.LF ∉ line := by
  rcases empty with rfl | rfl
  · exact List.not_mem_nil
  · decide

/-- A line, or the front of one, whose end stands behind it or has not come. -/
theorem headerScan_front {tail : List Byte} (unfed : HttpCodecUtil.LF ∉ line)
    (ends : tail = [] ∨ ∃ rest, tail = HttpCodecUtil.LF :: rest) :
    headerScan limit headerSize (line ++ tail) =
      if 0 < looked line ∧ limit ≤ headerSize + looked line then .tooLarge
      else if tail = [] then .short
      else .ended (lineCharacters line) (line.length + 1) := by
  induction line using List.twoStepInduction generalizing headerSize with
  | nil =>
      rw [List.nil_append, if_neg fun wrong => absurd wrong.1 (Nat.lt_irrefl 0)]
      rcases ends with rfl | ⟨rest, rfl⟩
      · rfl
      · rw [headerScan_cons (by decide), if_pos rfl, if_neg (List.cons_ne_nil _ _)]
        rfl
  | singleton c =>
      have feed : c ≠ HttpCodecUtil.LF := by
        rintro rfl
        exact unfed List.mem_cons_self
      rw [List.singleton_append, looked, lineCharacters]
      by_cases carriage : c = HttpCodecUtil.CR
      · rw [carriage, if_pos rfl, if_pos rfl, if_neg fun wrong => absurd wrong.1 (Nat.lt_irrefl 0)]
        rcases ends with rfl | ⟨rest, rfl⟩
        · exact headerScan_return_alone
        · rw [headerScan_return, if_pos rfl, if_neg (List.cons_ne_nil _ _)]
          rfl
      · rw [headerScan_cons carriage, if_neg feed, if_neg carriage, if_neg carriage]
        by_cases large : limit ≤ headerSize + 1
        · rw [if_pos large, if_pos ⟨Nat.one_pos, large⟩]
        · rw [if_neg large, if_neg fun wrong => large wrong.2]
          rcases ends with rfl | ⟨rest, rfl⟩
          · rfl
          · rw [headerScan_cons (by decide), if_pos rfl, if_neg (List.cons_ne_nil _ _)]
            rfl
  | cons_cons c d rest first second =>
      have feed : c ≠ HttpCodecUtil.LF := by
        rintro rfl
        exact unfed List.mem_cons_self
      have feed' : d ≠ HttpCodecUtil.LF := by
        rintro rfl
        exact unfed (List.mem_cons_of_mem _ List.mem_cons_self)
      rw [List.cons_append, List.cons_append, looked, lineCharacters]
      by_cases carriage : c = HttpCodecUtil.CR
      · have later := @first (headerSize + 2) fun wrong =>
          unfed (List.mem_cons_of_mem _ (List.mem_cons_of_mem _ wrong))
        rw [carriage, headerScan_return, if_neg feed', if_pos rfl, if_pos rfl, later]
        by_cases large : limit ≤ headerSize + 2
        · rw [if_pos large, if_pos ⟨by omega, by omega⟩]
        · rw [if_neg large]
          by_cases further : 0 < looked rest ∧ limit ≤ headerSize + 2 + looked rest
          · rw [if_pos further, if_pos ⟨by omega, by omega⟩]
            rfl
          · have small : ¬(0 < 2 + looked rest ∧
                limit ≤ headerSize + ((2 + looked rest : Nat) : Int)) := by omega
            rw [if_neg further, if_neg small]
            by_cases none : tail = []
            · rw [if_pos none, if_pos none]
              rfl
            · rw [if_neg none, if_neg none, LineRead.behind_ended, List.length_cons, List.length_cons]
              congr 1
              omega
      · have later := @second d (headerSize + 1) fun wrong => unfed (List.mem_cons_of_mem _ wrong)
        rw [List.cons_append] at later
        rw [headerScan_cons carriage, if_neg feed, if_neg carriage, if_neg carriage, later]
        by_cases large : limit ≤ headerSize + 1
        · rw [if_pos large, if_pos ⟨by omega, by omega⟩]
        · rw [if_neg large]
          by_cases further : 0 < looked (d :: rest) ∧ limit ≤ headerSize + 1 + looked (d :: rest)
          · rw [if_pos further, if_pos ⟨by omega, by omega⟩]
            rfl
          · have small : ¬(0 < 1 + looked (d :: rest) ∧
                limit ≤ headerSize + ((1 + looked (d :: rest) : Nat) : Int)) := by omega
            rw [if_neg further, if_neg small]
            by_cases none : tail = []
            · rw [if_pos none, if_pos none]
              rfl
            · rw [if_neg none, if_neg none, LineRead.behind_ended]
              simp only [List.length_cons]
              congr 1
              omega

/-- A line that has come whole. -/
theorem headerScan_whole (unfed : HttpCodecUtil.LF ∉ line) (rest : List Byte) :
    headerScan limit headerSize (line ++ HttpCodecUtil.LF :: rest) =
      if 0 < looked line ∧ limit ≤ headerSize + looked line then .tooLarge
      else .ended (lineCharacters line) (line.length + 1) := by
  rw [headerScan_front unfed (Or.inr ⟨rest, rfl⟩), if_neg (List.cons_ne_nil _ _)]

/-- A line whose end has not come. -/
theorem headerScan_part (unfed : HttpCodecUtil.LF ∉ line) :
    headerScan limit headerSize line =
      if 0 < looked line ∧ limit ≤ headerSize + looked line then .tooLarge else .short := by
  have front := @headerScan_front line limit headerSize [] unfed (Or.inl rfl)
  rw [List.append_nil, if_pos rfl] at front
  exact front

end Looks

/-- The bytes of lines, each with its line feed. -/
def fed (lines : List Text) : List Byte := lines.flatMap fun line => line ++ [HttpCodecUtil.LF]

theorem fed_nil : fed [] = [] := rfl

theorem fed_cons (line : Text) (lines : List Text) :
    fed (line :: lines) = line ++ HttpCodecUtil.LF :: fed lines := by
  unfold fed
  rw [List.flatMap_cons, List.append_assoc]
  rfl

theorem fed_append (front back : List Text) : fed (front ++ back) = fed front ++ fed back :=
  List.flatMap_append

theorem length_le_fed (lines : List Text) : lines.length ≤ (fed lines).length := by
  induction lines with
  | nil => exact Nat.le_refl _
  | cons line lines induction =>
      rw [fed_cons, List.length_append, List.length_cons, List.length_cons]
      omega

/-- A header section: its lines, and the empty line that ends it. -/
structure HeaderSection where
  lines : List Text
  last : Text
  unfed : ∀ line ∈ lines, HttpCodecUtil.LF ∉ line
  present : ∀ line ∈ lines, ¬Empty line
  empty : Empty last

/-- With its terminating empty line. -/
def HeaderSection.bytes (heading : HeaderSection) : List Byte :=
  fed (heading.lines ++ [heading.last])

/-- None of the lines continues a header, and each header but the last can be added. -/
def Passed : SplitLine → List Text → Prop
  | _, [] => True
  | split, text :: texts =>
      continues split text = false ∧ Addable split ∧ Passed (splitText text) texts

/-- Behind a line that has been read stand lines that pass, and behind them one where the size has
grown too large. -/
def Grows (max headerSize : Int) (split : SplitLine) (text : Text) (lines : List Text) : Prop :=
  ∃ front line back, lines = front ++ line :: back ∧
    Passed split (text :: front.map lineText) ∧
    max ≤ headerSize + (fed front).length + looked line

/-- The first line alone is too large, or so are the lines behind it up to one that is reached. -/
def HeaderSection.Overruns (max : Int) (heading : HeaderSection) : Prop :=
  ∃ first lines, heading.lines = first :: lines ∧
    (max ≤ looked first ∨ Grows max 0 .fresh (lineText first) lines)

/-- The section is read to its end, or to a stop, for its size exactly on a condition. -/
def SectionRead.Decides (long : Prop) : SectionRead → Prop
  | short => False
  | stopped stop => stop.isTooLong = true ↔ long
  | done _ _ => ¬long

section Sizes

variable {limits : HttpLimits} {message : HttpMessage} {split : SplitLine} {text line last : Text}
  {lines : List Text} {headerSize max : Int} {long : Prop}

theorem SectionRead.decides_behind {counted : Nat} {read : SectionRead} :
    (read.behind counted).Decides long ↔ read.Decides long := by
  cases read with
  | short => exact Iff.rfl
  | stopped stop => exact Iff.rfl
  | done message n => exact Iff.rfl

theorem SectionRead.Decides.of_iff {other : Prop} {read : SectionRead} (same : long ↔ other)
    (decides : read.Decides long) : read.Decides other := by
  rw [← propext same]
  exact decides

theorem headerTooLarge_isTooLong (limits : HttpLimits) :
    (HttpMessageDecoder.headerTooLarge limits).isTooLong = true := rfl

theorem grows_nil : ¬Grows max headerSize split text [] := by
  rintro ⟨front, line, back, same, -⟩
  exact absurd same.symm (List.append_ne_nil_of_right_ne_nil _ (List.cons_ne_nil _ _))

theorem grows_passed (grows : Grows max headerSize split text lines) :
    continues split text = false ∧ Addable split := by
  obtain ⟨front, line, back, -, passed, -⟩ := grows
  exact ⟨passed.1, passed.2.1⟩

/-- The size is too large at the next line, or behind it. -/
theorem grows_cons (apart : continues split text = false) (addable : Addable split) :
    Grows max headerSize split text (line :: lines) ↔
      max ≤ headerSize + looked line ∨
        Grows max (headerSize + (line.length + 1 : Nat)) (splitText text) (lineText line) lines := by
  constructor
  · rintro ⟨front, other, back, same, passed, large⟩
    cases front with
    | nil =>
        cases same
        rw [fed_nil, List.length_nil] at large
        exact Or.inl (by omega)
    | cons first front =>
        rw [List.cons_append] at same
        cases same
        refine Or.inr ⟨front, other, back, rfl, passed.2.2, ?_⟩
        rw [fed_cons, List.length_append, List.length_cons] at large
        omega
  · rintro (large | ⟨front, other, back, rfl, passed, large⟩)
    · refine ⟨[], line, lines, rfl, ⟨apart, addable, trivial⟩, ?_⟩
      rw [fed_nil, List.length_nil]
      omega
    · refine ⟨line :: front, other, back, rfl, ⟨apart, addable, passed⟩, ?_⟩
      rw [fed_cons, List.length_append, List.length_cons]
      omega

/-- The next line of a section is read, or is too large for what has been counted. -/
theorem nextLine_decides {next : Nat → Nat → SectionRead} {later : Prop}
    (unfed : HttpCodecUtil.LF ∉ line) (rest : List Byte)
    (onward : (next (lineCharacters line) (line.length + 1)).Decides later) :
    ((headerScan limits.maxHeaderSize headerSize (line ++ HttpCodecUtil.LF :: rest)).onward limits
      next).Decides
        ((0 < looked line ∧ limits.maxHeaderSize ≤ headerSize + looked line) ∨ later) := by
  rw [headerScan_whole unfed]
  by_cases large : 0 < looked line ∧ limits.maxHeaderSize ≤ headerSize + looked line
  · rw [if_pos large]
    exact iff_of_true (headerTooLarge_isTooLong limits) (Or.inl large)
  · rw [if_neg large]
    exact SectionRead.decides_behind.mpr (onward.of_iff (or_iff_right large).symm)

/-- At the empty line the last header is added, whatever the size. -/
theorem lastLine_decides (rounds : Nat) (split : SplitLine) (message : HttpMessage)
    (headerSize : Int) (bytes : List Byte) :
    (headerSection limits (rounds + 1) split [] message headerSize bytes).Decides False := by
  rw [headerSection, if_pos rfl]
  rcases addSplit_verdict split message with ⟨-, added⟩ | ⟨-, stop, refused, -, -, short⟩
  · rw [added]
    exact not_false
  · rw [refused]
    exact iff_of_false (by rw [short]; exact Bool.false_ne_true) not_false

theorem headerSection_decides {rounds : Nat} (reached : text ≠ [])
    (unfed : ∀ line ∈ lines, HttpCodecUtil.LF ∉ line) (present : ∀ line ∈ lines, ¬Empty line)
    (empty : Empty last) (beyond : List Byte) (enough : lines.length + 2 ≤ rounds) :
    (headerSection limits rounds split text message headerSize
      (fed (lines ++ [last]) ++ beyond)).Decides
        (Grows limits.maxHeaderSize headerSize split text lines) := by
  induction lines generalizing rounds split text message headerSize with
  | nil =>
      obtain ⟨rounds, rfl⟩ : ∃ more, rounds = more + 2 := ⟨rounds - 2, by simp at enough; omega⟩
      rw [headerSection, if_neg reached]
      by_cases folded : continues split text = true
      · rw [if_pos folded]
        exact iff_of_false Bool.false_ne_true grows_nil
      · rw [if_neg folded]
        rcases addSplit_verdict split message with ⟨-, added⟩ | ⟨-, stop, refused, -, -, short⟩
        · have bytes : fed ([] ++ [last]) ++ beyond = last ++ HttpCodecUtil.LF :: beyond := by
            rw [List.nil_append, fed_cons, fed_nil, List.append_assoc]
            rfl
          have none : ¬(0 < looked last ∧ limits.maxHeaderSize ≤ headerSize + looked last) := by
            rw [looked_empty empty]
            exact fun wrong => absurd wrong.1 (Nat.lt_irrefl 0)
          have never : (0 < looked last ∧ limits.maxHeaderSize ≤ headerSize + looked last) ∨ False ↔
              Grows limits.maxHeaderSize headerSize split text [] :=
            iff_of_false (not_or.mpr ⟨none, not_false⟩) grows_nil
          rw [added, bytes]
          dsimp only
          apply SectionRead.Decides.of_iff never
          apply nextLine_decides (unfed_of_empty empty)
          rw [take_line, lineText_empty empty]
          exact lastLine_decides _ _ _ _ _
        · rw [refused]
          exact iff_of_false (by rw [short]; exact Bool.false_ne_true) grows_nil
  | cons line lines induction =>
      obtain ⟨rounds, rfl⟩ : ∃ more, rounds = more + 1 := ⟨rounds - 1, by omega⟩
      rw [headerSection, if_neg reached]
      by_cases folded : continues split text = true
      · rw [if_pos folded]
        refine iff_of_false Bool.false_ne_true fun grows => ?_
        rw [(grows_passed grows).1] at folded
        exact Bool.false_ne_true folded
      · rw [if_neg folded]
        rcases addSplit_verdict split message with
          ⟨addable, added⟩ | ⟨unable, stop, refused, -, -, short⟩
        · have bytes : fed (line :: lines ++ [last]) ++ beyond =
              line ++ HttpCodecUtil.LF :: (fed (lines ++ [last]) ++ beyond) := by
            rw [List.cons_append, fed_cons, List.append_assoc]
            rfl
          have here := present line List.mem_cons_self
          have grows : (0 < looked line ∧ limits.maxHeaderSize ≤ headerSize + looked line) ∨
              Grows limits.maxHeaderSize (headerSize + (line.length + 1 : Nat)) (splitText text)
                (lineText line) lines ↔
              Grows limits.maxHeaderSize headerSize split text (line :: lines) := by
            rw [grows_cons (Bool.eq_false_iff.mpr folded) addable, and_iff_right (looked_pos here)]
          rw [added, bytes]
          dsimp only
          apply SectionRead.Decides.of_iff grows
          apply nextLine_decides (unfed line List.mem_cons_self)
          rw [take_line, drop_line]
          rw [List.length_cons] at enough
          exact induction (lineText_present here)
            (fun other among => unfed other (List.mem_cons_of_mem _ among))
            (fun other among => present other (List.mem_cons_of_mem _ among)) (by omega)
        · rw [refused]
          refine iff_of_false (by rw [short]; exact Bool.false_ne_true) fun grows => ?_
          exact unable (grows_passed grows).2

namespace HeaderSection

/-- A header section that has come whole is read to its end or stops for its size. -/
theorem decides (heading : HeaderSection) (message : HttpMessage) (beyond : List Byte) :
    (headersSection limits message 0 (heading.bytes ++ beyond)).Decides
      (heading.Overruns limits.maxHeaderSize) := by
  obtain ⟨lines, last, unfed, present, empty⟩ := heading
  unfold HeaderSection.bytes HeaderSection.Overruns headersSection
  dsimp only
  cases lines with
  | nil =>
      have bytes : fed ([] ++ [last]) ++ beyond = last ++ HttpCodecUtil.LF :: beyond := by
        rw [List.nil_append, fed_cons, fed_nil, List.append_assoc]
        rfl
      have never : (0 < looked last ∧ limits.maxHeaderSize ≤ 0 + looked last) ∨ False ↔
          ∃ first lines, ([] : List Text) = first :: lines ∧
            (limits.maxHeaderSize ≤ looked first ∨
              Grows limits.maxHeaderSize 0 .fresh (lineText first) lines) := by
        rw [looked_empty empty]
        apply iff_of_false
        · rintro (wrong | wrong)
          · exact absurd wrong.1 (Nat.lt_irrefl 0)
          · exact wrong
        · rintro ⟨first, lines, wrong, -⟩
          cases wrong
      rw [bytes]
      apply SectionRead.Decides.of_iff never
      apply nextLine_decides (unfed_of_empty empty)
      rw [take_line, lineText_empty empty]
      exact lastLine_decides _ _ _ _ _
  | cons first lines =>
      have here := present first List.mem_cons_self
      have bytes : fed (first :: lines ++ [last]) ++ beyond =
          first ++ HttpCodecUtil.LF :: (fed (lines ++ [last]) ++ beyond) := by
        rw [List.cons_append, fed_cons, List.append_assoc]
        rfl
      have overruns : (0 < looked first ∧ limits.maxHeaderSize ≤ 0 + looked first) ∨
          Grows limits.maxHeaderSize 0 .fresh (lineText first) lines ↔
          ∃ other rest, first :: lines = other :: rest ∧
            (limits.maxHeaderSize ≤ looked other ∨
              Grows limits.maxHeaderSize 0 .fresh (lineText other) rest) := by
        rw [and_iff_right (looked_pos here), Int.zero_add]
        constructor
        · intro long
          exact ⟨first, lines, rfl, long⟩
        · rintro ⟨other, rest, same, long⟩
          cases same
          exact long
      have size : lines.length + 1 ≤ (fed (lines ++ [last])).length := by
        have fewer := length_le_fed (lines ++ [last])
        rw [List.length_append, List.length_singleton] at fewer
        exact fewer
      have enough : lines.length + 2 ≤ (first ++ HttpCodecUtil.LF :: (fed (lines ++ [last]) ++
          beyond)).length - (first.length + 1) + 1 := by
        rw [List.length_append, List.length_cons, List.length_append]
        omega
      rw [bytes]
      apply SectionRead.Decides.of_iff overruns
      apply nextLine_decides (unfed first List.mem_cons_self)
      rw [take_line, drop_line]
      exact headerSection_decides (lineText_present here)
        (fun other among => unfed other (List.mem_cons_of_mem _ among))
        (fun other among => present other (List.mem_cons_of_mem _ among)) empty beyond enough

/-- Only a section larger than the limit overruns. -/
theorem Overruns.larger {heading : HeaderSection} (overruns : heading.Overruns max) :
    max < heading.bytes.length := by
  obtain ⟨first, lines, same, long⟩ := overruns
  unfold bytes
  rw [same, List.cons_append, fed_cons, List.length_append, List.length_cons]
  rcases long with alone | ⟨front, line, back, rfl, -, large⟩
  · have less := looked_le first
    omega
  · have less := looked_le line
    rw [List.append_assoc, List.cons_append, fed_append, fed_cons, List.length_append,
      List.length_append, List.length_cons]
    omega

end HeaderSection

end Sizes

namespace Moment

variable {Fields : Type}

def state : Moment Fields → Int
  | looping _ context _ => context.state
  | resting sender => sender.decoder.state

end Moment

/-- It is no `TooLongFrameException`. -/
def Stop.Other (stop : Stop) : Prop := stop.isTooLong = false

namespace HttpMessageDecoder

open ReplayingDecoder (Reaches loopContext)

section Tails

variable {limits : HttpLimits} {httpSubclass : HttpSubclass} {Value : Type}

/-- Headers are not read any more. -/
def Elsewhere (context : ReplayContext HttpMessageDecoder) : Prop := context.state ≠ READ_HEADER

/-- A program that leaves the state alone and does not say that something is too long. -/
structure Beside (program : Decode Value) : Prop where
  keeps : Keeps Elsewhere program
  stops : StopsWith Stop.Other program

namespace Beside

theorem pure (value : Value) : Beside (Pure.pure value : Decode Value) :=
  ⟨Keeps.pure value, StopsWith.pure value⟩

theorem throw {stop : Stop} (other : stop.Other) : Beside (throw stop : Decode Value) :=
  ⟨Keeps.throw stop, StopsWith.throw other⟩

theorem bind {Next : Type} {first : Decode Value} {next : Value → Decode Next}
    (now : Beside first) (later : ∀ value, Beside (next value)) : Beside (first >>= next) :=
  ⟨Keeps.bind now.keeps fun value => (later value).keeps,
    StopsWith.bind now.stops fun value => (later value).stops⟩

theorem ite {condition : Prop} [Decidable condition] {yes no : Decode Value}
    (positive : Beside yes) (negative : Beside no) : Beside (if condition then yes else no) :=
  ⟨Keeps.ite (fun _ => positive.keeps) fun _ => negative.keeps,
    StopsWith.ite (fun _ => positive.stops) fun _ => negative.stops⟩

theorem get {Result : Type} {look : ReplayContext HttpMessageDecoder → Decode Result}
    (later : ∀ context, Beside (look context)) : Beside (MonadState.get >>= look) :=
  bind ⟨Keeps.get, StopsWith.get⟩ later

theorem modify {change : ReplayContext HttpMessageDecoder → ReplayContext HttpMessageDecoder}
    (kept : ∀ context, (change context).state = context.state) :
    Beside (modify change : Decode Unit) := by
  refine ⟨Keeps.modify fun before elsewhere => ?_, StopsWith.modify change⟩
  unfold Elsewhere
  rw [kept]
  exact elsewhere

theorem call {result : Except Stop Value} (other : ∀ stop, result = .error stop → stop.Other) :
    Beside (Cetty.call result : Decode Value) :=
  ⟨Keeps.call result, StopsWith.call other⟩

theorem update (change : HttpMessageDecoder → HttpMessageDecoder) : Beside (update change) :=
  modify fun _ => rfl

theorem checkpointAt {state : Int} (elsewhere : state ≠ READ_HEADER) :
    Beside (checkpointAt state : Decode Unit) := by
  refine bind (modify fun _ => rfl) fun _ => ⟨Keeps.modify fun _ _ => elsewhere, ?_⟩
  exact StopsWith.modify _

theorem theMessage : Beside theMessage := by
  refine get fun context => ?_
  dsimp only
  split
  · exact pure _
  · exact throw rfl

theorem onMessage {change : HttpMessage → Except Stop HttpMessage}
    (other : ∀ message stop, change message = .error stop → stop.Other) :
    Beside (onMessage change) :=
  bind theMessage fun message => bind (call (other message)) fun _ => update _

theorem publish (object : HttpObject) : Beside (publish object) :=
  get fun _ => bind (update _) fun _ => pure _

theorem publishMessage : Beside publishMessage := bind theMessage fun _ => publish _

end Beside

theorem setContent_other (content : ChannelBuffer) (message : HttpMessage) (stop : Stop)
    (refused : message.setContent content = .error stop) : stop.Other := by
  unfold HttpMessage.setContent at refused
  split at refused
  · cases refused
    rfl
  · cases refused

theorem setChunked_other (chunked : Bool) (message : HttpMessage) (stop : Stop)
    (refused : message.setChunked chunked = .error stop) : stop.Other := by
  unfold HttpMessage.setChunked at refused
  split at refused
  · exact setContent_other _ _ _ refused
  · cases refused

theorem Beside.release : Beside release := by
  refine Beside.get fun context => ?_
  refine Beside.bind (Beside.update _) fun _ => ?_
  exact Beside.bind (Beside.checkpointAt (by decide)) fun _ => Beside.pure _

theorem Beside.reset : Beside reset := by
  refine Beside.get fun context => ?_
  dsimp only
  split
  · refine Beside.bind (Beside.onMessage (setContent_other _)) fun _ => ?_
    exact Beside.bind (Beside.update _) fun _ => Beside.release
  · exact Beside.release

theorem Beside.lengthState (next : Int) : Beside (lengthState limits httpSubclass next) := by
  refine Beside.bind Beside.theMessage fun message => ?_
  apply Beside.ite
  · refine Beside.bind (Beside.update _) fun _ => ?_
    exact Beside.bind Beside.reset fun _ => Beside.publish _
  · apply Beside.ite
    · refine Beside.bind Beside.theMessage fun message => ?_
      apply Beside.ite
      · refine Beside.bind (Beside.checkpointAt (by decide)) fun _ => ?_
        refine Beside.bind (Beside.onMessage (setChunked_other true)) fun _ => ?_
        refine Beside.bind Beside.theMessage fun message => ?_
        exact Beside.bind (Beside.update _) fun _ => Beside.publishMessage
      · exact Beside.pure _
    · refine Beside.get fun context => ?_
      refine Beside.bind Beside.theMessage fun message => ?_
      apply Beside.ite
      · refine Beside.bind (Beside.checkpointAt (by decide)) fun _ => ?_
        refine Beside.bind (Beside.onMessage (setChunked_other true)) fun _ => ?_
        exact Beside.publishMessage
      · exact Beside.pure _

/-- The part of `headerState` behind the headers and the checkpoint. -/
def headersRead (limits : HttpLimits) (httpSubclass : HttpSubclass) (next : Int) :
    Decode ChannelMessage := do
  if next = READ_CHUNK_SIZE then
    onMessage fun message => message.setChunked true
    publishMessage
  else if next = SKIP_CONTROL_CHARS then
    onMessage fun message =>
      pure { message with header := message.header.remove HttpHeaders.Names.TRANSFER_ENCODING }
    publishMessage
  else lengthState limits httpSubclass next

theorem Beside.headersRead (next : Int) : Beside (headersRead limits httpSubclass next) := by
  apply Beside.ite
  · exact Beside.bind (Beside.onMessage (setChunked_other true)) fun _ => Beside.publishMessage
  · apply Beside.ite
    · refine Beside.bind (Beside.onMessage ?_) fun _ => Beside.publishMessage
      intro message stop refused
      cases refused
    · exact Beside.lengthState next

variable {context middle : ReplayContext HttpMessageDecoder} {next : Int}

theorem headerState_ok (elsewhere : next ≠ READ_HEADER)
    (read : (readHeaders limits).run context = .ok next middle) :
    ∃ placed, placed.state = next ∧ (headerState limits httpSubclass).run context =
      (headersRead limits httpSubclass next).run placed := by
  obtain ⟨placed, ran, same⟩ : ∃ placed, (checkpointAt next : Decode Unit).run middle =
      .ok () placed ∧ placed.state = next := ⟨_, rfl, rfl⟩
  refine ⟨placed, same, ?_⟩
  unfold headerState
  rw [run_bind_ok _ read, if_neg elsewhere, run_bind_ok _ ran]
  rfl

theorem headerState_more (read : (readHeaders limits).run context = .ok READ_HEADER middle) :
    (headerState limits httpSubclass).run context = .ok .empty middle := by
  unfold headerState
  rw [run_bind_ok _ read]
  rfl

theorem headerState_stops {stop : Stop}
    (read : (readHeaders limits).run context = .error stop middle) :
    (headerState limits httpSubclass).run context = .error stop middle := by
  unfold headerState
  rw [run_bind_error _ read]

theorem nextState_elsewhere (message : HttpMessage) : nextState message ≠ READ_HEADER := by
  unfold nextState
  split
  · decide
  · split
    · decide
    · split
      · decide
      · decide

/-- What is done with a decoded message does not say that it is too long. -/
theorem conclude_other (subclass : ReplayingSubclass HttpMessageDecoder) (unfold_ : Bool)
    (before : ReplayContext HttpMessageDecoder) (frame : ChannelMessage)
    (after : ReplayContext HttpMessageDecoder) :
    StopsWith Stop.Other (ReplayingDecoder.conclude subclass unfold_ before frame after) := by
  apply StopsWith.ite
  · intro _
    apply StopsWith.ite
    · intro _
      refine StopsWith.ite (fun _ => ?_) fun _ => StopsWith.pure _
      refine StopsWith.bind (StopsWith.focus (StopsWith.focus ?_)) fun _ => StopsWith.pure _
      refine StopsWith.bind StopsWith.get fun buffer => ?_
      refine StopsWith.bind (StopsWith.call ?_) fun _ => StopsWith.modify _
      intro stop refused
      unfold ChannelBuffer.setReaderIndex at refused
      split at refused
      · cases refused
        rfl
      · cases refused
    · intro _
      exact StopsWith.ite (fun _ => StopsWith.throw rfl) fun _ => StopsWith.pure _
  · intro _
    refine StopsWith.ite (fun _ => StopsWith.throw rfl) fun _ => ?_
    exact StopsWith.bind (StopsWith.modify _) fun _ => StopsWith.pure _

end Tails

/-- While headers are read, an exception says that something is too long. -/
inductive Raises (limits : HttpLimits) (httpSubclass : HttpSubclass) (config : ChannelConfig) :
    Moment HttpMessageDecoder → List (ChannelBuffer × Bool) → Prop
  | now {decoder : ReplayingDecoder HttpMessageDecoder}
      {context after : ReplayContext HttpMessageDecoder} {sent : List Upward} {stop : Stop}
      {inputs : List (ChannelBuffer × Bool)} (heading : context.state = READ_HEADER)
      (round : (ReplayingDecoder.decodeRound (replaying limits httpSubclass)
        decoder.unfold_).run context = .error stop after) (long : stop.isTooLong = true) :
      Raises limits httpSubclass config (.looping decoder context sent) inputs
  | decodes {decoder : ReplayingDecoder HttpMessageDecoder}
      {context after : ReplayContext HttpMessageDecoder} {sent : List Upward} {goesOn : Bool}
      {inputs : List (ChannelBuffer × Bool)} (heading : context.state = READ_HEADER)
      (round : (ReplayingDecoder.decodeRound (replaying limits httpSubclass)
        decoder.unfold_).run context = .ok goesOn after)
      (later : Raises limits httpSubclass config (.behindRound decoder sent goesOn after) inputs) :
      Raises limits httpSubclass config (.looping decoder context sent) inputs
  | receives {sender : Sender (ReplayingDecoder HttpMessageDecoder)}
      {after : ReplayReception HttpMessageDecoder} {input : ChannelBuffer} {same : Bool}
      {inputs : List (ChannelBuffer × Bool)} (heading : sender.decoder.state = READ_HEADER)
      (readable : input.readable = true)
      (got : (ReplayingDecoder.getCumulation config input same).run ⟨sender.decoder, []⟩ =
        .ok () after)
      (later : Raises limits httpSubclass config
        (.looping after.decoder (loopContext after) sender.sent) inputs) :
      Raises limits httpSubclass config (.resting sender) ((input, same) :: inputs)
  | passes {sender : Sender (ReplayingDecoder HttpMessageDecoder)} {input : ChannelBuffer}
      {same : Bool} {inputs : List (ChannelBuffer × Bool)}
      (heading : sender.decoder.state = READ_HEADER) (blank : input.readable = false)
      (later : Raises limits httpSubclass config (.resting sender) inputs) :
      Raises limits httpSubclass config (.resting sender) ((input, same) :: inputs)

section Raising

variable {limits : HttpLimits} {httpSubclass : HttpSubclass} {config : ChannelConfig}
  {decoder : ReplayingDecoder HttpMessageDecoder}
  {context after : ReplayContext HttpMessageDecoder} {sent : List Upward}
  {inputs back : List (ChannelBuffer × Bool)} {moment last : Moment HttpMessageDecoder}
  {sender : Sender (ReplayingDecoder HttpMessageDecoder)} {input : ChannelBuffer} {same : Bool}

theorem Raises.heading (raises : Raises limits httpSubclass config moment inputs) :
    moment.state = READ_HEADER := by
  cases raises with
  | now heading _ _ => exact heading
  | decodes heading _ _ => exact heading
  | receives heading _ _ _ => exact heading
  | passes heading _ _ => exact heading

/-- A round in which headers are read to their end leaves them, or stops for another reason. -/
theorem round_leaves {unfold_ : Bool} (subclass : ReplayingSubclass HttpMessageDecoder)
    (readable : context.replayable.buffer.readable = true)
    (stops : ∀ stop middle, (subclass.decode context.state).run (ReplayingDecoder.checked context) =
      .error stop middle → stop.Other)
    (leaves : ∀ frame middle, (subclass.decode context.state).run
      (ReplayingDecoder.checked context) = .ok frame middle → Elsewhere middle) :
    (∀ stop last, (ReplayingDecoder.decodeRound subclass unfold_).run context = .error stop last →
        stop.Other) ∧
      ∀ goesOn last, (ReplayingDecoder.decodeRound subclass unfold_).run context =
        .ok goesOn last → Elsewhere last := by
  cases called : (subclass.decode context.state).run (ReplayingDecoder.checked context) with
  | error stop middle =>
      have other := stops stop middle called
      rw [ReplayingDecoder.decodeRound_stops readable called]
      refine ⟨fun stop' last same => ?_, fun goesOn last same => ?_⟩
      · cases same
        exact other
      · cases same
  | ok frame middle =>
      have elsewhere := leaves frame middle called
      rw [ReplayingDecoder.decodeRound_readable readable called]
      refine ⟨fun stop last ran => conclude_other _ _ _ _ _ _ _ _ ran, fun goesOn last ran => ?_⟩
      have kept := (ReplayingDecoder.concluded_keeps middle.fields middle.state unfold_ frame
        middle).after_ok ⟨rfl, rfl⟩ ran
      unfold Elsewhere
      rw [kept.2]
      exact elsewhere

theorem raises_stopped {stop : Stop} (heading : context.state = READ_HEADER)
    (round : (ReplayingDecoder.decodeRound (replaying limits httpSubclass)
      decoder.unfold_).run context = .error stop after) :
    Raises limits httpSubclass config (.looping decoder context sent) inputs ↔
      stop.isTooLong = true := by
  constructor
  · intro raises
    cases raises with
    | now _ round' long =>
        rw [round] at round'
        cases round'
        exact long
    | decodes _ round' _ =>
        rw [round] at round'
        cases round'
  · exact .now heading round

theorem raises_round {goesOn : Bool} (heading : context.state = READ_HEADER)
    (round : (ReplayingDecoder.decodeRound (replaying limits httpSubclass)
      decoder.unfold_).run context = .ok goesOn after) :
    Raises limits httpSubclass config (.looping decoder context sent) inputs ↔
      Raises limits httpSubclass config (.behindRound decoder sent goesOn after) inputs := by
  constructor
  · intro raises
    cases raises with
    | now _ round' _ =>
        rw [round] at round'
        cases round'
    | decodes _ round' later =>
        rw [round] at round'
        cases round'
        exact later
  · exact .decodes heading round

variable {reception : ReplayReception HttpMessageDecoder}

theorem raises_receives (heading : sender.decoder.state = READ_HEADER)
    (readable : input.readable = true)
    (got : (ReplayingDecoder.getCumulation config input same).run ⟨sender.decoder, []⟩ =
      .ok () reception) :
    Raises limits httpSubclass config (.resting sender) ((input, same) :: inputs) ↔
      Raises limits httpSubclass config
        (.looping reception.decoder (loopContext reception) sender.sent) inputs := by
  constructor
  · intro raises
    cases raises with
    | receives _ _ got' later =>
        rw [got] at got'
        cases got'
        exact later
    | passes _ blank _ =>
        rw [readable] at blank
        cases blank
  · exact .receives heading readable got

theorem not_raises_refused {stop : Stop}
    (readable : input.readable = true)
    (refused : (ReplayingDecoder.getCumulation config input same).run ⟨sender.decoder, []⟩ =
      .error stop reception) :
    ¬Raises limits httpSubclass config (.resting sender) ((input, same) :: inputs) := by
  intro raises
  cases raises with
  | receives _ _ got _ =>
      rw [refused] at got
      cases got
  | passes _ blank _ =>
      rw [readable] at blank
      cases blank

theorem raises_passes (heading : sender.decoder.state = READ_HEADER)
    (blank : input.readable = false) :
    Raises limits httpSubclass config (.resting sender) ((input, same) :: inputs) ↔
      Raises limits httpSubclass config (.resting sender) inputs := by
  constructor
  · intro raises
    cases raises with
    | receives _ readable _ _ =>
        rw [blank] at readable
        cases readable
    | passes _ _ later => exact later
  · exact .passes heading blank

/-- On the way to the exception nothing but headers is read. -/
theorem Raises.onward (raises : Raises limits httpSubclass config moment (inputs ++ back))
    (reaches : Reaches (replaying limits httpSubclass) config moment inputs last) :
    Raises limits httpSubclass config last back := by
  induction reaches with
  | here => exact raises
  | decodes round _ induction => exact induction ((raises_round raises.heading round).mp raises)
  | receives readable got _ induction =>
      exact induction ((raises_receives raises.heading readable got).mp raises)
  | passes blank _ induction => exact induction ((raises_passes raises.heading blank).mp raises)

/-- The exception is raised exactly for a section larger than the limit, and nothing is decoded from
such a section. -/
def SizeLimited (limits : HttpLimits) (httpSubclass : HttpSubclass) (config : ChannelConfig)
    (moment : Moment HttpMessageDecoder) (inputs : List (ChannelBuffer × Bool)) (size : Nat) :
    Prop :=
  (Raises limits httpSubclass config moment inputs ↔ limits.maxHeaderSize < size) ∧
    (limits.maxHeaderSize < size → ∀ front back last, inputs = front ++ back →
      Reaches (replaying limits httpSubclass) config moment front last → last.state = READ_HEADER)

theorem sizeLimited_iff {size : Nat} :
    SizeLimited limits httpSubclass config moment inputs size ↔
      (Raises limits httpSubclass config moment inputs ↔ limits.maxHeaderSize < size) := by
  refine ⟨And.left, fun raises => ⟨raises, fun larger front back last parts reaches => ?_⟩⟩
  have raised := raises.mpr larger
  rw [parts] at raised
  exact (raised.onward reaches).heading

end Raising

end HttpMessageDecoder

end Cetty
