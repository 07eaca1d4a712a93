import Mathlib.Data.List.DropRight
import Cetty.TrailerSections

/-!
# Trimming

The loop that should skip the blanks in front of a string takes each of its steps back, so that a string
with a blank in front is never trimmed. The empty string is looked at in front of its first character.
-/

namespace Cetty

open CLocale MachineInt ByteWindow

/-- A run that comes to an end. -/
def Terminates {State Value : Type} (result : EStateM.Result Stop State Value) : Prop :=
  ∀ state, result ≠ .error .diverges state ∧ result ≠ .error .outOfFuel state

section Ending

variable {State Value Next : Type} {state : State}

theorem terminates_ok (value : Value) (state : State) :
    Terminates (EStateM.Result.ok value state : EStateM.Result Stop State Value) :=
  fun _ => ⟨nofun, nofun⟩

theorem terminates_error {stop : Stop} (ends : stop ≠ .diverges ∧ stop ≠ .outOfFuel)
    (state : State) : Terminates (.error stop state : EStateM.Result Stop State Value) := by
  intro other
  refine ⟨fun same => ?_, fun same => ?_⟩
  · cases same
    exact ends.1 rfl
  · cases same
    exact ends.2 rfl

theorem terminates_thrown (exception : Exception) (state : State) :
    Terminates (.error (.thrown exception) state : EStateM.Result Stop State Value) :=
  @terminates_error State Value (.thrown exception) ⟨nofun, nofun⟩ state

theorem Terminates.bind {program : Exec State Value} {next : Value → Exec State Next}
    (first : Terminates (program.run state))
    (second : ∀ value after, program.run state = .ok value after →
      Terminates ((next value).run after)) : Terminates ((program >>= next).run state) := by
  cases ran : program.run state with
  | ok value after =>
      rw [run_bind_ok _ ran]
      exact second value after ran
  | error stop after =>
      rw [run_bind_error _ ran]
      rw [ran] at first
      refine terminates_error ⟨?_, ?_⟩ after
      · rintro rfl
        exact (first after).1 rfl
      · rintro rfl
        exact (first after).2 rfl

end Ending

namespace FastString

/-- A string without the blanks in front of it and behind it. -/
def trimmedText (bytes : Text) : Text := (bytes.dropWhile blank).rdropWhile blank

/-- What a string shows. -/
def Shows (cells : CharArray) (str : FastString) (bytes : Text) : Prop :=
  ∃ start : Nat, str.data = some (start : Int) ∧ str.size = bytes.length ∧
    window cells start bytes.length = bytes

/-- A string that has nothing around it but the cell of its terminator is trimmed, whatever stands
there. -/
def TrimsExactly (bytes : Text) : Prop :=
  ∃ str, ∀ t, ∃ cells, (lineAt 0 bytes.length).trim.run (bytes ++ [t]) = .ok str cells ∧
    Shows cells str (trimmedText bytes)

section Trimming

variable {cells : CharArray} {data size : Nat} {c : Byte} {back : Text}

theorem char_run {front rest : Text} (holds : Holds cells data (front ++ c :: rest)) :
    ((lineAt data size).char (front.length : Nat)).run cells = .ok c cells := by
  have loaded := load_run holds
  rw [Int.natCast_add] at loaded
  exact loaded

/-- The blanks behind a character that is not blank are counted off. -/
theorem trimSize_run (solid : blank c = false) (holds : Holds cells data (c :: back))
    {rounds : Nat} (enough : back.length < rounds) :
    ((lineAt data size).trimSize rounds ((c :: back).length : Nat)).run cells =
      .ok ((((c :: back).rdropWhile blank).length : Nat) : Int) cells := by
  induction back using List.reverseRecOn generalizing rounds with
  | nil =>
      obtain ⟨rounds, rfl⟩ : ∃ more, rounds = more + 1 := ⟨rounds - 1, by simp at enough; omega⟩
      have read := @char_run cells data size c [] [] holds
      have kept : ([] ++ [c]).rdropWhile blank = [] ++ [c] :=
        List.rdropWhile_concat_neg blank [] c (by rw [solid]; exact Bool.false_ne_true)
      rw [List.nil_append] at kept
      have stops : ¬(blank c = true ∧ (0 : Int) < (([c] : Text).length : Int)) := by
        rw [solid]
        exact fun wrong => absurd wrong.1 Bool.false_ne_true
      have last : ((([c] : Text).length : Nat) : Int) - 1 = (([] : Text).length : Nat) := rfl
      rw [trimSize, last, run_bind_ok _ read, if_neg stops, kept]
      rfl
  | append_singleton back d induction =>
      obtain ⟨rounds, rfl⟩ : ∃ more, rounds = more + 1 := ⟨rounds - 1, by simp at enough; omega⟩
      rw [List.length_append, List.length_singleton] at enough
      have parts : c :: (back ++ [d]) = (c :: back) ++ d :: [] := rfl
      rw [parts] at holds
      have read := @char_run cells data size d (c :: back) [] holds
      have last : (((c :: (back ++ [d])).length : Nat) : Int) - 1 = (((c :: back).length : Nat) : Int) := by
        rw [parts, List.length_append, List.length_singleton]
        omega
      rw [trimSize, last, run_bind_ok _ read]
      by_cases blanked : blank d = true
      · have dropped : ((c :: back) ++ [d]).rdropWhile blank = (c :: back).rdropWhile blank :=
          List.rdropWhile_concat_pos blank (c :: back) d blanked
        rw [if_pos ⟨blanked, by rw [List.length_cons]; omega⟩, parts, dropped]
        exact induction holds.front (by omega)
      · have kept : ((c :: back) ++ [d]).rdropWhile blank = (c :: back) ++ [d] :=
          List.rdropWhile_concat_neg blank (c :: back) d blanked
        rw [if_neg (fun wrong => blanked wrong.1), parts, kept]
        rfl

/-- Without a blank in front the string is trimmed. -/
theorem trim_run (solid : blank c = false) {t : Byte} (holds : Holds cells data (c :: back ++ [t])) :
    (lineAt data (c :: back).length).trim.run cells =
      .ok (lineAt data ((c :: back).rdropWhile blank).length)
        (cells.set (data + ((c :: back).rdropWhile blank).length) 0) := by
  have room := holds.bound (by simp)
  have fewer : ((c :: back).rdropWhile blank).length ≤ (c :: back).length :=
    (List.rdropWhile_prefix blank (c :: back)).length_le
  have first := @char_run cells data (c :: back).length c [] (back ++ [t]) holds
  have sized := @trimSize_run cells data (c :: back).length c back solid holds.front
    ((c :: back).length + 1) (by rw [List.length_cons]; omega)
  have stored : ((lineAt data (c :: back).length).setChar
      (((c :: back).rdropWhile blank).length : Nat) 0).run cells =
      .ok () (cells.set (data + ((c :: back).rdropWhile blank).length) 0) := by
    apply setChar_run
    rw [List.length_append, List.length_singleton] at room
    omega
  have stays : ¬(blank c = true ∧ 0 < (lineAt data (c :: back).length).size) := by
    rw [solid]
    exact fun wrong => absurd wrong.1 Bool.false_ne_true
  unfold trim
  refine (run_bind_ok _ first).trans ?_
  rw [if_neg stays]
  refine (run_bind_ok _ sized).trans ?_
  exact run_bind_ok _ stored

end Trimming

/-- A string that is trimmed. -/
def Trimmable (bytes : Text) : Prop := ∃ c back, bytes = c :: back ∧ blank c = false

theorem holds_whole (bytes : Text) : Holds bytes 0 bytes := by
  exact List.prefix_rfl

theorem trimmedText_solid {c : Byte} (back : Text) (solid : blank c = false) :
    trimmedText (c :: back) = (c :: back).rdropWhile blank := by
  unfold trimmedText
  rw [List.dropWhile_cons_of_neg (by rw [solid]; exact Bool.false_ne_true)]

theorem trimsExactly_iff (bytes : Text) : TrimsExactly bytes ↔ Trimmable bytes := by
  constructor
  · rintro ⟨str, trimmed⟩
    obtain ⟨cells, ran, -⟩ := trimmed 0
    cases bytes with
    | nil => cases ran
    | cons c back =>
        refine ⟨c, back, rfl, ?_⟩
        by_contra blanked
        rw [Bool.not_eq_false] at blanked
        have stuck := @HttpMessageDecoder.trim_diverges (c :: back ++ [0]) 0 (c :: back).length c
          (back ++ [0]) (holds_whole _) blanked (Nat.succ_pos _)
        rw [stuck] at ran
        cases ran
  · rintro ⟨c, back, rfl, solid⟩
    refine ⟨lineAt 0 ((c :: back).rdropWhile blank).length, fun t => ⟨_,
      trim_run solid (holds_whole (c :: back ++ [t])), 0, rfl, ?_⟩⟩
    rw [trimmedText_solid back solid]
    refine ⟨rfl, ?_⟩
    have whole : c :: back ++ [t] = (c :: back).rdropWhile blank ++
        ((c :: back).rtakeWhile blank ++ [t]) := by
      rw [← List.append_assoc, List.rdropWhile_append_rtakeWhile]
    have front : Holds (c :: back ++ [t]) 0 ((c :: back).rdropWhile blank) := by
      unfold Holds
      rw [List.drop_zero, whole]
      exact List.prefix_append _ _
    have put : Holds ((c :: back ++ [t]).set (0 + ((c :: back).rdropWhile blank).length) 0) 0
        ((c :: back).rdropWhile blank) := front.set_behind (Nat.le_refl _) 0
    exact (List.prefix_iff_eq_take.mp put).symm

section Bounds

variable {Value : Type} (str : FastString) (cells : CharArray)

/-- Nothing is left of a string that begins with a blank but the loop that should skip it. -/
def BeginsBlank : Prop :=
  0 < str.size ∧ ∃ c, (str.char 0).run cells = .ok c cells ∧ blank c = true

theorem char_cases (index : Int) :
    (∃ c, (str.char index).run cells = .ok c cells) ∨
      (str.char index).run cells = .error .outOfBounds cells := by
  unfold char
  cases str.data with
  | none => exact Or.inr rfl
  | some data =>
      unfold Memory.load
      dsimp only
      rw [run_bind_get]
      split
      · exact Or.inl ⟨_, rfl⟩
      · exact Or.inr rfl

theorem bounded (program : Memory Value) (cells : CharArray)
    (cases_ : (∃ value, program.run cells = .ok value cells) ∨
      program.run cells = .error .outOfBounds cells) : Terminates (program.run cells) := by
  rcases cases_ with ⟨value, ran⟩ | stops
  · rw [ran]
    exact terminates_ok _ _
  · rw [stops]
    exact terminates_error ⟨by decide, by decide⟩ _

theorem setChar_terminates (index : Int) (c : Byte) :
    Terminates ((str.setChar index c).run cells) := by
  unfold setChar
  cases str.data with
  | none => exact terminates_error ⟨by decide, by decide⟩ _
  | some data =>
      unfold Memory.store
      dsimp only
      rw [run_bind_get]
      split
      · exact terminates_ok _ _
      · exact terminates_error ⟨by decide, by decide⟩ _

/-- Each round of the second loop of `trim` takes one off the size. -/
theorem trimSize_terminates {rounds : Nat} {newSize : Int} (enough : newSize.toNat < rounds) :
    Terminates ((str.trimSize rounds newSize).run cells) := by
  induction rounds generalizing newSize with
  | zero => omega
  | succ rounds induction =>
      rw [trimSize]
      refine Terminates.bind (bounded _ _ (str.char_cases cells _)) fun c after ran => ?_
      have same : after = cells := by
        rcases str.char_cases cells (newSize - 1) with ⟨c', ran'⟩ | stops
        · rw [ran'] at ran
          cases ran
          rfl
        · rw [stops] at ran
          cases ran
      rw [same]
      split
      · next blanked => exact induction (by omega)
      · exact terminates_ok _ _

theorem trim_terminates_iff : Terminates (str.trim.run cells) ↔ ¬str.BeginsBlank cells := by
  rcases str.char_cases cells 0 with ⟨c, ran⟩ | stops
  · unfold trim
    rw [run_bind_ok _ ran]
    by_cases blanked : blank c = true ∧ 0 < str.size
    · rw [if_pos blanked]
      exact ⟨fun ends => absurd rfl (ends cells).1,
        fun solid => absurd ⟨blanked.2, c, ran, blanked.1⟩ solid⟩
    · rw [if_neg blanked]
      refine ⟨fun _ begins => ?_, fun _ => ?_⟩
      · obtain ⟨positive, c', ran', blanked'⟩ := begins
        rw [ran] at ran'
        cases ran'
        exact blanked ⟨blanked', positive⟩
      · refine Terminates.bind (str.trimSize_terminates cells (Nat.lt_succ_self _))
          fun newSize after _ => ?_
        exact Terminates.bind (str.setChar_terminates after newSize 0)
          fun _ after' _ => terminates_ok _ _
  · unfold trim
    rw [run_bind_error _ stops]
    refine ⟨fun _ begins => ?_, fun _ => terminates_error ⟨by decide, by decide⟩ _⟩
    obtain ⟨-, c, ran, -⟩ := begins
    rw [stops] at ran
    cases ran

theorem scan_terminates (found : Byte → Bool) (rounds : Nat) (result : Int) :
    Terminates ((scan found str rounds result).run cells) := by
  induction rounds generalizing cells result with
  | zero => exact terminates_ok _ _
  | succ rounds induction =>
      rw [scan]
      refine Terminates.bind ?_ fun c after _ => ?_
      · unfold at_
        split
        · exact bounded _ _ (str.char_cases cells _)
        · exact terminates_error ⟨by decide, by decide⟩ _
      · split
        · exact terminates_ok _ _
        · exact induction after _

theorem parseHex_terminates (s : Text) :
    Terminates ((call (parseHex s) : Memory Int).run cells) := by
  unfold parseHex
  cases scanHex s with
  | some value => exact terminates_ok _ _
  | none => exact terminates_thrown _ cells

theorem getChunkSize_terminates_iff :
    Terminates (str.getChunkSize.run cells) ↔ ¬str.BeginsBlank cells := by
  rw [← trim_terminates_iff]
  unfold getChunkSize
  constructor
  · intro ends
    cases ran : str.trim.run cells with
    | ok h after => exact terminates_ok _ _
    | error stop after =>
        rw [run_bind_error _ ran] at ends
        intro other
        refine ⟨fun same => ?_, fun same => ?_⟩
        · cases same
          exact (ends after).1 rfl
        · cases same
          exact (ends after).2 rfl
  · intro ends
    refine Terminates.bind ends fun h after _ => ?_
    refine Terminates.bind (h.scan_terminates after endsSize _ 0) fun i after' _ => ?_
    dsimp only
    generalize (if i < h.length then h.substring 0 i else h) = part
    split
    · exact @terminates_error CharArray Int .assertion ⟨by decide, by decide⟩ after'
    · refine Terminates.bind (bounded _ _ (toString_cases _ _)) fun s after'' _ => ?_
      exact parseHex_terminates after'' s

end Bounds

end FastString

/-- A line that begins with a blank is reached behind a line that has a name: the lines in front of it
end within the limit, and their headers are added. -/
inductive Folds (limit : Int) : SplitLine → Text → Int → List Byte → Prop
  | here {split : SplitLine} {line : Text} {headerSize : Int} {bytes : List Byte}
      (continued : continues split line = true) : Folds limit split line headerSize bytes
  | later {split : SplitLine} {line : Text} {headerSize : Int} {bytes : List Byte}
      {characters counted : Nat} (apart : continues split line = false) (some_ : line ≠ [])
      (addable : Addable split)
      (scanned : headerScan limit headerSize bytes = .ended characters counted)
      (behind : Folds limit (splitText line) (bytes.take (characters - 1)) (headerSize + counted)
        (bytes.drop counted)) :
      Folds limit split line headerSize bytes

/-- A header section with such a line. -/
def HeadersFold (limit headerSize : Int) (bytes : List Byte) : Prop :=
  ∃ characters counted, headerScan limit headerSize bytes = .ended characters counted ∧
    Folds limit .fresh (bytes.take (characters - 1)) 0 (bytes.drop counted)

section Folding

variable {limits : HttpLimits} {message : HttpMessage} {headerSize : Int} {bytes : List Byte}

theorem LineRead.onward_stopped {next : Nat → Nat → SectionRead} {read : LineRead} {stop : Stop}
    (apart : stop ≠ HttpMessageDecoder.headerTooLarge limits) :
    read.onward limits next = .stopped stop ↔
      ∃ characters counted, read = .ended characters counted ∧
        next characters counted = .stopped stop := by
  cases read with
  | short => exact ⟨nofun, nofun⟩
  | tooLarge =>
      refine ⟨fun same => ?_, nofun⟩
      cases same
      exact absurd rfl apart
  | ended characters counted =>
      refine SectionRead.behind_eq_stopped.trans ⟨fun same => ⟨_, _, rfl, same⟩, ?_⟩
      rintro ⟨c, n, same, stops⟩
      cases same
      exact stops

theorem apart_tooLarge (limits : HttpLimits) :
    Stop.diverges ≠ HttpMessageDecoder.headerTooLarge limits ∧
      Stop.outOfFuel ≠ HttpMessageDecoder.headerTooLarge limits := ⟨nofun, nofun⟩

theorem headerSection_stops {rounds : Nat} {split : SplitLine} {line : Text}
    (enough : bytes.length < rounds) :
    (headerSection limits rounds split line message headerSize bytes = .stopped .diverges ↔
        Folds limits.maxHeaderSize split line headerSize bytes) ∧
      headerSection limits rounds split line message headerSize bytes ≠ .stopped .outOfFuel := by
  induction rounds generalizing split line message headerSize bytes with
  | zero => omega
  | succ rounds induction =>
      rw [headerSection]
      by_cases empty : line = []
      · rw [if_pos empty]
        have none : ¬Folds limits.maxHeaderSize split line headerSize bytes := by
          intro folds
          cases folds with
          | here continued =>
              rw [empty] at continued
              cases continued
          | later apart some_ addable scanned behind => exact some_ empty
        rcases addSplit_verdict split message with ⟨-, added⟩ | ⟨-, stop, refused, apart⟩
        · rw [added]
          refine ⟨⟨fun same => ?_, fun folds => absurd folds none⟩, fun same => ?_⟩
          · cases same
          · cases same
        · rw [refused]
          refine ⟨⟨fun same => ?_, fun folds => absurd folds none⟩, fun same => ?_⟩
          · cases same
            exact absurd rfl apart.1
          · cases same
            exact absurd rfl apart.2.1
      · rw [if_neg empty]
        by_cases continued : continues split line = true
        · rw [if_pos continued]
          refine ⟨⟨fun _ => .here continued, fun _ => rfl⟩, fun same => ?_⟩
          cases same
        · rw [if_neg continued]
          rw [Bool.not_eq_true] at continued
          rcases addSplit_verdict split message with ⟨addable, added⟩ | ⟨not, stop, refused, apart⟩
          · rw [added]
            dsimp only
            have within : ∀ characters counted,
                headerScan limits.maxHeaderSize headerSize bytes = .ended characters counted →
                (bytes.drop counted).length < rounds := by
              intro characters counted scanned
              obtain ⟨positive, less, inside⟩ := headerScan_ended scanned
              rw [List.length_drop]
              omega
            refine ⟨(LineRead.onward_stopped (apart_tooLarge limits).1).trans ⟨?_, ?_⟩, ?_⟩
            · rintro ⟨characters, counted, scanned, stops⟩
              exact .later continued empty addable scanned
                ((induction (within _ _ scanned)).1.mp stops)
            · intro folds
              cases folds with
              | here wrong =>
                  rw [continued] at wrong
                  cases wrong
              | later _ _ _ scanned behind =>
                  exact ⟨_, _, scanned, (induction (within _ _ scanned)).1.mpr behind⟩
            · intro same
              obtain ⟨characters, counted, scanned, stops⟩ :=
                (LineRead.onward_stopped (apart_tooLarge limits).2).mp same
              exact (induction (within _ _ scanned)).2 stops
          · rw [refused]
            refine ⟨⟨fun same => ?_, fun folds => ?_⟩, fun same => ?_⟩
            · cases same
              exact absurd rfl apart.1
            · cases folds with
              | here wrong =>
                  rw [continued] at wrong
                  cases wrong
              | later _ _ addable _ _ => exact absurd addable not
            · cases same
              exact absurd rfl apart.2.1

theorem headersSection_stops (limits : HttpLimits) (message : HttpMessage) (headerSize : Int)
    (bytes : List Byte) :
    (headersSection limits message headerSize bytes = .stopped .diverges ↔
        HeadersFold limits.maxHeaderSize headerSize bytes) ∧
      headersSection limits message headerSize bytes ≠ .stopped .outOfFuel := by
  have within : ∀ counted, (bytes.drop counted).length < bytes.length - counted + 1 := by
    intro counted
    rw [List.length_drop]
    omega
  unfold headersSection HeadersFold
  refine ⟨(LineRead.onward_stopped (apart_tooLarge limits).1).trans ⟨?_, ?_⟩, ?_⟩
  · rintro ⟨characters, counted, scanned, stops⟩
    exact ⟨characters, counted, scanned, (headerSection_stops (within counted)).1.mp stops⟩
  · rintro ⟨characters, counted, scanned, folds⟩
    exact ⟨characters, counted, scanned, (headerSection_stops (within counted)).1.mpr folds⟩
  · intro same
    obtain ⟨characters, counted, scanned, stops⟩ := (LineRead.onward_stopped (apart_tooLarge limits).2).mp same
    exact (headerSection_stops (within counted)).2 stops

end Folding

namespace HttpMessageDecoder

section Ending

variable {limits : HttpLimits} {desk : Desk} {message : HttpMessage}

theorem readHeaders_terminates_iff (fits : desk.Fits) (pointed : desk.fields.message = true)
    (made : desk.fields.object = some message) :
    Terminates ((readHeaders limits).run desk.context) ↔
      ¬HeadersFold limits.maxHeaderSize desk.fields.headerSize desk.unread := by
  have ends := @readHeaders_section limits desk message fits pointed made
  obtain ⟨diverges, fuelled⟩ :=
    headersSection_stops limits message desk.fields.headerSize desk.unread
  generalize headersSection limits message desk.fields.headerSize desk.unread = read at *
  generalize (readHeaders limits).run desk.context = result at *
  rw [← diverges]
  cases ends with
  | short context => exact ⟨fun _ => nofun, fun _ => terminates_ok _ _⟩
  | full context => exact ⟨fun _ => nofun, fun _ => terminates_thrown _ _⟩
  | stopped stop context =>
      refine ⟨fun ends same => ?_, fun apart => terminates_error ⟨?_, ?_⟩ _⟩
      · cases same
        exact (ends context).1 rfl
      · rintro rfl
        exact apart rfl
      · rintro rfl
        exact fuelled rfl
  | done message counted cells headerSize same => exact ⟨fun _ => nofun, fun _ => terminates_ok _ _⟩

theorem readTrailingHeaders_terminates (fits : desk.Fits) :
    Terminates ((readTrailingHeaders limits).run desk.context) := by
  have ends := @readTrailingHeaders_section limits desk fits
  generalize (readTrailingHeaders limits).run desk.context = result at *
  generalize trailersSection limits.maxHeaderSize desk.unread = read at *
  cases ends with
  | short context => exact terminates_ok _ _
  | full context => exact terminates_thrown _ _
  | tooLarge context => exact terminates_thrown _ _
  | ended characters counted cells headerSize => exact terminates_ok _ _

end Ending

end HttpMessageDecoder

namespace FastString

/-- A string is trimmed when it is not empty and does not begin with a blank; a header section is read
to an end unless a line in it continues another; a chunk size is, unless its line begins with a
blank. -/
theorem trimming_iff (bytes : Text) (limits : HttpLimits) (desk : HttpMessageDecoder.Desk)
    (message : HttpMessage) (hex : FastString) (cells : CharArray) (fits : desk.Fits)
    (pointed : desk.fields.message = true) (made : desk.fields.object = some message) :
    (TrimsExactly bytes ↔ Trimmable bytes) ∧
      (Terminates ((HttpMessageDecoder.readHeaders limits).run desk.context) ↔
        ¬HeadersFold limits.maxHeaderSize desk.fields.headerSize desk.unread) ∧
      Terminates ((HttpMessageDecoder.readTrailingHeaders limits).run desk.context) ∧
      (Terminates (hex.getChunkSize.run cells) ↔ ¬hex.BeginsBlank cells) :=
  ⟨trimsExactly_iff bytes, HttpMessageDecoder.readHeaders_terminates_iff fits pointed made,
    HttpMessageDecoder.readTrailingHeaders_terminates fits, getChunkSize_terminates_iff hex cells⟩

/-- A header that is continued on the next line. -/
def foldedSection : List Byte :=
  text "A: b" ++ HttpMessageDecoder.lineEnd ++ text " c" ++ HttpMessageDecoder.lineEnd ++
    HttpMessageDecoder.lineEnd

theorem foldedSection_folds : HeadersFold 8192 0 foldedSection :=
  ⟨5, 6, by decide, .later rfl (by decide) (.inl rfl) (show headerScan 8192 0 _ = .ended 3 4 by decide)
    (.here (by decide))⟩

/-- A string with a blank behind it, and the decoder in front of the continued header. -/
theorem trimming_plain :
    (TrimsExactly (text "a ") ↔ Trimmable (text "a ")) ∧
      (Terminates ((HttpMessageDecoder.readHeaders ⟨4096, 8192, 8192⟩).run
        (HttpMessageDecoder.Desk.headed foldedSection).context) ↔
        ¬HeadersFold 8192 0 (HttpMessageDecoder.Desk.headed foldedSection).unread) ∧
      Terminates ((HttpMessageDecoder.readTrailingHeaders ⟨4096, 8192, 8192⟩).run
        (HttpMessageDecoder.Desk.headed foldedSection).context) ∧
      (Terminates ((lineAt 0 1).getChunkSize.run (text "50")) ↔
        ¬(lineAt 0 1).BeginsBlank (text "50")) :=
  trimming_iff (text "a ") ⟨4096, 8192, 8192⟩ (.headed foldedSection) HttpResponseDecoder.response
    (lineAt 0 1) (text "50") (HttpMessageDecoder.Desk.headed_fits (by decide)) rfl rfl

/-- Neither the empty string nor one with a blank in front is trimmed, and a continued header is never
read to an end. -/
theorem untrimmed :
    ¬TrimsExactly [] ∧ ¬TrimsExactly (text " a") ∧
      ¬Terminates ((HttpMessageDecoder.readHeaders ⟨4096, 8192, 8192⟩).run
        (HttpMessageDecoder.Desk.headed foldedSection).context) := by
  refine ⟨?_, ?_, ?_⟩
  · rw [trimsExactly_iff]
    rintro ⟨c, back, wrong, -⟩
    cases wrong
  · rw [trimsExactly_iff]
    rintro ⟨c, back, same, solid⟩
    rw [← (List.cons.inj same).1] at solid
    exact absurd solid (by decide)
  · rw [HttpMessageDecoder.readHeaders_terminates_iff
      (HttpMessageDecoder.Desk.headed_fits (by decide)) rfl rfl, not_not,
      HttpMessageDecoder.Desk.headed_unread]
    exact foldedSection_folds

end FastString

end Cetty
