import Cetty.DecimalTexts

/-!
# Texts of HTTP versions

The text that is made from a name and two numbers, and the texts that are read. The search for the dot
has its arguments exchanged, so what it finds depends on the length of the name.
-/

namespace Cetty

open CLocale MachineInt

namespace HttpVersion

/-- The constructor from a name and numbers. -/
def makeNumbered (protocolName : Text) (majorVersion minorVersion : Int) (keepAliveDefault : Bool) :
    Except Stop HttpVersion := do
  let protocolName := toUpper (trim protocolName)
  if protocolName = [] then throw (invalidArgumentException "empty protocolName")
  if !verifyProtocl protocolName then throw (invalidArgumentException "invalid protocalName")
  if majorVersion < 0 then throw (invalidArgumentException "negative majorVersion")
  if minorVersion < 0 then throw (invalidArgumentException "negative minorVersion")
  pure ⟨keepAliveDefault, majorVersion, minorVersion, protocolName,
    protocolName ++ CLocale.text "/" ++ DefaultHttpHeader.decimal majorVersion ++
      CLocale.text "." ++ DefaultHttpHeader.decimal minorVersion⟩

def equals (this version : HttpVersion) : Bool :=
  this.minorVersion == version.minorVersion && this.majorVersion == version.majorVersion &&
    this.protocolName == version.protocolName

/-- A name, a slash, digits, a dot and digits. -/
def Standard (version : Text) : Prop :=
  ∃ name major minor, version = name ++ 47 :: (major ++ 46 :: minor) ∧ name ≠ [] ∧ 47 ∉ name ∧
    verifyProtocl name = true ∧ major ≠ [] ∧ verifyVersion major = true ∧ minor ≠ [] ∧
    verifyVersion minor = true

/-- The character that the second search looks for behind a name. -/
def sought (name : Text) : BitVec 8 := BitVec.ofNat 8 name.length

/-- A name and digits, without a dot: the search for the dot finds the slash, or a digit. -/
def Dotless (version : Text) : Prop :=
  ∃ name rest, version = name ++ 47 :: rest ∧ 47 ∉ name ∧ verifyProtocl name = true ∧
    verifyVersion rest = true ∧
    (sought name = 47 ∧ 46 ≤ name.length ∨
      Character.isDigit (sought name) = true ∧ sought name ∉ name.drop 46 ∧ sought name ∈ rest)

section Searching

variable {characters front back : Text} {c : BitVec 8} {position place : Nat}

theorem find_some (found : find characters c position = some place) :
    position ≤ place ∧ ∃ front back, characters = front ++ c :: back ∧ front.length = place ∧
      c ∉ front.drop position := by
  unfold find at found
  obtain ⟨offset, first, same⟩ := Option.map_eq_some_iff.mp found
  obtain ⟨inside, here, before⟩ := List.findIdx?_eq_some_iff_getElem.mp first
  rw [List.length_drop] at inside
  have among : place < characters.length := by omega
  have letter : characters[place] = c := by
    rw [List.getElem_drop] at here
    have equal := eq_of_beq here
    simpa only [same] using equal
  refine ⟨by omega, characters.take place, characters.drop (place + 1), ?_, ?_, ?_⟩
  · rw [← letter, List.getElem_cons_drop among, List.take_append_drop]
  · rw [List.length_take]
    omega
  · intro wrong
    obtain ⟨j, bound, value⟩ := List.mem_iff_getElem.mp wrong
    rw [List.length_drop, List.length_take] at bound
    have earlier := before j (by omega)
    rw [List.getElem_drop] at earlier
    rw [List.getElem_drop, List.getElem_take] at value
    rw [value] at earlier
    simp at earlier

theorem find_of (parts : characters = front ++ c :: back) (later : position ≤ front.length)
    (first : c ∉ front.drop position) : find characters c position = some front.length := by
  unfold find
  refine Option.map_eq_some_iff.mpr ⟨front.length - position, ?_, by omega⟩
  rw [List.findIdx?_eq_some_iff_getElem]
  have split : characters.drop position = front.drop position ++ c :: back := by
    rw [parts, List.drop_append, Nat.sub_eq_zero_of_le later, List.drop_zero]
  have size : (front.drop position).length = front.length - position := List.length_drop
  refine ⟨by rw [split, List.length_append, List.length_cons, size]; omega, ?_, ?_⟩
  · simp only [split]
    rw [List.getElem_append_right (by omega)]
    simp [size]
  · intro j before
    simp only [split]
    rw [List.getElem_append_left (by omega)]
    intro same
    exact first (eq_of_beq same ▸ List.getElem_mem _)

end Searching

theorem verifyVersion_append (first second : Text) :
    verifyVersion (first ++ second) = (verifyVersion first && verifyVersion second) :=
  List.all_append

variable {version : Text} {c : BitVec 8}

theorem verifyVersion_digit (digits : verifyVersion version = true) (among : c ∈ version)
    : Character.isDigit c = true :=
  List.all_eq_true.mp digits c among

theorem slash_no_digit : Character.isDigit (47 : BitVec 8) = false := by decide

theorem dot_no_digit : Character.isDigit (46 : BitVec 8) = false := by decide

/-- A text is split in one way at its first slash. -/
theorem slash_unique {name name' rest rest' : Text} (first : 47 ∉ name) (second : 47 ∉ name')
    (same : name ++ 47 :: rest = name' ++ 47 :: rest') : name = name' ∧ rest = rest' := by
  induction name generalizing name' with
  | nil =>
      cases name' with
      | nil => exact ⟨rfl, (List.cons.inj same).2⟩
      | cons c name' =>
          have letter := (List.cons.inj same).1
          exact absurd (letter ▸ List.mem_cons_self) second
  | cons c name induction =>
      cases name' with
      | nil =>
          have letter := (List.cons.inj same).1
          exact absurd (letter ▸ List.mem_cons_self) first
      | cons c' name' =>
          obtain ⟨letter, others⟩ := List.cons.inj same
          obtain ⟨equal, last⟩ := induction (fun among => first (List.mem_cons_of_mem _ among))
            (fun among => second (List.mem_cons_of_mem _ among)) others
          exact ⟨by rw [letter, equal], last⟩

/-- With a dot among the digits nothing is found. -/
theorem Standard.not_dotless (standard : Standard version) : ¬Dotless version := by
  obtain ⟨name, major, minor, parts, -, first, -⟩ := standard
  rintro ⟨name', rest, parts', second, -, digits, -⟩
  obtain ⟨-, same⟩ := slash_unique first second (parts.symm.trans parts')
  have among : (46 : BitVec 8) ∈ rest := by
    rw [← same]
    exact List.mem_append_right _ List.mem_cons_self
  have digit := verifyVersion_digit digits among
  rw [dot_no_digit] at digit
  cases digit

/-- A part that reaches behind the character, and what follows it, are all digits. -/
theorem digits_around {middle back : Text} {count : Nat}
    (short : middle.length < count)
    (front : verifyVersion ((middle ++ c :: back).take count) = true)
    (behind : verifyVersion back = true) :
    Character.isDigit c = true ∧ verifyVersion (middle ++ c :: back) = true := by
  obtain ⟨more, enough⟩ : ∃ more, count - middle.length = more + 1 :=
    ⟨count - middle.length - 1, by omega⟩
  rw [List.take_append, List.take_of_length_le (Nat.le_of_lt short), enough, List.take_succ_cons,
    verifyVersion_append, Bool.and_eq_true] at front
  have digit := verifyVersion_digit front.2 List.mem_cons_self
  refine ⟨digit, ?_⟩
  rw [verifyVersion_append, front.1, Bool.true_and]
  unfold verifyVersion at behind ⊢
  rw [List.all_cons, digit, behind]
  rfl

section Matching

variable {version name rest : Text}

/-- What is left of `match` behind the slash. -/
theorem match_slash (parts : version = name ++ 47 :: rest) (unslashed : 47 ∉ name)
    (proper : verifyProtocl name = true) :
    match_ version = (do
      let dotPos ← find version (sought name) 46
      if !verifyVersion (rest.take dotPos) || !verifyVersion (version.drop (dotPos + 1)) then none
      pure (name, rest.take dotPos, version.drop (dotPos + 1))) := by
  have slash : find version 47 0 = some name.length :=
    find_of parts (Nat.zero_le _) (by rw [List.drop_zero]; exact unslashed)
  have protocol : version.take name.length = name := by
    rw [parts, List.take_left]
  have behind : version.drop (name.length + 1) = rest := by
    rw [parts, List.drop_append, List.drop_of_length_le (Nat.le_succ _), Nat.add_sub_cancel_left]
    rfl
  unfold match_
  rw [slash]
  dsimp only [Option.bind_eq_bind, Option.bind_some]
  rw [protocol, proper, behind]
  rfl

/-- What lies behind the character found is all digits, and so is what lies in front of it. -/
theorem dotless_of_match {found : Text × Text × Text} (matched : match_ version = some found) :
    Dotless version := by
  have slashed : ∃ slashPos, find version 47 0 = some slashPos := by
    cases search : find version 47 0 with
    | none =>
        unfold match_ at matched
        rw [search] at matched
        cases matched
    | some slashPos => exact ⟨slashPos, rfl⟩
  obtain ⟨slashPos, slash⟩ := slashed
  obtain ⟨-, name, rest, parts, size, unslashed⟩ := find_some slash
  rw [List.drop_zero] at unslashed
  have proper : verifyProtocl name = true := by
    by_contra improper
    unfold match_ at matched
    rw [slash] at matched
    dsimp only [Option.bind_eq_bind, Option.bind_some] at matched
    rw [← size, parts, List.take_left, Bool.eq_false_iff.mpr improper] at matched
    cases matched
  rw [match_slash parts unslashed proper] at matched
  cases search : find version (sought name) 46 with
  | none =>
      rw [search] at matched
      cases matched
  | some dotPos =>
      obtain ⟨later, front, back, parts', place, first⟩ := find_some search
      have behind : version.drop (dotPos + 1) = back := by
        rw [parts', ← place, List.drop_append, List.drop_of_length_le (Nat.le_succ _),
          Nat.add_sub_cancel_left]
        rfl
      rw [search] at matched
      dsimp only [Option.bind_eq_bind, Option.bind_some] at matched
      rw [behind] at matched
      have digits : verifyVersion (rest.take dotPos) = true ∧ verifyVersion back = true := by
        cases major : verifyVersion (rest.take dotPos) with
        | false =>
            rw [major] at matched
            cases matched
        | true =>
            cases minor : verifyVersion back with
            | false =>
                rw [major, minor] at matched
                cases matched
            | true => exact ⟨rfl, rfl⟩
      refine ⟨name, rest, parts, unslashed, proper, ?_⟩
      rcases List.append_eq_append_iff.mp (parts.symm.trans parts') with
        ⟨middle, longer, split⟩ | ⟨middle, longer, split⟩
      · cases middle with
        | nil =>
            -- the search stops at the slash itself
            obtain ⟨letter, same⟩ := List.cons.inj split
            rw [List.append_nil] at longer
            rw [same]
            exact ⟨digits.2, .inl ⟨letter.symm, by rw [← longer, place]; exact later⟩⟩
        | cons slash middle =>
            have same : rest = middle ++ sought name :: back := (List.cons.inj split).2
            have short : middle.length < dotPos := by
              rw [← place, longer, List.length_append, List.length_cons]
              omega
            obtain ⟨digit, all⟩ := digits_around short (same ▸ digits.1) digits.2
            rw [same]
            refine ⟨all, .inr ⟨digit, ?_, List.mem_append_right _ List.mem_cons_self⟩⟩
            intro wrong
            apply first
            rw [longer, List.drop_append]
            exact List.mem_append_left _ wrong
      · cases middle with
        | nil =>
            obtain ⟨letter, same⟩ := List.cons.inj split
            rw [List.append_nil] at longer
            rw [← same]
            exact ⟨digits.2, .inl ⟨letter, by rw [longer, place]; exact later⟩⟩
        | cons letter middle =>
            -- the slash would be among the digits behind the character found
            have wrong : (47 : BitVec 8) ∈ back := by
              rw [(List.cons.inj split).2]
              exact List.mem_append_right _ List.mem_cons_self
            have digit := verifyVersion_digit digits.2 wrong
            rw [slash_no_digit] at digit
            cases digit

theorem match_of_dotless (dotless : Dotless version) : ∃ found, match_ version = some found := by
  obtain ⟨name, rest, parts, unslashed, proper, digits, odd⟩ := dotless
  rw [match_slash parts unslashed proper]
  have taken : ∀ count, verifyVersion (rest.take count) = true := by
    intro count
    refine List.all_eq_true.mpr fun c among => ?_
    exact verifyVersion_digit digits (List.mem_of_mem_take among)
  rcases odd with ⟨slash, long⟩ | ⟨digit, absent, present⟩
  · have search : find version (sought name) 46 = some name.length := by
      have there : version = name ++ sought name :: rest := by
        rw [slash]
        exact parts
      refine find_of there long ?_
      rw [slash]
      exact fun wrong => unslashed (List.mem_of_mem_drop wrong)
    have behind : version.drop (name.length + 1) = rest := by
      rw [parts, List.drop_append, List.drop_of_length_le (Nat.le_succ _), Nat.add_sub_cancel_left]
      rfl
    rw [search]
    dsimp only [Option.bind_eq_bind, Option.bind_some]
    rw [behind, taken, digits]
    exact ⟨_, rfl⟩
  · obtain ⟨middle, back, split, none⟩ := List.eq_append_cons_of_mem present
    have whole : version = (name ++ 47 :: middle) ++ sought name :: back := by
      rw [parts, split, List.append_assoc]
      rfl
    have long : 46 ≤ name.length := by
      by_contra short
      have code : (sought name).toNat = name.length := by
        unfold sought
        rw [BitVec.toNat_ofNat]
        omega
      have least : 48 ≤ (sought name).toNat := by
        unfold Character.isDigit isdigit at digit
        rw [Bool.and_eq_true] at digit
        exact of_decide_eq_true digit.1
      omega
    have search : find version (sought name) 46 = some (name ++ 47 :: middle).length := by
      refine find_of whole (by rw [List.length_append]; omega) ?_
      rw [List.drop_append, Nat.sub_eq_zero_of_le long, List.drop_zero, List.mem_append,
        List.mem_cons]
      rintro (wrong | wrong | wrong)
      · exact absent wrong
      · rw [wrong, slash_no_digit] at digit
        cases digit
      · exact none wrong
    have behind : version.drop ((name ++ 47 :: middle).length + 1) = back := by
      rw [whole, List.drop_append, List.drop_of_length_le (Nat.le_succ _), Nat.add_sub_cancel_left]
      rfl
    have minor : verifyVersion back = true := by
      rw [split, verifyVersion_append, Bool.and_eq_true] at digits
      exact List.all_eq_true.mpr fun c among =>
        verifyVersion_digit digits.2 (List.mem_cons_of_mem _ among)
    rw [search]
    dsimp only [Option.bind_eq_bind, Option.bind_some]
    rw [behind, taken, minor]
    exact ⟨_, rfl⟩

end Matching

theorem make_of_dotless {text : Text} (keepAliveDefault : Bool)
    (dotless : Dotless (toUpper (trim text))) :
    ∃ version, make text keepAliveDefault = .ok version := by
  obtain ⟨found, matched⟩ := match_of_dotless dotless
  have present : toUpper (trim text) ≠ [] := by
    obtain ⟨name, rest, parts, -⟩ := dotless
    rw [parts]
    exact List.append_ne_nil_of_right_ne_nil _ (List.cons_ne_nil _ _)
  unfold make
  dsimp only
  rw [if_neg present, matched]
  rcases found with ⟨protocol, major, minor⟩
  exact ⟨_, rfl⟩

theorem make_refuses {text : Text} (keepAliveDefault : Bool)
    (other : ¬Dotless (toUpper (trim text))) :
    ∃ message, make text keepAliveDefault = .error (invalidArgumentException message) := by
  unfold make
  dsimp only
  by_cases empty : toUpper (trim text) = []
  · rw [if_pos empty]
    exact ⟨_, rfl⟩
  · rw [if_neg empty]
    cases matched : match_ (toUpper (trim text)) with
    | none => exact ⟨_, rfl⟩
    | some found => exact absurd (dotless_of_match matched) other

/-- The constructor accepts the text just when it has the standard form, and else throws. -/
def JudgedRight (text : Text) (keepAliveDefault : Bool) : Prop :=
  (Standard (toUpper (trim text)) ∧ ∃ version, make text keepAliveDefault = .ok version) ∨
    (¬Standard (toUpper (trim text)) ∧
      ∃ message, make text keepAliveDefault = .error (invalidArgumentException message))

theorem judgedRight_iff (text : Text) (keepAliveDefault : Bool) :
    JudgedRight text keepAliveDefault ↔
      ¬Standard (toUpper (trim text)) ∧ ¬Dotless (toUpper (trim text)) := by
  unfold JudgedRight
  by_cases dotless : Dotless (toUpper (trim text))
  · obtain ⟨version, made⟩ := make_of_dotless keepAliveDefault dotless
    have nonstandard : ¬Standard (toUpper (trim text)) :=
      fun standard => standard.not_dotless dotless
    constructor
    · rintro (⟨standard, _⟩ | ⟨_, message, refused⟩)
      · exact absurd standard nonstandard
      · rw [made] at refused
        cases refused
    · rintro ⟨_, other⟩
      exact absurd dotless other
  · obtain ⟨message, refused⟩ := make_refuses keepAliveDefault dotless
    constructor
    · rintro (⟨_, version, made⟩ | ⟨nonstandard, _⟩)
      · rw [refused] at made
        cases made
      · exact ⟨nonstandard, dotless⟩
    · rintro ⟨nonstandard, _⟩
      exact .inr ⟨nonstandard, message, refused⟩

section Numbered

variable {c : BitVec 8}

theorem toupper_slash (same : toupper c = 47) : c = 47 := by
  revert c
  decide

theorem toupper_digit (digit : isdigit c = true) : toupper c = c := by
  revert c
  decide

theorem toupper_idem (c : BitVec 8) : toupper (toupper c) = toupper c := by
  revert c
  decide

theorem toUpper_digits {digits : Text} (all : ∀ c ∈ digits, isdigit c = true) :
    toUpper digits = digits := by
  unfold toUpper
  exact (List.map_congr_left fun c among => toupper_digit (all c among)).trans (List.map_id _)

theorem mem_of_trim {characters : Text} (among : c ∈ trim characters) : c ∈ characters := by
  unfold trim at among
  rw [List.mem_reverse] at among
  have middle := (List.dropWhile_sublist _).subset among
  rw [List.mem_reverse] at middle
  exact (List.dropWhile_sublist _).subset middle

theorem decimal_all {number : Int} (least : 0 ≤ number) :
    DefaultHttpHeader.decimal number ≠ [] ∧
      ∀ c ∈ DefaultHttpHeader.decimal number, isdigit c = true := by
  obtain ⟨n, rfl⟩ := Int.eq_ofNat_of_zero_le least
  obtain ⟨digits, same, some_, -⟩ := decimal_digits n
  refine ⟨?_, Integer.decimal_isdigit⟩
  rw [same]
  exact fun wrong => some_ (List.map_eq_nil_iff.mp wrong)

section

variable {protocolName : Text} {majorVersion minorVersion : Int} {keepAliveDefault : Bool}
  {version : HttpVersion}

/-- What the constructor from numbers lets through. -/
theorem numbered_parts
    (made : makeNumbered protocolName majorVersion minorVersion keepAliveDefault = .ok version) :
    toUpper (trim protocolName) ≠ [] ∧ verifyProtocl (toUpper (trim protocolName)) = true ∧
      0 ≤ majorVersion ∧ 0 ≤ minorVersion ∧
      version.text = toUpper (trim protocolName) ++
        47 :: (DefaultHttpHeader.decimal majorVersion ++
          46 :: DefaultHttpHeader.decimal minorVersion) := by
  unfold makeNumbered at made
  dsimp only at made
  by_cases empty : toUpper (trim protocolName) = []
  · rw [if_pos empty] at made
    cases made
  · rw [if_neg empty] at made
    cases proper : verifyProtocl (toUpper (trim protocolName)) with
    | false =>
        rw [proper] at made
        cases made
    | true =>
        rw [proper] at made
        by_cases major : majorVersion < 0
        · rw [if_pos major] at made
          cases made
        · by_cases minor : minorVersion < 0
          · rw [if_neg major, if_pos minor] at made
            cases made
          · rw [if_neg major, if_neg minor] at made
            cases made
            refine ⟨empty, rfl, by omega, by omega, ?_⟩
            dsimp only
            have slash : CLocale.text "/" = [47] := by decide
            have dot : CLocale.text "." = [46] := by decide
            rw [slash, dot]
            simp only [List.append_assoc, List.cons_append, List.nil_append]

/-- The text of a version has the standard form and is neither trimmed nor changed. -/
theorem numbered_standard (unslashed : 47 ∉ protocolName)
    (made : makeNumbered protocolName majorVersion minorVersion keepAliveDefault = .ok version) :
    Standard (toUpper (trim version.text)) := by
  obtain ⟨present, proper, major, minor, whole⟩ := numbered_parts made
  obtain ⟨someMajor, majorDigits⟩ := decimal_all major
  obtain ⟨someMinor, minorDigits⟩ := decimal_all minor
  have solid : ∀ c ∈ version.text, isspace c = false := by
    intro c among
    rw [whole, List.mem_append, List.mem_cons, List.mem_append, List.mem_cons] at among
    rcases among with name | slash | digit | dot | digit
    · have verified := List.all_eq_true.mp proper c name
      rw [Bool.and_eq_true, Bool.not_eq_true', Bool.not_eq_true'] at verified
      exact verified.2
    · rw [slash]
      decide
    · exact (solid_of_isdigit (majorDigits c digit)).1
    · rw [dot]
      decide
    · exact (solid_of_isdigit (minorDigits c digit)).1
  have upper : toUpper version.text = version.text := by
    have name : toUpper (toUpper (trim protocolName)) = toUpper (trim protocolName) := by
      unfold toUpper
      rw [List.map_map]
      exact List.map_congr_left fun c _ => toupper_idem c
    rw [whole]
    unfold toUpper at name ⊢
    rw [List.map_append, List.map_cons, List.map_append, List.map_cons, name]
    have first := toUpper_digits majorDigits
    have second := toUpper_digits minorDigits
    unfold toUpper at first second
    rw [first, second]
    rfl
  rw [trim_none solid, upper, whole]
  refine ⟨_, _, _, rfl, present, ?_, proper, someMajor, List.all_eq_true.mpr majorDigits, someMinor,
    List.all_eq_true.mpr minorDigits⟩
  intro slash
  obtain ⟨c, among, same⟩ := List.mem_map.mp slash
  exact unslashed (toupper_slash same ▸ mem_of_trim among)

end

end Numbered

/-- No text of a version is read back, and a text is judged right just when it has neither the
standard form nor the one that is taken for it. -/
theorem version_texts_iff (protocolName : Text) (majorVersion minorVersion : Int)
    (keepAliveDefault : Bool) (version : HttpVersion) (text : Text) :
    (47 ∉ protocolName →
      makeNumbered protocolName majorVersion minorVersion keepAliveDefault = .ok version →
      ¬∃ parsed, make version.text keepAliveDefault = .ok parsed ∧
        parsed.equals version = true) ∧
    (JudgedRight text keepAliveDefault ↔
      ¬Standard (toUpper (trim text)) ∧ ¬Dotless (toUpper (trim text))) := by
  constructor
  · rintro unslashed made ⟨parsed, read, -⟩
    obtain ⟨message, refused⟩ :=
      make_refuses keepAliveDefault (numbered_standard unslashed made).not_dotless
    rw [refused] at read
    cases read
  · exact judgedRight_iff text keepAliveDefault

/-- The text of HTTP/1.1 is refused. -/
theorem version_texts_http :
    (¬∃ parsed, make (CLocale.text "HTTP/1.1") true = .ok parsed ∧
      parsed.equals HTTP_1_1 = true) ∧
    (JudgedRight (CLocale.text "HTTP") true ↔
      ¬Standard (toUpper (trim (CLocale.text "HTTP"))) ∧
        ¬Dotless (toUpper (trim (CLocale.text "HTTP")))) := by
  have both := version_texts_iff (CLocale.text "HTTP") 1 1 true HTTP_1_1 (CLocale.text "HTTP")
  exact ⟨both.1 (by decide) (by decide +kernel), both.2⟩

/-- One slash and one dot, and a name of 47 characters without a dot. -/
theorem version_text_refused :
    makeNumbered (CLocale.text "HTTP") 1 1 true = .ok HTTP_1_1 ∧
    (∃ message, make HTTP_1_1.text true = .error (invalidArgumentException message)) ∧
    ¬JudgedRight HTTP_1_1.text true ∧
    ¬JudgedRight (List.replicate 47 65 ++ CLocale.text "/1") true := by
  refine ⟨by decide +kernel, ⟨_, rfl⟩, ?_, ?_⟩
  · intro judged
    have standard : Standard (toUpper (trim HTTP_1_1.text)) :=
      ⟨CLocale.text "HTTP", CLocale.text "1", CLocale.text "1", by decide, by decide, by decide,
        by decide, by decide, by decide, by decide, by decide⟩
    exact ((judgedRight_iff _ _).mp judged).1 standard
  · intro judged
    have dotless : Dotless (toUpper (trim (List.replicate 47 65 ++ CLocale.text "/1"))) :=
      ⟨List.replicate 47 65, CLocale.text "1", by decide, by decide, by decide, by decide,
        .inl ⟨by decide, by decide⟩⟩
    exact ((judgedRight_iff _ _).mp judged).2 dotless

end HttpVersion

end Cetty
