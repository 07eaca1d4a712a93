import Mathlib.Data.List.TakeWhile
import Cetty.HeaderTable
import Cetty.HttpHeads

/-!
# The parts of any header line

A header line is split at its first colon, whatever stands in it. A line with nothing behind the colon
has no value, and its name is not terminated.
-/

namespace Cetty

open CLocale

/-- What a pointer to the characters shows. -/
def cString (characters : Text) : Text := characters.takeWhile (· != 0)

theorem cString_solid {characters : Text} (solid : ∀ c ∈ characters, c ≠ 0) :
    cString characters = characters :=
  List.takeWhile_eq_self_iff.mpr fun c among => bne_iff_ne.mpr (solid c among)

theorem cString_append (characters rest : Text) :
    cString (characters ++ 0 :: rest) = cString characters := by
  induction characters with
  | nil => rfl
  | cons c characters induction =>
      unfold cString at induction ⊢
      rw [List.cons_append, List.takeWhile_cons, List.takeWhile_cons, induction]

theorem nul_not_mem_cString (characters : Text) : (0 : Byte) ∉ cString characters := by
  intro among
  have solid := List.mem_takeWhile_imp among
  exact absurd rfl (bne_iff_ne.mp solid)

/-- What is left begins where the skipping stops. -/
theorem stops_of_dropWhile {skip : Byte → Bool} {bytes rest : Text} {c : Byte}
    (left : bytes.dropWhile skip = c :: rest) : skip c = false := by
  have head := List.head?_dropWhile_not skip bytes
  rw [left] at head
  exact head

/-- Where the name ends in a header line. -/
def endsName (c : Byte) : Bool := c == HttpCodecUtil.COLON || Character.isWhitespace c

structure SplitLine where
  name : Text
  value : Option Text
  deriving DecidableEq, Repr

namespace SplitLine

def fresh : SplitLine := ⟨[], none⟩

end SplitLine

/-- What stands behind the first colon behind the name, from the first character that is not blank. -/
def valueText (behind : Text) : Text :=
  ((behind.dropWhile (· != HttpCodecUtil.COLON)).drop 1).dropWhile Character.isWhitespace

def splitText (line : Text) : SplitLine :=
  let named := line.dropWhile Character.isWhitespace
  let value := valueText (named.dropWhile fun c => !endsName c)
  ⟨named.takeWhile fun c => !endsName c, if value = [] then none else some value⟩

namespace FastString

section Parts

variable {cells : CharArray} {data size : Nat} {found : Byte → Bool} {bytes line : Text}

theorem stringAt_cString (holds : Holds cells data (bytes ++ [0])) :
    (stringAt data).run cells = .ok (cString bytes) cells := by
  have ends := mem_drop_of_holds holds
  obtain ⟨rest, whole⟩ := holds
  have taken : (cells.drop data).takeWhile (· != 0) = cString bytes := by
    rw [← whole, List.append_assoc]
    exact cString_append bytes rest
  unfold stringAt
  rw [run_bind_get]
  rw [Int.toNat_natCast, if_neg (by rintro (negative | missing) <;> [omega; exact missing ends]),
    taken]
  rfl

theorem toString_cString (holds : Holds cells data (bytes ++ [0])) :
    (lineAt data size).toString.run cells = .ok (cString bytes) cells := by
  unfold toString lineAt
  exact stringAt_cString holds

/-- A string is read without a change of the array, or the array has no terminator for it. -/
theorem toString_cases (str : FastString) (cells : CharArray) :
    (∃ characters, str.toString.run cells = .ok characters cells) ∨
      str.toString.run cells = .error .outOfBounds cells := by
  unfold toString
  cases str.data with
  | none => exact Or.inr rfl
  | some address =>
      unfold stringAt
      dsimp only
      rw [run_bind_get]
      by_cases missing : address < 0 ∨ ¬(0 : Byte) ∈ cells.drop address.toNat
      · rw [if_pos missing]
        exact Or.inr rfl
      · rw [if_neg missing]
        exact Or.inl ⟨_, rfl⟩

/-- A scan passes the characters at which it does not stop. -/
theorem scanFrom_text (found : Byte → Bool) (front rest : Text)
    (holds : Holds cells data (front ++ rest)) (whole : size = front.length + rest.length) :
    (scanFrom found (lineAt data size) front.length).run cells =
      .ok ((front.length + (rest.takeWhile fun c => !found c).length : Nat) : Int) cells := by
  have parts := List.takeWhile_append_dropWhile (p := fun c => !found c) (l := rest)
  have skipped : ∀ c ∈ rest.takeWhile fun c => !found c, found c = false := by
    intro c among
    have passed := List.mem_takeWhile_imp among
    rwa [Bool.not_eq_true'] at passed
  cases left : rest.dropWhile fun c => !found c with
  | nil =>
      rw [left, List.append_nil] at parts
      rw [parts] at skipped ⊢
      rw [scanFrom_none front rest holds skipped whole, whole]
  | cons c later =>
      have stops : found c = true := by
        have head := stops_of_dropWhile left
        rwa [Bool.not_eq_false'] at head
      rw [left] at parts
      have counted := congrArg List.length parts
      rw [List.length_append, List.length_cons] at counted
      rw [← parts, ← List.append_assoc] at holds
      exact scanFrom_found front _ holds skipped stops (by omega)

theorem findNonWhitespace_text (front rest : Text) (holds : Holds cells data (front ++ rest))
    (whole : size = front.length + rest.length) :
    (findNonWhitespace (lineAt data size) front.length).run cells =
      .ok ((front.length + (rest.takeWhile Character.isWhitespace).length : Nat) : Int) cells := by
  have scanned := scanFrom_text (fun c => !Character.isWhitespace c) front rest holds whole
  have twice : (fun c : Byte => !(!Character.isWhitespace c)) = Character.isWhitespace := by
    funext c
    exact Bool.not_not _
  rw [twice] at scanned
  exact scanned

/-- A value stands at the end of the line, with the colon in front of it. -/
theorem valueText_suffix (behind : Text) :
    ∃ mid, behind = mid ++ valueText behind ∧ (valueText behind ≠ [] → 0 < mid.length) := by
  have parts := List.takeWhile_append_dropWhile (p := (· != HttpCodecUtil.COLON)) (l := behind)
  cases left : behind.dropWhile (· != HttpCodecUtil.COLON) with
  | nil =>
      have none : valueText behind = [] := by
        unfold valueText
        rw [left]
        rfl
      exact ⟨behind, by rw [none, List.append_nil], fun some_ => absurd none some_⟩
  | cons colon tail =>
      have value : valueText behind = tail.dropWhile Character.isWhitespace := by
        unfold valueText
        rw [left]
        rfl
      have blanks := List.takeWhile_append_dropWhile (p := Character.isWhitespace) (l := tail)
      refine ⟨behind.takeWhile (· != HttpCodecUtil.COLON) ++
        colon :: tail.takeWhile Character.isWhitespace, ?_, fun _ => ?_⟩
      · rw [value, List.append_assoc, List.cons_append, blanks, ← left, parts]
      · rw [List.length_append, List.length_cons]
        omega

/-- The scans for the colon and for the value behind it. -/
theorem valueStart_run (front behind : Text) (holds : Holds cells data (front ++ behind))
    (whole : size = front.length + behind.length) :
    ∃ colon : Nat,
      (scanFrom (fun ch => ch == HttpCodecUtil.COLON) (lineAt data size) front.length).run cells =
        .ok (colon : Int) cells ∧
      (findNonWhitespace (lineAt data size)
        (if (colon : Int) < (size : Int) then (colon : Int) + 1 else (colon : Int))).run cells =
        .ok ((size - (valueText behind).length : Nat) : Int) cells := by
  have scanned : (scanFrom (fun ch => ch == HttpCodecUtil.COLON) (lineAt data size)
      front.length).run cells = .ok ((front.length +
        (behind.takeWhile (· != HttpCodecUtil.COLON)).length : Nat) : Int) cells :=
    scanFrom_text (fun ch => ch == HttpCodecUtil.COLON) front behind holds whole
  have parts := List.takeWhile_append_dropWhile (p := (· != HttpCodecUtil.COLON)) (l := behind)
  have counted := congrArg List.length parts
  rw [List.length_append] at counted
  refine ⟨_, scanned, ?_⟩
  cases left : behind.dropWhile (· != HttpCodecUtil.COLON) with
  | nil =>
      have none : valueText behind = [] := by
        unfold valueText
        rw [left]
        rfl
      rw [left, List.length_nil, Nat.add_zero] at counted
      have ends := @findNonWhitespace_text cells data size (front ++ behind) []
        (by rw [List.append_nil]; exact holds) (by rw [List.length_append, List.length_nil]; omega)
      rw [List.length_append, ← whole] at ends
      rw [counted, ← whole, if_neg (Int.lt_irrefl _), none]
      exact ends
  | cons colon tail =>
      have value : valueText behind = tail.dropWhile Character.isWhitespace := by
        unfold valueText
        rw [left]
        rfl
      rw [left, List.length_cons] at counted
      have regrouped : front ++ behind =
          (front ++ behind.takeWhile (· != HttpCodecUtil.COLON) ++ [colon]) ++ tail := by
        rw [List.append_assoc _ [colon], List.singleton_append, ← left, List.append_assoc, parts]
      rw [regrouped] at holds
      have blanks := List.takeWhile_append_dropWhile (p := Character.isWhitespace) (l := tail)
      have counted' := congrArg List.length blanks
      rw [List.length_append] at counted'
      have index : (front ++ behind.takeWhile (· != HttpCodecUtil.COLON) ++ [colon]).length =
          front.length + (behind.takeWhile (· != HttpCodecUtil.COLON)).length + 1 := by
        rw [List.length_append, List.length_append]
        rfl
      have ends := findNonWhitespace_text _ tail holds
        (show size = _ by rw [index]; omega)
      rw [index] at ends
      rw [if_pos (by omega), value]
      have same : size - (tail.dropWhile Character.isWhitespace).length =
          front.length + (behind.takeWhile (· != HttpCodecUtil.COLON)).length + 1 +
            (tail.takeWhile Character.isWhitespace).length := by
        omega
      rw [same]
      rw [Int.natCast_add _ 1, Int.natCast_one] at ends
      exact ends

/-- Where the name begins in a header line. -/
def nameStart (line : Text) : Nat := (line.takeWhile Character.isWhitespace).length

theorem splitText_name (line : Text) :
    ∃ lead behind, line = lead ++ (splitText line).name ++ behind ∧ lead.length = nameStart line ∧
      (splitText line).value =
        (if valueText behind = [] then none else some (valueText behind)) := by
  have blanks : line.takeWhile Character.isWhitespace ++ line.dropWhile Character.isWhitespace =
    line := List.takeWhile_append_dropWhile
  have named : (splitText line).name ++
      (line.dropWhile Character.isWhitespace).dropWhile (fun c => !endsName c) =
      line.dropWhile Character.isWhitespace := List.takeWhile_append_dropWhile
  refine ⟨line.takeWhile Character.isWhitespace, _, ?_, rfl, rfl⟩
  rw [List.append_assoc, named, blanks]

/-- The scans for the ends of the name. -/
theorem nameEnds_run (holds : Holds cells data line) :
    (findNonWhitespace (lineAt data line.length) 0).run cells =
        .ok ((nameStart line : Nat) : Int) cells ∧
      (scanFrom (fun ch => ch == HttpCodecUtil.COLON || Character.isWhitespace ch)
        (lineAt data line.length) (nameStart line : Nat)).run cells =
        .ok ((nameStart line + (splitText line).name.length : Nat) : Int) cells := by
  have blanks : line.takeWhile Character.isWhitespace ++ line.dropWhile Character.isWhitespace =
    line := List.takeWhile_append_dropWhile
  have counted := congrArg List.length blanks
  rw [List.length_append] at counted
  have starts := @findNonWhitespace_text cells data line.length [] line holds (by simp)
  have whole := holds
  rw [← blanks] at whole
  rw [List.length_nil, Nat.zero_add] at starts
  exact ⟨starts, scanFrom_text endsName (line.takeWhile Character.isWhitespace)
    (line.dropWhile Character.isWhitespace) whole counted.symm⟩

/-- The pointer of the name of a header line. -/
def namePart (data : Nat) (line : Text) : FastString :=
  if (splitText line).name = [] then fresh
  else lineAt (data + nameStart line) (splitText line).name.length

theorem namePart_substring (data : Nat) (line : Text) :
    (lineAt data line.length).substring (nameStart line : Nat)
      ((nameStart line + (splitText line).name.length : Nat) : Int) = namePart data line := by
  rw [substring_of]
  unfold namePart
  by_cases empty : (splitText line).name = []
  · rw [if_pos empty, empty, List.length_nil, Nat.add_zero, if_neg (Nat.lt_irrefl _)]
  · have positive := List.length_pos_iff.mpr empty
    rw [if_neg empty, if_pos (by omega), Nat.add_sub_cancel_left]

theorem splitHeader_valueless (holds : Holds cells data line)
    (none : (splitText line).value = none) :
    (lineAt data line.length).splitHeader.run cells = .ok (namePart data line, fresh) cells := by
  obtain ⟨lead, behind, whole, starts, value⟩ := splitText_name line
  have empty : valueText behind = [] := by
    by_contra some_
    rw [none, if_neg some_] at value
    cases value
  have counted := congrArg List.length whole
  rw [List.length_append] at counted
  have there := holds
  rw [whole] at there
  obtain ⟨colon, found, valueStart⟩ := valueStart_run _ behind there counted
  rw [List.length_append, starts] at found
  rw [empty, List.length_nil, Nat.sub_zero] at valueStart
  obtain ⟨first, second⟩ := nameEnds_run holds
  unfold splitHeader
  dsimp only
  rw [run_bind_ok _ first, run_bind_ok _ second, run_bind_ok _ found]
  refine (run_bind_ok _ valueStart).trans ?_
  rw [if_pos (show ((line.length : Nat) : Int) = (lineAt data line.length).length from rfl),
    namePart_substring]
  rfl

theorem splitHeader_valued {value : Text} (holds : Holds cells data line)
    (some_ : (splitText line).value = some value) :
    ∃ size, (lineAt data line.length).splitHeader.run cells =
      .ok (namePart data line, lineAt (data + (line.length - value.length)) size)
        (cells.set (data + (nameStart line + (splitText line).name.length)) 0) := by
  obtain ⟨lead, behind, whole, starts, valued⟩ := splitText_name line
  have present : valueText behind ≠ [] := by
    intro empty
    rw [some_, if_pos empty] at valued
    cases valued
  have same : value = valueText behind := by
    rw [some_, if_neg present] at valued
    exact Option.some.inj valued
  obtain ⟨mid, suffix, positive⟩ := valueText_suffix behind
  have positive := positive present
  obtain ⟨c, back, begins⟩ := List.exists_cons_of_ne_nil present
  have solid : Character.isWhitespace c = false := stops_of_dropWhile begins
  have counted := congrArg List.length whole
  have counted' := congrArg List.length suffix
  rw [List.length_append] at counted counted'
  have named : (lead ++ (splitText line).name).length =
      nameStart line + (splitText line).name.length := by
    rw [List.length_append, starts]
  have there := holds
  rw [whole] at there
  obtain ⟨colon, found, valueStart⟩ := valueStart_run _ behind there counted
  rw [named] at found counted
  have width : (valueText behind).length = back.length + 1 := by rw [begins, List.length_cons]
  have shown : Holds cells data ((lead ++ (splitText line).name ++ mid) ++ c :: back) := by
    have parts : line = (lead ++ (splitText line).name ++ mid) ++ c :: back := by
      rw [← begins, List.append_assoc _ mid, ← suffix, ← whole]
    rw [← parts]
    exact holds
  have index : (lead ++ (splitText line).name ++ mid).length = line.length - value.length := by
    rw [List.length_append, named, same]
    omega
  have index' : (lead ++ (splitText line).name ++ mid).length + 1 + back.length = line.length := by
    rw [List.length_append, named]
    omega
  obtain ⟨end_, later, bound, valueEnd⟩ := @findEndOfString_run cells data line.length c _ back
    shown solid index'.symm
  rw [index] at later
  rw [← same] at valueStart
  have room := holds.bound (by rw [whole, suffix, begins]; simp)
  obtain ⟨first, second⟩ := nameEnds_run holds
  have cut : ((lineAt data line.length).setChar
      ((nameStart line + (splitText line).name.length : Nat) : Int) 0).run cells =
      .ok () (cells.set (data + (nameStart line + (splitText line).name.length)) 0) :=
    setChar_run (by omega) 0
  have apart : ¬(((line.length - value.length : Nat) : Int) = (lineAt data line.length).length) := by
    show ¬(((line.length - value.length : Nat) : Int) = (line.length : Int))
    rw [same]
    omega
  refine ⟨end_ - (line.length - value.length), ?_⟩
  unfold splitHeader
  dsimp only
  rw [run_bind_ok _ first, run_bind_ok _ second, run_bind_ok _ found]
  refine (run_bind_ok _ valueStart).trans ?_
  rw [if_neg apart, run_bind_ok _ valueEnd, run_bind_ok _ cut, namePart_substring, substring_of,
    if_pos later]
  rfl

end Parts

end FastString

/-- What is added to the message for a header line. A text made from a null pointer is undefined. -/
def addSplit (split : SplitLine) (message : HttpMessage) : Except Stop HttpMessage :=
  if split.name = [] then .ok message
  else
    match split.value with
    | none => .error .outOfBounds
    | some value => message.addHeader (cString split.name) (cString value)

/-- A header line that is added, or dropped because it has no name. -/
def Addable (split : SplitLine) : Prop :=
  split.name = [] ∨ ∃ value, split.value = some value ∧
    DefaultHttpHeader.validName (cString split.name) = true ∧
    DefaultHttpHeader.validValue (cString value) = true

namespace SplitLine

/-- What is added for a header line. -/
def entries (split : SplitLine) : List DefaultHttpHeader.Entry :=
  if split.name = [] then []
  else
    match split.value with
    | none => []
    | some value => [⟨cString split.name, cString value⟩]

end SplitLine

theorem addSplit_verdict (split : SplitLine) (message : HttpMessage) :
    (Addable split ∧
        addSplit split message =
          .ok (HttpMessageDecoder.withEntries message split.entries)) ∨
      (¬Addable split ∧ ∃ stop, addSplit split message = .error stop ∧ stop ≠ .diverges ∧
        stop ≠ .outOfFuel ∧ stop.isTooLong = false) := by
  unfold Addable addSplit SplitLine.entries
  by_cases named : split.name = []
  · rw [if_pos named, if_pos named]
    refine Or.inl ⟨Or.inl named, ?_⟩
    unfold HttpMessageDecoder.withEntries
    rw [List.append_nil]
  · rw [if_neg named, if_neg named]
    cases split.value with
    | none =>
        refine Or.inr ⟨?_, _, rfl, by decide, by decide, rfl⟩
        rintro (wrong | ⟨value, wrong, -⟩)
        · exact named wrong
        · cases wrong
    | some value =>
        dsimp only
        unfold HttpMessage.addHeader DefaultHttpHeader.add
        rcases DefaultHttpHeader.validName_cases (cString split.name) with
          ⟨valid, same⟩ | ⟨refused, text, same⟩
        · rcases DefaultHttpHeader.validValue_cases (cString value) with
            ⟨valid', same'⟩ | ⟨refused', text, same'⟩
          · rw [same, same']
            exact Or.inl ⟨Or.inr ⟨value, rfl, valid, valid'⟩, rfl⟩
          · rw [same, same']
            refine Or.inr ⟨?_, invalidArgumentException text, rfl, nofun, nofun, rfl⟩
            rintro (wrong | ⟨other, equal, -, valid'⟩)
            · exact named wrong
            · cases equal
              rw [refused'] at valid'
              cases valid'
        · rw [same]
          refine Or.inr ⟨?_, invalidArgumentException text, rfl, nofun, nofun, rfl⟩
          rintro (wrong | ⟨other, equal, valid, -⟩)
          · exact named wrong
          · rw [refused] at valid
            cases valid

namespace HttpMessageDecoder

/-- A header line that has been split, as strings in front of a bound. -/
inductive Parts (cells : CharArray) (bound : Nat) : FastString → FastString → SplitLine → Prop
  | nameless {name value : FastString} {split : SplitLine} (empty : name.empty = true)
      (none : split.name = []) : Parts cells bound name value split
  | valueless {name : FastString} {split : SplitLine} (present : name.empty = false)
      (some_ : split.name ≠ []) (none : split.value = none) :
      Parts cells bound name FastString.fresh split
  | whole (at_ behind size : Nat) {name value : Text} (some_ : name ≠ [])
      (named : Holds cells at_ (name ++ [0])) (valued : Holds cells behind (value ++ [0]))
      (near : at_ + name.length < bound) (far : behind + value.length < bound) :
      Parts cells bound (FastString.lineAt at_ name.length) (FastString.lineAt behind size)
        ⟨name, some value⟩

section Parts

variable {cells : CharArray} {bound data : Nat} {line : Text} {name value : FastString}
  {split : SplitLine}

theorem lineAt_not_empty {at_ size : Nat} (positive : 0 < size) :
    (FastString.lineAt at_ size).empty = false := by
  have some_ : ¬((size : Int) = 0) := by omega
  exact beq_eq_false_iff_ne.mpr some_

/-- A write behind the strings leaves them. -/
theorem Parts.set {position : Nat} (parts : Parts cells bound name value split)
    (behind : bound ≤ position) (c : Byte) : Parts (cells.set position c) bound name value split := by
  cases parts with
  | nameless empty none => exact .nameless empty none
  | valueless present some_ none => exact .valueless present some_ none
  | whole at_ start size some_ named valued near far =>
      refine .whole at_ start size some_ (named.set_behind ?_ c) (valued.set_behind ?_ c) near far
      · rw [List.length_append, List.length_singleton]
        omega
      · rw [List.length_append, List.length_singleton]
        omega

theorem splitHeader_parts (holds : Holds cells data (line ++ [0])) :
    ∃ name value cells', (FastString.lineAt data line.length).splitHeader.run cells =
        .ok (name, value) cells' ∧
      SameFrom (data + line.length) cells cells' ∧
      Parts cells' (data + line.length + 1) name value (splitText line) := by
  obtain ⟨lead, behind, whole, starts, valued⟩ :=
    FastString.splitText_name line
  have counted := congrArg List.length whole
  rw [List.length_append, List.length_append, starts] at counted
  by_cases empty : valueText behind = []
  · rw [if_pos empty] at valued
    refine ⟨_, _, _, FastString.splitHeader_valueless holds.front valued, SameFrom.refl _ _, ?_⟩
    unfold FastString.namePart
    by_cases named : (splitText line).name = []
    · rw [if_pos named]
      exact .nameless rfl named
    · rw [if_neg named]
      exact .valueless (lineAt_not_empty (List.length_pos_iff.mpr named)) named valued
  · rw [if_neg empty] at valued
    obtain ⟨size, ran⟩ := FastString.splitHeader_valued holds.front valued
    obtain ⟨mid, suffix, positive⟩ := FastString.valueText_suffix behind
    have positive := positive empty
    have counted' := congrArg List.length suffix
    rw [List.length_append] at counted'
    have early : data + (FastString.nameStart line + (splitText line).name.length) < data + line.length := by
      omega
    refine ⟨_, _, _, ran, SameFrom.set early _ _, ?_⟩
    unfold FastString.namePart
    by_cases named : (splitText line).name = []
    · rw [if_pos named]
      exact .nameless rfl named
    · rw [if_neg named]
      obtain ⟨d, mid, rfl⟩ := List.exists_cons_of_ne_nil (List.length_pos_iff.mp positive)
      have same : splitText line = ⟨(splitText line).name, some (valueText behind)⟩ := by
        rw [← valued]
      rw [List.length_cons] at counted'
      have regrouped : line ++ [0] = lead ++ (splitText line).name ++
          d :: (mid ++ (valueText behind ++ [0])) := by
        have parts : line = lead ++ (splitText line).name ++ ((d :: mid) ++ valueText behind) := by
          rw [← suffix, ← whole]
        calc line ++ [0]
            = lead ++ (splitText line).name ++ ((d :: mid) ++ valueText behind) ++ [0] := by
              rw [← parts]
          _ = lead ++ (splitText line).name ++ d :: (mid ++ (valueText behind ++ [0])) := by
              simp
      rw [regrouped] at holds
      have cut := holds.set_at 0
      rw [List.length_append, starts] at cut
      have grouped : lead ++ (splitText line).name ++ (0 : Byte) ::
          (mid ++ (valueText behind ++ [0])) = lead ++ (((splitText line).name ++ [0]) ++
            (mid ++ (valueText behind ++ [0]))) := by
        simp
      rw [grouped] at cut
      have back := cut.back
      rw [starts] at back
      have named' := back.front
      have valued' := back.back.back
      have index : data + FastString.nameStart line + ((splitText line).name ++ [0]).length + mid.length =
          data + (line.length - (valueText behind).length) := by
        rw [List.length_append, List.length_singleton]
        omega
      rw [index] at valued'
      have near : data + FastString.nameStart line + (splitText line).name.length <
          data + line.length + 1 := by omega
      have far : data + (line.length - (valueText behind).length) + (valueText behind).length <
          data + line.length + 1 := by omega
      rw [same]
      exact .whole _ _ size named named' valued' near far

end Parts

section Adding

variable {desk : Desk} {message : HttpMessage} {bound : Nat} {name value : FastString}
  {split : SplitLine}

/-- The header that has been read is added, or the decoder stops there. -/
theorem addRead_parts (pointed : desk.fields.message = true)
    (made : desk.fields.object = some message) (parts : Parts desk.cells bound name value split) :
    (∀ changed, addSplit split message = .ok changed →
        (addRead name value []).run desk.context =
          .ok () { desk with
            fields := { desk.fields with object := some changed } }.context) ∧
      (∀ stop, addSplit split message = .error stop →
        (addRead name value []).run desk.context = .error stop desk.context) := by
  cases parts with
  | nameless empty none =>
      unfold addSplit addRead
      rw [if_pos none, empty]
      refine ⟨fun changed same => ?_, fun stop wrong => by cases wrong⟩
      have kept : { desk.fields with object := some message } = desk.fields := by rw [← made]
      cases same
      rw [kept]
      rfl
  | valueless present some_ none =>
      unfold addSplit addRead
      rw [if_neg some_, none, present]
      refine ⟨fun changed wrong => (by cases wrong), fun stop same => ?_⟩
      cases same
      rcases FastString.toString_cases name desk.cells with ⟨characters, read⟩ | stops
      · refine (run_bind_ok _ (onArray_run read)).trans ?_
        have null : FastString.fresh.toString.run desk.cells =
            .error Stop.outOfBounds desk.cells := rfl
        exact run_bind_error _ (onArray_stops null)
      · exact run_bind_error _ (onArray_stops stops)
  | @whole at_ behind size name value some_ named valued near far =>
      have present := @lineAt_not_empty at_ name.length (List.length_pos_iff.mpr some_)
      have added : (addRead (FastString.lineAt at_ name.length) (FastString.lineAt behind size)
          []).run desk.context =
          (onMessage fun message => message.addHeader (cString name) (cString value)).run
            desk.context := by
        unfold addRead
        rw [present]
        refine (run_bind_ok _ (onArray_run (FastString.toString_cString named))).trans ?_
        exact run_bind_ok _ (onArray_run (FastString.toString_cString valued))
      unfold addSplit
      rw [if_neg some_, added]
      refine ⟨fun changed same => ?_, fun stop wrong => ?_⟩
      · exact onMessage_run pointed made same
      · have wrong' : message.addHeader (cString name) (cString value) = .error stop := wrong
        unfold onMessage
        rw [run_bind_ok _ (theMessage_at pointed made)]
        dsimp only
        rw [wrong']
        rfl

end Adding

end HttpMessageDecoder

end Cetty
