import Cetty.HttpHeader

/-!
# The hash table of the HTTP headers

`DefaultHttpHeader` keeps an entry in two linked structures: in the chain of a bucket, the newest
first, and in a ring in the order of insertion. Both are changed by hand. An entry is known by the
address it was allocated at.
-/

namespace Cetty

open CLocale MachineInt

namespace DefaultHttpHeader

structure Node where
  address : Nat
  hash : Int
  key : Text
  value : Text
  deriving DecidableEq, Repr

structure Table where
  entries : List (List Node)
  ring : List Node
  made : Nat
  deriving DecidableEq, Repr

namespace Table

def buckets : Nat := BUCKET_SIZE.toNat

def fresh : Table := ⟨List.replicate buckets [], [], 0⟩

def chain (table : Table) (i : Int) : List Node := table.entries.getD i.toNat []

/-- What `addHeader` leaves when its bucket is one of the array. -/
def place (table : Table) (h i : Int) (name value : Text) : Table :=
  let entry : Node := ⟨table.made, h, name, value⟩
  { entries := table.entries.set i.toNat (entry :: table.chain i)
    ring := table.ring ++ [entry]
    made := table.made + 1 }

def addHeader (h i : Int) (name value : Text) : Exec Table Unit := do
  let table ← MonadState.get
  if 0 ≤ i ∧ i < BUCKET_SIZE then MonadState.set (table.place h i name value)
  else throw .outOfBounds

/-- `Entry::remove`, which leaves the chain of the bucket alone. -/
def unlink (ring : List Node) (e : Node) : List Node :=
  ring.filter fun other => other.address != e.address

/-- The second loop of `removeHeader`: the entries behind one that stays. -/
def removeLater (found : Node → Bool) : List Node → List Node → List Node × List Node
  | [], ring => ([], ring)
  | next :: rest, ring =>
      if found next then removeLater found rest (unlink ring next)
      else
        let left := removeLater found rest ring
        (next :: left.1, left.2)

/-- The first loop, as long as the head of the chain goes. -/
def removeFirst (found : Node → Bool) : List Node → List Node → List Node × List Node
  | [], ring => ([], ring)
  | e :: next, ring =>
      if found e then removeFirst found next (unlink ring e)
      else
        let left := removeLater found next ring
        (e :: left.1, left.2)

def removeHeader (table : Table) (i : Int) (found : Node → Bool) : Table :=
  let left := removeFirst found (table.chain i) table.ring
  { table with entries := table.entries.set i.toNat left.1, ring := left.2 }

def holds (h : Int) (name : Text) (e : Node) : Bool := e.hash == h && eq name e.key

def add (name value : Text) : Exec Table Unit := do
  call (HttpCodecUtil.validateHeaderName name)
  call (HttpCodecUtil.validateHeaderValue value)
  let h := hash name
  addHeader h (index h) name value

def remove (name : Text) : Exec Table Unit := do
  if name = [] then pure ()
  else
    let h := hash name
    modify fun table => table.removeHeader (index h) (holds h name)

def removeValue (name value : Text) : Exec Table Unit := do
  if name = [] then pure ()
  else
    let h := hash name
    modify fun table =>
      table.removeHeader (index h) fun e => holds h name e && eq value e.value

def setValue (name value : Text) : Exec Table Unit := do
  if value = [] then pure ()
  else
    call (HttpCodecUtil.validateHeaderName name)
    call (HttpCodecUtil.validateHeaderValue value)
    let h := hash name
    modify fun table => table.removeHeader (index h) (holds h name)
    addHeader h (index h) name value

/-- The loop of `set` over a list. Its variable has the name of the bucket and hides it. -/
def setEach (h : Int) (name : Text) : Nat → List Text → Exec Table Unit
  | _, [] => pure ()
  | i, value :: values =>
      if value = [] then pure ()
      else do
        call (HttpCodecUtil.validateHeaderValue value)
        addHeader h i name value
        setEach h name (i + 1) values

def setList (name : Text) (values : List Text) : Exec Table Unit := do
  if values = [] then pure ()
  else
    call (HttpCodecUtil.validateHeaderName name)
    let h := hash name
    modify fun table => table.removeHeader (index h) (holds h name)
    setEach h name 0 values

def clear (table : Table) : Table := { table with entries := List.replicate buckets [], ring := [] }

/-- The entry that `get` refers to; without one it answers with `EMPTY_VALUE`. -/
def find (table : Table) (name : Text) : Option Node :=
  if name = [] then none
  else
    let h := hash name
    (table.chain (index h)).find? (holds h name)

def get (table : Table) (name : Text) : Text :=
  match table.find name with
  | some e => e.value
  | none => []

def gets (table : Table) (name : Text) : List Text :=
  if name = [] then []
  else
    let h := hash name
    ((table.chain (index h)).filter (holds h name)).map Node.value

def getAll (table : Table) : List (Text × Text) := table.ring.map fun e => (e.key, e.value)

def getNames (table : Table) : List Text := table.ring.map Node.key

def contains (table : Table) (name : Text) : Bool := table.get name != []

end Table

/-- `Integer::toString`. -/
def decimal (value : Int) : Text := text (toString value)

/-- The calls that change a header. -/
inductive Call where
  | add (name value : Text)
  | addInt (name : Text) (value : Int)
  | remove (name : Text)
  | removeValue (name value : Text)
  | set (name value : Text)
  | setInt (name : Text) (value : Int)
  | setList (name : Text) (values : List Text)
  | setInts (name : Text) (values : List Int)
  | clear
  deriving DecidableEq, Repr

namespace Call

def program : Call → Exec Table Unit
  | .add name value => Table.add name value
  | .addInt name value => Table.add name (decimal value)
  | .remove name => Table.remove name
  | .removeValue name value => Table.removeValue name value
  | .set name value => Table.setValue name value
  | .setInt name value => Table.setValue name (decimal value)
  | .setList name values => Table.setList name values
  | .setInts name values => Table.setList name (values.map decimal)
  | .clear => modify Table.clear

end Call

namespace Table

/-- The table after a program that returned or threw; nothing is known of it after an access outside
the array. -/
def after (program : Exec Table Unit) (table : Table) : Option Table :=
  match program.run table with
  | .ok _ table => some table
  | .error (.thrown _) table => some table
  | .error _ _ => none

def perform (table : Table) (call : Call) : Option Table := after call.program table

def performAll (calls : List Call) (table : Table) : Option Table :=
  calls.foldlM perform table

end Table

/-- Whether a validation lets its argument through. -/
def accepted (verdict : Except Stop Unit) : Bool := verdict.isOk

def validName (name : Text) : Bool := accepted (HttpCodecUtil.validateHeaderName name)

def validValue (value : Text) : Bool := accepted (HttpCodecUtil.validateHeaderValue value)

/-- The values of a list up to the first that is empty or refused. -/
def stored (values : List Text) : List Text :=
  values.takeWhile fun value => value != [] && validValue value

theorem validName_cases (name : Text) :
    (validName name = true ∧ HttpCodecUtil.validateHeaderName name = .ok ()) ∨
      (validName name = false ∧
        ∃ message, HttpCodecUtil.validateHeaderName name =
          .error (invalidArgumentException message)) := by
  unfold validName accepted HttpCodecUtil.validateHeaderName
  by_cases prohibited : name.any HttpCodecUtil.prohibitedInName = true
  · rw [if_pos prohibited]
    exact .inr ⟨rfl, _, rfl⟩
  · rw [if_neg prohibited]
    exact .inl ⟨rfl, rfl⟩

theorem validateCharacter_thrown {value : Text} {state : HttpCodecUtil.ValueState} {c : BitVec 8}
    {stop : Stop} (stopped : HttpCodecUtil.validateCharacter value state c = .error stop) :
    ∃ message, stop = invalidArgumentException message := by
  unfold HttpCodecUtil.validateCharacter at stopped
  by_cases tab : c = 11
  · rw [if_pos tab] at stopped
    cases stopped
    exact ⟨_, rfl⟩
  · rw [if_neg tab] at stopped
    by_cases feed : c = 12
    · rw [if_pos feed] at stopped
      cases stopped
      exact ⟨_, rfl⟩
    · rw [if_neg feed] at stopped
      cases state with
      | other => cases stopped
      | afterCR =>
          by_cases line : c = HttpCodecUtil.LF
          · simp only [if_pos line] at stopped
            cases stopped
          · simp only [if_neg line] at stopped
            cases stopped
            exact ⟨_, rfl⟩
      | afterLF =>
          by_cases blank : c = HttpCodecUtil.HT ∨ c = HttpCodecUtil.SP
          · simp only [if_pos blank] at stopped
            cases stopped
          · simp only [if_neg blank] at stopped
            cases stopped
            exact ⟨_, rfl⟩

theorem validateFrom_thrown {value rest : Text} {state : HttpCodecUtil.ValueState} {stop : Stop}
    (stopped : rest.foldlM (HttpCodecUtil.validateCharacter value) state = .error stop) :
    ∃ message, stop = invalidArgumentException message := by
  induction rest generalizing state with
  | nil => cases stopped
  | cons c rest induction =>
      rw [List.foldlM_cons] at stopped
      cases first : HttpCodecUtil.validateCharacter value state c with
      | error other =>
          rw [first] at stopped
          cases stopped
          exact validateCharacter_thrown first
      | ok next =>
          rw [first] at stopped
          exact induction stopped

theorem validValue_cases (value : Text) :
    (validValue value = true ∧ HttpCodecUtil.validateHeaderValue value = .ok ()) ∨
      (validValue value = false ∧
        ∃ message, HttpCodecUtil.validateHeaderValue value =
          .error (invalidArgumentException message)) := by
  unfold validValue accepted HttpCodecUtil.validateHeaderValue
  cases scanned : value.foldlM (HttpCodecUtil.validateCharacter value) .other with
  | error stop =>
      obtain ⟨message, same⟩ := validateFrom_thrown scanned
      subst same
      exact .inr ⟨rfl, message, rfl⟩
  | ok state =>
      cases state with
      | other => exact .inl ⟨rfl, rfl⟩
      | afterCR => exact .inr ⟨rfl, _, rfl⟩
      | afterLF => exact .inr ⟨rfl, _, rfl⟩

namespace Table

/-- The entries of a list of values, each in the bucket of its position. -/
def placeAll (h : Int) (name : Text) : Nat → List Text → Table → Table
  | _, [], table => table
  | i, value :: values, table => placeAll h name (i + 1) values (table.place h i name value)

section

variable {Value : Type} {program : Exec Table Value} {next : Value → Exec Table Unit}
  {before middle : Table}

theorem after_bind_ok {value : Value} (ran : program.run before = .ok value middle) :
    after (program >>= next) before = after (next value) middle := by
  unfold after
  rw [run_bind_ok next ran]

theorem after_bind_thrown {exception : Exception}
    (ran : program.run before = .error (.thrown exception) middle) :
    after (program >>= next) before = some middle := by
  unfold after
  rw [run_bind_error next ran]

end

theorem after_modify {change : Table → Table} {next : Unit → Exec Table Unit} (before : Table) :
    after (modify change >>= next) before = after (next ()) (change before) := rfl

/-- A validation in front of a program. -/
theorem after_validate {verdict : Except Stop Unit} {valid : Bool}
    (cases : (valid = true ∧ verdict = .ok ()) ∨
      (valid = false ∧ ∃ message, verdict = .error (invalidArgumentException message)))
    (next : Unit → Exec Table Unit) (before : Table) :
    after (call verdict >>= next) before =
      if valid then after (next ()) before else some before := by
  rcases cases with ⟨accepts, same⟩ | ⟨refuses, message, same⟩
  · rw [accepts, same, if_pos rfl]
    exact after_bind_ok (run_call_ok () before)
  · rw [refuses, same, if_neg Bool.false_ne_true]
    exact after_bind_thrown (run_call_error _ before)

theorem addHeader_inside {h i : Int} (least : 0 ≤ i) (below : i < BUCKET_SIZE)
    (name value : Text) (before : Table) :
    (addHeader h i name value).run before = .ok () (before.place h i name value) := by
  rw [addHeader, run_bind_get]
  rw [if_pos ⟨least, below⟩]
  rfl

theorem addHeader_outside {h i : Int} (above : BUCKET_SIZE ≤ i) (name value : Text)
    (before : Table) : (addHeader h i name value).run before = .error .outOfBounds before := by
  rw [addHeader, run_bind_get]
  rw [if_neg (fun inside => absurd inside.2 (Int.not_lt.mpr above))]
  rfl

theorem after_setEach (h : Int) (name : Text) (i : Nat) (values : List Text) (before : Table)
    (room : i ≤ 17) :
    after (setEach h name i values) before =
      if i + (stored values).length ≤ 17 then some (placeAll h name i (stored values) before)
      else none := by
  induction values generalizing i before with
  | nil =>
      rw [stored, List.takeWhile_nil, List.length_nil, Nat.add_zero, if_pos room]
      rfl
  | cons value values induction =>
      rw [setEach]
      by_cases empty : value = []
      · have nothing : stored (value :: values) = [] := by
          rw [stored, List.takeWhile_cons, empty]
          rfl
        rw [if_pos empty, nothing, List.length_nil, Nat.add_zero, if_pos room]
        rfl
      · rw [if_neg empty, after_validate (validValue_cases value)]
        have kept : (value != []) = true := bne_iff_ne.mpr empty
        by_cases valid : validValue value = true
        · have more : stored (value :: values) = value :: stored values := by
            rw [stored, List.takeWhile_cons, kept, valid]
            rfl
          rw [if_pos valid, more, List.length_cons]
          by_cases inside : i < 17
          · have below : ((i : Nat) : Int) < BUCKET_SIZE := by
              unfold BUCKET_SIZE
              omega
            rw [after_bind_ok (addHeader_inside (Int.natCast_nonneg i) below name value before),
              induction (i + 1) _ inside, show i + 1 + (stored values).length =
                i + ((stored values).length + 1) by omega]
            rfl
          · have above : BUCKET_SIZE ≤ ((i : Nat) : Int) := by
              unfold BUCKET_SIZE
              omega
            rw [if_neg (by omega)]
            unfold after
            rw [run_bind_error _ (addHeader_outside above name value before)]
        · have refused : validValue value = false := Bool.eq_false_iff.mpr valid
          have nothing : stored (value :: values) = [] := by
            rw [stored, List.takeWhile_cons, kept, refused]
            rfl
          rw [if_neg valid, nothing, List.length_nil, Nat.add_zero, if_pos room]
          rfl

theorem hash_least (name : Text) : 0 ≤ hash name := by
  unfold hash
  dsimp only
  split
  · omega
  · split
    · decide
    · omega

theorem index_bounds (name : Text) : 0 ≤ index (hash name) ∧ index (hash name) < BUCKET_SIZE :=
  ⟨Int.tmod_nonneg _ (hash_least name), Int.tmod_lt_of_pos _ (by decide)⟩

theorem after_addHeader (name value : Text) (before : Table) :
    after (addHeader (hash name) (index (hash name)) name value) before =
      some (before.place (hash name) (index (hash name)) name value) := by
  obtain ⟨least, below⟩ := index_bounds name
  unfold after
  rw [addHeader_inside least below]

/-- The table without the entries of a name. -/
def without (table : Table) (name : Text) : Table :=
  table.removeHeader (index (hash name)) (holds (hash name) name)

def withoutValue (table : Table) (name value : Text) : Table :=
  table.removeHeader (index (hash name)) fun e => holds (hash name) name e && eq value e.value

/-- The table with one more entry, in the bucket of its name. -/
def including (table : Table) (name value : Text) : Table :=
  table.place (hash name) (index (hash name)) name value

theorem after_add (name value : Text) (before : Table) :
    after (add name value) before =
      some (if validName name && validValue value then before.including name value else before) := by
  rw [add, after_validate (validName_cases name), after_validate (validValue_cases value),
    after_addHeader]
  cases validName name with
  | false => rfl
  | true =>
      cases validValue value with
      | false => rfl
      | true => rfl

theorem after_remove (name : Text) (before : Table) :
    after (remove name) before = some (if name = [] then before else before.without name) := by
  rw [remove]
  by_cases empty : name = []
  · rw [if_pos empty, if_pos empty]
    rfl
  · rw [if_neg empty, if_neg empty]
    rfl

theorem after_removeValue (name value : Text) (before : Table) :
    after (removeValue name value) before =
      some (if name = [] then before else before.withoutValue name value) := by
  rw [removeValue]
  by_cases empty : name = []
  · rw [if_pos empty, if_pos empty]
    rfl
  · rw [if_neg empty, if_neg empty]
    rfl

theorem after_setValue (name value : Text) (before : Table) :
    after (setValue name value) before =
      some (if value ≠ [] ∧ validName name = true ∧ validValue value = true then
        (before.without name).including name value else before) := by
  rw [setValue]
  by_cases empty : value = []
  · rw [if_pos empty, if_neg (fun wrong => wrong.1 empty)]
    rfl
  · rw [if_neg empty, after_validate (validName_cases name),
      after_validate (validValue_cases value), after_modify, after_addHeader]
    cases named : validName name with
    | false => simp
    | true =>
        cases valid : validValue value with
        | false => simp
        | true =>
            simp only [if_true, and_true, ne_eq, empty, not_false_eq_true]
            rfl

theorem after_setList (name : Text) (values : List Text) (before : Table) :
    after (setList name values) before =
      if values ≠ [] ∧ validName name = true then
        if (stored values).length ≤ 17 then
          some (placeAll (hash name) name 0 (stored values) (before.without name))
        else none
      else some before := by
  rw [setList]
  by_cases empty : values = []
  · rw [if_pos empty, if_neg (fun wrong => wrong.1 empty)]
    rfl
  · rw [if_neg empty, after_validate (validName_cases name), after_modify,
      after_setEach _ _ _ _ _ (Nat.zero_le _), Nat.zero_add]
    cases named : validName name with
    | false => simp
    | true =>
        simp only [if_true, and_true, ne_eq, empty, not_false_eq_true]
        rfl

theorem performAll_cons {table next : Table} {call : Call} {calls : List Call}
    (run : performAll (call :: calls) table = some next) :
    ∃ middle, table.perform call = some middle ∧ performAll calls middle = some next := by
  rw [performAll, List.foldlM_cons] at run
  cases first : table.perform call with
  | none =>
      rw [first] at run
      cases run
  | some middle =>
      rw [first] at run
      exact ⟨middle, rfl, run⟩

end Table

end DefaultHttpHeader

end Cetty
