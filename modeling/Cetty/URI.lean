import Cetty.CLocale
import Cetty.Exceptions

/-!
# Percent escapes and query strings

`URI::encode` puts an escape in the place of a character, `URI::decode` reads it back. The escape is
made by `Integer::toHexString`, which formats its width instead of its value. The parameters of a
query string are a map from each name to its values in the order they were added.
-/

namespace Cetty

open CLocale

def syntaxException (message : String) (argument : Text) : Stop :=
  .thrown ⟨.syntaxError, if argument = [] then message else message ++ ": " ++ display argument⟩

namespace Integer

/-- `sprintf` with `"%*d"`, or with `"%0*d"` when the number is padded with zeros. The only call asks
for a width of one, so the assertion that it lies between 0 and 64 is left out. -/
def append (str : Text) (value : Int) (width : Nat) (zeroPadded : Bool) : Text :=
  let digits := text (Nat.repr value.natAbs)
  let sign := if value < 0 then text "-" else []
  let missing := width - (sign.length + digits.length)
  if zeroPadded then str ++ sign ++ List.replicate missing 48 ++ digits
  else str ++ List.replicate missing 32 ++ sign ++ digits

/-- The call takes the width for the value and the flag for the width. -/
def toHexString (_ : Int) (width : Int) (zeroPadded : Bool) : Text :=
  append [] width zeroPadded.toNat false

end Integer

namespace URI

def ILLEGAL : Text := text "%<>\x7b\x7d|\\\"^\x60"

def percent : BitVec 8 := 37

def unreserved (c : BitVec 8) : Bool :=
  (97 ≤ c.toInt && c.toInt ≤ 122) || (65 ≤ c.toInt && c.toInt ≤ 90) ||
    (48 ≤ c.toInt && c.toInt ≤ 57) || c == 45 || c == 95 || c == 46 || c == 126

/-- A character is compared as a signed number. -/
def mustEscape (reserved : Text) (c : BitVec 8) : Bool :=
  c.toInt ≤ 0x20 || c.toInt ≥ 0x7F || ILLEGAL.contains c || reserved.contains c

def encodeChar (reserved : Text) (c : BitVec 8) : Text :=
  if unreserved c then [c]
  else if mustEscape reserved c then percent :: Integer.toHexString c.toNat 2 true
  else [c]

def encode (str reserved encodedStr : Text) : Text :=
  encodedStr ++ str.flatMap (encodeChar reserved)

def hexDigit (c : BitVec 8) : Except Stop Nat :=
  match xdigit c with
  | some value => pure value
  | none => throw (syntaxException "URI encoding: not a hex digit" [])

def decodeRest (str : Text) : Text → Except Stop Text
  | [] => pure []
  | c :: rest =>
      if c = percent then
        match rest with
        | [] => throw (syntaxException "URI encoding: no hex digit following percent sign" str)
        | [_] => throw (syntaxException "URI encoding: two hex digits must follow percent sign" str)
        | hi :: lo :: rest => do
            let high ← hexDigit hi
            let low ← hexDigit lo
            let decoded ← decodeRest str rest
            pure (BitVec.ofNat 8 (high * 16 + low) :: decoded)
      else do
        let decoded ← decodeRest str rest
        pure (c :: decoded)

def decode (str : Text) : Except Stop Text := decodeRest str str

/-- The characters that stay what they are when nothing is reserved. -/
def Plain (c : BitVec 8) : Prop := 32 < c.toNat ∧ c.toNat < 127 ∧ c ∉ ILLEGAL

instance (c : BitVec 8) : Decidable (Plain c) := inferInstanceAs (Decidable (_ ∧ _))

variable {c : BitVec 8} {str : Text}

theorem encodeChar_plain (plain : Plain c) : encodeChar [] c = [c] := by
  revert plain
  revert c
  decide +kernel

/-- Every escape has the same two characters. -/
theorem encodeChar_other (other : ¬Plain c) : encodeChar [] c = [percent, 50] := by
  revert other
  revert c
  decide +kernel

theorem percent_not_plain : ¬Plain percent := by decide

theorem encode_length (str : Text) :
    (encode str [] []).length = str.length + (encode str [] []).count percent := by
  induction str with
  | nil => rfl
  | cons c rest induction =>
      simp only [encode, List.nil_append, List.flatMap_cons, List.length_append,
        List.count_append, List.length_cons] at induction ⊢
      by_cases plain : Plain c
      · have different : c ≠ percent := by
          intro same
          exact percent_not_plain (same ▸ plain)
        rw [encodeChar_plain plain, List.count_singleton, if_neg (by simpa using different)]
        simp only [List.length_cons, List.length_nil]
        omega
      · have escape : List.count percent [percent, 50] = 1 := by decide
        rw [encodeChar_other plain, escape]
        simp only [List.length_cons, List.length_nil]
        omega

theorem encode_plain (plain : ∀ c ∈ str, Plain c) : encode str [] [] = str := by
  induction str with
  | nil => rfl
  | cons c rest induction =>
      have first := encodeChar_plain (plain c List.mem_cons_self)
      have others := induction fun other among => plain other (List.mem_cons_of_mem _ among)
      simp only [encode, List.nil_append, List.flatMap_cons, first] at others ⊢
      rw [others]
      rfl

theorem plain_of_no_percent (none : (encode str [] []).count percent = 0) :
    ∀ c ∈ str, Plain c := by
  intro c among
  by_contra escaped
  have member : percent ∈ encode str [] [] := by
    refine List.mem_append_right _ (List.mem_flatMap.mpr ⟨c, among, ?_⟩)
    rw [encodeChar_other escaped]
    exact List.mem_cons_self
  exact List.count_eq_zero.mp none member

theorem decodeRest_cons (str : Text) (different : c ≠ percent) (rest : Text) :
    decodeRest str (c :: rest) = (do
      let decoded ← decodeRest str rest
      pure (c :: decoded)) := by
  cases rest with
  | nil => simp only [decodeRest, if_neg different]
  | cons hi rest =>
      cases rest with
      | nil => simp only [decodeRest, if_neg different]
      | cons lo rest => simp only [decodeRest, if_neg different]

theorem decodeRest_escape (str : Text) (hi lo : BitVec 8) (rest : Text) :
    decodeRest str (percent :: hi :: lo :: rest) = (do
      let high ← hexDigit hi
      let low ← hexDigit lo
      let decoded ← decodeRest str rest
      pure (BitVec.ofNat 8 (high * 16 + low) :: decoded)) := by
  simp only [decodeRest, if_true]

theorem hexDigit_ok {value : Nat} (digit : hexDigit c = .ok value) :
    c ≠ percent := by
  intro same
  rw [same] at digit
  cases digit

theorem decodeRest_plain (str : Text) {rest : Text} (none : percent ∉ rest) :
    decodeRest str rest = .ok rest := by
  induction rest with
  | nil => rfl
  | cons c rest induction =>
      have first : c ≠ percent := fun same => none (same ▸ List.mem_cons_self)
      rw [decodeRest_cons str first,
        induction fun among => none (List.mem_cons_of_mem _ among)]
      rfl

/-- What an escape decodes to is two characters shorter. -/
theorem decodeRest_length (str : Text) {rest decoded : Text}
    (decodes : decodeRest str rest = .ok decoded) :
    decoded.length + 2 * rest.count percent = rest.length := by
  induction rest using decodeRest.induct generalizing decoded with
  | case1 =>
      cases decodes
      rfl
  | case2 => cases decodes
  | case3 => cases decodes
  | case4 hi lo rest induction =>
      rw [decodeRest_escape] at decodes
      cases first : hexDigit hi with
      | error stop =>
          rw [first] at decodes
          cases decodes
      | ok high =>
          cases second : hexDigit lo with
          | error stop =>
              rw [first, second] at decodes
              cases decodes
          | ok low =>
              cases others : decodeRest str rest with
              | error stop =>
                  rw [first, second, others] at decodes
                  cases decodes
              | ok tail =>
                  rw [first, second, others] at decodes
                  cases decodes
                  have shorter := induction others
                  rw [List.count_cons_self, List.count_cons_of_ne (hexDigit_ok first),
                    List.count_cons_of_ne (hexDigit_ok second)]
                  simp only [List.length_cons]
                  omega
  | case5 c rest different induction =>
      rw [decodeRest_cons str different] at decodes
      cases others : decodeRest str rest with
      | error stop =>
          rw [others] at decodes
          cases decodes
      | ok tail =>
          rw [others] at decodes
          cases decodes
          have shorter := induction others
          rw [List.count_cons_of_ne different]
          simp only [List.length_cons]
          omega

end URI

structure QueryStringEncoder where
  uri : Text
  params : List (Text × Text)
  deriving DecidableEq, Repr

namespace QueryStringEncoder

def fresh (uri : Text) : QueryStringEncoder := ⟨uri, []⟩

def addParam (encoder : QueryStringEncoder) (name value : Text) : QueryStringEncoder :=
  { encoder with params := encoder.params ++ [(name, value)] }

/-- Nothing is reserved. -/
def encodeComponent (s : Text) : Text := URI.encode s [] []

def encodeParams : List (Text × Text) → Text
  | [] => []
  | [(name, value)] => encodeComponent name ++ 61 :: encodeComponent value
  | (name, value) :: params =>
      encodeComponent name ++ 61 :: (encodeComponent value ++ 38 :: encodeParams params)

def toString (encoder : QueryStringEncoder) : Text :=
  if encoder.params = [] then encoder.uri
  else encoder.uri ++ 63 :: encodeParams encoder.params

end QueryStringEncoder

/-- The pairs of a `std::map`, each key once. -/
abbrev ParametersType := List (Text × List Text)

namespace ParametersType

def values (params : ParametersType) (name : Text) : List Text :=
  match params with
  | [] => []
  | (key, found) :: rest => if key = name then found else values rest name

def addParam (params : ParametersType) (name value : Text) : ParametersType :=
  match params with
  | [] => [(name, [value])]
  | (key, found) :: rest =>
      if key = name then (key, found ++ [value]) :: rest
      else (key, found) :: addParam rest name value

theorem values_addParam (params : ParametersType) (name value other : Text) :
    (params.addParam name value).values other =
      if name = other then params.values other ++ [value] else params.values other := by
  induction params with
  | nil =>
      by_cases same : name = other
      · simp [addParam, values, same]
      · simp [addParam, values, same]
  | cons entry rest induction =>
      rcases entry with ⟨key, found⟩
      by_cases here : key = name
      · by_cases same : name = other
        · simp [addParam, values, here, same]
        · simp [addParam, values, here, same]
      · by_cases same : key = other
        · have different : name ≠ other := fun equal => here (same.trans equal.symm)
          simp [addParam, values, same, different, different.symm]
        · simp [addParam, values, here, same, induction]

end ParametersType

structure QueryStringDecoder where
  uri : Text
  path : Text
  params : ParametersType
  deriving DecidableEq, Repr

namespace QueryStringDecoder

def fresh (uri : Text) : QueryStringDecoder := ⟨uri, [], []⟩

def addParam (name value : Text) : Exec ParametersType Unit :=
  modify fun params => params.addParam name value

def decodeComponent (s : Text) : Exec ParametersType Text := call (URI.decode s)

/-- The loop of `decodeParams` over what is left of the string. The region is what lies between the
beginning of the unprocessed characters and the current one. -/
def decodeRest (name region : Text) : Text → Exec ParametersType Unit
  | [] =>
      if region ≠ [] then
        if name = [] then do
          let component ← decodeComponent region
          addParam component []
        else do
          let component ← decodeComponent region
          addParam name component
      else if name ≠ [] then addParam name []
      else pure ()
  | c :: rest =>
      if c = 61 ∧ name = [] then
        if region ≠ [] then do
          let component ← decodeComponent region
          decodeRest component [] rest
        else decodeRest name [] rest
      else if c = 38 then
        if name = [] ∧ region ≠ [] then do
          let component ← decodeComponent region
          addParam component []
          decodeRest name [] rest
        else if name ≠ [] then do
          let component ← decodeComponent region
          addParam name component
          decodeRest [] [] rest
        else decodeRest name [] rest
      else decodeRest name (region ++ [c]) rest

def decodeParams (s : Text) : Exec ParametersType Unit := decodeRest [] [] s

/-- The path is made when it is asked for. -/
def getPath : Exec QueryStringDecoder Text := do
  let decoder ← get
  if decoder.path = [] then
    let path := decoder.uri.takeWhile (· != 63)
    set { decoder with path }
    pure path
  else pure decoder.path

def onParams (program : Exec ParametersType Unit) : Exec QueryStringDecoder Unit :=
  focus QueryStringDecoder.params (fun decoder params => { decoder with params }) program

def getParameters : Exec QueryStringDecoder ParametersType := do
  if (← get).params = [] then
    let path ← getPath
    let decoder ← get
    if decoder.uri.length ≠ path.length then
      onParams (decodeParams (decoder.uri.drop (path.length + 1)))
  pure (← get).params

end QueryStringDecoder

end Cetty
