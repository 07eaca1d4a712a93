import Cetty.CLocale
import Cetty.Exceptions
import Cetty.MachineInt

/-!
# HTTP headers

A header is the list of its entries in the order they were added. The buckets of the hash table
hold the same entries; in the chain of a bucket the entry added last comes first.
-/

namespace Cetty

open CLocale MachineInt

namespace Character

def isWhitespace (ch : BitVec 8) : Bool := isspace ch

def isISOControl (ch : BitVec 8) : Bool := iscntrl ch

def isDigit (ch : BitVec 8) : Bool := isdigit ch

end Character

namespace HttpCodecUtil

def SP : BitVec 8 := 32

def HT : BitVec 8 := 9

def CR : BitVec 8 := 13

def LF : BitVec 8 := 10

def COLON : BitVec 8 := 58

def prohibitedInName (c : BitVec 8) : Bool :=
  c == 9 || c == 10 || c == 11 || c == 12 || c == 13 || c == SP || c == 44 || c == COLON ||
    c == 59 || c == 61

/-- A signed character is never above 127, so only the prohibited ones are found. -/
def validateHeaderName (name : Text) : Except Stop Unit :=
  if name.any prohibitedInName then
    throw (invalidArgumentException ("name contains one of the following prohibited characters: " ++
      "=,;: \\t\\r\\n\\v\\f: " ++ display name))
  else pure ()

inductive ValueState where
  | other
  | afterCR
  | afterLF
  deriving DecidableEq, Repr

def validateCharacter (value : Text) (state : ValueState) (c : BitVec 8) :
    Except Stop ValueState := do
  if c = 11 then
    throw (invalidArgumentException
      ("value contains a prohibited character '\\v': " ++ display value))
  if c = 12 then
    throw (invalidArgumentException
      ("value contains a prohibited character '\\f': " ++ display value))
  match state with
  | .other => pure (if c = CR then .afterCR else if c = LF then .afterLF else .other)
  | .afterCR =>
      if c = LF then pure .afterLF
      else throw (invalidArgumentException ("Only '\\n' is allowed after '\\r': " ++ display value))
  | .afterLF =>
      if c = HT ∨ c = SP then pure .other
      else throw (invalidArgumentException
        ("Only ' ' and '\\t' are allowed after '\\n': " ++ display value))

def validateHeaderValue (value : Text) : Except Stop Unit := do
  let state ← value.foldlM (validateCharacter value) .other
  if state ≠ .other then
    throw (invalidArgumentException
      ("value must not end with '\\r' or '\\n':" ++ display value))

end HttpCodecUtil

namespace DefaultHttpHeader

/-- The characters are taken from the last to the first. -/
def hash (name : Text) : Int :=
  let h := name.foldr (fun c h => int32 (31 * h + (tolower c).toInt)) 0
  if 0 < h then h else if h = minInt then maxInt else -h

def BUCKET_SIZE : Int := 17

def index (hash : Int) : Int := hash.tmod BUCKET_SIZE

def eq (name1 name2 : Text) : Bool := name1.map tolower == name2.map tolower

structure Entry where
  key : Text
  value : Text
  deriving DecidableEq, Repr

namespace Entry

def hash (e : Entry) : Int := DefaultHttpHeader.hash e.key

/-- What the searches of a bucket compare. -/
def named (e : Entry) (name : Text) : Bool := e.hash == DefaultHttpHeader.hash name && eq name e.key

end Entry

end DefaultHttpHeader

structure DefaultHttpHeader where
  entries : List DefaultHttpHeader.Entry
  deriving DecidableEq, Repr

namespace DefaultHttpHeader

def fresh : DefaultHttpHeader := ⟨[]⟩

def bucket (this : DefaultHttpHeader) (i : Int) : List Entry :=
  (this.entries.filter fun e => index e.hash == i).reverse

def get (this : DefaultHttpHeader) (name : Text) : Text :=
  if name = [] then []
  else
    match (this.bucket (index (hash name))).find? fun e => e.named name with
    | some e => e.value
    | none => []

def gets (this : DefaultHttpHeader) (name : Text) : List Text :=
  if name = [] then []
  else ((this.bucket (index (hash name))).filter fun e => e.named name).map Entry.value

/-- `gets()`, every header in order. -/
def getAll (this : DefaultHttpHeader) : List (Text × Text) :=
  this.entries.map fun e => (e.key, e.value)

def contains (this : DefaultHttpHeader) (name : Text) : Bool := this.get name != []

def addHeader (this : DefaultHttpHeader) (name value : Text) : DefaultHttpHeader :=
  ⟨this.entries ++ [⟨name, value⟩]⟩

def add (this : DefaultHttpHeader) (name value : Text) : Except Stop DefaultHttpHeader := do
  HttpCodecUtil.validateHeaderName name
  HttpCodecUtil.validateHeaderValue value
  pure (this.addHeader name value)

def remove (this : DefaultHttpHeader) (name : Text) : DefaultHttpHeader :=
  if name = [] then this else ⟨this.entries.filter fun e => !e.named name⟩

end DefaultHttpHeader

namespace HttpHeaders.Names

def CONTENT_LENGTH : Text := text "Content-Length"

def EXPECT : Text := text "Expect"

def SEC_WEBSOCKET_KEY1 : Text := text "Sec-WebSocket-Key1"

def SEC_WEBSOCKET_KEY2 : Text := text "Sec-WebSocket-Key2"

def SEC_WEBSOCKET_LOCATION : Text := text "Sec-WebSocket-Location"

def SEC_WEBSOCKET_ORIGIN : Text := text "Sec-WebSocket-Origin"

def TRANSFER_ENCODING : Text := text "Transfer-Encoding"

end HttpHeaders.Names

namespace HttpHeaders.Values

def CHUNKED : Text := text "chunked"

def CONTINUE : Text := text "100-continue"

end HttpHeaders.Values

namespace DefaultHttpHeader

variable {this : DefaultHttpHeader} {name value : Text} {e : Entry}

theorem hash_of_eq {name1 name2 : Text} (same : eq name1 name2 = true) :
    hash name1 = hash name2 := by
  have lower : name1.map tolower = name2.map tolower := eq_of_beq same
  have folded : ∀ characters : Text,
      characters.foldr (fun c h => int32 (31 * h + (tolower c).toInt)) 0 =
        (characters.map tolower).foldr (fun c h => int32 (31 * h + c.toInt)) 0 := by
    intro characters
    rw [List.foldr_map]
  unfold hash
  rw [folded, folded, lower]

end DefaultHttpHeader

end Cetty
