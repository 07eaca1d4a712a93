import Mathlib.Data.List.Basic

/-!
# Characters and strings of the C locale

What `ctype.h`, `stdlib.h` and `scanf` do with bytes in the C locale. A string is the list of its
characters; the characters above 127 are in no class and have no other case.
-/

namespace CLocale

abbrev Text := List (BitVec 8)

def text (literal : String) : Text := literal.toList.map fun c => BitVec.ofNat 8 c.toNat

def display (characters : Text) : String :=
  String.ofList (characters.map fun c => Char.ofNat c.toNat)

def isspace (c : BitVec 8) : Bool := c == 32 || (9 ≤ c.toNat && c.toNat ≤ 13)

def iscntrl (c : BitVec 8) : Bool := c.toNat < 32 || c == 127

def isdigit (c : BitVec 8) : Bool := 48 ≤ c.toNat && c.toNat ≤ 57

def toupper (c : BitVec 8) : BitVec 8 := if 97 ≤ c.toNat ∧ c.toNat ≤ 122 then c - 32 else c

def tolower (c : BitVec 8) : BitVec 8 := if 65 ≤ c.toNat ∧ c.toNat ≤ 90 then c + 32 else c

/-- `boost::trim_copy`. -/
def trim (characters : Text) : Text :=
  (((characters.dropWhile isspace).reverse).dropWhile isspace).reverse

def toUpper (characters : Text) : Text := characters.map toupper

/-- `boost::algorithm::iequals`. -/
def iequals (first second : Text) : Bool := toUpper first == toUpper second

def digits (characters : Text) : Nat :=
  characters.foldl (fun value c => value * 10 + (c.toNat - 48)) 0

/-- A sign and what follows it. -/
def signed (characters : Text) : Bool × Text :=
  match characters with
  | [] => (false, [])
  | c :: rest => if c = 45 then (true, rest) else if c = 43 then (false, rest) else (false, c :: rest)

/-- `strtol` with base ten, of a 64-bit `long`. -/
def strtol (characters : Text) : Int :=
  let (negative, rest) := signed (characters.dropWhile isspace)
  let value := digits (rest.takeWhile isdigit)
  if negative then -(min value 9223372036854775808 : Nat) else (min value 9223372036854775807 : Nat)

def xdigit (c : BitVec 8) : Option Nat :=
  if isdigit c then some (c.toNat - 48)
  else if 65 ≤ c.toNat ∧ c.toNat ≤ 70 then some (c.toNat - 55)
  else if 97 ≤ c.toNat ∧ c.toNat ≤ 102 then some (c.toNat - 87)
  else none

def hexadecimal (characters : Text) : Nat :=
  characters.foldl (fun value c => value * 16 + (xdigit c).getD 0) 0

/-- The prefix that may stand in front of hexadecimal digits. -/
def bareHex (characters : Text) : Text :=
  match characters with
  | zero :: x :: c :: rest =>
      if zero = 48 ∧ (x = 120 ∨ x = 88) ∧ (xdigit c).isSome then c :: rest
      else zero :: x :: c :: rest
  | _ => characters

/-- `sscanf(s, "%x%c", ..)` when it returns 1: digits to the end of the string. -/
def scanHex (characters : Text) : Option Nat :=
  let (negative, rest) := signed (characters.dropWhile isspace)
  let item := bareHex rest
  if item = [] ∨ item.any (fun c => (xdigit c).isNone) then none
  else
    let value := min (hexadecimal item) 18446744073709551615
    if negative then some ((18446744073709551616 - value) % 4294967296)
    else some (value % 4294967296)

theorem dropWhile_none {test : BitVec 8 → Bool} {characters : Text}
    (none : ∀ c, characters.head? = some c → test c = false) :
    characters.dropWhile test = characters := by
  cases characters with
  | nil => rfl
  | cons first rest => rw [List.dropWhile_cons, none first rfl, if_neg Bool.false_ne_true]

/-- Nothing is trimmed where neither end is blank. -/
theorem trim_none {characters : Text} (none : ∀ c ∈ characters, isspace c = false) :
    trim characters = characters := by
  have front : characters.dropWhile isspace = characters := by
    apply dropWhile_none
    intro c first
    exact none c (List.mem_of_mem_head? first)
  have back : characters.reverse.dropWhile isspace = characters.reverse := by
    apply dropWhile_none
    intro c first
    exact none c (List.mem_reverse.mp (List.mem_of_mem_head? first))
  rw [trim, front, back, List.reverse_reverse]

end CLocale
