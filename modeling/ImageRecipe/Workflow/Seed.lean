import ImageRecipe.Json.Basic
import ImageRecipe.Text.Blank
import ImageRecipe.Text.Numeral

/-!
# Seeds

A seed is a number of 64 bits. It is written as an integer, as decimal or
hexadecimal text, or as an object with a base and an offset, which are added
modulo `2 ^ 64`. Negative numbers ask for a random seed and are no seeds.
-/
namespace ImageRecipe.Seed

/-- Hexadecimal digits behind `0x`, or hexadecimal digits with a letter among them. -/
def hexText? (s : List Char) : Option Nat :=
  match s with
  | '0' :: 'x' :: digits => Text.hexDigits? digits
  | '0' :: 'X' :: digits => Text.hexDigits? digits
  | digits => if digits.any Char.isAlpha then Text.hexDigits? digits else none

/-- A seed in text: a decimal number with any plus signs before it, else a hexadecimal one. -/
def ofChars? (s : List Char) : Option UInt64 :=
  let s := Text.trim s
  if s.head? == some '-' then none
  else
    let inRange (n : Nat) : Option UInt64 := if n < UInt64.size then some (UInt64.ofNat n) else none
    match (Text.digits? (s.dropWhile (· == '+'))).bind inRange with
    | some n => some n
    | none => (hexText? s).bind inRange

def ofText? (s : String) : Option UInt64 := ofChars? s.toList

/-- A float that is a natural number of at most `2 ^ 64`; `2 ^ 64` itself is taken down by one. -/
def ofFloat? (x : Float) : Option UInt64 :=
  (Decimal.natural? x).bind fun n => if n ≤ UInt64.size then some (Decimal.saturated n) else none

def ofNumber? (n : Number) : Option UInt64 :=
  match n.natural? with
  | some seed => some seed
  | none => ofFloat? n.float

/-- The sum modulo `2 ^ 64`. -/
def derived (base offset : UInt64) : UInt64 := base + offset

/-- The seeds of an object's members that are looked up for a base or an offset. -/
def member? (names : List String) (seeds : List (String × Option UInt64)) : Option UInt64 :=
  (names.findSome? fun name => (seeds.find? (·.1 == name)).map (·.2)).join

def baseNames : List String := ["seed", "base_seed"]

def offsetNames : List String := ["offset", "seed_offset"]

/-- The seed of an object: the first base that is there has to be a seed; without an offset that
is a seed nothing is added. -/
def ofMembers? (seeds : List (String × Option UInt64)) : Option UInt64 :=
  (member? baseNames seeds).map fun base => derived base ((member? offsetNames seeds).getD 0)

mutual

def ofJson? : Json → Option UInt64
  | .num n => ofNumber? n
  | .str s => ofText? s
  | .obj members => ofMembers? (memberSeeds members)
  | _ => none

/-- The members of an object with the seed that each of them is. -/
def memberSeeds : List (String × Json) → List (String × Option UInt64)
  | [] => []
  | (name, value) :: rest => (name, ofJson? value) :: memberSeeds rest

end

end ImageRecipe.Seed
