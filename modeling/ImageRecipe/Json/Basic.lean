import ImageRecipe.Decimal.Binary

/-!
# JSON values

Numbers are integers between `-2 ^ 63` and `2 ^ 64 - 1` or floats; the members
of an object keep their order. Reading a member of anything but an object, and
an element of anything but an array, gives nothing.
-/
namespace ImageRecipe

inductive Number where
  | int (value : Int)
  | real (value : Float)
  deriving BEq, Repr

inductive Json where
  | null
  | bool (value : Bool)
  | num (value : Number)
  | str (value : String)
  | arr (items : List Json)
  | obj (members : List (String × Json))
  deriving BEq, Repr, Inhabited

namespace Number

/-- The number as an unsigned one of 64 bits, if it was written as an integer in that range. -/
def natural? : Number → Option UInt64
  | .int i => if 0 ≤ i && i < UInt64.size then some (UInt64.ofNat i.toNat) else none
  | .real _ => none

/-- The number as a signed one of 64 bits, if it was written as an integer in that range. -/
def integer? : Number → Option Int
  | .int i => if -(Nat.pow 2 63 : Int) ≤ i && i < Nat.pow 2 63 then some i else none
  | .real _ => none

/-- The nearest float. -/
def float : Number → Float
  | .int i => if i < 0 then -(UInt64.ofNat i.natAbs).toFloat else (UInt64.ofNat i.natAbs).toFloat
  | .real x => x

end Number

namespace Json

/-- The value of the first member with the name `key` in a member list. -/
def lookup? (key : String) : List (String × Json) → Option Json
  | [] => none
  | (name, value) :: rest => if name == key then some value else lookup? key rest

/-- The member `key` of an object. -/
def get? (value : Json) (key : String) : Option Json :=
  match value with
  | .obj members => lookup? key members
  | _ => none

/-- Sets a member: a name that is there keeps its place and takes the new value, a new name goes
to the end. -/
def setMember (key : String) (value : Json) : List (String × Json) → List (String × Json)
  | [] => [(key, value)]
  | (name, old) :: rest =>
    if name == key then (name, value) :: rest else (name, old) :: setMember key value rest

def isNull : Json → Bool
  | .null => true
  | _ => false

def isObject : Json → Bool
  | .obj _ => true
  | _ => false

def isContainer : Json → Bool
  | .obj _ => true
  | .arr _ => true
  | _ => false

def isString : Json → Bool
  | .str _ => true
  | _ => false

def isNumber : Json → Bool
  | .num _ => true
  | _ => false

/-- A number, string or truth value. -/
def isScalar : Json → Bool
  | .num _ => true
  | .str _ => true
  | .bool _ => true
  | _ => false

def string? : Json → Option String
  | .str s => some s
  | _ => none

def bool? : Json → Option Bool
  | .bool b => some b
  | _ => none

def array? : Json → Option (List Json)
  | .arr items => some items
  | _ => none

def object? : Json → Option (List (String × Json))
  | .obj members => some members
  | _ => none

def natural? : Json → Option UInt64
  | .num n => n.natural?
  | _ => none

def integer? : Json → Option Int
  | .num n => n.integer?
  | _ => none

def float? : Json → Option Float
  | .num n => some n.float
  | _ => none

/-- A natural number of 64 bits as a value. -/
def ofNatural (n : UInt64) : Json := .num (.int n.toNat)

end Json

end ImageRecipe
