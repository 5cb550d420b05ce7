/-!
# Floats as exact numbers

A finite float is a natural number times a power of two. The conversions to
whole numbers and the search for short decimals are done on that pair, in exact
arithmetic on naturals.
-/
namespace ImageRecipe.Decimal

/-- The magnitude `mantissa * 2 ^ exponent` of a finite float. -/
structure Binary where
  mantissa : Nat
  exponent : Int
  /-- The float below is half as far away as the float above. -/
  narrowBelow : Bool
  deriving Repr, DecidableEq

def isNegative (x : Float) : Bool := (x.toBits >>> 63) == 1

/-- The eleven bits of the exponent field. -/
def exponentField (bits : UInt64) : Nat := ((bits >>> 52) &&& 0x7FF).toNat

/-- The fifty-two bits of the fraction field. -/
def fractionField (bits : UInt64) : Nat := (bits &&& 0xFFFFFFFFFFFFF).toNat

/-- Neither infinite nor NaN. -/
def isFinite (x : Float) : Bool := exponentField x.toBits != 0x7FF

def isNaN (x : Float) : Bool :=
  exponentField x.toBits == 0x7FF && fractionField x.toBits != 0

/-- The magnitude that the fields of a finite float stand for. -/
def Binary.ofFields (exponent fraction : Nat) : Binary :=
  if exponent == 0 then ⟨fraction, -1074, false⟩
  else ⟨Nat.pow 2 52 + fraction, (exponent : Int) - 1075, fraction == 0 && exponent > 1⟩

/-- The magnitude of a finite float. -/
def Binary.ofFloat? (x : Float) : Option Binary :=
  if isFinite x then some (.ofFields (exponentField x.toBits) (fractionField x.toBits)) else none

/-- The natural number that the magnitude is, if it is one. -/
def Binary.natural? (b : Binary) : Option Nat :=
  if 0 ≤ b.exponent then some (b.mantissa * Nat.pow 2 b.exponent.toNat)
  else
    let unit := Nat.pow 2 (-b.exponent).toNat
    if b.mantissa % unit == 0 then some (b.mantissa / unit) else none

/-- The nearest natural number, the larger one when two are equally near. -/
def Binary.rounded (b : Binary) : Nat :=
  if 0 ≤ b.exponent then b.mantissa * Nat.pow 2 b.exponent.toNat
  else
    let unit := Nat.pow 2 (-b.exponent).toNat
    (2 * b.mantissa + unit) / (2 * unit)

/-- The natural number that a float equals, if it equals one; minus zero equals zero. -/
def natural? (x : Float) : Option Nat :=
  match Binary.ofFloat? x with
  | none => none
  | some b => if isNegative x && b.mantissa != 0 then none else b.natural?

/-- A natural number in 64 bits, the largest such number if it is too large. -/
def saturated (n : Nat) : UInt64 := UInt64.ofNat (min n (UInt64.size - 1))

/-- The nearest 64-bit number: halves go up, what is below zero and NaN go to zero, and what is
too large goes to the largest number. -/
def rounded64 (x : Float) : UInt64 :=
  match Binary.ofFloat? x with
  | some b => if isNegative x then 0 else saturated b.rounded
  | none => if isNaN x || isNegative x then 0 else saturated UInt64.size

end ImageRecipe.Decimal
