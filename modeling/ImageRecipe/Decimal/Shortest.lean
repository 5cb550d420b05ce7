import ImageRecipe.Decimal.Binary

/-!
# The shortest decimal that reads back

Every float is the nearest float to an interval of reals. Of the decimals in
that interval those with the fewest digits are taken, of these the nearest to
the float, and of two equally near ones the one with an even last digit.
-/
namespace ImageRecipe.Decimal

/-- The decimal `digits * 10 ^ exponent`. -/
structure Scientific where
  digits : Nat
  exponent : Int
  deriving Repr, DecidableEq

/-- Compares `a * 10 ^ i` with `n * 2 ^ j`. -/
def compareScaled (a : Nat) (i : Int) (n : Nat) (j : Int) : Ordering :=
  compare (a * Nat.pow 10 i.toNat * Nat.pow 2 (-j).toNat)
    (n * Nat.pow 2 j.toNat * Nat.pow 10 (-i).toNat)

/-- Whether a decimal lies among the reals whose nearest float is `b`. The ends of the interval
belong to it if the mantissa is even. -/
def Binary.readsBack (b : Binary) (d : Scientific) : Bool :=
  let low := if b.narrowBelow then 4 * b.mantissa - 1 else 4 * b.mantissa - 2
  let high := 4 * b.mantissa + 2
  let ends := b.mantissa % 2 == 0
  let aboveLow := compareScaled d.digits d.exponent low (b.exponent - 2)
  let belowHigh := compareScaled d.digits d.exponent high (b.exponent - 2)
  (aboveLow == .gt || (ends && aboveLow == .eq)) &&
    (belowHigh == .lt || (ends && belowHigh == .eq))

/-- The least `k` with the magnitude below `10 ^ k`, for a magnitude above zero. The guess from
the binary logarithm is at most two too low and never too high. -/
def Binary.magnitude (b : Binary) : Int :=
  let guess := ((b.mantissa.log2 : Int) + b.exponent) * 1233 / 4096 - 1
  match (List.range 5).find? fun (i : Nat) =>
      compareScaled 1 (guess + i) b.mantissa b.exponent == .gt with
  | some i => guess + i
  | none => guess + 5

/-- The whole number of steps of `10 ^ k` in the magnitude. -/
def Binary.floorAt (b : Binary) (k : Int) : Nat :=
  (b.mantissa * Nat.pow 2 b.exponent.toNat * Nat.pow 10 (-k).toNat) /
    (Nat.pow 10 k.toNat * Nat.pow 2 (-b.exponent).toNat)

/-- Whether the lower of two neighbours on the grid of `10 ^ k` is to be taken. -/
def Binary.lowerIsNearer (b : Binary) (low : Nat) (k : Int) : Bool :=
  match compareScaled (2 * low + 1) k (2 * b.mantissa) b.exponent with
  | .gt => true
  | .lt => false
  | .eq => low % 2 == 0

/-- The better of the two neighbours with `n` digits, if one of them reads back. -/
def Binary.withDigits? (b : Binary) (magnitude : Int) (n : Nat) : Option Scientific :=
  let k := magnitude - n
  let low := b.floorAt k
  let below : Scientific := ⟨low, k⟩
  let above : Scientific := ⟨low + 1, k⟩
  match b.readsBack below, b.readsBack above with
  | true, true => some (if b.lowerIsNearer low k then below else above)
  | true, false => some below
  | false, true => some above
  | false, false => none

/-- Moves zeros at the end of the digits into the exponent; `fuel` bounds their number. -/
def Scientific.strip : Nat → Scientific → Scientific
  | 0, d => d
  | fuel + 1, d =>
    if d.digits != 0 && d.digits % 10 == 0 then strip fuel ⟨d.digits / 10, d.exponent + 1⟩ else d

/-- The exact value, for which a decimal always exists. -/
def Binary.exact (b : Binary) : Scientific :=
  if 0 ≤ b.exponent then ⟨b.mantissa * Nat.pow 2 b.exponent.toNat, 0⟩
  else ⟨b.mantissa * Nat.pow 5 (-b.exponent).toNat, b.exponent⟩

/-- The shortest decimal of a magnitude above zero. -/
def Binary.shortest (b : Binary) : Scientific :=
  let magnitude := b.magnitude
  match (List.range 17).findSome? fun i => b.withDigits? magnitude (i + 1) with
  | some d => d.strip 20
  | none => b.exact

end ImageRecipe.Decimal
