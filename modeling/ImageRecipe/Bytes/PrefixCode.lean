import ImageRecipe.Bytes.Bits

/-!
# Canonical prefix codes

A canonical code is given by the length of each symbol's code word: shorter
words come first, and words of one length are numbered in the order of their
symbols. A symbol of length zero has no word.
-/
namespace ImageRecipe

/-- The longest code word. -/
def maxWordLength : Nat := 15

structure PrefixCode where
  /-- The number of words of the lengths one, two and so on. -/
  counts : List Nat
  /-- The symbols in the order of their words. -/
  symbols : Array Nat

namespace PrefixCode

/-- The symbols that have words of a length. -/
def ofLength (lengths : List Nat) (length : Nat) : List Nat :=
  lengths.zipIdx.filterMap fun (l, symbol) => if l == length then some symbol else none

/-- The share of all words of the greatest length that begin with a word of the code. -/
def share (counts : List Nat) : Nat :=
  counts.foldl (fun total count => 2 * total + count) 0

/-- The code with the given lengths. Every sequence of bits has to begin with a word, unless the
code `mayBePartial` and has one word at most. -/
def ofLengths? (mayBePartial : Bool) (lengths : List Nat) : Option PrefixCode :=
  let byLength := (List.range maxWordLength).map fun i => ofLength lengths (i + 1)
  let counts := byLength.map List.length
  let partialCode := mayBePartial && counts.foldl (· + ·) 0 ≤ 1
  if share counts == Nat.pow 2 maxWordLength || partialCode then
    some ⟨counts, byLength.flatten.toArray⟩
  else none

/-- Finds the word that begins with the bits of `word`. The words of the next length are those
from `first` on, and `index` words are shorter. -/
def symbolFrom (symbols : Array Nat) (word first index : Nat) : List Nat → BitReader Nat
  | [] => failure
  | count :: longer => do
    let word := 2 * word + (← BitReader.bit)
    if word < first + count then
      match symbols[index + (word - first)]? with
      | some symbol => return symbol
      | none => failure
    else symbolFrom symbols word (2 * (first + count)) (index + count) longer

/-- The symbol of the next word. -/
def symbol (code : PrefixCode) : BitReader Nat := symbolFrom code.symbols 0 0 0 code.counts

end PrefixCode

end ImageRecipe
