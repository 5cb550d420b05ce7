import ImageRecipe.Text.Blank

/-!
# Finding one text inside another

Searching takes the leftmost place. Comparing without regard to case folds the
letters A to Z only; `folded` also folds the two other characters whose lower
case form shows an ASCII letter, so that an ASCII needle is found in a text
exactly if it is found in the lower-cased text.
-/
namespace ImageRecipe.Text

/-- What follows `front` in a text that begins with it. -/
def after? : List Char → List Char → Option (List Char)
  | [], s => some s
  | c :: front, d :: s => if c == d then after? front s else none
  | _ :: _, [] => none

theorem after?_eq_some_iff {front s rest : List Char} :
    after? front s = some rest ↔ s = front ++ rest := by
  induction front generalizing s with
  | nil => simp [after?]
  | cons c front ih =>
    cases s with
    | nil => simp [after?]
    | cons d s =>
      by_cases h : c = d
      · simp [after?, h, ih]
      · simp [after?, h, Ne.symm h]

theorem length_eq_of_after? {front s rest : List Char} (h : after? front s = some rest) :
    s.length = front.length + rest.length := by
  simp [after?_eq_some_iff.1 h]

/-- Whether a text begins with `front`. -/
def beginsWith (front s : List Char) : Bool := (after? front s).isSome

/-- What stands before and after the leftmost place of `needle`. -/
def cut? (needle : List Char) : List Char → Option (List Char × List Char)
  | [] => if needle.isEmpty then some ([], []) else none
  | c :: s =>
    match after? needle (c :: s) with
    | some after => some ([], after)
    | none => (cut? needle s).map fun halves => (c :: halves.1, halves.2)

theorem eq_of_cut?_eq_some {needle s before after : List Char}
    (h : cut? needle s = some (before, after)) : s = before ++ needle ++ after := by
  induction s generalizing before with
  | nil =>
    cases needle <;> simp_all [cut?]
  | cons c s ih =>
    unfold cut? at h
    split at h
    · rename_i found
      simp only [Option.some.injEq, Prod.mk.injEq] at h
      obtain ⟨rfl, rfl⟩ := h
      simpa using after?_eq_some_iff.1 found
    · simp only [Option.map_eq_some_iff, Prod.mk.injEq] at h
      obtain ⟨⟨b, a⟩, hb, rfl, rfl⟩ := h
      simp [ih hb]

def contains (needle s : List Char) : Bool := (cut? needle s).isSome

/-- Whether the string `s` holds the string `needle`. -/
def holds (needle s : String) : Bool := contains needle.toList s.toList

/-- The pieces between the places of `needle`, found from left to right; `fuel` bounds their
number. -/
def pieces (needle : List Char) : Nat → List Char → List (List Char)
  | 0, s => [s]
  | fuel + 1, s =>
    match cut? needle s with
    | none => [s]
    | some (before, after) => before :: pieces needle fuel after

/-- Cuts `s` at every place of `needle`. -/
def splitAt (needle s : List Char) : List (List Char) := pieces needle s.length s

/-- Whether two keywords are the same up to the case of the letters A to Z. -/
def sameKeyword (a b : String) : Bool := a.toList.map Char.toLower == b.toList.map Char.toLower

/-- The lower case of one character as far as ASCII letters show: the Kelvin sign is a k, and
the capital I with a dot is an i followed by a combining dot. -/
def foldChar (c : Char) : List Char :=
  if c == '\u212A' then ['k']
  else if c == '\u0130' then ['i', '\u0307']
  else [c.toLower]

/-- The text in which an ASCII needle is to be found without regard to case. -/
def folded (s : List Char) : List Char := s.flatMap foldChar

/-- Whether the lower-cased text holds an ASCII needle. -/
def mentions (needle s : String) : Bool := contains needle.toList (folded s.toList)

end ImageRecipe.Text
