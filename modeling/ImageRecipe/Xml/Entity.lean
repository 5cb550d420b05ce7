import ImageRecipe.Text.Numeral
import ImageRecipe.Text.Search

/-!
# Entities

The five named entities and the numbers of characters. Names are replaced
before numbers, each in one pass from left to right; what is no reference to a
character stays as it is.
-/
namespace ImageRecipe.Xml

def namedEntities : List (String × Char) :=
  [("&amp;", '&'), ("&lt;", '<'), ("&gt;", '>'), ("&quot;", '"'), ("&apos;", '\'')]

/-- The character that a named entity at the front stands for, and what follows it. -/
def named? (s : List Char) : Option (Char × List Char) :=
  namedEntities.findSome? fun entity =>
    (Text.after? entity.1.toList s).map fun rest => (entity.2, rest)

/-- The character with a number, if there is one. -/
def charOfNumber? (n : Nat) : Option Char := if n.isValidChar then some (Char.ofNat n) else none

/-- The character whose number stands at the front with a semicolon behind it, and what follows;
`value?` reads the digits. -/
def numberedBy? (isDigit : Char → Bool) (value? : List Char → Option Nat) (s : List Char) :
    Option (Char × List Char) := do
  let n ← value? (s.takeWhile isDigit)
  match s.dropWhile isDigit with
  | ';' :: rest => (charOfNumber? n).map fun c => (c, rest)
  | _ => none

/-- The character whose number is referred to at the front, and what follows it. -/
def numbered? (s : List Char) : Option (Char × List Char) := do
  match ← Text.after? "&#".toList s with
  | 'x' :: s => numberedBy? Text.isHexDigit Text.hexDigits? s
  | s => numberedBy? Char.isDigit Text.digits? s

theorem named?_length_lt {s rest : List Char} {c : Char} (h : named? s = some (c, rest)) :
    rest.length < s.length := by
  obtain ⟨entity, mem, h⟩ := List.exists_of_findSome?_eq_some h
  simp only [Option.map_eq_some_iff, Prod.mk.injEq] at h
  obtain ⟨rest', found, -, rfl⟩ := h
  have pos : 0 < entity.1.toList.length :=
    (by decide : ∀ e ∈ namedEntities, 0 < e.1.toList.length) entity mem
  have := Text.length_eq_of_after? found
  omega

theorem numberedBy?_length_lt {isDigit : Char → Bool} {value? : List Char → Option Nat}
    {s rest : List Char} {c : Char} (h : numberedBy? isDigit value? s = some (c, rest)) :
    rest.length < s.length := by
  simp only [numberedBy?, Option.bind_eq_bind, Option.bind_eq_some_iff] at h
  obtain ⟨n, -, h⟩ := h
  split at h
  · rename_i rest' heq
    simp only [Option.map_eq_some_iff, Prod.mk.injEq] at h
    obtain ⟨_, -, -, rfl⟩ := h
    have hle := (List.dropWhile_sublist (l := s) isDigit).length_le
    rw [heq] at hle
    exact hle
  · simp at h

theorem numbered?_length_lt {s rest : List Char} {c : Char}
    (h : numbered? s = some (c, rest)) : rest.length < s.length := by
  simp only [numbered?, Option.bind_eq_bind, Option.bind_eq_some_iff] at h
  obtain ⟨s', found, h⟩ := h
  have hs := Text.length_eq_of_after? found
  split at h <;> have := numberedBy?_length_lt h
  · simp only [List.length_cons] at hs
    omega
  · omega

/-- Puts the characters that `reference?` finds in the place of their references. -/
def replaceReferences (reference? : List Char → Option (Char × List Char))
    (shorter : ∀ {s rest c}, reference? s = some (c, rest) → rest.length < s.length)
    (s : List Char) : List Char :=
  match _h : reference? s with
  | some (c, rest) => c :: replaceReferences reference? shorter rest
  | none =>
    match s with
    | [] => []
    | c :: s => c :: replaceReferences reference? shorter s
termination_by s.length
decreasing_by
  · exact shorter ‹_›
  · simp

/-- The text that stands for itself once the references in it are replaced. -/
def unescape (s : List Char) : List Char :=
  replaceReferences numbered? numbered?_length_lt (replaceReferences named? named?_length_lt s)

end ImageRecipe.Xml
