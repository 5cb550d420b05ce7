/-!
# Blanks, lines and words

A blank is a character with the Unicode property White_Space. Trimming takes
blanks off the ends of a text, a line ends at a line feed, and a word is a
longest run without blanks. Texts are lists of characters here; `trimmed` and
`nonBlank?` are the same rules on strings.
-/
namespace ImageRecipe.Text

/-- The characters with the property White_Space. -/
def isBlank (c : Char) : Bool :=
  let n := c.toNat
  (9 ≤ n && n ≤ 13) || n == 0x20 || n == 0x85 || n == 0xA0 || n == 0x1680 ||
    (0x2000 ≤ n && n ≤ 0x200A) || n == 0x2028 || n == 0x2029 || n == 0x202F ||
    n == 0x205F || n == 0x3000

/-- Drops the longest run at the end whose characters all satisfy `p`. -/
def dropEndWhile (p : Char → Bool) (s : List Char) : List Char :=
  (s.reverse.dropWhile p).reverse

def trimStart (s : List Char) : List Char := s.dropWhile isBlank

def trimEnd (s : List Char) : List Char := dropEndWhile isBlank s

def trim (s : List Char) : List Char := trimEnd (trimStart s)

/-- A string without the blanks at its ends. -/
def trimmed (s : String) : String := String.ofList (trim s.toList)

/-- A string without the blanks at its ends, if anything else is left. -/
def nonBlank? (s : String) : Option String :=
  let t := trimmed s
  if t.isEmpty then none else some t

/-- Cuts at every character that satisfies `p`; `n` cuts give `n + 1` pieces. -/
def split (p : Char → Bool) : List Char → List (List Char)
  | [] => [[]]
  | c :: s =>
    if p c then [] :: split p s
    else match split p s with
      | [] => [[c]]
      | piece :: rest => (c :: piece) :: rest

/-- Cuts at the first character that satisfies `p`, which is in neither half. -/
def splitOnce? (p : Char → Bool) : List Char → Option (List Char × List Char)
  | [] => none
  | c :: s =>
    if p c then some ([], s)
    else (splitOnce? p s).map fun halves => (c :: halves.1, halves.2)

theorem eq_of_splitOnce?_eq_some {p : Char → Bool} {s before after : List Char}
    (h : splitOnce? p s = some (before, after)) : ∃ c, p c ∧ s = before ++ c :: after := by
  induction s generalizing before with
  | nil => simp [splitOnce?] at h
  | cons d s ih =>
    by_cases hd : p d
    · simp only [splitOnce?, hd, if_true, Option.some.injEq, Prod.mk.injEq] at h
      exact ⟨d, hd, by simp [← h.1, h.2]⟩
    · simp only [splitOnce?, hd, Bool.false_eq_true, if_false, Option.map_eq_some_iff,
        Prod.mk.injEq] at h
      obtain ⟨⟨before', after'⟩, hs, rfl, rfl⟩ := h
      obtain ⟨c, hc, rfl⟩ := ih hs
      exact ⟨c, hc, rfl⟩

theorem splitOnce?_length_lt {p : Char → Bool} {s before after : List Char}
    (h : splitOnce? p s = some (before, after)) : after.length < s.length := by
  obtain ⟨c, -, rfl⟩ := eq_of_splitOnce?_eq_some h
  simp only [List.length_append, List.length_cons]
  omega

/-- A line without the carriage return that stands before its line feed. -/
def chompReturn (line : List Char) : List Char :=
  if line.getLast? = some '\r' then line.dropLast else line

/-- The pieces between line feeds. Every piece but the last was ended by a line feed and
loses a carriage return before it; an empty last piece is no line. -/
def linesOf : List (List Char) → List (List Char)
  | [] => []
  | [last] => if last.isEmpty then [] else [last]
  | line :: rest => chompReturn line :: linesOf rest

def lines (s : List Char) : List (List Char) := linesOf (split (· == '\n') s)

/-- The longest runs without blanks. -/
def words (s : List Char) : List (List Char) :=
  (split isBlank s).filter (fun w => !w.isEmpty)

end ImageRecipe.Text
