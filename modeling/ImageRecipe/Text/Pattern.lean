import ImageRecipe.Text.Search

/-!
# Patterns in a text

A pattern is a reader that takes something off the front of a text. It is
looked for at every place from left to right, and the first place where it
reads something counts.
-/
namespace ImageRecipe.Text

/-- The longest run of characters with `p` at the front, unless it is empty, and what follows. -/
def run? (p : Char → Bool) (s : List Char) : Option (List Char × List Char) :=
  match s.takeWhile p with
  | [] => none
  | run => some (run, s.dropWhile p)

theorem eq_of_run?_eq_some {p : Char → Bool} {s run rest : List Char}
    (h : run? p s = some (run, rest)) : s = run ++ rest := by
  unfold run? at h
  split at h
  · simp at h
  · simp only [Option.some.injEq, Prod.mk.injEq] at h
    rw [← h.1, ← h.2, List.takeWhile_append_dropWhile]

/-- Reads behind a label and the blanks that follow it. -/
def labelled? {α : Type} (label : String) (read : List Char → Option α) (s : List Char) :
    Option α :=
  (after? label.toList s).bind fun rest => read (trimStart rest)

/-- What is read at the first place where something is. -/
def firstAt? {α : Type} (read : List Char → Option α) : List Char → Option α
  | [] => read []
  | c :: s =>
    match read (c :: s) with
    | some a => some a
    | none => firstAt? read s

/-- What stands before the first place where something is read, and what is read there. -/
def cutAt? {α : Type} (read : List Char → Option α) : List Char → Option (List Char × α)
  | [] => (read []).map fun a => ([], a)
  | c :: s =>
    match read (c :: s) with
    | some a => some ([], a)
    | none => (cutAt? read s).map fun found => (c :: found.1, found.2)

end ImageRecipe.Text
