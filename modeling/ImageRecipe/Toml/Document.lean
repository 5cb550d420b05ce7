import ImageRecipe.Toml.Scalar
import ImageRecipe.Toml.Table

/-!
# TOML documents

A document is a list of lines: members of the current table, and headers that
change the current table. Arrays and written tables may go over several lines
and may have a comma at their end.
-/
namespace ImageRecipe.Toml

open Text

/-- The characters of a value without quotes or brackets. -/
def isBareChar (c : Char) : Bool := c.isAlphanum || "+-_.:".toList.contains c

/-- The item that a word is. -/
def bareItem? (word : List Char) : Option Item :=
  if word == "true".toList then some (.bool true)
  else if word == "false".toList then some (.bool false)
  else
    match integer? word, float? word with
    | some i, _ => some (.integer i)
    | none, some x => some (.float x)
    | none, none => if isMoment word then some .moment else none

/-- A value that is a word; only between a date and a time it may hold a space. -/
def bare? : Reader Item := fun s =>
  let word := s.takeWhile isBareChar
  let rest := s.dropWhile isBareChar
  let longer := word ++ ' ' :: (rest.drop 1).takeWhile isBareChar
  if rest.head? == some ' ' && isMoment longer then
    some (.moment, (rest.drop 1).dropWhile isBareChar)
  else (bareItem? word).map fun item => (item, rest)

/-- A key, an equals sign and a value. -/
def member? (value : Reader Item) : Reader (Key × Item) := fun s => do
  let (key, rest) ← key? s
  let rest ← after? ['='] (skipSpaces rest)
  let (item, rest) ← value (skipSpaces rest)
  some ((key, item), rest)

/-- The elements of an array up to its closing bracket; `fuel` bounds their number. -/
def items? (value : Reader Item) : Nat → Reader (List Item)
  | 0, _ => none
  | fuel + 1, s =>
    match skipGap s with
    | ']' :: rest => some ([], rest)
    | s =>
      match value s with
      | none => none
      | some (item, rest) =>
        match skipGap rest with
        | ',' :: rest => (items? value fuel rest).map fun p => (item :: p.1, p.2)
        | ']' :: rest => some ([item], rest)
        | _ => none

/-- The members of a written table up to its closing brace, behind those in `done`; `fuel` bounds
their number. -/
def members? (value : Reader Item) : Nat → Members → Reader Members
  | 0, _, _ => none
  | fuel + 1, done, s =>
    match skipGap s with
    | '\x7d' :: rest => some (done, rest)
    | s =>
      match member? value s with
      | none => none
      | some ((key, item), rest) =>
        match done.define key item, skipGap rest with
        | some done, ',' :: rest => members? value fuel done rest
        | some done, '\x7d' :: rest => some (done, rest)
        | _, _ => none

/-- A string or a word. -/
def scalar? : Reader Item := fun s =>
  match s with
  | '"' :: _ | '\'' :: _ => (string? s).map fun p => (.text (String.ofList p.1), p.2)
  | _ => bare? s

/-- A value in which at most `depth` arrays and tables stand inside each other. -/
def value? : Nat → Reader Item
  | 0, s => scalar? s
  | depth + 1, s =>
    match s with
    | '[' :: rest =>
      (items? (value? depth) (rest.length + 1) rest).map fun p => (.array p.1, p.2)
    | '\x7b' :: rest =>
      (members? (value? depth) (rest.length + 1) [] rest).map fun p => (.table .written p.1, p.2)
    | s => scalar? s

/-- How many arrays and tables may stand inside each other. -/
def maxNesting : Nat := 80

/-- The members that were read so far and the path to the current table. -/
structure Progress where
  members : Members
  current : List String

/-- A header behind its opening brackets, up to its closing ones. -/
def header? (closing : String) : Reader Key := fun s => do
  let (key, rest) ← key? (skipSpaces s)
  some (key, ← after? closing.toList (skipSpaces rest))

/-- A line that is not empty, without its end. -/
def statement? (progress : Progress) : Reader Progress := fun s =>
  match s with
  | '[' :: '[' :: rest => do
    let (key, rest) ← header? "]]" rest
    some (⟨← progress.members.openElement key, key.tables ++ [key.name]⟩, rest)
  | '[' :: rest => do
    let (key, rest) ← header? "]" rest
    some (⟨← progress.members.openTable key, key.tables ++ [key.name]⟩, rest)
  | _ => do
    let ((key, item), rest) ← member? (value? maxNesting) s
    let members ← progress.members.editAt false (fun _ inner => inner.define key item)
      progress.current .header
    some (⟨members, progress.current⟩, rest)

/-- Reads all lines; `fuel` bounds their number. -/
def lines? : Nat → Progress → List Char → Option Members
  | 0, _, _ => none
  | fuel + 1, progress, s =>
    match lineEnd? s with
    | some [] => some progress.members
    | some rest => lines? fuel progress rest
    | none =>
      match statement? progress (skipSpaces s) with
      | none => none
      | some (progress, rest) =>
        match lineEnd? rest with
        | some [] => some progress.members
        | some rest => lines? fuel progress rest
        | none => none

/-- The members of a document, before which a byte order mark may stand. -/
def document? (s : String) : Option Members :=
  let chars := match s.toList with
    | '\uFEFF' :: rest => rest
    | chars => chars
  lines? (chars.length + 1) ⟨[], []⟩ chars

end ImageRecipe.Toml
