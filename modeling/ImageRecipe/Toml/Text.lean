import ImageRecipe.Text.Numeral
import ImageRecipe.Text.Pattern

/-!
# Blanks, strings and keys in TOML

A string stands between one or three quotes of either kind; only between double
quotes there are escapes, and only between three quotes there are line breaks.
A key is a bare word or a string, and several with points between them name a
member inside other tables.
-/
namespace ImageRecipe.Toml

/-- A reader takes something off the front of a text and gives the rest. -/
abbrev Reader (α : Type) := List Char → Option (α × List Char)

def isSpace (c : Char) : Bool := c == ' ' || c == '\t'

def skipSpaces (s : List Char) : List Char := s.dropWhile isSpace

/-- The characters that may stand in a comment or a string: all but control characters. -/
def isPlain (c : Char) : Bool := c == '\t' || (0x20 ≤ c.toNat && c.toNat != 0x7F)

/-- What follows a line break. -/
def newline? : List Char → Option (List Char)
  | '\n' :: rest => some rest
  | '\r' :: '\n' :: rest => some rest
  | _ => none

def skipComment : List Char → List Char
  | '#' :: rest => rest.dropWhile isPlain
  | s => s

/-- What follows the end of a line, which may be the end of the text. -/
def lineEnd? (s : List Char) : Option (List Char) :=
  let rest := skipComment (skipSpaces s)
  if rest.isEmpty then some [] else newline? rest

/-- Skips spaces, comments and line breaks; `fuel` bounds the number of lines. -/
def skipLines : Nat → List Char → List Char
  | 0, s => s
  | fuel + 1, s =>
    let rest := skipComment (skipSpaces s)
    match newline? rest with
    | some rest => skipLines fuel rest
    | none => rest

def skipGap (s : List Char) : List Char := skipLines s.length s

/-- Skips spaces and line breaks; `fuel` bounds the number of lines. -/
def skipBreaks : Nat → List Char → List Char
  | 0, s => s
  | fuel + 1, s =>
    let rest := skipSpaces s
    match newline? rest with
    | some rest => skipBreaks fuel rest
    | none => rest

/-- The character that a number of hexadecimal digits stands for. -/
def hexEscape? (count : Nat) : Reader Char := fun s => do
  let code ← Text.hexDigits? (s.take count)
  if (s.take count).length == count && code.isValidChar then
    some (Char.ofNat code, s.drop count)
  else none

/-- The character that the text behind a backslash stands for. -/
def escape? : Reader Char
  | 'b' :: rest => some ('\x08', rest)
  | 't' :: rest => some ('\t', rest)
  | 'n' :: rest => some ('\n', rest)
  | 'f' :: rest => some ('\x0c', rest)
  | 'r' :: rest => some ('\r', rest)
  | 'e' :: rest => some ('\x1b', rest)
  | '"' :: rest => some ('"', rest)
  | '\\' :: rest => some ('\\', rest)
  | 'x' :: rest => hexEscape? 2 rest
  | 'u' :: rest => hexEscape? 4 rest
  | 'U' :: rest => hexEscape? 8 rest
  | _ => none

/-- The characters up to the closing double quote, behind those in `done`, which are in reverse;
`fuel` bounds their number. -/
def lineChars? : Nat → List Char → Reader (List Char)
  | 0, _, _ => none
  | _ + 1, _, [] => none
  | fuel + 1, done, c :: rest =>
    if c == '"' then some (done.reverse, rest)
    else if c == '\\' then
      match escape? rest with
      | some (e, rest) => lineChars? fuel (e :: done) rest
      | none => none
    else if isPlain c then lineChars? fuel (c :: done) rest
    else none

/-- The characters up to the closing single quote. -/
def literalChars? (s : List Char) : Option (List Char × List Char) :=
  match s.dropWhile fun c => isPlain c && c != '\'' with
  | '\'' :: rest => some (s.takeWhile fun c => isPlain c && c != '\'', rest)
  | _ => none

/-- Three closing quotes at the front, before which up to two more belong to the string. -/
def closing? (quote : Char) : Reader (List Char) := fun s =>
  let count := (s.takeWhile (· == quote)).length
  if count < 3 then none
  else
    let inner := min (count - 3) 2
    some (List.replicate inner quote, s.drop (inner + 3))

/-- What follows a backslash that stands for the blanks at the end of its line. -/
def continued? (s : List Char) : Option (List Char) :=
  (newline? (skipSpaces s)).map fun rest => skipBreaks (rest.length + 1) rest

/-- The characters up to three closing quotes, behind those in `done`, which are in reverse;
`fuel` bounds their number. -/
def blockChars? (quote : Char) : Nat → List Char → Reader (List Char)
  | 0, _, _ => none
  | _ + 1, _, [] => none
  | fuel + 1, done, c :: rest =>
    match closing? quote (c :: rest), newline? (c :: rest) with
    | some (inner, rest), _ => some (done.reverse ++ inner, rest)
    | none, some rest => blockChars? quote fuel ('\n' :: done) rest
    | none, none =>
      if quote == '"' && c == '\\' then
        match continued? rest, escape? rest with
        | some rest, _ => blockChars? quote fuel done rest
        | none, some (e, rest) => blockChars? quote fuel (e :: done) rest
        | none, none => none
      else if isPlain c then blockChars? quote fuel (c :: done) rest
      else none

/-- A string of one or more lines behind its three quotes; a line break right behind them is left
out. -/
def block? (quote : Char) : Reader (List Char) := fun s =>
  blockChars? quote (s.length + 1) [] ((newline? s).getD s)

/-- A string on one line. -/
def line? : Reader (List Char)
  | '"' :: rest => lineChars? (rest.length + 1) [] rest
  | '\'' :: rest => literalChars? rest
  | _ => none

/-- A string of any kind. -/
def string? : Reader (List Char)
  | '"' :: '"' :: '"' :: rest => block? '"' rest
  | '\'' :: '\'' :: '\'' :: rest => block? '\'' rest
  | s => line? s

/-- The name of a member, and the tables in which it stands, from the outside in. -/
structure Key where
  tables : List String
  name : String
  deriving DecidableEq, Repr

def isKeyChar (c : Char) : Bool := c.isAlphanum || c == '-' || c == '_'

/-- One part of a key. -/
def keyPart? : Reader (List Char) := fun s => (line? s).or (Text.run? isKeyChar s)

/-- A key with its points; `fuel` bounds their number. -/
def dottedKey? : Nat → Reader Key
  | 0, _ => none
  | fuel + 1, s =>
    match keyPart? s with
    | none => none
    | some (part, rest) =>
      match skipSpaces rest with
      | '.' :: more =>
        (dottedKey? fuel (skipSpaces more)).map fun found =>
          (⟨String.ofList part :: found.1.tables, found.1.name⟩, found.2)
      | _ => some (⟨[], String.ofList part⟩, rest)

def key? : Reader Key := fun s => dottedKey? s.length s

end ImageRecipe.Toml
