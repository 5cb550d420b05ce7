import ImageRecipe.Json.Number
import ImageRecipe.Text.Encoding

/-!
# Reading JSON text

One value with nothing but blanks around it, where a blank is a space, a tab,
a line feed or a carriage return. At most 127 arrays and objects may stand
inside each other. Control characters in strings are refused, and so is an
escaped surrogate without its partner. A repeated member name keeps its first
place and takes its last value.
-/
namespace ImageRecipe.Json

/-- A reader takes a value off the front of a text and gives the rest. -/
abbrev Reader (α : Type) := List Char → Option (α × List Char)

def isSpace (c : Char) : Bool := c == ' ' || c == '\n' || c == '\t' || c == '\r'

def skipSpaces (s : List Char) : List Char := s.dropWhile isSpace

/-- The number that four hexadecimal digits write. -/
def fourHex? : Reader Nat
  | a :: b :: c :: d :: rest =>
    if [a, b, c, d].all Text.isHexDigit then some (Text.hexValue [a, b, c, d], rest) else none
  | _ => none

/-- The character that an escape with four hexadecimal digits stands for, the low surrogate
after a high one included. -/
def unicodeEscape? : Reader Char := fun s => do
  let (u, rest) ← fourHex? s
  if Text.isLowSurrogate u then none
  else if Text.isHighSurrogate u then
    match rest with
    | '\\' :: 'u' :: rest =>
      let (v, rest) ← fourHex? rest
      if Text.isLowSurrogate v then some (Char.ofNat (Text.surrogatePair u v), rest) else none
    | _ => none
  else some (Char.ofNat u, rest)

/-- The character that the text behind a backslash stands for. -/
def escape? : Reader Char
  | '"' :: rest => some ('"', rest)
  | '\\' :: rest => some ('\\', rest)
  | '/' :: rest => some ('/', rest)
  | 'b' :: rest => some ('\x08', rest)
  | 'f' :: rest => some ('\x0c', rest)
  | 'n' :: rest => some ('\n', rest)
  | 'r' :: rest => some ('\r', rest)
  | 't' :: rest => some ('\t', rest)
  | 'u' :: rest => unicodeEscape? rest
  | _ => none

/-- The characters of a string up to its closing quote, behind those in `done`, which are in
reverse; `fuel` bounds their number. -/
def stringChars? : Nat → List Char → Reader (List Char)
  | 0, _, _ => none
  | _ + 1, _, [] => none
  | fuel + 1, done, c :: rest =>
    if c == '"' then some (done.reverse, rest)
    else if c == '\\' then
      match escape? rest with
      | some (e, rest) => stringChars? fuel (e :: done) rest
      | none => none
    else if c.toNat < 32 then none
    else stringChars? fuel (c :: done) rest

/-- A string behind its opening quote. -/
def stringBody? : Reader String := fun s =>
  (stringChars? (s.length + 1) [] s).map fun p => (String.ofList p.1, p.2)

/-- The elements of an array up to its closing bracket; there is at least one. -/
def items? (value : Reader Json) : Nat → Reader (List Json)
  | 0, _ => none
  | fuel + 1, s =>
    match value s with
    | none => none
    | some (item, rest) =>
      match skipSpaces rest with
      | ',' :: rest => (items? value fuel rest).map fun p => (item :: p.1, p.2)
      | ']' :: rest => some ([item], rest)
      | _ => none

/-- One member: a string, a colon and a value. -/
def member? (value : Reader Json) : Reader (String × Json) := fun s =>
  match skipSpaces s with
  | '"' :: rest =>
    match stringBody? rest with
    | none => none
    | some (name, rest) =>
      match skipSpaces rest with
      | ':' :: rest => (value rest).map fun p => ((name, p.1), p.2)
      | _ => none
  | _ => none

/-- The members of an object up to its closing brace; there is at least one. -/
def members? (value : Reader Json) : Nat → Reader (List (String × Json))
  | 0, _ => none
  | fuel + 1, s =>
    match member? value s with
    | none => none
    | some (member, rest) =>
      match skipSpaces rest with
      | ',' :: rest => (members? value fuel rest).map fun p => (member :: p.1, p.2)
      | '\x7d' :: rest => some ([member], rest)
      | _ => none

/-- The object with the given members, the later of two with one name replacing the value of the
earlier. -/
def ofMembers (members : List (String × Json)) : Json :=
  .obj (members.foldl (fun done m => setMember m.1 m.2 done) [])

/-- An array behind its opening bracket. -/
def arrayBody? (value : Reader Json) : Reader Json := fun s =>
  match skipSpaces s with
  | ']' :: rest => some (.arr [], rest)
  | rest => (items? value rest.length rest).map fun p => (.arr p.1, p.2)

/-- An object behind its opening brace. -/
def objectBody? (value : Reader Json) : Reader Json := fun s =>
  match skipSpaces s with
  | '\x7d' :: rest => some (.obj [], rest)
  | rest => (members? value rest.length rest).map fun p => (ofMembers p.1, p.2)

/-- A value that is neither an array nor an object. -/
def scalar? : Reader Json
  | 'n' :: 'u' :: 'l' :: 'l' :: rest => some (.null, rest)
  | 't' :: 'r' :: 'u' :: 'e' :: rest => some (.bool true, rest)
  | 'f' :: 'a' :: 'l' :: 's' :: 'e' :: rest => some (.bool false, rest)
  | '"' :: rest => (stringBody? rest).map fun p => (.str p.1, p.2)
  | s => number? s

/-- A value in which at most `depth` arrays and objects stand inside each other. -/
def value? : Nat → Reader Json
  | 0, s => scalar? (skipSpaces s)
  | depth + 1, s =>
    match skipSpaces s with
    | '[' :: rest => arrayBody? (value? depth) rest
    | '\x7b' :: rest => objectBody? (value? depth) rest
    | s => scalar? s

/-- How many arrays and objects may stand inside each other. -/
def maxNesting : Nat := 127

/-- The value that a list of characters writes. -/
def parseChars? (s : List Char) : Option Json :=
  match value? maxNesting s with
  | some (value, rest) => if (skipSpaces rest).isEmpty then some value else none
  | none => none

/-- The value that a text writes. -/
def parse? (s : String) : Option Json := parseChars? s.toList

end ImageRecipe.Json
