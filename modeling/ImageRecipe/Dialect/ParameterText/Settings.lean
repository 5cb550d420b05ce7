import ImageRecipe.Dialect.Options
import ImageRecipe.Text.Search

/-!
# The block of settings in a parameter text

A block is a list of keys with their values, `Key: value, Key: value`. A comma
separates two settings if a key follows it and it does not stand between
quotes; any other comma belongs to the value around it.
-/
namespace ImageRecipe.ParameterText

open Text

/-- The characters of a key behind its first letter. -/
def isKeyChar (c : Char) : Bool := c.isAlphanum || " _-/.()".toList.contains c

/-- Whether a key with a colon stands at the front, behind blanks. It begins with one of the
letters A to Z. -/
def beginsKey (s : List Char) : Bool :=
  match trimStart s with
  | [] => false
  | c :: rest => c.isUpper && (rest.dropWhile isKeyChar).head? == some ':'

/-- The pieces between the commas that separate settings; `quoted` says whether a quote is
open. -/
def pieces (quoted : Bool) : List Char → List (List Char)
  | [] => [[]]
  | c :: s =>
    if c == ',' && !quoted && beginsKey s then [] :: pieces quoted s
    else
      match pieces (quoted != (c == '"')) s with
      | [] => [[c]]
      | piece :: rest => (c :: piece) :: rest

/-- The settings of a block as they are written. -/
def segments (block : List Char) : List (List Char) :=
  ((pieces false block).map trim).filter fun s => !s.isEmpty

/-- A value without the quotes around it. -/
def unquoted (value : List Char) : List Char :=
  match value with
  | '"' :: rest => if rest.getLast? == some '"' then rest.dropLast else value
  | _ => value

/-- The key and the value of a setting. -/
def setting? (segment : List Char) : Option (String × List Char) :=
  (splitOnce? (· == ':') segment).map fun halves =>
    (String.ofList (trim halves.1), unquoted (trim halves.2))

/-- The settings of a block by their keys. -/
def settings (block : List Char) : Options := (segments block).filterMap setting?

/-- A key in lower case, as far as known keys need it. -/
def foldedKey (key : String) : String := String.ofList (folded key.toList)

end ImageRecipe.ParameterText
