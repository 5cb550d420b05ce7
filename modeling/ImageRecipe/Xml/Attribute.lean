import ImageRecipe.Text.Blank
import ImageRecipe.Xml.Entity
import ImageRecipe.Xml.Token

/-!
# Attributes of a tag

A tag has keys with quoted values. Reading goes on behind anything else: a key
without a value, a value without quotes, and a key that was there before, whose
value is skipped up to the next blank.
-/
namespace ImageRecipe.Xml

/-- What is read at the front of a list of attributes. -/
structure AttributeFront where
  /-- The key, if it counts as read. -/
  key : Option (List Char)
  /-- The value, if there is a good one. -/
  value : Option (List Char)
  /-- What follows. -/
  rest : List Char

/-- Skips what is no blank. -/
def skipWord (s : List Char) : List Char := s.dropWhile fun c => !isSpace c

/-- What is read behind a key and its equals sign. -/
def AttributeFront.ofValue (key : List Char) : List Char → AttributeFront
  | [] => ⟨some key, none, []⟩
  | c :: s =>
    if c == '"' || c == '\'' then
      let value := s.takeWhile (· != c)
      match s.dropWhile (· != c) with
      | [] => ⟨some key, none, []⟩
      | _ :: rest => ⟨some key, some value, rest⟩
    else ⟨some key, none, skipWord (c :: s)⟩

/-- Whether a character goes on with a key. -/
def isKeyChar (c : Char) : Bool := c != '=' && !isSpace c

/-- What is read at the front of `c :: s`, where `c` is no blank and the keys in `seen` were there
before. -/
def AttributeFront.read (seen : List (List Char)) (c : Char) (s : List Char) : AttributeFront :=
  let key := c :: s.takeWhile isKeyChar
  match (s.dropWhile isKeyChar).dropWhile isSpace with
  | '=' :: value =>
    if seen.contains key then ⟨none, none, skipWord value⟩
    else .ofValue key (value.dropWhile isSpace)
  | rest => ⟨none, none, rest⟩

theorem AttributeFront.ofValue_rest_length_le (key s : List Char) :
    (ofValue key s).rest.length ≤ s.length := by
  unfold ofValue
  split
  · simp
  · rename_i c s
    split
    · dsimp only
      split
      · simp
      · rename_i d rest heq
        have hle := (List.dropWhile_sublist (l := s) (· != c)).length_le
        rw [heq] at hle
        simp only [List.length_cons] at hle ⊢
        omega
    · exact (List.dropWhile_sublist _).length_le

theorem AttributeFront.read_rest_length_le (seen : List (List Char)) (c : Char) (s : List Char) :
    (read seen c s).rest.length ≤ s.length := by
  have hle : ((s.dropWhile isKeyChar).dropWhile isSpace).length ≤ s.length :=
    Nat.le_trans (List.dropWhile_sublist _).length_le (List.dropWhile_sublist _).length_le
  unfold read
  dsimp only
  split
  · rename_i value heq
    rw [heq, List.length_cons] at hle
    split
    · exact Nat.le_trans (List.dropWhile_sublist _).length_le (Nat.le_of_succ_le hle)
    · exact Nat.le_trans (ofValue_rest_length_le _ _)
        (Nat.le_trans (List.dropWhile_sublist _).length_le (Nat.le_of_succ_le hle))
  · exact hle

/-- The attributes with good values, where the keys in `seen` were there before. -/
def attributesAfter (seen : List (List Char)) (s : List Char) : List (List Char × List Char) :=
  match _h : s.dropWhile isSpace with
  | [] => []
  | c :: s' =>
    let front := AttributeFront.read seen c s'
    let rest := attributesAfter (front.key.toList ++ seen) front.rest
    match front.key, front.value with
    | some key, some value => (key, value) :: rest
    | _, _ => rest
termination_by s.length
decreasing_by
  have hle := (List.dropWhile_sublist (l := s) isSpace).length_le
  rw [‹s.dropWhile isSpace = _›, List.length_cons] at hle
  have := AttributeFront.read_rest_length_le seen c s'
  omega

namespace Tag

/-- The attributes of a tag with good values. -/
def attributes (tag : Tag) : List (List Char × List Char) := attributesAfter [] tag.rest

/-- The value of the attribute `key`, unless it is blank. -/
def value? (tag : Tag) (key : List Char) : Option String :=
  (tag.attributes.find? (·.1 == key)).bind fun found =>
    Text.nonBlank? (String.ofList (unescape found.2))

end Tag

end ImageRecipe.Xml
