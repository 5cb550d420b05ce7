import ImageRecipe.Bytes.Base64
import ImageRecipe.Bytes.Zlib
import ImageRecipe.Json.Parser
import ImageRecipe.Text.Class
import ImageRecipe.Text.Search

/-!
# Payloads

The text of a chunk may hold JSON as it is, in base64, or deflated and then in
base64. A payload is what is left when these layers are taken off: JSON whose
outermost value is an object or an array.
-/
namespace ImageRecipe

/-- The layers that a payload was wrapped in. -/
inductive Layers where
  | plain
  | base64
  | base64Zlib
  deriving DecidableEq, Repr

namespace Layers

def all : List Layers := [plain, base64, base64Zlib]

def name : Layers → String
  | plain => "plain-text"
  | base64 => "base64"
  | base64Zlib => "base64+zlib"

def ofName? (name : String) : Option Layers := all.find? (·.name == name)

end Layers

structure Payload where
  json : Json
  /-- The bytes of the JSON text. -/
  bytes : Bytes
  layers : Layers

namespace Payload

/-- What follows a word that stands for no finite number at the front of `s`. The word ends where
no word character follows. -/
def nonFiniteWord? (s : List Char) : Option (List Char) := do
  let rest ← (Text.after? "NaN".toList s).or (Text.after? "Infinity".toList s)
  if (rest.head?.map Text.isWordChar).getD false then none else some rest

/-- What follows such a word with its sign. Without a sign it must not follow a word
character. -/
def nonFinite? (afterWord : Bool) : List Char → Option (List Char)
  | '-' :: s => nonFiniteWord? s
  | s => if afterWord then none else nonFiniteWord? s

theorem nonFiniteWord?_length_lt {s rest : List Char} (h : nonFiniteWord? s = some rest) :
    rest.length < s.length := by
  unfold nonFiniteWord? at h
  simp only [Option.bind_eq_bind, Option.bind_eq_some_iff, Option.or_eq_some_iff,
    Text.after?_eq_some_iff] at h
  obtain ⟨rest', h₁, h₂⟩ := h
  split at h₂ <;> simp at h₂
  subst h₂
  rcases h₁ with h₁ | ⟨_, h₁⟩ <;> (rw [h₁]; simp; omega)

theorem nonFinite?_length_lt {afterWord : Bool} {s rest : List Char}
    (h : nonFinite? afterWord s = some rest) : rest.length < s.length := by
  unfold nonFinite? at h
  split at h
  · exact Nat.lt_succ_of_lt (nonFiniteWord?_length_lt h)
  · split at h
    · simp at h
    · exact nonFiniteWord?_length_lt h

/-- Writes null for every number that is not finite. -/
def nullingNonFinite (afterWord : Bool) (s : List Char) : List Char :=
  match _h : nonFinite? afterWord s with
  | some rest => "null".toList ++ nullingNonFinite true rest
  | none =>
    match s with
    | [] => []
    | c :: s => c :: nullingNonFinite (Text.isWordChar c) s
termination_by s.length
decreasing_by
  · exact nonFinite?_length_lt ‹_›
  · simp

/-- JSON text, in which numbers that are not finite are null. -/
def lenientJson? (s : List Char) : Option Json :=
  match Json.parseChars? s with
  | some value => some value
  | none => Json.parseChars? (nullingNonFinite false s)

/-- Whether JSON text can hold an object or an array. -/
def opensContainer (s : List Char) : Bool := s.head? == some '\x7b' || s.head? == some '['

/-- An object or array, which may be written inside a JSON string. -/
def container? (s : List Char) : Option Json := do
  match ← lenientJson? s with
  | .str inner =>
    let inner := Text.trim inner.toList
    if opensContainer inner then (Json.parseChars? inner).filter Json.isContainer else none
  | value => if value.isContainer then some value else none

/-- The object or array in the UTF-8 text of some bytes. -/
def containerIn? (bytes : Bytes) : Option Json :=
  (Text.utf8? bytes).bind fun s => container? s.toList

/-- The payload of bytes that were in base64. -/
def ofDecoded? (bytes : Bytes) : Option Payload :=
  match containerIn? bytes with
  | some json => some ⟨json, bytes, .base64⟩
  | none =>
    match Zlib.inflate bytes with
    | .ok content => (containerIn? content).map fun json => ⟨json, content, .base64Zlib⟩
    | .error _ => none

/-- The payload of a text. -/
def ofText? (s : String) : Option Payload :=
  let trimmed := Text.trim s.toList
  if trimmed.isEmpty then none
  else
    match container? trimmed with
    | some json => some ⟨json, Text.utf8Bytes (String.ofList trimmed), .plain⟩
    | none => (Base64.decode? trimmed).bind ofDecoded?

/-- The JSON of the payload of a text. -/
def json? (s : String) : Option Json := (ofText? s).map Payload.json

end Payload

end ImageRecipe
