import ImageRecipe.Settings
import ImageRecipe.Toml.Document

/-!
# Settings in a document

Settings are written as a TOML document with a member for each of them. What is
not written keeps its default, and other members are ignored.
-/
namespace ImageRecipe

namespace Toml

def Item.text? : Item → Option String
  | .text s => some s
  | _ => none

def Item.bool? : Item → Option Bool
  | .bool b => some b
  | _ => none

/-- A number of 64 bits. -/
def Item.natural64? : Item → Option Nat
  | .integer i => if 0 ≤ i && i < UInt64.size then some i.toNat else none
  | _ => none

/-- An array of strings. -/
def Item.texts? : Item → Option (List String)
  | .array items => items.mapM Item.text?
  | _ => none

/-- A member that may be left out. -/
def Members.get {α : Type} (members : Members) (name : String) (read : Item → Option α)
    (default : α) : Option α :=
  match members.lookup name with
  | none => some default
  | some item => read item

end Toml

namespace Settings

/-- The settings that the members of a document say. -/
def ofMembers? (members : Toml.Members) : Option Settings := do
  let base : Settings := {}
  some {
    maxDepth := ← members.get "max_depth" Toml.Item.natural64? base.maxDepth
    textKeywords := ← members.get "text_keywords" Toml.Item.texts? base.textKeywords
    unknownNodeHeuristics :=
      ← members.get "unknown_node_heuristics" Toml.Item.bool? base.unknownNodeHeuristics
    imageDimensionsFallback :=
      ← members.get "image_dimensions_fallback" Toml.Item.bool? base.imageDimensionsFallback
    fallbackOnEmpty := ← members.get "fallback_on_empty" Toml.Item.bool? base.fallbackOnEmpty }

/-- Valid settings from a document. -/
def ofDocument (document : String) : Except Fault Settings :=
  match (Toml.document? document).bind ofMembers? with
  | some settings => settings.checked
  | none => .error .malformedSettings

end Settings

end ImageRecipe
