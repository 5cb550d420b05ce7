import ImageRecipe.Proofs.Outcomes
import ImageRecipe.Recipe.Facts

/-!
# Recipes that are put together

Every field of a recipe is filled by one of three rules: the first value that is
set, the first list that is not empty, and the union of maps. Each rule is
associative and idempotent and has a value that adds nothing, and so recipes are
an idempotent monoid, field by field. Facts are filled by the same rules, so it
makes no difference whether facts are put together or the recipes made of them.
-/
namespace ImageRecipe

section Lists

variable {α : Type} (a b c : List α)

lemma firstNonEmpty_nil : firstNonEmpty a [] = a := by
  cases a <;> rfl

lemma nil_firstNonEmpty : firstNonEmpty [] b = b := rfl

lemma firstNonEmpty_self : firstNonEmpty a a = a := by
  cases a <;> rfl

lemma firstNonEmpty_assoc :
    firstNonEmpty (firstNonEmpty a b) c = firstNonEmpty a (firstNonEmpty b c) := by
  cases a <;> rfl

end Lists

namespace TextMap

variable (map lower third : TextMap)

lemma getElem?_filledFrom (name : String) :
    (map.filledFrom lower)[name]? = map[name]?.or lower[name]? :=
  Std.ExtTreeMap.getElem?_union

lemma filledFrom_empty : map.filledFrom ∅ = map := by
  apply Std.ExtTreeMap.ext_getElem?
  intro name
  rw [getElem?_filledFrom, Std.ExtTreeMap.getElem?_empty, Option.or_none]

lemma empty_filledFrom : filledFrom ∅ lower = lower := by
  apply Std.ExtTreeMap.ext_getElem?
  intro name
  rw [getElem?_filledFrom, Std.ExtTreeMap.getElem?_empty, Option.none_or]

lemma filledFrom_self : map.filledFrom map = map := by
  apply Std.ExtTreeMap.ext_getElem?
  intro name
  rw [getElem?_filledFrom, Option.or_self]

lemma filledFrom_assoc :
    (map.filledFrom lower).filledFrom third = map.filledFrom (lower.filledFrom third) := by
  apply Std.ExtTreeMap.ext_getElem?
  intro name
  simp only [getElem?_filledFrom, Option.or_assoc]

/-- A map adds nothing exactly if all its names are there already. -/
lemma filledFrom_eq_self_iff : map.filledFrom lower = map ↔ ∀ name ∈ lower, name ∈ map := by
  constructor
  · intro h name hname
    rw [← h, filledFrom, Std.ExtTreeMap.mem_union_iff]
    exact Or.inl hname
  · intro h
    apply Std.ExtTreeMap.ext_getElem?
    intro name
    rw [getElem?_filledFrom]
    by_cases hname : name ∈ map
    · rw [Std.ExtTreeMap.getElem?_eq_some_getElem hname, Option.some_or]
    · rw [Std.ExtTreeMap.getElem?_eq_none (fun hlower => hname (h name hlower)), Option.or_none]

end TextMap

namespace Recipe

variable (r s t : Recipe)

lemma filledFrom_empty : r.filledFrom {} = r := by
  simp only [filledFrom, Option.or_none, firstNonEmpty_nil, TextMap.filledFrom_empty]

lemma empty_filledFrom : ({} : Recipe).filledFrom r = r := by
  simp only [filledFrom, Option.none_or, nil_firstNonEmpty, TextMap.empty_filledFrom]

lemma filledFrom_self : r.filledFrom r = r := by
  simp only [filledFrom, Option.or_self, firstNonEmpty_self, TextMap.filledFrom_self]

lemma filledFrom_assoc : (r.filledFrom s).filledFrom t = r.filledFrom (s.filledFrom t) := by
  simp only [filledFrom, Option.or_assoc, firstNonEmpty_assoc, TextMap.filledFrom_assoc]

end Recipe

namespace Facts

variable (f g : Facts) (family : Family)

lemma isEmpty_iff_eq_empty : f.isEmpty = true ↔ f = {} := by
  obtain ⟨⟩ := f
  simp only [isEmpty, Bool.and_eq_true, Option.isNone_iff_eq_none, List.isEmpty_iff, mk.injEq,
    and_assoc]

/-- The family and the further settings do not count, so a recipe is as empty as its facts. -/
lemma isEmpty_recipe : (f.recipe family).isEmpty = f.isEmpty := rfl

lemma recipe_filledFrom :
    (f.filledFrom g).recipe family = (f.recipe family).filledFrom (g.recipe family) := by
  simp only [recipe, filledFrom, Recipe.filledFrom, Option.or_self, TextMap.filledFrom_self]

end Facts

/-- Recipes are an idempotent monoid under filling, with the open recipe as its unit, and what is
filled is empty exactly if both recipes are. The recipes of a family that are made of facts are
filled as the facts are, and they are empty exactly if all facts are open. -/
theorem Recipe.filledFrom_lawful (r s t : Recipe) (f g : Facts) (family : Family) :
    (r.filledFrom s).filledFrom t = r.filledFrom (s.filledFrom t) ∧
    r.filledFrom {} = r ∧ ({} : Recipe).filledFrom r = r ∧
    r.filledFrom r = r ∧
    ((r.filledFrom s).isEmpty = true ↔ r.isEmpty = true ∧ s.isEmpty = true) ∧
    (f.filledFrom g).recipe family = (f.recipe family).filledFrom (g.recipe family) ∧
    (f.isEmpty = true ↔ f = {}) ∧ (f = {} ↔ (f.recipe family).isEmpty = true) := by
  refine ⟨filledFrom_assoc r s t, filledFrom_empty r, empty_filledFrom r, filledFrom_self r, ?_,
    Facts.recipe_filledFrom f g family, f.isEmpty_iff_eq_empty, ?_⟩
  · rw [isEmpty_filledFrom, Bool.and_eq_true]
  · rw [Facts.isEmpty_recipe, f.isEmpty_iff_eq_empty]

end ImageRecipe
