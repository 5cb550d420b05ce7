import ImageRecipe.Image.Content
import Mathlib.Tactic.Common

/-!
# The texts that are kept

Of the texts that are found in an image, the first one with each keyword is
kept, if the settings ask for that keyword.
-/
namespace ImageRecipe

namespace TextMap

lemma getElem?_insertNew (map : TextMap) (name text keyword : String) :
    (map.insertNew name text)[keyword]? =
      map[keyword]?.or (if keyword == name then some text else none) := by
  unfold insertNew
  rw [Std.ExtTreeMap.contains_eq_isSome_getElem?]
  by_cases heq : keyword = name
  · subst heq
    cases hm : map[keyword]? with
    | some old => simp [hm]
    | none => simp
  · have hne : ¬ compare name keyword = .eq := fun h =>
      heq (Std.LawfulEqCmp.compare_eq_iff_eq.mp h).symm
    split
    · simp [heq]
    · simp [Std.ExtTreeMap.getElem?_insert, hne, heq]

/-- Adding entries one after the other, unless they are there, keeps the first of each name. -/
lemma getElem?_foldl_insertNew (found : List (String × String)) (map : TextMap)
    (keyword : String) :
    (found.foldl (fun chunks f => chunks.insertNew f.1 f.2) map)[keyword]? =
      map[keyword]?.or (found.lookup keyword) := by
  induction found generalizing map with
  | nil => simp
  | cons f found ih =>
    rw [List.foldl_cons, ih, getElem?_insertNew, Option.or_assoc, List.lookup_cons]
    cases keyword == f.1 <;> simp

end TextMap

lemma lookup_filter_fst {α β : Type} [BEq α] [LawfulBEq α] (p : α → Bool) (entries : List (α × β))
    (key : α) : (entries.filter fun e => p e.1).lookup key =
      if p key then entries.lookup key else none := by
  induction entries with
  | nil => simp
  | cons e entries ih =>
    obtain ⟨name, value⟩ := e
    by_cases hkey : key = name
    · subst hkey
      cases hp : p key <;> simp [ih, hp]
    · have hne : (key == name) = false := beq_eq_false_iff_ne.mpr hkey
      cases hp : p name <;> simp [ih, hp, List.lookup_cons, hne]

/-- A keyword has the text that was first found with it, if it is one that the settings ask for. -/
theorem Settings.getElem?_keptChunks (settings : Settings) (found : List (String × String))
    (keyword : String) : (settings.keptChunks found)[keyword]? =
      if keyword ≠ "" ∧ settings.isTextKeyword keyword = true then found.lookup keyword
      else none := by
  unfold Settings.keptChunks
  rw [TextMap.getElem?_foldl_insertNew,
    lookup_filter_fst fun keyword => keyword != "" && settings.isTextKeyword keyword]
  simp

namespace ImageContent

variable {file : Bytes} (name : Option String) (settings : Settings) (tags : TagReader)

lemma ofBytes_of_png (h : ImageKind.pngSignature <+: file) : ofBytes file name settings tags =
    .ok ⟨.png, settings.keptChunks (Png.texts tags file), Png.size? file⟩ := by
  have hkind : ImageKind.ofBytes? file = some .png := by
    rw [ImageKind.ofBytes?, if_pos (List.isPrefixOf_iff_prefix.mpr h)]
  rw [ofBytes, hkind]

lemma ofBytes_of_jpeg (h : ImageKind.jpegSignature <+: file) : ofBytes file name settings tags =
    .ok ⟨.jpeg, settings.keptChunks (Jpeg.texts tags file), Jpeg.size? file⟩ := by
  obtain ⟨rest, rfl⟩ := h
  rfl

end ImageContent

end ImageRecipe
