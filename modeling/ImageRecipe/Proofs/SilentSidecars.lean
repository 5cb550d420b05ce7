import ImageRecipe.Proofs.MergedRecipes
import ImageRecipe.Proofs.SidecarFills

/-!
# Sidecar files that say nothing

Whether a sidecar file says anything is asked of a recipe from JSON before it is
handed on, but not of the recipe of a parameter text. Such a recipe may be empty
and still name its family and have further settings. These are all that it can
add, and it adds nothing exactly where the image has a family of its own and all
of these settings.
-/
namespace ImageRecipe

namespace Recipe

/-- The recipe with another generator and other further settings. -/
def relabelled (r : Recipe) (generator : Option Family) (extra : TextMap) : Recipe :=
  { r with generator, extra }

variable {r lower : Recipe}

/-- An empty recipe can add its generator and its further settings. -/
lemma filledFrom_of_isEmpty (h : lower.isEmpty = true) : r.filledFrom lower =
    r.relabelled (r.generator.or lower.generator) (r.extra.filledFrom lower.extra) := by
  simp only [isEmpty, Bool.and_eq_true, Option.isNone_iff_eq_none, List.isEmpty_iff] at h
  simp only [filledFrom, relabelled, h, Option.or_none, firstNonEmpty_nil]

lemma relabelled_withSize (r : Recipe) (generator : Option Family) (extra : TextMap)
    (size : Option (UInt32 × UInt32)) :
    (r.relabelled generator extra).withSize size =
      (r.withSize size).relabelled generator extra := by
  rcases size with - | ⟨width, height⟩
  · rfl
  · exact (apply_ite (relabelled · generator extra)
      ((r.width.isNone && r.height.isNone && width > 0 && height > 0) = true)
      { r with width := some width, height := some height } r).symm

@[simp] lemma generator_normalized (r : Recipe) : r.normalized.generator = r.generator := rfl

@[simp] lemma extra_withSize (r : Recipe) (size : Option (UInt32 × UInt32)) :
    (r.withSize size).extra = r.extra := by
  rcases r.withSize_cases size with h | ⟨width, height, -, -, -, -, -, h⟩ <;> rw [h]

lemma filledFrom_withSize_of_isEmpty (h : lower.isEmpty = true)
    (size : Option (UInt32 × UInt32)) :
    (r.filledFrom lower).withSize size = (r.withSize size).filledFrom lower := by
  rw [filledFrom_of_isEmpty h, filledFrom_of_isEmpty h, relabelled_withSize, generator_withSize,
    extra_withSize]

/-- An empty recipe adds nothing exactly if it has no generator where none is set and all its
further settings are there already. -/
lemma filledFrom_eq_self_iff_of_isEmpty (h : lower.isEmpty = true) : r.filledFrom lower = r ↔
    r.generator.or lower.generator = r.generator ∧ ∀ name ∈ lower.extra, name ∈ r.extra := by
  rw [← TextMap.filledFrom_eq_self_iff, filledFrom_of_isEmpty h]
  constructor
  · intro hsame
    exact ⟨congrArg Recipe.generator hsame, congrArg Recipe.extra hsame⟩
  · rintro ⟨hgenerator, hextra⟩
    rw [hgenerator, hextra]
    rfl

end Recipe

/-- An empty recipe does not change the status of an outcome. -/
lemma Outcome.IsConsistent.filledFrom_of_isEmpty {outcome : Outcome} (h : outcome.IsConsistent)
    {lower : Recipe} (hlower : lower.isEmpty = true) : outcome.filledFrom lower =
      { outcome with recipe := outcome.recipe.filledFrom lower } := by
  have hstatus : Status.ofRecipe (outcome.recipe.filledFrom lower) = outcome.status := by
    rw [h.status, Status.ofRecipe, Status.ofRecipe, Recipe.isEmpty_filledFrom, hlower,
      Bool.and_true]
  rw [Outcome.filledFrom, hstatus, ite_self]

lemma Outcome.withRecipe_eq_self_iff {outcome : Outcome} {recipe : Recipe} :
    { outcome with recipe } = outcome ↔ recipe = outcome.recipe := by
  constructor
  · exact fun h => congrArg Outcome.recipe h
  · rintro rfl
    rfl

namespace Sidecar

variable {file : Bytes} {settings : Settings} {r : Recipe}

lemma isEmpty_eq_false_of_json (h : recipe? file settings = some r)
    (hjson : (Payload.json? (Text.utf8Lossy file)).isSome = true) : r.isEmpty = false := by
  obtain ⟨value, hvalue⟩ := Option.isSome_iff_exists.mp hjson
  simp only [recipe?, hvalue] at h
  simpa using (Option.filter_eq_some_iff.mp h).2

/-- Only a parameter text can be empty, and its recipe names its family. -/
lemma generator_of_isEmpty (h : recipe? file settings = some r) (hempty : r.isEmpty = true) :
    r.generator = some .a1111 := by
  cases hvalue : Payload.json? (Text.utf8Lossy file) with
  | some value =>
    rw [isEmpty_eq_false_of_json h (by rw [hvalue]; rfl)] at hempty
    cases hempty
  | none =>
    simp only [recipe?, hvalue] at h
    split at h
    · rw [← Option.some.inj h, Recipe.generator_normalized, ParameterText.generator_recipe]
    · cases h

end Sidecar

namespace Reader

variable (reader : Reader)

lemma readChunks_empty : reader.readChunks ∅ = .nothing := by
  rw [readChunks, if_pos (Std.ExtTreeMap.isEmpty_iff.mpr rfl)]

/-- Exactly an image with texts has a generator. -/
lemma isSome_generator_readChunks_iff {chunks : TextMap} :
    (reader.readChunks chunks).recipe.generator.isSome = true ↔ chunks ≠ ∅ := by
  by_cases h : chunks = ∅
  · rw [h, readChunks_empty]
    simp [Outcome.nothing]
  · rcases reader.mayGenerate_readChunks h with hg | ⟨hg, -⟩ <;> simp [hg, h]

section Silent

variable {file : Bytes} {name : Option String} {content : ImageContent} {sidecar : Bytes}
  {r : Recipe}

section Image

variable (hcontent : ImageContent.ofBytes file name reader.settings reader.tags = .ok content)

include hcontent

lemma generator_read_of_ok : (reader.read file name none).recipe.generator =
    (reader.readChunks content.chunks).recipe.generator := by
  rw [reader.read_eq_of_ok hcontent, Outcome.recipe_withSize, Recipe.generator_withSize]
  rfl

lemma extra_read_of_ok : (reader.read file name none).recipe.extra =
    (reader.readChunks content.chunks).recipe.extra := by
  rw [reader.read_eq_of_ok hcontent, Outcome.recipe_withSize, Recipe.extra_withSize]
  rfl

/-- What is read of the image is filled from the sidecar file, and its size makes no difference. -/
lemma read_of_isEmpty (hr : Sidecar.recipe? sidecar reader.settings = some r)
    (hempty : r.isEmpty = true) :
    let bare := reader.read file name none
    reader.read file name (some sidecar) = { bare with recipe := bare.recipe.filledFrom r } := by
  have hlower : reader.sidecar? (some sidecar) = some r := hr
  have hnone : reader.sidecar? none = none := rfl
  have hconsistent := reader.isConsistent_readChunks content.chunks
  rw [reader.read_eq_of_ok hcontent, reader.read_eq_of_ok hcontent, hlower, hnone,
    Outcome.beside, Outcome.beside, Option.elim_some, Option.elim_none,
    hconsistent.filledFrom_of_isEmpty hempty]
  simp only [Outcome.withSize, Recipe.filledFrom_withSize_of_isEmpty hempty]

/-- The recipe of the sidecar file has a generator, so the image must have one of its own. -/
lemma read_eq_bare_iff (hr : Sidecar.recipe? sidecar reader.settings = some r)
    (hempty : r.isEmpty = true) :
    reader.read file name (some sidecar) = reader.read file name none ↔ content.chunks ≠ ∅ ∧
      ∀ key ∈ r.extra, key ∈ (reader.readChunks content.chunks).recipe.extra := by
  have hnamed : (reader.read file name none).recipe.generator.or r.generator =
      (reader.read file name none).recipe.generator ↔ content.chunks ≠ ∅ := by
    rw [Sidecar.generator_of_isEmpty hr hempty, ← reader.isSome_generator_readChunks_iff,
      ← reader.generator_read_of_ok hcontent]
    cases (reader.read file name none).recipe.generator <;> simp
  rw [reader.read_of_isEmpty hcontent hr hempty, ← hnamed, ← reader.extra_read_of_ok hcontent,
    ← Recipe.filledFrom_eq_self_iff_of_isEmpty hempty, Outcome.withRecipe_eq_self_iff]

end Image

/-- With a sidecar file that says nothing, what is read of the image is the same but for the
generator and the further settings. It is all the same if the sidecar file holds JSON. If it holds
a parameter text, it is the same exactly if the file is no image, or the image has texts and its
recipe has all further settings that the text has. -/
theorem read_silentSidecar (file : Bytes) (name : Option String) (sidecar : Bytes)
    (hsilent : ∀ r ∈ Sidecar.recipe? sidecar reader.settings, r.isEmpty = true) :
    let bare := reader.read file name none
    let both := reader.read file name (some sidecar)
    both = { bare with
      recipe := bare.recipe.relabelled both.recipe.generator both.recipe.extra } ∧
    ((Payload.json? (Text.utf8Lossy sidecar)).isSome = true → both = bare) ∧
    (both = bare ↔ ∀ r ∈ Sidecar.recipe? sidecar reader.settings, ∀ content,
      ImageContent.ofBytes file name reader.settings reader.tags = .ok content →
        content.chunks ≠ ∅ ∧
          ∀ key ∈ r.extra, key ∈ (reader.readChunks content.chunks).recipe.extra) := by
  intro bare both
  have hrelabelled (hsame : both = bare) : both = { bare with
      recipe := bare.recipe.relabelled both.recipe.generator both.recipe.extra } := by
    rw [hsame]
    rfl
  cases hc : ImageContent.ofBytes file name reader.settings reader.tags with
  | error fault =>
    have hsame : both = bare := by
      change reader.read file name (some sidecar) = reader.read file name none
      rw [read, read, hc]
    refine ⟨hrelabelled hsame, fun _ => hsame, fun _ _ _ content hcontent => ?_, fun _ => hsame⟩
    cases hcontent
  | ok content =>
    cases hr : Sidecar.recipe? sidecar reader.settings with
    | none =>
      have hnone : reader.sidecar? (some sidecar) = none := hr
      have hsame : both = bare :=
        (reader.read_eq_of_ok hc _).trans (hnone ▸ (reader.read_eq_of_ok hc none).symm)
      exact ⟨hrelabelled hsame, fun _ => hsame,
        fun _ _ hmem => absurd hmem (Option.not_mem_none _), fun _ => hsame⟩
    | some r =>
      have hempty : r.isEmpty = true := hsilent r hr
      have hsame : both = bare ↔ _ := reader.read_eq_bare_iff hc hr hempty
      refine ⟨?_, fun hjson => ?_, fun h => ?_, fun h => hsame.mpr (h r rfl content rfl)⟩
      · have hboth : both = { bare with recipe := bare.recipe.filledFrom r } :=
          reader.read_of_isEmpty hc hr hempty
        rw [hboth, Recipe.filledFrom_of_isEmpty hempty]
        rfl
      · rw [Sidecar.isEmpty_eq_false_of_json hr hjson] at hempty
        cases hempty
      · rintro _ ⟨⟩ _ ⟨⟩
        exact hsame.mp h

end Silent

/-- A parameter text with zero steps and a version. -/
def zeroStepsSidecar : Bytes := Text.utf8Bytes "Steps: 0, Version: v1"

/-- An image with a size and no texts. -/
def barePng : Bytes := Png.fileOf [
  ⟨.header, [0, 0, 0, 64, 0, 0, 0, 32, 8, 2, 0, 0, 0], 0x2DFFE9D3⟩, ⟨.ending, [], 0xAE426082⟩]

/-- An image with parameters, which have a version too. -/
def versionedPng : Bytes := Png.fileOf [
  ⟨.header, [0, 0, 0, 64, 0, 0, 0, 32, 8, 2, 0, 0, 0], 0x2DFFE9D3⟩,
  ⟨.text, Text.utf8Bytes "parameters" ++ 0 :: Text.utf8Bytes "a cat\nSteps: 20, Version: v2",
    0xBF393ACC⟩,
  ⟨.ending, [], 0xAE426082⟩]

theorem read_silentSidecar_versionedPng :
    (∃ r ∈ Sidecar.recipe? zeroStepsSidecar plainReader.settings, "Version" ∈ r.extra) ∧
    (∀ r ∈ Sidecar.recipe? zeroStepsSidecar plainReader.settings, r.isEmpty = true) ∧
    plainReader.read versionedPng none (some zeroStepsSidecar) =
      plainReader.read versionedPng none none := by
  have hsilent : ∀ r ∈ Sidecar.recipe? zeroStepsSidecar plainReader.settings,
      r.isEmpty = true := by decide +kernel
  obtain ⟨-, -, hsame⟩ :=
    plainReader.read_silentSidecar versionedPng none zeroStepsSidecar hsilent
  let chunks := plainReader.settings.keptChunks (Png.texts plainReader.tags versionedPng)
  have hkeys : ∀ r ∈ Sidecar.recipe? zeroStepsSidecar plainReader.settings,
      ∀ key ∈ r.extra.keys, key ∈ (plainReader.readChunks chunks).recipe.extra := by decide +kernel
  refine ⟨by decide +kernel, hsilent, hsame.mpr fun r hr content hcontent => ?_⟩
  rw [ImageContent.ofBytes_of_png none _ _ (by decide : _ <+: versionedPng)] at hcontent
  cases hcontent
  refine ⟨fun h => ?_, fun key hkey => hkeys r hr key (Std.ExtTreeMap.mem_keys.mpr hkey)⟩
  exact absurd (Std.ExtTreeMap.isEmpty_iff.mpr h) (by decide +kernel)

/-- The generator and the version of the parameter text get into what is read of the image. -/
theorem read_zeroStepsSidecar_ne :
    ¬ ∀ (reader : Reader) (file : Bytes) (name : Option String) (sidecar : Bytes),
      (∀ r ∈ Sidecar.recipe? sidecar reader.settings, r.isEmpty = true) →
        reader.read file name (some sidecar) = reader.read file name none := by
  intro h
  have hsame := h plainReader barePng none zeroStepsSidecar (by decide +kernel)
  have hgenerator := congrArg (fun outcome => outcome.recipe.generator) hsame
  exact absurd hgenerator (by decide +kernel)

end Reader

end ImageRecipe
