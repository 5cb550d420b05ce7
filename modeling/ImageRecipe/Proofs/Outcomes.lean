import ImageRecipe.Proofs.NormalForm
import ImageRecipe.Reader

/-!
# What can come out of reading

Whatever the bytes, an outcome is consistent in itself: its status says whether
its recipe is empty, its recipe is normal, and the generator is the family that
was told from the texts.
-/
namespace ImageRecipe

@[simp] lemma Recipe.generator_withSides (r : Recipe) (size : Option (UInt32 × UInt32)) :
    (r.withSides size).generator = r.generator := by
  unfold Recipe.withSides
  split <;> rfl

@[simp] lemma Recipe.generator_withSize (r : Recipe) (size : Option (UInt32 × UInt32)) :
    (r.withSize size).generator = r.generator := by
  rcases r.withSize_cases size with h | ⟨width, height, -, -, -, -, -, h⟩ <;> rw [h]

@[simp] lemma Loose.generator_recipe (value : Json) (family : Family) :
    (Loose.recipe value family).generator = some family := by
  unfold Loose.recipe
  dsimp only
  split
  · rfl
  · rw [Recipe.generator_withSides]

@[simp] lemma Gleaning.generator_recipe (text : String) (family : Family) :
    (Gleaning.recipe text family).generator = some family := rfl

lemma ParameterText.generator_settingsRecipe (block : List Char) (family : Family) :
    (settingsRecipe block family).generator = some family := by
  rw [settingsRecipe, Recipe.generator_withSides]

@[simp] lemma ParameterText.generator_recipe (s : String) (family : Family) :
    (ParameterText.recipe s family).generator = some family := by
  simp only [ParameterText.recipe, generator_settingsRecipe]

@[simp] lemma Invoke.generator_withPrompt (r : Recipe) (prompt : List Char) :
    (withPrompt r prompt).generator = r.generator := rfl

lemma Invoke.generator_imageRecipe (value : Json) :
    (imageRecipe value).generator = some .invokeAi := by
  unfold imageRecipe
  dsimp only
  split <;> rfl

lemma Invoke.generator_commandRecipe (line : String) :
    (commandRecipe line).generator = some .invokeAi := by
  simp only [commandRecipe, generator_withPrompt]

/-- Whether a family may give a recipe this generator: itself, or Niji for Midjourney. -/
def Family.MayGenerate (family : Family) (generator : Option Family) : Prop :=
  generator = some family ∨ generator = some .niji ∧ family = .midjourney

section Dialects

variable {chunks : TextMap} {family : Family} {settings : Settings} {r : Recipe}

lemma EmbeddedWorkflow.generator_of_ofChunks (h : ofChunks chunks settings = .ok r) :
    r.generator = some .comfyUi := by
  unfold ofChunks at h
  dsimp only at h
  split at h <;> cases h <;> rfl

lemma Invoke.generator_of_ofChunks (h : ofChunks chunks = .ok r) :
    r.generator = some .invokeAi := by
  unfold ofChunks at h
  split at h
  · rw [← Except.ok.inj h]
    rfl
  · split at h
    · rw [← Except.ok.inj h]
      exact generator_imageRecipe _
    · split at h
      · rw [← Except.ok.inj h]
        exact generator_commandRecipe _
      · cases h

lemma ParameterText.generator_of_ofChunks (h : ofChunks chunks family = .ok r) :
    r.generator = some family := by
  unfold ofChunks at h
  split at h
  · rw [← Except.ok.inj h]
    exact generator_recipe _ family
  · cases h

lemma Swarm.generator_of_ofChunks (h : ofChunks chunks = .ok r) :
    r.generator = some .swarmUi := by
  unfold ofChunks at h
  split at h
  · cases h
  · split at h
    · cases h
    · rw [← Except.ok.inj h]
      rfl

/-- The flag for Niji names the generator, whatever the family. -/
lemma PromptLine.generator_of_ofChunks (h : ofChunks chunks family = .ok r) :
    r.generator = some .niji ∨ r.generator = some family := by
  unfold ofChunks at h
  split at h
  · rw [← Except.ok.inj h]
    simp only [PromptLine.recipe]
    split
    · exact Or.inl rfl
    · exact Or.inr rfl
  · cases h

lemma DrawThings.generator_of_ofChunks (h : ofChunks chunks = .ok r) :
    r.generator = some .drawThings := by
  unfold ofChunks at h
  split at h
  · rw [← Except.ok.inj h, DrawThings.recipe, Recipe.generator_withSides]
  · cases h

lemma DreamStudio.generator_of_ofChunks (h : ofChunks chunks = .ok r) :
    r.generator = some .dreamStudio := by
  unfold ofChunks at h
  dsimp only at h
  split at h
  · rw [← Except.ok.inj h]
    exact Loose.generator_recipe _ _
  · split at h
    · rw [← Except.ok.inj h]
      exact ParameterText.generator_recipe _ _
    · split at h
      · rw [← Except.ok.inj h]
        rfl
      · cases h

lemma Hosted.generator_of_ofChunks (h : ofChunks chunks family = .ok r) :
    r.generator = some family := by
  unfold ofChunks at h
  split at h
  · cases h
  · rw [← Except.ok.inj h]

/-- Each dialect names its own family as the generator, except that a prompt line of Midjourney
may name Niji. -/
theorem mayGenerate_of_recipeOf (h : family.recipeOf chunks settings = .ok r) :
    family.MayGenerate r.generator := by
  cases family with
  | comfyUi => exact Or.inl (EmbeddedWorkflow.generator_of_ofChunks h)
  | invokeAi => exact Or.inl (Invoke.generator_of_ofChunks h)
  | a1111 => exact Or.inl (ParameterText.generator_of_ofChunks h)
  | forge => exact Or.inl (ParameterText.generator_of_ofChunks h)
  | sdNext => exact Or.inl (ParameterText.generator_of_ofChunks h)
  | swarmUi => exact Or.inl (Swarm.generator_of_ofChunks h)
  | midjourney =>
    rcases PromptLine.generator_of_ofChunks h with hn | hm
    · exact Or.inr ⟨hn, rfl⟩
    · exact Or.inl hm
  | niji => exact Or.inl ((or_self_iff).mp (PromptLine.generator_of_ofChunks h))
  | drawThings => exact Or.inl (DrawThings.generator_of_ofChunks h)
  | firefly => exact Or.inl (Hosted.generator_of_ofChunks h)
  | dreamStudio => exact Or.inl (DreamStudio.generator_of_ofChunks h)
  | dalle3 => exact Or.inl (Hosted.generator_of_ofChunks h)
  | unknown =>
    cases h
    exact Or.inl rfl

end Dialects

/-- Filling open fields leaves a recipe empty exactly if both recipes are. -/
lemma Recipe.isEmpty_filledFrom (r lower : Recipe) :
    (r.filledFrom lower).isEmpty = (r.isEmpty && lower.isEmpty) := by
  have hloras : (firstNonEmpty r.loras lower.loras).isEmpty =
      (r.loras.isEmpty && lower.loras.isEmpty) := by
    unfold firstNonEmpty
    cases h : r.loras.isEmpty <;> simp [h]
  simp only [Recipe.isEmpty, Recipe.filledFrom, Option.isNone_or, hloras]
  ac_rfl

/-- Whether no field but the two sides is set. -/
def Recipe.isEmptyButSides (r : Recipe) : Bool := { r with width := none, height := none }.isEmpty

lemma Recipe.isEmptyButSides_of_isEmpty {r : Recipe} (h : r.isEmpty = true) :
    r.isEmptyButSides = true ∧ r.width = none ∧ r.height = none := by
  simp only [Recipe.isEmpty, Bool.and_eq_true, Option.isNone_iff_eq_none] at h
  simp [Recipe.isEmptyButSides, Recipe.isEmpty, h]

lemma Recipe.isEmpty_withSize {r : Recipe} {size : Option (UInt32 × UInt32)}
    (h : (r.withSize size).isEmpty = true) : r.isEmpty = true := by
  rcases r.withSize_cases size with hs | ⟨width, height, -, -, -, -, -, hs⟩
  · rwa [hs] at h
  · simp [hs, Recipe.isEmpty] at h

/-- An empty recipe with a size set says nothing else, and it has no size but that one. -/
lemma Recipe.sides_withSize {r : Recipe} (h : r.isEmpty = true)
    (size : Option (UInt32 × UInt32)) :
    (r.withSize size).isEmptyButSides = true ∧
      ((r.withSize size).width = none ∧ (r.withSize size).height = none ∨
        ∃ width height, size = some (width, height) ∧ (r.withSize size).width = some width ∧
          (r.withSize size).height = some height) := by
  obtain ⟨hbut, hw, hh⟩ := Recipe.isEmptyButSides_of_isEmpty h
  rcases r.withSize_cases size with hs | ⟨width, height, hsize, -, -, -, -, hs⟩
  · rw [hs]
    exact ⟨hbut, Or.inl ⟨hw, hh⟩⟩
  · rw [hs]
    exact ⟨hbut, Or.inr ⟨width, height, hsize, rfl, rfl⟩⟩

lemma ImageKind.ofBytes?_eq_none_iff {bytes : Bytes} : ofBytes? bytes = none ↔
    ¬ [0x89, 0x50, 0x4E, 0x47, 0x0D, 0x0A, 0x1A, 0x0A] <+: bytes ∧
      ¬ [0xFF, 0xD8, 0xFF] <+: bytes := by
  rw [← pngSignature, ← jpegSignature, ← List.isPrefixOf_iff_prefix,
    ← List.isPrefixOf_iff_prefix]
  unfold ofBytes?
  cases pngSignature.isPrefixOf bytes <;> cases jpegSignature.isPrefixOf bytes <;> simp

/-- A file can be read exactly if its kind is known. -/
lemma ImageContent.ofBytes_eq_error_iff {file : Bytes} {name : Option String}
    {settings : Settings} {tags : TagReader} :
    (∃ fault, ofBytes file name settings tags = .error fault) ↔
      ImageKind.ofBytes? file = none := by
  unfold ofBytes
  cases ImageKind.ofBytes? file with
  | none => simp
  | some kind => cases kind <;> simp

lemma Status.ofRecipe_eq_parsed_iff {r : Recipe} :
    Status.ofRecipe r = .parsed ↔ r.isEmpty = false := by
  cases h : r.isEmpty <;> simp [Status.ofRecipe, h]

lemma Status.ofRecipe_eq_noMetadata_iff {r : Recipe} :
    Status.ofRecipe r = .noMetadata ↔ r.isEmpty = true := by
  cases h : r.isEmpty <;> simp [Status.ofRecipe, h]

namespace Outcome

/-- The status says whether the recipe is empty, and the recipe is normal. -/
structure IsConsistent (outcome : Outcome) : Prop where
  status : outcome.status = .ofRecipe outcome.recipe
  normal : outcome.recipe.IsNormal

theorem isConsistent_nothing : nothing.IsConsistent := ⟨rfl, Recipe.isNormal_empty⟩

/-- Filling from a normal recipe keeps the status right, as a recipe that says something goes on
to do so. -/
theorem IsConsistent.filledFrom {outcome : Outcome} (h : outcome.IsConsistent) {lower : Recipe}
    (hl : lower.IsNormal) : (outcome.filledFrom lower).IsConsistent := by
  refine ⟨?_, h.normal.filledFrom hl⟩
  unfold Outcome.filledFrom
  by_cases hs : outcome.status = .noMetadata
  · simp only [hs, if_true]
  · have hne : outcome.recipe.isEmpty = false := by
      rw [h.status, Status.ofRecipe_eq_noMetadata_iff] at hs
      exact Bool.eq_false_iff.mpr hs
    have hparsed : Status.ofRecipe (outcome.recipe.filledFrom lower) = .parsed := by
      rw [Status.ofRecipe_eq_parsed_iff, Recipe.isEmpty_filledFrom, hne, Bool.false_and]
    simp only [hs, if_false, hparsed]
    rw [h.status, Status.ofRecipe_eq_parsed_iff]
    exact hne

/-- What an image says and, behind it, what the sidecar says, if there is one. -/
def beside (outcome : Outcome) (lower : Option Recipe) : Outcome :=
  lower.elim outcome outcome.filledFrom

lemma IsConsistent.beside {outcome : Outcome} (h : outcome.IsConsistent) {lower : Option Recipe}
    (hl : ∀ r ∈ lower, r.IsNormal) : (outcome.beside lower).IsConsistent := by
  cases lower with
  | none => exact h
  | some r => exact h.filledFrom (hl r rfl)

/-- A generator that is set is not filled in. -/
lemma mayGenerate_beside {outcome : Outcome}
    (h : outcome.family.MayGenerate outcome.recipe.generator) (lower : Option Recipe) :
    (outcome.beside lower).family.MayGenerate (outcome.beside lower).recipe.generator := by
  cases lower with
  | none => exact h
  | some r =>
    have hkept : (outcome.filledFrom r).recipe.generator = outcome.recipe.generator := by
      change outcome.recipe.generator.or r.generator = outcome.recipe.generator
      rcases h with hg | ⟨hg, -⟩ <;> rw [hg] <;> rfl
    change outcome.family.MayGenerate (outcome.filledFrom r).recipe.generator
    rw [hkept]
    exact h

section Size

variable {outcome : Outcome} {size : Option (UInt32 × UInt32)}

@[simp] lemma status_withSize : (outcome.withSize size).status = outcome.status := rfl

@[simp] lemma family_withSize : (outcome.withSize size).family = outcome.family := rfl

@[simp] lemma recipe_withSize : (outcome.withSize size).recipe = outcome.recipe.withSize size := rfl

lemma IsConsistent.status_ne_unreadable (h : outcome.IsConsistent) :
    outcome.status ≠ .unreadable := by
  rw [h.status, Status.ofRecipe]
  split <;> exact nofun

lemma IsConsistent.isEmpty_of_parsed (h : outcome.IsConsistent)
    (hp : outcome.status = .parsed) (size : Option (UInt32 × UInt32)) :
    (outcome.recipe.withSize size).isEmpty = false := by
  rw [h.status, Status.ofRecipe_eq_parsed_iff] at hp
  by_contra he
  have hempty : outcome.recipe.isEmpty = true := Recipe.isEmpty_withSize (by simpa using he)
  exact Bool.eq_false_iff.mp hp hempty

/-- Where nothing was found, the size is all that can be set. -/
lemma IsConsistent.sides_of_noMetadata (h : outcome.IsConsistent)
    (hn : outcome.status = .noMetadata) {imageSize : Option (UInt32 × UInt32)}
    (hsize : size = none ∨ size = imageSize) :
    (outcome.recipe.withSize size).isEmptyButSides = true ∧
      ((outcome.recipe.withSize size).width = none ∧
          (outcome.recipe.withSize size).height = none ∨
        ∃ width height, imageSize = some (width, height) ∧
          (outcome.recipe.withSize size).width = some width ∧
          (outcome.recipe.withSize size).height = some height) := by
  rw [h.status, Status.ofRecipe_eq_noMetadata_iff] at hn
  obtain ⟨hbut, hsides⟩ := Recipe.sides_withSize hn size
  refine ⟨hbut, ?_⟩
  rcases hsides with hnone | ⟨width, height, hs, hw, hh⟩
  · exact Or.inl hnone
  · rcases hsize with rfl | rfl
    · cases hs
    · exact Or.inr ⟨width, height, hs, hw, hh⟩

end Size

end Outcome

namespace Reader

variable (reader : Reader)

lemma mayGenerate_recipeOf (family : Family) (chunks : TextMap) :
    family.MayGenerate (reader.recipeOf family chunks).1.generator := by
  unfold recipeOf
  split
  · rename_i r hr
    split
    · exact mayGenerate_of_recipeOf hr
    · exact Or.inl rfl
  · exact Or.inl rfl

lemma isConsistent_readChunks (chunks : TextMap) : (reader.readChunks chunks).IsConsistent := by
  unfold readChunks
  split
  · exact Outcome.isConsistent_nothing
  · exact ⟨rfl, Recipe.isNormal_normalized _⟩

lemma readChunks_of_ne {chunks : TextMap} (h : chunks ≠ ∅) :
    reader.readChunks chunks =
      let (found, note) := reader.recipeOf (Detection.family chunks) chunks
      ⟨found.normalized, .ofRecipe found.normalized, Detection.family chunks, note⟩ := by
  have hne : ¬ chunks.isEmpty = true := fun he => h (Std.ExtTreeMap.isEmpty_iff.mp he)
  rw [readChunks, if_neg hne]

lemma mayGenerate_readChunks {chunks : TextMap} (h : chunks ≠ ∅) :
    (reader.readChunks chunks).family.MayGenerate (reader.readChunks chunks).recipe.generator := by
  rw [reader.readChunks_of_ne h]
  exact reader.mayGenerate_recipeOf _ chunks

lemma isNormal_sidecar {file : Option Bytes} {r : Recipe} (h : reader.sidecar? file = some r) :
    r.IsNormal := by
  obtain ⟨bytes, -, hr⟩ := Option.bind_eq_some_iff.mp h
  unfold Sidecar.recipe? at hr
  dsimp only at hr
  split at hr
  · obtain ⟨hr, -⟩ := Option.filter_eq_some_iff.mp hr
    obtain ⟨found, -, rfl⟩ := Option.map_eq_some_iff.mp hr
    exact found.isNormal_normalized
  · split at hr
    · rw [← Option.some.inj hr]
      exact Recipe.isNormal_normalized _
    · cases hr

/-- How the file, the sidecar and the size of the image make an outcome. -/
lemma read_eq_of_ok {file : Bytes} {name : Option String} {content : ImageContent}
    (h : ImageContent.ofBytes file name reader.settings reader.tags = .ok content)
    (sidecar : Option Bytes) : reader.read file name sidecar =
      ((reader.readChunks content.chunks).beside (reader.sidecar? sidecar)).withSize
        (if reader.settings.imageDimensionsFallback then content.size else none) := by
  rw [read, h]
  cases reader.sidecar? sidecar <;> cases reader.settings.imageDimensionsFallback <;> rfl

/-- Reading an image gives a consistent outcome, in which only the size may then be set. -/
lemma read_of_ok {file : Bytes} {name : Option String} {content : ImageContent}
    (h : ImageContent.ofBytes file name reader.settings reader.tags = .ok content)
    (sidecar : Option Bytes) :
    ∃ outcome : Outcome, ∃ size, outcome.IsConsistent ∧
      (content.chunks ≠ ∅ → outcome.family.MayGenerate outcome.recipe.generator) ∧
      (size = none ∨ size = content.size) ∧
      reader.read file name sidecar = outcome.withSize size := by
  have hlower : ∀ r ∈ reader.sidecar? sidecar, r.IsNormal := fun _ => reader.isNormal_sidecar
  refine ⟨_, _, (reader.isConsistent_readChunks content.chunks).beside hlower, ?_, ?_,
    reader.read_eq_of_ok h sidecar⟩
  · exact fun hne => Outcome.mayGenerate_beside (reader.mayGenerate_readChunks hne) _
  · split
    · exact Or.inr rfl
    · exact Or.inl rfl

/-- What reading a file gives, for any bytes, name, sidecar file and reader of tags. It fails on a
file that begins neither as a PNG nor as a JPEG file, and on no other. The status says whether
anything but the size of the image was found; the recipe is normal; and with a text in the image
the generator is the family that was told, or Niji for Midjourney. -/
theorem read_lawful (file : Bytes) (name : Option String) (sidecar : Option Bytes) :
    let outcome := reader.read file name sidecar
    (outcome.status = .unreadable ↔
      ¬ [0x89, 0x50, 0x4E, 0x47, 0x0D, 0x0A, 0x1A, 0x0A] <+: file ∧
        ¬ [0xFF, 0xD8, 0xFF] <+: file) ∧
    (outcome.status = .unreadable → outcome.recipe = {}) ∧
    (outcome.status = .parsed → outcome.recipe.isEmpty = false) ∧
    (outcome.status = .noMetadata → outcome.recipe.isEmptyButSides = true ∧
      (outcome.recipe.width = none ∧ outcome.recipe.height = none ∨
        ∃ content width height,
          ImageContent.ofBytes file name reader.settings reader.tags = .ok content ∧
          content.size = some (width, height) ∧ outcome.recipe.width = some width ∧
          outcome.recipe.height = some height)) ∧
    outcome.recipe.normalized = outcome.recipe ∧
    ∀ content, ImageContent.ofBytes file name reader.settings reader.tags = .ok content →
      content.chunks ≠ ∅ → outcome.recipe.generator = some outcome.family ∨
        outcome.recipe.generator = some .niji ∧ outcome.family = .midjourney := by
  intro outcome
  have hbytes : ImageKind.ofBytes? file = none ↔ _ := ImageKind.ofBytes?_eq_none_iff
  cases hc : ImageContent.ofBytes file name reader.settings reader.tags with
  | error fault =>
    have hnone : ImageKind.ofBytes? file = none := ImageContent.ofBytes_eq_error_iff.mp ⟨fault, hc⟩
    have ho : outcome = .unreadable fault := by
      change reader.read file name sidecar = _
      rw [read, hc]
    rw [ho]
    refine ⟨⟨fun _ => hbytes.mp hnone, fun _ => rfl⟩, fun _ => rfl, nofun, nofun, ?_, nofun⟩
    exact Recipe.normalized_eq_iff.mpr Recipe.isNormal_empty
  | ok content =>
    have hsome : ImageKind.ofBytes? file ≠ none := by
      intro hn
      have herror : ∃ fault, ImageContent.ofBytes file name reader.settings reader.tags =
          .error fault := ImageContent.ofBytes_eq_error_iff.mpr hn
      obtain ⟨fault, hf⟩ := herror
      rw [hc] at hf
      cases hf
    obtain ⟨inner, size, hinner, hgen, hsize, hread⟩ := reader.read_of_ok hc sidecar
    have ho : outcome = inner.withSize size := hread
    rw [ho, Outcome.status_withSize, Outcome.recipe_withSize, Outcome.family_withSize]
    have hreadable : inner.status ≠ .unreadable := hinner.status_ne_unreadable
    refine ⟨⟨fun h => absurd h hreadable, fun h => absurd (hbytes.mpr h) hsome⟩,
      fun h => absurd h hreadable, fun h => hinner.isEmpty_of_parsed h size, fun h => ?_, ?_, ?_⟩
    · obtain ⟨hbut, hsides⟩ := hinner.sides_of_noMetadata h hsize
      refine ⟨hbut, hsides.imp_right fun ⟨width, height, hs, hw, hh⟩ => ?_⟩
      exact ⟨content, width, height, rfl, hs, hw, hh⟩
    · exact Recipe.normalized_eq_iff.mpr (hinner.normal.withSize size)
    · intro other hother hne
      rw [← Except.ok.inj hother] at hne
      rw [Recipe.generator_withSize]
      exact hgen hne

end Reader

end ImageRecipe
