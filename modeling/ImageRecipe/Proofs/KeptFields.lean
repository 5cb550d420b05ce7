import ImageRecipe.Proofs.FallingBack
import ImageRecipe.Proofs.VisibleEnds

/-!
# Dialects whose fields stay set

A recipe that is empty in its normal form only is not fallen back from. This
cannot come from the texts of a dialect that is an object, since these are never
blank, but from numbers out of their range. A dialect that is a text with the
prompt in front sets the prompt always, be it blank, and a platform always names
its model: there reading falls back only if the dialect fails.
-/
namespace ImageRecipe

namespace Text

/-- A text with something visible in it is not blank. -/
lemma isSome_nonBlank?_of_mem {s : String} {c : Char} (h : c ∈ s.toList)
    (hc : isBlank c = false) : (nonBlank? s).isSome = true := by
  obtain ⟨-, -, -, -, -, -, hends⟩ := exists_blanks_around_trim ⟨c, h, hc⟩
  have hne : (trimmed s).isEmpty = false := by
    rw [String.isEmpty_eq_false_iff]
    intro hempty
    have hchars := congrArg String.toList hempty
    rw [trimmed, String.toList_ofList] at hchars
    exact hends.ne_nil hchars
  rw [nonBlank?, hne]
  rfl

lemma exists_mem_decimalText (n : Nat) : ∃ c ∈ (decimalText n).toList, isBlank c = false := by
  obtain ⟨c, rest, hdigits⟩ := List.exists_cons_of_ne_nil (@Nat.toDigits_ne_nil n 10)
  have hmem : c ∈ Nat.toDigits 10 n := hdigits ▸ List.mem_cons_self
  refine ⟨c, ?_, isBlank_of_isDigit (Nat.isDigit_of_mem_toDigits (by decide) (by decide) hmem)⟩
  rwa [decimalText, String.toList_ofList]

end Text

namespace Number

/-- A magnitude has a point or an exponent. -/
lemma mem_magnitudeText (b : Decimal.Binary) :
    '.' ∈ magnitudeText b ∨ 'e' ∈ magnitudeText b := by
  unfold magnitudeText
  split
  · simp
  · dsimp only
    split
    · left
      unfold positional
      split <;> simp
    · right
      simp [scientific]

/-- The text of a number is not blank. -/
lemma exists_mem_text (n : Number) : ∃ c ∈ n.text.toList, Text.isBlank c = false := by
  cases n with
  | int i =>
    obtain ⟨c, hc, hvisible⟩ := Text.exists_mem_decimalText i.natAbs
    refine ⟨c, ?_, hvisible⟩
    rw [text, Text.integerText]
    split
    · rw [String.toList_append]
      exact List.mem_append_right _ hc
    · exact hc
  | real x =>
    rw [text, realText]
    cases Decimal.Binary.ofFloat? x with
    | none =>
      have hmem : 'n' ∈ "null".toList := by decide
      exact ⟨'n', hmem, by decide⟩
    | some b =>
      have hmem : ∀ c ∈ magnitudeText b, c ∈ (String.ofList (if Decimal.isNegative x then
          '-' :: magnitudeText b else magnitudeText b)).toList := by
        intro c hc
        rw [String.toList_ofList]
        split
        · exact List.mem_cons_of_mem _ hc
        · exact hc
      rcases mem_magnitudeText b with hpoint | hexponent
      · exact ⟨'.', hmem _ hpoint, by decide⟩
      · exact ⟨'e', hmem _ hexponent, by decide⟩

end Number

namespace Json

lemma isSome_nonBlank?_of_looseText? {value : Json} {s : String} (h : value.looseText? = some s) :
    (Text.nonBlank? s).isSome = true := by
  unfold looseText? at h
  split at h
  · rename_i n
    cases h
    obtain ⟨c, hc, hvisible⟩ := n.exists_mem_text
    exact Text.isSome_nonBlank?_of_mem hc hvisible
  · rw [Text.nonBlank?_of_eq_some h]
    rfl
  · cases h

/-- A text that is looked up in an object is not blank. -/
lemma isSome_nonBlank?_textAt? (value : Json) (names : List String) :
    ∀ s ∈ value.textAt? names, (Text.nonBlank? s).isSome = true := by
  intro s hs
  obtain ⟨name, -, hname⟩ := List.exists_of_findSome?_eq_some hs
  obtain ⟨member, -, hmember⟩ := Option.bind_eq_some_iff.mp hname
  exact isSome_nonBlank?_of_looseText? hmember

end Json

namespace Recipe

/-- No text that is set is blank. -/
structure KeepsTexts (r : Recipe) : Prop where
  prompt : ∀ s ∈ r.prompt, (Text.nonBlank? s).isSome = true
  negativePrompt : ∀ s ∈ r.negativePrompt, (Text.nonBlank? s).isSome = true
  model : ∀ s ∈ r.model, (Text.nonBlank? s).isSome = true
  vae : ∀ s ∈ r.vae, (Text.nonBlank? s).isSome = true
  loras : ∀ lora ∈ r.loras, (Text.nonBlank? lora.name).isSome = true
  sampler : ∀ s ∈ r.sampler, (Text.nonBlank? s).isSome = true
  scheduler : ∀ s ∈ r.scheduler, (Text.nonBlank? s).isSome = true

/-- No number that is set is out of its range. -/
structure KeepsNumbers (r : Recipe) : Prop where
  steps : ∀ n ∈ r.steps, 0 < n
  cfg : ∀ x ∈ r.cfg, Decimal.isFinite x = true
  denoise : ∀ x ∈ r.denoise, (Decimal.isFinite x && 0.0 ≤ x) = true
  width : ∀ n ∈ r.width, 0 < n
  height : ∀ n ∈ r.height, 0 < n

variable {r : Recipe}

theorem keepsFields_iff : r.KeepsFields ↔ r.KeepsTexts ∧ r.KeepsNumbers := by
  constructor
  · intro h
    exact ⟨⟨h.prompt, h.negativePrompt, h.model, h.vae, h.loras, h.sampler, h.scheduler⟩,
      ⟨h.steps, h.cfg, h.denoise, h.width, h.height⟩⟩
  · rintro ⟨htexts, hnumbers⟩
    exact ⟨htexts.prompt, htexts.negativePrompt, htexts.model, htexts.vae, htexts.loras,
      hnumbers.steps, hnumbers.cfg, htexts.sampler, htexts.scheduler, hnumbers.denoise,
      hnumbers.width, hnumbers.height⟩

lemma KeepsTexts.withSides (h : r.KeepsTexts) (size : Option (UInt32 × UInt32)) :
    (r.withSides size).KeepsTexts := by
  cases size with
  | none => exact h
  | some size =>
    exact ⟨h.prompt, h.negativePrompt, h.model, h.vae, h.loras, h.sampler, h.scheduler⟩

lemma isEmpty_of_prompt (h : r.prompt.isSome = true) : r.isEmpty = false := by
  rw [isEmpty, Option.isNone_eq_false_iff.mpr h]
  rfl

lemma isEmpty_of_model (h : r.model.isSome = true) : r.isEmpty = false := by
  rw [isEmpty, Option.isNone_eq_false_iff.mpr h]
  simp

end Recipe

lemma Swarm.keepsTexts_recipe (settings : Json) : (recipe settings).KeepsTexts where
  prompt := settings.isSome_nonBlank?_textAt? _
  negativePrompt := settings.isSome_nonBlank?_textAt? _
  model := settings.isSome_nonBlank?_textAt? _
  vae := settings.isSome_nonBlank?_textAt? _
  loras := by
    intro lora hlora
    obtain ⟨⟨entry, place⟩, -, hentry⟩ := List.mem_filterMap.mp hlora
    obtain ⟨name, -, hname⟩ := Option.bind_eq_some_iff.mp hentry
    obtain ⟨text, htext, hsome⟩ := Option.bind_eq_some_iff.mp hname
    cases hsome
    rw [Text.nonBlank?_of_eq_some htext]
    rfl
  sampler := settings.isSome_nonBlank?_textAt? _
  scheduler := settings.isSome_nonBlank?_textAt? _

lemma DrawThings.keepsTexts_recipe (value : Json) : (recipe value).KeepsTexts := by
  refine Recipe.KeepsTexts.withSides ?_ _
  refine ⟨value.isSome_nonBlank?_textAt? _, value.isSome_nonBlank?_textAt? _,
    value.isSome_nonBlank?_textAt? _, ?_, ?_, value.isSome_nonBlank?_textAt? _, ?_⟩
  · exact nofun
  · intro lora hlora
    obtain ⟨entry, -, hentry⟩ := List.mem_filterMap.mp hlora
    obtain ⟨name, hname, rfl⟩ := Option.map_eq_some_iff.mp hentry
    exact entry.isSome_nonBlank?_textAt? _ name hname
  · exact nofun

lemma Loose.keepsTexts_recipe (value : Json) (family : Family) :
    (recipe value family).KeepsTexts := by
  have hfields : ∀ fields : Recipe, fields.KeepsTexts → (if fields.width.isSome then fields
      else fields.withSides (value.sizeAt? ["size", "Size"])).KeepsTexts := by
    intro fields h
    split
    · exact h
    · exact h.withSides _
  exact hfields _ ⟨value.isSome_nonBlank?_textAt? _, value.isSome_nonBlank?_textAt? _,
    value.isSome_nonBlank?_textAt? _, value.isSome_nonBlank?_textAt? _,
    nofun, value.isSome_nonBlank?_textAt? _, value.isSome_nonBlank?_textAt? _⟩

namespace Invoke

lemma isSome_nonBlank?_modelName? {value : Json} {s : String} (h : modelName? value = some s) :
    (Text.nonBlank? s).isSome = true := by
  unfold modelName? at h
  split at h
  · rw [Text.nonBlank?_of_eq_some h]
    rfl
  · exact Json.isSome_nonBlank?_textAt? _ _ s h
  · cases h

lemma keepsTexts_metadataRecipe (value : Json) : (metadataRecipe value).KeepsTexts where
  prompt := value.isSome_nonBlank?_textAt? _
  negativePrompt := value.isSome_nonBlank?_textAt? _
  model := by
    intro s hs
    obtain ⟨model, -, hmodel⟩ := Option.bind_eq_some_iff.mp hs
    exact isSome_nonBlank?_modelName? hmodel
  vae := by
    intro s hs
    obtain ⟨vae, -, hvae⟩ := Option.bind_eq_some_iff.mp hs
    exact isSome_nonBlank?_modelName? hvae
  loras := by
    intro lora hlora
    obtain ⟨entry, -, hentry⟩ := List.mem_filterMap.mp hlora
    obtain ⟨model, -, hmodel⟩ := Option.bind_eq_some_iff.mp hentry
    obtain ⟨name, hname, hsome⟩ := Option.bind_eq_some_iff.mp hmodel
    cases hsome
    exact isSome_nonBlank?_modelName? hname
  sampler := nofun
  scheduler := value.isSome_nonBlank?_textAt? _

/-- The object with the image keeps its texts, or it has a prompt, which may be blank. -/
lemma keepsTexts_imageRecipe_or (value : Json) :
    (imageRecipe value).KeepsTexts ∨ (imageRecipe value).prompt.isSome = true := by
  unfold imageRecipe
  dsimp only
  split
  · exact .inr rfl
  · exact .inl ⟨nofun, nofun, value.isSome_nonBlank?_textAt? _,
      nofun, nofun, Json.isSome_nonBlank?_textAt? _ _,
      nofun⟩

end Invoke

lemma ParameterText.isSome_prompt (s : String) (family : Family) :
    (recipe s family).prompt.isSome = true := rfl

lemma PromptLine.isSome_prompt (line : String) (family : Family) :
    (recipe line family).prompt.isSome = true := rfl

section Dialects

variable {chunks : TextMap} {family : Family} {settings : Settings} {r : Recipe}

lemma Invoke.keepsTexts_or_prompt (h : ofChunks chunks = .ok r) :
    r.KeepsTexts ∨ r.prompt.isSome = true := by
  unfold ofChunks at h
  split at h
  · cases h
    exact .inl (keepsTexts_metadataRecipe _)
  · split at h
    · cases h
      exact keepsTexts_imageRecipe_or _
    · split at h
      · cases h
        exact .inr rfl
      · cases h

lemma ParameterText.isSome_prompt_of_ofChunks (h : ofChunks chunks family = .ok r) :
    r.prompt.isSome = true := by
  unfold ofChunks at h
  split at h
  · rw [← Except.ok.inj h]
    exact isSome_prompt _ _
  · cases h

lemma PromptLine.isSome_prompt_of_ofChunks (h : ofChunks chunks family = .ok r) :
    r.prompt.isSome = true := by
  unfold ofChunks at h
  split at h
  · rw [← Except.ok.inj h]
    exact isSome_prompt _ _
  · cases h

lemma Swarm.keepsTexts_of_ofChunks (h : ofChunks chunks = .ok r) : r.KeepsTexts := by
  unfold ofChunks at h
  split at h
  · cases h
  · split at h
    · cases h
    · cases h
      exact keepsTexts_recipe _

lemma DrawThings.keepsTexts_of_ofChunks (h : ofChunks chunks = .ok r) : r.KeepsTexts := by
  unfold ofChunks at h
  split at h
  · cases h
    exact keepsTexts_recipe _
  · cases h

lemma DreamStudio.keepsTexts_or_prompt (h : ofChunks chunks = .ok r) :
    r.KeepsTexts ∨ r.prompt.isSome = true := by
  unfold ofChunks at h
  dsimp only at h
  split at h
  · rw [← Except.ok.inj h]
    exact .inl (Loose.keepsTexts_recipe _ _)
  · split at h
    · rw [← Except.ok.inj h]
      exact .inr (ParameterText.isSome_prompt _ _)
    · split at h
      · rw [← Except.ok.inj h]
        exact .inr rfl
      · cases h

/-- A platform names its model. -/
lemma Hosted.model_of_ofChunks (h : ofChunks chunks family = .ok r) :
    r.model = family.platformModel? := by
  unfold ofChunks at h
  split at h
  · cases h
  · cases h
    rfl

lemma isSome_nonBlank?_platformModel? (family : Family) :
    ∀ s ∈ family.platformModel?, (Text.nonBlank? s).isSome = true := by
  cases family <;> decide +kernel

/-- The texts of a platform's recipe are its model and the prompt. -/
lemma Hosted.keepsTexts_or_prompt (h : ofChunks chunks family = .ok r) :
    r.KeepsTexts ∨ r.prompt.isSome = true := by
  unfold ofChunks at h
  split at h
  · cases h
  · rw [← Except.ok.inj h]
    cases hprompt : description? chunks with
    | some prompt => exact .inr rfl
    | none =>
      exact .inl ⟨nofun, nofun, isSome_nonBlank?_platformModel? family, nofun, nofun, nofun, nofun⟩

namespace Family

/-- The families whose dialects set a field whatever stands in their texts: the prompt in front of
the flags or the settings, or the model of the platform. -/
def neverSilent : Family → Bool
  | a1111 | forge | sdNext | midjourney | niji | firefly | dalle3 => true
  | _ => false

theorem isEmpty_of_neverSilent (hfamily : family.neverSilent = true)
    (h : family.recipeOf chunks settings = .ok r) : r.isEmpty = false := by
  cases family with
  | a1111 | forge | sdNext =>
    exact Recipe.isEmpty_of_prompt (ParameterText.isSome_prompt_of_ofChunks h)
  | midjourney | niji => exact Recipe.isEmpty_of_prompt (PromptLine.isSome_prompt_of_ofChunks h)
  | firefly | dalle3 =>
    refine Recipe.isEmpty_of_model ?_
    rw [Hosted.model_of_ofChunks h]
    rfl
  | _ => cases hfamily

/-- If the normal form of such a recipe is empty, a field was left out of it. -/
theorem not_keepsFields_of_neverSilent (hfamily : family.neverSilent = true)
    (h : family.recipeOf chunks settings = .ok r) (hempty : r.normalized.isEmpty = true) :
    ¬ r.KeepsFields := by
  intro hkeeps
  have hspeaks := isEmpty_of_neverSilent hfamily h
  rw [Recipe.isEmpty_iff_normalized.mpr ⟨hempty, hkeeps⟩] at hspeaks
  cases hspeaks

/-- The families whose dialect is an object leave numbers out at most. -/
theorem keepsFields_iff_of_object (hfamily : family = .swarmUi ∨ family = .drawThings)
    (h : family.recipeOf chunks settings = .ok r) : r.KeepsFields ↔ r.KeepsNumbers := by
  have htexts : r.KeepsTexts := by
    rcases hfamily with rfl | rfl
    · exact Swarm.keepsTexts_of_ofChunks h
    · exact DrawThings.keepsTexts_of_ofChunks h
  rw [Recipe.keepsFields_iff, and_iff_right htexts]

/-- What the dialect of a family other than that of workflows gives has a prompt or only texts that
stay set. -/
lemma keepsTexts_or_prompt (hworkflow : family ≠ .comfyUi) (hunknown : family ≠ .unknown)
    (h : family.recipeOf chunks settings = .ok r) : r.KeepsTexts ∨ r.prompt.isSome = true := by
  cases family with
  | comfyUi => exact absurd rfl hworkflow
  | unknown => exact absurd rfl hunknown
  | invokeAi => exact Invoke.keepsTexts_or_prompt h
  | a1111 | forge | sdNext => exact .inr (ParameterText.isSome_prompt_of_ofChunks h)
  | swarmUi => exact .inl (Swarm.keepsTexts_of_ofChunks h)
  | midjourney | niji => exact .inr (PromptLine.isSome_prompt_of_ofChunks h)
  | drawThings => exact .inl (DrawThings.keepsTexts_of_ofChunks h)
  | dreamStudio => exact DreamStudio.keepsTexts_or_prompt h
  | firefly | dalle3 => exact Hosted.keepsTexts_or_prompt h

/-- So do all other families but that of workflows, if there is no prompt. -/
theorem keepsFields_iff_of_no_prompt (hworkflow : family ≠ .comfyUi) (hunknown : family ≠ .unknown)
    (h : family.recipeOf chunks settings = .ok r) (hprompt : r.prompt = none) :
    r.KeepsFields ↔ r.KeepsNumbers := by
  have htexts := (keepsTexts_or_prompt hworkflow hunknown h).resolve_right fun hsome => by
    rw [hprompt] at hsome
    cases hsome
  rw [Recipe.keepsFields_iff, and_iff_right htexts]

/-- With a prompt, be it blank, a recipe is not empty; without one it is empty exactly if its normal
form is and no number was left out of that. -/
theorem isEmpty_recipeOf_iff (hworkflow : family ≠ .comfyUi) (hunknown : family ≠ .unknown)
    (h : family.recipeOf chunks settings = .ok r) :
    r.isEmpty = true ↔ r.prompt = none ∧ r.normalized.isEmpty = true ∧ r.KeepsNumbers := by
  cases hprompt : r.prompt with
  | some prompt =>
    rw [Recipe.isEmpty_of_prompt (Option.isSome_of_eq_some hprompt)]
    simp
  | none =>
    rw [Recipe.isEmpty_iff_normalized,
      keepsFields_iff_of_no_prompt hworkflow hunknown h hprompt]
    simp

end Family

end Dialects

namespace Reader

variable {reader : Reader} {family : Family} {chunks : TextMap}

/-- From a dialect that always sets a field reading falls back only if this fails. -/
theorem isSome_note_iff_of_neverSilent (hsettings : reader.settings.fallbackOnEmpty = true)
    (hfamily : family.neverSilent = true) :
    (reader.recipeOf family chunks).2.isSome = true ↔
      ∃ fault, family.recipeOf chunks reader.settings = .error fault := by
  have hunknown : family ≠ .unknown := by
    rintro rfl
    cases hfamily
  rw [isSome_note_recipeOf_iff hsettings hunknown]
  constructor
  · intro hempty
    cases hread : family.recipeOf chunks reader.settings with
    | error fault => exact ⟨fault, rfl⟩
    | ok r =>
      have hsilent := hempty r hread
      rw [Family.isEmpty_of_neverSilent hfamily hread] at hsilent
      cases hsilent
  · rintro ⟨fault, hfault⟩ r hr
    rw [hfault] at hr
    cases hr

/-- From a recipe that is not that of a workflow reading falls back exactly if it has no prompt, its
normal form is empty, and no number was left out of that. -/
theorem isSome_note_iff_of_ok (hsettings : reader.settings.fallbackOnEmpty = true)
    (hworkflow : family ≠ .comfyUi) (hunknown : family ≠ .unknown) {r : Recipe}
    (hread : family.recipeOf chunks reader.settings = .ok r) :
    (reader.recipeOf family chunks).2.isSome = true ↔
      r.prompt = none ∧ r.normalized.isEmpty = true ∧ r.KeepsNumbers := by
  rw [isSome_note_recipeOf_iff hsettings hunknown,
    ← Family.isEmpty_recipeOf_iff hworkflow hunknown hread]
  constructor
  · exact fun hempty => hempty r hread
  · intro hempty other hother
    cases hread.symm.trans hother
    exact hempty

end Reader

end ImageRecipe
