import ImageRecipe.Proofs.Outcomes

/-!
# Falling back on plain text

When the dialect of an image gives nothing, what can be gleaned from all its
texts takes the place of its recipe. Whether the dialect gave anything is asked
before the recipe is brought into its normal form. So a field that the normal
form leaves out, such as an empty prompt or zero steps, counts as something.
-/
namespace ImageRecipe

namespace Recipe

/-- No field that is set is left out of the normal form. -/
structure KeepsFields (r : Recipe) : Prop where
  prompt : ∀ s ∈ r.prompt, (Text.nonBlank? s).isSome = true
  negativePrompt : ∀ s ∈ r.negativePrompt, (Text.nonBlank? s).isSome = true
  model : ∀ s ∈ r.model, (Text.nonBlank? s).isSome = true
  vae : ∀ s ∈ r.vae, (Text.nonBlank? s).isSome = true
  loras : ∀ lora ∈ r.loras, (Text.nonBlank? lora.name).isSome = true
  steps : ∀ n ∈ r.steps, 0 < n
  cfg : ∀ x ∈ r.cfg, Decimal.isFinite x = true
  sampler : ∀ s ∈ r.sampler, (Text.nonBlank? s).isSome = true
  scheduler : ∀ s ∈ r.scheduler, (Text.nonBlank? s).isSome = true
  denoise : ∀ x ∈ r.denoise, (Decimal.isFinite x && 0.0 ≤ x) = true
  width : ∀ n ∈ r.width, 0 < n
  height : ∀ n ∈ r.height, 0 < n

section Fields

variable {α : Type} {f : α → Option α} {p : α → Bool} {a : Option α}

lemma isNone_bind_of_keeps (h : ∀ x ∈ a, (f x).isSome = true) : (a.bind f).isNone = a.isNone := by
  cases a with
  | none => rfl
  | some x =>
    obtain ⟨y, hy⟩ := Option.isSome_iff_exists.mp (h x rfl)
    rw [Option.bind_some, hy]
    rfl

lemma isNone_filter_of_keeps (h : ∀ x ∈ a, p x = true) : (a.filter p).isNone = a.isNone := by
  cases a with
  | none => rfl
  | some x => rw [Option.filter_some, if_pos (h x rfl)]

lemma isEmpty_filterMap_of_keeps {l : List α} (h : ∀ x ∈ l, (f x).isSome = true) :
    (l.filterMap f).isEmpty = l.isEmpty := by
  cases l with
  | nil => rfl
  | cons x l =>
    obtain ⟨y, hy⟩ := Option.isSome_iff_exists.mp (h x List.mem_cons_self)
    rw [List.filterMap_cons_some hy]
    rfl

end Fields

/-- If no field is left out, nothing is empty that was not empty before. -/
lemma KeepsFields.isEmpty_normalized {r : Recipe} (h : r.KeepsFields) :
    r.normalized.isEmpty = r.isEmpty := by
  have hloras : ∀ lora ∈ r.loras, lora.normalized?.isSome = true := fun lora hlora => by
    rw [Lora.normalized?, Option.isSome_map]
    exact h.loras lora hlora
  simp only [isEmpty, normalized]
  rw [isNone_bind_of_keeps h.prompt, isNone_bind_of_keeps h.negativePrompt,
    isNone_bind_of_keeps h.model, isNone_bind_of_keeps h.vae, isEmpty_filterMap_of_keeps hloras,
    isNone_filter_of_keeps fun n hn => decide_eq_true (h.steps n hn),
    isNone_filter_of_keeps h.cfg, isNone_bind_of_keeps h.sampler,
    isNone_bind_of_keeps h.scheduler, isNone_filter_of_keeps h.denoise,
    isNone_filter_of_keeps fun n hn => decide_eq_true (h.width n hn),
    isNone_filter_of_keeps fun n hn => decide_eq_true (h.height n hn)]

lemma keepsFields_of_isEmpty {r : Recipe} (h : r.isEmpty = true) : r.KeepsFields := by
  simp only [isEmpty, Bool.and_eq_true, Option.isNone_iff_eq_none, List.isEmpty_iff] at h
  constructor <;> simp [h]

/-- A recipe is empty exactly if its normal form is and no field was left out of that. -/
theorem isEmpty_iff_normalized {r : Recipe} :
    r.isEmpty = true ↔ r.normalized.isEmpty = true ∧ r.KeepsFields := by
  constructor
  · intro h
    have hkeeps := keepsFields_of_isEmpty h
    exact ⟨by rw [hkeeps.isEmpty_normalized, h], hkeeps⟩
  · rintro ⟨hempty, hkeeps⟩
    rw [← hkeeps.isEmpty_normalized, hempty]

end Recipe

namespace Reader

variable {reader : Reader} {family : Family} {chunks : TextMap}

/-- A reader that may fall back does so exactly if the dialect fails or gives an empty recipe. -/
lemma isSome_note_recipeOf_iff (hsettings : reader.settings.fallbackOnEmpty = true)
    (hfamily : family ≠ .unknown) :
    (reader.recipeOf family chunks).2.isSome = true ↔
      ∀ r, family.recipeOf chunks reader.settings = .ok r → r.isEmpty = true := by
  unfold recipeOf
  cases hread : family.recipeOf chunks reader.settings with
  | error fault => simp
  | ok r => cases hempty : r.isEmpty <;> simp [hfamily, hsettings, hempty]

/-- What it then gives is gleaned from the texts. -/
lemma recipeOf_of_isSome_note (h : (reader.recipeOf family chunks).2.isSome = true) :
    (reader.recipeOf family chunks).1 = gleaned family chunks := by
  unfold recipeOf at h ⊢
  split
  · rename_i r hread
    rw [hread] at h
    dsimp only at h ⊢
    split
    · rename_i hkept
      rw [if_pos hkept] at h
      cases h
    · rfl
  · rfl

/-- If the dialect of the family that was told fails, or gives a recipe whose normal form is empty
without leaving out a field that is set, the outcome is what can be gleaned from the texts, in its
normal form, and a note says so. -/
theorem readChunks_fallsBack (hsettings : reader.settings.fallbackOnEmpty = true)
    (hchunks : chunks ≠ ∅) (hfamily : Detection.family chunks ≠ .unknown)
    (hempty : ∀ r, (Detection.family chunks).recipeOf chunks reader.settings = .ok r →
      r.normalized.isEmpty = true)
    (hkeeps : ∀ r, (Detection.family chunks).recipeOf chunks reader.settings = .ok r →
      r.KeepsFields) :
    (reader.readChunks chunks).recipe = (gleaned (Detection.family chunks) chunks).normalized ∧
      (reader.readChunks chunks).note.isSome = true := by
  have hsome : (reader.recipeOf (Detection.family chunks) chunks).2.isSome = true :=
    (isSome_note_recipeOf_iff hsettings hfamily).mpr fun r hr =>
      Recipe.isEmpty_iff_normalized.mpr ⟨hempty r hr, hkeeps r hr⟩
  rw [reader.readChunks_of_ne hchunks, ← recipeOf_of_isSome_note hsome]
  exact ⟨rfl, hsome⟩

/-- A reader with the usual settings. -/
def plainReader : Reader := ⟨{}, .builtin, rfl⟩

lemma forall_of_all_toOption {result : Except Fault Recipe} {p : Recipe → Bool}
    (h : result.toOption.all p = true) : ∀ r, result = .ok r → p r = true := by
  rintro r rfl
  exact h

/-- Texts in which the metadata object says nothing, but a comment does. -/
def bareMetadata : TextMap :=
  .ofEntries [("invokeai_metadata", "\x7b\x7d"), ("Comment", "Seed: 5")]

theorem readChunks_fallsBack_bareMetadata :
    (plainReader.readChunks bareMetadata).recipe = (gleaned .invokeAi bareMetadata).normalized ∧
      (plainReader.readChunks bareMetadata).note.isSome = true := by
  have hfamily : Detection.family bareMetadata = .invokeAi := by decide +kernel
  have hsome : bareMetadata ≠ ∅ := fun h =>
    absurd (Std.ExtTreeMap.isEmpty_iff.mpr h) (by decide +kernel)
  have hempty : ∀ r, (Detection.family bareMetadata).recipeOf bareMetadata plainReader.settings =
      .ok r → r.isEmpty = true := forall_of_all_toOption (by decide +kernel)
  rw [← hfamily]
  exact readChunks_fallsBack rfl hsome (by rw [hfamily]; decide)
    (fun r hr => (Recipe.isEmpty_iff_normalized.mp (hempty r hr)).1)
    (fun r hr => (Recipe.isEmpty_iff_normalized.mp (hempty r hr)).2)

/-- Texts in which the parameters have nothing but zero steps, and a comment has a seed. -/
def zeroSteps : TextMap := .ofEntries [("parameters", "Steps: 0"), ("Comment", "Seed: 5")]

/-- The zero steps and the empty prompt before them count as something, so the seed is lost. -/
theorem readChunks_zeroSteps_ne :
    ¬ ∀ (reader : Reader) (chunks : TextMap), reader.settings.fallbackOnEmpty = true →
      chunks ≠ ∅ → Detection.family chunks ≠ .unknown →
      (∀ r, (Detection.family chunks).recipeOf chunks reader.settings = .ok r →
        r.normalized.isEmpty = true) →
      (reader.readChunks chunks).recipe = (gleaned (Detection.family chunks) chunks).normalized ∧
        (reader.readChunks chunks).note.isSome = true := by
  intro h
  have hsome : zeroSteps ≠ ∅ := fun he =>
    absurd (Std.ExtTreeMap.isEmpty_iff.mpr he) (by decide +kernel)
  have hempty : ∀ r, (Detection.family zeroSteps).recipeOf zeroSteps plainReader.settings = .ok r →
      r.normalized.isEmpty = true :=
    forall_of_all_toOption (p := fun r => r.normalized.isEmpty) (by decide +kernel)
  obtain ⟨-, hnote⟩ := h plainReader zeroSteps rfl hsome (by decide +kernel) hempty
  exact absurd hnote (by decide +kernel)

end Reader

end ImageRecipe
