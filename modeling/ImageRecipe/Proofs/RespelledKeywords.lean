import ImageRecipe.Proofs.FallingBack
import ImageRecipe.Proofs.KeywordSpellings

/-!
# Keywords in another case

The family is told, and its dialect is read, by look-ups alone, and if no two
keywords of an image are the same up to case a look-up finds the same text
however they are spelled. What is gleaned is different: the texts are joined in
the order of their keywords, in which capital letters come first. So the case of
keywords can only matter where reading falls back, and only if it puts the texts
into another order.
-/
namespace ImageRecipe

namespace TextMap

open Text

/-- Whether no two keywords are the same up to case. -/
def KeywordsApart (chunks : TextMap) : Prop :=
  ∀ a ∈ chunks.keys, ∀ b ∈ chunks.keys, sameKeyword a b = true → a = b

/-- Whether every text stands in another map too, under a keyword that is the same up to case. -/
def HeldIn (chunks others : TextMap) : Prop :=
  ∀ c ∈ chunks.toList, ∃ d ∈ others.toList, sameKeyword d.1 c.1 = true ∧ d.2 = c.2

/-- Whether two maps hold the same texts under keywords that are the same up to case, where in each
of them no two keywords are. -/
@[mk_iff]
structure Respelled (chunks others : TextMap) : Prop where
  apart : chunks.KeywordsApart
  others_apart : others.KeywordsApart
  heldIn : chunks.HeldIn others
  others_heldIn : others.HeldIn chunks

instance (chunks : TextMap) : Decidable chunks.KeywordsApart :=
  inferInstanceAs (Decidable (∀ a ∈ chunks.keys, ∀ b ∈ chunks.keys, sameKeyword a b = true → a = b))

instance (chunks others : TextMap) : Decidable (chunks.HeldIn others) :=
  inferInstanceAs (Decidable (∀ c ∈ chunks.toList,
    ∃ d ∈ others.toList, sameKeyword d.1 c.1 = true ∧ d.2 = c.2))

instance (chunks others : TextMap) : Decidable (chunks.Respelled others) :=
  decidable_of_iff _ (respelled_iff chunks others).symm

variable {chunks others : TextMap} {keyword text : String}

lemma Respelled.symm (h : chunks.Respelled others) : others.Respelled chunks :=
  ⟨h.others_apart, h.apart, h.others_heldIn, h.heldIn⟩

/-- If no two keywords are the same up to case, a look-up takes the one that fits. -/
lemma KeywordsApart.chunk?_eq_some (h : chunks.KeywordsApart) {spelling : String}
    (hsame : sameKeyword spelling keyword = true) (htext : chunks[spelling]? = some text) :
    chunks.chunk? keyword = some text := by
  have hmem : spelling ∈ chunks.keys := mem_keys_iff.mpr ⟨text, htext⟩
  refine chunk?_eq_some_iff.mpr ⟨spelling, ⟨hmem, hsame, fun other hother hsame' => ?_⟩, htext⟩
  have hspellings : sameKeyword spelling other = true := by
    rw [sameKeyword_iff] at hsame hsame' ⊢
    exact hsame.trans hsame'.symm
  obtain rfl := h spelling hmem other hother hspellings
  rw [or_iff_not_imp_left]
  exact fun hne => ⟨hne, String.le_refl spelling⟩

lemma Respelled.chunk?_of_eq_some (h : chunks.Respelled others)
    (hchunk : chunks.chunk? keyword = some text) : others.chunk? keyword = some text := by
  obtain ⟨spelling, hspelling, htext⟩ := chunk?_eq_some_iff.mp hchunk
  obtain ⟨⟨other, _⟩, hother, hsame, rfl⟩ :=
    h.heldIn _ (Std.ExtTreeMap.mem_toList_iff_getElem?_eq_some.mpr htext)
  refine h.others_apart.chunk?_eq_some ?_ (Std.ExtTreeMap.mem_toList_iff_getElem?_eq_some.mp hother)
  have hkeyword := hspelling.same
  rw [sameKeyword_iff] at hsame hkeyword ⊢
  exact hsame.trans hkeyword

/-- Look-ups find the same texts. -/
theorem Respelled.chunk?_eq (h : chunks.Respelled others) : chunks.chunk? = others.chunk? := by
  funext keyword
  refine Option.ext fun text => ⟨fun hchunk => ?_, fun hchunk => ?_⟩
  · exact h.chunk?_of_eq_some hchunk
  · exact h.symm.chunk?_of_eq_some hchunk

lemma Respelled.toList_eq_nil (h : chunks.Respelled others) (hnil : chunks.toList = []) :
    others.toList = [] := by
  refine List.eq_nil_iff_forall_not_mem.mpr fun d hd => ?_
  obtain ⟨c, hc, -⟩ := h.others_heldIn d hd
  rw [hnil] at hc
  cases hc

lemma Respelled.isEmpty_eq (h : chunks.Respelled others) : chunks.isEmpty = others.isEmpty := by
  rw [← Std.ExtTreeMap.isEmpty_toList, ← Std.ExtTreeMap.isEmpty_toList, Bool.eq_iff_iff,
    List.isEmpty_iff, List.isEmpty_iff]
  exact ⟨h.toList_eq_nil, h.symm.toList_eq_nil⟩

end TextMap

section LookUps

variable {chunks others : TextMap} (h : chunks.chunk? = others.chunk?)

include h

lemma TextMap.chunkTexts_congr (keywords : List String) :
    chunks.chunkTexts keywords = others.chunkTexts keywords := by
  rw [TextMap.chunkTexts, TextMap.chunkTexts, h]

lemma EmbeddedWorkflow.facts?_congr (settings : Settings) (keyword : String) :
    facts? chunks settings keyword = facts? others settings keyword := by
  rw [facts?, facts?, h]

lemma Detection.platform_congr : platform chunks = platform others := by
  have hmark : hasMark chunks = hasMark others := by
    funext mark
    rw [hasMark, hasMark, TextMap.chunkTexts_congr h]
  have hmanifest : manifestHas chunks = manifestHas others := by
    funext mark
    rw [manifestHas, manifestHas, h]
  rw [platform, platform, hmark, hmanifest]

lemma Detection.family_congr : family chunks = family others := by
  have hworkflow : EmbeddedWorkflow.recognised chunks = EmbeddedWorkflow.recognised others := by
    rw [EmbeddedWorkflow.recognised, EmbeddedWorkflow.recognised, TextMap.chunkTexts_congr h]
  have hinvoke : Invoke.recognised chunks = Invoke.recognised others := by
    simp only [Invoke.recognised, h]
  have hswarm : Swarm.recognised chunks = Swarm.recognised others := by
    rw [Swarm.recognised, Swarm.recognised, Swarm.parameters?, Swarm.parameters?, h]
  have hparameters : ParameterText.find? chunks = ParameterText.find? others := by
    rw [ParameterText.find?, ParameterText.find?, TextMap.chunkTexts_congr h]
  rw [family, family, hworkflow, hinvoke, hswarm, hparameters, platform_congr h]

/-- Every dialect reads by look-ups; only what is gleaned is not. -/
lemma Family.recipeOf_congr {family : Family} (hfamily : family ≠ .unknown) (settings : Settings) :
    family.recipeOf chunks settings = family.recipeOf others settings := by
  cases family with
  | comfyUi =>
    simp only [recipeOf, EmbeddedWorkflow.ofChunks, EmbeddedWorkflow.facts?_congr h]
  | invokeAi => simp only [recipeOf, Invoke.ofChunks, h]
  | a1111 | forge | sdNext =>
    simp only [recipeOf, ParameterText.ofChunks, ParameterText.find?, TextMap.chunkTexts_congr h]
  | swarmUi => simp only [recipeOf, Swarm.ofChunks, Swarm.parameters?, h]
  | midjourney | niji =>
    simp only [recipeOf, PromptLine.ofChunks, PromptLine.find?, TextMap.chunkTexts_congr h, h]
  | drawThings => simp only [recipeOf, DrawThings.ofChunks, DrawThings.json?, h]
  | dreamStudio => simp only [recipeOf, DreamStudio.ofChunks, TextMap.chunkTexts_congr h]
  | firefly | dalle3 =>
    simp only [recipeOf, Hosted.ofChunks, Hosted.description?, TextMap.chunkTexts_congr h, h]
  | unknown => exact absurd rfl hfamily

end LookUps

namespace Reader

variable {chunks others : TextMap}

/-- A note stands where the dialect failed or said nothing, which look-ups tell. -/
lemma note_recipeOf_congr (reader : Reader) (h : chunks.chunk? = others.chunk?) (family : Family) :
    (reader.recipeOf family chunks).2 = (reader.recipeOf family others).2 := by
  by_cases hfamily : family = .unknown
  · subst hfamily
    simp [recipeOf, Family.recipeOf]
  · rw [recipeOf, recipeOf, Family.recipeOf_congr h hfamily]
    split
    · split <;> rfl
    · rfl

/-- Without a note the recipe is that of the dialect. -/
lemma recipeOf_congr (reader : Reader) (h : chunks.chunk? = others.chunk?) {family : Family}
    (hglean : family ≠ .unknown ∧ (reader.recipeOf family chunks).2 = none ∨
      Gleaning.joinedTexts chunks = Gleaning.joinedTexts others) :
    reader.recipeOf family chunks = reader.recipeOf family others := by
  rcases hglean with ⟨hfamily, hnote⟩ | hjoined
  · rw [recipeOf, Family.recipeOf_congr h hfamily] at hnote ⊢
    rw [recipeOf]
    split
    · rename_i r hr
      rw [hr] at hnote
      dsimp only at hnote
      split
      · rfl
      · rename_i hkept
        rw [if_neg hkept] at hnote
        cases hnote
    · rename_i fault hfault
      rw [hfault] at hnote
      cases hnote
  · have hgleaned : gleaned family chunks = gleaned family others := by
      rw [gleaned, gleaned, hjoined]
    by_cases hfamily : family = .unknown
    · subst hfamily
      simp only [recipeOf, Family.recipeOf, hjoined, hgleaned]
    · rw [recipeOf, recipeOf, Family.recipeOf_congr h hfamily, hgleaned]

/-- If two maps hold the same texts under keywords that are the same up to case, no two of which
stand in one map, reading them tells the same family and leaves the same note. The outcome is the
same if nothing is gleaned, or if the texts stand in the same order. -/
theorem readChunks_respelled (reader : Reader) (h : chunks.Respelled others) :
    (reader.readChunks chunks).family = (reader.readChunks others).family ∧
      (reader.readChunks chunks).note = (reader.readChunks others).note ∧
      ((reader.readChunks chunks).family ≠ .unknown ∧ (reader.readChunks chunks).note = none ∨
          Gleaning.joinedTexts chunks = Gleaning.joinedTexts others →
        reader.readChunks chunks = reader.readChunks others) := by
  have hlookup := h.chunk?_eq
  rw [readChunks, readChunks, ← h.isEmpty_eq, ← Detection.family_congr hlookup]
  by_cases hempty : chunks.isEmpty = true
  · rw [if_pos hempty, if_pos hempty]
    exact ⟨rfl, rfl, fun _ => rfl⟩
  · rw [if_neg hempty, if_neg hempty]
    refine ⟨rfl, reader.note_recipeOf_congr hlookup _, fun hglean => ?_⟩
    have hrecipe : reader.recipeOf (Detection.family chunks) chunks =
        reader.recipeOf (Detection.family chunks) others := reader.recipeOf_congr hlookup hglean
    dsimp only
    rw [hrecipe]

/-- A parameter text and a comment. -/
def commentedParameters : TextMap :=
  .ofEntries [("Comment", "Seed: 1"), ("parameters", "a cat\nSteps: 20")]

/-- The same under keywords in another case, which stand in another order. -/
def respelledParameters : TextMap :=
  .ofEntries [("PARAMETERS", "a cat\nSteps: 20"), ("comment", "Seed: 1")]

theorem readChunks_respelledParameters :
    plainReader.readChunks commentedParameters = plainReader.readChunks respelledParameters ∧
      (plainReader.readChunks commentedParameters).recipe.steps = some 20 := by
  obtain ⟨-, -, hsame⟩ := readChunks_respelled plainReader
    (show commentedParameters.Respelled respelledParameters by decide +kernel)
  exact ⟨hsame (Or.inl ⟨by decide +kernel, by decide +kernel⟩), by decide +kernel⟩

/-- The seed that is gleaned is that of the text that stands first, which the case decides. -/
theorem readChunks_respelled_ne :
    ¬ ∀ (reader : Reader) (chunks others : TextMap), chunks.Respelled others →
      reader.readChunks chunks = reader.readChunks others := by
  intro h
  have heq := h plainReader (.ofEntries [("Comment", "Seed: 1"), ("prompt", "Seed: 2")])
    (.ofEntries [("comment", "Seed: 1"), ("Prompt", "Seed: 2")]) (by decide +kernel)
  exact absurd (congrArg (·.recipe.seed) heq) (by decide +kernel)

end Reader

end ImageRecipe
