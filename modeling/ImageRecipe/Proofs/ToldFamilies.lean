import ImageRecipe.Proofs.Outcomes

/-!
# Families that are told by their dialect

The family of an image and the recipe of a family are found by separate looks
at the texts. A family that is told by the form of a text has a recipe in its
dialect, and of the platforms those that are told by their content manifest
have one. With InvokeAI the form that is told need not be the one that is read,
as the newest dialect that is JSON of any form counts.
-/
namespace ImageRecipe

namespace Workflow

lemma exists_ofUi_of_isUiForm {value : Json} (h : isUiForm value = true) :
    ∃ graph, Graph.ofUi value = .ok graph := by
  unfold isUiForm at h
  split at h
  · rename_i nodes hnodes
    obtain ⟨found, hfound, harray⟩ := Option.bind_eq_some_iff.mp hnodes
    unfold Graph.ofUi UiWorkflow.ofJson?
    rw [hfound, Option.bind_eq_bind, Option.bind_some, harray]
    exact ⟨_, rfl⟩
  · cases h

lemma exists_ofApi_of_isApiForm {value : Json} (h : isApiForm value = true) :
    ∃ graph, Graph.ofApi value = .ok graph := by
  cases value with
  | obj members => exact ⟨_, rfl⟩
  | null | bool | num | str | arr => cases h

/-- What is recognised as a workflow has a graph. -/
lemma Graph.exists_ofJson_of_isWorkflow {value : Json} (h : isWorkflow value = true) :
    ∃ graph, Graph.ofJson value = .ok graph := by
  unfold Graph.ofJson
  cases hui : isUiForm value with
  | true => exact exists_ofUi_of_isUiForm hui
  | false =>
    have hapi : isApiForm value = true := by simpa [isWorkflow, hui] using h
    simpa [hapi] using exists_ofApi_of_isApiForm hapi

lemma exists_interpret_of_isWorkflow {value : Json} (h : isWorkflow value = true)
    (settings : Settings) : ∃ facts, interpret value settings = .ok facts := by
  obtain ⟨graph, hgraph⟩ := Graph.exists_ofJson_of_isWorkflow h
  exact ⟨_, by rw [interpret, hgraph]; rfl⟩

end Workflow

section Recognised

variable {chunks : TextMap} {settings : Settings}

lemma EmbeddedWorkflow.exists_ofChunks (h : recognised chunks = true) :
    ∃ r, ofChunks chunks settings = .ok r := by
  obtain ⟨value, hvalue, hworkflow⟩ := List.any_eq_true.mp h
  obtain ⟨text, htext, hjson⟩ := List.mem_filterMap.mp hvalue
  obtain ⟨keyword, hkeyword, hchunk⟩ := List.mem_filterMap.mp htext
  obtain ⟨facts, hfacts⟩ := Workflow.exists_interpret_of_isWorkflow hworkflow settings
  have hfound : facts? chunks settings keyword = some facts := by
    simp only [facts?, hchunk, hjson, hfacts, Option.bind_eq_bind, Option.bind_some]
    rfl
  unfold ofChunks
  rcases List.mem_pair.mp hkeyword with rfl | rfl
  · rw [hfound]
    cases facts? chunks settings drawnKeyword <;> exact ⟨_, rfl⟩
  · rw [hfound]
    cases facts? chunks settings runKeyword <;> exact ⟨_, rfl⟩

lemma Swarm.exists_ofChunks (h : recognised chunks = true) : ∃ r, ofChunks chunks = .ok r := by
  obtain ⟨settings, hsettings⟩ := Option.isSome_iff_exists.mp h
  obtain ⟨value, hvalue, hmember⟩ := Option.bind_eq_some_iff.mp hsettings
  exact ⟨recipe settings, by simp only [ofChunks, hvalue, hmember]⟩

lemma ParameterText.exists_ofChunks {s : String} (h : find? chunks = some s) (family : Family) :
    ∃ r, ofChunks chunks family = .ok r :=
  ⟨recipe s family, by simp only [ofChunks, h]⟩

lemma Hosted.exists_ofChunks (h : (chunks.chunk? manifestKeyword).isSome = true)
    (family : Family) : ∃ r, ofChunks chunks family = .ok r := by
  obtain ⟨manifest, hmanifest⟩ := Option.isSome_iff_exists.mp h
  unfold ofChunks
  rw [hmanifest]
  exact ⟨_, rfl⟩

end Recognised

namespace Invoke

/-- The JSON of the text with a keyword. -/
def json? (chunks : TextMap) (keyword : String) : Option Json :=
  (chunks.chunk? keyword).bind Payload.json?

/-- Whether JSON has the image or the weights of the model. -/
def hasImage (value : Json) : Bool :=
  (value.get? "image").isSome || (value.get? "model_weights").isSome

/-- The recipe of the newest dialect that an image is recognised by. -/
def recognisedRecipe? (chunks : TextMap) : Option Recipe :=
  (((json? chunks metadataKeyword).filter Json.isObject).map metadataRecipe).or <|
    (((json? chunks imageKeyword).filter hasImage).map imageRecipe).or <|
      ((chunks.chunk? commandKeyword).filter fun line => (Text.nonBlank? line).isSome).map
        commandRecipe

variable {chunks : TextMap}

lemma recognised_eq_isSome (chunks : TextMap) :
    recognised chunks = (recognisedRecipe? chunks).isSome := by
  simp only [recognisedRecipe?, Option.isSome_or, Option.isSome_map, Option.isSome_filter]
  rw [← Bool.or_assoc]
  rfl

lemma ofChunks_of_metadata {value : Json} (h : json? chunks metadataKeyword = some value) :
    ofChunks chunks = .ok (metadataRecipe value) := by
  rw [json?] at h
  simp only [ofChunks, h]

lemma ofChunks_of_image {value : Json} (hnone : json? chunks metadataKeyword = none)
    (h : json? chunks imageKeyword = some value) : ofChunks chunks = .ok (imageRecipe value) := by
  rw [json?] at hnone h
  simp only [ofChunks, hnone, h]

lemma ofChunks_of_command {line : String} (hmetadata : json? chunks metadataKeyword = none)
    (himage : json? chunks imageKeyword = none) (h : chunks.chunk? commandKeyword = some line) :
    ofChunks chunks = .ok (commandRecipe line) := by
  rw [json?] at hmetadata himage
  simp only [ofChunks, hmetadata, himage, h]

lemma exists_ofChunks (h : recognised chunks = true) : ∃ r, ofChunks chunks = .ok r := by
  cases hmetadata : json? chunks metadataKeyword with
  | some value => exact ⟨_, ofChunks_of_metadata hmetadata⟩
  | none =>
    cases himage : json? chunks imageKeyword with
    | some value => exact ⟨_, ofChunks_of_image hmetadata himage⟩
    | none =>
      cases hcommand : chunks.chunk? commandKeyword with
      | some line => exact ⟨_, ofChunks_of_command hmetadata himage hcommand⟩
      | none =>
        rw [recognised_eq_isSome, recognisedRecipe?, hmetadata, himage, hcommand] at h
        cases h

/-- The recipe is that of the newest dialect that an image is recognised by, if no older one is
hidden behind JSON of another form. -/
lemma ofChunks_eq_recognisedRecipe? {r : Recipe}
    (hmetadata : ∀ value, json? chunks metadataKeyword = some value → value.isObject = true)
    (himage : json? chunks metadataKeyword = none →
      ∀ value, json? chunks imageKeyword = some value → hasImage value = true)
    (h : recognisedRecipe? chunks = some r) : ofChunks chunks = .ok r := by
  unfold recognisedRecipe? at h
  cases hm : json? chunks metadataKeyword with
  | some value =>
    rw [hm, Option.filter_some, if_pos (hmetadata value hm)] at h
    rw [ofChunks_of_metadata hm, ← Option.some.inj h]
  | none =>
    cases hi : json? chunks imageKeyword with
    | some value =>
      rw [hm, hi, Option.filter_some, if_pos (himage hm value hi)] at h
      rw [ofChunks_of_image hm hi, ← Option.some.inj h]
    | none =>
      rw [hm, hi] at h
      obtain ⟨line, hline, rfl⟩ := Option.map_eq_some_iff.mp h
      exact ofChunks_of_command hm hi (Option.filter_eq_some_iff.mp hline).1

end Invoke

lemma ParameterText.writesParameterText_family (s : String) :
    (ParameterText.family s).writesParameterText = true := by
  unfold ParameterText.family
  split
  · rfl
  · split <;> rfl

namespace Detection

variable {chunks : TextMap} {settings : Settings}

/-- The families whose dialect, manifest or plain text is there whenever they are told. -/
def surelyRead : List Family :=
  [.comfyUi, .invokeAi, .a1111, .forge, .sdNext, .swarmUi, .firefly, .dalle3, .unknown]

/-- A platform that is told by a mark alone, one that is told by its manifest, or none. -/
lemma platform_cases (chunks : TextMap) :
    platform chunks ∉ surelyRead ∨
      (platform chunks = .dalle3 ∨ platform chunks = .firefly) ∧
        (chunks.chunk? manifestKeyword).isSome = true ∨
      platform chunks = .unknown := by
  have hmanifest : ∀ {mark}, manifestHas chunks mark = true →
      (chunks.chunk? manifestKeyword).isSome = true := fun h => Option.isSome_of_any h
  unfold platform
  split_ifs with hniji hmidjourney hdrawThings hdreamStudio hdalle hfirefly
  · exact Or.inl (by decide)
  · exact Or.inl (by decide)
  · exact Or.inl (by decide)
  · exact Or.inl (by decide)
  · exact Or.inr (Or.inl ⟨Or.inl rfl, (Bool.or_eq_true _ _ ▸ hdalle).elim hmanifest hmanifest⟩)
  · exact Or.inr (Or.inl ⟨Or.inr rfl, (Bool.or_eq_true _ _ ▸ hfirefly).elim hmanifest hmanifest⟩)
  · exact Or.inr (Or.inr rfl)

/-- What the family was told by. -/
lemma family_cases (chunks : TextMap) :
    family chunks = .comfyUi ∧ EmbeddedWorkflow.recognised chunks = true ∨
      family chunks = .invokeAi ∧ Invoke.recognised chunks = true ∨
      family chunks = .swarmUi ∧ Swarm.recognised chunks = true ∨
      (∃ s, ParameterText.find? chunks = some s ∧ family chunks = ParameterText.family s) ∨
      family chunks = platform chunks := by
  unfold family
  split_ifs with hworkflow hinvoke hswarm
  · exact Or.inl ⟨rfl, hworkflow⟩
  · exact Or.inr (Or.inl ⟨rfl, hinvoke⟩)
  · exact Or.inr (Or.inr (Or.inl ⟨rfl, hswarm⟩))
  · refine Or.inr (Or.inr (Or.inr ?_))
    cases hfind : ParameterText.find? chunks with
    | some s => exact Or.inl ⟨s, rfl, rfl⟩
    | none => exact Or.inr rfl

lemma recognised_of_family_eq_invokeAi (h : family chunks = .invokeAi) :
    Invoke.recognised chunks = true := by
  rcases family_cases chunks with ⟨hf, -⟩ | ⟨-, hr⟩ | ⟨hf, -⟩ | ⟨s, -, hf⟩ | hf
  · rw [h] at hf
    cases hf
  · exact hr
  · rw [h] at hf
    cases hf
  · have hwrites := ParameterText.writesParameterText_family s
    rw [← hf, h] at hwrites
    cases hwrites
  · rcases platform_cases chunks with hp | ⟨hp | hp, -⟩ | hp
    · rw [← hf, h] at hp
      exact absurd (by decide) hp
    all_goals
      rw [← hf, h] at hp
      cases hp

lemma exists_recipeOf_parameterText {s : String} (h : ParameterText.find? chunks = some s)
    {family : Family} (hfamily : family.writesParameterText = true) :
    ∃ r, family.recipeOf chunks settings = .ok r := by
  cases family with
  | a1111 | forge | sdNext => exact ParameterText.exists_ofChunks h _
  | _ => cases hfamily

/-- What was told can be read. Unless a platform was told by a mark alone, the texts are read as
those of the family without a fault, and the recipe names it as the generator; and whatever is
recognised as a workflow has a graph. -/
theorem recipeOf_told (chunks : TextMap) (settings : Settings) :
    (family chunks ∈ surelyRead → ∃ r, (family chunks).recipeOf chunks settings = .ok r ∧
      r.generator = some (family chunks)) ∧
    ∀ value, Workflow.isWorkflow value = true →
      ∃ graph, Workflow.Graph.ofJson value = .ok graph := by
  refine ⟨fun hread => ?_, fun value => Workflow.Graph.exists_ofJson_of_isWorkflow⟩
  have hok : ∃ r, (family chunks).recipeOf chunks settings = .ok r := by
    rcases family_cases chunks with ⟨hf, hr⟩ | ⟨hf, hr⟩ | ⟨hf, hr⟩ | ⟨s, hs, hf⟩ | hf
    · rw [hf]
      exact EmbeddedWorkflow.exists_ofChunks hr
    · rw [hf]
      exact Invoke.exists_ofChunks hr
    · rw [hf]
      exact Swarm.exists_ofChunks hr
    · rw [hf]
      exact exists_recipeOf_parameterText hs (ParameterText.writesParameterText_family s)
    · rw [hf] at hread ⊢
      rcases platform_cases chunks with hp | ⟨hp | hp, hmanifest⟩ | hp
      · exact absurd hread hp
      · rw [hp]
        exact Hosted.exists_ofChunks hmanifest _
      · rw [hp]
        exact Hosted.exists_ofChunks hmanifest _
      · rw [hp]
        exact ⟨_, rfl⟩
  obtain ⟨r, hr⟩ := hok
  refine ⟨r, hr, ?_⟩
  rcases mayGenerate_of_recipeOf hr with hg | ⟨-, hg⟩
  · exact hg
  · rw [hg] at hread
    exact absurd hread (by decide)

/-- The texts of an image with a workflow and with parameters in which nothing stands. -/
def workflowChunks : TextMap :=
  .ofEntries [("prompt", "\x7b\"3\":\x7b\"class_type\":\"KSampler\"\x7d\x7d"),
    ("parameters", "Steps: 0")]

theorem recipeOf_told_workflowChunks :
    (∃ r, Family.recipeOf .comfyUi workflowChunks {} = .ok r ∧ r.generator = some .comfyUi) ∧
      ∃ graph, Workflow.Graph.ofJson (.obj [("nodes", .arr [.obj [("type", .str "KSampler")]])]) =
        .ok graph := by
  have hfamily : family workflowChunks = .comfyUi := by decide +kernel
  obtain ⟨htold, hgraph⟩ := recipeOf_told workflowChunks {}
  rw [hfamily] at htold
  exact ⟨htold (by decide), hgraph _ (by decide +kernel)⟩

end Detection

namespace Invoke

/-- Where InvokeAI is told, the recipe is that of the newest dialect by which it is recognised, if
what decodes under the keyword of the metadata object is an object and, when nothing does, what
decodes under the older keyword has the image or the weights of the model. -/
theorem ofChunks_told {chunks : TextMap} (h : Detection.family chunks = .invokeAi)
    (hmetadata : ∀ value, json? chunks metadataKeyword = some value → value.isObject = true)
    (himage : json? chunks metadataKeyword = none →
      ∀ value, json? chunks imageKeyword = some value → hasImage value = true) :
    ∃ r, recognisedRecipe? chunks = some r ∧ ofChunks chunks = .ok r := by
  have hrecognised := Detection.recognised_of_family_eq_invokeAi h
  rw [recognised_eq_isSome] at hrecognised
  obtain ⟨r, hr⟩ := Option.isSome_iff_exists.mp hrecognised
  exact ⟨r, hr, ofChunks_eq_recognisedRecipe? hmetadata himage hr⟩

/-- Texts in which the metadata object is cut off and the older dialects are whole. -/
def cutOffMetadata : TextMap :=
  .ofEntries [("invokeai_metadata", "\x7b\"positive_prompt\":"),
    ("sd-metadata", "\x7b\"image\":\x7b\"seed\":7\x7d\x7d"), ("Dream", "a cat -S 5")]

theorem ofChunks_told_cutOffMetadata :
    ∃ r, recognisedRecipe? cutOffMetadata = some r ∧ ofChunks cutOffMetadata = .ok r := by
  have hmetadata : (json? cutOffMetadata metadataKeyword).all Json.isObject = true := by
    decide +kernel
  have himage : (json? cutOffMetadata imageKeyword).all hasImage = true := by decide +kernel
  exact ofChunks_told (by decide +kernel) (Option.all_eq_true _ _ |>.mp hmetadata)
    fun _ => Option.all_eq_true _ _ |>.mp himage

/-- Texts in which an array stands for the metadata object, before a command line. -/
def arrayMetadata : TextMap :=
  .ofEntries [("invokeai_metadata", "[]"), ("Dream", "\"a cat\" -s 50 -S 42")]

/-- The array is read as a metadata object, though the image was told by its command line. -/
theorem ofChunks_arrayMetadata_ne :
    ¬ ∀ chunks, Detection.family chunks = .invokeAi →
      ∃ r, recognisedRecipe? chunks = some r ∧ ofChunks chunks = .ok r := by
  intro h
  obtain ⟨r, hrecognised, hread⟩ := h arrayMetadata (by decide +kernel)
  have hseed : (recognisedRecipe? arrayMetadata).bind (·.seed) = some 42 := by decide +kernel
  have hnone : (ofChunks arrayMetadata).toOption.bind (·.seed) = none := by decide +kernel
  rw [hrecognised] at hseed
  rw [hread] at hnone
  exact absurd (hseed.symm.trans hnone) (by decide)

end Invoke

end ImageRecipe
