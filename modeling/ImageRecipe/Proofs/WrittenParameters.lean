import ImageRecipe.Proofs.ParameterLines
import ImageRecipe.Proofs.WrittenSettings

/-!
# Parameter texts as they are written

A parameter text is written as the prompt, the negative prompt behind its label
and one line of settings that begins with the steps. Whatever lines the prompts
have, the last line that begins with the steps is that of the settings, so
reading gives back what was written.
-/
namespace ImageRecipe.ParameterText

open Text

section Sole

variable {α β : Type} {p : α → Bool} {a : α} {l : List α}

lemma find?_eq_none_of_sole (h : ∀ b ∈ l, p a = true → p b = false) (ha : p a = true) :
    l.find? p = none :=
  List.find?_eq_none.mpr fun b hb => by simp [h b hb ha]

lemma find?_reverse_of_pairwise (h : l.Pairwise fun a b => p a = true → p b = false) :
    l.reverse.find? p = l.find? p := by
  induction h with
  | nil => rfl
  | @cons a l hhead _ ih =>
    rw [List.reverse_cons, List.find?_append, ih, List.find?_cons]
    cases hp : p a with
    | true => simp [find?_eq_none_of_sole hhead hp, hp]
    | false => simp [hp]

lemma findSome?_of_pairwise (g : α → Option β)
    (h : l.Pairwise fun a b => p a = true → p b = false) :
    (l.findSome? fun a => if p a then g a else none) = (l.find? p).bind g := by
  induction h with
  | nil => rfl
  | @cons a l hhead _ ih =>
    rw [List.findSome?_cons, List.find?_cons, ih]
    cases hp : p a with
    | true => cases hg : g a <;> simp [find?_eq_none_of_sole hhead hp, hg]
    | false => simp

end Sole

/-- Without an opening of a tag there is no tag. -/
lemma loraTags_of_not_contains {s : List Char} (h : contains "<lora:".toList s = false) :
    loraTags s = [] := by
  induction s with
  | nil => rw [loraTags]; rfl
  | cons c s ih =>
    rw [contains, cut?] at h
    cases hafter : after? "<lora:".toList (c :: s) with
    | some after =>
      rw [hafter] at h
      simp at h
    | none =>
      rw [hafter] at h
      have htag : loraTagAt? (c :: s) = none := by rw [loraTagAt?, hafter, Option.bind_none]
      rw [loraTags_cons_of_eq_none htag]
      exact ih (by simpa [contains] using h)

/-- What is written in a parameter text. The prompts are trimmed and have lines that end in line
feeds alone, and no line of the prompt bears the label of the negative prompt. -/
structure WrittenParameters where
  prompt : List Char
  negative : Option (List Char)
  steps : UInt32
  settings : List WrittenSetting
  prompt_trimmed : trim prompt = prompt
  prompt_returns : '\r' ∉ prompt
  prompt_lines : ∀ line ∈ prompt.splitOn '\n', beginsWithLabel negativeLabel line = false
  prompt_tags : contains "<lora:".toList prompt = false
  negative_trimmed : ∀ text ∈ negative, trim text = text
  negative_returns : ∀ text ∈ negative, '\r' ∉ text
  /-- No key is written twice, in any case. -/
  keys_nodup : (settings.map WrittenSetting.folded).Nodup
  steps_notMem : "steps" ∉ settings.map WrittenSetting.folded
  sole_scheduler : ¬ ("schedule type" ∈ settings.map WrittenSetting.folded ∧
    "scheduler" ∈ settings.map WrittenSetting.folded)

namespace WrittenParameters

variable (w : WrittenParameters)

/-- The line of settings. -/
def block : List Char := writtenBlock (.steps w.steps :: w.settings)

/-- The lines of the negative prompt. -/
def negativeText : List Char :=
  match w.negative with
  | none => []
  | some negative => negativeLabel.toList ++ ' ' :: negative ++ ['\n']

/-- The text that is written. -/
def text : List Char := w.prompt ++ '\n' :: (w.negativeText ++ w.block)

/-- The value under one of some keys in lower case. -/
def value? (keys : List String) : Option (List Char) :=
  (w.settings.find? fun setting => keys.contains setting.folded).map fun setting =>
    setting.value.text

/-- The recipe that is written down. A value that is none of its field leaves the field open; only
the guidance then is the distilled one. -/
def recipe (family : Family) : Recipe where
  generator := some family
  prompt := some (String.ofList w.prompt)
  negativePrompt := w.negative.map String.ofList
  model := (w.value? ["model"]).map String.ofList
  vae := (w.value? ["vae"]).map String.ofList
  loras := ((w.value? ["lora hashes"]).map hashedLoras).getD []
  seed := (w.value? ["seed"]).bind Seed.ofChars?
  steps := some w.steps
  cfg := ((w.value? ["cfg scale"]).bind Decimal.float?).or
    ((w.value? ["distilled cfg scale"]).bind Decimal.float?)
  sampler := (w.value? ["sampler"]).map String.ofList
  scheduler := (w.value? ["schedule type", "scheduler"]).map String.ofList
  denoise := (w.value? ["denoising strength"]).bind Decimal.float?
  width := ((w.value? ["size"]).bind size?).map Prod.fst
  height := ((w.value? ["size"]).bind size?).map Prod.snd
  extra := .ofEntries ((w.settings.filter fun setting =>
    !fieldKeys.contains setting.folded).map fun setting =>
      (setting.key, String.ofList setting.value.text))

lemma lines_negativeText_block : ∃ negativeLines,
    lines (w.negativeText ++ w.block) = negativeLines ++ [w.block] ∧
      ∀ front, (∀ line ∈ front, beginsWithLabel negativeLabel line = false) →
        prompts (front ++ negativeLines) = (joinedLines front, w.negative) := by
  have hblock : lines w.block = [w.block] :=
    lines_of_notMem (ends_writtenBlock _ _).ne_nil (lineFeed_notMem_writtenBlock _ _)
  unfold negativeText
  cases hnegative : w.negative with
  | none =>
    refine ⟨[], hblock, fun front hfront => ?_⟩
    rw [List.append_nil, prompts_of_forall hfront]
  | some negative =>
    have hreturn : '\r' ∉ negativeLabel.toList ++ ' ' :: negative := by
      have hlabel : '\r' ∉ negativeLabel.toList := by decide
      simp [hlabel, w.negative_returns negative hnegative]
    refine ⟨(negativeLabel.toList ++ ' ' :: negative).splitOn '\n', ?_, fun front hfront => ?_⟩
    · rw [List.append_assoc, List.singleton_append, lines_append, map_chompReturn_splitOn hreturn,
        hblock]
    · exact prompts_append_negative hfront (w.negative_trimmed negative hnegative)

lemma starts_negativeText_block : StartsVisibly (w.negativeText ++ w.block) := by
  unfold negativeText
  cases w.negative with
  | none => exact starts_writtenBlock _ _
  | some negative => exact ⟨'N', rfl, rfl⟩

/-- An empty prompt has no line, for its line feed is trimmed off. -/
lemma lines_text : ∃ front, lines (trim w.text) = front ++ lines (w.negativeText ++ w.block) ∧
    joinedLines front = w.prompt ∧ ∀ line ∈ front, beginsWithLabel negativeLabel line = false := by
  have hends : EndsVisibly (w.negativeText ++ w.block) := (ends_writtenBlock _ _).append _
  by_cases hprompt : w.prompt = []
  · have hfeed : ∀ c ∈ ['\n'], isBlank c = true := List.all_eq_true.mp rfl
    have htrim : trim w.text = w.negativeText ++ w.block := by
      rw [text, hprompt]
      exact trim_blanks_append hfeed w.starts_negativeText_block hends
    exact ⟨[], by rw [htrim, List.nil_append], by rw [hprompt]; rfl, by simp⟩
  · obtain ⟨⟨c, hc, hvisible⟩, -⟩ := visible_of_trim_eq w.prompt_trimmed hprompt
    have hstarts : StartsVisibly w.text := ⟨c, by simp [text, Option.mem_def.mp hc], hvisible⟩
    have htrim : trim w.text = w.text :=
      trim_of_visible hstarts ((hends.cons '\n').append w.prompt)
    refine ⟨w.prompt.splitOn '\n', ?_, List.intercalate_splitOn _, w.prompt_lines⟩
    rw [htrim, text, lines_append, map_chompReturn_splitOn w.prompt_returns]

/-- The parts of a text are the prompts and the block that were written. -/
lemma parts_text : ∃ promptLines, parts (lines (trim w.text)) = (promptLines, w.block) ∧
    prompts promptLines = (w.prompt, w.negative) := by
  obtain ⟨front, hlines, hprompt, hfront⟩ := w.lines_text
  obtain ⟨negativeLines, hnegative, hprompts⟩ := w.lines_negativeText_block
  have hblock : beginsWithLabel "Steps:" w.block = true := by
    obtain ⟨after, hafter⟩ := exists_writtenBlock_cons (.steps w.steps) w.settings
    rw [block, hafter]
    exact beginsWithLabel_label ⟨'S', rfl, rfl⟩ _
  refine ⟨front ++ negativeLines, ?_, by rw [hprompts front hfront, hprompt]⟩
  rw [hlines, hnegative, ← List.append_assoc, parts_append hblock (by simp),
    List.intercalate_singleton]

/-- The options that are written down. -/
def options : Options :=
  (.steps w.steps :: w.settings).map fun setting => (setting.folded, setting.value.text)

lemma options_block :
    ((ParameterText.settings w.block).map fun s => (foldedKey s.1, s.2)) = w.options := by
  rw [block, settings_writtenBlock, List.map_map]
  rfl

lemma map_fst_options :
    w.options.map Prod.fst = "steps" :: w.settings.map WrittenSetting.folded := by
  rw [options, List.map_map, List.map_cons, ← WrittenSetting.folded_steps w.steps]
  rfl

/-- Of some keys of which at most one is written no two options are found. -/
lemma pairwise_options (keys : List String) (hsole : ∀ a ∈ keys, ∀ b ∈ keys,
    a ∈ w.options.map Prod.fst → b ∈ w.options.map Prod.fst → a = b) :
    w.options.Pairwise fun a b => keys.contains a.1 = true → keys.contains b.1 = false := by
  have hnodup : (w.options.map Prod.fst).Nodup := by
    rw [map_fst_options]
    exact List.nodup_cons.mpr ⟨w.steps_notMem, w.keys_nodup⟩
  refine (List.pairwise_map.mp hnodup).imp_of_mem fun {a b} ha hb hne hmem => ?_
  by_contra hmem'
  rw [List.contains_iff_mem] at hmem
  rw [Bool.not_eq_false, List.contains_iff_mem] at hmem'
  exact hne (hsole _ hmem _ hmem' (List.mem_map_of_mem ha) (List.mem_map_of_mem hb))

lemma last?_options {keys : List String} (hsteps : "steps" ∉ keys) (hsole : ∀ a ∈ keys, ∀ b ∈ keys,
    a ∈ w.options.map Prod.fst → b ∈ w.options.map Prod.fst → a = b) :
    w.options.last? keys = w.value? keys := by
  rw [Options.last?, find?_reverse_of_pairwise (w.pairwise_options keys hsole), options,
    List.map_cons, List.find?_cons_of_neg (by simp [WrittenSetting.folded_steps, hsteps]),
    List.find?_map, Option.map_map]
  rfl

lemma last?_options_singleton {key : String} (hsteps : key ≠ "steps") :
    w.options.last? [key] = w.value? [key] := by
  refine w.last?_options (by simpa using hsteps.symm) fun a ha b hb _ _ => ?_
  rw [List.mem_singleton.mp ha, List.mem_singleton.mp hb]

lemma last?_options_scheduler : w.options.last? ["schedule type", "scheduler"] =
    w.value? ["schedule type", "scheduler"] := by
  have hne : ∀ key ∈ ["schedule type", "scheduler"], key ≠ "steps" := by decide
  refine w.last?_options (fun h => hne _ h rfl) fun a ha b hb hmem hmem' => ?_
  rw [map_fst_options, List.mem_cons, or_iff_right (hne a ha)] at hmem
  rw [map_fst_options, List.mem_cons, or_iff_right (hne b hb)] at hmem'
  have hsole := w.sole_scheduler
  simp only [List.mem_cons, List.not_mem_nil, or_false] at ha hb
  rcases ha with rfl | rfl <;> rcases hb with rfl | rfl
  · rfl
  · exact absurd ⟨hmem, hmem'⟩ hsole
  · exact absurd ⟨hmem', hmem⟩ hsole
  · rfl

lemma last?_options_steps : (w.options.last? ["steps"]).bind natural32? = some w.steps := by
  have hvalue : w.options.last? ["steps"] = some (Nat.toDigits 10 w.steps.toNat) := by
    rw [Options.last?, find?_reverse_of_pairwise (w.pairwise_options _ (by simp)), options,
      List.map_cons, List.find?_cons_of_pos (by simp [WrittenSetting.folded_steps])]
    rfl
  have hread : natural? UInt32.size (Nat.toDigits 10 w.steps.toNat) = some w.steps.toNat := by
    have hlt : decimalValue (Nat.toDigits 10 w.steps.toNat) < UInt32.size := by
      rw [decimalValue_toDigits]
      exact w.steps.toNat_lt
    rw [natural?_of_digits Nat.toDigits_ne_nil
      (fun _ hc => Nat.isDigit_of_mem_toDigits (by decide) (by decide) hc) hlt,
      decimalValue_toDigits]
  rw [hvalue, Option.bind_some, natural32?, hread, Option.map_some, UInt32.ofNat_toNat]

lemma lastSize?_options : lastSize? w.options = (w.value? ["size"]).bind size? := by
  have hkeys (key : String) : ["size"].contains key = (key == "size") := by
    rw [List.contains_cons, List.contains_nil, Bool.or_false]
  have hsole := w.pairwise_options ["size"] (by simp)
  rw [← w.last?_options_singleton (by decide), Options.last?, Option.bind_map]
  simp only [hkeys] at hsole ⊢
  refine findSome?_of_pairwise (fun o : String × List Char => size? o.2) ?_
  rw [List.pairwise_reverse]
  refine hsole.imp fun {a b} hab hb => ?_
  rw [← Bool.not_eq_true]
  exact fun ha => absurd hb (by rw [hab ha]; decide)

/-- What is read from the line of settings is what is written there. -/
lemma settingsRecipe_block (family : Family) : settingsRecipe w.block family =
    { w.recipe family with prompt := none, negativePrompt := none } := by
  have hextra : ((ParameterText.settings w.block).filter fun s =>
      !fieldKeys.contains (foldedKey s.1)).map (fun s => (s.1, String.ofList s.2)) =
      (w.settings.filter fun setting => !fieldKeys.contains setting.folded).map fun setting =>
        (setting.key, String.ofList setting.value.text) := by
    rw [block, settings_writtenBlock, List.filter_map, List.map_map, List.filter_cons_of_neg]
    · rfl
    · have hsteps := WrittenSetting.folded_steps w.steps
      rw [WrittenSetting.folded] at hsteps
      simp [hsteps, fieldKeys]
  simp (disch := decide) only [settingsRecipe, options_block, hextra, Options.lastText?,
    lastSize?_options, last?_options_scheduler, last?_options_steps, last?_options_singleton]
  unfold recipe
  cases (w.value? ["size"]).bind size? <;> rfl

/-- Reading a parameter text gives back what is written in it. -/
theorem recipe_text (family : Family) :
    ParameterText.recipe (String.ofList w.text) family = w.recipe family := by
  obtain ⟨promptLines, hparts, hprompts⟩ := w.parts_text
  have htags : loraTags w.prompt = [] := loraTags_of_not_contains w.prompt_tags
  simp only [ParameterText.recipe, String.toList_ofList, hparts, hprompts, htags,
    settingsRecipe_block]
  rfl

/-- A prompt that has a line with steps of its own, and a value that looks like two settings. -/
def climbingCat : WrittenParameters where
  prompt := "a cat,\nSteps: 3 of stone".toList
  negative := some "blurry".toList
  steps := 28
  settings := [
    ⟨'M', "odel".toList, .plain "cats v2".toList ⟨'c', rfl, rfl⟩ ⟨'2', rfl, rfl⟩ (by simp),
      rfl, List.all_eq_true.mp rfl, ⟨'l', rfl, rfl⟩⟩,
    ⟨'N', "ote".toList, .quoted "warm, Seed: 5".toList (by simp),
      rfl, List.all_eq_true.mp rfl, ⟨'e', rfl, rfl⟩⟩]
  prompt_trimmed := by decide +kernel
  prompt_returns := by decide
  prompt_lines := by decide +kernel
  prompt_tags := by decide +kernel
  negative_trimmed := by simp only [Option.mem_def, Option.some.injEq, forall_eq']; decide +kernel
  negative_returns := by simp only [Option.mem_def, Option.some.injEq, forall_eq']; decide
  keys_nodup := by decide +kernel
  steps_notMem := by decide +kernel
  sole_scheduler := by decide +kernel

theorem recipe_text_climbingCat :
    ParameterText.recipe (String.ofList climbingCat.text) .a1111 = climbingCat.recipe .a1111 ∧
      (climbingCat.recipe .a1111).steps = some 28 ∧
      (climbingCat.recipe .a1111).prompt = some "a cat,\nSteps: 3 of stone" ∧
      (climbingCat.recipe .a1111).extra["Note"]? = some "warm, Seed: 5" :=
  ⟨recipe_text climbingCat .a1111, rfl, by decide +kernel, by decide +kernel⟩

/-- A guidance that is no number, beside a distilled one. -/
def distilledCat : WrittenParameters where
  prompt := "a cat".toList
  negative := none
  steps := 20
  settings := [
    ⟨'C', "FG scale".toList,
      .plain "none".toList ⟨'n', rfl, rfl⟩ ⟨'e', rfl, rfl⟩ (by simp),
      rfl, List.all_eq_true.mp rfl, ⟨'e', rfl, rfl⟩⟩,
    ⟨'D', "istilled CFG Scale".toList,
      .plain "3.5".toList ⟨'3', rfl, rfl⟩ ⟨'5', rfl, rfl⟩ (by simp),
      rfl, List.all_eq_true.mp rfl, ⟨'e', rfl, rfl⟩⟩]
  prompt_trimmed := by decide +kernel
  prompt_returns := by decide
  prompt_lines := by decide +kernel
  prompt_tags := by decide +kernel
  negative_trimmed := by simp
  negative_returns := by simp
  keys_nodup := by decide +kernel
  steps_notMem := by decide +kernel
  sole_scheduler := by decide +kernel

/-- The guidance is not open if its value is none: the distilled one counts then. And the letters
and the blanks of a key have to be ASCII letters and spaces. -/
theorem recipe_text_ne :
    (¬ ∀ (w : WrittenParameters) (family : Family),
      (ParameterText.recipe (String.ofList w.text) family).cfg =
        (w.value? ["cfg scale"]).bind Decimal.float?) ∧
    (ParameterText.recipe "a cat\nSteps: 20, Größe: 1" .a1111).steps ≠ some 20 ∧
    (ParameterText.recipe "a cat\nSteps: 20, Clip\tskip: 2" .a1111).steps ≠ some 20 := by
  refine ⟨fun h => ?_, by decide +kernel, by decide +kernel⟩
  have hcfg := congrArg Option.isSome (h distilledCat .a1111)
  exact absurd hcfg (by decide +kernel)

end WrittenParameters

end ImageRecipe.ParameterText
