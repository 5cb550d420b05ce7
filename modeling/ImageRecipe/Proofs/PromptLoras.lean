import ImageRecipe.Proofs.ParameterLines
import ImageRecipe.Proofs.PromptTags
import ImageRecipe.Proofs.SegmentedBlocks
import Mathlib.Data.List.DropRight

/-!
# The LoRAs of a parameter text

A recipe takes its LoRAs from the tags in the prompt, and from the last list of
hashes among the settings only if the prompt has no tag. Blanks around a prompt
and around the block of settings have no tag and no setting.
-/
namespace ImageRecipe.ParameterText

open Text

/-- The names in a list of hashes. An entry with a colon gives what stands before the first one,
trimmed, unless it is blank. -/
def hashedNames (value : List Char) : List (List Char) :=
  (((value.splitOn ',').filter (':' ∈ ·)).map fun entry => trim (entry.takeWhile (· != ':'))).filter
    (· ≠ [])

/-- A LoRA of which only the name is known. -/
def namedLora (name : List Char) : Lora := { name := String.ofList name }

lemma splitOnce?_eq {c : Char} (s : List Char) : splitOnce? (· == c) s =
    if c ∈ s then some (s.takeWhile (· != c), (s.dropWhile (· != c)).tail) else none := by
  induction s with
  | nil => rfl
  | cons d s ih =>
    by_cases hd : d = c
    · simp [splitOnce?, hd]
    · by_cases hmem : c ∈ s <;>
        simp [splitOnce?, hd, Ne.symm hd, ih, hmem]

lemma hashedLoras_eq (value : List Char) :
    hashedLoras value = (hashedNames value).map namedLora := by
  rw [hashedLoras, hashedNames, split_eq_splitOnP, List.splitOn_eq_splitOnP]
  induction value.splitOnP (· == ',') with
  | nil => rfl
  | cons entry entries ih =>
    rw [List.filterMap_cons, ih]
    by_cases hcolon : ':' ∈ entry
    · by_cases hname : trim (entry.takeWhile (· != ':')) = []
      · simp [splitOnce?_eq, hcolon, hname, nonBlank?, trimmed]
      · simp [splitOnce?_eq, hcolon, hname, nonBlank?, trimmed, namedLora]
    · simp [splitOnce?_eq, hcolon]

example : hashedNames "catStyle: 1234, other, : 5, b:c:d".toList =
    ["catStyle".toList, "b".toList] := by decide +kernel

/-- The last list of hashes in a block of settings. -/
def lastHashes? (block : List Char) : Option (List Char) :=
  ((settings block).filter fun s => foldedKey s.1 == "lora hashes").getLast?.map Prod.snd

/-- Without tags the LoRAs are those of the last list of hashes. -/
lemma loras_settingsRecipe (block : List Char) (family : Family) :
    (settingsRecipe block family).loras =
      ((lastHashes? block).elim [] hashedNames).map namedLora := by
  have hsides (r : Recipe) (sides : Option (UInt32 × UInt32)) :
      (r.withSides sides).loras = r.loras := by
    cases sides <;> rfl
  have hlast : Options.last? ((settings block).map fun s => (foldedKey s.1, s.2))
      ["lora hashes"] = lastHashes? block := by
    rw [Options.last?, lastHashes?, List.getLast?_filter, ← List.map_reverse, List.find?_map,
      Option.map_map]
    simp only [Function.comp_def, List.contains_cons, List.contains_nil, Bool.or_false]
  rw [settingsRecipe, hsides]
  dsimp only
  rw [hlast]
  cases lastHashes? block with
  | none => rfl
  | some value => exact hashedLoras_eq value

section Blanks

variable {blanks : List Char} (hblanks : ∀ c ∈ blanks, isBlank c = true)

include hblanks

lemma trimStart_of_blanks : trimStart blanks = [] := List.dropWhile_eq_nil_iff.mpr hblanks

lemma ne_of_mem_blanks {c : Char} (hc : c ∈ blanks) : c ≠ ',' ∧ c ≠ '"' ∧ c ≠ ':' := by
  refine ⟨?_, ?_, ?_⟩ <;> (rintro rfl; exact absurd (hblanks _ hc) (by decide))

lemma beginsKey_append_blanks (s : List Char) : beginsKey (s ++ blanks) = beginsKey s := by
  have hkey : beginsKey blanks = false := by rw [beginsKey, trimStart_of_blanks hblanks]
  refine beginsKey_append_of_head? hkey (fun hcolon => ?_) s
  have hmem : ':' ∈ blanks := (List.dropWhile_sublist _).mem (List.mem_of_mem_head? hcolon)
  exact (ne_of_mem_blanks hblanks hmem).2.2 rfl

lemma pieces_blanks (quoted : Bool) : pieces quoted blanks = [blanks] := by
  induction blanks with
  | nil => rfl
  | cons c blanks ih =>
    obtain ⟨hcomma, hquote, -⟩ := ne_of_mem_blanks hblanks List.mem_cons_self
    have hstate : (quoted != (c == '"')) = quoted := by
      rw [beq_eq_false_iff_ne.mpr hquote, Bool.bne_false]
    rw [pieces_cons (by simp [hcomma]), hstate, ih (List.forall_mem_cons.mp hblanks).2]
    rfl

/-- Blanks behind a block make the last piece longer. -/
lemma pieces_append_blanks (quoted : Bool) (s : List Char) :
    ∃ front last, pieces quoted s = front ++ [last] ∧
      pieces quoted (s ++ blanks) = front ++ [last ++ blanks] := by
  induction s generalizing quoted with
  | nil => exact ⟨[], [], rfl, pieces_blanks hblanks quoted⟩
  | cons c s ih =>
    have hrest := beginsKey_append_blanks hblanks s
    cases hcut : c == ',' && !quoted && beginsKey s with
    | true =>
      obtain ⟨front, last, hpieces, hlonger⟩ := ih quoted
      refine ⟨[] :: front, last, ?_, ?_⟩
      · rw [pieces, if_pos hcut, hpieces, List.cons_append]
      · rw [List.cons_append, pieces, hrest, if_pos hcut, hlonger, List.cons_append]
    | false =>
      obtain ⟨front, last, hpieces, hlonger⟩ := ih (quoted != (c == '"'))
      rw [List.cons_append, pieces_cons hcut, pieces_cons (by rwa [hrest]), hpieces, hlonger]
      cases front with
      | nil => exact ⟨[], c :: last, rfl, rfl⟩
      | cons piece front => exact ⟨(c :: piece) :: front, last, rfl, rfl⟩

end Blanks

section Surrounded

variable {before after : List Char} (hbefore : ∀ c ∈ before, isBlank c = true)
  (hafter : ∀ c ∈ after, isBlank c = true)

include hbefore hafter

lemma trim_between_blanks (s : List Char) : trim (before ++ s ++ after) = trim s := by
  by_cases hs : ∀ c ∈ s, isBlank c = true
  · have hall : ∀ c ∈ before ++ s ++ after, isBlank c = true := by
      simp only [List.mem_append]
      rintro c ((hc | hc) | hc)
      exacts [hbefore c hc, hs c hc, hafter c hc]
    rw [trim, trim, trimStart_of_blanks hall, trimStart_of_blanks hs]
  · exact trim_append_blanks (by simpa using hs) hbefore hafter

/-- Blanks around a block belong to no segment. -/
lemma segments_between_blanks (s : List Char) :
    segments (before ++ s ++ after) = segments s := by
  have hwhole : StaysWhole before := staysWhole_of_forall fun c hc =>
    ⟨(ne_of_mem_blanks hbefore hc).1, (ne_of_mem_blanks hbefore hc).2.1⟩
  obtain ⟨front, last, hpieces, hlonger⟩ := pieces_append_blanks hafter false s
  have htrims : (pieces false (before ++ s ++ after)).map trim = (pieces false s).map trim := by
    rw [List.append_assoc, hwhole, hpieces, hlonger]
    cases front with
    | nil =>
      have hlast := trim_between_blanks hbefore hafter last
      rw [List.append_assoc] at hlast
      simp [hlast]
    | cons piece front =>
      have hpiece := trim_between_blanks hbefore (List.forall_mem_nil _) piece
      have hlast := trim_between_blanks (List.forall_mem_nil _) hafter last
      rw [List.append_nil] at hpiece
      rw [List.nil_append] at hlast
      simp [hpiece, hlast]
  rw [segments, segments, htrims]

end Surrounded

/-- The last list of hashes does not depend on blanks around the block. -/
lemma lastHashes?_append_trim {lead block : List Char} (hlead : ∀ c ∈ lead, isBlank c = true)
    (hvisible : ∃ c ∈ block, isBlank c = false) :
    lastHashes? (lead ++ trim block) = lastHashes? block := by
  obtain ⟨before, after, hsplit, hbefore, hafter, -, -⟩ := exists_blanks_around_trim hvisible
  have hblock := segments_between_blanks hbefore hafter (trim block)
  have hled := segments_between_blanks hlead (List.forall_mem_nil _) (trim block)
  rw [← hsplit] at hblock
  rw [List.append_nil] at hled
  rw [lastHashes?, lastHashes?, settings, settings, hled, hblock]

section Label

variable {label : String} {line : List Char}

lemma beginsWithLabel_iff :
    beginsWithLabel label line = true ↔ ∃ rest, trimStart line = label.toList ++ rest := by
  simp only [beginsWithLabel, beginsWith, Option.isSome_iff_exists, after?_eq_some_iff]

lemma beginsWithLabel_append (hlabel : label.toList ≠ []) (h : beginsWithLabel label line = true)
    (after : List Char) : beginsWithLabel label (line ++ after) = true := by
  obtain ⟨rest, hrest⟩ := beginsWithLabel_iff.mp h
  have hne : trimStart line ≠ [] := by
    rw [hrest]
    exact List.append_ne_nil_of_left_ne_nil hlabel rest
  refine beginsWithLabel_iff.mpr ⟨rest ++ after, ?_⟩
  rw [trimStart_append_of_ne_nil hne, hrest, List.append_assoc]

/-- A line does not begin with a label for losing the blanks in front of it and a carriage return at
its end. -/
lemma beginsWithLabel_chompReturn (hlabel : label.toList ≠ [])
    (h : beginsWithLabel label line = false) :
    beginsWithLabel label (chompReturn (trimStart line)) = false := by
  have hstart : beginsWithLabel label (trimStart line) = false := by
    rw [beginsWithLabel] at h ⊢
    rwa [trimStart, trimStart, List.dropWhile_idempotent]
  rw [chompReturn]
  split
  · rename_i hreturn
    have hsplit := List.dropLast_append_getLast? '\r' hreturn
    rw [← Bool.not_eq_true] at hstart ⊢
    intro hbegins
    refine hstart ?_
    rw [← hsplit]
    exact beginsWithLabel_append hlabel hbegins ['\r']
  · exact hstart

lemma exists_trim_eq_of_beginsWithLabel (hlabel : EndsVisibly label.toList)
    (h : beginsWithLabel label line = true) : ∃ rest, trim line = label.toList ++ rest := by
  obtain ⟨rest, hrest⟩ := beginsWithLabel_iff.mp h
  exact ⟨trimEnd rest, by rw [trim, hrest, trimEnd_append hlabel]⟩

end Label

section Lines

variable {prompt line : List Char}

/-- Whether these are the lines that a prompt on one line leaves in front of the settings. A blank
prompt leaves none. -/
def IsPromptLines (prompt : List Char) (front : List (List Char)) : Prop :=
  front = [] ∧ (∀ c ∈ prompt, isBlank c = true) ∨ front = [chompReturn (trimStart prompt)]

lemma exists_lines_promptAndSettings (hprompt : '\n' ∉ prompt) (hline : '\n' ∉ line)
    (hvisible : ∃ c ∈ line, isBlank c = false) :
    ∃ front lead, lines (trim (prompt ++ '\n' :: line)) = front ++ [lead ++ trim line] ∧
      (∀ c ∈ lead, isBlank c = true) ∧ IsPromptLines prompt front := by
  obtain ⟨before, after, hsplit, hbefore, hafter, hstarts, hends⟩ :=
    exists_blanks_around_trim hvisible
  have hfeed : '\n' ∉ before ++ trim line := fun hc => by
    rw [hsplit] at hline
    exact hline (List.mem_append_left after hc)
  -- a blank prompt is trimmed off together with its line feed
  by_cases hblank : trimStart prompt = []
  · have hprompt : ∀ c ∈ prompt, isBlank c = true := List.dropWhile_eq_nil_iff.mp hblank
    have hbefore : ∀ c ∈ prompt ++ ['\n'], isBlank c = true := fun c hc =>
      (List.mem_append.mp hc).elim (hprompt c) fun hc => by rw [List.mem_singleton.mp hc]; rfl
    have htrim := trim_between_blanks hbefore (List.forall_mem_nil _) line
    rw [List.append_nil, List.append_assoc, List.singleton_append] at htrim
    refine ⟨[], [], ?_, List.forall_mem_nil _, Or.inl ⟨rfl, hprompt⟩⟩
    rw [htrim, lines_of_notMem hends.ne_nil fun hc => hfeed (List.mem_append_right before hc)]
    rfl
  · have htrim : trim (prompt ++ '\n' :: line) =
        trimStart prompt ++ '\n' :: (before ++ trim line) := by
      have hfront := trimEnd_append (hends.append (trimStart prompt ++ '\n' :: before)) after
      rw [trimEnd_eq after, trimStart_of_blanks fun c hc => hafter c (List.mem_reverse.mp hc),
        List.reverse_nil, List.append_nil] at hfront
      rw [trim, trimStart_append_of_ne_nil hblank]
      conv_lhs => rw [hsplit]
      simpa only [List.append_assoc, List.cons_append] using hfront
    have hstart : '\n' ∉ trimStart prompt := fun hc => hprompt ((List.dropWhile_sublist _).mem hc)
    refine ⟨[chompReturn (trimStart prompt)], before, ?_, hbefore, Or.inr rfl⟩
    rw [htrim, lines_append, List.splitOn_eq_singleton hstart,
      lines_of_notMem (hends.append before).ne_nil hfeed]
    rfl

/-- The parts of a prompt on one line with a line of settings behind it. -/
lemma exists_parts_promptAndSettings (hprompt : '\n' ∉ prompt) (hline : '\n' ∉ line)
    (hsteps : beginsWithLabel "Steps:" line = true) :
    ∃ front block, parts (lines (trim (prompt ++ '\n' :: line))) = (front, block) ∧
      lastHashes? block = lastHashes? line ∧ IsPromptLines prompt front := by
  obtain ⟨rest, hrest⟩ := exists_trim_eq_of_beginsWithLabel ⟨':', rfl, rfl⟩ hsteps
  have hvisible : ∃ c ∈ line, isBlank c = false := by
    by_contra hnone
    have hblank : ∀ c ∈ line, isBlank c = true := by simpa using hnone
    rw [trim, trimStart_of_blanks hblank] at hrest
    cases hrest
  obtain ⟨front, lead, hlines, hlead, hfront⟩ :=
    exists_lines_promptAndSettings hprompt hline hvisible
  have hbegins : beginsWithLabel "Steps:" (lead ++ trim line) = true := by
    rw [hrest]
    exact beginsWithLabel_blanks_label ⟨'S', rfl, rfl⟩ hlead rest
  refine ⟨front, lead ++ trim line, ?_, lastHashes?_append_trim hlead hvisible, hfront⟩
  rw [hlines, parts_append hbegins (List.forall_mem_nil _), List.intercalate_singleton]

/-- The prompt that is read has the tags of the one that is written. -/
lemma IsPromptLines.exists_prompts {front : List (List Char)} (hfront : IsPromptLines prompt front)
    (hpositive : beginsWithLabel negativeLabel prompt = false) {tags : List PromptTag}
    (htags : HasTags prompt tags) :
    ∃ text, prompts front = (text, none) ∧ HasTags text tags := by
  rcases hfront with ⟨rfl, hblank⟩ | rfl
  · obtain rfl := htags.eq_nil_of_blank hblank
    exact ⟨[], rfl, .text List.not_mem_nil⟩
  · have hlabel : negativeLabel.toList ≠ [] := by decide
    have hunlabelled := beginsWithLabel_chompReturn hlabel hpositive
    refine ⟨chompReturn (trimStart prompt), ?_, htags.trimStart.chompReturn⟩
    rw [prompts_of_forall (List.forall_mem_singleton.mpr hunlabelled), joinedLines,
      List.intercalate_singleton]

end Lines

/-- The LoRAs of a prompt on one line with a line of settings behind it. If the prompt has tags,
they are those of the tags, in their order and with their weights, whatever hashes the settings
have. If it has none, they are the names in the last list of hashes, in their order. -/
theorem loras_recipe {prompt line : List Char} {tags : List PromptTag}
    (hprompt : '\n' ∉ prompt) (hpositive : beginsWithLabel negativeLabel prompt = false)
    (htags : HasTags prompt tags) (hline : '\n' ∉ line)
    (hsteps : beginsWithLabel "Steps:" line = true) (family : Family) :
    (tags ≠ [] → (recipe (String.ofList (prompt ++ '\n' :: line)) family).loras =
      tags.map PromptTag.lora) ∧
    (tags = [] → (recipe (String.ofList (prompt ++ '\n' :: line)) family).loras =
      ((lastHashes? line).elim [] hashedNames).map namedLora) := by
  obtain ⟨front, block, hparts, hhashes, hfront⟩ :=
    exists_parts_promptAndSettings hprompt hline hsteps
  obtain ⟨text, htext, htagged⟩ := hfront.exists_prompts hpositive htags
  have hloras : (recipe (String.ofList (prompt ++ '\n' :: line)) family).loras =
      firstNonEmpty (tags.map PromptTag.lora)
        (((lastHashes? line).elim [] hashedNames).map namedLora) := by
    simp only [recipe, String.toList_ofList, hparts, htext, htagged.loraTags_eq,
      loras_settingsRecipe, hhashes]
  rw [hloras]
  constructor
  · intro hne
    obtain ⟨tag, others, rfl⟩ := List.exists_cons_of_ne_nil hne
    rfl
  · rintro rfl
    rfl

/-- `<lora:cat style:0.8>` -/
def styleTag : PromptTag where
  name := "cat style".toList
  weight := some {
    decimal := ⟨false, ['0'], some ['8'], by simp, by simp, by simp⟩
    more := none
    more_closed := by simp }
  name_visible := ⟨'c', by decide, rfl⟩
  name_plain := by simp

/-- `<lora: hat>` -/
def hatTag : PromptTag where
  name := " hat".toList
  weight := none
  name_visible := ⟨'h', by decide, rfl⟩
  name_plain := by simp

/-- `<lora:ink:-1.5:te=<0.2>` -/
def inkTag : PromptTag where
  name := "ink".toList
  weight := some {
    decimal := ⟨true, ['1'], some ['5'], by simp, by simp, by simp⟩
    more := some "te=<0.2".toList
    more_closed := by simp }
  name_visible := ⟨'i', by decide, rfl⟩
  name_plain := by simp

/-- A prompt with tags of each form, and a prompt without tags in front of two lists of hashes. -/
theorem loras_recipe_cats :
    (recipe ("a cat <lora:cat style:0.8> in a <lora: hat>,<lora:ink:-1.5:te=<0.2>\n" ++
        "Steps: 20, Lora hashes: \"skin: aa\"") .a1111).loras =
      [⟨"cat style", some (Decimal.nearest 8 (-1)), some (Decimal.nearest 8 (-1))⟩,
        ⟨"hat", none, none⟩,
        ⟨"ink", some (-Decimal.nearest 15 (-1)), some (-Decimal.nearest 15 (-1))⟩] ∧
    (recipe ("a cat > a dog\n" ++
        "Steps: 20, Lora hashes: \"skin: aa\", LORA HASHES: \"cat: b, : c, ink : d:e, f\"")
        .a1111).loras = [⟨"cat", none, none⟩, ⟨"ink", none, none⟩] := by
  constructor
  · have htags : HasTags ("a cat ".toList ++ (styleTag.chars ++ (" in a ".toList ++
        (hatTag.chars ++ (",".toList ++ (inkTag.chars ++ [])))))) [styleTag, hatTag, inkTag] :=
      .tag (by decide) styleTag (.tag (by decide) hatTag (.tag (by decide) inkTag
        (.text (by decide))))
    have hline : '\n' ∉ "Steps: 20, Lora hashes: \"skin: aa\"".toList := by decide
    exact (loras_recipe (by decide) (by decide) htags hline (by decide) .a1111).1 (by simp)
  · have htags : HasTags "a cat > a dog".toList [] := .text (by decide)
    have hline : '\n' ∉ ("Steps: 20, Lora hashes: \"skin: aa\", " ++
        "LORA HASHES: \"cat: b, : c, ink : d:e, f\"").toList := by decide
    have hnames : (lastHashes? ("Steps: 20, Lora hashes: \"skin: aa\", " ++
        "LORA HASHES: \"cat: b, : c, ink : d:e, f\"").toList).elim [] hashedNames =
        ["cat".toList, "ink".toList] := by decide +kernel
    have hloras := (loras_recipe (by decide) (by decide) htags hline (by decide) .a1111).2 rfl
    rw [hnames] at hloras
    exact hloras

end ImageRecipe.ParameterText
