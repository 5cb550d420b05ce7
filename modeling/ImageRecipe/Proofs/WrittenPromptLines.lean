import ImageRecipe.Dialect.PromptLine
import ImageRecipe.Proofs.FirstPlaces
import ImageRecipe.Proofs.NormalForm
import ImageRecipe.Proofs.SettingsBlock
import Mathlib.Algebra.BigOperators.Group.List.Basic

/-!
# Prompt lines as they are written

A prompt line is written as the prompt, each flag behind a blank and two dashes,
and the id of the job. A dash at an end of a part does no harm, since a blank
stands before each pair of dashes. Reading the line gives the parts back; of
several flags that say the same thing the last counts.
-/
namespace ImageRecipe

namespace Text

section Cut

variable {needle s t : List Char} {c : Char}

lemma after?_eq_none (h : ¬ needle <+: s) : after? needle s = none := by
  rw [Option.eq_none_iff_forall_ne_some]
  intro rest hrest
  exact h ⟨rest, (after?_eq_some_iff.mp hrest).symm⟩

lemma cut?_eq_none (h : ¬ needle <:+: s) : cut? needle s = none := by
  induction s with
  | nil =>
    have hne : needle ≠ [] := by
      rintro rfl
      exact h (List.infix_refl [])
    rw [cut?, if_neg (by simpa using hne)]
  | cons c s ih =>
    rw [List.infix_cons_iff, not_or] at h
    rw [cut?, after?_eq_none h.1]
    dsimp only
    rw [ih h.2, Option.map_none]

lemma pieces_of_absent (h : ¬ needle <:+: s) (fuel : Nat) : pieces needle fuel s = [s] := by
  cases fuel with
  | zero => rfl
  | succ fuel => rw [pieces, cut?_eq_none h]

/-- A text does not reach over a character that it does not have. -/
lemma prefix_of_prefix_append_cons (hc : c ∉ needle) (h : needle <+: s ++ c :: t) :
    needle <+: s := by
  obtain ⟨rest, hrest⟩ := h
  rcases List.append_eq_append_iff.mp hrest with ⟨common, hs, -⟩ | ⟨common, hneedle, hback⟩
  · exact ⟨common, hs.symm⟩
  · cases common with
    | nil => exact ⟨[], by rw [hneedle, List.append_nil, List.append_nil]⟩
    | cons d common =>
      obtain ⟨rfl, -⟩ := List.cons.inj hback
      exact absurd (hneedle ▸ List.mem_append_right s List.mem_cons_self) hc

lemma infix_or_infix_of_append_cons (hc : c ∉ needle) (h : needle <:+: s ++ c :: t) :
    needle <:+: s ∨ needle <:+: t := by
  induction s with
  | nil =>
    rcases List.infix_cons_iff.mp h with hfront | hback
    · exact Or.inl (prefix_of_prefix_append_cons (s := []) hc hfront).isInfix
    · exact Or.inr hback
  | cons d s ih =>
    rcases List.infix_cons_iff.mp h with hfront | hback
    · exact Or.inl (prefix_of_prefix_append_cons (s := d :: s) hc hfront).isInfix
    · exact (ih hback).imp_left fun hs => hs.trans (List.suffix_cons d s).isInfix

/-- Behind a text without it and a character that it does not have, a text is found at once. -/
lemma cut?_append_cons (hne : needle ≠ []) (hc : c ∉ needle) (h : ¬ needle <:+: s)
    (rest : List Char) : cut? needle (s ++ c :: (needle ++ rest)) = some (s ++ [c], rest) := by
  have hhere : cut? needle (needle ++ rest) = some ([], rest) := by
    obtain ⟨d, back, rfl⟩ := List.exists_cons_of_ne_nil hne
    rw [List.cons_append, cut?, ← List.cons_append, after?_eq_some_iff.mpr rfl]
  induction s with
  | nil =>
    have hfront : ¬ needle <+: c :: (needle ++ rest) := fun hplace =>
      hne (List.prefix_nil.mp (prefix_of_prefix_append_cons (s := []) hc hplace))
    rw [List.nil_append, cut?, after?_eq_none hfront]
    dsimp only
    rw [hhere]
    rfl
  | cons d s ih =>
    have hfront : ¬ needle <+: d :: s ++ c :: (needle ++ rest) := fun hplace =>
      h (prefix_of_prefix_append_cons hc hplace).isInfix
    have hs : ¬ needle <:+: s := fun hwithin => h (hwithin.trans (List.suffix_cons d s).isInfix)
    rw [List.cons_append] at hfront ⊢
    rw [cut?, after?_eq_none hfront]
    dsimp only
    rw [ih hs]
    rfl

lemma splitOnce?_eq_none {p : Char → Bool} (h : ∀ c ∈ s, p c = false) :
    splitOnce? p s = none := by
  rw [Option.eq_none_iff_forall_ne_some]
  rintro ⟨before, after⟩ hs
  obtain ⟨c, hc, rfl⟩ := eq_of_splitOnce?_eq_some hs
  rw [h c (List.mem_append_right before List.mem_cons_self)] at hc
  cases hc

end Cut

end Text

namespace TextMap

/-- Of several entries with one name the last counts. -/
lemma getElem?_ofEntries (entries : List (String × String)) (name : String) :
    (ofEntries entries)[name]? = (entries.reverse.find? fun e => e.1 == name).map Prod.snd := by
  induction entries using List.reverseRecOn with
  | nil => simp [ofEntries]
  | append_singleton entries entry ih =>
    rw [ofEntries, List.foldl_append, List.foldl_cons, List.foldl_nil, ← ofEntries,
      Std.ExtTreeMap.getElem?_insert, ih, List.reverse_append, List.reverse_singleton,
      List.singleton_append, List.find?_cons]
    simp only [Std.LawfulEqCmp.compare_eq_iff_eq]
    by_cases heq : entry.1 = name
    · simp [heq]
    · rw [if_neg heq, beq_eq_false_iff_ne.mpr heq]

end TextMap

namespace PromptLine

open Text

def dashes : List Char := "--".toList

def jobLabel : List Char := "Job ID:".toList

/-- A flag: a name without blanks and a value, which may be empty. -/
structure WrittenFlag where
  name : String
  value : String
  name_ne_empty : name ≠ "" := by decide +kernel
  name_visible : ∀ c ∈ name.toList, isBlank c = false := by simp [isBlank]
  name_apart : ¬ dashes <:+: name.toList := by decide +kernel
  value_trimmed : trimmed value = value := by decide +kernel
  value_apart : ¬ dashes <:+: value.toList := by decide +kernel

namespace WrittenFlag

variable (flag : WrittenFlag)

/-- The flag as it is written behind the dashes. -/
def body : List Char :=
  if flag.value = "" then flag.name.toList else flag.name.toList ++ ' ' :: flag.value.toList

/-- The flag as it is written. -/
def chars : List Char := ' ' :: (dashes ++ flag.body)

/-- What is read of the flag. -/
def option : String × List Char := (flag.name, flag.value.toList)

lemma name_ne_nil : flag.name.toList ≠ [] := by
  simpa using flag.name_ne_empty

lemma body_ne_nil : flag.body ≠ [] := by
  unfold body
  split <;> simp [flag.name_ne_nil]

lemma trim_value : trim flag.value.toList = flag.value.toList :=
  trim_toList_of_trimmed_eq flag.value_trimmed

lemma trim_body : trim flag.body = flag.body := by
  have hstarts : StartsVisibly flag.name.toList :=
    startsVisibly_of_forall flag.name_ne_nil flag.name_visible
  unfold body
  split
  · exact trim_of_visible hstarts (endsVisibly_of_forall flag.name_ne_nil flag.name_visible)
  · rename_i hvalue
    obtain ⟨-, hends⟩ := visible_of_trim_eq flag.trim_value (by simpa using hvalue)
    exact trim_of_visible (hstarts.append _) ((hends.cons ' ').append _)

lemma body_apart : ¬ dashes <:+: flag.body := by
  unfold body
  split
  · exact flag.name_apart
  · intro hwithin
    rcases infix_or_infix_of_append_cons (by decide) hwithin with hname | hvalue
    · exact flag.name_apart hname
    · exact flag.value_apart hvalue

/-- A flag is read as it was written. -/
lemma flag_body : PromptLine.flag flag.body = flag.option := by
  unfold PromptLine.flag
  by_cases hvalue : flag.value = ""
  · rw [body, if_pos hvalue, splitOnce?_eq_none flag.name_visible]
    simp [option, hvalue]
  · rw [body, if_neg hvalue, ParameterText.splitOnce?_append (by decide) flag.name_visible]
    simp [option, flag.trim_value]

end WrittenFlag

/-- A prompt with its flags, and the id of the job if there is one. -/
structure WrittenLine where
  prompt : String
  flags : List WrittenFlag
  jobId : Option String
  prompt_trimmed : trimmed prompt = prompt
  prompt_apart : ¬ dashes <:+: prompt.toList
  label_absent : ¬ jobLabel <:+: prompt.toList ++ flags.flatMap WrittenFlag.chars
  jobId_ne_empty : ∀ id ∈ jobId, id ≠ ""
  jobId_chars : ∀ id ∈ jobId, ∀ c ∈ id.toList, isJobIdChar c = true

namespace WrittenLine

variable (line : WrittenLine)

/-- The prompt and the flags as they are written. -/
def promptAndFlags : List Char := line.prompt.toList ++ line.flags.flatMap WrittenFlag.chars

/-- The id of the job as it is written. -/
def jobChars : List Char :=
  match line.jobId with
  | some id => ' ' :: (jobLabel ++ ' ' :: id.toList)
  | none => []

/-- The line as it is written. -/
def text : String := String.ofList (line.promptAndFlags ++ line.jobChars)

/-- The value of the last flag with one of the names. -/
def last? (names : List String) : Option String :=
  (line.flags.reverse.find? fun flag => names.contains flag.name).map WrittenFlag.value

/-- The options that the flags are. -/
def options : Options := line.flags.map WrittenFlag.option

lemma last?_options (names : List String) :
    line.options.last? names = (line.last? names).map String.toList := by
  rw [Options.last?, options, ← List.map_reverse, List.find?_map, Option.map_map, last?,
    Option.map_map]
  rfl

end WrittenLine

/-- Cutting at the dashes gives back what stands in front and each flag. -/
lemma map_trim_pieces {flags : List WrittenFlag} {front back : List Char} {fuel : Nat}
    (hfront : ¬ dashes <:+: front) (htrim : trim front = front) (hback : back = [] ∨ back = [' '])
    (hfuel : flags.length ≤ fuel) :
    (pieces dashes fuel (front ++ (flags.flatMap WrittenFlag.chars ++ back))).map trim =
      front :: flags.map WrittenFlag.body := by
  induction flags generalizing front fuel with
  | nil =>
    have hlast : ¬ dashes <:+: front ++ back := by
      rcases hback with rfl | rfl
      · rwa [List.append_nil]
      · intro hwithin
        rcases infix_or_infix_of_append_cons (by decide) hwithin with hplace | hplace
        · exact hfront hplace
        · cases List.infix_nil.mp hplace
    have hblanks : ∀ c ∈ back, isBlank c = true := by
      rcases hback with rfl | rfl <;> simp [isBlank]
    rw [List.flatMap_nil, List.nil_append, pieces_of_absent hlast, List.map_singleton,
      trim_append_of_trim_eq htrim hblanks, List.map_nil]
  | cons flag flags ih =>
    obtain ⟨fuel, rfl⟩ := Nat.exists_eq_add_one_of_ne_zero (Nat.ne_of_gt
      (Nat.lt_of_lt_of_le (Nat.succ_pos flags.length) hfuel))
    have hcut : cut? dashes (front ++ (List.flatMap WrittenFlag.chars (flag :: flags) ++ back)) =
        some (front ++ [' '], flag.body ++ (flags.flatMap WrittenFlag.chars ++ back)) := by
      rw [List.flatMap_cons, WrittenFlag.chars, List.cons_append, List.cons_append,
        List.append_assoc, List.append_assoc]
      exact cut?_append_cons (by decide) (by decide) hfront _
    rw [pieces, hcut]
    dsimp only
    rw [List.map_cons, trim_append_of_trim_eq htrim (by simp [isBlank]),
      ih flag.body_apart flag.trim_body (by simpa using hfuel), List.map_cons]

section Line

variable (line : WrittenLine)

/-- The parts of a line are the prompt and the flags. -/
lemma parts_promptAndFlags {back : List Char} (hback : back = [] ∨ back = [' ']) :
    parts (line.promptAndFlags ++ back) = (line.prompt.toList, line.options) := by
  have htrim : trim line.prompt.toList = line.prompt.toList :=
    trim_toList_of_trimmed_eq line.prompt_trimmed
  have hfuel : line.flags.length ≤ (line.promptAndFlags ++ back).length := by
    have hflags := List.length_le_sum_of_one_le
      (line.flags.map fun flag => flag.chars.length) (by simp [WrittenFlag.chars])
    rw [List.length_map, ← List.length_flatMap] at hflags
    simp only [WrittenLine.promptAndFlags, List.length_append]
    omega
  have hpieces := map_trim_pieces line.prompt_apart htrim hback hfuel
  rw [← List.append_assoc, ← WrittenLine.promptAndFlags] at hpieces
  obtain ⟨prompt, flags, hsplit, hprompt, hflags⟩ := List.map_eq_cons_iff.mp hpieces
  have hbodies : ∀ body ∈ line.flags.map WrittenFlag.body, (!body.isEmpty) = true := by
    intro body hbody
    obtain ⟨flag, -, rfl⟩ := List.mem_map.mp hbody
    simpa using flag.body_ne_nil
  have hread : (line.flags.map WrittenFlag.body).map flag = line.options := by
    rw [List.map_map]
    exact List.map_congr_left fun flag _ => flag.flag_body
  rw [parts, splitAt, ← dashes, hsplit]
  dsimp only
  rw [hprompt, hflags, List.filter_eq_self.mpr hbodies, hread]

/-- The label does not end in a blank, so a blank behind the flags does not complete it. -/
lemma jobLabel_apart : ¬ jobLabel <:+: line.promptAndFlags ++ [' '] := by
  intro hwithin
  rcases List.infix_concat_iff.mp hwithin with hback | hplace
  · obtain ⟨front, hfront⟩ := hback
    have hlast := congrArg List.getLast? hfront
    rw [List.getLast?_append, List.getLast?_concat] at hlast
    cases hlast
  · exact line.label_absent hplace

lemma jobIdAt?_eq (s : List Char) : jobIdAt? s =
    (after? jobLabel s).bind fun rest => run? isJobIdChar (trimStart rest) := rfl

lemma jobIdAt?_eq_none {s : List Char} (h : ¬ jobLabel <+: s) : jobIdAt? s = none := by
  rw [jobIdAt?_eq, after?_eq_none h, Option.bind_none]

lemma isBlank_of_isJobIdChar {c : Char} (h : isJobIdChar c = true) : isBlank c = false := by
  rcases Bool.or_eq_true_iff.mp h with halphanum | hdash
  · exact isBlank_of_isAlphanum halphanum
  · rw [beq_iff_eq.mp hdash]
    rfl

lemma jobIdAt?_label {id : List Char} (hne : id ≠ []) (hid : ∀ c ∈ id, isJobIdChar c = true) :
    jobIdAt? (jobLabel ++ ' ' :: id) = some (id, []) := by
  have hrun : run? isJobIdChar id = some (id, []) := by
    rw [run?, List.takeWhile_eq_self_iff.mpr hid, List.dropWhile_eq_nil_iff.mpr hid]
    split
    · contradiction
    · rfl
  have hstarts : StartsVisibly id :=
    startsVisibly_of_forall hne fun c hc => isBlank_of_isJobIdChar (hid c hc)
  have hblanks : ∀ c ∈ [' '], isBlank c = true := List.forall_mem_singleton.mpr rfl
  have hblank : trimStart (' ' :: id) = id := trimStart_blanks_append hblanks hstarts
  rw [jobIdAt?_eq, after?_eq_some_iff.mpr rfl, Option.bind_some, hblank, hrun]

/-- The id of the job is found, and the rest of the line is left with a blank in its place. -/
lemma withoutJobId_text : ∃ back, (back = [] ∨ back = [' ']) ∧
    withoutJobId line.text.toList =
      (line.jobId.map String.toList, line.promptAndFlags ++ back) := by
  cases hid : line.jobId with
  | none =>
    refine ⟨[], Or.inl rfl, ?_⟩
    have hcut : cutAt? jobIdAt? line.promptAndFlags = none := cutAt?_eq_none fun t ht =>
      jobIdAt?_eq_none fun hplace => line.label_absent (hplace.isInfix.trans ht.isInfix)
    rw [WrittenLine.text, String.toList_ofList, WrittenLine.jobChars, hid]
    dsimp only
    rw [List.append_nil, withoutJobId, hcut]
    rfl
  | some id =>
    refine ⟨[' '], Or.inr rfl, ?_⟩
    have hne : id.toList ≠ [] := by simpa using line.jobId_ne_empty id hid
    have hlabel : Unbordered jobLabel := by decide
    have hcut : cutAt? jobIdAt? ((line.promptAndFlags ++ [' ']) ++ (jobLabel ++ ' ' :: id.toList)) =
        some (line.promptAndFlags ++ [' '], id.toList, []) := by
      refine cutAt?_append (fun t ht hne => jobIdAt?_eq_none fun hplace => ?_)
        (jobIdAt?_label hne (line.jobId_chars id hid))
      exact jobLabel_apart line ((hlabel.prefix_of_append hne hplace).isInfix.trans ht.isInfix)
    rw [List.append_assoc, List.singleton_append] at hcut
    rw [WrittenLine.text, String.toList_ofList, WrittenLine.jobChars, hid]
    dsimp only
    rw [withoutJobId, hcut]
    dsimp only
    rw [List.append_nil, Option.map_some]

end Line

/-- The names of the flags whose value is kept under a key. -/
def namesUnder (key : String) : List String :=
  match key with
  | "aspect_ratio" => ["ar", "aspect", "aspect_ratio"]
  | "stylize" => ["stylize", "s"]
  | "chaos" => ["chaos", "c"]
  | "ar" | "aspect" | "s" | "c" | "v" | "version" | "niji" | "seed" => []
  | key => [key]

lemma contains_namesUnder (name key : String) :
    (namesUnder key).contains name = (!fieldNames.contains name && fullName name == key) := by
  rw [Bool.eq_iff_iff]
  unfold namesUnder fullName fieldNames
  split <;> grind

namespace WrittenLine

variable (line : WrittenLine)

/-- The model of a line: Niji if a flag says so, or else a version of Midjourney. -/
def model? : Option String :=
  match line.last? ["niji"] with
  | some version => some (if version = "" then "Niji" else "Niji " ++ version)
  | none => ((line.last? ["v", "version"]).filter (· ≠ "")).map ("Midjourney v" ++ ·)

/-- What is kept under a key: the id of the job, or the value of the last flag for that key. -/
def kept? (key : String) : Option String :=
  if key = "Job ID" then line.jobId else line.last? (namesUnder key)

lemma model?_options : PromptLine.model? line.options = line.model? := by
  rw [PromptLine.model?, line.last?_options, line.last?_options, model?]
  cases line.last? ["niji"] with
  | some version =>
    by_cases hversion : version = "" <;> simp [hversion]
  | none =>
    cases line.last? ["v", "version"] with
    | none => rfl
    | some version =>
      by_cases hversion : version = ""
      · rw [hversion]
        rfl
      · obtain ⟨c, rest, hchars⟩ := List.exists_cons_of_ne_nil (l := version.toList)
          (by simpa using hversion)
        rw [Option.map_some, Option.filter_some, if_pos (by simpa using hversion),
          Option.map_some, Option.map_none, hchars]
        dsimp only
        rw [← hchars, String.ofList_toList]

/-- The last entry with a key that the flags make is the last flag for that key. -/
lemma find?_entries (key : String) :
    (((line.options.filter fun o => !fieldNames.contains o.1).map fun o =>
      (fullName o.1, String.ofList o.2)).reverse.find? fun e => e.1 == key).map Prod.snd =
      line.last? (namesUnder key) := by
  have hnames : (fun o : String × List Char =>
      decide ((!fieldNames.contains o.1) = true ∧ (fullName o.1 == key) = true)) =
      fun o => (namesUnder key).contains o.1 := by
    funext o
    rw [contains_namesUnder, Bool.decide_and, Bool.decide_eq_true, Bool.decide_eq_true]
  calc _ = (line.options.last? (namesUnder key)).map String.ofList := by
        rw [← List.map_reverse, List.find?_map, ← List.filter_reverse, List.find?_filter,
          Options.last?, Option.map_map, Option.map_map, ← hnames]
        rfl
    _ = line.last? (namesUnder key) := by
        rw [line.last?_options, Option.map_map]
        simp [Function.comp_def]

/-- The key of the id has a blank, which no flag has in its name. -/
lemma last?_jobKey : line.last? (namesUnder "Job ID") = none := by
  rw [last?, Option.map_eq_none_iff, List.find?_eq_none]
  intro flag _ hname
  have hkey : flag.name = "Job ID" := by simpa [namesUnder] using hname
  have hblank := flag.name_visible ' ' (by rw [hkey]; decide)
  cases hblank

lemma getElem?_extra (key : String) :
    (extra (line.jobId.map String.toList) line.options)[key]? = line.kept? key := by
  rw [extra, TextMap.getElem?_ofEntries, List.reverse_append, List.find?_append, Option.map_or,
    line.find?_entries, kept?]
  by_cases hkey : key = "Job ID"
  · rw [if_pos hkey, hkey, line.last?_jobKey, Option.none_or]
    cases line.jobId <;> simp
  · rw [if_neg hkey]
    cases line.jobId <;> simp [Ne.symm hkey]

/-- A line reads back as it was written. Of several flags that say the same thing the last one
counts, whatever name it goes by, and nothing else is read. -/
theorem recipe_writtenLine (family : Family) :
    recipe line.text family =
        { generator := some (if (line.last? ["niji"]).isSome then .niji else family)
          prompt := some line.prompt
          model := line.model?
          seed := (line.last? ["seed"]).bind Seed.ofText?
          extra := (recipe line.text family).extra } ∧
      ∀ key, (recipe line.text family).extra[key]? = line.kept? key := by
  obtain ⟨back, hback, hjob⟩ := withoutJobId_text line
  have hrecipe : recipe line.text family =
      { generator := some (if (line.last? ["niji"]).isSome then .niji else family)
        prompt := some line.prompt
        model := line.model?
        seed := (line.last? ["seed"]).bind Seed.ofText?
        extra := extra (line.jobId.map String.toList) line.options } := by
    rw [recipe, hjob]
    dsimp only
    rw [parts_promptAndFlags line hback]
    dsimp only
    rw [line.model?_options, line.last?_options, line.last?_options, Option.isSome_map,
      Option.bind_map, String.ofList_toList]
    rfl
  rw [hrecipe]
  exact ⟨rfl, line.getElem?_extra⟩

/-- A line with a flag that is given twice, once by its short name, and a flag without a value. -/
def lighthouse : WrittenLine where
  prompt := "a lighthouse at dusk"
  flags := [
    { name := "ar", value := "16:9" },
    { name := "v", value := "6.1" },
    { name := "stylize", value := "250" },
    { name := "tile", value := "" },
    { name := "s", value := "-1 or so" },
    { name := "seed", value := "4242" }]
  jobId := some "5f1d2c3b-aaaa"
  prompt_trimmed := by decide +kernel
  prompt_apart := by decide +kernel
  label_absent := by decide +kernel
  jobId_ne_empty := by
    rintro _ ⟨⟩
    decide
  jobId_chars := by
    rintro _ ⟨⟩
    exact List.all_eq_true.mp rfl

theorem recipe_lighthouse :
    lighthouse.text = "a lighthouse at dusk --ar 16:9 --v 6.1 --stylize 250 --tile " ++
        "--s -1 or so --seed 4242 Job ID: 5f1d2c3b-aaaa" ∧
      (recipe lighthouse.text .midjourney).model = some "Midjourney v6.1" ∧
      (recipe lighthouse.text .midjourney).seed = some 4242 ∧
      (recipe lighthouse.text .midjourney).extra["stylize"]? = some "-1 or so" ∧
      (recipe lighthouse.text .midjourney).extra["Job ID"]? = some "5f1d2c3b-aaaa" := by
  obtain ⟨hrecipe, hextra⟩ := recipe_writtenLine lighthouse .midjourney
  refine ⟨by decide +kernel, ?_, ?_, (hextra "stylize").trans (by decide +kernel), hextra "Job ID"⟩
  · exact (congrArg Recipe.model hrecipe).trans (by decide +kernel)
  · exact (congrArg Recipe.seed hrecipe).trans (by decide +kernel)

end WrittenLine

end PromptLine

end ImageRecipe
