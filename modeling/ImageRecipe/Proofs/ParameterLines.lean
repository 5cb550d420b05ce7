import ImageRecipe.Dialect.ParameterText
import ImageRecipe.Proofs.TextLines

/-!
# The lines of a parameter text

The block of settings begins with the last line that begins with the steps, and
inside the last line only if there is none. Of the lines before it those of the
negative prompt begin with the first one that has its label.
-/
namespace ImageRecipe.ParameterText

open Text

section Label

variable {label : String} (hlabel : StartsVisibly label.toList)

include hlabel

lemma trimStart_blanks_label {blanks : List Char} (hblanks : ∀ c ∈ blanks, isBlank c = true)
    (after : List Char) :
    trimStart (blanks ++ (label.toList ++ after)) = label.toList ++ after := by
  obtain ⟨c, hc, hvisible⟩ := hlabel
  exact trimStart_blanks_append hblanks ⟨c, by simp [Option.mem_def.mp hc], hvisible⟩

lemma beginsWithLabel_blanks_label {blanks : List Char} (hblanks : ∀ c ∈ blanks, isBlank c = true)
    (after : List Char) : beginsWithLabel label (blanks ++ (label.toList ++ after)) = true := by
  rw [beginsWithLabel, trimStart_blanks_label hlabel hblanks, beginsWith,
    after?_eq_some_iff.mpr rfl, Option.isSome_some]

lemma trimStart_label (after : List Char) :
    trimStart (label.toList ++ after) = label.toList ++ after :=
  trimStart_blanks_label hlabel (List.forall_mem_nil _) after

lemma beginsWithLabel_label (after : List Char) :
    beginsWithLabel label (label.toList ++ after) = true :=
  beginsWithLabel_blanks_label hlabel (List.forall_mem_nil _) after

end Label

/-- A label stays at the front of the first line. -/
lemma exists_splitOn_label {label : String} (hlabel : '\n' ∉ label.toList) (after : List Char) :
    ∃ first rest, (label.toList ++ after).splitOn '\n' = (label.toList ++ first) :: rest := by
  obtain ⟨first, rest, hsplit⟩ := List.exists_cons_of_ne_nil (List.splitOn_ne_nil '\n' after)
  exact ⟨first, rest, by rw [splitOn_append_of_notMem hlabel, hsplit, List.modifyHead_cons]⟩

lemma cutAtLast?_eq_none {p : List Char → Bool} {lines : List (List Char)}
    (h : ∀ line ∈ lines, p line = false) : cutAtLast? p lines = none := by
  induction lines with
  | nil => rfl
  | cons line lines ih =>
    obtain ⟨hline, hrest⟩ := List.forall_mem_cons.mp h
    simp [cutAtLast?, ih hrest, hline]

lemma cutAtLast?_append {p : List Char → Bool} {line : List Char} (hline : p line = true)
    {after : List (List Char)} (hafter : ∀ l ∈ after, p l = false) (before : List (List Char)) :
    cutAtLast? p (before ++ line :: after) = some (before, line :: after) := by
  induction before with
  | nil => simp [cutAtLast?, cutAtLast?_eq_none hafter, hline]
  | cons l before ih => simp [cutAtLast?, ih]

/-- The block begins with the last line that begins with the steps. -/
lemma parts_append {line : List Char} (hline : beginsWithLabel "Steps:" line = true)
    {after : List (List Char)} (hafter : ∀ l ∈ after, beginsWithLabel "Steps:" l = false)
    (before : List (List Char)) :
    parts (before ++ line :: after) = (before, List.intercalate ", ".toList (line :: after)) := by
  rw [parts, cutAtLast?_append hline hafter]

/-- If no line begins with the steps, the block is cut off the last line. -/
lemma parts_of_cutLine? {lines : List (List Char)} {last head block : List Char}
    (hnone : ∀ line ∈ lines ++ [last], beginsWithLabel "Steps:" line = false)
    (hcut : cutLine? last = some (head, block)) :
    ∃ promptLines, parts (lines ++ [last]) = (promptLines, block) := by
  rw [parts, cutAtLast?_eq_none hnone, List.getLast?_append, List.getLast?_singleton,
    Option.some_or, Option.bind_some, hcut]
  cases head with
  | nil => exact ⟨_, rfl⟩
  | cons c head => exact ⟨_, rfl⟩

lemma trim_cons_space {s : List Char} (h : trim s = s) : trim (' ' :: s) = s := by
  by_cases hne : s = []
  · subst hne
    rfl
  · have hspace : ∀ c ∈ [' '], isBlank c = true := List.all_eq_true.mp rfl
    obtain ⟨hstarts, hends⟩ := visible_of_trim_eq h hne
    exact trim_blanks_append hspace hstarts hends

section Prompts

variable {front : List (List Char)}
  (hfront : ∀ line ∈ front, beginsWithLabel negativeLabel line = false)

include hfront

/-- Lines without the label are those of a prompt alone. -/
lemma prompts_of_forall : prompts front = (joinedLines front, none) := by
  have hpositive : ∀ line ∈ front, (!beginsWithLabel negativeLabel line) = true := fun line h => by
    rw [hfront line h, Bool.not_false]
  simp only [prompts, List.takeWhile_eq_self_iff.mpr hpositive,
    List.dropWhile_eq_nil_iff.mpr hpositive]
  rfl

/-- Lines behind the label are those of the negative prompt. -/
lemma prompts_append_negative {negative : List Char} (hnegative : trim negative = negative) :
    prompts (front ++ (negativeLabel.toList ++ ' ' :: negative).splitOn '\n') =
      (joinedLines front, some negative) := by
  have hpositive : ∀ line ∈ front, (!beginsWithLabel negativeLabel line) = true := fun line h => by
    rw [hfront line h, Bool.not_false]
  have hlabel : StartsVisibly negativeLabel.toList := ⟨'N', rfl, rfl⟩
  have hjoined : joinedLines ((negativeLabel.toList ++ ' ' :: negative).splitOn '\n') =
      negativeLabel.toList ++ ' ' :: negative := List.intercalate_splitOn _
  have hfeed : '\n' ∉ negativeLabel.toList := by decide
  obtain ⟨first, rest, hlines⟩ := exists_splitOn_label hfeed (' ' :: negative)
  have hbegins := beginsWithLabel_label hlabel first
  rw [hlines] at hjoined ⊢
  simp only [prompts, List.takeWhile_append_of_pos hpositive,
    List.dropWhile_append_of_pos hpositive]
  rw [List.takeWhile_cons_of_neg (by simp [hbegins]),
    List.dropWhile_cons_of_neg (by simp [hbegins]), List.append_nil, hjoined,
    trimStart_label hlabel, after?_eq_some_iff.mpr rfl, Option.map_some, trim_cons_space hnegative]

end Prompts

end ImageRecipe.ParameterText
