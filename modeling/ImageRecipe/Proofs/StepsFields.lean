import ImageRecipe.Proofs.ParameterLines
import ImageRecipe.Proofs.SettingsBlock

/-!
# The steps field of a parameter text

A text is taken for a parameter text if it has a steps field anywhere, while its
settings are those of the last line that begins with the steps, or else of the
last line. So the number of steps is that of the only field if these settings
begin with it and are cut off behind its number.
-/
namespace ImageRecipe.ParameterText

open Text

lemma isBlank_of_isDecimalDigit {c : Char} (h : isDecimalDigit c = true) : isBlank c = false := by
  by_contra hblank
  have hall : ∀ n ∈ blankCodes, isDecimalDigit (Char.ofNat n) = false := by decide +kernel
  have hnot := hall _ (toNat_mem_blankCodes (by simpa using hblank))
  rw [Char.ofNat_toNat, h] at hnot
  cases hnot

/-- Blanks and digits behind the label. -/
structure Steps where
  blanks : List Char
  digits : List Char
  isBlank_of_mem : ∀ c ∈ blanks, isBlank c = true
  digits_ne_nil : digits ≠ []
  isDecimalDigit_of_mem : ∀ c ∈ digits, isDecimalDigit c = true

namespace Steps

variable (steps : Steps)

/-- The steps as they are written. -/
def chars : List Char := "Steps:".toList ++ (steps.blanks ++ steps.digits)

lemma chars_eq : steps.chars = "Steps:".toList ++ (steps.blanks ++ steps.digits) := rfl

lemma starts_chars : StartsVisibly steps.chars := ⟨'S', rfl, rfl⟩

lemma starts_digits (after : List Char) : StartsVisibly (steps.digits ++ after) := by
  obtain ⟨c, rest, hdigits⟩ := List.exists_cons_of_ne_nil steps.digits_ne_nil
  refine ⟨c, by simp [hdigits], isBlank_of_isDecimalDigit (steps.isDecimalDigit_of_mem c ?_)⟩
  exact hdigits ▸ List.mem_cons_self

lemma ends_digits : EndsVisibly steps.digits :=
  endsVisibly_of_forall steps.digits_ne_nil fun c hc =>
    isBlank_of_isDecimalDigit (steps.isDecimalDigit_of_mem c hc)

lemma ends_chars : EndsVisibly steps.chars := (steps.ends_digits.append _).append _

lemma lineFeed_notMem_chars (h : '\n' ∉ steps.blanks) : '\n' ∉ steps.chars := by
  have hdigits : '\n' ∉ steps.digits := fun hmem =>
    absurd (steps.isDecimalDigit_of_mem _ hmem) (by decide)
  have hlabel : '\n' ∉ "Steps:".toList := by decide
  rw [chars_eq, List.mem_append, List.mem_append, not_or, not_or]
  exact ⟨hlabel, h, hdigits⟩

lemma beginsWithLabel_chars {blanks : List Char} (hblanks : ∀ c ∈ blanks, isBlank c = true)
    (after : List Char) : beginsWithLabel "Steps:" (blanks ++ (steps.chars ++ after)) = true := by
  rw [chars_eq, List.append_assoc]
  exact beginsWithLabel_blanks_label ⟨'S', rfl, rfl⟩ hblanks _

lemma beginsSteps_chars (after : List Char) : beginsSteps (steps.chars ++ after) = true := by
  have hblanks : trimStart (steps.blanks ++ (steps.digits ++ after)) = steps.digits ++ after :=
    trimStart_blanks_append steps.isBlank_of_mem (steps.starts_digits after)
  have hrun : (steps.digits ++ after).takeWhile isDecimalDigit =
      steps.digits ++ after.takeWhile isDecimalDigit :=
    List.takeWhile_append_of_pos steps.isDecimalDigit_of_mem
  obtain ⟨c, rest, hdigits⟩ := List.exists_cons_of_ne_nil steps.digits_ne_nil
  rw [chars_eq, List.append_assoc, List.append_assoc, beginsSteps, labelled?,
    after?_eq_some_iff.mpr rfl, Option.bind_some, hblanks, run?, hrun, hdigits]
  rfl

end Steps

/-- Where the steps begin, blanks and digits follow the label, and no further digit them. -/
lemma exists_steps_of_beginsSteps {s : List Char} (h : beginsSteps s = true) :
    ∃ (steps : Steps) (after : List Char), s = steps.chars ++ after ∧
      ∀ c ∈ after.head?, isDecimalDigit c = false := by
  obtain ⟨_, hread⟩ := Option.isSome_iff_exists.mp h
  obtain ⟨rest, hrest, hrun⟩ := Option.bind_eq_some_iff.mp hread
  have hne : (trimStart rest).takeWhile isDecimalDigit ≠ [] := by
    intro hnil
    rw [run?, hnil] at hrun
    cases hrun
  refine ⟨⟨rest.takeWhile isBlank, _, fun c hc => List.mem_takeWhile_imp hc, hne,
    fun c hc => List.mem_takeWhile_imp hc⟩, (trimStart rest).dropWhile isDecimalDigit, ?_, ?_⟩
  · have hdigits := List.takeWhile_append_dropWhile (p := isDecimalDigit) (l := trimStart rest)
    have hblanks : rest.takeWhile isBlank ++ trimStart rest = rest :=
      List.takeWhile_append_dropWhile
    rw [after?_eq_some_iff.mp hrest, Steps.chars_eq, List.append_assoc, List.append_assoc, hdigits,
      hblanks]
  · intro c hc
    have hhead := List.head?_dropWhile_not isDecimalDigit (trimStart rest)
    rwa [Option.mem_def.mp hc] at hhead

lemma exists_steps_behind_blanks {s : List Char} (h : beginsSteps (trimStart s) = true) :
    ∃ (blanks : List Char) (steps : Steps) (after : List Char),
      s = blanks ++ (steps.chars ++ after) ∧ ∀ c ∈ blanks, isBlank c = true := by
  obtain ⟨steps, after, hafter, -⟩ := exists_steps_of_beginsSteps h
  refine ⟨s.takeWhile isBlank, steps, after, ?_, fun c hc => List.mem_takeWhile_imp hc⟩
  rw [← hafter]
  exact List.takeWhile_append_dropWhile.symm

/-- Whether a steps field may stand behind a text: at the beginning of a line, or behind a comma
and blanks. -/
def OpensField (before : List Char) : Prop :=
  EndsLine before ∨
    ∃ front blanks, before = front ++ ',' :: blanks ∧ ∀ c ∈ blanks, isBlank c = true

/-- A place in a text where a steps field stands. -/
structure StepsField (text : List Char) where
  before : List Char
  steps : Steps
  after : List Char
  text_eq : text = before ++ (steps.chars ++ after)
  opens : OpensField before
  isDecimalDigit_head : ∀ c ∈ after.head?, isDecimalDigit c = false

lemma exists_field {text before s : List Char} (htext : text = before ++ s)
    (hopens : OpensField before) (hs : beginsSteps s = true) :
    ∃ field : StepsField text, field.before = before := by
  obtain ⟨steps, after, rfl, hafter⟩ := exists_steps_of_beginsSteps hs
  exact ⟨⟨before, steps, after, htext, hopens, hafter⟩, rfl⟩

/-- If the label stands in one place only, so does a field. -/
lemma StepsField.before_eq_take {text : List Char} (place : Nat)
    (h : ∀ i ≤ text.length, beginsWith "Steps:".toList (text.drop i) = true → i = place)
    (field : StepsField text) : field.before = text.take place := by
  have hdrop : text.drop field.before.length = field.steps.chars ++ field.after :=
    (congrArg (List.drop field.before.length) field.text_eq).trans List.drop_left
  have htake : text.take field.before.length = field.before :=
    (congrArg (List.take field.before.length) field.text_eq).trans List.take_left
  have hle : field.before.length ≤ text.length := by
    have hlength := congrArg List.length field.text_eq
    rw [List.length_append] at hlength
    omega
  have hlabel : beginsWith "Steps:".toList (text.drop field.before.length) = true := by
    rw [hdrop, Steps.chars_eq, List.append_assoc, beginsWith, after?_eq_some_iff.mpr rfl,
      Option.isSome_some]
  rw [← h _ hle hlabel, htake]

/-- Whether a text may be cut before what follows, for there the steps or a comma before them
stand. -/
def CutsAtSteps (atLineStart : Bool) (before after : List Char) : Prop :=
  ((atLineStart = true ∧ before = []) ∨ ∃ lines, before = lines ++ ['\n']) ∧
      beginsSteps after = true ∨
    ∃ rest, after = ',' :: rest ∧ beginsSteps (trimStart rest) = true

lemma eq_of_cutAtSteps? {atLineStart : Bool} {s before after : List Char}
    (h : cutAtSteps? atLineStart s = some (before, after)) :
    s = before ++ after ∧ CutsAtSteps atLineStart before after := by
  induction s generalizing atLineStart before with
  | nil => cases h
  | cons c s ih =>
    rw [cutAtSteps?] at h
    split at h
    · rename_i hcut
      obtain ⟨rfl, rfl⟩ := Prod.mk.inj (Option.some.inj h)
      refine ⟨rfl, ?_⟩
      rw [Bool.or_eq_true, Bool.and_eq_true, Bool.and_eq_true, beq_iff_eq] at hcut
      rcases hcut with ⟨hstart, hsteps⟩ | ⟨rfl, hsteps⟩
      · exact Or.inl ⟨Or.inl ⟨hstart, rfl⟩, hsteps⟩
      · exact Or.inr ⟨s, rfl, hsteps⟩
    · obtain ⟨⟨front, _⟩, hfront, heq⟩ := Option.map_eq_some_iff.mp h
      obtain ⟨rfl, rfl⟩ := Prod.mk.inj heq
      obtain ⟨rfl, hplace⟩ := ih hfront
      refine ⟨rfl, hplace.imp_left fun ⟨hline, hsteps⟩ => ⟨Or.inr ?_, hsteps⟩⟩
      rcases hline with ⟨hc, rfl⟩ | ⟨lines, rfl⟩
      · exact ⟨[], by rw [beq_iff_eq.mp hc]; rfl⟩
      · exact ⟨c :: lines, rfl⟩

/-- A line that does not begin with the steps is cut at a comma. -/
lemma eq_of_cutAtSteps?_line {line before found : List Char}
    (hcut : cutAtSteps? true line = some (before, found)) (hline : '\n' ∉ line)
    (hlabel : beginsWithLabel "Steps:" line = false) :
    ∃ (between : List Char) (steps : Steps) (after : List Char),
      found = ',' :: (between ++ (steps.chars ++ after)) ∧ (∀ c ∈ between, isBlank c = true) ∧
        line = before ++ ',' :: (between ++ (steps.chars ++ after)) := by
  obtain ⟨rfl, ⟨hplace, hsteps⟩ | ⟨rest, rfl, hsteps⟩⟩ := eq_of_cutAtSteps? hcut
  · obtain ⟨steps, after, rfl, -⟩ := exists_steps_of_beginsSteps hsteps
    rcases hplace with ⟨-, rfl⟩ | ⟨lines, rfl⟩
    · rw [steps.beginsWithLabel_chars (List.forall_mem_nil _)] at hlabel
      cases hlabel
    · exact absurd (by simp) hline
  · obtain ⟨blanks, steps, after, rfl, hblanks⟩ := exists_steps_behind_blanks hsteps
    exact ⟨blanks, steps, after, rfl, hblanks, rfl⟩

lemma isSome_cutAtSteps? {atLineStart : Bool} {before after : List Char}
    (h : CutsAtSteps atLineStart before after) :
    (cutAtSteps? atLineStart (before ++ after)).isSome = true := by
  induction before generalizing atLineStart with
  | nil =>
    rcases h with ⟨⟨hstart, -⟩ | ⟨lines, hlines⟩, hsteps⟩ | ⟨rest, rfl, hsteps⟩
    · obtain ⟨c, s, rfl⟩ : ∃ c s, after = c :: s := by
        obtain ⟨steps, rest, rfl, -⟩ := exists_steps_of_beginsSteps hsteps
        exact ⟨'S', _, rfl⟩
      rw [List.nil_append, cutAtSteps?, if_pos (by simp [hstart, hsteps])]
      rfl
    · simp at hlines
    · rw [List.nil_append, cutAtSteps?, if_pos (by simp [hsteps])]
      rfl
  | cons c before ih =>
    rw [List.cons_append, cutAtSteps?]
    split
    · rfl
    · rw [Option.isSome_map]
      refine ih (h.imp_left fun ⟨hline, hsteps⟩ => ⟨?_, hsteps⟩)
      rcases hline with ⟨-, hnil⟩ | ⟨lines, hlines⟩
      · cases hnil
      · cases lines with
        | nil =>
          obtain ⟨rfl, rfl⟩ := List.cons.inj hlines
          exact Or.inl ⟨rfl, rfl⟩
        | cons d lines =>
          obtain ⟨rfl, rfl⟩ := List.cons.inj hlines
          exact Or.inr ⟨lines, rfl⟩

/-- A text is taken for a parameter text exactly if it has a steps field. -/
theorem recognised_iff (s : String) : recognised s = true ↔ Nonempty (StepsField s.toList) := by
  constructor
  · intro h
    obtain ⟨⟨before, after⟩, hcut⟩ := Option.isSome_iff_exists.mp h
    obtain ⟨htext, ⟨hline, hsteps⟩ | ⟨rest, rfl, hsteps⟩⟩ := eq_of_cutAtSteps? hcut
    · obtain ⟨field, -⟩ := exists_field htext (Or.inl (hline.imp_left And.right)) hsteps
      exact ⟨field⟩
    · obtain ⟨blanks, steps, after, rfl, hblanks⟩ := exists_steps_behind_blanks hsteps
      rw [← List.cons_append, ← List.append_assoc] at htext
      obtain ⟨field, -⟩ := exists_field htext (Or.inr ⟨before, blanks, rfl, hblanks⟩)
        (steps.beginsSteps_chars after)
      exact ⟨field⟩
  · rintro ⟨before, steps, after, htext, hopens, -⟩
    rw [recognised, htext]
    rcases hopens with hline | ⟨front, blanks, rfl, hblanks⟩
    · refine isSome_cutAtSteps? (Or.inl ⟨?_, steps.beginsSteps_chars after⟩)
      exact hline.imp_left fun hnil => ⟨rfl, hnil⟩
    · rw [List.append_assoc]
      refine isSome_cutAtSteps? (Or.inr ⟨blanks ++ (steps.chars ++ after), rfl, ?_⟩)
      rw [trimStart_blanks_append hblanks ⟨'S', rfl, rfl⟩]
      exact steps.beginsSteps_chars after

/-- A field that does not lead its line stands behind a comma in it. -/
lemma exists_comma_of_opensField {front line : List Char} (h : OpensField (front ++ line))
    (hline : '\n' ∉ line) (hvisible : ∃ c ∈ line, isBlank c = false) :
    ∃ start blanks, line = start ++ ',' :: blanks ∧ ∀ c ∈ blanks, isBlank c = true := by
  obtain ⟨d, hd, hdvisible⟩ := hvisible
  rcases h with (hnil | ⟨lines, hlines⟩) | ⟨start, blanks, heq, hblanks⟩
  · rw [(List.append_eq_nil_iff.mp hnil).2] at hd
    cases hd
  · have hlast : line.getLast? = some '\n' := by
      have hall := congrArg List.getLast? hlines
      rw [List.getLast?_append, List.getLast?_append, List.getLast?_singleton, Option.some_or,
        List.getLast?_eq_some_getLast (List.ne_nil_of_mem hd), Option.some_or] at hall
      rw [List.getLast?_eq_some_getLast (List.ne_nil_of_mem hd), hall]
    exact absurd (List.mem_of_getLast? hlast) hline
  · -- the line has something visible, so that the comma is in it
    rcases List.append_eq_append_iff.mp heq with ⟨middle, rfl, hmiddle⟩ | ⟨middle, rfl, hmiddle⟩
    · exact ⟨middle, blanks, hmiddle, hblanks⟩
    · cases middle with
      | nil => exact ⟨[], blanks, hmiddle.symm, hblanks⟩
      | cons c middle =>
        obtain ⟨-, rfl⟩ := List.cons.inj hmiddle
        rw [hblanks d (List.mem_append_right middle hd)] at hdvisible
        cases hdvisible

namespace StepsField

variable {text : List Char} (field : StepsField text)

/-- What stands behind the field in a block that it begins. -/
def rest : List Char := List.intercalate ", ".toList (lines (trimEnd field.after))

/-- Whether the field begins its line, behind blanks, and no later line begins with the steps. -/
def LeadsBlock : Prop :=
  (∃ front indent, field.before = front ++ indent ∧ EndsLine front ∧
      ∀ c ∈ indent, isBlank c = true ∧ c ≠ '\n') ∧
    ∀ line ∈ (lines (trimEnd field.after)).tail, beginsWithLabel "Steps:" line = false

/-- Whether the field stands in the last line, and no line begins with the steps. -/
def InLastLine : Prop :=
  '\n' ∉ trimEnd field.after ∧ ∀ line ∈ lines (trim text), beginsWithLabel "Steps:" line = false

variable {field}

lemma LeadsBlock.exists_parts (h : field.LeadsBlock) (hline : '\n' ∉ field.steps.blanks) :
    ∃ promptLines indent, (∀ c ∈ indent, isBlank c = true) ∧
      parts (lines (trim text)) = (promptLines, indent ++ (field.steps.chars ++ field.rest)) := by
  obtain ⟨⟨front, indent, hbefore, hfront, hindent⟩, hlater⟩ := h
  have hnotMem : '\n' ∉ indent ++ field.steps.chars := by
    rw [List.mem_append, not_or]
    exact ⟨fun hc => (hindent _ hc).2 rfl, field.steps.lineFeed_notMem_chars hline⟩
  obtain ⟨lead, rest, before, rfl, -, hlines⟩ := exists_lines_trim hfront hnotMem
    field.steps.starts_chars field.steps.ends_chars field.after
  have hrest : ∀ c ∈ rest, isBlank c = true := fun c hc =>
    (hindent c (List.mem_append_right lead hc)).1
  have htext : text = front ++ ((lead ++ rest) ++ (field.steps.chars ++ field.after)) :=
    field.text_eq.trans (by rw [hbefore, List.append_assoc])
  refine ⟨before, rest, hrest, ?_⟩
  have hbegins := field.steps.beginsWithLabel_chars hrest ((lines (trimEnd field.after)).headD [])
  rw [← List.append_assoc] at hbegins
  rw [(congrArg (fun s => lines (trim s)) htext).trans hlines, parts_append hbegins hlater,
    intercalate_headD_append, List.append_assoc]
  rfl

/-- The line of a field is cut somewhere, if the field does not lead it. -/
lemma isSome_cutAtSteps?_line {front line : List Char} (hbefore : field.before = front ++ line)
    (hline : '\n' ∉ line) {after : List Char}
    (hlabel : beginsWithLabel "Steps:" (line ++ (field.steps.chars ++ after)) = false) :
    (cutAtSteps? true (line ++ (field.steps.chars ++ after))).isSome = true := by
  have hvisible : ∃ c ∈ line, isBlank c = false := by
    by_contra hblank
    have hall : ∀ c ∈ line, isBlank c = true := fun c hc => by
      by_contra hc'
      exact hblank ⟨c, hc, by simpa using hc'⟩
    rw [field.steps.beginsWithLabel_chars hall] at hlabel
    cases hlabel
  obtain ⟨start, blanks, rfl, hblanks⟩ :=
    exists_comma_of_opensField (hbefore ▸ field.opens) hline hvisible
  rw [List.append_assoc]
  refine isSome_cutAtSteps? (Or.inr ⟨blanks ++ (field.steps.chars ++ after), rfl, ?_⟩)
  rw [trimStart_blanks_append hblanks ⟨'S', rfl, rfl⟩]
  exact field.steps.beginsSteps_chars after

/-- The last line is cut at the only field. -/
lemma cutLine?_of_sole {front line trailing after : List Char} (hsole : ∀ other : StepsField text,
    other.before = field.before) (hbefore : field.before = front ++ line)
    (hafter : field.after = after ++ trailing) (hline : '\n' ∉ line ++ (field.steps.chars ++ after))
    (hlabel : beginsWithLabel "Steps:" (line ++ (field.steps.chars ++ after)) = false) :
    ∃ head, cutLine? (line ++ (field.steps.chars ++ after)) =
      some (head, field.steps.chars ++ after) := by
  have hsome := isSome_cutAtSteps?_line hbefore
    (fun hc => hline (List.mem_append_left _ hc)) hlabel
  obtain ⟨⟨head, found⟩, hcut⟩ := Option.isSome_iff_exists.mp hsome
  obtain ⟨between, steps, more, rfl, hbetween, hsplit⟩ := eq_of_cutAtSteps?_line hcut hline hlabel
  -- a place to cut is a field of the text, and so the only one
  have htext : text = (front ++ (head ++ ',' :: between)) ++ (steps.chars ++ (more ++ trailing)) :=
    calc text = front ++ (line ++ (field.steps.chars ++ after)) ++ trailing :=
          field.text_eq.trans (by simp only [hbefore, hafter, List.append_assoc])
      _ = _ := by simp only [hsplit, List.append_assoc, List.cons_append]
  obtain ⟨other, hother⟩ := exists_field htext
    (Or.inr ⟨front ++ head, between, by rw [List.append_assoc], hbetween⟩)
    (steps.beginsSteps_chars _)
  have hplace : line = head ++ ',' :: between := by
    have hsame := hsole other
    rw [hother, hbefore] at hsame
    exact (List.append_cancel_left hsame).symm
  have hfound : field.steps.chars ++ after = steps.chars ++ more :=
    List.append_cancel_left (hsplit.trans (by rw [hplace, List.append_assoc, List.cons_append]))
  have hseparators : ∀ c ∈ ',' :: between, isSeparator c = true :=
    List.forall_mem_cons.mpr ⟨rfl, fun c hc => by rw [isSeparator, hbetween c hc, Bool.or_true]⟩
  refine ⟨dropEndWhile isSeparator head, ?_⟩
  rw [cutLine?, hcut, Option.map_some, ← List.cons_append,
    List.dropWhile_append_of_pos hseparators, ← hfound]
  rfl

/-- As it is the only one, the field is where the last line is cut. -/
lemma InLastLine.exists_parts (h : field.InLastLine) (hline : '\n' ∉ field.steps.blanks)
    (hsole : ∀ other : StepsField text, other.before = field.before) :
    ∃ promptLines indent, (∀ c ∈ indent, isBlank c = true) ∧
      parts (lines (trim text)) = (promptLines, indent ++ (field.steps.chars ++ field.rest)) := by
  obtain ⟨hlast, hnone⟩ := h
  obtain ⟨front, line, hbefore, hfront, hnotMem⟩ := exists_endsLine field.before
  have hnotMem' : '\n' ∉ line ++ field.steps.chars := by
    rw [List.mem_append, not_or]
    exact ⟨hnotMem, field.steps.lineFeed_notMem_chars hline⟩
  obtain ⟨lead, rest, before, rfl, -, hlines⟩ := exists_lines_trim hfront hnotMem'
    field.steps.starts_chars field.steps.ends_chars field.after
  have htext : text = front ++ ((lead ++ rest) ++ (field.steps.chars ++ field.after)) :=
    field.text_eq.trans (by rw [hbefore, List.append_assoc])
  replace hlines := (congrArg (fun s => lines (trim s)) htext).trans hlines
  obtain ⟨trailing, hafter⟩ := exists_trimEnd_append field.after
  have hone : (lines (trimEnd field.after)).headD [] = trimEnd field.after ∧
      (lines (trimEnd field.after)).tail = [] ∧ field.rest = trimEnd field.after := by
    rw [StepsField.rest]
    by_cases hnil : trimEnd field.after = []
    · rw [hnil]
      exact ⟨rfl, rfl, rfl⟩
    · rw [lines_of_notMem hnil hlast]
      exact ⟨rfl, rfl, List.intercalate_singleton⟩
  rw [hone.1, hone.2.1, List.append_assoc] at hlines
  rw [hlines] at hnone
  have hlastLine : '\n' ∉ rest ++ (field.steps.chars ++ trimEnd field.after) := by
    simp only [List.mem_append, not_or] at hnotMem' ⊢
    exact ⟨hnotMem'.1.2, hnotMem'.2, hlast⟩
  obtain ⟨head, hcut⟩ := cutLine?_of_sole hsole (by rw [hbefore, List.append_assoc]) hafter
    hlastLine (hnone _ (List.mem_append_right _ List.mem_cons_self))
  obtain ⟨promptLines, hparts⟩ := parts_of_cutLine? hnone hcut
  exact ⟨promptLines, [], by simp, by rw [hlines, hparts, hone.2.2, List.nil_append]⟩

end StepsField

/-- Whether a value ends before what follows, and no later setting is that of the steps. -/
def EndsSteps (rest : List Char) : Prop :=
  rest = [] ∨ ∃ more, rest = ',' :: more ∧ beginsKey more = true ∧
    ∀ setting ∈ settings more, foldedKey setting.1 ≠ "steps"

lemma Steps.staysWhole_chars (steps : Steps) {blanks : List Char}
    (hblanks : ∀ c ∈ blanks, isBlank c = true) : StaysWhole (blanks ++ steps.chars) := by
  have hblank (c : Char) (hc : isBlank c = true) : c ≠ ',' ∧ c ≠ '"' := by
    constructor <;> (rintro rfl; exact absurd hc (by decide))
  have hdigit (c : Char) (hc : isDecimalDigit c = true) : c ≠ ',' ∧ c ≠ '"' := by
    constructor <;> (rintro rfl; exact absurd hc (by decide))
  refine staysWhole_of_forall fun c hc => ?_
  rw [Steps.chars_eq, List.mem_append, List.mem_append, List.mem_append] at hc
  rcases hc with hc | hc | hc | hc
  · exact hblank c (hblanks c hc)
  · have hlabel : ∀ c ∈ "Steps:".toList, c ≠ ',' ∧ c ≠ '"' := by simp
    exact hlabel c hc
  · exact hblank c (steps.isBlank_of_mem c hc)
  · exact hdigit c (steps.isDecimalDigit_of_mem c hc)

lemma Steps.setting?_chars (steps : Steps) :
    setting? steps.chars = some ("Steps", steps.digits) := by
  have hvalue : trim (steps.blanks ++ steps.digits) = steps.digits :=
    trim_blanks_append steps.isBlank_of_mem (by simpa using steps.starts_digits [])
      steps.ends_digits
  have hquote : '"' ∉ steps.digits := fun hc =>
    absurd (steps.isDecimalDigit_of_mem _ hc) (by decide)
  have hchars : steps.chars = "Steps".toList ++ ':' :: (steps.blanks ++ steps.digits) := rfl
  have hkey : trim "Steps".toList = "Steps".toList := by decide
  rw [hchars, setting?_append (by decide), hkey, hvalue, unquoted_of_notMem hquote,
    String.ofList_toList]

/-- The settings of a block that begins with the steps and goes on with other settings. -/
lemma settings_of_endsSteps (steps : Steps) {blanks rest : List Char}
    (hblanks : ∀ c ∈ blanks, isBlank c = true) (hrest : EndsSteps rest) :
    ∃ others, settings (blanks ++ (steps.chars ++ rest)) = ("Steps", steps.digits) :: others ∧
      ∀ setting ∈ others, foldedKey setting.1 ≠ "steps" := by
  have htrim : trim (blanks ++ steps.chars) = steps.chars :=
    trim_blanks_append hblanks steps.starts_chars steps.ends_chars
  have hne : trim (blanks ++ steps.chars) ≠ [] := by
    rw [htrim]
    exact steps.ends_chars.ne_nil
  have hwhole := steps.staysWhole_chars hblanks
  rcases hrest with rfl | ⟨more, rfl, hkey, hothers⟩
  · refine ⟨[], ?_, by simp⟩
    rw [List.append_nil, settings, segments_of_staysWhole hwhole hne, htrim,
      List.filterMap_cons_some steps.setting?_chars, List.filterMap_nil]
  · refine ⟨settings more, ?_, hothers⟩
    rw [← List.append_assoc, settings, segments_append hwhole hne hkey, htrim,
      List.filterMap_cons_some steps.setting?_chars, settings]

/-- The number of steps in a block that begins with it. -/
lemma steps_settingsRecipe (steps : Steps) {blanks rest : List Char}
    (hblanks : ∀ c ∈ blanks, isBlank c = true) (hrest : EndsSteps rest) (family : Family) :
    (settingsRecipe (blanks ++ (steps.chars ++ rest)) family).steps = natural32? steps.digits := by
  obtain ⟨others, hsettings, hothers⟩ := settings_of_endsSteps steps hblanks hrest
  have hname : foldedKey "Steps" = "steps" := by decide +kernel
  have hnone : (others.map fun s => (foldedKey s.1, s.2)).reverse.find?
      (fun o => ["steps"].contains o.1) = none := by
    refine List.find?_eq_none.mpr fun o ho => ?_
    obtain ⟨setting, hsetting, rfl⟩ := List.mem_map.mp (List.mem_reverse.mp ho)
    simpa using hothers setting hsetting
  have hlast : Options.last? ((("Steps", steps.digits) :: others).map fun s =>
      (foldedKey s.1, s.2)) ["steps"] = some steps.digits := by
    rw [Options.last?, List.map_cons, List.reverse_cons, List.find?_append, hnone, Option.none_or,
      hname]
    rfl
  have hsteps (fields : Recipe) (size : Option (UInt32 × UInt32)) :
      (fields.withSides size).steps = fields.steps := by
    cases size <;> rfl
  simp only [settingsRecipe, hsettings, hsteps, hlast, Option.bind_some]

/-- The number of the only steps field of a text is read, if the block of settings begins with the
field and its value ends behind the digits. -/
theorem steps_of_sole (s : String) (field : StepsField s.toList) (family : Family)
    (hsole : ∀ other : StepsField s.toList, other.before = field.before)
    (hline : '\n' ∉ field.steps.blanks) (hdigits : ∀ c ∈ field.steps.digits, c.isDigit = true)
    (hlt : decimalValue field.steps.digits < UInt32.size)
    (hplace : field.LeadsBlock ∨ field.InLastLine) (hends : EndsSteps field.rest) :
    recognised s = true ∧
      (recipe s family).steps = some (UInt32.ofNat (decimalValue field.steps.digits)) := by
  refine ⟨(recognised_iff s).mpr ⟨field⟩, ?_⟩
  obtain ⟨promptLines, indent, hindent, hparts⟩ : ∃ promptLines indent,
      (∀ c ∈ indent, isBlank c = true) ∧ parts (lines (trim s.toList)) =
        (promptLines, indent ++ (field.steps.chars ++ field.rest)) := by
    rcases hplace with hleads | hlast
    · exact hleads.exists_parts hline
    · exact hlast.exists_parts hline hsole
  have hread := natural?_of_digits field.steps.digits_ne_nil hdigits hlt
  simp only [recipe, hparts, steps_settingsRecipe field.steps hindent hends, natural32?, hread,
    Option.map_some]

/-- Steps on the line of the prompt. -/
def oneLineSteps : StepsField "a cat, Steps: 20, Seed: 5".toList where
  before := "a cat, ".toList
  steps := ⟨" ".toList, "20".toList, List.all_eq_true.mp rfl, by decide, List.all_eq_true.mp rfl⟩
  after := ", Seed: 5".toList
  text_eq := rfl
  opens := Or.inr ⟨"a cat".toList, " ".toList, rfl, List.all_eq_true.mp rfl⟩
  isDecimalDigit_head := by
    rintro c ⟨⟩
    rfl

/-- Steps on a line of their own, with a setting on the next one. -/
def leadingSteps : StepsField "a cat\nSteps: 20\nVersion: v1.9".toList where
  before := "a cat\n".toList
  steps := ⟨" ".toList, "20".toList, List.all_eq_true.mp rfl, by decide, List.all_eq_true.mp rfl⟩
  after := "\nVersion: v1.9".toList
  text_eq := rfl
  opens := Or.inl (Or.inr ⟨"a cat".toList, rfl⟩)
  isDecimalDigit_head := by
    rintro c ⟨⟩
    rfl

theorem steps_of_sole_oneLineSteps :
    (recipe "a cat, Steps: 20, Seed: 5" .a1111).steps = some 20 ∧
      (recipe "a cat\nSteps: 20\nVersion: v1.9" .a1111).steps = some 20 := by
  constructor
  · exact (steps_of_sole _ oneLineSteps .a1111
      (StepsField.before_eq_take 7 (by decide +kernel)) (by decide) (List.all_eq_true.mp rfl)
      (by decide +kernel) (Or.inr ⟨by decide +kernel, by decide +kernel⟩)
      (Or.inr ⟨" Seed: 5".toList, by decide +kernel, by decide +kernel, by decide +kernel⟩)).2
  · exact (steps_of_sole _ leadingSteps .a1111
      (StepsField.before_eq_take 6 (by decide +kernel)) (by decide) (List.all_eq_true.mp rfl)
      (by decide +kernel)
      (Or.inl ⟨⟨"a cat\n".toList, [], rfl, Or.inr ⟨"a cat".toList, rfl⟩, by simp⟩,
        by decide +kernel⟩)
      (Or.inr ⟨" Version: v1.9".toList, by decide +kernel, by decide +kernel,
        by decide +kernel⟩)).2

/-- Steps on the line of the prompt, with a setting on the next one. -/
def strandedSteps : StepsField "a cat, Steps: 20\nVersion: v1.9".toList where
  before := "a cat, ".toList
  steps := ⟨" ".toList, "20".toList, List.all_eq_true.mp rfl, by decide, List.all_eq_true.mp rfl⟩
  after := "\nVersion: v1.9".toList
  text_eq := rfl
  opens := Or.inr ⟨"a cat".toList, " ".toList, rfl, List.all_eq_true.mp rfl⟩
  isDecimalDigit_head := by
    rintro c ⟨⟩
    rfl

/-- The only steps field is not read if it stands in the middle of a line and others follow. -/
theorem steps_of_sole_ne :
    ¬ ∀ (s : String) (field : StepsField s.toList) (family : Family),
      (∀ other : StepsField s.toList, other.before = field.before) →
      '\n' ∉ field.steps.blanks →
      (∀ c ∈ field.steps.digits, c.isDigit = true) →
      0 < decimalValue field.steps.digits →
      decimalValue field.steps.digits < UInt32.size →
      (∀ c ∈ field.after.head?, c = ',' ∨ c = '\n') →
      (recipe s family).steps = some (UInt32.ofNat (decimalValue field.steps.digits)) := by
  intro h
  have hsteps := h _ strandedSteps .a1111
    (StepsField.before_eq_take 7 (by decide +kernel)) (by decide) (List.all_eq_true.mp rfl)
    (by decide +kernel) (by decide +kernel) (by rintro c ⟨⟩; exact Or.inr rfl)
  exact absurd hsteps (by decide +kernel)

end ImageRecipe.ParameterText
