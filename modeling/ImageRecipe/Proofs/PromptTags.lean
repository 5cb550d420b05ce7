import ImageRecipe.Dialect.ParameterText.LoraTag
import ImageRecipe.Proofs.FirstPlaces
import ImageRecipe.Proofs.JsonTokens
import ImageRecipe.Proofs.SettingsBlock

/-!
# Prompts with LoRA tags

A prompt in which tags alternate with texts that open none is read as exactly
these tags: a text without an opening bracket is passed over, a tag is read up
to its closing bracket, and reading goes on behind it.
-/
namespace ImageRecipe.ParameterText

open Text

/-- A run of characters in front of one that does not belong to it. -/
lemma run?_append_cons {p : Char → Bool} {run : List Char} {stop : Char} (hne : run ≠ [])
    (hrun : ∀ c ∈ run, p c = true) (hstop : p stop = false) (after : List Char) :
    run? p (run ++ stop :: after) = some (run, stop :: after) := by
  rw [run?_append_of_stop hstop, run?, List.takeWhile_eq_self_iff.mpr hrun,
    List.dropWhile_eq_nil_iff.mpr hrun]
  split
  · contradiction
  · rfl

/-- A decimal as it is written, with a digit before or behind the point. -/
structure WrittenDecimal where
  negative : Bool
  whole : List Char
  /-- The digits behind the point, if there is a point. -/
  fraction : Option (List Char)
  whole_digits : ∀ c ∈ whole, c.isDigit = true
  fraction_digits : ∀ digits ∈ fraction, ∀ c ∈ digits, c.isDigit = true
  digits_ne_nil : whole ++ fraction.getD [] ≠ []

lemma toNat_le_of_isDigit {c : Char} (h : c.isDigit = true) : c.toNat ≤ '9'.toNat := by
  simp only [Char.isDigit, Bool.and_eq_true, decide_eq_true_eq] at h
  exact UInt32.le_iff_toNat_le.mp h.2

lemma toLower_of_isDigit_or_point {c : Char} (h : c.isDigit = true ∨ c = '.') :
    c.toLower = c := by
  rcases h with hdigit | rfl
  · refine dif_neg fun hupper => ?_
    have hleast : 'A'.toNat ≤ c.toNat := UInt32.le_iff_toNat_le.mp hupper.1
    exact absurd (hleast.trans (toNat_le_of_isDigit hdigit)) (by decide)
  · rfl

namespace WrittenDecimal

variable (w : WrittenDecimal)

/-- The decimal without its sign. -/
def unsignedChars : List Char := w.whole ++ w.fraction.elim [] ('.' :: ·)

def chars : List Char := if w.negative then '-' :: w.unsignedChars else w.unsignedChars

/-- The float nearest to the decimal. -/
def value : Float :=
  let places := (w.fraction.getD []).length
  Decimal.negated w.negative
    (Decimal.nearest (decimalValue (w.whole ++ w.fraction.getD [])) (-(places : Int)))

lemma isDigit_or_point {c : Char} (hc : c ∈ w.unsignedChars) : c.isDigit = true ∨ c = '.' := by
  rcases List.mem_append.mp hc with hwhole | hfraction
  · exact Or.inl (w.whole_digits c hwhole)
  · cases hdigits : w.fraction with
    | none => simp [hdigits] at hfraction
    | some digits =>
      rw [hdigits, Option.elim_some] at hfraction
      rcases List.mem_cons.mp hfraction with rfl | hmem
      · exact Or.inr rfl
      · exact Or.inl (w.fraction_digits digits hdigits c hmem)

lemma unsignedChars_ne_nil : w.unsignedChars ≠ [] := by
  intro hnil
  obtain ⟨hwhole, hfraction⟩ := List.append_eq_nil_iff.mp hnil
  cases hdigits : w.fraction with
  | none => exact w.digits_ne_nil (by simp [hwhole, hdigits])
  | some digits => simp [hdigits] at hfraction

/-- In front stands neither a sign nor the first letter of a word. -/
lemma isDigit_or_point_of_eq_cons {c : Char} {rest : List Char}
    (h : w.unsignedChars = c :: rest) : c.isDigit = true ∨ c = '.' :=
  w.isDigit_or_point (h ▸ List.mem_cons_self)

lemma unsigned?_unsignedChars : Decimal.unsigned? w.unsignedChars =
    some (Decimal.nearest (decimalValue (w.whole ++ w.fraction.getD []))
      (-((w.fraction.getD []).length : Int))) := by
  have hne := w.digits_ne_nil
  cases hdigits : w.fraction with
  | none =>
    have hspan : w.unsignedChars.span Char.isDigit = (w.whole, []) :=
      Json.span_eq_iff.mpr ⟨by simp [unsignedChars, hdigits], w.whole_digits, by simp⟩
    rw [hdigits, Option.getD_none, List.append_nil] at hne
    simp only [Decimal.unsigned?, hspan]
    simp [hne, Decimal.exponentPart?]
  | some digits =>
    have hspan : w.unsignedChars.span Char.isDigit = (w.whole, '.' :: digits) :=
      Json.span_eq_iff.mpr ⟨by simp [unsignedChars, hdigits], w.whole_digits, by simp⟩
    have hfraction : digits.span Char.isDigit = (digits, []) :=
      Json.span_eq_iff.mpr ⟨by simp, w.fraction_digits digits hdigits, by simp⟩
    rw [hdigits, Option.getD_some, ne_eq, List.append_eq_nil_iff] at hne
    simp only [Decimal.unsigned?, hspan, hfraction]
    simp [hne, Decimal.exponentPart?]

lemma readSign_chars : Decimal.readSign w.chars = (w.negative, w.unsignedChars) := by
  cases hsign : w.negative with
  | true =>
    rw [chars, hsign, if_pos rfl]
    rfl
  | false =>
    rw [chars, hsign, if_neg Bool.false_ne_true, Decimal.readSign]
    · exact fun _ heq => absurd (w.isDigit_or_point_of_eq_cons heq) (by decide)
    · exact fun _ heq => absurd (w.isDigit_or_point_of_eq_cons heq) (by decide)

/-- A decimal is none of the words for infinity and NaN, whatever their case. -/
lemma lower_ne {first : Char} (hfirst : first = 'i' ∨ first = 'n') (word : List Char) :
    w.unsignedChars.map Char.toLower ≠ first :: word := by
  intro heq
  obtain ⟨c, rest, hchars, hlower, -⟩ := List.map_eq_cons_iff.mp heq
  have hc := w.isDigit_or_point_of_eq_cons hchars
  rw [toLower_of_isDigit_or_point hc] at hlower
  subst hlower
  rcases hfirst with rfl | rfl <;> exact absurd hc (by decide)

lemma float?_chars : Decimal.float? w.chars = some w.value := by
  have hword (word : String) (hlower : w.unsignedChars.map Char.toLower ≠ word.toList) :
      (String.ofList (w.unsignedChars.map Char.toLower) == word) = false :=
    beq_eq_false_iff_ne.mpr fun heq => hlower (by rw [← heq, String.toList_ofList])
  have hinf := hword "inf" (w.lower_ne (Or.inl rfl) _)
  have hinfinity := hword "infinity" (w.lower_ne (Or.inl rfl) _)
  have hnan := hword "nan" (w.lower_ne (Or.inr rfl) _)
  simp only [Decimal.float?, readSign_chars, hinf, hinfinity, hnan, Bool.or_self,
    Bool.false_eq_true, if_false, unsigned?_unsignedChars, Option.map_some]
  rfl

lemma isDecimalChar_of_mem {c : Char} (hc : c ∈ w.unsignedChars) : isDecimalChar c = true := by
  rcases w.isDigit_or_point hc with hdigit | rfl
  · have hascii : c.toNat < 128 := lt_of_le_of_lt (toNat_le_of_isDigit hdigit) (by decide)
    rw [isDecimalChar, isDecimalDigit, if_pos hascii, hdigit, Bool.true_or]
  · rfl

lemma starts_chars : StartsVisibly w.chars := by
  obtain ⟨c, rest, hchars⟩ := List.exists_cons_of_ne_nil w.unsignedChars_ne_nil
  rw [chars]
  split
  · exact ⟨'-', rfl, rfl⟩
  · refine ⟨c, by rw [hchars]; rfl, ?_⟩
    rcases w.isDigit_or_point_of_eq_cons hchars with hdigit | rfl
    · exact isBlank_of_isDigit hdigit
    · rfl

lemma notMem_chars {c : Char} (hdecimal : isDecimalChar c = false) (hminus : c ≠ '-') :
    c ∉ w.chars := by
  have hunsigned : c ∉ w.unsignedChars := fun hc => by
    rw [w.isDecimalChar_of_mem hc] at hdecimal
    cases hdecimal
  rw [chars]
  split
  · exact List.not_mem_cons_of_ne_of_not_mem hminus hunsigned
  · exact hunsigned

/-- The weight that a tag gives as a decimal, in front of what cannot belong to it. -/
lemma weight?_chars {stop : Char} (hstop : isDecimalChar stop = false) (after : List Char) :
    weight? (w.chars ++ stop :: after) = some w.value := by
  have hfront : trimStart (w.chars ++ stop :: after) = w.chars ++ stop :: after :=
    trimStart_of_startsVisibly (w.starts_chars.append _)
  have hrun : run? isDecimalChar (w.unsignedChars ++ stop :: after) =
      some (w.unsignedChars, stop :: after) :=
    run?_append_cons w.unsignedChars_ne_nil (fun _ => w.isDecimalChar_of_mem) hstop after
  have hvalue := w.float?_chars
  rw [weight?, hfront]
  cases hsign : w.negative with
  | true =>
    have hchars : w.chars = '-' :: w.unsignedChars := by rw [chars, hsign, if_pos rfl]
    rw [hchars] at hvalue ⊢
    simp only [List.cons_append, hrun, Option.bind_some, hvalue]
  | false =>
    have hchars : w.chars = w.unsignedChars := by rw [chars, hsign, if_neg Bool.false_ne_true]
    rw [hchars] at hvalue ⊢
    -- without a sign the first character is a digit or the point
    split
    · rename_i hminus
      obtain ⟨c, rest, hunsigned⟩ := List.exists_cons_of_ne_nil w.unsignedChars_ne_nil
      rw [hunsigned] at hminus
      obtain ⟨rfl, -⟩ := List.cons.inj hminus
      exact absurd (w.isDigit_or_point_of_eq_cons hunsigned) (by decide)
    · rw [hrun, Option.bind_some, hvalue]

end WrittenDecimal

/-- What stands behind the name in a tag that gives a weight. -/
structure TagWeight where
  decimal : WrittenDecimal
  /-- What follows the weight behind a colon of its own. -/
  more : Option (List Char)
  more_closed : ∀ text ∈ more, '>' ∉ text

namespace TagWeight

variable (weight : TagWeight)

/-- What follows the weight, with its colon. -/
def moreChars : List Char := weight.more.elim [] (':' :: ·)

def chars : List Char := ':' :: (weight.decimal.chars ++ weight.moreChars)

lemma closing_notMem_chars : '>' ∉ weight.chars := by
  have hdecimal : '>' ∉ weight.decimal.chars :=
    weight.decimal.notMem_chars (by decide) (by decide)
  have hmore : '>' ∉ weight.moreChars := by
    cases htext : weight.more with
    | none => simp [moreChars, htext]
    | some text => simpa [moreChars, htext] using weight.more_closed text htext
  simp [chars, hdecimal, hmore]

lemma weight?_chars (after : List Char) :
    weight? (weight.decimal.chars ++ (weight.moreChars ++ '>' :: after)) =
      some weight.decimal.value := by
  cases htext : weight.more with
  | none =>
    rw [moreChars, htext]
    exact weight.decimal.weight?_chars (by decide) after
  | some text =>
    rw [moreChars, htext]
    exact weight.decimal.weight?_chars (by decide) (text ++ '>' :: after)

end TagWeight

/-- A tag as it is written in a prompt. -/
structure PromptTag where
  name : List Char
  weight : Option TagWeight
  name_visible : ∃ c ∈ name, isBlank c = false
  name_plain : ∀ c ∈ name, c ≠ '<' ∧ c ≠ ':' ∧ c ≠ '>'

namespace PromptTag

variable (tag : PromptTag)

def weightChars : List Char := tag.weight.elim [] TagWeight.chars

def chars : List Char := "<lora:".toList ++ (tag.name ++ (tag.weightChars ++ ['>']))

/-- The LoRA that the tag applies. -/
def lora : Lora :=
  let strength := tag.weight.map fun weight => weight.decimal.value
  ⟨String.ofList (trim tag.name), strength, strength⟩

lemma name_ne_nil : tag.name ≠ [] := by
  obtain ⟨c, hc, -⟩ := tag.name_visible
  exact List.ne_nil_of_mem hc

/-- A tag is read up to its closing bracket. -/
lemma loraTagAt?_chars (after : List Char) :
    loraTagAt? (tag.chars ++ after) = some (tag.lora, after) := by
  have hopening : after? "<lora:".toList (tag.chars ++ after) =
      some (tag.name ++ (tag.weightChars ++ '>' :: after)) :=
    after?_eq_some_iff.mpr (by simp [chars])
  have hname : ∀ c ∈ tag.name, (c != ':' && c != '>') = true := fun c hc => by
    obtain ⟨-, hcolon, hclosing⟩ := tag.name_plain c hc
    simp [hcolon, hclosing]
  have hclosing : splitOnce? (· == '>') (tag.weightChars ++ '>' :: after) =
      some (tag.weightChars, after) := by
    refine splitOnce?_append rfl (fun c hc => beq_eq_false_iff_ne.mpr ?_) after
    rintro rfl
    cases hweight : tag.weight with
    | none => simp [weightChars, hweight] at hc
    | some weight =>
      rw [weightChars, hweight] at hc
      exact weight.closing_notMem_chars hc
  rw [loraTagAt?, hopening, Option.bind_some]
  -- the name ends at the closing bracket or at the colon of the weight
  cases hweight : tag.weight with
  | none =>
    have hchars : tag.weightChars = [] := by rw [weightChars, hweight, Option.elim_none]
    rw [hchars, List.nil_append] at hclosing ⊢
    have hrun : run? (fun c => c != ':' && c != '>') (tag.name ++ '>' :: after) =
        some (tag.name, '>' :: after) := run?_append_cons tag.name_ne_nil hname rfl after
    simp [loraTag?, hrun, hclosing, lora, hweight]
  | some weight =>
    have hchars : tag.weightChars = weight.chars := by rw [weightChars, hweight, Option.elim_some]
    rw [hchars] at hclosing ⊢
    have hread := weight.weight?_chars after
    rw [TagWeight.chars, List.cons_append, List.append_assoc] at hclosing ⊢
    have hrun : ∀ back, run? (fun c => c != ':' && c != '>') (tag.name ++ ':' :: back) =
        some (tag.name, ':' :: back) := run?_append_cons tag.name_ne_nil hname rfl
    simp [loraTag?, hrun, hread, hclosing, lora, hweight]

end PromptTag

/-- A prompt in which tags alternate with texts that have no opening bracket. -/
inductive HasTags : List Char → List PromptTag → Prop
  | text {text : List Char} (htext : '<' ∉ text) : HasTags text []
  | tag {text rest : List Char} {tags : List PromptTag} (htext : '<' ∉ text) (tag : PromptTag)
      (hrest : HasTags rest tags) : HasTags (text ++ (tag.chars ++ rest)) (tag :: tags)

/-- A text without an opening bracket is passed over. -/
lemma loraTags_append {text : List Char} (htext : '<' ∉ text) (s : List Char) :
    loraTags (text ++ s) = loraTags s := by
  induction text with
  | nil => rfl
  | cons c text ih =>
    have hopening : ('<' == c) = false := beq_eq_false_iff_ne.mpr (List.ne_of_not_mem_cons htext)
    have hnone : loraTagAt? (c :: (text ++ s)) = none := by
      rw [loraTagAt?, show "<lora:".toList = '<' :: "lora:".toList from rfl, after?, hopening,
        if_neg Bool.false_ne_true, Option.bind_none]
    rw [List.cons_append, loraTags_cons_of_eq_none hnone, ih (List.not_mem_of_not_mem_cons htext)]

namespace HasTags

variable {prompt : List Char} {tags : List PromptTag}

/-- All the tags of a prompt are read, in their order, and nothing else is. -/
theorem loraTags_eq (h : HasTags prompt tags) : loraTags prompt = tags.map PromptTag.lora := by
  induction h with
  | text htext =>
    rename_i text
    have hskip := loraTags_append htext []
    rw [List.append_nil] at hskip
    rw [hskip, loraTags]
    rfl
  | tag htext tag _ ih =>
    rw [loraTags_append htext, loraTags_of_eq_some (tag.loraTagAt?_chars _), ih, List.map_cons]

lemma trimStart (h : HasTags prompt tags) : HasTags (Text.trimStart prompt) tags := by
  cases h with
  | text htext => exact text fun hc => htext ((List.dropWhile_sublist _).mem hc)
  | @tag before rest tags htext tag hrest =>
    have hstarts : StartsVisibly (tag.chars ++ rest) := ⟨'<', rfl, rfl⟩
    rw [trimStart_append hstarts]
    exact HasTags.tag (fun hc => htext ((List.dropWhile_sublist _).mem hc)) tag hrest

lemma chompReturn (h : HasTags prompt tags) : HasTags (Text.chompReturn prompt) tags := by
  induction h with
  | @text s htext =>
    refine text fun hc => htext ?_
    rw [Text.chompReturn] at hc
    split at hc
    · exact (List.dropLast_sublist s).mem hc
    · exact hc
  | @tag before rest tags htext tag hrest ih =>
    have hends : EndsVisibly (before ++ tag.chars) := by
      have hclosing : EndsVisibly ['>'] := endsVisibly_singleton rfl
      exact (((hclosing.append _).append _).append _).append _
    rw [← List.append_assoc, chompReturn_append hends, List.append_assoc]
    exact HasTags.tag htext tag ih

/-- A blank prompt has no tag. -/
lemma eq_nil_of_blank (h : HasTags prompt tags) (hblank : ∀ c ∈ prompt, isBlank c = true) :
    tags = [] := by
  cases h with
  | text => rfl
  | tag htext tag hrest =>
    have hopening := hblank '<' (by simp [PromptTag.chars])
    cases hopening

end HasTags

end ImageRecipe.ParameterText
