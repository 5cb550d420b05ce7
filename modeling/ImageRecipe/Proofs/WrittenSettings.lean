import ImageRecipe.Proofs.SettingsBlock

/-!
# Settings as they are written

A setting is written as its key, a colon and its value, and a value with commas
stands between quotes. Written settings are joined by commas; cutting the block
that they make gives them back.
-/
namespace ImageRecipe.ParameterText

open Text

/-- The value of a setting: a text without commas and quotes, or any text between quotes. -/
inductive WrittenValue where
  | plain (text : List Char) (starts : StartsVisibly text) (ends : EndsVisibly text)
      (apart : ∀ c ∈ text, c ≠ ',' ∧ c ≠ '"' ∧ c ≠ '\n')
  | quoted (text : List Char) (apart : ∀ c ∈ text, c ≠ '"' ∧ c ≠ '\n')

namespace WrittenValue

/-- The value itself. -/
def text : WrittenValue → List Char
  | plain text _ _ _ => text
  | quoted text _ => text

/-- The value as it is written. -/
def chars : WrittenValue → List Char
  | plain text _ _ _ => text
  | quoted text _ => '"' :: text ++ ['"']

lemma starts_chars (value : WrittenValue) : StartsVisibly value.chars := by
  cases value with
  | plain text starts ends apart => exact starts
  | quoted text apart => exact ⟨'"', rfl, rfl⟩

lemma ends_chars (value : WrittenValue) : EndsVisibly value.chars := by
  cases value with
  | plain text starts ends apart => exact ends
  | quoted text apart => exact (endsVisibly_singleton rfl).append _

lemma staysWhole_chars (value : WrittenValue) : StaysWhole value.chars := by
  cases value with
  | plain text starts ends apart =>
    exact staysWhole_of_forall fun c hc => ⟨(apart c hc).1, (apart c hc).2.1⟩
  | quoted text apart => exact staysWhole_quoted fun hc => (apart _ hc).1 rfl

lemma lineFeed_notMem_chars (value : WrittenValue) : '\n' ∉ value.chars := by
  cases value with
  | plain text starts ends apart => exact fun hc => (apart _ hc).2.2 rfl
  | quoted text apart => simpa [chars] using fun hc => (apart _ hc).2 rfl

lemma unquoted_chars (value : WrittenValue) : unquoted value.chars = value.text := by
  cases value with
  | plain text starts ends apart =>
    exact unquoted_of_notMem fun hc => (apart _ hc).2.1 rfl
  | quoted text apart => simp [chars, unquoted, WrittenValue.text]

/-- A number in decimal digits. -/
def number (n : Nat) : WrittenValue :=
  have hdigits : ∀ c ∈ Nat.toDigits 10 n, c.isDigit = true := fun _ hc =>
    Nat.isDigit_of_mem_toDigits (by decide) (by decide) hc
  have hvisible : ∀ c ∈ Nat.toDigits 10 n, isBlank c = false := fun c hc =>
    isBlank_of_isDigit (hdigits c hc)
  .plain (Nat.toDigits 10 n)
    ⟨(Nat.toDigits 10 n).head Nat.toDigits_ne_nil, List.head?_eq_some_head _,
      hvisible _ (List.head_mem _)⟩
    (endsVisibly_of_forall Nat.toDigits_ne_nil hvisible)
    (by
      intro c hc
      refine ⟨?_, ?_, ?_⟩ <;> (rintro rfl; exact absurd (hdigits _ hc) (by decide)))

end WrittenValue

/-- A setting. Its key begins with one of the letters A to Z and does not end in a blank. -/
structure WrittenSetting where
  first : Char
  rest : List Char
  value : WrittenValue
  first_isUpper : first.isUpper = true
  rest_isKeyChar : ∀ c ∈ rest, isKeyChar c = true
  ends : EndsVisibly (first :: rest)

namespace WrittenSetting

variable (setting : WrittenSetting)

def key : String := String.ofList (setting.first :: setting.rest)

def folded : String := foldedKey setting.key

/-- The setting as it is written. -/
def chars : List Char := setting.first :: setting.rest ++ ':' :: ' ' :: setting.value.chars

/-- The number of steps. -/
def steps (n : UInt32) : WrittenSetting where
  first := 'S'
  rest := "teps".toList
  value := .number n.toNat
  first_isUpper := rfl
  rest_isKeyChar := List.all_eq_true.mp rfl
  ends := ⟨'s', rfl, rfl⟩

lemma folded_steps (n : UInt32) : (steps n).folded = "steps" := by
  change foldedKey (String.ofList "Steps".toList) = "steps"
  decide +kernel

lemma starts_key : StartsVisibly (setting.first :: setting.rest) :=
  ⟨setting.first, rfl, isBlank_of_isUpper setting.first_isUpper⟩

lemma isKeyChar_of_mem {c : Char} (h : c ∈ setting.first :: setting.rest) :
    isKeyChar c = true := by
  rcases List.mem_cons.mp h with rfl | h
  · exact isKeyChar_of_isUpper setting.first_isUpper
  · exact setting.rest_isKeyChar c h

lemma chars_eq : setting.chars =
    (setting.first :: setting.rest) ++ ([':', ' '] ++ setting.value.chars) := rfl

lemma starts_chars : StartsVisibly setting.chars :=
  ⟨setting.first, rfl, isBlank_of_isUpper setting.first_isUpper⟩

lemma ends_chars : EndsVisibly setting.chars := by
  rw [chars_eq]
  exact (setting.value.ends_chars.append _).append _

lemma staysWhole_chars : StaysWhole setting.chars := by
  rw [chars_eq]
  refine .append ?_ (.append ?_ setting.value.staysWhole_chars)
  · refine staysWhole_of_forall fun c hc => ?_
    obtain ⟨hcomma, hquote, -, -⟩ := ne_of_isKeyChar (setting.isKeyChar_of_mem hc)
    exact ⟨hcomma, hquote⟩
  · exact staysWhole_of_forall (by simp)

lemma lineFeed_notMem_chars : '\n' ∉ setting.chars := by
  rw [chars_eq, List.mem_append, List.mem_append, not_or, not_or]
  refine ⟨fun hc => ?_, by decide, setting.value.lineFeed_notMem_chars⟩
  exact (ne_of_isKeyChar (setting.isKeyChar_of_mem hc)).2.2.2 rfl

lemma beginsKey_chars {blanks : List Char} (hblanks : ∀ c ∈ blanks, isBlank c = true)
    (after : List Char) : beginsKey (blanks ++ setting.chars ++ after) = true := by
  simpa [chars] using beginsKey_append hblanks setting.first_isUpper setting.rest_isKeyChar
    (' ' :: setting.value.chars ++ after)

/-- A written setting is read back. -/
lemma setting?_chars : setting? setting.chars = some (setting.key, setting.value.text) := by
  have hcolon : ':' ∉ setting.first :: setting.rest := fun hc =>
    (ne_of_isKeyChar (setting.isKeyChar_of_mem hc)).2.2.1 rfl
  have hkey : trim (setting.first :: setting.rest) = setting.first :: setting.rest :=
    trim_of_visible setting.starts_key setting.ends
  have hspace : ∀ c ∈ [' '], isBlank c = true := List.all_eq_true.mp rfl
  have hvalue : trim (' ' :: setting.value.chars) = setting.value.chars :=
    trim_blanks_append hspace setting.value.starts_chars setting.value.ends_chars
  rw [chars, setting?_append hcolon, hkey, hvalue, WrittenValue.unquoted_chars]
  rfl

end WrittenSetting

/-- A block as it is written. -/
def writtenBlock (items : List WrittenSetting) : List Char :=
  List.intercalate ", ".toList (items.map WrittenSetting.chars)

section Block

variable (item : WrittenSetting) (items : List WrittenSetting)

lemma writtenBlock_singleton : writtenBlock [item] = item.chars := List.intercalate_singleton

lemma writtenBlock_cons_cons (next : WrittenSetting) : writtenBlock (item :: next :: items) =
    item.chars ++ ',' :: ([' '] ++ writtenBlock (next :: items)) := by
  simp [writtenBlock, List.intercalate_cons_cons]

lemma exists_writtenBlock_cons : ∃ after, writtenBlock (item :: items) = item.chars ++ after := by
  cases items with
  | nil => exact ⟨[], by rw [writtenBlock_singleton, List.append_nil]⟩
  | cons next items => exact ⟨_, writtenBlock_cons_cons item items next⟩

lemma starts_writtenBlock : StartsVisibly (writtenBlock (item :: items)) := by
  obtain ⟨after, hafter⟩ := exists_writtenBlock_cons item items
  rw [hafter]
  exact ⟨item.first, rfl, isBlank_of_isUpper item.first_isUpper⟩

lemma ends_writtenBlock : EndsVisibly (writtenBlock (item :: items)) := by
  induction items generalizing item with
  | nil =>
    rw [writtenBlock_singleton]
    exact item.ends_chars
  | cons next items ih =>
    rw [writtenBlock_cons_cons]
    exact (((ih next).append _).cons _).append _

lemma lineFeed_notMem_writtenBlock : '\n' ∉ writtenBlock (item :: items) := by
  induction items generalizing item with
  | nil =>
    rw [writtenBlock_singleton]
    exact item.lineFeed_notMem_chars
  | cons next items ih =>
    rw [writtenBlock_cons_cons]
    simp [item.lineFeed_notMem_chars, ih next]

/-- A block is cut into the settings as they were written. -/
lemma segments_writtenBlock {blanks : List Char} (hblanks : ∀ c ∈ blanks, isBlank c = true) :
    segments (blanks ++ writtenBlock (item :: items)) =
      (item :: items).map WrittenSetting.chars := by
  have hwhole (item : WrittenSetting) {blanks : List Char}
      (hblanks : ∀ c ∈ blanks, isBlank c = true) : StaysWhole (blanks ++ item.chars) := by
    refine .append (staysWhole_of_forall fun c hc => ?_) item.staysWhole_chars
    constructor <;> (rintro rfl; exact absurd (hblanks _ hc) (by decide))
  have htrim (item : WrittenSetting) {blanks : List Char}
      (hblanks : ∀ c ∈ blanks, isBlank c = true) : trim (blanks ++ item.chars) = item.chars :=
    trim_blanks_append hblanks item.starts_chars item.ends_chars
  induction items generalizing item blanks with
  | nil =>
    rw [writtenBlock_singleton, segments_of_staysWhole (hwhole item hblanks), htrim item hblanks]
    · rfl
    · rw [htrim item hblanks]
      exact item.ends_chars.ne_nil
  | cons next items ih =>
    have hspace : ∀ c ∈ [' '], isBlank c = true := List.all_eq_true.mp rfl
    obtain ⟨after, hafter⟩ := exists_writtenBlock_cons next items
    have hkey : beginsKey ([' '] ++ writtenBlock (next :: items)) = true := by
      rw [hafter, ← List.append_assoc]
      exact next.beginsKey_chars hspace after
    rw [writtenBlock_cons_cons, ← List.append_assoc,
      segments_append (hwhole item hblanks) (by simp [htrim item hblanks, item.ends_chars.ne_nil])
        hkey, htrim item hblanks, ih next hspace]
    rfl

/-- The settings of a written block are those that were written. -/
theorem settings_writtenBlock : settings (writtenBlock (item :: items)) =
    (item :: items).map fun setting => (setting.key, setting.value.text) := by
  have hsegments : segments ([] ++ writtenBlock (item :: items)) =
      (item :: items).map WrittenSetting.chars :=
    segments_writtenBlock item items (List.forall_mem_nil _)
  rw [List.nil_append] at hsegments
  rw [settings, hsegments, List.filterMap_map]
  refine List.filterMap_eq_map_iff_forall_eq_some.mpr fun setting _ => ?_
  exact setting.setting?_chars

end Block

end ImageRecipe.ParameterText
