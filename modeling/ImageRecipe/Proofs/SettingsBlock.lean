import ImageRecipe.Dialect.ParameterText.Settings
import ImageRecipe.Proofs.TextLines
import ImageRecipe.Text.Numeral

/-!
# Cutting a block into settings

A stretch of a block stays whole if it has no comma outside of quotes and closes
the quotes that it opens. A block is cut behind such a stretch exactly at a
comma with a key behind it, and then the settings are the one that the stretch
writes and those of what follows the comma.
-/
namespace ImageRecipe.ParameterText

open Text

lemma pieces_ne_nil (quoted : Bool) (s : List Char) : pieces quoted s ≠ [] := by
  induction s generalizing quoted with
  | nil => simp [pieces]
  | cons c s ih =>
    rw [pieces]
    split
    · simp
    · split <;> simp

/-- A character at which the block is not cut makes the first piece longer. -/
lemma pieces_cons {quoted : Bool} {c : Char} {s : List Char}
    (h : (c == ',' && !quoted && beginsKey s) = false) :
    pieces quoted (c :: s) = (pieces (quoted != (c == '"')) s).modifyHead (c :: ·) := by
  rw [pieces, h]
  obtain ⟨piece, rest, hpieces⟩ :=
    List.exists_cons_of_ne_nil (pieces_ne_nil (quoted != (c == '"')) s)
  rw [hpieces]
  rfl

/-- Behind a comma that a key follows a new piece begins. -/
lemma pieces_comma {s : List Char} (h : beginsKey s = true) :
    pieces false (',' :: s) = [] :: pieces false s := by
  rw [pieces, h]
  rfl

/-- Whether a stretch of a block is passed without a cut, and without an open quote behind it. -/
def StaysWhole (stretch : List Char) : Prop :=
  ∀ rest, pieces false (stretch ++ rest) = (pieces false rest).modifyHead (stretch ++ ·)

lemma StaysWhole.append {first second : List Char} (hfirst : StaysWhole first)
    (hsecond : StaysWhole second) : StaysWhole (first ++ second) := by
  intro rest
  rw [List.append_assoc, hfirst, hsecond, List.modifyHead_modifyHead]
  simp only [Function.comp_def, List.append_assoc]

lemma staysWhole_of_forall {stretch : List Char} (h : ∀ c ∈ stretch, c ≠ ',' ∧ c ≠ '"') :
    StaysWhole stretch := by
  intro rest
  induction stretch with
  | nil => exact (congrFun List.modifyHead_id _).symm
  | cons c stretch ih =>
    obtain ⟨⟨hcomma, hquote⟩, hstretch⟩ := List.forall_mem_cons.mp h
    have hstate : (false != (c == '"')) = false := by simp [hquote]
    rw [List.cons_append, pieces_cons (by simp [hcomma]), hstate, ih hstretch,
      List.modifyHead_modifyHead]
    rfl

/-- Between quotes no comma is a cut. -/
lemma pieces_quoted {inner : List Char} (h : '"' ∉ inner) (rest : List Char) :
    pieces true (inner ++ '"' :: rest) =
      (pieces false rest).modifyHead ((inner ++ ['"']) ++ ·) := by
  induction inner with
  | nil => exact pieces_cons (by simp)
  | cons c inner ih =>
    have hquote : (c == '"') = false :=
      beq_eq_false_iff_ne.mpr (Ne.symm (List.ne_of_not_mem_cons h))
    have hstate : (true != (c == '"')) = true := by rw [hquote]; rfl
    rw [List.cons_append, pieces_cons (by simp), hstate, ih (List.not_mem_of_not_mem_cons h),
      List.modifyHead_modifyHead]
    rfl

lemma staysWhole_quoted {inner : List Char} (h : '"' ∉ inner) :
    StaysWhole ('"' :: inner ++ ['"']) := by
  intro rest
  rw [List.append_assoc, List.cons_append, List.singleton_append, pieces_cons (by simp),
    show (false != ('"' == '"')) = true from rfl, pieces_quoted h, List.modifyHead_modifyHead]
  rfl

/-- The segments of a block that is not cut. -/
lemma segments_of_staysWhole {stretch : List Char} (h : StaysWhole stretch)
    (hne : trim stretch ≠ []) : segments stretch = [trim stretch] := by
  have hpieces : pieces false stretch = [stretch] := by
    simpa [pieces] using h []
  simp [segments, hpieces, hne]

/-- The segments of a block that is cut behind a stretch. -/
lemma segments_append {stretch rest : List Char} (h : StaysWhole stretch)
    (hne : trim stretch ≠ []) (hkey : beginsKey rest = true) :
    segments (stretch ++ ',' :: rest) = trim stretch :: segments rest := by
  rw [segments, h, pieces_comma hkey, List.modifyHead_cons, List.append_nil, List.map_cons,
    List.filter_cons_of_pos (by simpa using hne)]
  rfl

lemma splitOnce?_append {p : Char → Bool} {c : Char} (hc : p c = true) {before : List Char}
    (hbefore : ∀ d ∈ before, p d = false) (after : List Char) :
    splitOnce? p (before ++ c :: after) = some (before, after) := by
  induction before with
  | nil => simp [splitOnce?, hc]
  | cons d before ih =>
    obtain ⟨hd, hrest⟩ := List.forall_mem_cons.mp hbefore
    simp [splitOnce?, hd, ih hrest]

/-- A setting is cut at its first colon. -/
lemma setting?_append {key : List Char} (h : ':' ∉ key) (value : List Char) :
    setting? (key ++ ':' :: value) =
      some (String.ofList (trim key), unquoted (trim value)) := by
  have hkey : ∀ c ∈ key, (c == ':') = false := fun c hc =>
    beq_eq_false_iff_ne.mpr fun heq => h (heq ▸ hc)
  rw [setting?, splitOnce?_append rfl hkey, Option.map_some]

lemma unquoted_of_notMem {value : List Char} (h : '"' ∉ value) : unquoted value = value := by
  rw [unquoted]
  rintro rest rfl
  exact h List.mem_cons_self

lemma ne_of_isKeyChar {c : Char} (h : isKeyChar c = true) :
    c ≠ ',' ∧ c ≠ '"' ∧ c ≠ ':' ∧ c ≠ '\n' := by
  refine ⟨?_, ?_, ?_, ?_⟩ <;> (rintro rfl; revert h; decide)

lemma isAlphanum_of_isUpper {c : Char} (h : c.isUpper = true) : c.isAlphanum = true := by
  change (c.isUpper || c.isLower || c.isDigit) = true
  rw [h]
  rfl

lemma isKeyChar_of_isUpper {c : Char} (h : c.isUpper = true) : isKeyChar c = true := by
  rw [isKeyChar, isAlphanum_of_isUpper h, Bool.true_or]

lemma isBlank_of_isUpper {c : Char} (h : c.isUpper = true) : isBlank c = false :=
  isBlank_of_isAlphanum (isAlphanum_of_isUpper h)

/-- A key with a colon behind it, after blanks. -/
lemma beginsKey_append {blanks key : List Char} {c : Char}
    (hblanks : ∀ d ∈ blanks, isBlank d = true) (hc : c.isUpper = true)
    (hkey : ∀ d ∈ key, isKeyChar d = true) (rest : List Char) :
    beginsKey (blanks ++ c :: key ++ ':' :: rest) = true := by
  have hfront : trimStart (blanks ++ c :: key ++ ':' :: rest) = c :: (key ++ ':' :: rest) := by
    rw [List.append_assoc]
    exact trimStart_blanks_append hblanks ⟨c, rfl, isBlank_of_isUpper hc⟩
  have hdrop : (key ++ ':' :: rest).dropWhile isKeyChar = ':' :: rest := by
    rw [List.dropWhile_append_of_pos hkey]
    exact List.dropWhile_cons_of_neg (by decide)
  rw [beginsKey, hfront]
  simp [hc, hdrop]

/-- Digits are read as the number that they denote, if it lies in the range. -/
lemma natural?_of_digits {bound : Nat} {digits : List Char} (hne : digits ≠ [])
    (hdigits : ∀ c ∈ digits, c.isDigit = true) (hlt : decimalValue digits < bound) :
    natural? bound digits = some (decimalValue digits) := by
  have hread : digits? digits = some (decimalValue digits) := by
    rw [digits?, if_pos (by simpa [hne] using hdigits)]
  obtain ⟨c, rest, rfl⟩ := List.exists_cons_of_ne_nil hne
  have hplus : c ≠ '+' := by
    rintro rfl
    exact absurd (hdigits _ List.mem_cons_self) (by decide)
  rw [natural?, hread, Option.filter_some, if_pos (by simpa using hlt)]
  exact fun _ heq => hplus (List.cons.inj heq).1

lemma decimalValue_toDigits (n : Nat) : decimalValue (Nat.toDigits 10 n) = n := by
  refine Eq.trans ?_ (Nat.ofDigitChars_ten_toDigits (n := n))
  simp only [decimalValue, Nat.ofDigitChars, Nat.mul_comm]

end ImageRecipe.ParameterText
