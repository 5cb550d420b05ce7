import ImageRecipe.Proofs.JsonTokens
import ImageRecipe.Workflow.Seed
import Mathlib.Data.List.Induction

/-!
# Seeds as they are written

A text is a seed if it is a decimal numeral behind any number of plus signs, or
else a hexadecimal numeral that is marked as one or has a letter, and if the
number that it denotes has at most 64 bits. What a numeral denotes is said digit
by digit here, from the last one.
-/
namespace ImageRecipe

namespace Text

/-- A character is the digit `d` of a base; a letter may be small or large. -/
def IsDigit (base d : Nat) (c : Char) : Prop :=
  d < base ∧ (c = d.digitChar ∨ c = d.digitChar.toUpper)

/-- What a row of digits denotes in a base: a digit denotes its number, and one more digit behind a
numeral adds its number to the base times what the numeral denotes. -/
inductive Denotes (base : Nat) : List Char → Nat → Prop
  | single {d : Nat} {c : Char} (hc : IsDigit base d c) : Denotes base [c] d
  | snoc {digits : List Char} {n d : Nat} {c : Char} (h : Denotes base digits n)
      (hc : IsDigit base d c) : Denotes base (digits ++ [c]) (n * base + d)

lemma toNat_lt_of_isHexDigit {c : Char} (h : isHexDigit c = true) : c.toNat < 103 := by
  simp only [isHexDigit, Char.isDigit, Bool.or_eq_true, Bool.and_eq_true, decide_eq_true_eq,
    Char.le_def, UInt32.le_iff_toNat_le] at h
  have hle : c.val.toNat ≤ 102 := by
    rcases h with (h | h) | h <;> exact Nat.le_trans h.2 (by decide)
  exact Nat.lt_succ_of_le hle

lemma isDigit_sixteen_iff {d : Nat} {c : Char} :
    IsDigit 16 d c ↔ isHexDigit c = true ∧ hexDigitValue c = d := by
  constructor
  · rintro ⟨hd, hc⟩
    have hall : ∀ d < 16, (isHexDigit d.digitChar = true ∧ hexDigitValue d.digitChar = d) ∧
        isHexDigit d.digitChar.toUpper = true ∧ hexDigitValue d.digitChar.toUpper = d := by decide
    rcases hc with rfl | rfl
    · exact (hall d hd).1
    · exact (hall d hd).2
  · rintro ⟨hc, rfl⟩
    have hall : ∀ n < 103, isHexDigit (Char.ofNat n) = true →
        hexDigitValue (Char.ofNat n) < 16 ∧
          (Char.ofNat n = (hexDigitValue (Char.ofNat n)).digitChar ∨
            Char.ofNat n = (hexDigitValue (Char.ofNat n)).digitChar.toUpper) := by decide +kernel
    rw [← Char.ofNat_toNat c] at hc ⊢
    exact hall _ (toNat_lt_of_isHexDigit (Char.ofNat_toNat c ▸ hc)) hc

lemma isDigit_ten_iff {d : Nat} {c : Char} :
    IsDigit 10 d c ↔ c.isDigit = true ∧ c.toNat - '0'.toNat = d := by
  have hvalue : c.isDigit = true → hexDigitValue c = c.toNat - '0'.toNat := fun hc => if_pos hc
  constructor
  · rintro ⟨hd, hc⟩
    have hall : ∀ d < 10,
        (d.digitChar.isDigit = true ∧ d.digitChar.toNat - '0'.toNat = d) ∧
          d.digitChar.toUpper.isDigit = true ∧ d.digitChar.toUpper.toNat - '0'.toNat = d := by
      decide
    rcases hc with rfl | rfl
    · exact (hall d hd).1
    · exact (hall d hd).2
  · rintro ⟨hc, rfl⟩
    have hhex := isDigit_sixteen_iff.mpr ⟨by simp [isHexDigit, hc], hvalue hc⟩
    have hle : c.toNat ≤ '9'.toNat := (Char.isDigit_iff_toNat.mp hc).2
    exact ⟨Nat.lt_of_le_of_lt (Nat.sub_le_sub_right hle _) (by decide), hhex.2⟩

section Reading

variable {base : Nat} {isDigit : Char → Bool} {value : Char → Nat}
  (hdigit : ∀ c d, IsDigit base d c ↔ isDigit c = true ∧ value c = d)
include hdigit

/-- What a reader of digits computes from the first one on. Induction on the digits, the last one
first. -/
lemma denotes_iff_foldl {digits : List Char} {n : Nat} : Denotes base digits n ↔
    digits ≠ [] ∧ digits.all isDigit = true ∧
      digits.foldl (fun n c => n * base + value c) 0 = n := by
  constructor
  · intro h
    induction h with
    | single hc =>
      obtain ⟨hdigit, rfl⟩ := (hdigit _ _).mp hc
      simp [hdigit]
    | snoc _ hc ih =>
      obtain ⟨hdigit, rfl⟩ := (hdigit _ _).mp hc
      obtain ⟨-, hall, rfl⟩ := ih
      rw [List.foldl_append, List.all_append, hall]
      simp [hdigit]
  · rintro ⟨hne, hall, rfl⟩
    induction digits using List.reverseRecOn with
    | nil => exact absurd rfl hne
    | append_singleton digits c ih =>
      obtain ⟨hdigits, hc⟩ : digits.all isDigit = true ∧ isDigit c = true := by simpa using hall
      have hlast := (hdigit c _).mpr ⟨hc, rfl⟩
      rw [List.foldl_append, List.foldl_cons, List.foldl_nil]
      cases digits with
      | nil => simpa using Denotes.single hlast
      | cons first rest => exact .snoc (ih (List.cons_ne_nil _ _) hdigits) hlast

end Reading

lemma digits?_eq_some_iff_denotes {digits : List Char} {n : Nat} :
    digits? digits = some n ↔ Denotes 10 digits n := by
  rw [denotes_iff_foldl (fun _ _ => isDigit_ten_iff), digits?]
  cases digits <;> simp [decimalValue]

lemma hexDigits?_eq_some_iff_denotes {digits : List Char} {n : Nat} :
    hexDigits? digits = some n ↔ Denotes 16 digits n := by
  rw [denotes_iff_foldl (fun _ _ => isDigit_sixteen_iff), hexDigits?]
  cases digits <;> simp [hexValue]

lemma Denotes.forall_isDigit {digits : List Char} {n : Nat} (h : Denotes 10 digits n) :
    ∀ c ∈ digits, c.isDigit = true :=
  List.all_eq_true.mp ((denotes_iff_foldl fun _ _ => isDigit_ten_iff).mp h).2.1

lemma Denotes.forall_isHexDigit {digits : List Char} {n : Nat} (h : Denotes 16 digits n) :
    ∀ c ∈ digits, isHexDigit c = true :=
  List.all_eq_true.mp ((denotes_iff_foldl fun _ _ => isDigit_sixteen_iff).mp h).2.1

lemma Denotes.ne_nil {base : Nat} {digits : List Char} {n : Nat} (h : Denotes base digits n) :
    digits ≠ [] := by
  cases h with
  | single hc => exact List.cons_ne_nil _ _
  | snoc h hc => exact List.append_ne_nil_of_right_ne_nil _ (List.cons_ne_nil _ _)

/-- The digits of a number denote it. -/
lemma denotes_toDigits {base : Nat} (hbase : 1 < base) (n : Nat) :
    Denotes base (Nat.toDigits base n) n := by
  induction n using Nat.strongRecOn with
  | ind n ih =>
    rw [Nat.toDigits_eq_if hbase]
    split
    · rename_i hlt
      exact .single ⟨hlt, .inl rfl⟩
    · rename_i hle
      have hpos : 0 < n := by omega
      have hlast : IsDigit base (n % base) (n % base).digitChar :=
        ⟨Nat.mod_lt _ (by omega), .inl rfl⟩
      have hn := Denotes.snoc (ih (n / base) (Nat.div_lt_self hpos hbase)) hlast
      rwa [Nat.mul_comm, Nat.div_add_mod] at hn

end Text

namespace Seed

open Text

/-- A decimal numeral behind any number of plus signs. -/
inductive IsDecimal : List Char → Nat → Prop
  | signed (plus : Nat) {digits : List Char} {n : Nat} (h : Denotes 10 digits n) :
      IsDecimal (List.replicate plus '+' ++ digits) n

/-- A hexadecimal numeral behind `0x` or `0X`, or one with a letter. -/
inductive IsHexadecimal : List Char → Nat → Prop
  | marked {x : Char} (hx : x = 'x' ∨ x = 'X') {digits : List Char} {n : Nat}
      (h : Denotes 16 digits n) : IsHexadecimal ('0' :: x :: digits) n
  | lettered {digits : List Char} {n : Nat} (hletter : ∃ c ∈ digits, c.isAlpha = true)
      (h : Denotes 16 digits n) : IsHexadecimal digits n

/-- A text without blanks at its ends writes the seed `n`. -/
def Writes (text : List Char) (n : Nat) : Prop :=
  text ≠ [] ∧ text.head? ≠ some '-' ∧ n < UInt64.size ∧
    (IsDecimal text n ∨ (¬ ∃ m < UInt64.size, IsDecimal text m) ∧ IsHexadecimal text n)

lemma digits?_dropPlus_eq_some_iff {text : List Char} {n : Nat} :
    digits? (text.dropWhile (· == '+')) = some n ↔ IsDecimal text n := by
  rw [digits?_eq_some_iff_denotes]
  constructor
  · intro h
    obtain ⟨plus, hplus⟩ : ∃ plus, text.takeWhile (· == '+') = List.replicate plus '+' := by
      refine ⟨_, List.eq_replicate_iff.mpr ⟨rfl, fun c hc => ?_⟩⟩
      simpa using List.mem_takeWhile_imp hc
    rw [← List.takeWhile_append_dropWhile (p := (· == '+')) (l := text), hplus]
    exact .signed plus h
  · rintro ⟨plus, h⟩
    obtain ⟨c, rest, rfl⟩ := List.exists_cons_of_ne_nil h.ne_nil
    have hc : ¬ (c == '+') = true := by
      intro hplus
      have hdigit := h.forall_isDigit c List.mem_cons_self
      rw [eq_of_beq hplus] at hdigit
      cases hdigit
    rwa [List.dropWhile_append_of_pos (by simp), List.dropWhile_cons_of_neg (p := (· == '+')) hc]

lemma hexText?_eq_some_iff {text : List Char} {n : Nat} :
    hexText? text = some n ↔ IsHexadecimal text n := by
  unfold hexText?
  split
  · rename_i digits
    rw [hexDigits?_eq_some_iff_denotes]
    constructor
    · exact .marked (.inl rfl)
    · intro h
      cases h with
      | marked hx h => exact h
      | lettered hletter h => cases h.forall_isHexDigit 'x' (by simp)
  · rename_i digits
    rw [hexDigits?_eq_some_iff_denotes]
    constructor
    · exact .marked (.inr rfl)
    · intro h
      cases h with
      | marked hx h => exact h
      | lettered hletter h => cases h.forall_isHexDigit 'X' (by simp)
  · rename_i hsmall hlarge
    constructor
    · intro h
      split at h
      · rename_i hletter
        exact .lettered (List.any_eq_true.mp hletter) (hexDigits?_eq_some_iff_denotes.mp h)
      · cases h
    · intro h
      cases h with
      | marked hx h =>
        rcases hx with rfl | rfl
        · exact absurd rfl (hsmall _)
        · exact absurd rfl (hlarge _)
      | lettered hletter h =>
        rw [if_pos (List.any_eq_true.mpr hletter)]
        exact hexDigits?_eq_some_iff_denotes.mpr h

lemma IsDecimal.ne_nil {text : List Char} {n : Nat} (h : IsDecimal text n) : text ≠ [] := by
  cases h with
  | signed plus h => exact List.append_ne_nil_of_right_ne_nil _ h.ne_nil

lemma IsHexadecimal.ne_nil {text : List Char} {n : Nat} (h : IsHexadecimal text n) :
    text ≠ [] := by
  cases h with
  | marked hx h => exact List.cons_ne_nil _ _
  | lettered hletter h => exact h.ne_nil

/-- A number of at most 64 bits as a word. -/
lemma bind_word_eq_some_iff {number : Option Nat} {seed : UInt64} :
    (number.bind fun n => if n < UInt64.size then some (UInt64.ofNat n) else none) = some seed ↔
      number = some seed.toNat := by
  constructor
  · intro h
    obtain ⟨n, rfl, hn⟩ := Option.bind_eq_some_iff.mp h
    split at hn
    · rename_i hlt
      obtain rfl := Option.some.inj hn
      rw [UInt64.toNat_ofNat', Nat.mod_eq_of_lt hlt]
    · cases hn
  · rintro rfl
    rw [Option.bind_some, if_pos seed.toNat_lt, UInt64.ofNat_toNat]

lemma ofChars?_eq_some_iff {s : List Char} {seed : UInt64} :
    ofChars? s = some seed ↔ Writes (trim s) seed.toNat := by
  unfold ofChars?
  generalize trim s = text
  dsimp only
  split
  · rename_i hminus
    simp [Writes, eq_of_beq hminus]
  · rename_i hminus
    have hhead : text.head? ≠ some '-' := fun h => hminus (beq_iff_eq.mpr h)
    split
    · rename_i n hdecimal
      have hn : IsDecimal text n.toNat :=
        digits?_dropPlus_eq_some_iff.mp (bind_word_eq_some_iff.mp hdecimal)
      constructor
      · intro hseed
        obtain rfl : n = seed := Option.some.inj hseed
        exact ⟨hn.ne_nil, hhead, n.toNat_lt, .inl hn⟩
      · rintro ⟨-, -, -, hseed | ⟨hnone, -⟩⟩
        · rw [← hdecimal]
          exact bind_word_eq_some_iff.mpr (digits?_dropPlus_eq_some_iff.mpr hseed)
        · exact absurd ⟨n.toNat, n.toNat_lt, hn⟩ hnone
    · rename_i hdecimal
      have hnone : ¬ ∃ m < UInt64.size, IsDecimal text m := by
        rintro ⟨m, hm, h⟩
        rw [digits?_dropPlus_eq_some_iff.mpr h, Option.bind_some, if_pos hm] at hdecimal
        cases hdecimal
      rw [bind_word_eq_some_iff, hexText?_eq_some_iff]
      constructor
      · exact fun h => ⟨h.ne_nil, hhead, seed.toNat_lt, .inr ⟨hnone, h⟩⟩
      · rintro ⟨-, -, hlt, hseed | ⟨-, hseed⟩⟩
        · exact absurd ⟨_, hlt, hseed⟩ hnone
        · exact hseed

/-- A word in hexadecimal digits behind their mark. -/
def hexText (n : UInt64) : String := "0x" ++ String.ofList (Nat.toDigits 16 n.toNat)

lemma not_isDecimal_marked {x : Char} (hx : x.isDigit = false) {digits : List Char} {n : Nat} :
    ¬ IsDecimal ('0' :: x :: digits) n := by
  intro h
  have hread := digits?_dropPlus_eq_some_iff.mpr h
  have hdigit := (digits?_eq_some_iff_denotes.mp hread).forall_isDigit x (by simp)
  rw [hx] at hdigit
  cases hdigit

lemma writes_decimal (n : UInt64) : Writes (Nat.toDigits 10 n.toNat) n.toNat := by
  have hdecimal : IsDecimal (Nat.toDigits 10 n.toNat) n.toNat :=
    .signed 0 (denotes_toDigits (by decide) n.toNat)
  refine ⟨hdecimal.ne_nil, ?_, n.toNat_lt, .inl hdecimal⟩
  intro hminus
  have hdigit := Nat.isDigit_of_mem_toDigits (by decide) (by decide) (List.mem_of_head? hminus)
  cases hdigit

lemma writes_marked {x : Char} (hx : x = 'x' ∨ x = 'X') (n : UInt64) :
    Writes ('0' :: x :: Nat.toDigits 16 n.toNat) n.toNat := by
  have hdigit : x.isDigit = false := by rcases hx with rfl | rfl <;> rfl
  refine ⟨List.cons_ne_nil _ _, by simp, n.toNat_lt, .inr ⟨?_, ?_⟩⟩
  · rintro ⟨m, -, h⟩
    exact not_isDecimal_marked hdigit h
  · exact .marked hx (denotes_toDigits (by decide) n.toNat)

lemma trim_of_forall {s : List Char} (h : ∀ c ∈ s, isBlank c = false) : trim s = s := by
  cases s with
  | nil => rfl
  | cons c rest =>
    exact trim_of_visible ⟨c, rfl, h c List.mem_cons_self⟩
      (endsVisibly_of_forall (List.cons_ne_nil _ _) h)

lemma ofText?_decimalText (n : UInt64) : ofText? (decimalText n.toNat) = some n := by
  have hvisible : ∀ c ∈ Nat.toDigits 10 n.toNat, isBlank c = false := fun c hc =>
    isBlank_of_isDigit (Nat.isDigit_of_mem_toDigits (by decide) (by decide) hc)
  rw [ofText?, ofChars?_eq_some_iff, decimalText, String.toList_ofList, trim_of_forall hvisible]
  exact writes_decimal n

lemma ofText?_hexText (n : UInt64) : ofText? (hexText n) = some n := by
  have htext : (hexText n).toList = '0' :: 'x' :: Nat.toDigits 16 n.toNat := by simp [hexText]
  have hdigits : ∀ c ∈ Nat.toDigits 16 n.toNat, isBlank c = false := fun c hc =>
    Json.isBlank_eq_false_of_isHexDigit ((denotes_toDigits (by decide) _).forall_isHexDigit c hc)
  have hvisible : ∀ c ∈ '0' :: 'x' :: Nat.toDigits 16 n.toNat, isBlank c = false :=
    List.forall_mem_cons.mpr ⟨rfl, List.forall_mem_cons.mpr ⟨rfl, hdigits⟩⟩
  rw [ofText?, ofChars?_eq_some_iff, htext, trim_of_forall hvisible]
  exact writes_marked (.inl rfl) n

lemma isAlpha_eq_false_of_isDigit {c : Char} (h : c.isDigit = true) : c.isAlpha = false := by
  have hlt := toNat_lt_of_isHexDigit (c := c) (by simp [isHexDigit, h])
  have hall : ∀ n < 103, (Char.ofNat n).isDigit = true → (Char.ofNat n).isAlpha = false := by
    decide
  rw [← Char.ofNat_toNat c] at h ⊢
  exact hall _ hlt h

/-- Digits without a mark and without a letter are decimal only. -/
lemma writes_iff_of_forall_isDigit {text : List Char} (h : ∀ c ∈ text, c.isDigit = true)
    (seed : UInt64) : Writes text seed.toNat ↔ Denotes 10 text seed.toNat := by
  have hplus : text.dropWhile (· == '+') = text := by
    cases text with
    | nil => rfl
    | cons c rest =>
      have hc : ¬ (c == '+') = true := by
        intro hplus
        have hdigit := h c List.mem_cons_self
        rw [eq_of_beq hplus] at hdigit
        cases hdigit
      exact List.dropWhile_cons_of_neg (p := (· == '+')) hc
  have hdecimal : IsDecimal text seed.toNat ↔ Denotes 10 text seed.toNat := by
    rw [← digits?_dropPlus_eq_some_iff, hplus, digits?_eq_some_iff_denotes]
  constructor
  · rintro ⟨-, -, -, hseed | ⟨-, hseed⟩⟩
    · exact hdecimal.mp hseed
    · cases hseed with
      | marked hx h' =>
        have hdigit := h _ (List.mem_cons_of_mem _ List.mem_cons_self)
        rcases hx with rfl | rfl <;> cases hdigit
      | lettered hletter h' =>
        obtain ⟨c, hc, hletter⟩ := hletter
        rw [isAlpha_eq_false_of_isDigit (h c hc)] at hletter
        cases hletter
  · intro hseed
    refine ⟨hseed.ne_nil, ?_, seed.toNat_lt, .inl (hdecimal.mpr hseed)⟩
    intro hminus
    cases h '-' (List.mem_of_head? hminus)

/-- A text is a seed exactly if, without the blanks at its ends, it writes one: no other text is
taken and no number wraps around. So every seed is read back from its decimal digits and from its
hexadecimal digits behind `0x`, and digits alone are never hexadecimal. -/
theorem ofText?_reads_written :
    (∀ (s : String) (seed : UInt64),
      ofText? s = some seed ↔ Writes (trim s.toList) seed.toNat) ∧
    (∀ seed : UInt64,
      ofText? (decimalText seed.toNat) = some seed ∧ ofText? (hexText seed) = some seed) ∧
    ∀ (s : String) (seed : UInt64), (∀ c ∈ trim s.toList, c.isDigit = true) →
      (ofText? s = some seed ↔ Denotes 10 (trim s.toList) seed.toNat) := by
  refine ⟨fun s seed => ofChars?_eq_some_iff,
    fun seed => ⟨ofText?_decimalText seed, ofText?_hexText seed⟩, fun s seed h => ?_⟩
  rw [ofText?, ofChars?_eq_some_iff, writes_iff_of_forall_isDigit h]

theorem ofText?_reads_written_digits :
    (∀ c ∈ trim " 0123 ".toList, c.isDigit = true) ∧ ofText? " 0123 " = some 123 ∧
      Denotes 10 (trim " 0123 ".toList) 123 := by
  have hdigits : (trim " 0123 ".toList).all Char.isDigit = true := by decide
  have hread : ofText? " 0123 " = some 123 := by decide
  exact ⟨List.all_eq_true.mp hdigits, hread,
    (ofText?_reads_written.2.2 " 0123 " 123 (List.all_eq_true.mp hdigits)).mp hread⟩

end Seed

end ImageRecipe
