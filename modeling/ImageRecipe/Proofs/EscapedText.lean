import ImageRecipe.Proofs.SeedTexts
import ImageRecipe.Xml.Entity

/-!
# Escaped texts

The five characters that markup is made of are written by their named entities.
The names are replaced again in one pass, which gives back the text, but a second
pass then replaces the numbers of characters in that text too. So reading undoes
escaping exactly for the texts that refer to no character by its number.
-/
namespace ImageRecipe.Xml

/-- A run of characters ends before the first one that does not belong to it. -/
lemma takeWhile_dropWhile_append {p : Char → Bool} {s t : List Char}
    (hs : ∀ c ∈ s, p c = true) (ht : ∀ c ∈ t.head?, p c = false) :
    (s ++ t).takeWhile p = s ∧ (s ++ t).dropWhile p = t := by
  have hspan : (s ++ t).span p = (s, t) := Json.span_eq_iff.mpr ⟨rfl, hs, ht⟩
  rwa [List.span_eq_takeWhile_dropWhile, Prod.mk.injEq] at hspan

section Replacing

variable {reference? : List Char → Option (Char × List Char)}
  {shorter : ∀ {s rest c}, reference? s = some (c, rest) → rest.length < s.length}
  {s rest : List Char} {c : Char}

lemma replaceReferences_of_some (h : reference? s = some (c, rest)) :
    replaceReferences reference? shorter s = c :: replaceReferences reference? shorter rest := by
  rw [replaceReferences]
  split
  · rename_i heq
    rw [h] at heq
    cases heq
    rfl
  · rename_i heq
    rw [h] at heq
    cases heq

lemma replaceReferences_cons (h : reference? (c :: s) = none) :
    replaceReferences reference? shorter (c :: s) =
      c :: replaceReferences reference? shorter s := by
  rw [replaceReferences]
  split
  · rename_i heq
    rw [h] at heq
    cases heq
  · rfl

lemma replaceReferences_nil : replaceReferences reference? shorter [] = [] := by
  rw [replaceReferences]
  split
  · rename_i heq
    exact absurd (shorter heq) (Nat.not_lt_zero _)
  · rfl

/-- A text stays as it is if no reference begins anywhere in it. -/
lemma replaceReferences_eq_self (h : ∀ t, t <:+ s → reference? t = none) :
    replaceReferences reference? shorter s = s := by
  induction s with
  | nil => exact replaceReferences_nil
  | cons c s ih =>
    rw [replaceReferences_cons (h _ List.suffix_rfl),
      ih fun t ht => h t (ht.trans (List.suffix_cons c s))]

lemma length_replaceReferences_le (s : List Char) :
    (replaceReferences reference? shorter s).length ≤ s.length := by
  induction s using replaceReferences.induct reference? shorter with
  | case1 s c rest h ih =>
    have hlt := shorter h
    rw [replaceReferences_of_some h, List.length_cons]
    omega
  | case2 h => rw [replaceReferences_nil]
  | case3 c s h ih =>
    rw [replaceReferences_cons h, List.length_cons, List.length_cons]
    omega

/-- A reference takes more room than its character, so a text with one becomes shorter. -/
lemma length_replaceReferences_lt
    (hlong : ∀ {s rest c}, reference? s = some (c, rest) → rest.length + 1 < s.length)
    (s : List Char) {t : List Char} (ht : t <:+ s) (href : reference? t ≠ none) :
    (replaceReferences reference? shorter s).length < s.length := by
  induction s using replaceReferences.induct reference? shorter with
  | case1 s c rest h ih =>
    rw [replaceReferences_of_some h, List.length_cons]
    exact Nat.lt_of_le_of_lt (Nat.succ_le_succ (length_replaceReferences_le rest)) (hlong h)
  | case2 h =>
    obtain rfl := List.suffix_nil.mp ht
    exact absurd h href
  | case3 c s h ih =>
    rcases List.suffix_cons_iff.mp ht with rfl | ht
    · exact absurd h href
    · have hlt := ih ht
      rw [replaceReferences_cons h, List.length_cons, List.length_cons]
      omega

end Replacing

/-- A character as it is written in escaped text. -/
def escapeChar : Char → List Char
  | '&' => "&amp;".toList
  | '<' => "&lt;".toList
  | '>' => "&gt;".toList
  | '"' => "&quot;".toList
  | '\'' => "&apos;".toList
  | c => [c]

/-- A text with the five characters of markup written by their names. -/
def escape (s : List Char) : List Char := s.flatMap escapeChar

/-- Whether a character is written by its name. -/
def isMarkup (c : Char) : Bool := c == '&' || c == '<' || c == '>' || c == '"' || c == '\''

lemma escapeChar_of_not_isMarkup {c : Char} (h : isMarkup c = false) : escapeChar c = [c] := by
  unfold escapeChar
  split <;> first | rfl | cases h

lemma named?_cons_of_ne {c : Char} (h : c ≠ '&') (s : List Char) : named? (c :: s) = none := by
  simp [named?, namedEntities, Text.after?, Ne.symm h]

/-- The name of a character is read off the front, whatever follows. -/
lemma named?_escapeChar {c : Char} (h : isMarkup c = true) (rest : List Char) :
    named? (escapeChar c ++ rest) = some (c, rest) := by
  simp only [isMarkup, Bool.or_eq_true, beq_iff_eq] at h
  rcases h with (((rfl | rfl) | rfl) | rfl) | rfl <;> rfl

/-- The pass over the names undoes escaping. -/
lemma replaceReferences_named_escape (s : List Char) :
    replaceReferences named? named?_length_lt (escape s) = s := by
  induction s with
  | nil => exact replaceReferences_nil
  | cons c s ih =>
    rw [escape, List.flatMap_cons, ← escape]
    cases h : isMarkup c with
    | true => rw [replaceReferences_of_some (named?_escapeChar h _), ih]
    | false =>
      have hne : c ≠ '&' := by
        rintro rfl
        cases h
      rw [escapeChar_of_not_isMarkup h, List.singleton_append,
        replaceReferences_cons (named?_cons_of_ne hne _), ih]

/-- A reference to a character by its number, in decimal or hexadecimal digits. -/
inductive IsNumberReference : List Char → Char → Prop
  | decimal {digits : List Char} {n : Nat} (h : Text.Denotes 10 digits n) (hn : n.isValidChar) :
      IsNumberReference ("&#".toList ++ digits ++ [';']) (Char.ofNat n)
  | hexadecimal {digits : List Char} {n : Nat} (h : Text.Denotes 16 digits n)
      (hn : n.isValidChar) : IsNumberReference ("&#x".toList ++ digits ++ [';']) (Char.ofNat n)

/-- Whether a text refers to some character by its number. -/
def HoldsNumberReference (s : List Char) : Prop :=
  ∃ reference c, IsNumberReference reference c ∧ reference <:+: s

lemma charOfNumber?_eq_some_iff {n : Nat} {c : Char} :
    charOfNumber? n = some c ↔ n.isValidChar ∧ Char.ofNat n = c := by
  rw [charOfNumber?, Option.ite_none_right_eq_some, Option.some.injEq]

lemma numberedBy?_eq_some_iff {isDigit : Char → Bool} {value? : List Char → Option Nat}
    (hdigits : ∀ {digits n}, value? digits = some n → ∀ c ∈ digits, isDigit c = true)
    (hend : isDigit ';' = false) {s rest : List Char} {c : Char} :
    numberedBy? isDigit value? s = some (c, rest) ↔
      ∃ digits n, s = digits ++ ';' :: rest ∧ value? digits = some n ∧ n.isValidChar ∧
        Char.ofNat n = c := by
  simp only [numberedBy?, Option.bind_eq_bind, Option.bind_eq_some_iff]
  constructor
  · rintro ⟨n, hvalue, h⟩
    split at h
    · rename_i rest' hdrop
      obtain ⟨c', hc, heq⟩ := Option.map_eq_some_iff.mp h
      obtain ⟨rfl, rfl⟩ := Prod.mk.inj heq
      refine ⟨_, n, ?_, hvalue, charOfNumber?_eq_some_iff.mp hc⟩
      rw [← hdrop, List.takeWhile_append_dropWhile]
    · cases h
  · rintro ⟨digits, n, rfl, hvalue, hvalid, hc⟩
    obtain ⟨htake, hdrop⟩ :=
      takeWhile_dropWhile_append (t := ';' :: rest) (hdigits hvalue) (by simpa using hend)
    refine ⟨n, by rw [htake, hvalue], ?_⟩
    rw [hdrop, charOfNumber?_eq_some_iff.mpr ⟨hvalid, hc⟩]
    rfl

lemma numberedBy?_decimal {s rest : List Char} {c : Char} :
    numberedBy? Char.isDigit Text.digits? s = some (c, rest) ↔
      ∃ digits n, s = digits ++ ';' :: rest ∧ Text.Denotes 10 digits n ∧ n.isValidChar ∧
        Char.ofNat n = c := by
  rw [numberedBy?_eq_some_iff
    (fun h => (Text.digits?_eq_some_iff_denotes.mp h).forall_isDigit) (by decide)]
  simp only [Text.digits?_eq_some_iff_denotes]

lemma numberedBy?_hexadecimal {s rest : List Char} {c : Char} :
    numberedBy? Text.isHexDigit Text.hexDigits? s = some (c, rest) ↔
      ∃ digits n, s = digits ++ ';' :: rest ∧ Text.Denotes 16 digits n ∧ n.isValidChar ∧
        Char.ofNat n = c := by
  rw [numberedBy?_eq_some_iff
    (fun h => (Text.hexDigits?_eq_some_iff_denotes.mp h).forall_isHexDigit) (by decide)]
  simp only [Text.hexDigits?_eq_some_iff_denotes]

/-- What is read as the number of a character is a reference to it. -/
lemma numbered?_eq_some_iff {s rest : List Char} {c : Char} :
    numbered? s = some (c, rest) ↔ ∃ reference, IsNumberReference reference c ∧
      s = reference ++ rest := by
  simp only [numbered?, Option.bind_eq_bind, Option.bind_eq_some_iff, Text.after?_eq_some_iff]
  constructor
  · rintro ⟨after, rfl, h⟩
    split at h
    · obtain ⟨digits, n, rfl, hdigits, hvalid, rfl⟩ := numberedBy?_hexadecimal.mp h
      exact ⟨_, .hexadecimal hdigits hvalid, by simp⟩
    · obtain ⟨digits, n, rfl, hdigits, hvalid, rfl⟩ := numberedBy?_decimal.mp h
      exact ⟨_, .decimal hdigits hvalid, by simp⟩
  · rintro ⟨reference, href, rfl⟩
    cases href with
    | @decimal digits n h hn =>
      refine ⟨digits ++ ';' :: rest, by simp, ?_⟩
      obtain ⟨d, digits, rfl⟩ := List.exists_cons_of_ne_nil h.ne_nil
      split
      · -- no decimal digit is an x
        rename_i heq
        obtain ⟨rfl, -⟩ := List.cons.inj heq
        exact absurd (h.forall_isDigit 'x' List.mem_cons_self) (by decide)
      · exact numberedBy?_decimal.mpr ⟨_, n, rfl, h, hn, rfl⟩
    | @hexadecimal digits n h hn =>
      exact ⟨'x' :: (digits ++ ';' :: rest), by simp,
        numberedBy?_hexadecimal.mpr ⟨_, n, rfl, h, hn, rfl⟩⟩

lemma IsNumberReference.two_lt_length {reference : List Char} {c : Char}
    (h : IsNumberReference reference c) : 2 < reference.length := by
  cases h <;> simp

lemma exists_suffix_numbered?_iff {s : List Char} :
    (∃ t, t <:+ s ∧ numbered? t ≠ none) ↔ HoldsNumberReference s := by
  constructor
  · rintro ⟨t, ht, href⟩
    obtain ⟨⟨c, rest⟩, h⟩ := Option.ne_none_iff_exists'.mp href
    obtain ⟨reference, hreference, rfl⟩ := numbered?_eq_some_iff.mp h
    exact ⟨reference, c, hreference, (List.prefix_append _ _).isInfix.trans ht.isInfix⟩
  · rintro ⟨reference, c, hreference, before, rest, rfl⟩
    refine ⟨reference ++ rest, ⟨before, by rw [List.append_assoc]⟩, ?_⟩
    rw [numbered?_eq_some_iff.mpr ⟨reference, hreference, rfl⟩]
    exact Option.some_ne_none _

lemma unescape_escape (s : List Char) :
    unescape (escape s) = replaceReferences numbered? numbered?_length_lt s := by
  rw [unescape, replaceReferences_named_escape]

/-- Reading undoes escaping exactly where no character is referred to by its number. -/
theorem unescape_escape_eq_self_iff {s : List Char} :
    unescape (escape s) = s ↔ ¬ HoldsNumberReference s := by
  rw [unescape_escape, ← exists_suffix_numbered?_iff]
  constructor
  · rintro h ⟨t, ht, href⟩
    have hlong : ∀ {s rest c}, numbered? s = some (c, rest) → rest.length + 1 < s.length := by
      intro s rest c h
      obtain ⟨reference, hreference, rfl⟩ := numbered?_eq_some_iff.mp h
      have hlt := hreference.two_lt_length
      rw [List.length_append]
      omega
    have hlt : (replaceReferences numbered? numbered?_length_lt s).length < s.length :=
      length_replaceReferences_lt hlong s ht href
    rw [h] at hlt
    exact absurd hlt (Nat.lt_irrefl _)
  · intro h
    exact replaceReferences_eq_self fun t ht => by_contra fun href => h ⟨t, ht, href⟩

/-- A text without an ampersand refers to nothing. -/
lemma not_holdsNumberReference {s : List Char} (h : '&' ∉ s) : ¬ HoldsNumberReference s := by
  rintro ⟨reference, c, hreference, hwithin⟩
  refine h (hwithin.subset ?_)
  cases hreference <;> simp

/-- A text without an ampersand stands for itself. -/
lemma unescape_eq_self {s : List Char} (h : '&' ∉ s) : unescape s = s := by
  have hnames : replaceReferences named? named?_length_lt s = s := by
    refine replaceReferences_eq_self fun t ht => ?_
    cases t with
    | nil => rfl
    | cons c t =>
      exact named?_cons_of_ne (fun hc => h (hc ▸ ht.subset List.mem_cons_self)) t
  have hnumbers := unescape_escape_eq_self_iff.mpr (not_holdsNumberReference h)
  rw [unescape_escape] at hnumbers
  rw [unescape, hnames, hnumbers]

end ImageRecipe.Xml
