import ImageRecipe.Proofs.JsonLexemes
import ImageRecipe.Proofs.PayloadLayers

/-!
# Words for numbers that are not finite

Some tools write a word where JSON has no number, and the payload has null
there. The words are looked for in the text as a whole, strings included, so
this gives the document with these nulls as long as no string holds such a word
as a word of its own.
-/
namespace ImageRecipe.Payload

open Json (Lexed EndsScalar IsStringBody isMark isPlainChar)

/-- The words for numbers that are not finite. -/
def nonFiniteWords : List (List Char) :=
  ["NaN".toList, "Infinity".toList, "-Infinity".toList]

lemma mem_nonFiniteWords {word : List Char} : word ∈ nonFiniteWords ↔
    word = "NaN".toList ∨ word = "Infinity".toList ∨ word = "-Infinity".toList := by
  simp [nonFiniteWords]

/-- The first text has words in place of some nulls of the second, outside strings. What stands
between the quotes of a string satisfies `allowed`. -/
inductive WordsForNulls (allowed : List Char → Prop) : List Char → List Char → Prop where
  | nil : WordsForNulls allowed [] []
  | char {c : Char} {s t : List Char} : c ≠ '"' → WordsForNulls allowed s t →
    WordsForNulls allowed (c :: s) (c :: t)
  | string {raw s t : List Char} : IsStringBody raw → allowed raw → WordsForNulls allowed s t →
    WordsForNulls allowed ('"' :: (raw ++ '"' :: s)) ('"' :: (raw ++ '"' :: t))
  | word {word s t : List Char} : word ∈ nonFiniteWords → WordsForNulls allowed s t →
    WordsForNulls allowed (word ++ s) ('n' :: 'u' :: 'l' :: 'l' :: t)

/-- Whether `NaN` or `Infinity` stands in a text as a word of its own. -/
def HoldsNonFiniteWord (s : List Char) : Prop :=
  ∃ before word after, s = before ++ (word ++ after) ∧
    (word = "NaN".toList ∨ word = "Infinity".toList) ∧
    (∀ c ∈ before.getLast?, Text.isWordChar c = false) ∧
    ∀ c ∈ after.head?, Text.isWordChar c = false

lemma holdsNonFiniteWord_iff_at (s : List Char) :
    HoldsNonFiniteWord s ↔ ∃ i ≤ s.length, ∃ word ∈ ["NaN".toList, "Infinity".toList],
      word <+: s.drop i ∧ (s.take i).getLast?.all (! Text.isWordChar ·) = true ∧
        (s.drop (i + word.length)).head?.all (! Text.isWordChar ·) = true := by
  simp only [Option.all_eq_true, Bool.not_eq_true']
  constructor
  · rintro ⟨before, word, after, rfl, hword, hbefore, hafter⟩
    refine ⟨before.length, by simp, word, by simpa using hword, ⟨after, by simp⟩, ?_, ?_⟩
    · rwa [List.take_left]
    · rwa [← List.drop_drop, List.drop_left, List.drop_left]
  · rintro ⟨i, -, word, hword, ⟨after, hfound⟩, hbefore, hafter⟩
    refine ⟨s.take i, word, after, ?_, by simpa using hword, hbefore, ?_⟩
    · rw [hfound, List.take_append_drop]
    · rwa [← List.drop_drop, ← hfound, List.drop_left] at hafter

/-- A word can be looked for at every place. -/
instance (s : List Char) : Decidable (HoldsNonFiniteWord s) :=
  decidable_of_iff _ (holdsNonFiniteWord_iff_at s).symm

lemma nonFiniteWord?_eq_some_iff {s rest : List Char} :
    nonFiniteWord? s = some rest ↔
      (∃ word, (word = "NaN".toList ∨ word = "Infinity".toList) ∧ s = word ++ rest) ∧
        ∀ c ∈ rest.head?, Text.isWordChar c = false := by
  have hend : ∀ rest : List Char, (rest.head?.map Text.isWordChar).getD false = false ↔
      ∀ c ∈ rest.head?, Text.isWordChar c = false := by
    intro rest
    cases rest <;> simp
  have hfront : (Text.after? "NaN".toList s).or (Text.after? "Infinity".toList s) = some rest ↔
      ∃ word, (word = "NaN".toList ∨ word = "Infinity".toList) ∧ s = word ++ rest := by
    rw [Option.or_eq_some_iff, Text.after?_eq_some_iff, Text.after?_eq_some_iff]
    constructor
    · rintro (h | ⟨-, h⟩)
      · exact ⟨_, Or.inl rfl, h⟩
      · exact ⟨_, Or.inr rfl, h⟩
    · rintro ⟨word, rfl | rfl, h⟩
      · exact Or.inl h
      · exact Or.inr ⟨by rw [h]; rfl, h⟩
  rw [← hfront, ← hend]
  unfold nonFiniteWord?
  cases (Text.after? "NaN".toList s).or (Text.after? "Infinity".toList s) with
  | none => simp
  | some rest' =>
    simp only [Option.bind_eq_bind, Option.bind_some, Option.some.injEq]
    constructor
    · intro h
      split at h
      · cases h
      · rename_i hword
        obtain rfl := Option.some.inj h
        exact ⟨rfl, Bool.eq_false_iff.mpr hword⟩
    · rintro ⟨rfl, hword⟩
      rw [hword]
      rfl

lemma nonFiniteWord?_eq_none_of_head {s : List Char} (h : ∀ c ∈ s.head?, c ≠ 'N' ∧ c ≠ 'I') :
    nonFiniteWord? s = none := by
  rw [Option.eq_none_iff_forall_ne_some]
  intro rest hrest
  obtain ⟨⟨word, rfl | rfl, rfl⟩, -⟩ := nonFiniteWord?_eq_some_iff.mp hrest
  · exact (h 'N' rfl).1 rfl
  · exact (h 'I' rfl).2 rfl

/-- A character with which no word begins is left as it is. -/
lemma nullingNonFinite_cons {c : Char} {s : List Char} (afterWord : Bool) (hn : c ≠ 'N')
    (hi : c ≠ 'I') (hminus : c = '-' → ∀ d ∈ s.head?, d ≠ 'N' ∧ d ≠ 'I') :
    nullingNonFinite afterWord (c :: s) = c :: nullingNonFinite (Text.isWordChar c) s := by
  apply nullingNonFinite_of_none
  by_cases hc : c = '-'
  · subst hc
    exact nonFiniteWord?_eq_none_of_head (hminus rfl)
  · exact nonFinite?_eq_none hc hn hi afterWord s

/-- So is a run of such characters, as long as no word begins behind it. -/
lemma exists_nullingNonFinite_append {front s : List Char} (afterWord : Bool)
    (hfront : ∀ c ∈ front, c ≠ 'N' ∧ c ≠ 'I') (hs : ∀ c ∈ s.head?, c ≠ 'N' ∧ c ≠ 'I') :
    ∃ afterWord', nullingNonFinite afterWord (front ++ s) =
      front ++ nullingNonFinite afterWord' s := by
  induction front generalizing afterWord with
  | nil => exact ⟨afterWord, rfl⟩
  | cons c front ih =>
    obtain ⟨hc, hrest⟩ := List.forall_mem_cons.mp hfront
    obtain ⟨afterWord', hread⟩ := ih (Text.isWordChar c) hrest
    have hhead : ∀ d ∈ (front ++ s).head?, d ≠ 'N' ∧ d ≠ 'I' := by
      cases front with
      | nil => exact hs
      | cons d front => exact fun e he => Option.some.inj he ▸ hrest d List.mem_cons_self
    refine ⟨afterWord', ?_⟩
    rw [List.cons_append, nullingNonFinite_cons afterWord hc.1 hc.2 fun _ => hhead, hread,
      List.cons_append]

/-- What follows a word is a text of its own, whether the word has a sign or not. -/
lemma nullingNonFinite_word {word s : List Char} (hword : word ∈ nonFiniteWords)
    (hs : ∀ c ∈ s.head?, Text.isWordChar c = false) :
    nullingNonFinite false (word ++ s) = "null".toList ++ nullingNonFinite true s := by
  apply nullingNonFinite_of_some
  rcases mem_nonFiniteWords.mp hword with rfl | rfl | rfl
  · exact nonFiniteWord?_eq_some_iff.mpr ⟨⟨_, Or.inl rfl, rfl⟩, hs⟩
  · exact nonFiniteWord?_eq_some_iff.mpr ⟨⟨_, Or.inr rfl, rfl⟩, hs⟩
  · exact nonFiniteWord?_eq_some_iff.mpr ⟨⟨_, Or.inr rfl, rfl⟩, hs⟩

section Strings

variable {before rest s : List Char}

/-- A word that begins before a quote also ends before it. -/
lemma exists_word_before_quote {after : List Char}
    (h : nonFiniteWord? (rest ++ '"' :: s) = some after) :
    ∃ word more, rest = word ++ more ∧ (word = "NaN".toList ∨ word = "Infinity".toList) ∧
      ∀ c ∈ more.head?, Text.isWordChar c = false := by
  obtain ⟨⟨word, hword, heq⟩, hend⟩ := nonFiniteWord?_eq_some_iff.mp h
  have hquote : '"' ∉ word := by rcases hword with rfl | rfl <;> decide
  rcases List.append_eq_append_iff.mp heq with ⟨front, rfl, hfront⟩ | ⟨more, rfl, rfl⟩
  · cases front with
    | nil => exact ⟨rest, [], by simp, by simpa using hword, by simp⟩
    | cons c front =>
      obtain rfl := List.head_eq_of_cons_eq hfront
      exact absurd (List.mem_append_right rest List.mem_cons_self) hquote
  · refine ⟨word, more, rfl, hword, fun c hc => hend c ?_⟩
    rw [Option.mem_def] at hc ⊢
    rw [List.head?_append, hc, Option.some_or]

/-- The rest of a string is left as it is, by induction on it with what was passed in `before`. -/
lemma nullingNonFinite_string (hwords : ¬ HoldsNonFiniteWord (before ++ rest)) :
    nullingNonFinite ((before.getLast?.map Text.isWordChar).getD false) (rest ++ '"' :: s) =
      rest ++ '"' :: nullingNonFinite false s := by
  induction rest generalizing before with
  | nil =>
    rw [List.nil_append, nullingNonFinite_cons _ (by decide) (by decide) (by simp)]
    rfl
  | cons c rest ih =>
    have hnone : nonFinite? ((before.getLast?.map Text.isWordChar).getD false)
        (c :: rest ++ '"' :: s) = none := by
      rw [Option.eq_none_iff_forall_ne_some]
      intro after h
      by_cases hc : c = '-'
      · subst hc
        obtain ⟨word, more, rfl, hword, hmore⟩ := exists_word_before_quote h
        refine hwords ⟨before ++ ['-'], word, more, by simp, hword, fun d hd => ?_, hmore⟩
        obtain rfl : '-' = d := by simpa using hd
        rfl
      · rw [List.cons_append, nonFinite?_of_ne _ fun _ heq => hc (List.head_eq_of_cons_eq heq)] at h
        split at h
        · cases h
        · rename_i hbefore
          rw [← List.cons_append] at h
          obtain ⟨word, more, hrest, hword, hmore⟩ := exists_word_before_quote h
          refine hwords ⟨before, word, more, by rw [hrest], hword, fun d hd => ?_, hmore⟩
          rw [Option.mem_def.mp hd] at hbefore
          exact Bool.eq_false_iff.mpr hbefore
    have hlast : ((before ++ [c]).getLast?.map Text.isWordChar).getD false = Text.isWordChar c := by
      simp
    rw [List.cons_append] at hnone ⊢
    rw [nullingNonFinite_of_none hnone, ← hlast, ih (by simpa using hwords), List.cons_append]

end Strings

lemma isMark_spec {c : Char} (h : isMark c = true) :
    c ≠ '"' ∧ c ≠ 'n' ∧ c ≠ 'N' ∧ c ≠ 'I' ∧ c ≠ '-' ∧ Text.isWordChar c = false := by
  simp only [isMark, Json.isSpace, Bool.or_eq_true, beq_iff_eq] at h
  rcases h with ((((((((rfl | rfl) | rfl) | rfl) | rfl) | rfl) | rfl) | rfl) | rfl) | rfl <;>
    exact ⟨by decide, by decide, by decide, by decide, by decide, rfl⟩

lemma isPlainChar_spec {c : Char} (h : isPlainChar c = true) :
    c ≠ '"' ∧ c ≠ 'n' ∧ c ≠ 'N' ∧ c ≠ 'I' := by
  refine ⟨?_, ?_, ?_, ?_⟩ <;> (rintro rfl; revert h; decide)

section Nulls

variable {allowed : List Char → Prop} {s t : List Char} {c : Char}

/-- Outside strings, words stand for nulls only. -/
lemma WordsForNulls.of_cons (h : WordsForNulls allowed s (c :: t)) (hquote : c ≠ '"')
    (hn : c ≠ 'n') : ∃ s', s = c :: s' ∧ WordsForNulls allowed s' t := by
  cases h with
  | char _ h => exact ⟨_, rfl, h⟩
  | string => exact absurd rfl hquote
  | word => exact absurd rfl hn

lemma WordsForNulls.of_append {front : List Char} (h : WordsForNulls allowed s (front ++ t))
    (hfront : ∀ c ∈ front, c ≠ '"' ∧ c ≠ 'n') :
    ∃ s', s = front ++ s' ∧ WordsForNulls allowed s' t := by
  induction front generalizing s with
  | nil => exact ⟨s, rfl, h⟩
  | cons c front ih =>
    obtain ⟨hc, hrest⟩ := List.forall_mem_cons.mp hfront
    obtain ⟨s', rfl, h'⟩ := WordsForNulls.of_cons h hc.1 hc.2
    obtain ⟨s'', rfl, h''⟩ := ih h' hrest
    exact ⟨s'', rfl, h''⟩

lemma WordsForNulls.of_string {raw : List Char} (hraw : IsStringBody raw)
    (h : WordsForNulls allowed s ('"' :: (raw ++ '"' :: t))) :
    ∃ s', s = '"' :: (raw ++ '"' :: s') ∧ allowed raw ∧ WordsForNulls allowed s' t := by
  generalize htext : '"' :: (raw ++ '"' :: t) = text at h
  cases h with
  | nil => cases htext
  | char hquote h => exact absurd (List.head_eq_of_cons_eq htext).symm hquote
  | string hraw' hallowed h =>
    obtain ⟨rfl, rfl⟩ := hraw.unique hraw' (List.tail_eq_of_cons_eq htext)
    exact ⟨_, rfl, hallowed, h⟩
  | word => exact absurd (List.head_eq_of_cons_eq htext) (by decide)

lemma WordsForNulls.of_null (h : WordsForNulls allowed s ('n' :: 'u' :: 'l' :: 'l' :: t)) :
    ∃ s', WordsForNulls allowed s' t ∧
      (s = "null".toList ++ s' ∨ ∃ word ∈ nonFiniteWords, s = word ++ s') := by
  cases h with
  | char _ h =>
    obtain ⟨s₁, rfl, h₁⟩ := h.of_cons (by decide) (by decide)
    obtain ⟨s₂, rfl, h₂⟩ := h₁.of_cons (by decide) (by decide)
    obtain ⟨s₃, rfl, h₃⟩ := h₂.of_cons (by decide) (by decide)
    exact ⟨s₃, h₃, Or.inl rfl⟩
  | word hword h => exact ⟨_, h, Or.inr ⟨_, hword, rfl⟩⟩

/-- Both texts begin alike, unless with a null. -/
lemma WordsForNulls.head?_eq (h : WordsForNulls allowed s t) (ht : ∀ c ∈ t.head?, c ≠ 'n') :
    s.head? = t.head? := by
  cases h with
  | nil => rfl
  | char => rfl
  | string => rfl
  | word => exact absurd rfl (ht 'n' rfl)

lemma WordsForNulls.endsScalar (h : WordsForNulls allowed s t) (ht : EndsScalar t) :
    EndsScalar s := by
  rw [EndsScalar, h.head?_eq fun c hc => (isMark_spec (ht c hc)).2.1]
  exact ht

lemma WordsForNulls.not_word_of_endsScalar (h : WordsForNulls allowed s t) (ht : EndsScalar t) :
    ∀ c ∈ s.head?, c ≠ 'N' ∧ c ≠ 'I' := by
  intro c hc
  obtain ⟨-, -, hN, hI, -⟩ := isMark_spec (h.endsScalar ht c hc)
  exact ⟨hN, hI⟩

end Nulls

/-- With null for the words, a text is the one that has nulls there, if no string holds a word. -/
theorem nullingNonFinite_of_wordsForNulls {s t : List Char} {afterWord : Bool} (ht : Lexed t)
    (h : WordsForNulls (fun raw => ¬ HoldsNonFiniteWord raw) s t)
    (hends : afterWord = true → EndsScalar t) : nullingNonFinite afterWord s = t := by
  induction ht generalizing s afterWord with
  | nil =>
    cases h
    exact nullingNonFinite_nil afterWord
  | @mark c t hc _ ih =>
    obtain ⟨hquote, hn, hN, hI, hminus, hword⟩ := isMark_spec hc
    obtain ⟨s', rfl, h'⟩ := h.of_cons hquote hn
    rw [nullingNonFinite_cons afterWord hN hI fun heq => absurd heq hminus, hword,
      ih h' fun heq => absurd heq Bool.false_ne_true]
  | @string raw t hraw _ ih =>
    obtain ⟨s', rfl, hwords, h'⟩ := h.of_string hraw
    have hstring : nullingNonFinite false (raw ++ '"' :: s') =
        raw ++ '"' :: nullingNonFinite false s' := @nullingNonFinite_string [] raw s' hwords
    rw [nullingNonFinite_of_none (nonFinite?_eq_none (by decide) (by decide) (by decide) _ _),
      show Text.isWordChar '"' = false from rfl, hstring,
      ih h' fun heq => absurd heq Bool.false_ne_true]
  | @null t htends _ ih =>
    obtain ⟨s', h', hs⟩ := h.of_null
    -- a null does not end a scalar, so none stands in front of it
    obtain rfl : afterWord = false := by
      by_contra hafter
      exact absurd (hends (by simpa using hafter) 'n' rfl) (by decide)
    rcases hs with rfl | ⟨word, hword, rfl⟩
    · obtain ⟨afterWord, hcopied⟩ := exists_nullingNonFinite_append false
        (show ∀ c ∈ "null".toList, c ≠ 'N' ∧ c ≠ 'I' by simp) (h'.not_word_of_endsScalar htends)
      rw [hcopied, ih h' fun _ => htends]
      rfl
    · have hend : ∀ c ∈ s'.head?, Text.isWordChar c = false := fun c hc =>
        (isMark_spec (h'.endsScalar htends c hc)).2.2.2.2.2
      rw [nullingNonFinite_word hword hend, ih h' fun _ => htends]
      rfl
  | @plain front t hfront htends _ ih =>
    obtain ⟨s', rfl, h'⟩ := h.of_append fun c hc =>
      ⟨(isPlainChar_spec (hfront c hc)).1, (isPlainChar_spec (hfront c hc)).2.1⟩
    obtain ⟨afterWord', hcopied⟩ := exists_nullingNonFinite_append afterWord
      (fun c hc => (isPlainChar_spec (hfront c hc)).2.2) (h'.not_word_of_endsScalar htends)
    rw [hcopied, ih h' fun _ => htends]

section Words

variable {allowed : List Char → Prop} {s t : List Char} {c : Char}

lemma WordsForNulls.of_cons_left (h : WordsForNulls allowed (c :: s) t) (hquote : c ≠ '"')
    (hN : c ≠ 'N') (hI : c ≠ 'I') (hminus : c = '-' → ∀ d ∈ s.head?, d ≠ 'I') :
    ∃ t', t = c :: t' ∧ WordsForNulls allowed s t' := by
  generalize htext : c :: s = text at h
  cases h with
  | nil => cases htext
  | char _ h =>
    obtain ⟨rfl, rfl⟩ := List.cons_eq_cons.mp htext
    exact ⟨_, rfl, h⟩
  | string => exact absurd (List.head_eq_of_cons_eq htext) hquote
  | word hword h =>
    rcases mem_nonFiniteWords.mp hword with rfl | rfl | rfl
    · exact absurd (List.head_eq_of_cons_eq htext) hN
    · exact absurd (List.head_eq_of_cons_eq htext) hI
    · obtain ⟨rfl, rfl⟩ := List.cons_eq_cons.mp htext
      exact absurd rfl (hminus rfl 'I' rfl)

lemma WordsForNulls.of_append_left {front : List Char}
    (h : WordsForNulls allowed (front ++ s) t) (hfront : ∀ c ∈ front, c ≠ '"' ∧ c ≠ 'N' ∧ c ≠ 'I')
    (hs : ∀ c ∈ s.head?, c ≠ 'I') : ∃ t', t = front ++ t' ∧ WordsForNulls allowed s t' := by
  induction front generalizing t with
  | nil => exact ⟨t, rfl, h⟩
  | cons c front ih =>
    obtain ⟨hc, hrest⟩ := List.forall_mem_cons.mp hfront
    have hhead : ∀ d ∈ (front ++ s).head?, d ≠ 'I' := by
      cases front with
      | nil => exact hs
      | cons d front => exact fun e he => Option.some.inj he ▸ (hrest d List.mem_cons_self).2.2
    obtain ⟨t', rfl, h'⟩ := WordsForNulls.of_cons_left h hc.1 hc.2.1 hc.2.2 fun _ => hhead
    obtain ⟨t'', rfl, h''⟩ := ih h' hrest
    exact ⟨t'', rfl, h''⟩

lemma WordsForNulls.of_string_left {raw : List Char} (hraw : IsStringBody raw)
    (h : WordsForNulls allowed ('"' :: (raw ++ '"' :: s)) t) :
    ∃ t', t = '"' :: (raw ++ '"' :: t') ∧ WordsForNulls allowed s t' := by
  generalize htext : '"' :: (raw ++ '"' :: s) = text at h
  cases h with
  | nil => cases htext
  | char hquote h => exact absurd (List.head_eq_of_cons_eq htext).symm hquote
  | string hraw' hallowed h =>
    obtain ⟨rfl, rfl⟩ := hraw.unique hraw' (List.tail_eq_of_cons_eq htext)
    exact ⟨_, rfl, h⟩
  | word hword h =>
    rcases mem_nonFiniteWords.mp hword with rfl | rfl | rfl <;>
      exact absurd (List.head_eq_of_cons_eq htext) (by decide)

/-- What is made of marks, strings and scalars has no words outside strings. -/
lemma WordsForNulls.eq_of_lexed (hs : Lexed s) (h : WordsForNulls allowed s t) : s = t := by
  induction hs generalizing t with
  | nil =>
    generalize htext : [] = text at h
    cases h with
    | nil => rfl
    | char => cases htext
    | string => cases htext
    | word hword h =>
      rcases mem_nonFiniteWords.mp hword with rfl | rfl | rfl <;> cases htext
  | mark hc _ ih =>
    obtain ⟨hquote, -, hN, hI, hminus, -⟩ := isMark_spec hc
    obtain ⟨t', rfl, h'⟩ := h.of_cons_left hquote hN hI fun heq => absurd heq hminus
    rw [ih h']
  | string hraw _ ih =>
    obtain ⟨t', rfl, h'⟩ := h.of_string_left hraw
    rw [ih h']
  | @null s hends _ ih =>
    obtain ⟨t', rfl, h'⟩ := WordsForNulls.of_append_left
      (show WordsForNulls allowed ("null".toList ++ s) _ from h) (by simp)
      fun c hc => (isMark_spec (hends c hc)).2.2.2.1
    rw [ih h']
    rfl
  | plain hfront hends _ ih =>
    obtain ⟨t', rfl, h'⟩ := h.of_append_left
      (fun c hc => ⟨(isPlainChar_spec (hfront c hc)).1, (isPlainChar_spec (hfront c hc)).2.2⟩)
      fun c hc => (isMark_spec (hends c hc)).2.2.2.1
    rw [ih h']

end Words

lemma lenientJson?_of_wordsForNulls {s t : List Char} {x : Json}
    (ht : Json.parseChars? t = some x)
    (h : WordsForNulls (fun raw => ¬ HoldsNonFiniteWord raw) s t) : lenientJson? s = some x := by
  unfold lenientJson?
  cases hs : Json.parseChars? s with
  | some y =>
    obtain rfl := h.eq_of_lexed (Json.lexed_of_parseChars? hs)
    exact congrArg some (Option.some.inj (hs.symm.trans ht))
  | none =>
    have hnulled := nullingNonFinite_of_wordsForNulls (Json.lexed_of_parseChars? ht) h
      fun heq => absurd heq Bool.false_ne_true
    rw [← ht, hnulled]

/-- Words for numbers that are not finite are read as null and nothing else changes: the payload
of a JSON text with words in place of some nulls is the object or array that the text without
them holds, if no string holds such a word as a word of its own. -/
theorem json?_of_wordsForNulls {s t : String} {x : Json} (ht : Json.parse? t = some x)
    (hx : x.isContainer = true)
    (h : WordsForNulls (fun raw => ¬ HoldsNonFiniteWord raw) s.toList t.toList) :
    json? s = some x := by
  have hread : container? s.toList = some x := by
    rw [container?_eq, lenientJson?_of_wordsForNulls ht h, Option.bind_some,
      held?_of_isContainer hx]
  rw [json?, ofText?_of_container? (container?_trim hread), Option.map_some]

theorem json?_words_outside_strings :
    json? "\x7b\"cfg\":NaN,\"denoise\":-Infinity,\"name\":\"NaNa\"\x7d" =
      some (.obj [("cfg", .null), ("denoise", .null), ("name", .str "NaNa")]) := by
  have hread : Json.parse? "\x7b\"cfg\":null,\"denoise\":null,\"name\":\"NaNa\"\x7d" =
      some (.obj [("cfg", .null), ("denoise", .null), ("name", .str "NaNa")]) := rfl
  refine json?_of_wordsForNulls hread rfl ?_
  refine .char (by decide) ?_
  refine .string (show IsStringBody "cfg".toList from ⟨"cfg", rfl⟩) (by decide +kernel) ?_
  refine .char (by decide) ?_
  refine .word (show "NaN".toList ∈ nonFiniteWords by decide) ?_
  refine .char (by decide) ?_
  refine .string (show IsStringBody "denoise".toList from ⟨"denoise", rfl⟩) (by decide +kernel) ?_
  refine .char (by decide) ?_
  refine .word (show "-Infinity".toList ∈ nonFiniteWords by decide) ?_
  refine .char (by decide) ?_
  refine .string (show IsStringBody "name".toList from ⟨"name", rfl⟩) (by decide +kernel) ?_
  refine .char (by decide) ?_
  refine .string (show IsStringBody "NaNa".toList from ⟨"NaNa", rfl⟩) (by decide +kernel) ?_
  exact .char (by decide) .nil

/-- A word that is all of a string becomes null there, inside the quotes. -/
theorem json?_word_inside_string :
    ¬ ∀ (s t : String) (x : Json), Json.parse? t = some x → x.isContainer = true →
      WordsForNulls (fun _ => True) s.toList t.toList → s ≠ t → json? s = some x := by
  intro h
  have hword : ((json? "\x7b\"cfg\":NaN,\"name\":\"NaN\"\x7d").bind (·.get? "name")).bind
      Json.string? = some "null" := by decide +kernel
  rw [h _ "\x7b\"cfg\":null,\"name\":\"NaN\"\x7d" (.obj [("cfg", .null), ("name", .str "NaN")])
    rfl rfl ?_ (by decide)] at hword
  · revert hword
    decide
  refine .char (by decide) ?_
  refine .string (show IsStringBody "cfg".toList from ⟨"cfg", rfl⟩) trivial ?_
  refine .char (by decide) ?_
  refine .word (show "NaN".toList ∈ nonFiniteWords by decide) ?_
  refine .char (by decide) ?_
  refine .string (show IsStringBody "name".toList from ⟨"name", rfl⟩) trivial ?_
  refine .char (by decide) ?_
  refine .string (show IsStringBody "NaN".toList from ⟨"NaN", rfl⟩) trivial ?_
  exact .char (by decide) .nil

end ImageRecipe.Payload
