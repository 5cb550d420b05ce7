import ImageRecipe.Json.Parser
import ImageRecipe.Proofs.VisibleEnds
import Mathlib.Data.List.TakeDrop
import Mathlib.Data.List.TakeWhile

/-!
# What readers of strings and numbers take

A reader takes a front off a text. What that front stands for does not depend
on what follows, as long as a number does not go on there, and the front ends
in something that is not blank.
-/
namespace ImageRecipe

namespace Json

open Text (EndsVisibly)

lemma isBlank_of_isSpace {c : Char} (h : isSpace c = true) : Text.isBlank c = true := by
  simp only [isSpace, Bool.or_eq_true, beq_iff_eq] at h
  rcases h with ((rfl | rfl) | rfl) | rfl <;> rfl

lemma skipSpaces_append {blanks : List Char} (hb : ∀ c ∈ blanks, isSpace c = true)
    (s : List Char) : skipSpaces (blanks ++ s) = skipSpaces s :=
  List.dropWhile_append_of_pos hb

lemma skipSpaces_eq_nil_of_spaces {s : List Char} (hs : ∀ c ∈ s, isSpace c = true) :
    skipSpaces s = [] :=
  List.dropWhile_eq_nil_iff.2 hs

/-- A text whose spaces are skipped up to `c` has only spaces before it. -/
lemma exists_spaces_of_skipSpaces {s rest : List Char} {c : Char} (h : skipSpaces s = c :: rest) :
    ∃ blanks, s = blanks ++ c :: rest ∧ (∀ d ∈ blanks, isSpace d = true) ∧
      ∀ rest', skipSpaces (blanks ++ c :: rest') = c :: rest' := by
  have hc : isSpace c = false := by
    have := List.head?_dropWhile_not isSpace s
    rw [show s.dropWhile isSpace = c :: rest from h] at this
    simpa using this
  have hspaces : ∀ d ∈ s.takeWhile isSpace, isSpace d = true :=
    List.all_eq_true.mp List.all_takeWhile
  refine ⟨s.takeWhile isSpace, ?_, hspaces, fun rest' => ?_⟩
  · rw [← h]
    exact (List.takeWhile_append_dropWhile).symm
  · rw [skipSpaces_append hspaces]
    exact List.dropWhile_cons_of_neg (by simp [hc])

/-- Whether a number that ends before `c` would have gone on. -/
def continuesNumber (c : Char) : Bool := c.isDigit || c == '.' || c == 'e' || c == 'E'

/-- A text before which a number ends. -/
def StopsNumber (s : List Char) : Prop := ∀ c ∈ s.head?, continuesNumber c = false

lemma continuesNumber_of_isSpace {c : Char} (h : isSpace c = true) : continuesNumber c = false := by
  simp only [isSpace, Bool.or_eq_true, beq_iff_eq] at h
  rcases h with ((rfl | rfl) | rfl) | rfl <;> rfl

lemma stopsNumber_of_spaces {s : List Char} (hs : ∀ c ∈ s, isSpace c = true) :
    StopsNumber s :=
  fun c hc => continuesNumber_of_isSpace (hs c (List.mem_of_mem_head? hc))

lemma stopsNumber_of_skipSpaces {s rest : List Char} {c : Char} (h : skipSpaces s = c :: rest)
    (hc : continuesNumber c = false) : StopsNumber s := by
  obtain ⟨blanks, rfl, hspaces, -⟩ := exists_spaces_of_skipSpaces h
  intro d hd
  cases blanks with
  | nil => simpa using (Option.some.inj hd) ▸ hc
  | cons b blanks =>
    obtain rfl : b = d := Option.some.inj hd
    exact continuesNumber_of_isSpace (hspaces b List.mem_cons_self)

/-- A reader takes `front` for `x` off every text in which something permitted follows. -/
structure Takes {α : Type} (read : Reader α) (stops : List Char → Prop) (front : List Char)
    (x : α) : Prop where
  ends : EndsVisibly front
  reads : ∀ rest, stops rest → read (front ++ rest) = some (x, rest)

/-- What a reader takes off a text it would take off every text that begins so. -/
def IsLocal {α : Type} (read : Reader α) (stops : List Char → Prop) : Prop :=
  ∀ ⦃s x rest⦄, read s = some (x, rest) → ∃ front, s = front ++ rest ∧ Takes read stops front x

/-- Nothing is asked of what follows. -/
def Anything (_ : List Char) : Prop := True

variable {α β : Type}

lemma IsLocal.map {read : Reader α} {stops : List Char → Prop} (h : IsLocal read stops)
    (f : α → β) : IsLocal (fun s => (read s).map fun p => (f p.1, p.2)) stops := by
  intro s y rest hs
  obtain ⟨⟨x, rest'⟩, hx, heq⟩ := Option.map_eq_some_iff.mp hs
  obtain ⟨rfl, rfl⟩ := Prod.mk.inj heq
  obtain ⟨front, rfl, htakes⟩ := h hx
  refine ⟨front, rfl, htakes.ends, fun rest hrest => ?_⟩
  simp only [htakes.reads rest hrest, Option.map_some]

/-- A reader that skips spaces takes them with the front behind them. -/
lemma exists_takes_of_skipSpaces {read : Reader α} {stops : List Char → Prop}
    {s front rest : List Char} {c : Char} {x : α} (hs : skipSpaces s = c :: front ++ rest)
    (hends : EndsVisibly (c :: front))
    (hread : ∀ s' rest', skipSpaces s' = c :: front ++ rest' → stops rest' →
      read s' = some (x, rest')) :
    ∃ front', s = front' ++ rest ∧ Takes read stops front' x := by
  obtain ⟨blanks, rfl, -, hskip⟩ := exists_spaces_of_skipSpaces hs
  refine ⟨blanks ++ c :: front, by simp, hends.append blanks, fun rest' hrest => ?_⟩
  refine hread _ rest' ?_ hrest
  rw [List.append_assoc, List.cons_append, hskip]

lemma isBlank_eq_false_of_isHexDigit {c : Char} (h : Text.isHexDigit c = true) :
    Text.isBlank c = false := by
  simp only [Text.isHexDigit, Char.isDigit, Bool.or_eq_true, Bool.and_eq_true, decide_eq_true_eq,
    Char.le_def, UInt32.le_iff_toNat_le] at h
  simp only [Text.isBlank, Char.toNat, Bool.or_eq_false_iff, Bool.and_eq_false_iff,
    decide_eq_false_iff_not, beq_eq_false_iff_ne]
  have : 48 ≤ c.val.toNat ∧ c.val.toNat ≤ 102 := by
    rcases h with (h | h) | h <;>
      exact ⟨Nat.le_trans (by decide) h.1, Nat.le_trans h.2 (by decide)⟩
  omega

lemma isLocal_fourHex? : IsLocal fourHex? Anything := by
  intro s u rest h
  unfold fourHex? at h
  split at h
  · rename_i a b c d rest'
    split at h
    · rename_i hall
      obtain ⟨rfl, rfl⟩ := Prod.mk.inj (Option.some.inj h)
      have hd : Text.isHexDigit d = true := List.all_eq_true.mp hall d (by simp)
      have hends := Text.endsVisibly_singleton (isBlank_eq_false_of_isHexDigit hd)
      refine ⟨[a, b, c, d], rfl, hends.append [a, b, c], fun rest _ => ?_⟩
      simp only [List.cons_append, List.nil_append, fourHex?, hall, if_true]
    · cases h
  · cases h

lemma isLocal_unicodeEscape? : IsLocal unicodeEscape? Anything := by
  intro s e rest h
  unfold unicodeEscape? at h
  obtain ⟨⟨u, rest₁⟩, hu, hchar⟩ := Option.bind_eq_some_iff.mp h
  obtain ⟨front, rfl, htakes⟩ := isLocal_fourHex? hu
  have hread : ∀ rest, fourHex? (front ++ rest) = some (u, rest) := fun rest =>
    htakes.reads rest trivial
  clear h hu
  simp only at hchar
  split at hchar
  · cases hchar
  · rename_i hlow
    split at hchar
    · rename_i hhigh
      split at hchar
      · rename_i rest₂
        obtain ⟨⟨v, rest₃⟩, hv, hlowChar⟩ := Option.bind_eq_some_iff.mp hchar
        obtain ⟨front', rfl, htakes'⟩ := isLocal_fourHex? hv
        simp only at hlowChar
        split at hlowChar
        · rename_i hpair
          obtain ⟨rfl, rfl⟩ := Prod.mk.inj (Option.some.inj hlowChar)
          refine ⟨front ++ '\\' :: 'u' :: front', by simp,
            ((htakes'.ends.cons 'u').cons '\\').append front, fun rest _ => ?_⟩
          simp [unicodeEscape?, hread, htakes'.reads rest trivial, hlow, hhigh, hpair]
        · cases hlowChar
      · cases hchar
    · rename_i hhigh
      obtain ⟨rfl, rfl⟩ := Prod.mk.inj (Option.some.inj hchar)
      refine ⟨front, rfl, htakes.ends, fun rest _ => ?_⟩
      simp [unicodeEscape?, hread, hlow, hhigh]

lemma isLocal_escape? : IsLocal escape? Anything := by
  intro s e rest h
  unfold escape? at h
  split at h
  case h_9 rest' =>
    obtain ⟨front, rfl, htakes⟩ := isLocal_unicodeEscape? h
    exact ⟨'u' :: front, rfl, htakes.ends.cons 'u', htakes.reads⟩
  case h_10 => cases h
  all_goals
    obtain ⟨rfl, rfl⟩ := Prod.mk.inj (Option.some.inj h)
    exact ⟨[_], rfl, Text.endsVisibly_singleton rfl, fun _ _ => rfl⟩

/-- The characters of a string are read the same with any fuel that lasts for them. -/
lemma stringChars?_local {fuel : Nat} {done s chars rest : List Char}
    (h : stringChars? fuel done s = some (chars, rest)) :
    ∃ front, s = front ++ rest ∧ EndsVisibly front ∧ ∀ fuel' rest', front.length ≤ fuel' →
      stringChars? fuel' done (front ++ rest') = some (chars, rest') := by
  fun_induction stringChars? fuel done s with
  | case1 => cases h
  | case2 => cases h
  | case3 fuel done c rest' hquote =>
    obtain ⟨rfl, rfl⟩ := Prod.mk.inj (Option.some.inj h)
    obtain rfl : c = '"' := by simpa using hquote
    refine ⟨['"'], rfl, Text.endsVisibly_singleton rfl, fun fuel' rest' hfuel => ?_⟩
    obtain ⟨fuel', rfl⟩ := Nat.exists_eq_add_one_of_ne_zero (Nat.ne_of_gt hfuel)
    rfl
  | case4 fuel done c rest₁ hquote hback e rest₂ he ih =>
    obtain ⟨front, rfl, hends, hreads⟩ := ih h
    obtain ⟨escape, rfl, htakes⟩ := isLocal_escape? he
    refine ⟨c :: (escape ++ front), by simp, (hends.append escape).cons c,
      fun fuel' rest' hfuel => ?_⟩
    simp only [List.length_cons, List.length_append] at hfuel
    obtain ⟨fuel', rfl⟩ := Nat.exists_eq_add_one_of_ne_zero (show fuel' ≠ 0 by omega)
    have hescape := htakes.reads (front ++ rest') trivial
    simp only [List.cons_append, List.append_assoc, stringChars?, hquote, hback, hescape, if_true,
      Bool.false_eq_true, if_false]
    exact hreads fuel' rest' (by omega)
  | case5 => cases h
  | case6 => cases h
  | case7 fuel done c rest₁ hquote hback hcontrol ih =>
    obtain ⟨front, rfl, hends, hreads⟩ := ih h
    refine ⟨c :: front, rfl, hends.cons c, fun fuel' rest' hfuel => ?_⟩
    simp only [List.length_cons] at hfuel
    obtain ⟨fuel', rfl⟩ := Nat.exists_eq_add_one_of_ne_zero (show fuel' ≠ 0 by omega)
    simp only [List.cons_append, stringChars?, hquote, hback, hcontrol, Bool.false_eq_true,
      if_false]
    exact hreads fuel' rest' (by omega)

lemma isLocal_stringBody? : IsLocal stringBody? Anything := by
  intro s name rest h
  obtain ⟨⟨chars, rest'⟩, hchars, heq⟩ := Option.map_eq_some_iff.mp h
  obtain ⟨rfl, rfl⟩ := Prod.mk.inj heq
  obtain ⟨front, rfl, hends, hreads⟩ := stringChars?_local hchars
  refine ⟨front, rfl, hends, fun rest _ => ?_⟩
  have hfuel : front.length ≤ (front ++ rest).length + 1 := by
    rw [List.length_append]
    omega
  simp only [stringBody?, hreads _ rest hfuel, Option.map_some]

lemma span_eq_iff {p : Char → Bool} {s digits rest : List Char} :
    s.span p = (digits, rest) ↔
      s = digits ++ rest ∧ (∀ c ∈ digits, p c = true) ∧ ∀ c ∈ rest.head?, p c = false := by
  rw [List.span_eq_takeWhile_dropWhile, Prod.mk.injEq]
  constructor
  · rintro ⟨rfl, rfl⟩
    refine ⟨List.takeWhile_append_dropWhile.symm, List.all_eq_true.mp List.all_takeWhile, ?_⟩
    intro c hc
    have hnot := List.head?_dropWhile_not p s
    rw [Option.mem_def.mp hc] at hnot
    simpa using hnot
  · rintro ⟨rfl, hdigits, hrest⟩
    have hnone : rest.takeWhile p = [] ∧ rest.dropWhile p = rest := by
      cases rest with
      | nil => exact ⟨rfl, rfl⟩
      | cons c rest =>
        have hc : ¬ p c = true := by simp [hrest c rfl]
        exact ⟨List.takeWhile_cons_of_neg hc, List.dropWhile_cons_of_neg hc⟩
    rw [List.takeWhile_append_of_pos hdigits, List.dropWhile_append_of_pos hdigits, hnone.1,
      hnone.2, List.append_nil]
    exact ⟨rfl, rfl⟩

/-- The characters of a number. -/
def isNumeralChar (c : Char) : Bool := continuesNumber c || c == '-' || c == '+'

lemma isNumeralChar_of_isDigit {c : Char} (h : c.isDigit = true) : isNumeralChar c = true := by
  simp [isNumeralChar, continuesNumber, h]

lemma isBlank_eq_false_of_isNumeralChar {c : Char} (h : isNumeralChar c = true) :
    Text.isBlank c = false := by
  simp only [isNumeralChar, continuesNumber, Bool.or_eq_true, beq_iff_eq] at h
  rcases h with ((((h | rfl) | rfl) | rfl) | rfl) | rfl
  · exact Text.isBlank_of_isDigit h
  all_goals rfl

/-- What follows must not begin with a point either: without a fraction it would begin one. The
last part is for the digits before the fraction, which must not go on. -/
lemma fractionDigits?_local {s digits rest : List Char}
    (h : fractionDigits? s = some (digits, rest)) :
    ∃ front, s = front ++ rest ∧ (∀ c ∈ front, isNumeralChar c = true) ∧
      ∀ rest', (∀ c ∈ rest'.head?, c.isDigit = false ∧ c ≠ '.') →
        fractionDigits? (front ++ rest') = some (digits, rest') ∧
          ∀ c ∈ (front ++ rest').head?, c.isDigit = false := by
  unfold fractionDigits? at h
  split at h
  · rename_i rest₁
    obtain ⟨⟨digits', rest₂⟩, hspan⟩ : ∃ p, rest₁.span Char.isDigit = p := ⟨_, rfl⟩
    simp only [hspan] at h
    split at h
    · cases h
    · rename_i hne
      obtain ⟨rfl, rfl⟩ := Prod.mk.inj (Option.some.inj h)
      obtain ⟨rfl, hdigits, -⟩ := span_eq_iff.mp hspan
      refine ⟨'.' :: digits', rfl, ?_, fun rest' hrest => ⟨?_, ?_⟩⟩
      · exact List.forall_mem_cons.mpr ⟨rfl, fun c hc => isNumeralChar_of_isDigit (hdigits c hc)⟩
      · have hspan' := span_eq_iff.mpr ⟨rfl, hdigits, fun c hc => (hrest c hc).1⟩
        simp only [List.cons_append, fractionDigits?, hspan', hne, Bool.false_eq_true, if_false]
      · intro c hc
        obtain rfl : '.' = c := Option.some.inj hc
        rfl
  · rename_i hpoint
    obtain ⟨rfl, rfl⟩ := Prod.mk.inj (Option.some.inj h)
    refine ⟨[], rfl, by simp, fun rest' hrest => ⟨?_, fun c hc => (hrest c hc).1⟩⟩
    exact fractionDigits?.eq_2 rest' fun tail heq => (hrest '.' (by rw [heq]; rfl)).2 rfl

lemma readSign_local {s rest : List Char} {negative : Bool} {d : Char}
    (h : Decimal.readSign s = (negative, d :: rest)) (hd : d.isDigit = true) :
    ∃ sign, s = sign ++ d :: rest ∧ (∀ c ∈ sign, isNumeralChar c = true) ∧
      ∀ rest', Decimal.readSign (sign ++ d :: rest') = (negative, d :: rest') := by
  have hminus : d ≠ '-' := by rintro rfl; cases hd
  have hplus : d ≠ '+' := by rintro rfl; cases hd
  unfold Decimal.readSign at h
  split at h <;> obtain ⟨rfl, rfl⟩ := Prod.mk.inj h
  · exact ⟨['-'], rfl, by simp [isNumeralChar], fun _ => rfl⟩
  · exact ⟨['+'], rfl, by simp [isNumeralChar], fun _ => rfl⟩
  · refine ⟨[], rfl, by simp, fun rest' => Decimal.readSign.eq_3 (d :: rest') ?_ ?_⟩
    · exact fun _ heq => hminus (List.head_eq_of_cons_eq heq)
    · exact fun _ heq => hplus (List.head_eq_of_cons_eq heq)

lemma exponent?_of_stops {s : List Char} (hs : StopsNumber s) :
    exponent? s = some (none, s) ∧ ∀ c ∈ s.head?, c.isDigit = false ∧ c ≠ '.' := by
  cases s with
  | nil => exact ⟨rfl, by simp⟩
  | cons c s =>
    have hc := hs c rfl
    simp only [continuesNumber, Bool.or_eq_false_iff, beq_eq_false_iff_ne] at hc
    refine ⟨by simp [exponent?, hc.1.2, hc.2], fun d hd => ?_⟩
    obtain rfl : c = d := Option.some.inj hd
    exact hc.1.1

lemma exponentMark_spec {c : Char} (h : (c == 'e' || c == 'E') = true) :
    isNumeralChar c = true ∧ c.isDigit = false ∧ c ≠ '.' := by
  rcases Bool.or_eq_true_iff.mp h with hc | hc <;> rw [eq_of_beq hc] <;> decide

lemma exponent?_local {s rest : List Char} {exponent : Option Int}
    (h : exponent? s = some (exponent, rest)) :
    ∃ front, s = front ++ rest ∧ (∀ c ∈ front, isNumeralChar c = true) ∧
      ∀ rest', StopsNumber rest' → exponent? (front ++ rest') = some (exponent, rest') ∧
        ∀ c ∈ (front ++ rest').head?, c.isDigit = false ∧ c ≠ '.' := by
  cases s with
  | nil =>
    obtain ⟨rfl, rfl⟩ := Prod.mk.inj (Option.some.inj h)
    exact ⟨[], rfl, by simp, fun _ => exponent?_of_stops⟩
  | cons c s =>
    rw [exponent?] at h
    split at h
    · rename_i hmark
      obtain ⟨⟨negative, rest₁⟩, hsign⟩ : ∃ p, Decimal.readSign s = p := ⟨_, rfl⟩
      obtain ⟨⟨digits, rest₂⟩, hspan⟩ : ∃ p, rest₁.span Char.isDigit = p := ⟨_, rfl⟩
      simp only [hsign, hspan] at h
      obtain ⟨rfl, hdigits, -⟩ := span_eq_iff.mp hspan
      split at h
      · cases h
      · rename_i hne
        obtain ⟨rfl, rfl⟩ := Prod.mk.inj (Option.some.inj h)
        cases digits with
        | nil => simp at hne
        | cons d digits =>
          obtain ⟨sign, rfl, hchars, hread⟩ := readSign_local hsign (hdigits d List.mem_cons_self)
          obtain ⟨hletter, hother⟩ := exponentMark_spec hmark
          refine ⟨c :: (sign ++ d :: digits), by simp, ?_, fun rest' hrest => ⟨?_, ?_⟩⟩
          · refine List.forall_mem_cons.mpr ⟨hletter, List.forall_mem_append.mpr ⟨hchars, ?_⟩⟩
            exact fun c' hc' => isNumeralChar_of_isDigit (hdigits c' hc')
          · have hend := (exponent?_of_stops hrest).2
            have hspan' := span_eq_iff.mpr ⟨rfl, hdigits, fun c hc => (hend c hc).1⟩
            simp only [List.cons_append, List.append_assoc] at hspan' ⊢
            simp only [exponent?, hmark, if_true, hread, hspan', hne, Bool.false_eq_true, if_false]
          · intro c' hc'
            obtain rfl : c = c' := Option.some.inj hc'
            exact hother
    · obtain ⟨rfl, rfl⟩ := Prod.mk.inj (Option.some.inj h)
      exact ⟨[], rfl, by simp, fun _ => exponent?_of_stops⟩

/-- The numeral behind its sign. -/
def unsigned? (negative : Bool) (s : List Char) : Option (Numeral × List Char) :=
  let (whole, s) := s.span Char.isDigit
  if whole.isEmpty || (whole.head? == some '0' && whole.length != 1) then none
  else do
    let (fraction, s) ← fractionDigits? s
    let (exponent, s) ← exponent? s
    some (⟨negative, whole, fraction, exponent⟩, s)

lemma numeral?_minus (s : List Char) : numeral? ('-' :: s) = unsigned? true s := rfl

lemma numeral?_of_ne {c : Char} (hc : c ≠ '-') (s : List Char) :
    numeral? (c :: s) = unsigned? false (c :: s) := by
  unfold numeral?
  split
  rename_i heq
  split at heq
  · rename_i h
    exact absurd (List.head_eq_of_cons_eq h) hc
  · obtain ⟨rfl, rfl⟩ := Prod.mk.inj heq
    rfl

/-- A numeral begins with a digit and is read the same wherever it cannot go on. -/
lemma unsigned?_local {negative : Bool} {s rest : List Char} {numeral : Numeral}
    (h : unsigned? negative s = some (numeral, rest)) :
    ∃ d front, s = d :: front ++ rest ∧ d.isDigit = true ∧
      (∀ c ∈ d :: front, isNumeralChar c = true) ∧ ∀ rest', StopsNumber rest' →
        unsigned? negative (d :: front ++ rest') = some (numeral, rest') := by
  unfold unsigned? at h
  obtain ⟨⟨whole, rest₁⟩, hspan⟩ : ∃ p, s.span Char.isDigit = p := ⟨_, rfl⟩
  simp only [hspan] at h
  split at h
  · cases h
  · rename_i hwhole
    obtain ⟨⟨digits, rest₂⟩, hfraction, h⟩ := Option.bind_eq_some_iff.mp h
    obtain ⟨⟨exponent, rest₃⟩, hexponent, h⟩ := Option.bind_eq_some_iff.mp h
    obtain ⟨rfl, rfl⟩ := Prod.mk.inj (Option.some.inj h)
    obtain ⟨rfl, hdigits, -⟩ := span_eq_iff.mp hspan
    obtain ⟨point, rfl, hpoint, hreadPoint⟩ := fractionDigits?_local hfraction
    obtain ⟨power, rfl, hpower, hreadPower⟩ := exponent?_local hexponent
    cases whole with
    | nil => simp at hwhole
    | cons d whole =>
      refine ⟨d, whole ++ (point ++ power), by simp, hdigits d List.mem_cons_self, ?_, ?_⟩
      · rw [← List.cons_append]
        refine List.forall_mem_append.mpr ⟨?_, List.forall_mem_append.mpr ⟨hpoint, hpower⟩⟩
        exact fun c hc => isNumeralChar_of_isDigit (hdigits c hc)
      · intro rest' hrest
        obtain ⟨hexponent', hend⟩ := hreadPower rest' hrest
        obtain ⟨hfraction', hend'⟩ := hreadPoint (power ++ rest') hend
        have hspan' := span_eq_iff.mpr ⟨rfl, hdigits, hend'⟩
        simp only [List.cons_append, List.append_assoc] at hspan' ⊢
        simp only [unsigned?, hspan', hwhole, Bool.false_eq_true, if_false, hfraction',
          hexponent', Option.bind_eq_bind, Option.bind_some]

/-- A number begins with a minus sign or a digit. -/
lemma number?_local {s rest : List Char} {x : Json} (h : number? s = some (x, rest)) :
    ∃ c front, s = c :: front ++ rest ∧ (c = '-' ∨ c.isDigit = true) ∧
      (∀ d ∈ c :: front, isNumeralChar d = true) ∧
      Takes number? StopsNumber (c :: front) x ∧ ∃ n, x = .num n := by
  obtain ⟨⟨numeral, rest₁⟩, hnumeral, h⟩ := Option.bind_eq_some_iff.mp h
  obtain ⟨n, hn, h⟩ := Option.bind_eq_some_iff.mp h
  obtain ⟨rfl, rfl⟩ := Prod.mk.inj (Option.some.inj h)
  have htakes : ∀ {c front}, (∀ d ∈ c :: front, isNumeralChar d = true) →
      (∀ rest', StopsNumber rest' → numeral? (c :: front ++ rest') = some (numeral, rest')) →
      Takes number? StopsNumber (c :: front) (.num n) := by
    refine fun hchars hreads => ⟨?_, fun rest' hrest => ?_⟩
    · refine Text.endsVisibly_of_forall (List.cons_ne_nil _ _) fun d hd => ?_
      exact isBlank_eq_false_of_isNumeralChar (hchars d hd)
    · simp only [number?, hreads rest' hrest, hn, Option.bind_eq_bind, Option.bind_some]
  cases s with
  | nil => cases hnumeral
  | cons c s =>
    by_cases hc : c = '-'
    · subst hc
      rw [numeral?_minus] at hnumeral
      obtain ⟨d, front, rfl, hd, hchars, hreads⟩ := unsigned?_local hnumeral
      have hchars' : ∀ e ∈ '-' :: d :: front, isNumeralChar e = true :=
        List.forall_mem_cons.mpr ⟨rfl, hchars⟩
      refine ⟨'-', d :: front, rfl, Or.inl rfl, hchars', htakes hchars' fun rest' hrest => ?_,
        n, rfl⟩
      rw [List.cons_append, numeral?_minus, hreads rest' hrest]
    · rw [numeral?_of_ne hc] at hnumeral
      obtain ⟨d, front, hs, hd, hchars, hreads⟩ := unsigned?_local hnumeral
      obtain rfl : c = d := List.head_eq_of_cons_eq hs
      refine ⟨c, front, hs, Or.inr hd, hchars, htakes hchars fun rest' hrest => ?_, n, rfl⟩
      rw [List.cons_append, numeral?_of_ne hc, ← List.cons_append, hreads rest' hrest]

end Json

end ImageRecipe
