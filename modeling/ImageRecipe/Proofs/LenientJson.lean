import ImageRecipe.Payload
import ImageRecipe.Proofs.JsonExtent

/-!
# JSON text between blanks

Writing null for numbers that are not finite leaves the blanks at the ends of a
text alone, so what is read from a text is also read from it without these
blanks. A text in which no object, array or string can begin holds no payload.
-/
namespace ImageRecipe

open Text (EndsVisibly)

namespace Payload

section Blanks

variable {after : List Char}

lemma nonFiniteWord?_append_blanks (hafter : ∀ c ∈ after, Text.isBlank c = true) (s : List Char) :
    nonFiniteWord? (s ++ after) = (nonFiniteWord? s).map (· ++ after) := by
  have hend : ∀ rest : List Char, (((rest ++ after).head?.map Text.isWordChar).getD false) =
      ((rest.head?.map Text.isWordChar).getD false) := by
    intro rest
    cases rest with
    | cons c rest => rfl
    | nil =>
      cases after with
      | nil => rfl
      | cons c after => exact Text.isWordChar_of_isBlank (hafter c List.mem_cons_self)
  have hnan : ∀ c ∈ "NaN".toList, Text.isBlank c = false := by simp [Text.isBlank]
  have hinfinity : ∀ c ∈ "Infinity".toList, Text.isBlank c = false := by simp [Text.isBlank]
  simp only [nonFiniteWord?, Text.after?_append_blanks hnan hafter,
    Text.after?_append_blanks hinfinity hafter, ← Option.map_or]
  cases (Text.after? "NaN".toList s).or (Text.after? "Infinity".toList s) with
  | none => rfl
  | some rest =>
    simp only [Option.map_some, Option.bind_eq_bind, Option.bind_some, hend]
    split <;> rfl

lemma nonFinite?_of_ne (afterWord : Bool) {s : List Char} (hs : ∀ rest, s ≠ '-' :: rest) :
    nonFinite? afterWord s = if afterWord then none else nonFiniteWord? s :=
  nonFinite?.eq_2 afterWord s hs

/-- A word begins with one of three characters. -/
lemma nonFinite?_eq_none {c : Char} (hminus : c ≠ '-') (hn : c ≠ 'N') (hi : c ≠ 'I')
    (afterWord : Bool) (s : List Char) : nonFinite? afterWord (c :: s) = none := by
  have hword : nonFiniteWord? (c :: s) = none := by
    simp [nonFiniteWord?, Text.after?, Ne.symm hn, Ne.symm hi]
  rw [nonFinite?_of_ne afterWord fun rest h => hminus (List.head_eq_of_cons_eq h), hword, ite_self]

lemma nonFinite?_of_blank {c : Char} (hc : Text.isBlank c = true) (afterWord : Bool)
    (s : List Char) : nonFinite? afterWord (c :: s) = none := by
  apply nonFinite?_eq_none <;> (rintro rfl; cases hc)

lemma nonFinite?_append_blanks (hafter : ∀ c ∈ after, Text.isBlank c = true) (afterWord : Bool)
    (s : List Char) :
    nonFinite? afterWord (s ++ after) = (nonFinite? afterWord s).map (· ++ after) := by
  cases s with
  | nil =>
    have hnil : nonFinite? afterWord [] = none := by cases afterWord <;> rfl
    rw [hnil, List.nil_append, Option.map_none]
    cases after with
    | nil => exact hnil
    | cons c after => exact nonFinite?_of_blank (hafter c List.mem_cons_self) afterWord after
  | cons c s =>
    by_cases hc : c = '-'
    · subst hc
      exact nonFiniteWord?_append_blanks hafter s
    · have hne : ∀ s rest : List Char, c :: s ≠ '-' :: rest := fun s rest h =>
        hc (List.head_eq_of_cons_eq h)
      rw [List.cons_append, nonFinite?_of_ne afterWord (hne _), nonFinite?_of_ne afterWord (hne _),
        ← List.cons_append, nonFiniteWord?_append_blanks hafter]
      split <;> rfl

lemma nullingNonFinite_of_some {afterWord : Bool} {s rest : List Char}
    (h : nonFinite? afterWord s = some rest) :
    nullingNonFinite afterWord s = "null".toList ++ nullingNonFinite true rest := by
  rw [nullingNonFinite]
  split
  · rename_i heq
    rw [h] at heq
    rw [Option.some.inj heq]
  · rename_i heq
    rw [h] at heq
    cases heq

lemma nullingNonFinite_of_none {afterWord : Bool} {c : Char} {s : List Char}
    (h : nonFinite? afterWord (c :: s) = none) :
    nullingNonFinite afterWord (c :: s) = c :: nullingNonFinite (Text.isWordChar c) s := by
  rw [nullingNonFinite]
  split
  · rename_i heq
    rw [h] at heq
    cases heq
  · rfl

lemma nullingNonFinite_nil (afterWord : Bool) : nullingNonFinite afterWord [] = [] := by
  cases afterWord <;> (rw [nullingNonFinite]; rfl)

lemma nullingNonFinite_of_blanks (hafter : ∀ c ∈ after, Text.isBlank c = true)
    (afterWord : Bool) : nullingNonFinite afterWord after = after := by
  induction after generalizing afterWord with
  | nil => exact nullingNonFinite_nil afterWord
  | cons c after ih =>
    obtain ⟨hc, hrest⟩ := List.forall_mem_cons.mp hafter
    rw [nullingNonFinite_of_none (nonFinite?_of_blank hc afterWord after), ih hrest]

lemma nullingNonFinite_append_blanks (hafter : ∀ c ∈ after, Text.isBlank c = true)
    (afterWord : Bool) (s : List Char) :
    nullingNonFinite afterWord (s ++ after) = nullingNonFinite afterWord s ++ after := by
  fun_induction nullingNonFinite afterWord s with
  | case1 afterWord s rest h ih =>
    have h' : nonFinite? afterWord (s ++ after) = some (rest ++ after) := by
      rw [nonFinite?_append_blanks hafter, h, Option.map_some]
    rw [nullingNonFinite_of_some h', ih, List.append_assoc]
  | case2 afterWord h => exact nullingNonFinite_of_blanks hafter afterWord
  | case3 afterWord c s h ih =>
    have h' : nonFinite? afterWord (c :: (s ++ after)) = none := by
      rw [← List.cons_append, nonFinite?_append_blanks hafter, h, Option.map_none]
    rw [List.cons_append, nullingNonFinite_of_none h', ih, List.cons_append]

lemma nullingNonFinite_blanks_append {before : List Char}
    (hbefore : ∀ c ∈ before, Text.isBlank c = true) (s : List Char) :
    nullingNonFinite false (before ++ s) = before ++ nullingNonFinite false s := by
  induction before with
  | nil => rfl
  | cons c before ih =>
    obtain ⟨hc, hrest⟩ := List.forall_mem_cons.mp hbefore
    rw [List.cons_append, nullingNonFinite_of_none (nonFinite?_of_blank hc false _),
      Text.isWordChar_of_isBlank hc, ih hrest, List.cons_append]

end Blanks

lemma nonFiniteWord?_suffix {s rest : List Char} (h : nonFiniteWord? s = some rest) :
    ∃ word, s = word ++ rest := by
  obtain ⟨rest', hrest', h⟩ := Option.bind_eq_some_iff.mp h
  split at h
  · cases h
  · obtain rfl := Option.some.inj h
    rcases Option.or_eq_some_iff.mp hrest' with hword | ⟨-, hword⟩
    · exact ⟨_, Text.after?_eq_some_iff.mp hword⟩
    · exact ⟨_, Text.after?_eq_some_iff.mp hword⟩

lemma nonFinite?_suffix {afterWord : Bool} {s rest : List Char}
    (h : nonFinite? afterWord s = some rest) : ∃ word, s = word ++ rest := by
  unfold nonFinite? at h
  split at h
  · obtain ⟨word, rfl⟩ := nonFiniteWord?_suffix h
    exact ⟨'-' :: word, rfl⟩
  · split at h
    · cases h
    · exact nonFiniteWord?_suffix h

lemma mem_of_mem_nullingNonFinite {afterWord : Bool} {s : List Char} {c : Char}
    (hc : c ∈ nullingNonFinite afterWord s) : c ∈ s ∨ c ∈ "null".toList := by
  fun_induction nullingNonFinite afterWord s with
  | case1 afterWord s rest h ih =>
    obtain ⟨word, rfl⟩ := nonFinite?_suffix h
    rcases List.mem_append.mp hc with hc | hc
    · exact Or.inr hc
    · exact (ih hc).imp (List.mem_append_right word) id
  | case2 => cases hc
  | case3 afterWord d s h ih =>
    rcases List.mem_cons.mp hc with rfl | hc
    · exact Or.inl List.mem_cons_self
    · exact (ih hc).imp (List.mem_cons_of_mem d) id

lemma endsVisibly_nullingNonFinite {s : List Char} (afterWord : Bool) (hs : EndsVisibly s) :
    EndsVisibly (nullingNonFinite afterWord s) := by
  fun_induction nullingNonFinite afterWord s with
  | case1 afterWord s rest h ih =>
    obtain ⟨word, rfl⟩ := nonFinite?_suffix h
    rcases eq_or_ne rest [] with rfl | hne
    · rw [nullingNonFinite_nil, List.append_nil]
      exact ⟨'l', rfl, rfl⟩
    · exact (ih (hs.of_append hne)).append "null".toList
  | case2 => exact absurd rfl hs.ne_nil
  | case3 afterWord c s h ih =>
    rcases eq_or_ne s [] with rfl | hne
    · rwa [nullingNonFinite_nil]
    · have hs' : EndsVisibly ([c] ++ s) := hs
      exact (ih (hs'.of_append hne)).cons c

/-- What is read from a text with blanks around it is read from the text itself. -/
theorem lenientJson?_of_surrounded {before core after : List Char} {x : Json}
    (hbefore : ∀ c ∈ before, Text.isBlank c = true) (hafter : ∀ c ∈ after, Text.isBlank c = true)
    (hends : EndsVisibly core) (h : lenientJson? (before ++ core ++ after) = some x) :
    lenientJson? core = some x := by
  have hnulling : nullingNonFinite false (before ++ core ++ after) =
      before ++ nullingNonFinite false core ++ after := by
    rw [nullingNonFinite_append_blanks hafter, nullingNonFinite_blanks_append hbefore]
  have hends' := endsVisibly_nullingNonFinite false hends
  unfold lenientJson? at h ⊢
  split at h
  · rename_i x' hx'
    obtain rfl := Option.some.inj h
    rw [((Json.parseChars?_surrounded hbefore hafter hends).mp hx').1]
  · rename_i hnone
    rw [hnulling] at h
    obtain ⟨hx, hfirst, hlast⟩ := (Json.parseChars?_surrounded hbefore hafter hends').mp h
    -- the blanks are spaces, so the core cannot be JSON text by itself either
    have hcore : Json.parseChars? core = none := by
      rw [Option.eq_none_iff_forall_ne_some]
      intro y hy
      rw [(Json.parseChars?_surrounded hbefore hafter hends).mpr ⟨hy, hfirst, hlast⟩] at hnone
      cases hnone
    rw [hcore]
    exact hx

lemma exists_visible_of_parseChars? {s : List Char} {x : Json} (h : Json.parseChars? s = some x) :
    ∃ c ∈ s, Text.isBlank c = false := by
  obtain ⟨front, rest, rfl, htakes, -⟩ := Json.parseChars?_eq_some_iff.mp h
  obtain ⟨c, hc, hvisible⟩ := htakes.ends
  exact ⟨c, List.mem_append_left rest (List.mem_of_getLast? hc), hvisible⟩

lemma exists_visible_of_lenientJson? {s : List Char} {x : Json} (h : lenientJson? s = some x) :
    ∃ c ∈ s, Text.isBlank c = false := by
  by_contra hnone
  have hblank : ∀ c ∈ s, Text.isBlank c = true := by
    intro c hc
    rw [← Bool.not_eq_false]
    exact fun hvisible => hnone ⟨c, hc, hvisible⟩
  unfold lenientJson? at h
  split at h
  · exact hnone (exists_visible_of_parseChars? ‹_›)
  · rw [nullingNonFinite_of_blanks hblank] at h
    exact hnone (exists_visible_of_parseChars? h)

theorem lenientJson?_trim {s : List Char} {x : Json} (h : lenientJson? s = some x) :
    lenientJson? (Text.trim s) = some x := by
  obtain ⟨before, after, hs, hbefore, hafter, -, hends⟩ :=
    Text.exists_blanks_around_trim (exists_visible_of_lenientJson? h)
  rw [hs] at h
  exact lenientJson?_of_surrounded hbefore hafter hends h

/-- The object or array that a value is or holds as a string. -/
def held? : Json → Option Json
  | .str inner =>
    let inner := Text.trim inner.toList
    if opensContainer inner then (Json.parseChars? inner).filter Json.isContainer else none
  | value => if value.isContainer then some value else none

lemma container?_eq (s : List Char) : container? s = (lenientJson? s).bind held? := rfl

lemma held?_of_isContainer {x : Json} (hx : x.isContainer = true) : held? x = some x := by
  cases x with
  | arr items => rfl
  | obj members => rfl
  | _ => cases hx

lemma held?_eq_none {x : Json} (hcontainer : x.isContainer = false) (hstring : x.isString = false) :
    held? x = none := by
  cases x with
  | str inner => cases hstring
  | arr items => cases hcontainer
  | obj members => cases hcontainer
  | _ => rfl

theorem container?_of_parseChars? {s : List Char} {x : Json} (h : Json.parseChars? s = some x)
    (hx : x.isContainer = true) : container? s = some x := by
  have hlenient : lenientJson? s = some x := by simp only [lenientJson?, h]
  rw [container?_eq, hlenient, Option.bind_some, held?_of_isContainer hx]

theorem container?_trim {s : List Char} {x : Json} (h : container? s = some x) :
    container? (Text.trim s) = some x := by
  rw [container?_eq] at h ⊢
  obtain ⟨value, hvalue, hx⟩ := Option.bind_eq_some_iff.mp h
  rw [lenientJson?_trim hvalue, Option.bind_some, hx]

/-- A character with which an object, an array or a string begins. -/
def IsOpener (c : Char) : Prop := c = '[' ∨ c = '\x7b' ∨ c = '"'

/-- A payload begins with an opener, as it is or with null for the numbers that are not finite. -/
lemma exists_opener_of_container? {s : List Char} {x : Json} (h : container? s = some x) :
    ∃ c rest, IsOpener c ∧
      (Json.skipSpaces s = c :: rest ∨ Json.skipSpaces (nullingNonFinite false s) = c :: rest) := by
  rw [container?_eq] at h
  obtain ⟨value, hvalue, hx⟩ := Option.bind_eq_some_iff.mp h
  have hopener : ∀ {c}, Json.Opens c value → IsOpener c := by
    rintro c (hc | hc | hc | ⟨-, hcontainer, hstring⟩)
    · exact Or.inl hc
    · exact Or.inr (Or.inl hc)
    · exact Or.inr (Or.inr hc)
    · rw [held?_eq_none hcontainer hstring] at hx
      cases hx
  unfold lenientJson? at hvalue
  split at hvalue
  · obtain rfl := Option.some.inj hvalue
    obtain ⟨c, rest, hrest, hopens⟩ := Json.exists_opens_of_parseChars? ‹_›
    exact ⟨c, rest, hopener hopens, Or.inl hrest⟩
  · obtain ⟨c, rest, hrest, hopens⟩ := Json.exists_opens_of_parseChars? hvalue
    exact ⟨c, rest, hopener hopens, Or.inr hrest⟩

/-- A text without openers holds no payload. -/
theorem container?_eq_none_of_forall {s : List Char} (hs : ∀ c ∈ s, ¬ IsOpener c) :
    container? s = none := by
  rw [Option.eq_none_iff_forall_ne_some]
  intro x hx
  obtain ⟨c, rest, hopener, hrest⟩ := exists_opener_of_container? hx
  have hmem : ∀ {s}, Json.skipSpaces s = c :: rest → c ∈ s := by
    intro s hs
    have hc : c ∈ Json.skipSpaces s := by rw [hs]; exact List.mem_cons_self
    exact (List.dropWhile_suffix Json.isSpace).subset hc
  rcases hrest with hrest | hrest
  · exact hs c (hmem hrest) hopener
  · rcases mem_of_mem_nullingNonFinite (hmem hrest) with hc | hc
    · exact hs c hc hopener
    · rcases hopener with rfl | rfl | rfl <;> revert hc <;> decide

/-- A text that begins with another visible character, which begins no number that is not finite
either, holds no payload. -/
theorem container?_cons_eq_none {c : Char} (hopener : ¬ IsOpener c)
    (hspace : Json.isSpace c = false) (hminus : c ≠ '-') (hn : c ≠ 'N') (hi : c ≠ 'I')
    (s : List Char) : container? (c :: s) = none := by
  have hskip : ∀ s, Json.skipSpaces (c :: s) = c :: s := fun s =>
    List.dropWhile_cons_of_neg (by simp [hspace])
  rw [Option.eq_none_iff_forall_ne_some]
  intro x hx
  obtain ⟨d, rest, hd, hrest⟩ := exists_opener_of_container? hx
  rw [nullingNonFinite_of_none (nonFinite?_eq_none hminus hn hi false s), hskip, hskip] at hrest
  rcases hrest with hrest | hrest
  · exact hopener (List.head_eq_of_cons_eq hrest ▸ hd)
  · exact hopener (List.head_eq_of_cons_eq hrest ▸ hd)

end Payload

end ImageRecipe
