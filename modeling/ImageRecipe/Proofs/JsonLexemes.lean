import ImageRecipe.Proofs.JsonExtent

/-!
# What JSON text is made of

A text from which the reader takes a value is a sequence of marks, strings and
scalars, and behind every scalar stands a mark or the end of the text. So no
two scalars touch, and outside strings there are no characters but those of
marks, of numbers and of the three names.
-/
namespace ImageRecipe

namespace Json

/-- Spaces, and the characters that hold arrays and objects together. -/
def isMark (c : Char) : Bool :=
  isSpace c || c == ',' || c == ':' || c == '[' || c == ']' || c == '\x7b' || c == '\x7d'

/-- The characters of numbers, of `true` and of `false`. -/
def isPlainChar (c : Char) : Bool := isNumeralChar c || "truefalse".toList.contains c

/-- A text before which a scalar ends. -/
def EndsScalar (s : List Char) : Prop := ∀ c ∈ s.head?, isMark c = true

/-- What stands between the quotes of a string. -/
def IsStringBody (raw : List Char) : Prop := ∃ name, stringBody? (raw ++ ['"']) = some (name, [])

/-- A sequence of marks, strings and scalars. -/
inductive Lexed : List Char → Prop where
  | nil : Lexed []
  | mark {c : Char} {s : List Char} : isMark c = true → Lexed s → Lexed (c :: s)
  | string {raw s : List Char} : IsStringBody raw → Lexed s → Lexed ('"' :: (raw ++ '"' :: s))
  | null {s : List Char} : EndsScalar s → Lexed s → Lexed ('n' :: 'u' :: 'l' :: 'l' :: s)
  | plain {front s : List Char} : (∀ c ∈ front, isPlainChar c = true) → EndsScalar s → Lexed s →
    Lexed (front ++ s)

lemma isMark_of_isSpace {c : Char} (h : isSpace c = true) : isMark c = true := by
  simp [isMark, h]

lemma endsScalar_cons {c : Char} (hc : isMark c = true) (s : List Char) : EndsScalar (c :: s) := by
  intro d hd
  obtain rfl : c = d := Option.some.inj hd
  exact hc

lemma endsScalar_of_spaces {s : List Char} (h : ∀ c ∈ s, isSpace c = true) : EndsScalar s :=
  fun c hc => isMark_of_isSpace (h c (List.mem_of_mem_head? hc))

lemma endsScalar_of_skipSpaces {s rest : List Char} {c : Char} (h : skipSpaces s = c :: rest)
    (hc : isMark c = true) : EndsScalar s := by
  obtain ⟨blanks, rfl, hspaces, -⟩ := exists_spaces_of_skipSpaces h
  cases blanks with
  | nil => exact endsScalar_cons hc rest
  | cons b blanks => exact endsScalar_cons (isMark_of_isSpace (hspaces b List.mem_cons_self)) _

lemma lexed_of_spaces {s : List Char} (h : ∀ c ∈ s, isSpace c = true) : Lexed s := by
  induction s with
  | nil => exact .nil
  | cons c s ih =>
    obtain ⟨hc, hs⟩ := List.forall_mem_cons.mp h
    exact .mark (isMark_of_isSpace hc) (ih hs)

lemma Lexed.of_skipSpaces {s : List Char} (h : Lexed (skipSpaces s)) : Lexed s := by
  induction s with
  | nil => exact .nil
  | cons c s ih =>
    cases hc : isSpace c with
    | true =>
      rw [skipSpaces, List.dropWhile_cons_of_pos hc] at h
      exact .mark (isMark_of_isSpace hc) (ih h)
    | false => rwa [skipSpaces, List.dropWhile_cons_of_neg (by simp [hc])] at h

/-- The closing quote is the last character that a string takes. -/
lemma exists_raw_of_stringChars? {fuel : Nat} {done s chars rest : List Char}
    (h : stringChars? fuel done s = some (chars, rest)) : ∃ raw, s = raw ++ '"' :: rest := by
  fun_induction stringChars? fuel done s with
  | case1 => cases h
  | case2 => cases h
  | case3 fuel done c rest' hquote =>
    obtain ⟨-, rfl⟩ := Prod.mk.inj (Option.some.inj h)
    exact ⟨[], by rw [eq_of_beq hquote, List.nil_append]⟩
  | case4 fuel done c rest₁ hquote hback e rest₂ he ih =>
    obtain ⟨raw, rfl⟩ := ih h
    obtain ⟨escape, rfl, -⟩ := isLocal_escape? he
    exact ⟨c :: (escape ++ raw), by simp⟩
  | case5 => cases h
  | case6 => cases h
  | case7 fuel done c rest₁ hquote hback hcontrol ih =>
    obtain ⟨raw, rfl⟩ := ih h
    exact ⟨c :: raw, rfl⟩

lemma exists_isStringBody {s rest : List Char} {name : String}
    (h : stringBody? s = some (name, rest)) : ∃ raw, s = raw ++ '"' :: rest ∧ IsStringBody raw := by
  obtain ⟨⟨chars, rest'⟩, hchars, heq⟩ := Option.map_eq_some_iff.mp h
  obtain ⟨-, rfl⟩ := Prod.mk.inj heq
  obtain ⟨raw, hraw⟩ := exists_raw_of_stringChars? hchars
  obtain ⟨front, hfront, htakes⟩ := isLocal_stringBody? h
  obtain rfl : front = raw ++ ['"'] := by
    apply (List.append_left_inj rest').mp
    rw [← hfront, hraw, List.append_assoc]
    rfl
  refine ⟨raw, hraw, name, ?_⟩
  rw [← List.append_nil (raw ++ ['"'])]
  exact htakes.reads [] trivial

lemma IsStringBody.stringBody? {raw : List Char} (h : IsStringBody raw) :
    ∃ name, ∀ rest, Json.stringBody? (raw ++ '"' :: rest) = some (name, rest) := by
  obtain ⟨name, hname⟩ := h
  obtain ⟨front, hfront, htakes⟩ := isLocal_stringBody? hname
  rw [List.append_nil] at hfront
  refine ⟨name, fun rest => ?_⟩
  rw [← List.singleton_append, ← List.append_assoc, hfront]
  exact htakes.reads rest trivial

/-- A string ends in one place only. -/
lemma IsStringBody.unique {raw raw' s s' : List Char} (h : IsStringBody raw)
    (h' : IsStringBody raw') (heq : raw ++ '"' :: s = raw' ++ '"' :: s') : raw = raw' ∧ s = s' := by
  obtain ⟨name, hread⟩ := h.stringBody?
  obtain ⟨name', hread'⟩ := h'.stringBody?
  have hboth := hread s
  rw [heq, hread' s'] at hboth
  obtain ⟨-, rfl⟩ := Prod.mk.inj (Option.some.inj hboth)
  exact ⟨List.append_cancel_right heq, rfl⟩

variable {α : Type}

/-- What the reader takes is made of marks, strings and scalars if what it leaves is so, provided
that a scalar ends before that. -/
def TakesLexemes (read : Reader α) : Prop :=
  ∀ ⦃s x rest⦄, read s = some (x, rest) → EndsScalar rest → Lexed rest → Lexed s

lemma takesLexemes_scalar? : TakesLexemes scalar? := by
  intro s x rest h hends hrest
  unfold scalar? at h
  split at h
  case h_1 =>
    obtain ⟨-, rfl⟩ := Prod.mk.inj (Option.some.inj h)
    exact .null hends hrest
  case h_2 =>
    obtain ⟨-, rfl⟩ := Prod.mk.inj (Option.some.inj h)
    exact .plain (List.all_eq_true.mp (show "true".toList.all isPlainChar = true by decide)) hends
      hrest
  case h_3 =>
    obtain ⟨-, rfl⟩ := Prod.mk.inj (Option.some.inj h)
    exact .plain (List.all_eq_true.mp (show "false".toList.all isPlainChar = true by decide)) hends
      hrest
  case h_4 s' =>
    obtain ⟨⟨name, rest'⟩, hname, heq⟩ := Option.map_eq_some_iff.mp h
    obtain ⟨-, rfl⟩ := Prod.mk.inj heq
    obtain ⟨raw, rfl, hraw⟩ := exists_isStringBody hname
    exact .string hraw hrest
  case h_5 =>
    obtain ⟨c, front, rfl, -, hchars, -⟩ := number?_local h
    refine .plain (fun d hd => ?_) hends hrest
    rw [isPlainChar, hchars d hd, Bool.true_or]

section Enclosed

variable {close : Char} {element : Reader α}

lemma lexed_of_separated? (hclose : isMark close = true) (helement : TakesLexemes element)
    {fuel : Nat} {s rest : List Char} {xs : List α}
    (h : separated? close element fuel s = some (xs, rest)) (hrest : Lexed rest) : Lexed s := by
  -- the rest of an element begins with the mark behind its spaces
  have hfirst : ∀ {s rest₁ rest₂ x c}, element s = some (x, rest₁) →
      skipSpaces rest₁ = c :: rest₂ → isMark c = true → Lexed rest₂ → Lexed s := by
    intro s rest₁ rest₂ x c hx hspaces hc hlexed
    refine helement hx (endsScalar_of_skipSpaces hspaces hc) (Lexed.of_skipSpaces ?_)
    rw [hspaces]
    exact .mark hc hlexed
  fun_induction separated? close element fuel s generalizing xs with
  | case1 => cases h
  | case2 => cases h
  | case3 s fuel x rest₁ hx rest₂ hspaces ih =>
    obtain ⟨⟨xs', rest₃⟩, hxs, heq⟩ := Option.map_eq_some_iff.mp h
    obtain ⟨-, rfl⟩ := Prod.mk.inj heq
    exact hfirst hx hspaces rfl (ih hxs)
  | case4 s fuel x rest₁ hx rest₂ hspaces hcomma =>
    obtain ⟨-, rfl⟩ := Prod.mk.inj (Option.some.inj h)
    exact hfirst hx hspaces hclose hrest
  | case5 => cases h
  | case6 => cases h

lemma lexed_of_enclosed? (hclose : isMark close = true) (helement : TakesLexemes element)
    {s rest : List Char} {xs : List α} (h : enclosed? close element s = some (xs, rest))
    (hrest : Lexed rest) : Lexed s := by
  apply Lexed.of_skipSpaces
  unfold enclosed? at h
  split at h
  · rename_i c rest₁ hspaces
    rw [hspaces]
    split at h
    · rename_i hc
      obtain ⟨-, rfl⟩ := Prod.mk.inj (Option.some.inj h)
      exact .mark (hc ▸ hclose) hrest
    · exact lexed_of_separated? hclose helement h hrest
  · cases h

end Enclosed

lemma takesLexemes_member? {value : Reader Json} (hvalue : TakesLexemes value) :
    TakesLexemes (member? value) := by
  intro s p rest h hends hrest
  apply Lexed.of_skipSpaces
  unfold member? at h
  split at h
  · rename_i rest₁ hquote
    rw [hquote]
    split at h
    · cases h
    · rename_i name rest₂ hname
      obtain ⟨raw, rfl, hraw⟩ := exists_isStringBody hname
      refine .string hraw (Lexed.of_skipSpaces ?_)
      split at h
      · rename_i rest₃ hcolon
        obtain ⟨⟨x, rest₄⟩, hx, heq⟩ := Option.map_eq_some_iff.mp h
        obtain ⟨-, rfl⟩ := Prod.mk.inj heq
        rw [hcolon]
        exact .mark rfl (hvalue hx hends hrest)
      · cases h
  · cases h

lemma lexed_of_value? (depth : Nat) : TakesLexemes (value? depth) := by
  induction depth with
  | zero =>
    intro s x rest h hends hrest
    exact Lexed.of_skipSpaces (takesLexemes_scalar? h hends hrest)
  | succ depth ih =>
    intro s x rest h hends hrest
    apply Lexed.of_skipSpaces
    rw [value?] at h
    split at h
    · rename_i rest₁ hspaces
      rw [arrayBody?_eq_enclosed?] at h
      obtain ⟨⟨items, rest₂⟩, hitems, heq⟩ := Option.map_eq_some_iff.mp h
      obtain ⟨-, rfl⟩ := Prod.mk.inj heq
      rw [hspaces]
      exact .mark rfl (lexed_of_enclosed? rfl ih hitems hrest)
    · rename_i rest₁ hspaces
      rw [objectBody?_eq_enclosed?] at h
      obtain ⟨⟨members, rest₂⟩, hmembers, heq⟩ := Option.map_eq_some_iff.mp h
      obtain ⟨-, rfl⟩ := Prod.mk.inj heq
      rw [hspaces]
      exact .mark rfl (lexed_of_enclosed? rfl (takesLexemes_member? ih) hmembers hrest)
    · exact takesLexemes_scalar? h hends hrest

/-- JSON text is a sequence of marks, strings and scalars. -/
theorem lexed_of_parseChars? {s : List Char} {x : Json} (h : parseChars? s = some x) : Lexed s := by
  obtain ⟨front, rest, rfl, htakes, hrest⟩ := parseChars?_eq_some_iff.mp h
  have hread := htakes.reads rest (stopsNumber_of_spaces hrest)
  exact lexed_of_value? maxNesting hread (endsScalar_of_spaces hrest) (lexed_of_spaces hrest)

end Json

end ImageRecipe
