import ImageRecipe.Text.Class
import ImageRecipe.Text.Search
import Mathlib.Data.List.Basic
import Mathlib.Data.List.TakeWhile
import Mathlib.Tactic.Common

/-!
# Texts between blanks

A text that is visible at both ends is what trimming leaves of it, whatever
blanks stand around it. A blank is no part of a word, and finding a word at the
front of a text does not look at blanks behind it.
-/
namespace ImageRecipe.Text

def StartsVisibly (s : List Char) : Prop := ∃ c ∈ s.head?, isBlank c = false

def EndsVisibly (s : List Char) : Prop := ∃ c ∈ s.getLast?, isBlank c = false

lemma endsVisibly_singleton {c : Char} (hc : isBlank c = false) : EndsVisibly [c] :=
  ⟨c, rfl, hc⟩

lemma EndsVisibly.append {s : List Char} (hs : EndsVisibly s) (front : List Char) :
    EndsVisibly (front ++ s) := by
  obtain ⟨c, hc, hvisible⟩ := hs
  refine ⟨c, ?_, hvisible⟩
  rw [List.getLast?_append, Option.mem_def.mp hc]
  rfl

lemma StartsVisibly.append {s : List Char} (hs : StartsVisibly s) (after : List Char) :
    StartsVisibly (s ++ after) := by
  obtain ⟨c, hc, hvisible⟩ := hs
  refine ⟨c, ?_, hvisible⟩
  rw [List.head?_append, Option.mem_def.mp hc]
  rfl

lemma EndsVisibly.cons {s : List Char} (hs : EndsVisibly s) (c : Char) : EndsVisibly (c :: s) :=
  hs.append [c]

lemma EndsVisibly.ne_nil {s : List Char} (hs : EndsVisibly s) : s ≠ [] := by
  rintro rfl
  obtain ⟨c, hc, -⟩ := hs
  cases hc

lemma EndsVisibly.of_append {x y : List Char} (h : EndsVisibly (x ++ y)) (hy : y ≠ []) :
    EndsVisibly y := by
  obtain ⟨c, hc, hvisible⟩ := h
  refine ⟨c, ?_, hvisible⟩
  rw [Option.mem_def, List.getLast?_append, List.getLast?_eq_some_getLast hy, Option.some_or] at hc
  rw [Option.mem_def, List.getLast?_eq_some_getLast hy, hc]

lemma endsVisibly_of_forall {s : List Char} (hne : s ≠ []) (hs : ∀ c ∈ s, isBlank c = false) :
    EndsVisibly s :=
  ⟨s.getLast hne, List.getLast?_eq_some_getLast hne, hs _ (List.getLast_mem hne)⟩

lemma startsVisibly_of_forall {s : List Char} (hne : s ≠ []) (hs : ∀ c ∈ s, isBlank c = false) :
    StartsVisibly s :=
  ⟨s.head hne, List.head?_eq_some_head hne, hs _ (List.head_mem hne)⟩

lemma EndsVisibly.eq_nil_of_blanks {x y : List Char} (h : EndsVisibly (x ++ y))
    (hy : ∀ c ∈ y, isBlank c = true) : y = [] := by
  by_contra hne
  obtain ⟨c, hc, hvisible⟩ := h.of_append hne
  rw [hy c (List.mem_of_getLast? hc)] at hvisible
  cases hvisible

/-- Two ways to split a text into a part that ends visibly and blanks are one. -/
lemma eq_of_append_blanks_eq {x y a b : List Char} (hx : EndsVisibly x) (hy : EndsVisibly y)
    (ha : ∀ c ∈ a, isBlank c = true) (hb : ∀ c ∈ b, isBlank c = true) (h : x ++ a = y ++ b) :
    x = y ∧ a = b := by
  -- what one front has more than the other is blank, and yet ends visibly unless it is empty
  rcases List.append_eq_append_iff.mp h with ⟨d, rfl, rfl⟩ | ⟨d, rfl, rfl⟩
  · obtain rfl := hy.eq_nil_of_blanks fun c hc => ha c (List.mem_append_left b hc)
    simp
  · obtain rfl := hx.eq_nil_of_blanks fun c hc => hb c (List.mem_append_left a hc)
    simp

lemma trimStart_of_startsVisibly {s : List Char} (hs : StartsVisibly s) : trimStart s = s := by
  obtain ⟨c, hc, hvisible⟩ := hs
  cases s with
  | nil => cases hc
  | cons d s =>
    obtain rfl : d = c := Option.some.inj hc
    exact List.dropWhile_cons_of_neg (by simp [hvisible])

lemma trimEnd_eq (s : List Char) : trimEnd s = (trimStart s.reverse).reverse := rfl

lemma endsVisibly_iff_startsVisibly_reverse {s : List Char} :
    EndsVisibly s ↔ StartsVisibly s.reverse := by
  rw [EndsVisibly, StartsVisibly, List.head?_reverse]

/-- Trimming ends at what begins visibly. -/
lemma trimStart_append {s : List Char} (hs : StartsVisibly s) (front : List Char) :
    trimStart (front ++ s) = trimStart front ++ s := by
  rw [trimStart, List.dropWhile_append]
  split
  · rename_i hblank
    rw [trimStart, List.isEmpty_iff.mp hblank, List.nil_append]
    exact trimStart_of_startsVisibly hs
  · rfl

lemma exists_trimEnd_append (s : List Char) : ∃ trailing, s = trimEnd s ++ trailing := by
  refine ⟨(s.reverse.takeWhile isBlank).reverse, ?_⟩
  rw [trimEnd_eq, trimStart, ← List.reverse_append, List.takeWhile_append_dropWhile,
    List.reverse_reverse]

lemma trimStart_blanks_append {blanks s : List Char} (hblanks : ∀ c ∈ blanks, isBlank c = true)
    (hs : StartsVisibly s) : trimStart (blanks ++ s) = s := by
  rw [trimStart, List.dropWhile_append_of_pos hblanks, ← trimStart, trimStart_of_startsVisibly hs]

lemma trimEnd_append {s : List Char} (hs : EndsVisibly s) (after : List Char) :
    trimEnd (s ++ after) = s ++ trimEnd after := by
  rw [trimEnd_eq, List.reverse_append,
    trimStart_append (endsVisibly_iff_startsVisibly_reverse.mp hs), List.reverse_append,
    List.reverse_reverse, trimEnd_eq]

/-- Trimming a text that is visible at both ends and has blanks around it. -/
lemma trim_surrounded {before core after : List Char}
    (hbefore : ∀ c ∈ before, isBlank c = true) (hafter : ∀ c ∈ after, isBlank c = true)
    (hstarts : StartsVisibly core) (hends : EndsVisibly core) :
    trim (before ++ core ++ after) = core := by
  have hfront : trimStart (before ++ core ++ after) = core ++ after := by
    rw [List.append_assoc]
    refine trimStart_blanks_append hbefore ?_
    obtain ⟨c, hc, hvisible⟩ := hstarts
    exact ⟨c, by simp [Option.mem_def.mp hc], hvisible⟩
  have hback : ∀ c ∈ after.reverse, isBlank c = true := fun c hc =>
    hafter c (List.mem_reverse.mp hc)
  rw [trim, hfront, trimEnd_eq, List.reverse_append, trimStart, List.dropWhile_append_of_pos hback]
  rw [← trimStart, trimStart_of_startsVisibly (endsVisibly_iff_startsVisibly_reverse.mp hends),
    List.reverse_reverse]

lemma trim_blanks_append {blanks s : List Char} (hblanks : ∀ c ∈ blanks, isBlank c = true)
    (hstarts : StartsVisibly s) (hends : EndsVisibly s) : trim (blanks ++ s) = s := by
  have h := trim_surrounded hblanks (List.forall_mem_nil _) hstarts hends
  rwa [List.append_nil] at h

lemma trim_of_visible {s : List Char} (hstarts : StartsVisibly s) (hends : EndsVisibly s) :
    trim s = s := trim_blanks_append (List.forall_mem_nil _) hstarts hends

lemma exists_blanks_before {s : List Char} (hs : ∃ c ∈ s, isBlank c = false) :
    ∃ before core, s = before ++ core ∧ (∀ c ∈ before, isBlank c = true) ∧ StartsVisibly core := by
  induction s with
  | nil => simp at hs
  | cons d s ih =>
    cases hd : isBlank d with
    | false => exact ⟨[], d :: s, rfl, by simp, d, rfl, hd⟩
    | true =>
      have hs' : ∃ c ∈ s, isBlank c = false := by
        obtain ⟨c, hc, hvisible⟩ := hs
        rcases List.mem_cons.mp hc with rfl | hc
        · rw [hd] at hvisible
          cases hvisible
        · exact ⟨c, hc, hvisible⟩
      obtain ⟨before, core, rfl, hbefore, hcore⟩ := ih hs'
      exact ⟨d :: before, core, rfl, List.forall_mem_cons.mpr ⟨hd, hbefore⟩, hcore⟩

/-- A text with something visible in it is what trimming leaves, between blanks. -/
lemma exists_blanks_around_trim {s : List Char} (hs : ∃ c ∈ s, isBlank c = false) :
    ∃ before after, s = before ++ trim s ++ after ∧ (∀ c ∈ before, isBlank c = true) ∧
      (∀ c ∈ after, isBlank c = true) ∧ StartsVisibly (trim s) ∧ EndsVisibly (trim s) := by
  obtain ⟨before, rest, rfl, hbefore, hstarts⟩ := exists_blanks_before hs
  obtain ⟨c, hc, hvisible⟩ := hstarts
  have hrest : ∃ c ∈ rest.reverse, isBlank c = false :=
    ⟨c, List.mem_reverse.mpr (List.mem_of_mem_head? hc), hvisible⟩
  obtain ⟨after, core, hcore, hafter, hends⟩ := exists_blanks_before hrest
  obtain rfl : rest = core.reverse ++ after.reverse := by
    rw [← List.reverse_append, ← hcore, List.reverse_reverse]
  have hends' : EndsVisibly core.reverse := by
    rwa [endsVisibly_iff_startsVisibly_reverse, List.reverse_reverse]
  have hstarts' : StartsVisibly core.reverse := by
    refine ⟨c, ?_, hvisible⟩
    rwa [List.head?_append_of_ne_nil _ hends'.ne_nil] at hc
  have hafter' : ∀ c ∈ after.reverse, isBlank c = true := fun c hc =>
    hafter c (List.mem_reverse.mp hc)
  rw [← List.append_assoc, trim_surrounded hbefore hafter' hstarts' hends']
  exact ⟨before, after.reverse, rfl, hbefore, hafter', hstarts', hends'⟩

/-- What trimming leaves as it is is visible at both ends, unless it is empty. -/
lemma visible_of_trim_eq {s : List Char} (h : trim s = s) (hne : s ≠ []) :
    StartsVisibly s ∧ EndsVisibly s := by
  by_cases hs : ∃ c ∈ s, isBlank c = false
  · obtain ⟨-, -, -, -, -, hstarts, hends⟩ := exists_blanks_around_trim hs
    rw [h] at hstarts hends
    exact ⟨hstarts, hends⟩
  · have hblank : trimStart s = [] := List.dropWhile_eq_nil_iff.mpr fun c hc => by
      by_contra hvisible
      exact hs ⟨c, hc, by simpa using hvisible⟩
    rw [trim, hblank] at h
    exact absurd h.symm hne

/-- Blanks behind a text that trimming leaves as it is, which may be empty. -/
lemma trim_append_of_trim_eq {s after : List Char} (h : trim s = s)
    (hafter : ∀ c ∈ after, isBlank c = true) : trim (s ++ after) = s := by
  by_cases hs : s = []
  · subst hs
    rw [List.nil_append, trim, trimStart, List.dropWhile_eq_nil_iff.mpr hafter]
    rfl
  · obtain ⟨hstarts, hends⟩ := visible_of_trim_eq h hs
    exact trim_surrounded (List.forall_mem_nil _) hafter hstarts hends

lemma trim_toList_of_trimmed_eq {s : String} (h : trimmed s = s) : trim s.toList = s.toList := by
  have hchars := congrArg String.toList h
  rwa [trimmed, String.toList_ofList] at hchars

/-- Blanks around a text with something visible in it do not matter to trimming. -/
lemma trim_append_blanks {before s after : List Char} (hs : ∃ c ∈ s, isBlank c = false)
    (hbefore : ∀ c ∈ before, isBlank c = true) (hafter : ∀ c ∈ after, isBlank c = true) :
    trim (before ++ s ++ after) = trim s := by
  obtain ⟨first, last, hsplit, hfirst, hlast, hstarts, hends⟩ := exists_blanks_around_trim hs
  have hall : before ++ s ++ after = (before ++ first) ++ trim s ++ (last ++ after) := by
    conv_lhs => rw [hsplit]
    simp only [List.append_assoc]
  rw [hall]
  refine trim_surrounded ?_ ?_ hstarts hends
  · exact fun c hc => (List.mem_append.mp hc).elim (hbefore c) (hfirst c)
  · exact fun c hc => (List.mem_append.mp hc).elim (hlast c) (hafter c)

/-- The code points with the property White_Space. -/
def blankCodes : List Nat :=
  [9, 10, 11, 12, 13, 0x20, 0x85, 0xA0, 0x1680, 0x2000, 0x2001, 0x2002, 0x2003, 0x2004, 0x2005,
    0x2006, 0x2007, 0x2008, 0x2009, 0x200A, 0x2028, 0x2029, 0x202F, 0x205F, 0x3000]

lemma toNat_mem_blankCodes {c : Char} (h : isBlank c = true) : c.toNat ∈ blankCodes := by
  simp only [isBlank, Bool.or_eq_true, Bool.and_eq_true, decide_eq_true_eq, beq_iff_eq] at h
  simp only [blankCodes, List.mem_cons, List.not_mem_nil, or_false]
  omega

lemma isBlank_of_isAlphanum {c : Char} (h : c.isAlphanum = true) : isBlank c = false := by
  by_contra hblank
  have hall : ∀ n ∈ blankCodes, (Char.ofNat n).isAlphanum = false := by decide +kernel
  have hnot := hall _ (toNat_mem_blankCodes (by simpa using hblank))
  rw [Char.ofNat_toNat, h] at hnot
  cases hnot

lemma isBlank_of_isDigit {c : Char} (h : c.isDigit = true) : isBlank c = false := by
  have halphanum : (c.isAlpha || c.isDigit) = true := by rw [h, Bool.or_true]
  exact isBlank_of_isAlphanum halphanum

lemma isWordChar_of_isBlank {c : Char} (h : isBlank c = true) : isWordChar c = false := by
  have hall : ∀ n ∈ blankCodes, isWordChar (Char.ofNat n) = false := by decide +kernel
  rw [← Char.ofNat_toNat c]
  exact hall _ (toNat_mem_blankCodes h)

lemma after?_append_blanks {word s after : List Char} (hword : ∀ c ∈ word, isBlank c = false)
    (hafter : ∀ c ∈ after, isBlank c = true) :
    after? word (s ++ after) = (after? word s).map (· ++ after) := by
  induction word generalizing s with
  | nil => rfl
  | cons c word ih =>
    cases s with
    | nil =>
      cases after with
      | nil => rfl
      | cons d after =>
        have hne : (c == d) = false := by
          rw [beq_eq_false_iff_ne]
          rintro rfl
          have hd := hafter c List.mem_cons_self
          rw [hword c List.mem_cons_self] at hd
          cases hd
        simp only [List.nil_append, after?, hne, Bool.false_eq_true, if_false, Option.map_none]
    | cons d s =>
      simp only [List.cons_append, after?]
      split
      · exact ih fun e he => hword e (List.mem_cons_of_mem c he)
      · rfl

end ImageRecipe.Text
