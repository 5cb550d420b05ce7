import ImageRecipe.Dialect.Gleaning
import ImageRecipe.Proofs.FirstPlaces

/-!
# Numbers gleaned from growing texts

A number is gleaned from the first place of its label that has one behind it. No
number reads on behind a line end or behind the letter that its label begins
with, so a text says the numbers that it says alone also if more lines follow.
-/
namespace ImageRecipe.Gleaning

open Text

section Readers

variable {stop : Char}

lemma stopsAt_digitRun? (hstop : isDecimalDigit stop = false) : StopsAt stop digitRun? :=
  stopsAt_run? hstop

lemma stopsAt_decimalRun? (hstop : (isDecimalDigit stop || stop == '.') = false) :
    StopsAt stop decimalRun? :=
  stopsAt_run? hstop

lemma signedRun?_of_ne {c : Char} (hc : c ≠ '-') (s : List Char) :
    signedRun? (c :: s) = digitRun? (c :: s) := by
  unfold signedRun?
  split
  · simp_all
  · rfl

lemma stopsAt_signedRun? (hstop : isDecimalDigit stop = false) (hminus : stop ≠ '-') :
    StopsAt stop signedRun? := by
  intro s after
  cases s with
  | nil => exact (signedRun?_of_ne hminus after).trans (stopsAt_digitRun? hstop [] after)
  | cons c s =>
    by_cases hc : c = '-'
    · subst hc
      exact congrArg (Option.map ('-' :: ·)) (stopsAt_digitRun? hstop s after)
    · rw [signedRun?_of_ne hc, List.cons_append, signedRun?_of_ne hc]
      exact stopsAt_digitRun? hstop (c :: s) after

lemma stopsAt_pairRun? {between : Char} (hstop : isDecimalDigit stop = false)
    (hbetween : stop ≠ between) : StopsAt stop (pairRun? between) := by
  intro s after
  unfold pairRun?
  rw [run?_append_of_stop hstop]
  cases run? isDecimalDigit s with
  | none => rfl
  | some halves =>
    obtain ⟨first, rest⟩ := halves
    cases rest with
    | nil => simp [hbetween]
    | cons c rest => simp [stopsAt_digitRun? hstop rest after]

end Readers

lemma stopsAt_behindBlanks? {α : Type} {read : List Char → Option α} {stop : Char}
    (h : StopsAt stop read) (hstop : isBlank stop = false) : StopsAt stop (behindBlanks? read) := by
  intro s after
  rw [behindBlanks?, run?_append_of_stop hstop, Option.bind_map]
  exact Option.bind_congr fun halves _ => h halves.2 after

lemma staysBefore_behindBlanks? {α : Type} {read : List Char → Option α} {stop : Char}
    (h : StopsAt stop read) (hnil : read [] = none) : StaysBefore stop (behindBlanks? read) := by
  intro s a after hs
  obtain ⟨⟨blanks, rest⟩, hrun, hread⟩ := Option.bind_eq_some_iff.mp hs
  have hne : rest ≠ [] := by
    rintro rfl
    rw [hnil] at hread
    cases hread
  rw [behindBlanks?, run?_append_of_ne_nil hrun hne, Option.bind_some, h]
  exact hread

lemma staysBefore_aspectFlag? : StaysBefore '\n' (firstAt? aspectFlag?) := by
  have hline : StopsAt '\n' (pairRun? ':') := stopsAt_pairRun? (by decide) (by decide)
  have hdash : StopsAt '-' (pairRun? ':') := stopsAt_pairRun? (by decide) (by decide)
  have hborder : Unbordered "--ar".toList := by decide
  exact (staysBefore_behindBlanks? hline rfl).firstPlace hborder
    (stopsAt_behindBlanks? hdash (by decide))

/-- Every number that a recipe says, and the ratio of the sides, another recipe says too. -/
structure KeepsNumbers (r r' : Recipe) : Prop where
  steps : ∀ n ∈ r.steps, n ∈ r'.steps
  cfg : ∀ x ∈ r.cfg, x ∈ r'.cfg
  seed : ∀ seed ∈ r.seed, seed ∈ r'.seed
  width : ∀ n ∈ r.width, n ∈ r'.width
  height : ∀ n ∈ r.height, n ∈ r'.height
  aspectRatio : ∀ ratio ∈ r.extra["aspect_ratio"]?, ratio ∈ r'.extra["aspect_ratio"]?

lemma KeepsNumbers.refl (r : Recipe) : KeepsNumbers r r := by
  constructor <;> intro _ h <;> exact h

lemma getElem?_aspectRatio_recipe (text : String) (family : Family) :
    (recipe text family).extra["aspect_ratio"]? =
      (firstAt? aspectFlag? text.toList).bind fun ratio =>
        some (String.ofList (ratio.1 ++ ':' :: ratio.2)) := by
  simp only [recipe]
  cases firstAt? aspectFlag? text.toList <;> simp [TextMap.ofEntries]

/-- A text that is followed by more lines says the numbers that it says alone. -/
lemma keepsNumbers_append_line (text more : String) (family : Family) :
    KeepsNumbers (recipe text family) (recipe (text ++ "\n" ++ more) family) := by
  have hchars : (text ++ "\n" ++ more).toList = text.toList ++ '\n' :: more.toList := by
    simp [String.toList_append]
  have hsteps : StaysBefore '\n' (firstAt? (labelled? "Steps:" digitRun?)) :=
    staysBefore_labelled? rfl (by decide) (by decide) (stopsAt_digitRun? (by decide))
      (stopsAt_digitRun? (by decide)) rfl
  have hcfg : StaysBefore '\n' (firstAt? (labelled? "CFG scale:" decimalRun?)) :=
    staysBefore_labelled? rfl (by decide) (by decide) (stopsAt_decimalRun? (by decide))
      (stopsAt_decimalRun? (by decide)) rfl
  have hseed : StaysBefore '\n' (firstAt? (labelled? "Seed:" signedRun?)) :=
    staysBefore_labelled? rfl (by decide) (by decide)
      (stopsAt_signedRun? (by decide) (by decide)) (stopsAt_signedRun? (by decide) (by decide)) rfl
  have hsize : StaysBefore '\n' (firstAt? (labelled? "Size:" (pairRun? 'x'))) :=
    staysBefore_labelled? rfl (by decide) (by decide)
      (stopsAt_pairRun? (by decide) (by decide)) (stopsAt_pairRun? (by decide) (by decide)) rfl
  constructor
  case aspectRatio =>
    intro ratio hratio
    rw [Option.mem_def, getElem?_aspectRatio_recipe] at hratio ⊢
    rw [hchars]
    exact staysBefore_aspectFlag?.bind _ _ _ _ hratio
  all_goals
    intro x hx
    dsimp only [recipe] at hx ⊢
    rw [hchars]
  case steps => exact hsteps.bind _ _ _ _ hx
  case cfg => exact hcfg.bind _ _ _ _ hx
  case seed => exact hseed.bind _ _ _ _ hx
  case width => exact hsize.bind _ _ _ _ hx
  case height => exact hsize.bind _ _ _ _ hx

lemma keepsNumbers_empty (r : Recipe) (family : Family) : KeepsNumbers (recipe "" family) r := by
  have haspect : (recipe "" family).extra["aspect_ratio"]? = none :=
    getElem?_aspectRatio_recipe "" family
  constructor
  case aspectRatio =>
    rw [haspect]
    intro _ h
    cases h
  all_goals
    intro _ h
    cases h

/-- The first number counts, whatever lines follow: a text with more lines behind it still says
the numbers and the ratio that it says alone. So the texts of later keywords never change what is
gleaned from the first few. -/
theorem firstNumbers_count (family : Family) :
    (∀ text more : String,
      KeepsNumbers (recipe text family) (recipe (text ++ "\n" ++ more) family)) ∧
    ∀ (chunks : TextMap) (n : Nat),
      KeepsNumbers (recipe ("\n".intercalate ((chunks.toList.take n).map Prod.snd)) family)
        (recipe (joinedTexts chunks) family) := by
  refine ⟨fun text more => keepsNumbers_append_line text more family, fun chunks n => ?_⟩
  have hsplit : chunks.toList.map Prod.snd =
      (chunks.toList.take n).map Prod.snd ++ (chunks.toList.drop n).map Prod.snd := by
    rw [← List.map_append, List.take_append_drop]
  rw [joinedTexts, hsplit]
  by_cases hnone : (chunks.toList.take n).map Prod.snd = []
  · rw [hnone, String.intercalate_nil]
    exact keepsNumbers_empty _ family
  · by_cases hall : (chunks.toList.drop n).map Prod.snd = []
    · rw [hall, List.append_nil]
      exact KeepsNumbers.refl _
    · rw [String.intercalate_append_of_ne_nil hnone hall]
      exact keepsNumbers_append_line _ _ family

/-- A label with nothing behind it may still get its number from the next line. -/
example : (recipe "Steps:" .unknown).steps = none ∧
    (recipe "Steps:\n20" .unknown).steps = some 20 := by
  decide +kernel

end ImageRecipe.Gleaning
