import ImageRecipe.Proofs.VisibleEnds
import Mathlib.Data.List.Basic
import Mathlib.Data.List.Induction

/-!
# The lines of a text

Cutting is `List.splitOnP`, and the pieces between line feeds are
`List.splitOn '\n'`. The lines of a text are those of its front up to a line
feed and those of what follows it. A front that ends visibly only makes the
first line of what follows longer.
-/
namespace ImageRecipe.Text

lemma split_eq_splitOnP (p : Char → Bool) (s : List Char) : split p s = s.splitOnP p := by
  induction s with
  | nil => exact List.splitOnP_nil.symm
  | cons c s ih =>
    rw [split, List.splitOnP_cons_eq_if_modifyHead, ih]
    split
    · rfl
    · obtain ⟨piece, rest, hsplit⟩ := List.exists_cons_of_ne_nil (List.splitOnP_ne_nil p s)
      rw [hsplit]
      rfl

lemma split_lineFeed (s : List Char) : split (· == '\n') s = s.splitOn '\n' := by
  rw [split_eq_splitOnP, List.splitOn_eq_splitOnP]

/-- What has no line feed makes the first piece longer. -/
lemma splitOn_append_of_notMem {front : List Char} (h : '\n' ∉ front) (s : List Char) :
    (front ++ s).splitOn '\n' = (s.splitOn '\n').modifyHead (front ++ ·) := by
  obtain ⟨piece, rest, hsplit⟩ := List.exists_cons_of_ne_nil (List.splitOn_ne_nil '\n' s)
  rw [hsplit]
  induction front with
  | nil => exact hsplit
  | cons c front ih =>
    have hne : (c == '\n') = false :=
      beq_eq_false_iff_ne.mpr (Ne.symm (List.ne_of_not_mem_cons h))
    rw [List.splitOn_eq_splitOnP] at ih ⊢
    rw [List.cons_append, List.splitOnP_cons_eq_if_modifyHead, hne,
      ih (List.not_mem_of_not_mem_cons h)]
    rfl

lemma mem_of_mem_splitOn {s piece : List Char} {c : Char} (hpiece : piece ∈ s.splitOn '\n')
    (hc : c ∈ piece) : c ∈ s := by
  have hjoined : List.intercalate ['\n'] (s.splitOn '\n') = s := List.intercalate_splitOn '\n'
  rw [← hjoined]
  generalize s.splitOn '\n' = pieces at hpiece
  induction pieces with
  | nil => cases hpiece
  | cons first rest ih =>
    cases rest with
    | nil =>
      rw [List.mem_singleton.mp hpiece] at hc
      rwa [List.intercalate_singleton]
    | cons second rest =>
      rw [List.intercalate_cons_cons, List.mem_append, List.mem_append]
      rcases List.mem_cons.mp hpiece with rfl | hmem
      · exact Or.inl (Or.inl hc)
      · exact Or.inr (ih hmem)

lemma chompReturn_of_notMem {line : List Char} (h : '\r' ∉ line) : chompReturn line = line := by
  rw [chompReturn, if_neg fun hlast => h (List.mem_of_getLast? hlast)]

lemma map_chompReturn_splitOn {s : List Char} (h : '\r' ∉ s) :
    (s.splitOn '\n').map chompReturn = s.splitOn '\n' := by
  refine (List.map_congr_left fun line hline => ?_).trans (List.map_id _)
  exact chompReturn_of_notMem fun hc => h (mem_of_mem_splitOn hline hc)

lemma chompReturn_append {front line : List Char} (h : EndsVisibly front) :
    chompReturn (front ++ line) = front ++ chompReturn line := by
  cases line with
  | nil =>
    obtain ⟨c, hc, hvisible⟩ := h
    have hne : front.getLast? ≠ some '\r' := fun hlast => by
      rw [Option.mem_def, hlast, Option.some.injEq] at hc
      subst hc
      cases hvisible
    simp [chompReturn, hne]
  | cons c rest =>
    have hlast : (front ++ c :: rest).getLast? = (c :: rest).getLast? := by
      rw [List.getLast?_append, List.getLast?_cons, Option.some_or]
    rw [chompReturn, chompReturn, hlast]
    split
    · exact List.dropLast_append_of_ne_nil (List.cons_ne_nil c rest)
    · rfl

lemma lines_eq (s : List Char) : lines s = linesOf (s.splitOn '\n') := by
  rw [lines, split_lineFeed]

lemma linesOf_append {back : List (List Char)} (hback : back ≠ []) (front : List (List Char)) :
    linesOf (front ++ back) = front.map chompReturn ++ linesOf back := by
  induction front with
  | nil => rfl
  | cons line front ih =>
    obtain ⟨next, rest, hnext⟩ := List.exists_cons_of_ne_nil
      (List.append_ne_nil_of_right_ne_nil front hback)
    rw [List.cons_append, hnext, linesOf, ← hnext, ih, List.map_cons, List.cons_append]
    exact List.cons_ne_nil next rest

/-- The lines of a text up to a line feed, and those behind it. -/
lemma lines_append (before after : List Char) : lines (before ++ '\n' :: after) =
    (before.splitOn '\n').map chompReturn ++ lines after := by
  rw [lines_eq, List.splitOn_append_cons_self, linesOf_append (List.splitOn_ne_nil _ after),
    ← lines_eq]

lemma lines_of_notMem {s : List Char} (hne : s ≠ []) (h : '\n' ∉ s) : lines s = [s] := by
  rw [lines_eq, List.splitOn_eq_singleton h, linesOf, if_neg (by simpa using hne)]

/-- A front that ends visibly makes the first line longer. -/
lemma lines_front {front : List Char} (hvisible : EndsVisibly front) (h : '\n' ∉ front)
    (s : List Char) : lines (front ++ s) = (front ++ (lines s).headD []) :: (lines s).tail := by
  rw [lines_eq, splitOn_append_of_notMem h, lines_eq]
  match s.splitOn '\n', List.splitOn_ne_nil '\n' s with
  | [last], _ =>
    cases last with
    | nil => simp [linesOf, hvisible.ne_nil]
    | cons c last => simp [linesOf]
  | line :: next :: rest, _ =>
    simp only [List.modifyHead_cons, linesOf, List.headD_cons, List.tail_cons]
    rw [chompReturn_append hvisible]

/-- Whether a line begins behind a front. -/
def EndsLine (front : List Char) : Prop := front = [] ∨ ∃ lines, front = lines ++ ['\n']

lemma exists_endsLine (s : List Char) :
    ∃ front line, s = front ++ line ∧ EndsLine front ∧ '\n' ∉ line := by
  induction s using List.reverseRecOn with
  | nil => exact ⟨[], [], rfl, Or.inl rfl, List.not_mem_nil⟩
  | append_singleton s c ih =>
    by_cases hc : c = '\n'
    · subst hc
      exact ⟨s ++ ['\n'], [], by simp, Or.inr ⟨s, rfl⟩, List.not_mem_nil⟩
    · obtain ⟨front, line, rfl, hfront, hline⟩ := ih
      exact ⟨front, line ++ [c], by simp, hfront, by simp [hline, Ne.symm hc]⟩

/-- The line of a trimmed text in which something visible stands has lost blanks at most, and the
lines behind it are those of what follows. -/
lemma exists_lines_trim {front indent core : List Char} (hfront : EndsLine front)
    (hline : '\n' ∉ indent ++ core) (hstarts : StartsVisibly core) (hends : EndsVisibly core)
    (after : List Char) : ∃ lead rest before, indent = lead ++ rest ∧
      (∀ c ∈ lead, isBlank c = true) ∧
      lines (trim (front ++ (indent ++ (core ++ after)))) =
        before ++ (rest ++ core ++ (lines (trimEnd after)).headD []) ::
          (lines (trimEnd after)).tail := by
  have hcore : StartsVisibly (core ++ after) := by
    obtain ⟨c, hc, hvisible⟩ := hstarts
    exact ⟨c, by simp [Option.mem_def.mp hc], hvisible⟩
  have htrim : trim (front ++ (indent ++ (core ++ after))) =
      trimStart (front ++ indent) ++ core ++ trimEnd after := by
    rw [trim, ← List.append_assoc front, trimStart_append hcore, ← List.append_assoc,
      trimEnd_append (hends.append _)]
  have hlines {rest : List Char} (hrest : '\n' ∉ rest) : lines (rest ++ core ++ trimEnd after) =
      (rest ++ core ++ (lines (trimEnd after)).headD []) :: (lines (trimEnd after)).tail := by
    refine lines_front (hends.append rest) ?_ (trimEnd after)
    rw [List.mem_append, not_or] at hline ⊢
    exact ⟨hrest, hline.2⟩
  have hindent : '\n' ∉ indent := fun h => hline (List.mem_append_left core h)
  rw [htrim]
  rw [trimStart, List.dropWhile_append]
  split
  · refine ⟨indent.takeWhile isBlank, indent.dropWhile isBlank, [],
      List.takeWhile_append_dropWhile.symm, fun c hc => List.mem_takeWhile_imp hc, ?_⟩
    exact hlines fun h => hindent ((List.dropWhile_sublist _).mem h)
  · rename_i hvisible
    rcases hfront with rfl | ⟨s, rfl⟩
    · exact absurd rfl hvisible
    · have hs : (s ++ ['\n']).dropWhile isBlank = s.dropWhile isBlank ++ ['\n'] := by
        rw [List.dropWhile_append] at hvisible ⊢
        split at hvisible
        · exact absurd rfl hvisible
        · rename_i hne
          rw [if_neg hne]
      refine ⟨[], indent, ((s.dropWhile isBlank).splitOn '\n').map chompReturn, rfl, by simp, ?_⟩
      rw [hs, ← hlines hindent, ← lines_append]
      simp only [List.append_assoc, List.cons_append, List.nil_append]

/-- Joining lines of which the first is longer. -/
lemma intercalate_headD_append (separator front : List Char) (ls : List (List Char)) :
    List.intercalate separator ((front ++ ls.headD []) :: ls.tail) =
      front ++ List.intercalate separator ls := by
  match ls with
  | [] => simp
  | [line] => simp
  | line :: next :: rest => simp [List.intercalate_cons_cons]

end ImageRecipe.Text
