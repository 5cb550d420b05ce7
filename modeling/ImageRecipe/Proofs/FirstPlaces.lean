import ImageRecipe.Proofs.VisibleEnds
import ImageRecipe.Text.Pattern

/-!
# The first place where something is read

Most labels have no border: no end of the label is its front too, so two places
of such a label in a text never overlap. A reader that looks for a label and then
reads no further than the next place of it reads the same at every place before
that, whatever follows. So the first place where it reads anything stays the
first one when a text grows.
-/
namespace ImageRecipe.Text

/-- No end of a text, other than the whole text and the empty one, is its front as well. -/
def Unbordered (label : List Char) : Prop :=
  ∀ k < label.length, 0 < k → ¬ label.drop k <+: label

instance (label : List Char) : Decidable (Unbordered label) :=
  inferInstanceAs (Decidable (∀ k < label.length, _))

section Unbordered

variable {label : List Char}

/-- A place of the label in front of another one ends before that begins. -/
lemma Unbordered.prefix_of_append (h : Unbordered label) {front after : List Char}
    (hne : front ≠ []) (hplace : label <+: front ++ (label ++ after)) : label <+: front := by
  obtain ⟨rest, hrest⟩ := hplace
  rcases List.append_eq_append_iff.mp hrest with ⟨common, hfront, -⟩ | ⟨common, hlabel, hback⟩
  · exact ⟨common, hfront.symm⟩
  · -- the label would begin with its own end
    have hlength : label.length = front.length + common.length := by
      rw [hlabel, List.length_append]
    have hpos : 0 < front.length := List.length_pos_iff.mpr hne
    have hcommon : label.drop front.length = common := by
      conv_lhs => rw [hlabel]
      exact List.drop_left
    have hborder : label.drop front.length <+: label := by
      rw [hcommon]
      exact List.prefix_of_prefix_length_le ⟨rest, hback.symm⟩ (List.prefix_append label after)
        (by omega)
    have hend : ¬ front.length < label.length := fun hlt => h _ hlt hpos hborder
    have hnil : common = [] := List.length_eq_zero_iff.mp (by omega)
    have hwhole : label = front := by rw [hlabel, hnil, List.append_nil]
    exact ⟨[], (List.append_nil label).trans hwhole⟩

end Unbordered

section Cut

variable {α : Type} {read : List Char → Option α} {a : α}

lemma cutAt?_eq_none {s : List Char} (h : ∀ t, t <:+ s → read t = none) : cutAt? read s = none := by
  induction s with
  | nil => rw [cutAt?, h [] (List.suffix_refl []), Option.map_none]
  | cons c s ih =>
    rw [cutAt?, h _ (List.suffix_refl _)]
    dsimp only
    rw [ih fun t ht => h t (ht.trans (List.suffix_cons c s)), Option.map_none]

lemma cutAt?_append {before rest : List Char}
    (h : ∀ t, t <:+ before → t ≠ [] → read (t ++ rest) = none) (hread : read rest = some a) :
    cutAt? read (before ++ rest) = some (before, a) := by
  induction before with
  | nil => cases rest <;> simp [cutAt?, hread]
  | cons c before ih =>
    have hfirst : read (c :: before ++ rest) = none :=
      h _ (List.suffix_refl _) (List.cons_ne_nil c before)
    rw [List.cons_append] at hfirst ⊢
    rw [cutAt?, hfirst]
    dsimp only
    rw [ih fun t ht => h t (ht.trans (List.suffix_cons c before))]
    rfl

end Cut

section Behind

variable {α : Type} {body : List Char → Option α} {a : α}

/-- What stands behind a character makes no difference to reading. -/
def StopsAt (stop : Char) (body : List Char → Option α) : Prop :=
  ∀ s after, body (s ++ stop :: after) = body s

/-- What is read stays the same if a character and more follow. -/
def StaysBefore (stop : Char) (body : List Char → Option α) : Prop :=
  ∀ s a after, body s = some a → body (s ++ stop :: after) = some a

/-- Reads behind a label. -/
def readBehind (label : List Char) (body : List Char → Option α) (s : List Char) : Option α :=
  (after? label s).bind body

lemma readBehind_eq_some_iff {label s : List Char} :
    readBehind label body s = some a ↔ ∃ rest, s = label ++ rest ∧ body rest = some a := by
  simp only [readBehind, Option.bind_eq_some_iff, after?_eq_some_iff]

lemma StaysBefore.behind {stop : Char} (h : StaysBefore stop body) (label : List Char) :
    StaysBefore stop (readBehind label body) := by
  intro s a after hs
  obtain ⟨rest, rfl, hrest⟩ := readBehind_eq_some_iff.mp hs
  exact readBehind_eq_some_iff.mpr
    ⟨rest ++ stop :: after, List.append_assoc label rest _, h rest a after hrest⟩

lemma StaysBefore.bind {stop : Char} {β : Type} (h : StaysBefore stop body) (f : α → Option β) :
    StaysBefore stop fun s => (body s).bind f := by
  intro s b after hs
  obtain ⟨a, ha, hb⟩ := Option.bind_eq_some_iff.mp hs
  exact Option.bind_eq_some_iff.mpr ⟨a, h s a after ha, hb⟩

/-- Nothing is read at a place in front of another label, whatever follows, if nothing was. -/
lemma readBehind_append_of_place {first : Char} {label front rest : List Char}
    (hlabel : Unbordered (first :: label)) (hstops : StopsAt first body) (hne : front ≠ [])
    (hnone : readBehind (first :: label) body (front ++ (first :: label ++ rest)) = none)
    (after : List Char) :
    readBehind (first :: label) body (front ++ (first :: label ++ rest) ++ after) = none := by
  rw [Option.eq_none_iff_forall_ne_some] at hnone ⊢
  intro a ha
  obtain ⟨behind, hsplit, hread⟩ := readBehind_eq_some_iff.mp ha
  rw [List.append_assoc, List.append_assoc] at hsplit
  obtain ⟨between, rfl⟩ := hlabel.prefix_of_append hne ⟨behind, hsplit.symm⟩
  rw [List.append_assoc, List.append_cancel_left_eq] at hsplit
  -- both readings stop where the next label begins
  refine hnone a (readBehind_eq_some_iff.mpr ⟨_, List.append_assoc _ _ _, ?_⟩)
  rw [← hsplit] at hread
  rw [List.cons_append, hstops] at hread ⊢
  exact hread

lemma exists_place_of_firstAt? {label s : List Char}
    (h : firstAt? (readBehind label body) s = some a) :
    ∃ front rest, s = front ++ (label ++ rest) := by
  induction s with
  | nil =>
    obtain ⟨rest, hrest, -⟩ := readBehind_eq_some_iff.mp h
    exact ⟨[], rest, hrest⟩
  | cons c s ih =>
    rw [firstAt?] at h
    split at h
    · rename_i found
      obtain ⟨rest, hrest, -⟩ := readBehind_eq_some_iff.mp found
      exact ⟨[], rest, hrest⟩
    · obtain ⟨front, rest, rfl⟩ := ih h
      exact ⟨c :: front, rest, rfl⟩

/-- The first place where something is read stays the first one, and what is read stays the same. -/
theorem StaysBefore.firstPlace {stop first : Char} {label : List Char}
    (hstays : StaysBefore stop body) (hlabel : Unbordered (first :: label))
    (hstops : StopsAt first body) :
    StaysBefore stop (firstAt? (readBehind (first :: label) body)) := by
  intro s a after h
  induction s with
  | nil => cases h
  | cons c s ih =>
    rw [firstAt?] at h
    split at h
    · rename_i found
      have hfirst := hstays.behind (first :: label) _ _ after found
      rw [List.cons_append] at hfirst ⊢
      rw [firstAt?, hfirst, ← h]
    · rename_i hnone
      obtain ⟨front, rest, rfl⟩ := exists_place_of_firstAt? h
      have hfirst := readBehind_append_of_place hlabel hstops (List.cons_ne_nil c front) hnone
        (stop :: after)
      rw [List.cons_append, List.cons_append] at hfirst
      rw [List.cons_append, firstAt?, hfirst]
      exact ih h

end Behind

section Runs

variable {α : Type} {p : Char → Bool} {read : List Char → Option α} {stop : Char}

lemma run?_append_of_stop (hstop : p stop = false) (s after : List Char) :
    run? p (s ++ stop :: after) =
      (run? p s).map fun halves => (halves.1, halves.2 ++ stop :: after) := by
  have hrun : (s ++ stop :: after).takeWhile p = s.takeWhile p := by
    rw [List.takeWhile_append]
    split
    · rename_i hall
      rw [List.takeWhile_cons_of_neg (by simp [hstop]), List.append_nil]
      exact ((List.takeWhile_prefix p).eq_of_length hall).symm
    · rfl
  have hrest : (s ++ stop :: after).dropWhile p = s.dropWhile p ++ stop :: after := by
    rw [List.dropWhile_append]
    split
    · rename_i hall
      rw [List.dropWhile_cons_of_neg (by simp [hstop]), List.isEmpty_iff.mp hall, List.nil_append]
    · rfl
  rw [run?, run?, hrun, hrest]
  split <;> rfl

lemma stopsAt_run? (hstop : p stop = false) :
    StopsAt stop fun s => (run? p s).map Prod.fst := by
  intro s after
  dsimp only
  rw [run?_append_of_stop hstop, Option.map_map]
  rfl

/-- A run that ends inside a text ends there whatever follows. -/
lemma run?_append_of_ne_nil {s run rest : List Char} (h : run? p s = some (run, rest))
    (hne : rest ≠ []) (after : List Char) : run? p (s ++ after) = some (run, rest ++ after) := by
  have hhalves : s.takeWhile p = run ∧ s.dropWhile p = rest ∧ run ≠ [] := by
    unfold run? at h
    split at h
    · cases h
    · rename_i hrun
      obtain ⟨rfl, rfl⟩ := Prod.mk.inj (Option.some.inj h)
      exact ⟨rfl, rfl, hrun⟩
  obtain ⟨rfl, rfl, hrun⟩ := hhalves
  have hshort : (s.takeWhile p).length ≠ s.length := fun hlength =>
    hne (List.dropWhile_eq_nil_iff.mpr fun c hc => List.mem_takeWhile_imp
      (((List.takeWhile_prefix p).eq_of_length hlength).symm ▸ hc))
  rw [run?, List.takeWhile_append, if_neg hshort, List.dropWhile_append,
    if_neg fun h => hne (List.isEmpty_iff.mp h)]
  split
  · contradiction
  · rfl

lemma trimStart_append_of_ne_nil {s : List Char} (hne : trimStart s ≠ []) (after : List Char) :
    trimStart (s ++ after) = trimStart s ++ after := by
  have hrest : ¬ (s.dropWhile isBlank).isEmpty = true := fun h => hne (List.isEmpty_iff.mp h)
  rw [trimStart, List.dropWhile_append, if_neg hrest]
  rfl

lemma StopsAt.trimStart (h : StopsAt stop read) (hstop : isBlank stop = false) :
    StopsAt stop fun s => read (Text.trimStart s) := by
  intro s after
  have hstarts : StartsVisibly (stop :: after) := ⟨stop, rfl, hstop⟩
  dsimp only
  rw [trimStart_append hstarts, h]

/-- Blanks in front may reach up to the character where reading stops, but then nothing is read. -/
lemma StopsAt.staysBefore_trimStart (h : StopsAt stop read) (hnil : read [] = none) :
    StaysBefore stop fun s => read (Text.trimStart s) := by
  intro s a after hs
  have hne : Text.trimStart s ≠ [] := fun hblank => by simp [hblank, hnil] at hs
  dsimp only
  rw [trimStart_append_of_ne_nil hne, h]
  exact hs

/-- What is read behind a label and blanks, at the first place where something is. -/
lemma staysBefore_labelled? {label : String} {first : Char} {back : List Char}
    (hlabel : label.toList = first :: back) (hborder : Unbordered (first :: back))
    (hvisible : isBlank first = false) (hfirst : StopsAt first read) (hstop : StopsAt stop read)
    (hnil : read [] = none) : StaysBefore stop (firstAt? (labelled? label read)) := by
  have hbehind : labelled? label read =
      readBehind (first :: back) fun s => read (Text.trimStart s) := by
    rw [← hlabel]
    rfl
  rw [hbehind]
  exact (hstop.staysBefore_trimStart hnil).firstPlace hborder (hfirst.trimStart hvisible)

end Runs

end ImageRecipe.Text
