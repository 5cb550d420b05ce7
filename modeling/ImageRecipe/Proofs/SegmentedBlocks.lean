import ImageRecipe.Proofs.FirstPlaces
import ImageRecipe.Proofs.SettingsBlock
import Mathlib.Algebra.Group.Nat.Even

/-!
# Blocks and their segments

A block of settings is cut at commas and nowhere else, and what is cut out of it
between two of these commas is a segment with blanks around it, or blank. So
nothing of a block is lost. A comma is a cut exactly if an even number of quotes
stands before it and a key with a colon behind it.
-/
namespace ImageRecipe.ParameterText

open Text

/-- Whether a key with a colon stands at the front of a text, behind blanks. -/
def OpensKey (s : List Char) : Prop :=
  ∃ blanks first key rest, s = blanks ++ first :: key ++ ':' :: rest ∧
    (∀ c ∈ blanks, isBlank c = true) ∧ first.isUpper = true ∧ ∀ c ∈ key, isKeyChar c = true

lemma beginsKey_iff {s : List Char} : beginsKey s = true ↔ OpensKey s := by
  constructor
  · intro h
    unfold beginsKey at h
    split at h
    · cases h
    · rename_i first rest hfront
      rw [Bool.and_eq_true, beq_iff_eq] at h
      obtain ⟨hfirst, hcolon⟩ := h
      obtain ⟨after, hafter⟩ : ∃ after, rest.dropWhile isKeyChar = ':' :: after := by
        cases hdrop : rest.dropWhile isKeyChar with
        | nil => rw [hdrop] at hcolon; cases hcolon
        | cons c after =>
          rw [hdrop] at hcolon
          obtain rfl := Option.some.inj hcolon
          exact ⟨after, rfl⟩
      refine ⟨s.takeWhile isBlank, first, rest.takeWhile isKeyChar, after, ?_,
        fun c hc => List.mem_takeWhile_imp hc, hfirst, fun c hc => List.mem_takeWhile_imp hc⟩
      rw [List.append_assoc, List.cons_append, ← hafter, List.takeWhile_append_dropWhile, ← hfront]
      exact List.takeWhile_append_dropWhile.symm
  · rintro ⟨blanks, first, key, rest, rfl, hblanks, hfirst, hkey⟩
    exact beginsKey_append hblanks hfirst hkey rest

/-- What follows does not matter to a key at the front, if it neither begins a key nor ends one. -/
lemma beginsKey_append_of_head? {back : List Char} (hkey : beginsKey back = false)
    (hcolon : (back.dropWhile isKeyChar).head? ≠ some ':') (s : List Char) :
    beginsKey (s ++ back) = beginsKey s := by
  by_cases hblank : trimStart s = []
  · have hfront : trimStart (s ++ back) = trimStart back :=
      List.dropWhile_append_of_pos (List.dropWhile_eq_nil_iff.mp hblank)
    rw [beginsKey] at hkey
    rw [beginsKey, beginsKey, hfront, hkey, hblank]
  · obtain ⟨first, key, hfront⟩ := List.exists_cons_of_ne_nil hblank
    rw [beginsKey, beginsKey, trimStart_append_of_ne_nil hblank, hfront]
    simp only [List.cons_append, List.dropWhile_append]
    split
    · rename_i hall
      rw [List.isEmpty_iff.mp hall]
      simpa using fun _ => hcolon
    · rename_i hne
      rw [List.head?_append_of_ne_nil _ fun hnil => hne (List.isEmpty_iff.mpr hnil)]

lemma beginsKey_append_comma (s rest : List Char) :
    beginsKey (s ++ ',' :: rest) = beginsKey s := by
  have hcomma : isKeyChar ',' = false := by decide
  refine beginsKey_append_of_head? rfl ?_ s
  rw [List.dropWhile_cons_of_neg (by simp [hcomma])]
  simp

/-- Whether a quote is open behind a text, if `quoted` says whether one is before it. -/
def quotedBehind (quoted : Bool) (s : List Char) : Bool :=
  s.foldl (fun quoted c => quoted != (c == '"')) quoted

lemma quotedBehind_eq_false_iff (quoted : Bool) (s : List Char) :
    quotedBehind quoted s = false ↔ (quoted = false ↔ Even (s.count '"')) := by
  induction s generalizing quoted with
  | nil => simp [quotedBehind]
  | cons c s ih =>
    rw [quotedBehind, List.foldl_cons, ← quotedBehind, ih]
    by_cases hc : c = '"'
    · rw [hc, List.count_cons_self, Nat.even_add_one]
      cases quoted <;> simp
    · rw [List.count_cons_of_ne hc, beq_eq_false_iff_ne.mpr hc, Bool.bne_false]

/-- Pieces with the commas between them. -/
def joinedPieces (pieces : List (List Char)) : List Char := List.intercalate [','] pieces

section Joined

variable {piece : List Char} {front back : List (List Char)}

lemma joinedPieces_cons (hback : back ≠ []) :
    joinedPieces (piece :: back) = piece ++ ',' :: joinedPieces back := by
  obtain ⟨next, rest, rfl⟩ := List.exists_cons_of_ne_nil hback
  simp [joinedPieces, List.intercalate_cons_cons]

lemma joinedPieces_cons_cons (c : Char) :
    joinedPieces ((c :: piece) :: back) = c :: joinedPieces (piece :: back) := by
  cases back with
  | nil => simp [joinedPieces]
  | cons next rest => simp [joinedPieces, List.intercalate_cons_cons]

lemma joinedPieces_modifyHead (c : Char) (hfront : front ≠ []) :
    joinedPieces (front.modifyHead (c :: ·)) = c :: joinedPieces front := by
  obtain ⟨piece, rest, rfl⟩ := List.exists_cons_of_ne_nil hfront
  exact joinedPieces_cons_cons c

lemma joinedPieces_append (hfront : front ≠ []) (hback : back ≠ []) :
    joinedPieces (front ++ back) = joinedPieces front ++ ',' :: joinedPieces back := by
  induction front with
  | nil => exact absurd rfl hfront
  | cons piece front ih =>
    by_cases hnil : front = []
    · subst hnil
      rw [List.singleton_append, joinedPieces_cons hback, joinedPieces, joinedPieces,
        List.intercalate_singleton]
    · have hne : front ++ back ≠ [] := List.append_ne_nil_of_left_ne_nil hnil back
      rw [List.cons_append, joinedPieces_cons hne, ih hnil, joinedPieces_cons hnil,
        List.append_assoc, List.cons_append]

end Joined

/-- Joining the pieces of a block at the commas gives the block back. -/
lemma joinedPieces_pieces (quoted : Bool) (s : List Char) : joinedPieces (pieces quoted s) = s := by
  induction s generalizing quoted with
  | nil => rfl
  | cons c s ih =>
    cases hcut : c == ',' && !quoted && beginsKey s with
    | true =>
      rw [pieces, if_pos hcut, joinedPieces_cons (pieces_ne_nil quoted s), ih, List.nil_append]
      simp only [Bool.and_eq_true, beq_iff_eq] at hcut
      rw [hcut.1.1]
    | false => rw [pieces_cons hcut, joinedPieces_modifyHead c (pieces_ne_nil _ s), ih]

/-- A comma outside quotes with a key behind it is a cut: what stands before it is cut as it is on
its own, and so is what follows it. -/
lemma pieces_append_comma {quoted : Bool} {before after : List Char}
    (hquoted : quotedBehind quoted before = false) (hkey : beginsKey after = true) :
    pieces quoted (before ++ ',' :: after) = pieces quoted before ++ pieces false after := by
  induction before generalizing quoted with
  | nil =>
    obtain rfl : quoted = false := hquoted
    exact pieces_comma hkey
  | cons c before ih =>
    rw [quotedBehind, List.foldl_cons, ← quotedBehind] at hquoted
    have hrest := beginsKey_append_comma before after
    cases hcut : c == ',' && !quoted && beginsKey before with
    | true =>
      have hstate : (quoted != (c == '"')) = quoted := by
        simp only [Bool.and_eq_true, beq_iff_eq] at hcut
        rw [hcut.1.1]
        exact Bool.bne_false quoted
      rw [hstate] at hquoted
      rw [List.cons_append, pieces, hrest, if_pos hcut, ih hquoted, pieces, if_pos hcut]
      rfl
    | false =>
      obtain ⟨piece, rest, hpieces⟩ :=
        List.exists_cons_of_ne_nil (pieces_ne_nil (quoted != (c == '"')) before)
      rw [List.cons_append, pieces_cons (by rwa [hrest]), ih hquoted, pieces_cons hcut, hpieces]
      rfl

/-- Wherever the pieces of a block are parted, the comma there is outside quotes and a key stands
behind it. Induction on the block, along which the first piece grows. -/
lemma cut_of_pieces_eq_append {quoted : Bool} {s : List Char} {front back : List (List Char)}
    (h : pieces quoted s = front ++ back) (hfront : front ≠ []) (hback : back ≠ []) :
    quotedBehind quoted (joinedPieces front) = false ∧ beginsKey (joinedPieces back) = true := by
  induction s generalizing quoted front with
  | nil =>
    obtain ⟨piece, rest, rfl⟩ := List.exists_cons_of_ne_nil hfront
    obtain ⟨-, hrest⟩ := List.cons.inj h
    exact absurd (List.append_eq_nil_iff.mp hrest.symm).2 hback
  | cons c s ih =>
    obtain ⟨piece, rest, rfl⟩ := List.exists_cons_of_ne_nil hfront
    cases hcut : c == ',' && !quoted && beginsKey s with
    | true =>
      rw [pieces, if_pos hcut] at h
      obtain ⟨rfl, hrest⟩ := List.cons.inj h
      simp only [Bool.and_eq_true, Bool.not_eq_true', beq_iff_eq] at hcut
      obtain ⟨⟨rfl, rfl⟩, hkey⟩ := hcut
      by_cases hnil : rest = []
      · subst hnil
        obtain rfl : pieces false s = back := hrest
        refine ⟨rfl, ?_⟩
        rwa [joinedPieces_pieces]
      · obtain ⟨hquoted, hbegins⟩ := ih hrest hnil
        exact ⟨by rwa [joinedPieces_cons hnil], hbegins⟩
    | false =>
      obtain ⟨first, others, hpieces⟩ :=
        List.exists_cons_of_ne_nil (pieces_ne_nil (quoted != (c == '"')) s)
      rw [pieces_cons hcut, hpieces] at h
      obtain ⟨rfl, rfl⟩ := List.cons.inj h
      have hparted : pieces (quoted != (c == '"')) s = (first :: rest) ++ back := hpieces
      obtain ⟨hquoted, hbegins⟩ := ih hparted (List.cons_ne_nil first rest)
      exact ⟨by rwa [joinedPieces_cons_cons], hbegins⟩

/-- What stands between two cuts of a block: a segment with blanks around it, or blanks alone. -/
structure Cell where
  lead : List Char
  segment : List Char
  trail : List Char
  lead_blank : ∀ c ∈ lead, isBlank c = true
  trail_blank : ∀ c ∈ trail, isBlank c = true
  visible : segment = [] ∨ StartsVisibly segment ∧ EndsVisibly segment

namespace Cell

/-- The cell as it is written. -/
def chars (cell : Cell) : List Char := cell.lead ++ cell.segment ++ cell.trail

lemma exists_of_piece (piece : List Char) :
    ∃ cell : Cell, cell.chars = piece ∧ cell.segment = trim piece := by
  by_cases hblank : ∀ c ∈ piece, isBlank c = true
  · have htrim : trim piece = [] := trim_append_of_trim_eq (s := []) rfl hblank
    refine ⟨⟨piece, [], [], hblank, by simp, Or.inl rfl⟩, ?_, htrim.symm⟩
    simp [chars]
  · obtain ⟨lead, trail, hpiece, hlead, htrail, hvisible⟩ :=
      exists_blanks_around_trim (by simpa using hblank)
    exact ⟨⟨lead, trim piece, trail, hlead, htrail, Or.inr hvisible⟩, hpiece.symm, rfl⟩

/-- The cells of some pieces. -/
lemma exists_of_pieces (pieces : List (List Char)) :
    ∃ cells : List Cell, cells.map chars = pieces ∧ cells.map segment = pieces.map trim := by
  induction pieces with
  | nil => exact ⟨[], rfl, rfl⟩
  | cons piece pieces ih =>
    obtain ⟨cell, hchars, hsegment⟩ := exists_of_piece piece
    obtain ⟨cells, hcells, hsegments⟩ := ih
    exact ⟨cell :: cells, by simp [hchars, hcells], by simp [hsegment, hsegments]⟩

end Cell

/-- Whether a comma separates two settings: an even number of quotes stands before it, and behind
it a key with a colon. -/
def Separates (before after : List Char) : Prop := Even (before.count '"') ∧ OpensKey after

/-- Nothing of a block is lost when it is cut. It is a row of cells with commas between them, and
the segments are those of the cells, in their order, without the empty ones. The commas between the
cells are those of the block that separate settings, all of them and no others. -/
theorem segments_partition (block : List Char) : ∃ cells : List Cell,
    block = joinedPieces (cells.map Cell.chars) ∧
    segments block = (cells.map Cell.segment).filter (fun s => !s.isEmpty) ∧
    ∀ before after, (block = before ++ ',' :: after ∧ Separates before after) ↔
      ∃ front back, cells = front ++ back ∧ front ≠ [] ∧ back ≠ [] ∧
        before = joinedPieces (front.map Cell.chars) ∧
        after = joinedPieces (back.map Cell.chars) := by
  obtain ⟨cells, hchars, hsegments⟩ := Cell.exists_of_pieces (pieces false block)
  refine ⟨cells, by rw [hchars, joinedPieces_pieces], by rw [segments, hsegments], ?_⟩
  intro before after
  have hquotes : Even (before.count '"') ↔ quotedBehind false before = false := by
    simp [quotedBehind_eq_false_iff]
  rw [Separates, hquotes, ← beginsKey_iff]
  constructor
  · rintro ⟨rfl, hquoted, hkey⟩
    rw [pieces_append_comma hquoted hkey] at hchars
    obtain ⟨front, back, rfl, hfront, hback⟩ := List.map_eq_append_iff.mp hchars
    refine ⟨front, back, rfl, ?_, ?_, by rw [hfront, joinedPieces_pieces],
      by rw [hback, joinedPieces_pieces]⟩
    · rintro rfl
      exact pieces_ne_nil false before hfront.symm
    · rintro rfl
      exact pieces_ne_nil false after hback.symm
  · rintro ⟨front, back, rfl, hfront, hback, rfl, rfl⟩
    rw [List.map_append] at hchars
    have hfront' : front.map Cell.chars ≠ [] := by simpa using hfront
    have hback' : back.map Cell.chars ≠ [] := by simpa using hback
    refine ⟨?_, cut_of_pieces_eq_append hchars.symm hfront' hback'⟩
    rw [← joinedPieces_append hfront' hback', hchars, joinedPieces_pieces]

example : segments "Steps: 20, Note: \"a, B: c\", d, é, Size: 8x8 ,".toList =
    ["Steps: 20".toList, "Note: \"a, B: c\", d, é".toList, "Size: 8x8 ,".toList] := by
  decide +kernel

end ImageRecipe.ParameterText
