import ImageRecipe.Proofs.WrittenTexts
import Mathlib.Data.List.Basic

/-!
# The spellings of a keyword

Keywords are kept in their own spelling but looked up without regard to case. If
there is no text under the spelling that is looked up, a look-up takes the least
spelling that is the same up to case, and not the one that came first. So of
several texts whose keywords are the same up to case the first one is found
exactly if it is the first one under the spelling that is taken.
-/
namespace ImageRecipe

lemma Text.sameKeyword_iff {a b : String} : Text.sameKeyword a b = true ↔
    a.toList.map Char.toLower = b.toList.map Char.toLower := by
  rw [Text.sameKeyword, beq_iff_eq]

@[simp] lemma Text.sameKeyword_self (keyword : String) : Text.sameKeyword keyword keyword = true :=
  Text.sameKeyword_iff.mpr rfl

lemma Settings.isTextKeyword_congr (settings : Settings) {a b : String}
    (h : Text.sameKeyword a b = true) : settings.isTextKeyword a = settings.isTextKeyword b := by
  simp only [Settings.isTextKeyword, Text.sameKeyword, Text.sameKeyword_iff.mp h]

namespace Text

/-- The spelling that a look-up takes of some keywords: the keyword itself if it is one of them,
else the least of those that are the same up to case. -/
structure TakesSpelling (keywords : List String) (keyword spelling : String) : Prop where
  mem : spelling ∈ keywords
  same : sameKeyword spelling keyword = true
  least : ∀ other ∈ keywords, sameKeyword other keyword = true →
    spelling = keyword ∨ other ≠ keyword ∧ spelling ≤ other

variable {keywords others : List String} {keyword spelling other : String}

lemma takesSpelling_self (h : keyword ∈ keywords) : TakesSpelling keywords keyword keyword :=
  ⟨h, sameKeyword_self keyword, fun _ _ _ => Or.inl rfl⟩

lemma TakesSpelling.unique (h : TakesSpelling keywords keyword spelling)
    (hother : TakesSpelling keywords keyword other) : spelling = other := by
  rcases h.least other hother.mem hother.same with rfl | ⟨hne, hle⟩
  · rcases hother.least spelling h.mem h.same with heq | ⟨hne, -⟩
    · exact heq.symm
    · exact absurd rfl hne
  · rcases hother.least spelling h.mem h.same with heq | ⟨-, hge⟩
    · exact absurd heq hne
    · exact String.le_antisymm hle hge

/-- Only the keywords that are the same up to case matter. -/
lemma takesSpelling_congr (h : ∀ other, sameKeyword other keyword = true →
    (other ∈ keywords ↔ other ∈ others)) :
    TakesSpelling keywords keyword spelling ↔ TakesSpelling others keyword spelling := by
  constructor
  · rintro ⟨hmem, hsame, hleast⟩
    exact ⟨(h _ hsame).mp hmem, hsame, fun other hother hsame' =>
      hleast other ((h other hsame').mpr hother) hsame'⟩
  · rintro ⟨hmem, hsame, hleast⟩
    exact ⟨(h _ hsame).mpr hmem, hsame, fun other hother hsame' =>
      hleast other ((h other hsame').mp hother) hsame'⟩

end Text

namespace TextMap

open Text

variable {chunks : TextMap} {keyword spelling text : String}

lemma mem_keys_iff : spelling ∈ chunks.keys ↔ ∃ text, chunks[spelling]? = some text := by
  rw [Std.ExtTreeMap.mem_keys, Std.ExtTreeMap.mem_iff_isSome_getElem?, Option.isSome_iff_exists]

/-- The entries are listed by their keywords, so the first one that is found has the least. -/
lemma takesSpelling_of_find? (hnone : chunks[keyword]? = none)
    (h : chunks.toList.find? (fun c => sameKeyword c.1 keyword) = some (spelling, text)) :
    TakesSpelling chunks.keys keyword spelling ∧ chunks[spelling]? = some text := by
  obtain ⟨hsame, front, back, hlist, hfront⟩ := List.find?_eq_some_iff_append.mp h
  have htext : chunks[spelling]? = some text :=
    Std.ExtTreeMap.mem_toList_iff_getElem?_eq_some.mp (List.mem_of_find?_eq_some h)
  refine ⟨⟨mem_keys_iff.mpr ⟨text, htext⟩, hsame, fun other hother hsame' => Or.inr ?_⟩, htext⟩
  obtain ⟨otherText, hotherText⟩ := mem_keys_iff.mp hother
  have hne : other ≠ keyword := by
    rintro rfl
    rw [hnone] at hotherText
    cases hotherText
  have hlisted : (other, otherText) ∈ chunks.toList :=
    Std.ExtTreeMap.mem_toList_iff_getElem?_eq_some.mpr hotherText
  have hordered := Std.ExtTreeMap.ordered_keys_toList (t := chunks)
  rw [hlist] at hlisted hordered
  refine ⟨hne, ?_⟩
  rcases List.mem_append.mp hlisted with hbefore | hbehind
  · have hnot := hfront _ hbefore
    rw [hsame'] at hnot
    cases hnot
  · rcases List.mem_cons.mp hbehind with heq | hbehind
    · obtain rfl := (Prod.mk.inj heq).1
      exact String.le_refl other
    · have hlt := (List.pairwise_cons.mp (List.pairwise_append.mp hordered).2.1).1 _ hbehind
      exact String.not_lt.mp (String.lt_asymm (compareOfLessAndEq_eq_lt.mp hlt))

/-- A look-up gives the text under the spelling that it takes. -/
theorem chunk?_eq_some_iff : chunks.chunk? keyword = some text ↔
    ∃ spelling, TakesSpelling chunks.keys keyword spelling ∧ chunks[spelling]? = some text := by
  unfold chunk?
  cases hexact : chunks[keyword]? with
  | some exactText =>
    have htakes := takesSpelling_self (mem_keys_iff.mpr ⟨exactText, hexact⟩)
    constructor
    · rintro ⟨⟩
      exact ⟨keyword, htakes, hexact⟩
    · rintro ⟨spelling, hspelling, htext⟩
      rw [hspelling.unique htakes, hexact] at htext
      exact htext
  | none =>
    constructor
    · intro h
      obtain ⟨⟨spelling, _⟩, hfound, rfl⟩ := Option.map_eq_some_iff.mp h
      exact ⟨spelling, takesSpelling_of_find? hexact hfound⟩
    · rintro ⟨spelling, hspelling, htext⟩
      have hlisted : (spelling, text) ∈ chunks.toList :=
        Std.ExtTreeMap.mem_toList_iff_getElem?_eq_some.mpr htext
      have hsome : (chunks.toList.find? fun c => sameKeyword c.1 keyword).isSome = true :=
        List.find?_isSome.mpr ⟨_, hlisted, hspelling.same⟩
      obtain ⟨⟨found, foundText⟩, hfound⟩ := Option.isSome_iff_exists.mp hsome
      obtain ⟨htakes, hfoundText⟩ := takesSpelling_of_find? hexact hfound
      rw [htakes.unique hspelling, htext] at hfoundText
      rw [hfound, hfoundText]
      rfl

/-- Something is found exactly if a keyword is the same up to case. -/
lemma isSome_chunk?_iff : (chunks.chunk? keyword).isSome = true ↔
    ∃ spelling ∈ chunks.keys, sameKeyword spelling keyword = true := by
  constructor
  · intro h
    obtain ⟨text, htext⟩ := Option.isSome_iff_exists.mp h
    obtain ⟨spelling, hspelling, -⟩ := chunk?_eq_some_iff.mp htext
    exact ⟨spelling, hspelling.mem, hspelling.same⟩
  · rintro ⟨spelling, hmem, hsame⟩
    obtain ⟨text, htext⟩ := mem_keys_iff.mp hmem
    unfold chunk?
    cases chunks[keyword]? with
    | some exactText => rfl
    | none =>
      rw [Option.isSome_map, List.find?_isSome]
      exact ⟨_, Std.ExtTreeMap.mem_toList_iff_getElem?_eq_some.mpr htext, hsame⟩

end TextMap

section Found

open Text

variable {found : List (String × String)} {keyword spelling : String}

/-- The first text whose keyword is the same up to case. -/
def firstInAnyCase? (found : List (String × String)) (keyword : String) : Option String :=
  (found.find? fun f => sameKeyword f.1 keyword).map Prod.snd

lemma isSome_lookup_iff : (found.lookup keyword).isSome = true ↔ keyword ∈ found.map Prod.fst := by
  rw [← not_iff_not, Option.not_isSome_iff_eq_none, List.lookup_eq_none_iff]
  simp only [List.mem_map, not_exists, not_and, bne_iff_ne]
  exact forall₂_congr fun f _ => ne_comm

/-- The keywords of the texts that are kept, as far as a look-up sees them. -/
lemma Settings.mem_keys_keptChunks (settings : Settings)
    (hkeyword : settings.isTextKeyword keyword = true) (hempty : "" ∉ found.map Prod.fst)
    (hsame : sameKeyword spelling keyword = true) :
    spelling ∈ (settings.keptChunks found).keys ↔ spelling ∈ found.map Prod.fst := by
  rw [TextMap.mem_keys_iff, ← isSome_lookup_iff, ← Option.isSome_iff_exists,
    Settings.getElem?_keptChunks, settings.isTextKeyword_congr hsame, hkeyword]
  by_cases hne : spelling = ""
  · subst hne
    simpa [isSome_lookup_iff] using hempty
  · simp [hne]

/-- A look-up among the texts that are kept gives the first text under the spelling that it
takes. -/
theorem Settings.chunk?_keptChunks (settings : Settings)
    (hkeyword : settings.isTextKeyword keyword = true) (hempty : "" ∉ found.map Prod.fst)
    (hspelling : TakesSpelling (found.map Prod.fst) keyword spelling) :
    (settings.keptChunks found).chunk? keyword = found.lookup spelling := by
  obtain ⟨text, htext⟩ := Option.isSome_iff_exists.mp (isSome_lookup_iff.mpr hspelling.mem)
  have hkept : TakesSpelling (settings.keptChunks found).keys keyword spelling :=
    (takesSpelling_congr fun _ hsame =>
      settings.mem_keys_keptChunks hkeyword hempty hsame).mpr hspelling
  have hne : spelling ≠ "" := fun h => hempty (h ▸ hspelling.mem)
  rw [htext]
  refine TextMap.chunk?_eq_some_iff.mpr ⟨spelling, hkept, ?_⟩
  rw [Settings.getElem?_keptChunks, settings.isTextKeyword_congr hspelling.same, hkeyword, htext]
  simp [hne]

/-- The text of the first keyword that is the same up to case is found exactly if it is also the
first text under the spelling that is taken. -/
theorem Settings.chunk?_keptChunks_eq_first_iff (settings : Settings)
    (hkeyword : settings.isTextKeyword keyword = true) (hempty : "" ∉ found.map Prod.fst) :
    (settings.keptChunks found).chunk? keyword = firstInAnyCase? found keyword ↔
      ∀ spelling, TakesSpelling (found.map Prod.fst) keyword spelling →
        found.lookup spelling = firstInAnyCase? found keyword := by
  constructor
  · intro h spelling hspelling
    rw [← settings.chunk?_keptChunks hkeyword hempty hspelling, h]
  · intro h
    cases hchunk : (settings.keptChunks found).chunk? keyword with
    | some text =>
      obtain ⟨spelling, hkept, -⟩ := TextMap.chunk?_eq_some_iff.mp hchunk
      have hspelling : TakesSpelling (found.map Prod.fst) keyword spelling :=
        (takesSpelling_congr fun _ hsame =>
          settings.mem_keys_keptChunks hkeyword hempty hsame).mp hkept
      rw [← hchunk, settings.chunk?_keptChunks hkeyword hempty hspelling, h spelling hspelling]
    | none =>
      have hnone : found.find? (fun f => sameKeyword f.1 keyword) = none := by
        refine List.find?_eq_none.mpr fun f hf hsame => ?_
        have hkept : f.1 ∈ (settings.keptChunks found).keys :=
          (settings.mem_keys_keptChunks hkeyword hempty hsame).mpr (List.mem_map_of_mem hf)
        have hsome := TextMap.isSome_chunk?_iff.mpr ⟨f.1, hkept, hsame⟩
        rw [hchunk] at hsome
        cases hsome
      rw [firstInAnyCase?, hnone, Option.map_none]

end Found

namespace Png

open Text

/-- The texts of the text chunks of a file with their keywords, in order. -/
def plainTexts (file : Bytes) : List (String × String) :=
  ((chunks file).filter fun chunk => chunk.type = .text).filterMap fun chunk =>
    plainText? chunk.data

lemma texts_eq_plainTexts (tags : TagReader) {file : Bytes}
    (h : ∀ chunk ∈ chunks file, chunk.type ∈ textTypes → chunk.type = .text) :
    texts tags file = plainTexts file := by
  rw [texts, plainTexts, List.filterMap_filter, List.filterMap_eq_flatMap_toList]
  refine List.flatMap_congr fun chunk hchunk => ?_
  by_cases htype : chunk.type = .text
  · simp [Chunk.texts_of_text tags htype, htype]
  · simp [Chunk.texts_of_notMem tags fun hmem => htype (h chunk hchunk hmem), htype]

lemma utf8OrLatin1_ne_empty {bytes : Bytes} (h : bytes ≠ []) : utf8OrLatin1 bytes ≠ "" := by
  obtain ⟨lead, rest, rfl⟩ := List.exists_cons_of_ne_nil h
  rw [utf8OrLatin1]
  cases hread : utf8? (lead :: rest) with
  | none => simp [latin1]
  | some s =>
    rw [utf8?, utf8Pieces] at hread
    obtain ⟨chars, hchars, rfl⟩ := Option.map_eq_some_iff.mp hread
    simp only [List.mapM_cons, id, Option.bind_eq_bind, Option.bind_eq_some_iff,
      Option.pure_def, Option.some.injEq] at hchars
    obtain ⟨c, -, rest, -, rfl⟩ := hchars
    simp

lemma ne_empty_of_keyword? {data rest : Bytes} {keyword : String}
    (h : keyword? data = some (keyword, rest)) : keyword ≠ "" := by
  simp only [keyword?, Option.bind_eq_bind, Option.bind_eq_some_iff] at h
  obtain ⟨⟨front, back⟩, -, hread⟩ := h
  cases front with
  | nil => cases hread
  | cons b front =>
    obtain ⟨rfl, -⟩ := Prod.mk.inj (Option.some.inj hread)
    exact utf8OrLatin1_ne_empty (List.cons_ne_nil b front)

lemma empty_notMem_plainTexts (file : Bytes) : "" ∉ (plainTexts file).map Prod.fst := by
  intro h
  obtain ⟨f, hf, hempty⟩ := List.mem_map.mp h
  obtain ⟨chunk, -, hread⟩ := List.mem_filterMap.mp hf
  simp only [plainText?, Option.bind_eq_bind, Option.bind_eq_some_iff] at hread
  obtain ⟨⟨keyword, text⟩, hkeyword, heq⟩ := hread
  obtain rfl := Option.some.inj heq
  exact ne_empty_of_keyword? hkeyword hempty

/-- Of a file whose texts stand in text chunks only, a look-up of a keyword that the settings ask
for gives the text of the first chunk whose keyword is the same up to case exactly if the first
chunk with the spelling that it takes has that text too. -/
theorem chunk?_ofBytes_eq_first_iff (settings : Settings) (tags : TagReader) (name : Option String)
    {file : Bytes} {keyword : String} (hsignature : ImageKind.pngSignature <+: file)
    (hplain : ∀ chunk ∈ chunks file, chunk.type ∈ textTypes → chunk.type = .text)
    (hkeyword : settings.isTextKeyword keyword = true) :
    ∃ content, ImageContent.ofBytes file name settings tags = .ok content ∧
      (content.chunks.chunk? keyword = firstInAnyCase? (plainTexts file) keyword ↔
        ∀ spelling, TakesSpelling ((plainTexts file).map Prod.fst) keyword spelling →
          (plainTexts file).lookup spelling = firstInAnyCase? (plainTexts file) keyword) := by
  refine ⟨_, ImageContent.ofBytes_of_png name settings tags hsignature, ?_⟩
  rw [texts_eq_plainTexts tags hplain]
  exact settings.chunk?_keptChunks_eq_first_iff hkeyword (empty_notMem_plainTexts file)

/-- Two texts whose keywords differ in case only. -/
def twoSpellings : List Part := [
  .text ⟨"Parameters", "Steps: 10", .plain, by decide, by decide,
    by rw [TextForm.bytes, Text.utf8Bytes_eq_flatMap, Text.utf8Bytes_eq_flatMap]; decide⟩,
  .text ⟨"PARAMETERS", "Steps: 20", .plain, by decide, by decide,
    by rw [TextForm.bytes, Text.utf8Bytes_eq_flatMap, Text.utf8Bytes_eq_flatMap]; decide⟩]

/-- A file with them. -/
def twoSpellingsFile : Bytes := writtenFile 64 32 ⟨8, 2, 0, 0, 0⟩ twoSpellings

lemma signature_twoSpellingsFile : ImageKind.pngSignature <+: twoSpellingsFile := ⟨_, rfl⟩

lemma forall_chunks_twoSpellingsFile :
    ∀ chunk ∈ chunks twoSpellingsFile, chunk.type ∈ textTypes → chunk.type = .text := by
  rw [twoSpellingsFile, chunks_writtenFile]
  decide +kernel

lemma plainTexts_twoSpellingsFile : plainTexts twoSpellingsFile =
    [("Parameters", "Steps: 10"), ("PARAMETERS", "Steps: 20")] := by
  rw [← texts_eq_plainTexts .builtin forall_chunks_twoSpellingsFile, twoSpellingsFile,
    texts_writtenFile]
  rfl

theorem chunk?_ofBytes_exactSpelling :
    ∃ content, ImageContent.ofBytes twoSpellingsFile none {} .builtin = .ok content ∧
      content.chunks.chunk? "Parameters" = some "Steps: 10" := by
  have hkeyword : ({} : Settings).isTextKeyword "Parameters" = true := by decide +kernel
  obtain ⟨content, hcontent, hfirst⟩ := chunk?_ofBytes_eq_first_iff {} .builtin none
    signature_twoSpellingsFile forall_chunks_twoSpellingsFile hkeyword
  rw [plainTexts_twoSpellingsFile] at hfirst
  refine ⟨content, hcontent, hfirst.mpr fun spelling hspelling => ?_⟩
  obtain rfl := hspelling.unique (takesSpelling_self (by decide))
  rfl

/-- Under a third spelling the text is found that came second. -/
theorem chunk?_ofBytes_leastSpelling_ne :
    ¬ ∀ (settings : Settings) (tags : TagReader) (name : Option String) (file : Bytes)
      (keyword : String), ImageKind.pngSignature <+: file →
      (∀ chunk ∈ chunks file, chunk.type ∈ textTypes → chunk.type = .text) →
      settings.isTextKeyword keyword = true →
      ∃ content, ImageContent.ofBytes file name settings tags = .ok content ∧
        content.chunks.chunk? keyword = firstInAnyCase? (plainTexts file) keyword := by
  intro h
  obtain ⟨content, hcontent, hfirst⟩ := h {} .builtin none twoSpellingsFile "parameters"
    signature_twoSpellingsFile forall_chunks_twoSpellingsFile (by decide +kernel)
  rw [ImageContent.ofBytes_of_png none {} .builtin signature_twoSpellingsFile,
    texts_eq_plainTexts .builtin forall_chunks_twoSpellingsFile, plainTexts_twoSpellingsFile]
    at hcontent
  obtain rfl := Except.ok.inj hcontent
  rw [plainTexts_twoSpellingsFile] at hfirst
  exact absurd hfirst (by decide +kernel)

end Png

end ImageRecipe
