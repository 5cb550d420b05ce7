import ImageRecipe.Proofs.EscapedText
import ImageRecipe.Xml.Attribute

/-!
# Tags and the texts that write them

A tag is written as its name and its attributes with escaped values, in either
kind of quotes and with blanks wherever they are allowed. The tag is read off
what was written, whatever follows, and so are its attributes. A value is the one
that was written unless it refers to a character by its number.
-/
namespace ImageRecipe.Xml

/-- Whether a character may stand in a name: it is no blank and no part of markup. -/
def isNameChar (c : Char) : Bool :=
  !isSpace c && !(['<', '>', '&', '"', '\'', '=', '/', '!', '?'].contains c)

structure Name where
  chars : List Char
  ne_nil : chars ≠ []
  plain : ∀ c ∈ chars, isNameChar c = true

structure Blanks where
  chars : List Char
  blank : ∀ c ∈ chars, isSpace c = true

lemma isNameChar_iff {c : Char} : isNameChar c = true ↔ isSpace c = false ∧ c ≠ '<' ∧ c ≠ '>' ∧
    c ≠ '&' ∧ c ≠ '"' ∧ c ≠ '\'' ∧ c ≠ '=' ∧ c ≠ '/' ∧ c ≠ '!' ∧ c ≠ '?' := by
  simp [isNameChar]

lemma ne_of_isSpace {c d : Char} (hc : isSpace c = true) (hd : isSpace d = false) : c ≠ d := by
  rintro rfl
  rw [hc] at hd
  cases hd

/-- A text that begins with a blank, or is empty. -/
def StartsBlank (s : List Char) : Prop := ∀ c ∈ s.head?, isSpace c = true

lemma StartsBlank.append {s t : List Char} (hs : StartsBlank s) (ht : StartsBlank t) :
    StartsBlank (s ++ t) := by
  cases s with
  | nil => exact ht
  | cons c s => exact hs

lemma Blanks.startsBlank (blanks : Blanks) : StartsBlank blanks.chars :=
  fun c hc => blanks.blank c (List.mem_of_mem_head? hc)

lemma Name.isSpace_eq_false (name : Name) : ∀ c ∈ name.chars, isSpace c = false :=
  fun c hc => (isNameChar_iff.mp (name.plain c hc)).1

/-- A name ends at a blank. -/
lemma Name.takeWhile_dropWhile_append (name : Name) {s : List Char} (hs : StartsBlank s) :
    (name.chars ++ s).takeWhile (fun c => !isSpace c) = name.chars ∧
      (name.chars ++ s).dropWhile (fun c => !isSpace c) = s :=
  Xml.takeWhile_dropWhile_append (by simpa using name.isSpace_eq_false)
    fun c hc => by simp [hs c hc]

/-- An attribute as it stands in a tag, with the blanks before its name and around its sign. -/
structure WrittenAttribute where
  before : Blanks
  before_ne_nil : before.chars ≠ []
  name : Name
  beforeSign : Blanks
  afterSign : Blanks
  quote : Char
  isQuote : quote = '"' ∨ quote = '\''
  value : List Char

/-- What stands behind the sign of an attribute. -/
def WrittenAttribute.quoted (attr : WrittenAttribute) : List Char :=
  attr.quote :: (escape attr.value ++ [attr.quote])

def WrittenAttribute.chars (attr : WrittenAttribute) : List Char :=
  attr.before.chars ++ (attr.name.chars ++ (attr.beforeSign.chars ++
    '=' :: (attr.afterSign.chars ++ attr.quoted)))

/-- A tag as it is written, up to what closes it. No two attributes have one name. -/
structure WrittenTag where
  name : Name
  attributes : List WrittenAttribute
  distinct : (attributes.map (·.name.chars)).Nodup
  after : Blanks

namespace WrittenTag

/-- What stands behind the name of a tag. -/
def rest (tag : WrittenTag) : List Char :=
  tag.attributes.flatMap WrittenAttribute.chars ++ tag.after.chars

def chars (tag : WrittenTag) : List Char := tag.name.chars ++ tag.rest

/-- The tag that is read. -/
def tag (tag : WrittenTag) : Tag := ⟨tag.name.chars, tag.rest⟩

end WrittenTag

lemma WrittenAttribute.startsBlank (attr : WrittenAttribute) (s : List Char) :
    StartsBlank (attr.chars ++ s) := by
  have hblank := attr.before.startsBlank
  obtain ⟨c, before, hbefore⟩ := List.exists_cons_of_ne_nil attr.before_ne_nil
  rw [hbefore] at hblank
  rw [WrittenAttribute.chars, hbefore]
  exact hblank

lemma WrittenTag.startsBlank_rest (tag : WrittenTag) : StartsBlank tag.rest := by
  rw [WrittenTag.rest]
  cases tag.attributes with
  | nil => exact tag.after.startsBlank
  | cons attr attributes =>
    rw [List.flatMap_cons, List.append_assoc]
    exact attr.startsBlank _

/-- A text behind which the end of a tag is looked for as at its beginning. -/
def Passed (s : List Char) : Prop :=
  ∀ after, tagEnd? none (s ++ after) = (tagEnd? none after).map fun p => (s ++ p.1, p.2)

lemma passed_nil : Passed [] := fun after => by simp

lemma Passed.append {s t : List Char} (hs : Passed s) (ht : Passed t) : Passed (s ++ t) := by
  intro after
  rw [List.append_assoc, hs, ht, Option.map_map]
  simp [Function.comp_def]

lemma passed_flatMap {α : Type} {f : α → List Char} (h : ∀ a, Passed (f a)) (l : List α) :
    Passed (l.flatMap f) := by
  induction l with
  | nil => exact passed_nil
  | cons a l ih =>
    rw [List.flatMap_cons]
    exact (h a).append ih

lemma passed_of_forall {s : List Char} (h : ∀ c ∈ s, c ≠ '>' ∧ c ≠ '"' ∧ c ≠ '\'') :
    Passed s := by
  induction s with
  | nil => exact passed_nil
  | cons c s ih =>
    obtain ⟨⟨hend, hdouble, hsingle⟩, hs⟩ := List.forall_mem_cons.mp h
    intro after
    simp only [List.cons_append, tagEnd?, beq_iff_eq, hend, hdouble, hsingle, if_false, ih hs after,
      Option.map_map, Bool.or_eq_true, or_self]
    rfl

lemma tagEnd?_quoted {quote : Char} {s : List Char} (h : quote ∉ s) (after : List Char) :
    tagEnd? (some quote) (s ++ quote :: after) =
      (tagEnd? none after).map fun p => (s ++ quote :: p.1, p.2) := by
  induction s with
  | nil => simp [tagEnd?]
  | cons c s ih =>
    obtain ⟨hc, hs⟩ : quote ≠ c ∧ quote ∉ s := by simpa using h
    simp only [List.cons_append, tagEnd?, beq_iff_eq, Ne.symm hc, if_false, ih hs, Option.map_map]
    rfl

/-- A quoted value hides whatever stands in it. -/
lemma passed_quoted {quote : Char} (hquote : quote = '"' ∨ quote = '\'') {s : List Char}
    (h : quote ∉ s) : Passed (quote :: (s ++ [quote])) := by
  intro after
  have hend : quote ≠ '>' := by rcases hquote with rfl | rfl <;> decide
  have hopens : (quote == '"' || quote == '\'') = true := by simpa using hquote
  rw [List.cons_append, List.append_assoc, List.singleton_append, tagEnd?,
    if_neg (by simpa using hend), hopens, if_pos rfl, tagEnd?_quoted h, Option.map_map]
  simp [Function.comp_def]

lemma Blanks.passed (blanks : Blanks) : Passed blanks.chars :=
  passed_of_forall fun c hc =>
    have h := blanks.blank c hc
    ⟨ne_of_isSpace h rfl, ne_of_isSpace h rfl, ne_of_isSpace h rfl⟩

lemma Name.passed (name : Name) : Passed name.chars :=
  passed_of_forall fun c hc =>
    have ⟨_, _, hend, _, hdouble, hsingle, _⟩ := isNameChar_iff.mp (name.plain c hc)
    ⟨hend, hdouble, hsingle⟩

/-- Escaped text has no quotes and no brackets. -/
lemma notMem_escape {c : Char} (h : isMarkup c = true) (hc : c ≠ '&') (s : List Char) :
    c ∉ escape s := by
  rw [escape, List.mem_flatMap]
  rintro ⟨d, -, hmem⟩
  cases hd : isMarkup d with
  | false =>
    rw [escapeChar_of_not_isMarkup hd, List.mem_singleton] at hmem
    rw [← hmem, h] at hd
    cases hd
  | true =>
    simp only [isMarkup, Bool.or_eq_true, beq_iff_eq] at h hd
    rcases hd with (((rfl | rfl) | rfl) | rfl) | rfl <;>
      rcases h with (((rfl | rfl) | rfl) | rfl) | rfl <;>
        first | exact hc rfl | exact absurd hmem (by decide)

lemma WrittenAttribute.quote_notMem (attr : WrittenAttribute) :
    attr.quote ∉ escape attr.value := by
  rcases attr.isQuote with h | h <;> rw [h] <;> exact notMem_escape rfl (by decide) _

lemma WrittenAttribute.passed (attr : WrittenAttribute) : Passed attr.chars := by
  have hsign : Passed ['='] := passed_of_forall (by simp)
  have hquoted : Passed attr.quoted :=
    passed_quoted attr.isQuote attr.quote_notMem
  exact attr.before.passed.append (attr.name.passed.append
    (attr.beforeSign.passed.append (hsign.append (attr.afterSign.passed.append hquoted))))

lemma WrittenTag.passed (tag : WrittenTag) : Passed tag.chars :=
  tag.name.passed.append ((passed_flatMap WrittenAttribute.passed _).append tag.after.passed)

lemma Passed.tagEnd? {s : List Char} (h : Passed s) (after : List Char) :
    Xml.tagEnd? none (s ++ '>' :: after) = some (s, after) := by
  rw [h, Xml.tagEnd?]
  simp

/-- A text that does not end with a slash. -/
def EndsOpen (s : List Char) : Prop := s.getLast? ≠ some '/'

lemma EndsOpen.append {s t : List Char} (hs : EndsOpen s) (ht : EndsOpen t) :
    EndsOpen (s ++ t) := by
  rw [EndsOpen, List.getLast?_append]
  cases h : t.getLast? with
  | none => exact hs
  | some c =>
    rw [EndsOpen, h] at ht
    exact ht

lemma endsOpen_of_forall {s : List Char} (h : ∀ c ∈ s, c ≠ '/') : EndsOpen s :=
  fun hlast => h '/' (List.mem_of_getLast? hlast) rfl

lemma WrittenAttribute.endsOpen (attr : WrittenAttribute) : EndsOpen attr.chars := by
  have hlast : attr.chars.getLast? = some attr.quote := by
    simp [WrittenAttribute.chars, WrittenAttribute.quoted, List.getLast?_append, List.getLast?_cons]
  rw [EndsOpen, hlast]
  rcases attr.isQuote with h | h <;> rw [h] <;> decide

lemma WrittenTag.endsOpen (tag : WrittenTag) : EndsOpen tag.chars := by
  have hname : EndsOpen tag.name.chars := endsOpen_of_forall fun c hc =>
    have ⟨_, _, _, _, _, _, _, hslash, _⟩ := isNameChar_iff.mp (tag.name.plain c hc)
    hslash
  have hattributes : ∀ attributes : List WrittenAttribute,
      EndsOpen (attributes.flatMap WrittenAttribute.chars) := by
    intro attributes
    induction attributes with
    | nil => exact nofun
    | cons attr attributes ih =>
      rw [List.flatMap_cons]
      exact attr.endsOpen.append ih
  have hafter : EndsOpen tag.after.chars := endsOpen_of_forall fun c hc =>
    ne_of_isSpace (tag.after.blank c hc) rfl
  exact hname.append ((hattributes _).append hafter)

lemma WrittenTag.ofContent (tag : WrittenTag) : Tag.ofContent tag.chars = tag.tag := by
  obtain ⟨htake, hdrop⟩ := tag.name.takeWhile_dropWhile_append tag.startsBlank_rest
  rw [Tag.ofContent, WrittenTag.chars, htake, hdrop]
  rfl

lemma WrittenTag.ofTag (tag : WrittenTag) : Token.ofTag tag.chars = .opening tag.tag := by
  rw [Token.ofTag, if_neg (by simpa [EndsOpen] using tag.endsOpen), tag.ofContent]

lemma WrittenTag.ofTag_slash (tag : WrittenTag) :
    Token.ofTag (tag.chars ++ ['/']) = .empty tag.tag := by
  rw [Token.ofTag, List.getLast?_concat, if_pos (by rfl), List.dropLast_concat, tag.ofContent]

/-- A name does not begin like another kind of markup. -/
lemma Name.exists_cons (name : Name) :
    ∃ c s, name.chars = c :: s ∧ c ≠ '!' ∧ c ≠ '?' ∧ c ≠ '/' := by
  obtain ⟨c, s, hname⟩ := List.exists_cons_of_ne_nil name.ne_nil
  have hmem : c ∈ name.chars := by
    rw [hname]
    exact List.mem_cons_self
  have ⟨_, _, _, _, _, _, _, hslash, hmark, hquestion⟩ := isNameChar_iff.mp (name.plain c hmem)
  exact ⟨c, s, hname, hmark, hquestion, hslash⟩

lemma WrittenTag.front?_append (tag : WrittenTag) (s : List Char) :
    front? ('<' :: (tag.chars ++ s)) =
      (tagEnd? none (tag.chars ++ s)).map fun p => (Token.ofTag p.1, p.2) := by
  obtain ⟨c, name, hname, hmark, hquestion, hslash⟩ := tag.name.exists_cons
  rw [WrittenTag.chars, hname, List.cons_append, List.cons_append, front?] <;> simp_all

/-- An opening tag is read off the front, whatever follows. -/
lemma WrittenTag.front?_opening (tag : WrittenTag) (after : List Char) :
    front? ('<' :: (tag.chars ++ '>' :: after)) = some (.opening tag.tag, after) := by
  rw [tag.front?_append, tag.passed.tagEnd?, Option.map_some, tag.ofTag]

/-- A tag that closes itself is read off the front, whatever follows. -/
lemma WrittenTag.front?_empty (tag : WrittenTag) (after : List Char) :
    front? ('<' :: (tag.chars ++ '/' :: '>' :: after)) = some (.empty tag.tag, after) := by
  have hpassed : Passed (tag.chars ++ ['/']) := tag.passed.append (passed_of_forall (by simp))
  have hend := hpassed.tagEnd? after
  rw [List.append_assoc, List.singleton_append] at hend
  rw [tag.front?_append, hend, Option.map_some, tag.ofTag_slash]

/-- A closing tag is read off the front, whatever follows. -/
lemma front?_closing (name : Name) (blanks : Blanks) (after : List Char) :
    front? ('<' :: '/' :: (name.chars ++ blanks.chars ++ '>' :: after)) =
      some (.closing name.chars, after) := by
  have hname : Text.dropEndWhile isSpace (name.chars ++ blanks.chars) = name.chars := by
    obtain ⟨c, s, hreverse⟩ :=
      List.exists_cons_of_ne_nil (List.reverse_ne_nil_iff.mpr name.ne_nil)
    have hc : isSpace c = false := name.isSpace_eq_false c (by
      rw [← List.mem_reverse, hreverse]
      exact List.mem_cons_self)
    rw [Text.dropEndWhile, List.reverse_append,
      List.dropWhile_append_of_pos (by simpa using blanks.blank), hreverse,
      List.dropWhile_cons_of_neg (by simp [hc]), ← hreverse, List.reverse_reverse]
  rw [front?, (name.passed.append blanks.passed).tagEnd?, Option.map_some, hname]

lemma attributesAfter_of_blank {s : List Char} (hs : ∀ c ∈ s, isSpace c = true)
    (seen : List (List Char)) : attributesAfter seen s = [] := by
  have hnil : s.dropWhile isSpace = [] := by simpa using hs
  rw [attributesAfter]
  split
  · rfl
  · rename_i heq
    rw [hnil] at heq
    cases heq

lemma attributesAfter_of_read {seen : List (List Char)} {s s' key value rest : List Char} {c : Char}
    (hs : s.dropWhile isSpace = c :: s')
    (hread : AttributeFront.read seen c s' = ⟨some key, some value, rest⟩) :
    attributesAfter seen s = (key, value) :: attributesAfter (key :: seen) rest := by
  rw [attributesAfter]
  split
  · rename_i heq
    rw [hs] at heq
    cases heq
  · rename_i heq
    rw [hs] at heq
    cases heq
    simp only [hread]
    rfl

lemma ofValue_quoted (attr : WrittenAttribute) (key rest : List Char) :
    AttributeFront.ofValue key (attr.quoted ++ rest) =
      ⟨some key, some (escape attr.value), rest⟩ := by
  have hvalue : ∀ c ∈ escape attr.value, (c != attr.quote) = true := by
    intro c hc
    rw [bne_iff_ne]
    rintro rfl
    exact attr.quote_notMem hc
  have hquote : (attr.quote == '"' || attr.quote == '\'') = true := by simpa using attr.isQuote
  obtain ⟨htake, hdrop⟩ :=
    takeWhile_dropWhile_append (t := attr.quote :: rest) hvalue (by simp)
  rw [WrittenAttribute.quoted, List.cons_append, List.append_assoc, List.singleton_append,
    AttributeFront.ofValue, hquote, if_pos rfl, htake, hdrop]

lemma WrittenAttribute.dropWhile_afterSign (attr : WrittenAttribute) (rest : List Char) :
    (attr.afterSign.chars ++ (attr.quoted ++ rest)).dropWhile isSpace = attr.quoted ++ rest := by
  refine (takeWhile_dropWhile_append attr.afterSign.blank ?_).2
  have hquote : isSpace attr.quote = false := by
    rcases attr.isQuote with h | h <;> rw [h] <;> rfl
  simpa [WrittenAttribute.quoted] using hquote

/-- A key ends at a blank or at the sign, and its value stands behind the sign. -/
lemma read_attribute (attr : WrittenAttribute) {c : Char} {name : List Char}
    (hname : attr.name.chars = c :: name) {seen : List (List Char)}
    (hseen : attr.name.chars ∉ seen) (rest : List Char) :
    AttributeFront.read seen c (name ++ (attr.beforeSign.chars ++
        '=' :: (attr.afterSign.chars ++ (attr.quoted ++ rest)))) =
      ⟨some attr.name.chars, some (escape attr.value), rest⟩ := by
  have hkey : ∀ d ∈ name, isKeyChar d = true := by
    intro d hd
    have hmem : d ∈ attr.name.chars := by
      rw [hname]
      exact List.mem_cons_of_mem c hd
    have ⟨hspace, _, _, _, _, _, hsign, _⟩ := isNameChar_iff.mp (attr.name.plain d hmem)
    simp [isKeyChar, hspace, hsign]
  have hstop : ∀ d ∈ (attr.beforeSign.chars ++
      '=' :: (attr.afterSign.chars ++ (attr.quoted ++ rest))).head?, isKeyChar d = false := by
    have hblank := attr.beforeSign.startsBlank
    cases h : attr.beforeSign.chars with
    | nil => simp [isKeyChar]
    | cons b blanks => simp [isKeyChar, hblank b (by rw [h]; rfl)]
  obtain ⟨htake, hdrop⟩ := takeWhile_dropWhile_append hkey hstop
  have hsign := (takeWhile_dropWhile_append attr.beforeSign.blank
    (t := '=' :: (attr.afterSign.chars ++ (attr.quoted ++ rest))) (by simp [isSpace])).2
  rw [hname] at hseen ⊢
  rw [AttributeFront.read, htake, hdrop, hsign]
  simp only [attr.dropWhile_afterSign, ofValue_quoted]
  rw [if_neg (by simpa using hseen)]

/-- An attribute is read off the characters that write it, unless its name was there before. -/
lemma attributesAfter_chars (attr : WrittenAttribute) {seen : List (List Char)}
    (hseen : attr.name.chars ∉ seen) (rest : List Char) :
    attributesAfter seen (attr.chars ++ rest) =
      (attr.name.chars, escape attr.value) ::
        attributesAfter (attr.name.chars :: seen) rest := by
  obtain ⟨c, name, hname⟩ := List.exists_cons_of_ne_nil attr.name.ne_nil
  have hspace : isSpace c = false := attr.name.isSpace_eq_false c (by simp [hname])
  have hfront : (attr.chars ++ rest).dropWhile isSpace = c :: (name ++ (attr.beforeSign.chars ++
      '=' :: (attr.afterSign.chars ++ (attr.quoted ++ rest)))) := by
    rw [WrittenAttribute.chars, hname]
    simp only [List.append_assoc, List.cons_append]
    exact (takeWhile_dropWhile_append attr.before.blank (by simpa using hspace)).2
  exact attributesAfter_of_read hfront (read_attribute attr hname hseen rest)

/-- The attributes of a tag are those that were written, with their values escaped. -/
theorem WrittenTag.attributes_tag (tag : WrittenTag) :
    tag.tag.attributes = tag.attributes.map fun a => (a.name.chars, escape a.value) := by
  have hall : ∀ (attributes : List WrittenAttribute) (seen : List (List Char)),
      (attributes.map (·.name.chars)).Nodup → (∀ a ∈ attributes, a.name.chars ∉ seen) →
      attributesAfter seen (attributes.flatMap WrittenAttribute.chars ++ tag.after.chars) =
        attributes.map fun a => (a.name.chars, escape a.value) := by
    intro attributes
    induction attributes with
    | nil => exact fun seen _ _ => attributesAfter_of_blank tag.after.blank seen
    | cons a attributes ih =>
      intro seen hdistinct hseen
      obtain ⟨ha, hdistinct⟩ := List.nodup_cons.mp hdistinct
      obtain ⟨hfirst, hseen⟩ := List.forall_mem_cons.mp hseen
      rw [List.flatMap_cons, List.append_assoc, attributesAfter_chars a hfirst, List.map_cons,
        ih _ hdistinct]
      intro b hb
      rw [List.mem_cons, not_or]
      refine ⟨fun heq => ha ?_, hseen b hb⟩
      exact List.mem_map.mpr ⟨b, hb, heq⟩
  exact hall tag.attributes [] tag.distinct fun a _ => List.not_mem_nil

/-- Reading undoes escaping exactly for the texts that refer to no character by its number, and the
values of the attributes of a tag are read back as they were written exactly if none of them does
so. -/
theorem unescape_undoes_escape_iff (s : List Char) (tag : WrittenTag) :
    (unescape (escape s) = s ↔ ¬ HoldsNumberReference s) ∧
      (tag.tag.attributes.map (fun a => (a.1, unescape a.2)) =
          tag.attributes.map (fun a => (a.name.chars, a.value)) ↔
        ∀ a ∈ tag.attributes, ¬ HoldsNumberReference a.value) := by
  refine ⟨unescape_escape_eq_self_iff, ?_⟩
  rw [tag.attributes_tag, List.map_map, List.map_inj_left]
  refine forall₂_congr fun a _ => ?_
  rw [Function.comp_apply, Prod.mk.injEq, unescape_escape_eq_self_iff]
  exact and_iff_right rfl

/-- The text `&#65;` is escaped as `&amp;#65;` and read back as the letter of that number. -/
theorem unescape_escape_number_ne :
    unescape (escape "&#65;".toList) = "A".toList ∧
      unescape (escape "&#65;".toList) ≠ "&#65;".toList := by
  have hread : unescape (escape "&#65;".toList) = "A".toList := by
    have hnumber : numbered? "&#65;".toList = some ('A', []) := by decide
    rw [unescape_escape, replaceReferences_of_some hnumber, replaceReferences_nil]
    rfl
  exact ⟨hread, by rw [hread]; decide⟩

end ImageRecipe.Xml
