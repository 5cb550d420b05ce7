import ImageRecipe.Proofs.WrittenTags
import ImageRecipe.Xml.Property

/-!
# Properties of written packets

Content is written with escaped texts, character data sections and elements. The
search for a property goes over its tokens with a count of the open elements, and
yet it finds what is said of the tree: the first value that is not blank among
the attributes and the outermost elements of that name, in the order in which
they stand in the packet.
-/
namespace ImageRecipe.Xml

/-- What a character data section begins with. -/
def sectionStart : List Char := ['<', '!', '[', 'C', 'D', 'A', 'T', 'A', '[']

/-- What a character data section ends with. -/
def sectionEnd : List Char := [']', ']', '>']

/-- What stands between two tags: a piece and what follows it. A section does not hold its own
end. -/
inductive Content where
  | done
  | text (s : List Char) (rest : Content)
  | section (s : List Char) (closed : ¬ sectionEnd <:+: s) (rest : Content)
  /-- An element that closes itself. -/
  | empty (tag : WrittenTag) (rest : Content)
  /-- An element with content, and the blanks at the end of its closing tag. -/
  | element (tag : WrittenTag) (inner : Content) (blanks : Blanks) (rest : Content)

/-- The value of an attribute of a tag. -/
def WrittenTag.value? (tag : WrittenTag) (name : List Char) : Option (List Char) :=
  (tag.attributes.find? (·.name.chars == name)).map (·.value)

namespace Content

/-- The characters that write content. -/
def chars : Content → List Char
  | done => []
  | text s rest => escape s ++ rest.chars
  | .section s _ rest => sectionStart ++ (s ++ (sectionEnd ++ rest.chars))
  | empty tag rest => '<' :: (tag.chars ++ '/' :: '>' :: rest.chars)
  | element tag inner blanks rest =>
    '<' :: (tag.chars ++ '>' :: (inner.chars ++
      '<' :: '/' :: (tag.name.chars ++ blanks.chars ++ '>' :: rest.chars)))

/-- All texts and sections, however deep they stand. -/
def data : Content → List Char
  | done => []
  | text s rest => s ++ rest.data
  | .section s _ rest => s ++ rest.data
  | empty _ rest => rest.data
  | element _ inner _ rest => inner.data ++ rest.data

/-- The values of a property in their order. An element of that name has its text for a value, and
nothing in it is one of its own; other elements have the value of their attribute. -/
def sites (name : List Char) : Content → List (List Char)
  | done => []
  | text _ rest => rest.sites name
  | .section _ _ rest => rest.sites name
  | empty tag rest => (tag.value? name).toList ++ rest.sites name
  | element tag inner _ rest =>
    (if tag.name.chars = name then [inner.data]
      else (tag.value? name).toList ++ inner.sites name) ++ rest.sites name

/-- The values of all attributes. -/
def attributeValues : Content → List (List Char)
  | done => []
  | text _ rest => rest.attributeValues
  | .section _ _ rest => rest.attributeValues
  | empty tag rest => tag.attributes.map (·.value) ++ rest.attributeValues
  | element tag inner _ rest =>
    tag.attributes.map (·.value) ++ (inner.attributeValues ++ rest.attributeValues)

end Content

lemma tokens_of_front? {s rest : List Char} {token : Token}
    (h : front? s = some (token, rest)) : tokens s = token :: tokens rest := by
  rw [tokens]
  split
  · rename_i heq
    rw [h] at heq
    cases heq
  · rename_i heq
    rw [h] at heq
    cases heq
    rfl

/-- Of the pieces that were collected only what they say together matters, and outside of the
property not even that. Induction on the tokens. -/
lemma propertyAfter?_congr {name : List Char} {opened : List (List Char)} {depth : Nat}
    {before after : List (List Char)}
    (h : 0 < depth → before.reverse.flatten = after.reverse.flatten) (toks : List Token) :
    propertyAfter? name opened depth before toks = propertyAfter? name opened depth after toks := by
  induction toks generalizing opened depth before after with
  | nil => rfl
  | cons token toks ih =>
    have hpiece : ∀ piece, 0 < depth → (withPiece depth before piece).reverse.flatten =
        (withPiece depth after piece).reverse.flatten := by
      intro piece hdepth
      simp [withPiece, hdepth, h hdepth]
    cases token with
    | text s => exact ih (hpiece _)
    | reference entity => exact ih (hpiece _)
    | «section» s => exact ih (hpiece _)
    | other => exact ih h
    | opening tag =>
      simp only [propertyAfter?]
      split
      · rename_i hdepth
        exact ih fun _ => h hdepth
      · rfl
    | empty tag =>
      simp only [propertyAfter?]
      split
      · exact ih h
      · rfl
    | closing closed =>
      cases opened with
      | nil => rfl
      | cons last opened =>
        simp only [propertyAfter?]
        split
        · rfl
        · split
          · rename_i hdepth
            rw [h (by simp [eq_of_beq hdepth])]
          · exact ih fun hdepth => h (by omega)

/-- The search for a property in a text, with the names of the open elements, the number of those
from the property on and its text so far. -/
def searchFrom (name : List Char) (opened : List (List Char)) (depth : Nat)
    (collected s : List Char) : Option String :=
  propertyAfter? name opened depth [collected] (tokens s)

section Search

variable {name collected s rest : List Char} {opened : List (List Char)} {depth : Nat}

lemma propertyAfter?_withPiece (piece : List Char) (toks : List Token) :
    propertyAfter? name opened depth (withPiece depth [collected] piece) toks =
      propertyAfter? name opened depth [collected ++ piece] toks :=
  propertyAfter?_congr (fun hdepth => by simp [withPiece, hdepth]) toks

lemma propertyAfter?_nil (s : List Char) :
    propertyAfter? name opened depth [] (tokens s) = searchFrom name opened depth [] s := by
  rw [searchFrom]
  refine propertyAfter?_congr (fun _ => ?_) _
  rfl

/-- Outside of the property nothing is collected. -/
lemma searchFrom_outside (collected s : List Char) :
    searchFrom name opened 0 collected s = searchFrom name opened 0 [] s :=
  propertyAfter?_congr (fun h => absurd h (Nat.lt_irrefl 0)) _

lemma searchFrom_nil : searchFrom name opened depth collected [] = none := by
  rw [searchFrom, tokens]
  rfl

/-- A run of character data is collected as it stands. -/
lemma searchFrom_run (s : List Char) : searchFrom name opened depth collected s =
    searchFrom name opened depth (collected ++ s.takeWhile isData) (s.dropWhile isData) := by
  cases s with
  | nil => simp
  | cons c s =>
    cases hc : isData c with
    | false =>
      rw [List.takeWhile_cons_of_neg (by simp [hc]), List.dropWhile_cons_of_neg (by simp [hc]),
        List.append_nil]
    | true =>
      obtain ⟨hopen, hreference⟩ : c ≠ '<' ∧ c ≠ '&' := by simpa [isData] using hc
      have hfront : front? (c :: s) =
          some (.text (c :: s.takeWhile isData), s.dropWhile isData) := by
        rw [front?] <;> simp_all
      have hplain : '&' ∉ c :: s.takeWhile isData := by
        intro hmem
        rcases List.mem_cons.mp hmem with rfl | hmem
        · exact hreference rfl
        · exact absurd (List.mem_takeWhile_imp hmem) (by decide)
      rw [searchFrom, tokens_of_front? hfront, propertyAfter?, unescape_eq_self hplain,
        propertyAfter?_withPiece, List.takeWhile_cons_of_pos hc, List.dropWhile_cons_of_pos hc]
      rfl

lemma unescape_escapeChar (c : Char) : unescape (escapeChar c) = [c] := by
  have hplain : ¬ HoldsNumberReference [c] := by
    rintro ⟨reference, d, hreference, hwithin⟩
    have hlt := hreference.two_lt_length
    have hle := hwithin.length_le
    rw [List.length_singleton] at hle
    omega
  have h := unescape_escape_eq_self_iff.mpr hplain
  rwa [escape, List.flatMap_singleton] at h

lemma exists_front?_escapeChar {c : Char} (h : isMarkup c = true) (s : List Char) :
    ∃ entity, escapeChar c = '&' :: entity ++ [';'] ∧
      front? (escapeChar c ++ s) = some (.reference entity, s) := by
  simp only [isMarkup, Bool.or_eq_true, beq_iff_eq] at h
  rcases h with (((rfl | rfl) | rfl) | rfl) | rfl
  · exact ⟨"amp".toList, rfl, rfl⟩
  · exact ⟨"lt".toList, rfl, rfl⟩
  · exact ⟨"gt".toList, rfl, rfl⟩
  · exact ⟨"quot".toList, rfl, rfl⟩
  · exact ⟨"apos".toList, rfl, rfl⟩

/-- An escaped character is collected, whether it stands for itself or is named. -/
lemma searchFrom_escapeChar (c : Char) (s : List Char) :
    searchFrom name opened depth collected (escapeChar c ++ s) =
      searchFrom name opened depth (collected ++ [c]) s := by
  cases hc : isMarkup c with
  | true =>
    obtain ⟨entity, hentity, hfront⟩ := exists_front?_escapeChar hc s
    rw [searchFrom, tokens_of_front? hfront, propertyAfter?, ← hentity, unescape_escapeChar,
      propertyAfter?_withPiece]
    rfl
  | false =>
    have hdata : isData c = true := by
      simp only [isMarkup, Bool.or_eq_false_iff, beq_eq_false_iff_ne] at hc
      simp [isData, hc]
    rw [escapeChar_of_not_isMarkup hc, List.singleton_append, searchFrom_run (c :: s),
      searchFrom_run s, List.takeWhile_cons_of_pos hdata, List.dropWhile_cons_of_pos hdata,
      List.append_assoc, List.singleton_append]

lemma searchFrom_escape (t s : List Char) :
    searchFrom name opened depth collected (escape t ++ s) =
      searchFrom name opened depth (collected ++ t) s := by
  induction t generalizing collected with
  | nil => simp [escape]
  | cons c t ih =>
    rw [escape, List.flatMap_cons, ← escape, List.append_assoc, searchFrom_escapeChar, ih,
      List.append_assoc, List.singleton_append]

/-- A section ends at the first end of one. -/
lemma cut?_section {t : List Char} (h : ¬ sectionEnd <:+: t) (s : List Char) :
    Text.cut? sectionEnd (t ++ (sectionEnd ++ s)) = some (t, s) := by
  induction t with
  | nil => rfl
  | cons c t ih =>
    have hafter : Text.after? sectionEnd (c :: (t ++ (sectionEnd ++ s))) = none := by
      rw [Option.eq_none_iff_forall_ne_some]
      intro rest hrest
      have heq := Text.after?_eq_some_iff.mp hrest
      -- an end that begins in the section would have to end there too
      match t, heq with
      | [], heq => simp [sectionEnd] at heq
      | [d], heq => simp [sectionEnd] at heq
      | d :: e :: t, heq =>
        simp only [sectionEnd, List.cons_append, List.cons.injEq] at heq
        obtain ⟨rfl, rfl, rfl, -⟩ := heq
        exact h ⟨[], t, rfl⟩
    have ht : ¬ sectionEnd <:+: t := fun hwithin => h (hwithin.trans (List.suffix_cons c t).isInfix)
    rw [List.cons_append, Text.cut?, hafter, ih ht]
    rfl

lemma front?_section {t : List Char} (h : ¬ sectionEnd <:+: t) (s : List Char) :
    front? (sectionStart ++ (t ++ (sectionEnd ++ s))) = some (.section t, s) := by
  have hcut : Text.cut? "]]>".toList (t ++ (sectionEnd ++ s)) = some (t, s) := cut?_section h s
  have hkeyword : afterKeyword? "[CDATA[".toList
      ("[CDATA[".toList ++ (t ++ (sectionEnd ++ s))) = some (t ++ (sectionEnd ++ s)) := rfl
  have hcomment : Text.after? "--".toList
      ("[CDATA[".toList ++ (t ++ (sectionEnd ++ s))) = none := rfl
  change declaration? ("[CDATA[".toList ++ (t ++ (sectionEnd ++ s))) = some (.section t, s)
  rw [declaration?, hcomment]
  simp only [hkeyword, hcut]
  rfl

lemma searchFrom_section {t : List Char} (h : ¬ sectionEnd <:+: t) (s : List Char) :
    searchFrom name opened depth collected (sectionStart ++ (t ++ (sectionEnd ++ s))) =
      searchFrom name opened depth (collected ++ t) s := by
  rw [searchFrom, tokens_of_front? (front?_section h s), propertyAfter?, propertyAfter?_withPiece]
  rfl

/-- A value without the blanks at its ends, if anything else is left of it. -/
def nonBlankValue? (value : List Char) : Option String := Text.nonBlank? (String.ofList value)

/-- Behind an opening tag the search goes on in its element, which may be the property or have it
for an attribute. -/
lemma searchFrom_opening (tag : WrittenTag) (s : List Char) :
    searchFrom name opened depth collected ('<' :: (tag.chars ++ '>' :: s)) =
      if 0 < depth then searchFrom name (tag.name.chars :: opened) (depth + 1) collected s
      else if tag.name.chars = name then searchFrom name (tag.name.chars :: opened) 1 [] s
      else (tag.tag.value? name).or (searchFrom name (tag.name.chars :: opened) 0 [] s) := by
  rw [searchFrom, tokens_of_front? (tag.front?_opening s), propertyAfter?,
    show tag.tag.name = tag.name.chars from rfl]
  by_cases hdepth : 0 < depth
  · rw [if_pos hdepth, if_pos hdepth]
    rfl
  rw [if_neg hdepth, if_neg hdepth]
  by_cases hname : tag.name.chars = name
  · rw [if_pos (beq_iff_eq.mpr hname), if_pos hname]
    exact propertyAfter?_nil _
  rw [if_neg (mt beq_iff_eq.mp hname), if_neg hname]
  cases tag.tag.value? name with
  | some value => rfl
  | none => exact propertyAfter?_nil _

/-- An element that closes itself counts for its attributes only. -/
lemma searchFrom_empty (tag : WrittenTag) (s : List Char) :
    searchFrom name opened depth collected ('<' :: (tag.chars ++ '/' :: '>' :: s)) =
      if 0 < depth then searchFrom name opened depth collected s
      else (tag.tag.value? name).or (searchFrom name opened 0 [] s) := by
  rw [searchFrom, tokens_of_front? (tag.front?_empty s), propertyAfter?]
  by_cases hdepth : 0 < depth
  · rw [if_pos hdepth, if_pos hdepth]
    rfl
  rw [if_neg hdepth, if_neg hdepth]
  cases tag.tag.value? name with
  | some value => rfl
  | none => exact propertyAfter?_nil _

/-- Behind the closing tag of the last open element the search goes on outside of it, unless it was
the property and its text is not blank. -/
lemma searchFrom_closing (last : Name) (blanks : Blanks) (s : List Char) :
    searchFrom name (last.chars :: opened) depth collected
        ('<' :: '/' :: (last.chars ++ blanks.chars ++ '>' :: s)) =
      if depth = 1 then (nonBlankValue? collected).or (searchFrom name opened 0 [] s)
      else searchFrom name opened (depth - 1) collected s := by
  rw [searchFrom, tokens_of_front? (front?_closing last blanks s), propertyAfter?]
  rw [if_neg (by simp)]
  by_cases hdepth : depth = 1
  · have hcollected : [collected].reverse.flatten = collected := by simp
    rw [if_pos (beq_iff_eq.mpr hdepth), if_pos hdepth, hcollected, ← nonBlankValue?]
    cases nonBlankValue? collected with
    | some value => rfl
    | none => exact propertyAfter?_nil _
  · rw [if_neg (mt beq_iff_eq.mp hdepth), if_neg hdepth]
    rfl

end Search

/-- The value of an attribute is read as it was written, unless it refers to a character by its
number. -/
lemma WrittenTag.value?_tag (tag : WrittenTag) (name : List Char)
    (h : ∀ a ∈ tag.attributes, ¬ HoldsNumberReference a.value) :
    tag.tag.value? name = (tag.value? name).bind nonBlankValue? := by
  rw [Tag.value?, tag.attributes_tag, List.find?_map, Option.bind_map, WrittenTag.value?,
    Option.bind_map]
  refine Option.bind_congr fun a ha => ?_
  have hplain := h a (List.mem_of_find?_eq_some ha)
  rw [Function.comp_apply, Function.comp_apply, unescape_escape_eq_self_iff.mpr hplain]
  rfl

/-- Inside of the property the search collects all the texts of some content. Induction on the
content, where the number of open elements is the same behind it as before it. -/
lemma searchFrom_inside (content : Content) {name : List Char} {opened : List (List Char)}
    {depth : Nat} {collected : List Char} (s : List Char) :
    searchFrom name opened (depth + 1) collected (content.chars ++ s) =
      searchFrom name opened (depth + 1) (collected ++ content.data) s := by
  induction content generalizing opened depth collected s with
  | done => simp [Content.chars, Content.data]
  | text t rest ih =>
    rw [Content.chars, List.append_assoc, searchFrom_escape, ih, Content.data, List.append_assoc]
  | «section» t closed rest ih =>
    rw [Content.chars, List.append_assoc, List.append_assoc, List.append_assoc,
      searchFrom_section closed, ih, Content.data, List.append_assoc]
  | empty tag rest ih =>
    simp only [Content.chars, List.cons_append, List.append_assoc]
    rw [searchFrom_empty, if_pos (Nat.succ_pos depth), ih, Content.data]
  | element tag inner blanks rest ihInner ih =>
    simp only [Content.chars, List.cons_append, List.append_assoc]
    rw [searchFrom_opening, if_pos (Nat.succ_pos depth), ihInner,
      ← List.append_assoc tag.name.chars, searchFrom_closing, if_neg (by omega),
      Nat.add_sub_cancel, ih, Content.data, List.append_assoc]

/-- Outside of the property the search finds the first value in some content that is not blank, or
goes on behind it. -/
lemma searchFrom_content (content : Content) {name : List Char} {opened : List (List Char)}
    {collected : List Char} (s : List Char)
    (h : ∀ v ∈ content.attributeValues, ¬ HoldsNumberReference v) :
    searchFrom name opened 0 collected (content.chars ++ s) =
      ((content.sites name).findSome? nonBlankValue?).or (searchFrom name opened 0 [] s) := by
  have hvalue : ∀ tag : WrittenTag, ((tag.value? name).toList).findSome? nonBlankValue? =
      (tag.value? name).bind nonBlankValue? := by
    intro tag
    cases tag.value? name <;> simp
  induction content generalizing opened collected s with
  | done => exact searchFrom_outside collected s
  | text t rest ih =>
    rw [Content.chars, List.append_assoc, searchFrom_escape, ih s h]
    rfl
  | «section» t closed rest ih =>
    rw [Content.chars, List.append_assoc, List.append_assoc, List.append_assoc,
      searchFrom_section closed, ih s h]
    rfl
  | empty tag rest ih =>
    obtain ⟨htag, hrest⟩ := List.forall_mem_append.mp h
    simp only [Content.chars, List.cons_append, List.append_assoc]
    rw [searchFrom_empty, if_neg (Nat.lt_irrefl 0), ih s hrest, Content.sites,
      List.findSome?_append, hvalue, Option.or_assoc, tag.value?_tag name (by simpa using htag)]
  | element tag inner blanks rest ihInner ih =>
    obtain ⟨htag, h⟩ := List.forall_mem_append.mp h
    obtain ⟨hinner, hrest⟩ := List.forall_mem_append.mp h
    simp only [Content.chars, List.cons_append, List.append_assoc]
    rw [searchFrom_opening, if_neg (Nat.lt_irrefl 0), Content.sites, List.findSome?_append]
    by_cases hname : tag.name.chars = name
    · rw [if_pos hname, if_pos hname, searchFrom_inside inner, ← List.append_assoc tag.name.chars,
        searchFrom_closing, if_pos rfl, List.nil_append, ih s hrest, List.findSome?_singleton,
        Option.or_assoc]
    · rw [if_neg hname, if_neg hname, ihInner _ hinner, ← List.append_assoc tag.name.chars,
        searchFrom_closing, if_neg (by omega), ih s hrest, List.findSome?_append, hvalue,
        tag.value?_tag name (by simpa using htag), Option.or_assoc, Option.or_assoc]

/-- A mark at the beginning of a packet makes no difference. -/
lemma searchFrom_withoutMark (name s : List Char) :
    searchFrom name [] 0 [] (withoutMark s) = searchFrom name [] 0 [] s := by
  unfold withoutMark
  split
  · rename_i s
    have hmark : searchFrom name [] 0 [] (escapeChar '\uFEFF' ++ s) =
        searchFrom name [] 0 ['\uFEFF'] s := searchFrom_escapeChar _ s
    rw [escapeChar_of_not_isMarkup rfl, List.singleton_append, searchFrom_outside _ s] at hmark
    exact hmark.symm
  · rfl

lemma property?_eq_searchFrom (s : List Char) (name : String) :
    property? (String.ofList s) name = searchFrom name.toList [] 0 [] s := by
  rw [← searchFrom_withoutMark, property?, String.toList_ofList]
  exact propertyAfter?_nil _

/-- A property of a packet that was written is the first of its values that is not blank, without
the blanks at its ends. Texts and sections may hold anything, and the values of attributes anything
but references to characters by their numbers. -/
theorem property?_chars (content : Content) (name : String)
    (h : ∀ v ∈ content.attributeValues, ¬ HoldsNumberReference v) :
    property? (String.ofList content.chars) name =
      (content.sites name.toList).findSome? fun v => Text.nonBlank? (String.ofList v) := by
  have hsearch : searchFrom name.toList [] 0 [] (content.chars ++ []) =
      ((content.sites name.toList).findSome? nonBlankValue?).or
        (searchFrom name.toList [] 0 [] []) := searchFrom_content content [] h
  rw [List.append_nil, searchFrom_nil, Option.or_none] at hsearch
  rw [property?_eq_searchFrom, hsearch]
  rfl

def noBlanks : Blanks := ⟨[], List.forall_mem_nil _⟩

def oneBlank : Blanks := ⟨[' '], List.all_eq_true.mp rfl⟩

/-- A tag without blanks at its end, with at most one attribute in double quotes. -/
def shortTag (name : Name) (attr : Option (Name × List Char)) : WrittenTag where
  name := name
  attributes := attr.toList.map fun a =>
    ⟨oneBlank, by decide, a.1, noBlanks, noBlanks, '"', .inl rfl, a.2⟩
  distinct := by cases attr <;> simp
  after := noBlanks

def titleName : Name := ⟨"dc:title".toList, by decide, List.all_eq_true.mp (by decide)⟩

def itemName : Name := ⟨"rdf:li".toList, by decide, List.all_eq_true.mp (by decide)⟩

/-- A packet with a blank title in an attribute, one in an element, a title with another title in
it, and one that comes later. -/
def titledPacket : Content :=
  .element (shortTag itemName (some (titleName, " ".toList)))
    (.element (shortTag titleName none)
        (.empty (shortTag itemName (some (titleName, "inside".toList))) .done) noBlanks
      (.element (shortTag titleName none)
          (.text " fish <".toList
            (.section " & ".toList (by decide)
              (.element (shortTag titleName none) (.text "chips ".toList .done) noBlanks .done)))
          oneBlank
        (.empty (shortTag itemName (some (titleName, "later".toList))) .done)))
    noBlanks .done

theorem property?_chars_titledPacket :
    (∀ v ∈ titledPacket.attributeValues, ¬ HoldsNumberReference v) ∧
      property? (String.ofList titledPacket.chars) "dc:title" = some "fish < & chips" := by
  have hvalues : ∀ v ∈ titledPacket.attributeValues, ¬ HoldsNumberReference v := fun v hv =>
    not_holdsNumberReference ((by decide : ∀ v ∈ titledPacket.attributeValues, '&' ∉ v) v hv)
  refine ⟨hvalues, ?_⟩
  rw [property?_chars titledPacket "dc:title" hvalues]
  decide +kernel

end ImageRecipe.Xml
