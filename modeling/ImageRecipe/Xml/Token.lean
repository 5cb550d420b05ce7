import ImageRecipe.Text.Search

/-!
# Tokens of an XML text

A text is cut into character data, references, character data sections, tags
and markup without content. What begins at a place is decided by the next one
or two characters. A quoted value hides the end of a tag, and a broken place
ends the text.
-/
namespace ImageRecipe.Xml

/-- The four characters that count as blank in markup. -/
def isSpace (c : Char) : Bool := c == ' ' || c == '\t' || c == '\n' || c == '\r'

/-- A tag: its name, and all that stands behind the name. -/
structure Tag where
  name : List Char
  rest : List Char
  deriving DecidableEq, Repr

inductive Token where
  | text (s : List Char)
  /-- What stands between an ampersand and its semicolon. -/
  | reference (name : List Char)
  /-- The content of a character data section. -/
  | section (s : List Char)
  | opening (tag : Tag)
  /-- A tag that closes itself. -/
  | empty (tag : Tag)
  | closing (name : List Char)
  /-- A comment, an instruction or a document type. -/
  | other
  deriving DecidableEq, Repr

/-- What stands before the `>` that ends a tag and what follows it; `quote` is the quote that is
open. -/
def tagEnd? : Option Char → List Char → Option (List Char × List Char)
  | _, [] => none
  | some quote, c :: s =>
    (tagEnd? (if c == quote then none else some quote) s).map fun p => (c :: p.1, p.2)
  | none, c :: s =>
    if c == '>' then some ([], s)
    else
      (tagEnd? (if c == '"' || c == '\'' then some c else none) s).map fun p => (c :: p.1, p.2)

/-- The tag with the given content. -/
def Tag.ofContent (content : List Char) : Tag :=
  ⟨content.takeWhile fun c => !isSpace c, content.dropWhile fun c => !isSpace c⟩

/-- An opening tag, or one that closes itself if a slash ends it. -/
def Token.ofTag (content : List Char) : Token :=
  if content.getLast? == some '/' then .empty (.ofContent content.dropLast)
  else .opening (.ofContent content)

/-- What follows `front`, the case of ASCII letters in the text aside; `front` is in capitals. -/
def afterKeyword? : List Char → List Char → Option (List Char)
  | [], s => some s
  | c :: front, d :: s => if c == d.toUpper then afterKeyword? front s else none
  | _ :: _, [] => none

/-- Where one is in a document type. -/
inductive DoctypePart where
  /-- Outside the brackets. -/
  | outer
  /-- Inside the brackets, between declarations. -/
  | inner
  /-- Inside a declaration in the brackets. -/
  | declaration
  /-- Inside quotes, in the part that they interrupt. -/
  | quoted (quote : Char) (outside : Bool)
  deriving DecidableEq, Repr

/-- The part behind a character. -/
def DoctypePart.next (part : DoctypePart) (c : Char) : DoctypePart :=
  match part with
  | .outer =>
    if c == '"' || c == '\'' then .quoted c true else if c == '[' then .inner else .outer
  | .inner => if c == ']' then .outer else if c == '<' then .declaration else .inner
  | .declaration =>
    if c == '"' || c == '\'' then .quoted c false else if c == '>' then .inner else .declaration
  | .quoted quote outside =>
    if c != quote then part else if outside then .outer else .declaration

/-- What stands before the `>` that ends a document type and what follows it. -/
def doctypeEnd? : DoctypePart → List Char → Option (List Char × List Char)
  | _, [] => none
  | part, c :: s =>
    if part = .outer && c == '>' then some ([], s)
    else (doctypeEnd? (part.next c) s).map fun p => (c :: p.1, p.2)

/-- What begins with `<!`: a comment, a character data section, or a document type that is named.
The keywords are read in either case. -/
def declaration? (s : List Char) : Option (Token × List Char) :=
  match Text.after? "--".toList s with
  | some s => (Text.cut? "-->".toList s).map fun p => (.other, p.2)
  | none =>
    match afterKeyword? "[CDATA[".toList s with
    | some s => (Text.cut? "]]>".toList s).map fun p => (.section p.1, p.2)
    | none =>
      match afterKeyword? "DOCTYPE".toList s with
      | some s => (doctypeEnd? .outer s).bind fun p =>
        if p.1.all isSpace then none else some (.other, p.2)
      | none => none

/-- What begins with `<?`, up to the next `?>`. -/
def instruction? (s : List Char) : Option (Token × List Char) :=
  (Text.cut? "?>".toList ('?' :: s)).bind fun p => if p.1.isEmpty then none else some (.other, p.2)

/-- A reference, which has to end before other markup begins. -/
def reference? (s : List Char) : Option (Token × List Char) :=
  let isEnd (c : Char) : Bool := c == ';' || c == '&' || c == '<'
  match s.dropWhile fun c => !isEnd c with
  | ';' :: rest => some (.reference (s.takeWhile fun c => !isEnd c), rest)
  | _ => none

/-- Whether a character belongs to character data. -/
def isData (c : Char) : Bool := c != '<' && c != '&'

/-- The token at the front and what follows it; none at the end and at a broken place. -/
def front? : List Char → Option (Token × List Char)
  | [] => none
  | '&' :: s => reference? s
  | '<' :: '!' :: s => declaration? s
  | '<' :: '?' :: s => instruction? s
  | '<' :: '/' :: s =>
    (tagEnd? none s).map fun p => (.closing (Text.dropEndWhile isSpace p.1), p.2)
  | '<' :: s => (tagEnd? none s).map fun p => (.ofTag p.1, p.2)
  | c :: s => some (.text (c :: s.takeWhile isData), s.dropWhile isData)

theorem tagEnd?_length_lt {quote : Option Char} {s before rest : List Char}
    (h : tagEnd? quote s = some (before, rest)) : rest.length < s.length := by
  induction s generalizing quote before with
  | nil => simp [tagEnd?] at h
  | cons c s ih =>
    cases quote with
    | none =>
      simp only [tagEnd?] at h
      split at h
      · simp only [Option.some.injEq, Prod.mk.injEq] at h
        simp [h.2]
      · simp only [Option.map_eq_some_iff, Prod.mk.injEq] at h
        obtain ⟨⟨b, r⟩, hb, -, rfl⟩ := h
        exact Nat.lt_succ_of_lt (ih hb)
    | some quote =>
      simp only [tagEnd?, Option.map_eq_some_iff, Prod.mk.injEq] at h
      obtain ⟨⟨b, r⟩, hb, -, rfl⟩ := h
      exact Nat.lt_succ_of_lt (ih hb)

theorem doctypeEnd?_length_lt {part : DoctypePart} {s before rest : List Char}
    (h : doctypeEnd? part s = some (before, rest)) : rest.length < s.length := by
  induction s generalizing part before with
  | nil => simp [doctypeEnd?] at h
  | cons c s ih =>
    simp only [doctypeEnd?] at h
    split at h
    · simp only [Option.some.injEq, Prod.mk.injEq] at h
      simp [h.2]
    · simp only [Option.map_eq_some_iff, Prod.mk.injEq] at h
      obtain ⟨⟨b, r⟩, hb, -, rfl⟩ := h
      exact Nat.lt_succ_of_lt (ih hb)

theorem afterKeyword?_length_le {front s rest : List Char}
    (h : afterKeyword? front s = some rest) : rest.length ≤ s.length := by
  induction front generalizing s with
  | nil => simp_all [afterKeyword?]
  | cons c front ih =>
    cases s with
    | nil => simp [afterKeyword?] at h
    | cons d s =>
      simp only [afterKeyword?] at h
      split at h
      · exact Nat.le_succ_of_le (ih h)
      · simp at h

theorem declaration?_length_le {s rest : List Char} {token : Token}
    (h : declaration? s = some (token, rest)) : rest.length ≤ s.length := by
  unfold declaration? at h
  split at h
  · rename_i found
    simp only [Option.map_eq_some_iff, Prod.mk.injEq] at h
    obtain ⟨⟨b, r⟩, hc, -, rfl⟩ := h
    rw [Text.after?_eq_some_iff.1 found, Text.eq_of_cut?_eq_some hc]
    simp only [List.length_append]
    omega
  · split at h
    · rename_i found
      simp only [Option.map_eq_some_iff, Prod.mk.injEq] at h
      obtain ⟨⟨b, r⟩, hc, -, rfl⟩ := h
      have := afterKeyword?_length_le found
      rw [Text.eq_of_cut?_eq_some hc] at this
      simp only [List.length_append] at this ⊢
      omega
    · split at h
      · rename_i found
        simp only [Option.bind_eq_some_iff] at h
        obtain ⟨⟨b, r⟩, hd, h⟩ := h
        split at h
        · simp at h
        · simp only [Option.some.injEq, Prod.mk.injEq] at h
          have hle := afterKeyword?_length_le found
          have hlt := doctypeEnd?_length_lt hd
          rw [h.2] at hlt
          omega
      · simp at h

theorem instruction?_length_le {s rest : List Char} {token : Token}
    (h : instruction? s = some (token, rest)) : rest.length ≤ s.length := by
  simp only [instruction?, Option.bind_eq_some_iff] at h
  obtain ⟨⟨b, r⟩, hc, h⟩ := h
  split at h
  · simp at h
  · simp only [Option.some.injEq, Prod.mk.injEq] at h
    have := congrArg List.length (Text.eq_of_cut?_eq_some hc)
    simp only [List.length_append, List.length_cons] at this
    have hr := h.2
    subst hr
    simp at this
    omega

theorem reference?_length_le {s rest : List Char} {token : Token}
    (h : reference? s = some (token, rest)) : rest.length ≤ s.length := by
  simp only [reference?] at h
  split at h
  · rename_i r heq
    simp only [Option.some.injEq, Prod.mk.injEq] at h
    have hle := (List.dropWhile_sublist (l := s)
      fun c => !(c == ';' || c == '&' || c == '<')).length_le
    rw [heq, h.2] at hle
    exact Nat.le_of_succ_le hle
  · simp at h

theorem front?_length_lt {s rest : List Char} {token : Token}
    (h : front? s = some (token, rest)) : rest.length < s.length := by
  unfold front? at h
  split at h
  · simp at h
  · exact Nat.lt_succ_of_le (reference?_length_le h)
  · have := declaration?_length_le h
    simp only [List.length_cons]
    omega
  · have := instruction?_length_le h
    simp only [List.length_cons]
    omega
  · simp only [Option.map_eq_some_iff, Prod.mk.injEq] at h
    obtain ⟨⟨b, r⟩, ht, -, rfl⟩ := h
    have := tagEnd?_length_lt ht
    simp only [List.length_cons]
    omega
  · simp only [Option.map_eq_some_iff, Prod.mk.injEq] at h
    obtain ⟨⟨b, r⟩, ht, -, rfl⟩ := h
    exact Nat.lt_succ_of_lt (tagEnd?_length_lt ht)
  · simp only [Option.some.injEq, Prod.mk.injEq] at h
    rw [← h.2]
    exact Nat.lt_succ_of_le (List.dropWhile_sublist _).length_le

/-- The tokens up to the end or to the first broken place. -/
def tokens (s : List Char) : List Token :=
  match _h : front? s with
  | none => []
  | some (token, rest) => token :: tokens rest
termination_by s.length
decreasing_by exact front?_length_lt ‹_›

end ImageRecipe.Xml
