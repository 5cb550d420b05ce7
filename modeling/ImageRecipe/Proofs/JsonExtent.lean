import ImageRecipe.Proofs.JsonTokens

/-!
# What a reader of JSON takes

Arrays, objects and values are taken off a text like strings and numbers, by
induction on how deep they may be. So a JSON text is a front that the reader
takes with spaces behind it, and spaces are the only blanks that may stand
around it.
-/
namespace ImageRecipe

namespace Json

open Text (EndsVisibly)

variable {α : Type}

/-- How the text of a value begins: a string, an array and an object with a character of its
own. -/
def Opens (c : Char) (x : Json) : Prop :=
  c = '[' ∨ c = '\x7b' ∨ c = '"' ∨
    Text.isBlank c = false ∧ x.isContainer = false ∧ x.isString = false

lemma Opens.isBlank_eq_false {c : Char} {x : Json} (h : Opens c x) : Text.isBlank c = false := by
  rcases h with rfl | rfl | rfl | h
  · rfl
  · rfl
  · rfl
  · exact h.1

lemma scalar?_local {s rest : List Char} {x : Json} (h : scalar? s = some (x, rest)) :
    ∃ c front, s = c :: front ++ rest ∧ Opens c x ∧ Takes scalar? StopsNumber (c :: front) x := by
  unfold scalar? at h
  split at h
  case h_4 rest₁ =>
    obtain ⟨front, rfl, htakes⟩ := (isLocal_stringBody?.map Json.str) h
    exact ⟨'"', front, rfl, Or.inr (Or.inr (Or.inl rfl)), htakes.ends.cons '"',
      fun rest' _ => htakes.reads rest' trivial⟩
  case h_5 hnull htrue hfalse hquote =>
    obtain ⟨c, front, rfl, hc, -, htakes, n, rfl⟩ := number?_local h
    have hword : ∀ d : Char, d.isDigit = false → d ≠ '-' → c ≠ d := by
      rintro d hdigit hminus rfl
      rcases hc with rfl | hc
      · exact hminus rfl
      · rw [hc] at hdigit
        cases hdigit
    have hvisible : Text.isBlank c = false := by
      rcases hc with rfl | hc
      · rfl
      · exact Text.isBlank_of_isDigit hc
    refine ⟨c, front, rfl, Or.inr (Or.inr (Or.inr ⟨hvisible, rfl, rfl⟩)), htakes.ends,
      fun rest' hrest => ?_⟩
    rw [scalar?.eq_5, htakes.reads rest' hrest]
    · exact fun _ heq => hword 'n' rfl (by decide) (List.head_eq_of_cons_eq heq)
    · exact fun _ heq => hword 't' rfl (by decide) (List.head_eq_of_cons_eq heq)
    · exact fun _ heq => hword 'f' rfl (by decide) (List.head_eq_of_cons_eq heq)
    · exact fun _ heq => hword '"' rfl (by decide) (List.head_eq_of_cons_eq heq)
  all_goals obtain ⟨rfl, rfl⟩ := Prod.mk.inj (Option.some.inj h)
  · exact ⟨'n', "ull".toList, rfl, Or.inr (Or.inr (Or.inr ⟨rfl, rfl, rfl⟩)), ⟨'l', rfl, rfl⟩,
      fun _ _ => rfl⟩
  · exact ⟨'t', "rue".toList, rfl, Or.inr (Or.inr (Or.inr ⟨rfl, rfl, rfl⟩)), ⟨'e', rfl, rfl⟩,
      fun _ _ => rfl⟩
  · exact ⟨'f', "alse".toList, rfl, Or.inr (Or.inr (Or.inr ⟨rfl, rfl, rfl⟩)), ⟨'e', rfl, rfl⟩,
      fun _ _ => rfl⟩

/-- What `items?` and `members?` have in common: at least one element, commas between them and
`close` at the end. -/
def separated? (close : Char) (element : Reader α) : Nat → Reader (List α)
  | 0, _ => none
  | fuel + 1, s =>
    match element s with
    | none => none
    | some (x, rest) =>
      match skipSpaces rest with
      | c :: rest =>
        if c = ',' then (separated? close element fuel rest).map fun p => (x :: p.1, p.2)
        else if c = close then some ([x], rest)
        else none
      | [] => none

lemma items?_eq_separated? (value : Reader Json) (fuel : Nat) (s : List Char) :
    items? value fuel s = separated? ']' value fuel s := by
  induction fuel generalizing s with
  | zero => rfl
  | succ fuel ih =>
    simp only [items?, separated?, ih]
    cases value s with
    | none => rfl
    | some p =>
      dsimp only
      cases skipSpaces p.2 with
      | nil => rfl
      | cons c rest =>
        dsimp only
        split <;> simp_all

lemma members?_eq_separated? (value : Reader Json) (fuel : Nat) (s : List Char) :
    members? value fuel s = separated? '\x7d' (member? value) fuel s := by
  induction fuel generalizing s with
  | zero => rfl
  | succ fuel ih =>
    simp only [members?, separated?, ih]
    cases member? value s with
    | none => rfl
    | some p =>
      dsimp only
      cases skipSpaces p.2 with
      | nil => rfl
      | cons c rest =>
        dsimp only
        split <;> simp_all

/-- What `arrayBody?` and `objectBody?` have in common: nothing or elements up to `close`. -/
def enclosed? (close : Char) (element : Reader α) : Reader (List α) := fun s =>
  match skipSpaces s with
  | c :: rest =>
    if c = close then some ([], rest) else separated? close element (rest.length + 1) (c :: rest)
  | [] => none

lemma arrayBody?_eq_enclosed? (value : Reader Json) :
    arrayBody? value = fun s => (enclosed? ']' value s).map fun p => (.arr p.1, p.2) := by
  funext s
  simp only [arrayBody?, enclosed?]
  cases skipSpaces s with
  | nil => rfl
  | cons c rest =>
    dsimp only
    split
    · simp_all
    · rw [items?_eq_separated?]
      simp_all

lemma objectBody?_eq_enclosed? (value : Reader Json) :
    objectBody? value =
      fun s => (enclosed? '\x7d' (member? value) s).map fun p => (ofMembers p.1, p.2) := by
  funext s
  simp only [objectBody?, enclosed?]
  cases skipSpaces s with
  | nil => rfl
  | cons c rest =>
    dsimp only
    split
    · simp_all [ofMembers]
    · rw [members?_eq_separated?]
      simp_all

section Enclosed

variable {close : Char} {element : Reader α}

/-- Every element uses up some of the text, so that the length of the front is fuel enough. -/
lemma separated?_local (hclose : continuesNumber close = false)
    (hvisible : Text.isBlank close = false) (helement : IsLocal element StopsNumber) {fuel : Nat}
    {s rest : List Char} {xs : List α} (h : separated? close element fuel s = some (xs, rest)) :
    ∃ front, s = front ++ rest ∧ EndsVisibly front ∧ ∀ fuel' rest', front.length ≤ fuel' →
      separated? close element fuel' (front ++ rest') = some (xs, rest') := by
  fun_induction separated? close element fuel s generalizing xs rest with
  | case1 => cases h
  | case2 => cases h
  | case3 s fuel x rest₁ hx rest₂ hspaces ih =>
    obtain ⟨⟨xs', rest₃⟩, hxs, heq⟩ := Option.map_eq_some_iff.mp h
    obtain ⟨rfl, rfl⟩ := Prod.mk.inj heq
    obtain ⟨more, rfl, hends, hreads⟩ := ih hxs
    obtain ⟨front, rfl, htakes⟩ := helement hx
    obtain ⟨blanks, rfl, -, hskip⟩ := exists_spaces_of_skipSpaces hspaces
    refine ⟨front ++ (blanks ++ ',' :: more), by simp, ((hends.cons ',').append blanks).append
      front, fun fuel' rest' hfuel => ?_⟩
    simp only [List.length_append, List.length_cons] at hfuel
    obtain ⟨fuel', rfl⟩ := Nat.exists_eq_add_one_of_ne_zero (show fuel' ≠ 0 by omega)
    have hcomma := hskip (more ++ rest')
    have helement' := htakes.reads (blanks ++ ',' :: (more ++ rest'))
      (stopsNumber_of_skipSpaces hcomma rfl)
    simp only [List.append_assoc, List.cons_append, separated?, helement', hcomma, if_true,
      hreads fuel' rest' (by omega), Option.map_some]
  | case4 s fuel x rest₁ hx rest₂ hspaces hcomma =>
    obtain ⟨rfl, rfl⟩ := Prod.mk.inj (Option.some.inj h)
    obtain ⟨front, rfl, htakes⟩ := helement hx
    obtain ⟨blanks, rfl, -, hskip⟩ := exists_spaces_of_skipSpaces hspaces
    refine ⟨front ++ (blanks ++ [close]), by simp,
      ((Text.endsVisibly_singleton hvisible).append blanks).append front,
      fun fuel' rest' hfuel => ?_⟩
    simp only [List.length_append, List.length_cons] at hfuel
    obtain ⟨fuel', rfl⟩ := Nat.exists_eq_add_one_of_ne_zero (show fuel' ≠ 0 by omega)
    have helement' := htakes.reads (blanks ++ close :: rest')
      (stopsNumber_of_skipSpaces (hskip rest') hclose)
    simp only [List.append_assoc, List.cons_append, List.nil_append, separated?, helement',
      hskip rest', hcomma, if_false, if_true]
  | case5 => cases h
  | case6 => cases h

lemma isLocal_enclosed? (hclose : continuesNumber close = false)
    (hvisible : Text.isBlank close = false) (helement : IsLocal element StopsNumber) :
    IsLocal (enclosed? close element) Anything := by
  intro s xs rest h
  unfold enclosed? at h
  split at h
  · rename_i c rest₁ hspaces
    split at h
    · rename_i hc
      obtain ⟨rfl, rfl⟩ := Prod.mk.inj (Option.some.inj h)
      have hspaces' : skipSpaces s = [c] ++ rest₁ := hspaces
      refine exists_takes_of_skipSpaces hspaces' (Text.endsVisibly_singleton (hc ▸ hvisible)) ?_
      intro s' rest' hs' _
      simp only [enclosed?, hs', List.cons_append, List.nil_append, hc, if_true]
    · rename_i hc
      obtain ⟨front, hfront, hends, hreads⟩ := separated?_local hclose hvisible helement h
      cases front with
      | nil => exact absurd rfl hends.ne_nil
      | cons c' front =>
        obtain ⟨rfl, rfl⟩ := List.cons_eq_cons.mp hfront
        refine exists_takes_of_skipSpaces hspaces hends ?_
        intro s' rest' hs' _
        have hread := hreads ((front ++ rest').length + 1) rest' (by simp)
        simp only [List.cons_append] at hs' hread
        simp only [enclosed?, hs', hc, if_false, hread]
  · cases h

lemma isLocal_arrayBody? {value : Reader Json} (hvalue : IsLocal value StopsNumber) :
    IsLocal (arrayBody? value) Anything := by
  rw [arrayBody?_eq_enclosed?]
  exact (isLocal_enclosed? rfl rfl hvalue).map Json.arr

end Enclosed

lemma isLocal_member? {value : Reader Json} (hvalue : IsLocal value StopsNumber) :
    IsLocal (member? value) StopsNumber := by
  intro s p rest h
  unfold member? at h
  split at h
  · rename_i rest₁ hquote
    obtain ⟨blanks, rfl, -, hskip⟩ := exists_spaces_of_skipSpaces hquote
    split at h
    · cases h
    · rename_i name rest₂ hname
      obtain ⟨string, rfl, hstring⟩ := isLocal_stringBody? hname
      split at h
      · rename_i rest₃ hcolon
        obtain ⟨blanks', rfl, -, hskip'⟩ := exists_spaces_of_skipSpaces hcolon
        obtain ⟨⟨x, rest₄⟩, hx, heq⟩ := Option.map_eq_some_iff.mp h
        obtain ⟨rfl, rfl⟩ := Prod.mk.inj heq
        obtain ⟨front, rfl, htakes⟩ := hvalue hx
        refine ⟨blanks ++ '"' :: (string ++ (blanks' ++ ':' :: front)), by simp,
          ((((htakes.ends.cons ':').append blanks').append string).cons '"').append blanks,
          fun rest' hrest => ?_⟩
        have hname' := hstring.reads (blanks' ++ ':' :: (front ++ rest')) trivial
        simp only [List.append_assoc, List.cons_append, member?, hskip, hname', hskip',
          htakes.reads rest' hrest, Option.map_some]
      · cases h
  · cases h

lemma isLocal_objectBody? {value : Reader Json} (hvalue : IsLocal value StopsNumber) :
    IsLocal (objectBody? value) Anything := by
  rw [objectBody?_eq_enclosed?]
  exact (isLocal_enclosed? rfl rfl (isLocal_member? hvalue)).map ofMembers

lemma value?_of_ne {depth : Nat} {s rest : List Char} {c : Char} (hs : skipSpaces s = c :: rest)
    (hbracket : c ≠ '[') (hbrace : c ≠ '\x7b') : value? (depth + 1) s = scalar? (c :: rest) := by
  rw [value?, hs]
  split
  · rename_i heq
    exact absurd (List.head_eq_of_cons_eq heq) hbracket
  · rename_i heq
    exact absurd (List.head_eq_of_cons_eq heq) hbrace
  · rfl

lemma isLocal_value? (depth : Nat) : IsLocal (value? depth) StopsNumber := by
  induction depth with
  | zero =>
    intro s x rest h
    obtain ⟨c, front, hspaces, -, htakes⟩ := scalar?_local h
    refine exists_takes_of_skipSpaces hspaces htakes.ends fun s' rest' hs' hrest => ?_
    rw [value?, hs', htakes.reads rest' hrest]
  | succ depth ih =>
    intro s x rest h
    rw [value?] at h
    split at h
    · rename_i rest₁ hspaces
      obtain ⟨front, rfl, htakes⟩ := isLocal_arrayBody? ih h
      refine exists_takes_of_skipSpaces hspaces (htakes.ends.cons '[') fun s' rest' hs' _ => ?_
      simp only [value?, hs', List.cons_append, htakes.reads rest' trivial]
    · rename_i rest₁ hspaces
      obtain ⟨front, rfl, htakes⟩ := isLocal_objectBody? ih h
      refine exists_takes_of_skipSpaces hspaces (htakes.ends.cons '\x7b') fun s' rest' hs' _ => ?_
      simp only [value?, hs', List.cons_append, htakes.reads rest' trivial]
    · rename_i hbracket hbrace
      obtain ⟨c, front, hspaces, -, htakes⟩ := scalar?_local h
      refine exists_takes_of_skipSpaces hspaces htakes.ends fun s' rest' hs' hrest => ?_
      refine (value?_of_ne hs' ?_ ?_).trans (htakes.reads rest' hrest)
      · rintro rfl
        exact hbracket _ hspaces
      · rintro rfl
        exact hbrace _ hspaces

lemma exists_opens_of_value? {depth : Nat} {s rest : List Char} {x : Json}
    (h : value? depth s = some (x, rest)) : ∃ c rest', skipSpaces s = c :: rest' ∧ Opens c x := by
  have hscalar : ∀ {s}, scalar? s = some (x, rest) → ∃ c rest', s = c :: rest' ∧ Opens c x := by
    intro s hs
    obtain ⟨c, front, hfront, hopens, -⟩ := scalar?_local hs
    exact ⟨c, front ++ rest, hfront, hopens⟩
  cases depth with
  | zero => exact hscalar h
  | succ depth =>
    rw [value?] at h
    split at h
    · exact ⟨'[', _, ‹_›, Or.inl rfl⟩
    · exact ⟨'\x7b', _, ‹_›, Or.inr (Or.inl rfl)⟩
    · exact hscalar h

/-- A JSON text is what the reader takes, with nothing but spaces behind it. -/
theorem parseChars?_eq_some_iff {s : List Char} {x : Json} :
    parseChars? s = some x ↔ ∃ front rest, s = front ++ rest ∧
      Takes (value? maxNesting) StopsNumber front x ∧ ∀ c ∈ rest, isSpace c = true := by
  unfold parseChars?
  constructor
  · intro h
    split at h
    · rename_i x' rest hvalue
      split at h
      · rename_i hrest
        obtain rfl := Option.some.inj h
        obtain ⟨front, rfl, htakes⟩ := isLocal_value? maxNesting hvalue
        refine ⟨front, rest, rfl, htakes, List.dropWhile_eq_nil_iff.mp ?_⟩
        simpa [skipSpaces] using hrest
      · cases h
    · cases h
  · rintro ⟨front, rest, rfl, htakes, hrest⟩
    simp only [htakes.reads rest (stopsNumber_of_spaces hrest), skipSpaces_eq_nil_of_spaces hrest,
      List.isEmpty_nil, if_true]

/-- How a JSON text begins behind its spaces. -/
lemma exists_opens_of_parseChars? {s : List Char} {x : Json} (h : parseChars? s = some x) :
    ∃ c rest, skipSpaces s = c :: rest ∧ Opens c x := by
  obtain ⟨front, rest, rfl, htakes, hrest⟩ := parseChars?_eq_some_iff.mp h
  exact exists_opens_of_value? (htakes.reads rest (stopsNumber_of_spaces hrest))

lemma value?_append_spaces {blanks : List Char} (hb : ∀ c ∈ blanks, isSpace c = true)
    (depth : Nat) (s : List Char) : value? depth (blanks ++ s) = value? depth s := by
  cases depth <;> simp only [value?, skipSpaces_append hb]

/-- Blanks before what is no blank are spaces if skipping spaces leads there. -/
lemma forall_isSpace_of_skipSpaces {before s rest : List Char} {c : Char}
    (hbefore : ∀ d ∈ before, Text.isBlank d = true) (h : skipSpaces (before ++ s) = c :: rest)
    (hc : Text.isBlank c = false) : ∀ d ∈ before, isSpace d = true := by
  obtain ⟨blanks, hblanks, hall, -⟩ := exists_spaces_of_skipSpaces h
  rcases List.append_eq_append_iff.mp hblanks with ⟨more, rfl, -⟩ | ⟨more, rfl, hmore⟩
  · exact fun d hd => hall d (List.mem_append_left more hd)
  · cases more with
    | nil => simpa using hall
    | cons d more =>
      obtain rfl : c = d := List.head_eq_of_cons_eq hmore
      rw [hbefore c (by simp)] at hc
      cases hc

/-- Among blanks around a text only spaces are allowed, and these change nothing. -/
theorem parseChars?_surrounded {before core after : List Char} {x : Json}
    (hbefore : ∀ c ∈ before, Text.isBlank c = true) (hafter : ∀ c ∈ after, Text.isBlank c = true)
    (hends : EndsVisibly core) :
    parseChars? (before ++ core ++ after) = some x ↔
      parseChars? core = some x ∧ (∀ c ∈ before, isSpace c = true) ∧
        ∀ c ∈ after, isSpace c = true := by
  constructor
  · intro h
    obtain ⟨front, rest, hs, htakes, hrest⟩ := parseChars?_eq_some_iff.mp h
    obtain ⟨rfl, rfl⟩ := Text.eq_of_append_blanks_eq (hends.append before) htakes.ends hafter
      (fun c hc => isBlank_of_isSpace (hrest c hc)) hs
    -- the first character that is no space begins the value, so it is no blank
    obtain ⟨c, rest', hspaces, hopens⟩ := exists_opens_of_parseChars? h
    rw [List.append_assoc] at hspaces
    have hfirst := forall_isSpace_of_skipSpaces hbefore hspaces hopens.isBlank_eq_false
    refine ⟨parseChars?_eq_some_iff.mpr ⟨core, [], by simp, ⟨hends, fun rest hr => ?_⟩, by simp⟩,
      hfirst, hrest⟩
    rw [← htakes.reads rest hr, List.append_assoc, value?_append_spaces hfirst]
  · rintro ⟨h, hfirst, hlast⟩
    obtain ⟨front, rest, rfl, htakes, hrest⟩ := parseChars?_eq_some_iff.mp h
    refine parseChars?_eq_some_iff.mpr ⟨before ++ front, rest ++ after, by simp,
      ⟨htakes.ends.append before, fun rest' hr => ?_⟩, ?_⟩
    · rw [List.append_assoc, value?_append_spaces hfirst, htakes.reads rest' hr]
    · intro c hc
      exact (List.mem_append.mp hc).elim (hrest c) (hlast c)

end Json

end ImageRecipe
