import ImageRecipe.Recipe.Normal
import Mathlib.Data.List.DropRight
import Mathlib.Tactic.Common

/-!
# The normal form of recipes

A recipe is normal if bringing it into its normal form changes nothing. This is
a condition on each field by itself, so it survives filling the open fields of
one normal recipe from another and setting a size.
-/
namespace ImageRecipe

namespace Text

lemma dropWhile_of_isPrefix {p : Char → Bool} {s t : List Char} (h : s <+: t)
    (ht : t.dropWhile p = t) : s.dropWhile p = s := by
  rw [List.dropWhile_eq_self_iff] at ht ⊢
  intro hs
  have hlen : 0 < t.length := Nat.lt_of_lt_of_le hs h.length_le
  rw [h.getElem hs]
  exact ht hlen

theorem trim_trim (s : List Char) : trim (trim s) = trim s := by
  have hstart : trimStart (trimStart s) = trimStart s := List.dropWhile_idempotent isBlank s
  have hprefix : trim s <+: trimStart s := List.rdropWhile_prefix isBlank (trimStart s)
  have hsame : trimStart (trim s) = trim s := dropWhile_of_isPrefix hprefix hstart
  rw [trim, hsame]
  exact List.rdropWhile_idempotent isBlank (trimStart s)

theorem trimmed_trimmed (s : String) : trimmed (trimmed s) = trimmed s := by
  simp only [trimmed, String.toList_ofList, trim_trim]

/-- What is left of a text has no more blanks to lose. -/
theorem nonBlank?_of_eq_some {s t : String} (h : nonBlank? s = some t) :
    nonBlank? t = some t := by
  simp only [nonBlank?] at h ⊢
  split at h
  · simp at h
  · rename_i hne
    injection h with h
    subst h
    rw [trimmed_trimmed, if_neg hne]

end Text

namespace TextMap

lemma ofEntries_eq_ofList (entries : List (String × String)) :
    ofEntries entries = Std.ExtTreeMap.ofList entries := Std.ExtTreeMap.ofList_eq_foldl.symm

lemma mem_of_getElem?_foldl_insert {entries : List (String × String)} {map : TextMap}
    {name text : String}
    (h : (entries.foldl (fun map entry => map.insert entry.1 entry.2) map)[name]? = some text) :
    (name, text) ∈ entries ∨ map[name]? = some text := by
  induction entries generalizing map with
  | nil => exact Or.inr h
  | cons entry rest ih =>
    rcases ih h with hr | hm
    · exact Or.inl (List.mem_cons_of_mem entry hr)
    · rw [Std.ExtTreeMap.getElem?_insert] at hm
      split at hm
      · rename_i heq
        rw [Std.LawfulEqCmp.compare_eq_iff_eq] at heq
        injection hm with hm
        exact Or.inl (List.mem_cons.mpr (Or.inl (Prod.ext heq.symm hm.symm)))
      · exact Or.inr hm

theorem mem_of_getElem?_ofEntries {entries : List (String × String)} {name text : String}
    (h : (ofEntries entries)[name]? = some text) : (name, text) ∈ entries := by
  rcases mem_of_getElem?_foldl_insert h with he | hm
  · exact he
  · simp at hm

theorem ofEntries_toList (map : TextMap) : ofEntries map.toList = map := by
  apply Std.ExtTreeMap.ext_getElem?
  intro name
  cases hm : map[name]? with
  | some text =>
    rw [ofEntries_eq_ofList]
    exact Std.ExtTreeMap.getElem?_ofList_of_mem (Std.ReflCmp.compare_self)
      Std.ExtTreeMap.distinct_keys_toList (Std.ExtTreeMap.mem_toList_iff_getElem?_eq_some.mpr hm)
  | none =>
    rw [Option.eq_none_iff_forall_ne_some]
    intro text ht
    have hmem := mem_of_getElem?_ofEntries ht
    rw [Std.ExtTreeMap.mem_toList_iff_getElem?_eq_some, hm] at hmem
    cases hmem

end TextMap

lemma normalizedEntry?_of_eq_some {a b : String × String} (h : normalizedEntry? a = some b) :
    normalizedEntry? b = some b := by
  unfold normalizedEntry? at h ⊢
  simp only [Option.bind_eq_bind, Option.bind_eq_some_iff, Option.some.injEq] at h
  obtain ⟨name, hname, text, htext, rfl⟩ := h
  simp [Text.nonBlank?_of_eq_some hname, Text.nonBlank?_of_eq_some htext]

/-- A map is normal exactly if each of its entries is. -/
theorem TextMap.normalized_eq_iff {map : TextMap} :
    map.normalized = map ↔
      ∀ name text, map[name]? = some text → normalizedEntry? (name, text) = some (name, text) := by
  constructor
  · intro h name text ht
    rw [← h] at ht
    obtain ⟨entry, -, he⟩ := List.mem_filterMap.mp (mem_of_getElem?_ofEntries ht)
    exact normalizedEntry?_of_eq_some he
  · intro h
    have hsame : map.toList.filterMap normalizedEntry? = map.toList := by
      have hall : ∀ entry ∈ map.toList, normalizedEntry? entry = some entry := by
        intro entry he
        exact h entry.1 entry.2 (Std.ExtTreeMap.mem_toList_iff_getElem?_eq_some.mp he)
      rw [List.filterMap_congr hall, List.filterMap_some]
    rw [TextMap.normalized, hsame, ofEntries_toList]

theorem TextMap.normalized_normalized (map : TextMap) :
    map.normalized.normalized = map.normalized := by
  rw [TextMap.normalized_eq_iff]
  intro name text ht
  obtain ⟨entry, -, he⟩ := List.mem_filterMap.mp (mem_of_getElem?_ofEntries ht)
  exact normalizedEntry?_of_eq_some he

theorem TextMap.normalized_filledFrom {map lower : TextMap} (hm : map.normalized = map)
    (hl : lower.normalized = lower) :
    (map.filledFrom lower).normalized = map.filledFrom lower := by
  rw [TextMap.normalized_eq_iff] at hm hl ⊢
  intro name text ht
  rw [TextMap.filledFrom, Std.ExtTreeMap.getElem?_union, Option.or_eq_some_iff] at ht
  rcases ht with h | ⟨-, h⟩
  · exact hm name text h
  · exact hl name text h

section Fields

variable {α : Type} {f : α → Option α} {p : α → Bool} {a b : Option α}

lemma bind_bind_self (hf : ∀ x y, f x = some y → f y = some y) (a : Option α) :
    (a.bind f).bind f = a.bind f := by
  cases a with
  | none => rfl
  | some x =>
    cases hx : f x with
    | none => simp [hx]
    | some y => simpa [hx] using hf x y hx

lemma bind_or_eq_self (ha : a.bind f = a) (hb : b.bind f = b) : (a.or b).bind f = a.or b := by
  cases a with
  | none => simpa using hb
  | some x => simpa using ha

lemma filter_or_eq_self (ha : a.filter p = a) (hb : b.filter p = b) :
    (a.or b).filter p = a.or b := by
  cases a with
  | none => simpa using hb
  | some x => simpa using ha

lemma filter_filter_self (p : α → Bool) (a : Option α) :
    (a.filter p).filter p = a.filter p := by
  rw [Option.filter_filter]
  simp

lemma filterMap_filterMap_self (hf : ∀ x y, f x = some y → f y = some y) (l : List α) :
    (l.filterMap f).filterMap f = l.filterMap f := by
  have hall : ∀ y ∈ l.filterMap f, f y = some y := by
    intro y hy
    obtain ⟨x, -, hx⟩ := List.mem_filterMap.mp hy
    exact hf x y hx
  rw [List.filterMap_congr hall, List.filterMap_some]

end Fields

lemma Lora.normalized?_of_eq_some {a b : Lora} (h : a.normalized? = some b) :
    b.normalized? = some b := by
  obtain ⟨name, hname, rfl⟩ := Option.map_eq_some_iff.mp h
  simp only [Lora.normalized?, Text.nonBlank?_of_eq_some hname, filter_filter_self,
    Option.map_some]

namespace Recipe

/-- Every field of a recipe is as its normal form has it. -/
structure IsNormal (r : Recipe) : Prop where
  prompt : r.prompt.bind Text.nonBlank? = r.prompt
  negativePrompt : r.negativePrompt.bind Text.nonBlank? = r.negativePrompt
  model : r.model.bind Text.nonBlank? = r.model
  vae : r.vae.bind Text.nonBlank? = r.vae
  loras : r.loras.filterMap Lora.normalized? = r.loras
  steps : r.steps.filter (· > 0) = r.steps
  cfg : r.cfg.filter Decimal.isFinite = r.cfg
  sampler : r.sampler.bind Text.nonBlank? = r.sampler
  scheduler : r.scheduler.bind Text.nonBlank? = r.scheduler
  denoise : r.denoise.filter (fun x => Decimal.isFinite x && 0.0 ≤ x) = r.denoise
  width : r.width.filter (· > 0) = r.width
  height : r.height.filter (· > 0) = r.height
  extra : r.extra.normalized = r.extra

theorem normalized_eq_iff {r : Recipe} : r.normalized = r ↔ r.IsNormal := by
  constructor
  · intro h
    exact ⟨congrArg Recipe.prompt h, congrArg negativePrompt h, congrArg model h, congrArg vae h,
      congrArg loras h, congrArg steps h, congrArg cfg h, congrArg sampler h,
      congrArg scheduler h, congrArg denoise h, congrArg width h, congrArg height h,
      congrArg extra h⟩
  · intro h
    rw [normalized, h.prompt, h.negativePrompt, h.model, h.vae, h.loras, h.steps, h.cfg,
      h.sampler, h.scheduler, h.denoise, h.width, h.height, h.extra]

theorem isNormal_normalized (r : Recipe) : r.normalized.IsNormal where
  prompt := bind_bind_self (fun _ _ => Text.nonBlank?_of_eq_some) r.prompt
  negativePrompt := bind_bind_self (fun _ _ => Text.nonBlank?_of_eq_some) r.negativePrompt
  model := bind_bind_self (fun _ _ => Text.nonBlank?_of_eq_some) r.model
  vae := bind_bind_self (fun _ _ => Text.nonBlank?_of_eq_some) r.vae
  loras := filterMap_filterMap_self (fun _ _ => Lora.normalized?_of_eq_some) r.loras
  steps := filter_filter_self _ r.steps
  cfg := filter_filter_self _ r.cfg
  sampler := bind_bind_self (fun _ _ => Text.nonBlank?_of_eq_some) r.sampler
  scheduler := bind_bind_self (fun _ _ => Text.nonBlank?_of_eq_some) r.scheduler
  denoise := filter_filter_self _ r.denoise
  width := filter_filter_self _ r.width
  height := filter_filter_self _ r.height
  extra := r.extra.normalized_normalized

/-- The open recipe is normal. -/
theorem isNormal_empty : ({} : Recipe).IsNormal :=
  normalized_eq_iff.mp rfl

/-- Filling the open fields of a normal recipe from a normal one gives a normal one. -/
theorem IsNormal.filledFrom {r lower : Recipe} (hr : r.IsNormal) (hl : lower.IsNormal) :
    (r.filledFrom lower).IsNormal where
  prompt := bind_or_eq_self hr.prompt hl.prompt
  negativePrompt := bind_or_eq_self hr.negativePrompt hl.negativePrompt
  model := bind_or_eq_self hr.model hl.model
  vae := bind_or_eq_self hr.vae hl.vae
  loras := by
    unfold Recipe.filledFrom firstNonEmpty
    split
    · exact hl.loras
    · exact hr.loras
  steps := filter_or_eq_self hr.steps hl.steps
  cfg := filter_or_eq_self hr.cfg hl.cfg
  sampler := bind_or_eq_self hr.sampler hl.sampler
  scheduler := bind_or_eq_self hr.scheduler hl.scheduler
  denoise := filter_or_eq_self hr.denoise hl.denoise
  width := filter_or_eq_self hr.width hl.width
  height := filter_or_eq_self hr.height hl.height
  extra := TextMap.normalized_filledFrom hr.extra hl.extra

/-- A size is set whole, with both sides positive, or not at all. -/
theorem withSize_cases (r : Recipe) (size : Option (UInt32 × UInt32)) :
    r.withSize size = r ∨ ∃ width height, size = some (width, height) ∧ r.width = none ∧
      r.height = none ∧ 0 < width ∧ 0 < height ∧
      r.withSize size = { r with width := some width, height := some height } := by
  unfold withSize
  split
  · exact Or.inl rfl
  · rename_i width height
    split
    · rename_i h
      simp only [Bool.and_eq_true, Option.isNone_iff_eq_none, decide_eq_true_eq] at h
      obtain ⟨⟨⟨hw, hh⟩, hwidth⟩, hheight⟩ := h
      exact Or.inr ⟨width, height, rfl, hw, hh, hwidth, hheight, rfl⟩
    · exact Or.inl rfl

theorem IsNormal.withSize {r : Recipe} (hr : r.IsNormal) (size : Option (UInt32 × UInt32)) :
    (r.withSize size).IsNormal := by
  rcases r.withSize_cases size with h | ⟨width, height, -, -, -, hwidth, hheight, h⟩
  · rwa [h]
  · rw [h]
    exact { hr with
      width := by simpa using hwidth
      height := by simpa using hheight }

end Recipe

end ImageRecipe
