import ImageRecipe.Proofs.ChunkFraming
import ImageRecipe.Proofs.FallingBack
import ImageRecipe.Proofs.ImageTexts

/-!
# What a sidecar file adds

A recipe that is filled from another one keeps all that it says, and so does one
whose size is set where it is open. So a sidecar file takes nothing away from
what is read of the image itself: it comes before the size of the image, but
behind everything that the texts say.
-/
namespace ImageRecipe

lemma mem_or_left {α : Type} {a b : Option α} {x : α} (h : x ∈ a) : x ∈ a.or b :=
  Option.or_eq_some_iff.mpr (Or.inl h)

namespace Recipe

/-- What a recipe says, another one says too. Open fields and an empty list say nothing. -/
structure KeptIn (r other : Recipe) : Prop where
  generator : ∀ x ∈ r.generator, x ∈ other.generator
  prompt : ∀ x ∈ r.prompt, x ∈ other.prompt
  negativePrompt : ∀ x ∈ r.negativePrompt, x ∈ other.negativePrompt
  model : ∀ x ∈ r.model, x ∈ other.model
  vae : ∀ x ∈ r.vae, x ∈ other.vae
  loras : r.loras ≠ [] → other.loras = r.loras
  seed : ∀ x ∈ r.seed, x ∈ other.seed
  steps : ∀ x ∈ r.steps, x ∈ other.steps
  cfg : ∀ x ∈ r.cfg, x ∈ other.cfg
  sampler : ∀ x ∈ r.sampler, x ∈ other.sampler
  scheduler : ∀ x ∈ r.scheduler, x ∈ other.scheduler
  denoise : ∀ x ∈ r.denoise, x ∈ other.denoise
  width : ∀ x ∈ r.width, x ∈ other.width
  height : ∀ x ∈ r.height, x ∈ other.height
  extra : ∀ name text : String, r.extra[name]? = some text → other.extra[name]? = some text

variable {r s t lower : Recipe} {size : Option (UInt32 × UInt32)}

lemma KeptIn.refl (r : Recipe) : r.KeptIn r := by
  constructor
  case loras => exact fun _ => rfl
  case extra => exact fun _ _ => id
  all_goals exact fun _ => id

lemma KeptIn.trans (hr : r.KeptIn s) (hs : s.KeptIn t) : r.KeptIn t where
  generator x hx := hs.generator x (hr.generator x hx)
  prompt x hx := hs.prompt x (hr.prompt x hx)
  negativePrompt x hx := hs.negativePrompt x (hr.negativePrompt x hx)
  model x hx := hs.model x (hr.model x hx)
  vae x hx := hs.vae x (hr.vae x hx)
  loras hne := (hs.loras (hr.loras hne ▸ hne)).trans (hr.loras hne)
  seed x hx := hs.seed x (hr.seed x hx)
  steps x hx := hs.steps x (hr.steps x hx)
  cfg x hx := hs.cfg x (hr.cfg x hx)
  sampler x hx := hs.sampler x (hr.sampler x hx)
  scheduler x hx := hs.scheduler x (hr.scheduler x hx)
  denoise x hx := hs.denoise x (hr.denoise x hx)
  width x hx := hs.width x (hr.width x hx)
  height x hx := hs.height x (hr.height x hx)
  extra name text h := hs.extra name text (hr.extra name text h)

/-- Filling open fields takes nothing away. -/
theorem keptIn_filledFrom (r lower : Recipe) : r.KeptIn (r.filledFrom lower) where
  generator _ := mem_or_left
  prompt _ := mem_or_left
  negativePrompt _ := mem_or_left
  model _ := mem_or_left
  vae _ := mem_or_left
  loras hne := by
    have hempty : ¬ r.loras.isEmpty = true := fun h => hne (List.isEmpty_iff.mp h)
    rw [filledFrom, firstNonEmpty, if_neg hempty]
  seed _ := mem_or_left
  steps _ := mem_or_left
  cfg _ := mem_or_left
  sampler _ := mem_or_left
  scheduler _ := mem_or_left
  denoise _ := mem_or_left
  width _ := mem_or_left
  height _ := mem_or_left
  extra name text h := by
    change (lower.extra ∪ r.extra)[name]? = some text
    rw [Std.ExtTreeMap.getElem?_union]
    exact mem_or_left h

theorem keptIn_withSize (r : Recipe) (size : Option (UInt32 × UInt32)) :
    r.KeptIn (r.withSize size) := by
  rcases r.withSize_cases size with h | ⟨width, height, -, hwidth, hheight, -, -, h⟩
  · rw [h]
    exact KeptIn.refl r
  · rw [h]
    exact { KeptIn.refl r with
      width := by simp [hwidth]
      height := by simp [hheight] }

/-- Both sides of an image, as far as they are set. -/
def sides (r : Recipe) : Option UInt32 × Option UInt32 := (r.width, r.height)

/-- A size is set exactly where neither side is. -/
lemma sides_withSize_of_pos (r : Recipe)
    (hsize : ∀ width height, size = some (width, height) → 0 < width ∧ 0 < height) :
    (r.withSize size).sides =
      if r.sides = (none, none) then (size.map Prod.fst, size.map Prod.snd) else r.sides := by
  by_cases hopen : r.sides = (none, none)
  · obtain ⟨hwidth, hheight⟩ := Prod.mk.inj hopen
    rw [if_pos hopen]
    cases size with
    | none => exact hopen
    | some sides =>
      obtain ⟨width, height⟩ := sides
      obtain ⟨hw, hh⟩ := hsize width height rfl
      simp [withSize, hwidth, hheight, hw, hh, Recipe.sides]
  · rw [if_neg hopen]
    rcases r.withSize_cases size with h | ⟨width, height, -, hwidth, hheight, -, -, -⟩
    · rw [h]
    · exact absurd (Prod.ext hwidth hheight) hopen

end Recipe

section Size

variable {width height : UInt32}

lemma Png.Chunk.pos_of_size? {chunk : Chunk} (h : chunk.size? = some (width, height)) :
    0 < width ∧ 0 < height := by
  unfold Chunk.size? at h
  split at h
  · dsimp only at h
    split at h
    · rename_i hpos
      cases h
      simpa using hpos
    · cases h
  · cases h

lemma Jpeg.Segment.pos_of_size? {segment : Segment} (h : segment.size? = some (width, height)) :
    0 < width ∧ 0 < height := by
  unfold Segment.size? at h
  split at h
  · split at h
    · dsimp only at h
      split at h
      · rename_i hpos
        cases h
        simpa using hpos
      · cases h
    · cases h
  · cases h

lemma ImageContent.pos_of_size {file : Bytes} {name : Option String} {settings : Settings}
    {tags : TagReader} {content : ImageContent}
    (h : ImageContent.ofBytes file name settings tags = .ok content)
    (hsize : content.size = some (width, height)) : 0 < width ∧ 0 < height := by
  unfold ofBytes at h
  split at h
  · cases h
  · obtain rfl := Except.ok.inj h
    have hmem := List.mem_of_getLast? hsize
    obtain ⟨chunk, -, hchunk⟩ := List.mem_filterMap.mp hmem
    exact Png.Chunk.pos_of_size? hchunk
  · obtain rfl := Except.ok.inj h
    obtain ⟨segment, -, hsegment⟩ := List.exists_of_findSome?_eq_some hsize
    exact Jpeg.Segment.pos_of_size? hsegment

end Size

namespace Outcome

section Beside

variable (outcome : Outcome) (lower : Option Recipe)

@[simp] lemma family_beside : (outcome.beside lower).family = outcome.family := by
  cases lower <;> rfl

@[simp] lemma note_withSize {size : Option (UInt32 × UInt32)} :
    (outcome.withSize size).note = outcome.note := rfl

@[simp] lemma note_beside : (outcome.beside lower).note = outcome.note := by
  cases lower <;> rfl

lemma keptIn_recipe_beside : outcome.recipe.KeptIn (outcome.beside lower).recipe := by
  cases lower with
  | none => exact Recipe.KeptIn.refl outcome.recipe
  | some r => exact outcome.recipe.keptIn_filledFrom r

lemma sides_recipe_beside : (outcome.beside lower).recipe.sides =
    (outcome.recipe.width.or (lower.bind Recipe.width),
      outcome.recipe.height.or (lower.bind Recipe.height)) := by
  cases lower with
  | none => simp [beside, Recipe.sides]
  | some r => rfl

/-- Nothing becomes something exactly if the sidecar says something, and nothing else changes. -/
lemma IsConsistent.status_beside {outcome : Outcome} (h : outcome.IsConsistent)
    (lower : Option Recipe) : (outcome.beside lower).status =
      if outcome.status = .noMetadata ∧ ∃ r ∈ lower, r.isEmpty = false then .parsed
      else outcome.status := by
  cases lower with
  | none => simp [Outcome.beside]
  | some r =>
    by_cases hnone : outcome.status = .noMetadata
    · have hempty : outcome.recipe.isEmpty = true := by
        rwa [h.status, Status.ofRecipe_eq_noMetadata_iff] at hnone
      cases hr : r.isEmpty <;>
        simp [Outcome.beside, Outcome.filledFrom, hnone, Status.ofRecipe,
          Recipe.isEmpty_filledFrom, hempty, hr]
    · simp [Outcome.beside, Outcome.filledFrom, hnone]

end Beside

end Outcome

namespace Reader

variable (reader : Reader)

/-- The sides that are read come from the size of the image only where neither the texts nor the
sidecar say any. -/
lemma sides_read_of_ok {file : Bytes} {name : Option String} {content : ImageContent}
    (h : ImageContent.ofBytes file name reader.settings reader.tags = .ok content)
    (sidecar : Option Bytes) :
    let embedded := (reader.readChunks content.chunks).recipe
    let width := embedded.width.or ((reader.sidecar? sidecar).bind Recipe.width)
    let height := embedded.height.or ((reader.sidecar? sidecar).bind Recipe.height)
    (reader.read file name sidecar).recipe.sides =
      if width = none ∧ height = none ∧ reader.settings.imageDimensionsFallback = true then
        (content.size.map Prod.fst, content.size.map Prod.snd)
      else (width, height) := by
  intro embedded width height
  have hsides : ((reader.readChunks content.chunks).beside (reader.sidecar? sidecar)).recipe.sides =
      (width, height) := Outcome.sides_recipe_beside _ _
  rw [reader.read_eq_of_ok h, Outcome.recipe_withSize]
  cases reader.settings.imageDimensionsFallback with
  | false => simpa [Recipe.withSize] using hsides
  | true =>
    rw [if_pos rfl, Recipe.sides_withSize_of_pos _ fun _ _ => ImageContent.pos_of_size h, hsides]
    simp only [Prod.mk.injEq, and_true]

/-- What an image says counts for more than what the sidecar file beside it says. With a sidecar
file the family and the note are the same, and a file that is no image is read in the same way. The
status is the same too, unless nothing was found in the image and the sidecar says something. All
that is read of the texts is in the recipe that is handed out, and the size of the image is in it
only where neither the texts nor the sidecar say any side. -/
theorem read_outranks_sidecar (file : Bytes) (name : Option String) (sidecar : Option Bytes) :
    let bare := reader.read file name none
    let both := reader.read file name sidecar
    let lower := reader.sidecar? sidecar
    both.family = bare.family ∧ both.note = bare.note ∧
    (bare.status = .unreadable → both = bare) ∧
    (both.status = bare.status ∨ bare.status = .noMetadata ∧ both.status = .parsed) ∧
    (bare.status = .noMetadata → (both.status = .parsed ↔ ∃ r ∈ lower, r.isEmpty = false)) ∧
    ∀ content, ImageContent.ofBytes file name reader.settings reader.tags = .ok content →
      let embedded := (reader.readChunks content.chunks).recipe
      let width := embedded.width.or (lower.bind Recipe.width)
      let height := embedded.height.or (lower.bind Recipe.height)
      embedded.KeptIn both.recipe ∧
      both.recipe.sides =
        if width = none ∧ height = none ∧ reader.settings.imageDimensionsFallback = true then
          (content.size.map Prod.fst, content.size.map Prod.snd)
        else (width, height) := by
  intro bare both lower
  cases hc : ImageContent.ofBytes file name reader.settings reader.tags with
  | error fault =>
    have hread : ∀ sidecar, reader.read file name sidecar = .unreadable fault := fun sidecar => by
      rw [read, hc]
    have hbare : bare = .unreadable fault := hread none
    have hboth : both = .unreadable fault := hread sidecar
    rw [hbare, hboth]
    refine ⟨rfl, rfl, fun _ => rfl, Or.inl rfl, ?_, ?_⟩
    · intro hnone
      cases hnone
    · intro content hcontent
      cases hcontent
  | ok content =>
    -- both outcomes differ only in the step that fills from the sidecar
    let embedded := reader.readChunks content.chunks
    let size := if reader.settings.imageDimensionsFallback then content.size else none
    have hconsistent : embedded.IsConsistent := reader.isConsistent_readChunks content.chunks
    have hbare : bare = embedded.withSize size := reader.read_eq_of_ok hc none
    have hboth : both = (embedded.beside lower).withSize size := reader.read_eq_of_ok hc sidecar
    have hsame : bare.status = embedded.status := by rw [hbare, Outcome.status_withSize]
    have hstatus : both.status =
        if embedded.status = .noMetadata ∧ ∃ r ∈ lower, r.isEmpty = false then .parsed
        else embedded.status := by
      rw [hboth, Outcome.status_withSize, hconsistent.status_beside]
    refine ⟨?_, ?_, ?_, ?_, ?_, ?_⟩
    · rw [hboth, hbare, Outcome.family_withSize, Outcome.family_withSize, Outcome.family_beside]
    · rw [hboth, hbare, Outcome.note_withSize, Outcome.note_withSize, Outcome.note_beside]
    · rw [hsame]
      exact fun h => absurd h hconsistent.status_ne_unreadable
    · rw [hstatus, hsame]
      split
      · rename_i hfilled
        exact Or.inr ⟨hfilled.1, rfl⟩
      · exact Or.inl rfl
    · rw [hstatus, hsame]
      intro hnone
      by_cases hlower : ∃ r ∈ lower, r.isEmpty = false
      · simp only [hnone, hlower, and_self, if_true]
      · simp only [hnone, hlower, and_false, if_false, iff_false]
        decide
    · intro other hother
      obtain rfl := Except.ok.inj hother
      refine ⟨?_, reader.sides_read_of_ok hc sidecar⟩
      rw [hboth, Outcome.recipe_withSize]
      exact (embedded.keptIn_recipe_beside lower).trans (Recipe.keptIn_withSize _ size)

/-- A PNG file with parameters as a text, and a size. -/
def captionedPng : Bytes := Png.fileOf [
  ⟨.header, [0, 0, 2, 0, 0, 0, 3, 0, 8, 2, 0, 0, 0], 0⟩,
  ⟨.text, [112, 97, 114, 97, 109, 101, 116, 101, 114, 115, 0, 97, 32, 99, 97, 116, 10, 83, 116, 101,
    112, 115, 58, 32, 50, 48], 0⟩,
  ⟨.ending, [], 0⟩]

/-- A sidecar file with 30 steps and the seed 7. -/
def seedSidecar : Bytes :=
  [123, 34, 115, 116, 101, 112, 115, 34, 58, 51, 48, 44, 34, 115, 101, 101, 100, 34, 58, 55, 125]

theorem read_outranks_sidecar_seedSidecar :
    plainReader.read [] none (some seedSidecar) = plainReader.read [] none none ∧
    (plainReader.read ImageKind.pngSignature none (some seedSidecar)).status = .parsed ∧
    20 ∈ (plainReader.read captionedPng none (some seedSidecar)).recipe.steps ∧
    (plainReader.read captionedPng none (some seedSidecar)).recipe.sides =
      (some 512, some 768) := by
  obtain ⟨-, -, hunreadable, -⟩ := plainReader.read_outranks_sidecar [] none (some seedSidecar)
  obtain ⟨-, -, -, -, hfilled, -⟩ :=
    plainReader.read_outranks_sidecar ImageKind.pngSignature none (some seedSidecar)
  obtain ⟨-, -, -, -, -, hkept⟩ :=
    plainReader.read_outranks_sidecar captionedPng none (some seedSidecar)
  have hlower : ∃ r ∈ plainReader.sidecar? (some seedSidecar), r.isEmpty = false := by
    decide +kernel
  obtain ⟨hembedded, hsides⟩ :=
    hkept _ (ImageContent.ofBytes_of_png none _ _ (by decide : _ <+: captionedPng))
  refine ⟨hunreadable rfl, (hfilled (by decide +kernel)).mpr hlower, ?_, ?_⟩
  · exact hembedded.steps 20 (by decide +kernel)
  · rw [hsides]
    decide +kernel

end Reader

end ImageRecipe
