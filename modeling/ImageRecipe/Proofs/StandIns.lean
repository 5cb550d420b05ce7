import ImageRecipe.Proofs.BuildSteps
import ImageRecipe.Proofs.LinkedInputs

/-!
# The input that stands in for an output

A search that passes through a node goes on behind one of its linked inputs. The
pass-through that is declared for the output slot comes first, then the declared
inputs of the slot's type, then the first linked input of all. In a node of a
saved workflow what stands in is never a literal, and something stands in
whenever the node has a linked input.
-/
namespace ImageRecipe.Definition

open Workflow

section Declared

variable (d : Definition) (node : Node) (slot : Option UInt32)

/-- Whether a pass-through is declared for an output slot. -/
def IsFor (p : PassThrough) : Prop := p.slot.isSome = true ∧ p.slot = slot

/-- Whether a pass-through counts for an output slot: it is the first that is declared for the slot,
or the first of all if none is. -/
def CountsFor (p : PassThrough) : Prop :=
  (∃ before after, d.passThrough = before ++ p :: after ∧ IsFor slot p ∧
    ∀ earlier ∈ before, ¬ IsFor slot earlier) ∨
  (∀ q ∈ d.passThrough, ¬ IsFor slot q) ∧ d.passThrough.head? = some p

/-- Whether no linked input is declared to stand in: nothing is declared at all, or the pass-through
that counts names an input that is not linked. -/
def LeavesOpen : Prop :=
  d.passThrough = [] ∨
    ∃ p input, d.CountsFor slot p ∧ p.input = some input ∧ node.link? input = none

/-- Whether a declared input, given by its name and type, has the type of an output slot and is
linked in a node. -/
def Fits (input : String × String) : Prop :=
  (∃ s ∈ slot, d.outputs[s.toNat]? = some input.2) ∧ (node.link? input.1).isSome = true

/-- Whether an answer is what has to stand in for an output slot of a node. -/
structure StandsIn (answer : Option String) : Prop where
  none_iff : answer = none ↔ node.links = []
  linked : ∀ name ∈ answer, (node.link? name).isSome = true
  declared : ∀ p input, d.CountsFor slot p → p.input = some input →
    (node.link? input).isSome = true → answer = some input
  unnamed : ∀ p, d.CountsFor slot p → p.input = none → answer = node.firstLink?.map (·.input)
  typed : d.LeavesOpen node slot → ∀ before input after, d.inputs = before ++ input :: after →
    d.Fits node slot input → (∀ earlier ∈ before, ¬ d.Fits node slot earlier) →
      answer = some input.1
  untyped : d.LeavesOpen node slot → (∀ input ∈ d.inputs, ¬ d.Fits node slot input) →
    answer = node.firstLink?.map (·.input)

end Declared

variable {d : Definition} {node : Node} {slot : Option UInt32}

lemma countsFor_iff {p : PassThrough} : d.CountsFor slot p ↔ d.passThroughFor? slot = some p := by
  have hfor (q : PassThrough) : (q.slot.isSome && q.slot == slot) = true ↔ IsFor slot q := by
    rw [Bool.and_eq_true, beq_iff_eq, IsFor]
  have hfirst (q : PassThrough) :
      (d.passThrough.find? fun q => q.slot.isSome && q.slot == slot) = some q ↔
        ∃ before after, d.passThrough = before ++ q :: after ∧ IsFor slot q ∧
          ∀ earlier ∈ before, ¬ IsFor slot earlier := by
    simp only [List.find?_eq_some_iff_append, hfor, Bool.not_eq_true', ← Bool.not_eq_true]
    constructor
    · rintro ⟨hq, before, after, hsplit, hbefore⟩
      exact ⟨before, after, hsplit, hq, hbefore⟩
    · rintro ⟨before, after, hsplit, hq, hbefore⟩
      exact ⟨hq, before, after, hsplit, hbefore⟩
  have hnone : (d.passThrough.find? fun q => q.slot.isSome && q.slot == slot) = none ↔
      ∀ q ∈ d.passThrough, ¬ IsFor slot q := by
    simp only [List.find?_eq_none, hfor]
  unfold CountsFor passThroughFor?
  rw [← hfirst, ← hnone]
  cases d.passThrough.find? fun q => q.slot.isSome && q.slot == slot <;> simp

lemma find?_links_eq (hf : node.FindsLinks) (name : String) :
    (node.links.find? (·.input == name)).map (·.input) =
      if (node.link? name).isSome then some name else none := by
  rw [hf.link?_eq name, Option.isSome_map]
  cases hfind : node.links.find? (·.input == name) with
  | none => rfl
  | some link =>
    have hname : link.input = name := by simpa using List.find?_some hfind
    rw [Option.map_some, hname]
    rfl

lemma fits_iff {input : String × String} {type : String}
    (htype : slot.bind (fun s => d.outputs[s.toNat]?) = some type) :
    d.Fits node slot input ↔ (input.2 == type && (node.link? input.1).isSome) = true := by
  obtain ⟨s, rfl, hs⟩ := Option.bind_eq_some_iff.mp htype
  have htyped : (∃ t ∈ some s, d.outputs[t.toNat]? = some input.2) ↔ input.2 = type := by
    simp only [Option.mem_some_iff, exists_eq_left', hs, Option.some.injEq]
    exact eq_comm
  rw [Fits, htyped, Bool.and_eq_true, beq_iff_eq]

/-- The first declared input that fits is found by its type. -/
lemma typedInput?_eq_find? (hf : node.FindsLinks) {type : String}
    (htype : slot.bind (fun s => d.outputs[s.toNat]?) = some type) :
    d.typedInput? node slot =
      (d.inputs.find? fun input =>
        input.2 == type && (node.link? input.1).isSome).map Prod.fst := by
  obtain ⟨s, rfl, hs⟩ := Option.bind_eq_some_iff.mp htype
  simp only [typedInput?, Option.bind_eq_bind, Option.bind_some, hs, find?_links_eq hf]
  induction d.inputs with
  | nil => rfl
  | cons input inputs ih =>
    rw [List.filter_cons, List.find?_cons]
    cases htyped : input.2 == type with
    | false => exact ih
    | true =>
      rw [if_pos rfl, List.findSome?_cons, ih]
      cases (node.link? input.1).isSome <;> rfl

lemma undeclaredInput?_of_fits (hf : node.FindsLinks) {before after : List (String × String)}
    {input : String × String} (hinputs : d.inputs = before ++ input :: after)
    (hfits : d.Fits node slot input) (hbefore : ∀ earlier ∈ before, ¬ d.Fits node slot earlier) :
    d.undeclaredInput? node slot = some input.1 := by
  obtain ⟨s, hs, houtput⟩ := hfits.1
  have htype : slot.bind (fun s => d.outputs[s.toNat]?) = some input.2 :=
    Option.bind_eq_some_iff.mpr ⟨s, hs, houtput⟩
  have hfirst : d.inputs.find? (fun other => other.2 == input.2 && (node.link? other.1).isSome) =
      some input := by
    rw [List.find?_eq_some_iff_append]
    refine ⟨(fits_iff htype).mp hfits, before, after, hinputs, fun earlier hearlier => ?_⟩
    have hnot := hbefore earlier hearlier
    rwa [fits_iff htype, Bool.not_eq_true, ← Bool.not_eq_true'] at hnot
  rw [undeclaredInput?, typedInput?_eq_find? hf htype, hfirst]
  rfl

lemma undeclaredInput?_of_not_fits (hf : node.FindsLinks)
    (h : ∀ input ∈ d.inputs, ¬ d.Fits node slot input) :
    d.undeclaredInput? node slot = node.firstLink?.map (·.input) := by
  have hnone : d.typedInput? node slot = none := by
    cases htype : slot.bind (fun s => d.outputs[s.toNat]?) with
    | none =>
      rw [typedInput?]
      cases slot with
      | none => rfl
      | some s =>
        rw [Option.bind_some] at htype
        simp [htype]
    | some type =>
      rw [typedInput?_eq_find? hf htype, Option.map_eq_none_iff, List.find?_eq_none]
      exact fun input hinput hfits => h input hinput ((fits_iff htype).mpr hfits)
  rw [undeclaredInput?, hnone]

lemma undeclaredInput?_eq_none (h : d.undeclaredInput? node slot = none) : node.links = [] := by
  unfold undeclaredInput? at h
  split at h
  · cases h
  · exact List.head?_eq_none_iff.mp (Option.map_eq_none_iff.mp h)

lemma bypassInput?_of_leavesOpen (h : d.LeavesOpen node slot) :
    d.bypassInput? node slot = d.undeclaredInput? node slot := by
  rcases h with hnil | ⟨⟨_, place⟩, input, hcounts, rfl, hunlinked⟩
  · have hnone : d.passThroughFor? slot = none := by
      rw [passThroughFor?, hnil]
      rfl
    rw [bypassInput?, hnone]
  · rw [bypassInput?, countsFor_iff.mp hcounts]
    simp [hunlinked]

lemma bypassInput?_eq_none_iff (hf : node.FindsLinks) :
    d.bypassInput? node slot = none ↔ node.links = [] := by
  constructor
  · intro h
    unfold bypassInput? at h
    split at h
    · split at h
      · cases h
      · exact undeclaredInput?_eq_none h
    · exact List.head?_eq_none_iff.mp (Option.map_eq_none_iff.mp h)
    · exact undeclaredInput?_eq_none h
  · intro hnil
    rw [Option.eq_none_iff_forall_ne_some]
    intro name hname
    have hlinked := isSome_link?_of_bypassInput? hf hname
    rw [hf.link?_eq name, hnil] at hlinked
    cases hlinked

/-- Passing through a node of a saved workflow never ends at a literal, and nowhere only if no input
is linked. The pass-through that counts for the output slot comes first if it names a linked input,
and stands for the first linked input if it names none. Otherwise it is the first declared input of
the slot's type that is linked, and only without one the first linked input. This holds of every
description, so of all that can be put together. -/
theorem bypassInput?_standsIn (h : node.IsSaved) (d : Definition) (slot : Option UInt32) :
    d.StandsIn node slot (d.bypassInput? node slot) := by
  have hf := h.literalsApart.findsLinks
  refine ⟨bypassInput?_eq_none_iff hf, fun name hname => isSome_link?_of_bypassInput? hf hname,
    ?_, ?_, ?_, ?_⟩
  · rintro ⟨_, place⟩ input hcounts rfl hlinked
    rw [bypassInput?, countsFor_iff.mp hcounts]
    exact if_pos hlinked
  · rintro ⟨_, place⟩ hcounts rfl
    rw [bypassInput?, countsFor_iff.mp hcounts]
  · intro hopen before input after hinputs hfits hbefore
    rw [bypassInput?_of_leavesOpen hopen, undeclaredInput?_of_fits hf hinputs hfits hbefore]
  · intro hopen hnone
    rw [bypassInput?_of_leavesOpen hopen, undeclaredInput?_of_not_fits hf hnone]

/-- The origin of every link is one node. -/
def soleOrigin? : Int → Option Link := fun _ => some ⟨"9", 0⟩

def blendUi : UiNode where
  id := .str "1"
  classType := "Blend"
  mode := some 4
  inputs := [⟨"mask", some 4, none⟩, ⟨"image", some 5, none⟩, ⟨"image", some 6, none⟩]
  widgetValues := some (.obj [("base", .str "grey"), ("image", .str "none")])
  title := none

def blendNode : Node :=
  ⟨"1", "Blend", none, [("mask", .link ⟨"9", 0⟩), ("image", .link ⟨"9", 0⟩),
    ("image", .link ⟨"9", 0⟩), ("base", .literal (.str "grey"))], [], .bypassed⟩

def blend : Definition :=
  built "Blend" .image [.withOutputs ["IMAGE", "MASK"], .passing "base" 0,
    .withInputs [("base", "IMAGE"), ("image", "IMAGE"), ("mask", "MASK")]]

theorem bypassInput?_standsIn_blend :
    blendUi.node? soleOrigin? = some blendNode ∧ blendNode.IsSaved ∧
      blendNode.firstLink? = some ⟨"mask", ⟨"9", 0⟩⟩ ∧
      blend.bypassInput? blendNode (some 0) = some "image" ∧
      blend.StandsIn blendNode (some 1) (blend.bypassInput? blendNode (some 1)) := by
  have hsaved : blendNode.IsSaved := by
    refine .ui blendUi soleOrigin? blendNode rfl fun members hmembers => ?_
    obtain rfl := Json.obj.inj (Option.some.inj hmembers)
    decide
  have hopen : blend.LeavesOpen blendNode (some 0) :=
    Or.inr ⟨⟨some "base", some 0⟩, "base", countsFor_iff.mpr rfl, rfl, rfl⟩
  have himage : blend.Fits blendNode (some 0) ("image", "IMAGE") := ⟨⟨0, rfl, rfl⟩, rfl⟩
  have hbase : ¬ blend.Fits blendNode (some 0) ("base", "IMAGE") := fun h =>
    absurd h.2 (by decide)
  refine ⟨rfl, hsaved, rfl, ?_, bypassInput?_standsIn hsaved blend (some 1)⟩
  exact (bypassInput?_standsIn hsaved blend (some 0)).typed hopen [("base", "IMAGE")] _ _ rfl himage
    (by simpa using hbase)

end ImageRecipe.Definition
