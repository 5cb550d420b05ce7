import ImageRecipe.NodeLibrary.Builtin
import ImageRecipe.Workflow.Graph
import Mathlib.Tactic.Common

/-!
# What holds of all built-in descriptions

A description that the built-in library returns stands in one of the catalogues,
so a law of all built-in descriptions is checked once along the catalogues.
-/
namespace ImageRecipe

namespace NodeLibrary

lemma mem_definitions_foldl_register {definitions : List Definition} {library : NodeLibrary}
    {d : Definition} (h : d ∈ (definitions.foldl register library).definitions) :
    d ∈ library.definitions ∨ d ∈ definitions := by
  induction definitions generalizing library with
  | nil => exact Or.inl h
  | cons e rest ih =>
    rcases ih h with hr | hr
    · rcases List.mem_append.mp hr with hf | he
      · exact Or.inl (List.mem_filter.mp hf).1
      · exact Or.inr (List.mem_cons.mpr (Or.inl (List.mem_singleton.mp he)))
    · exact Or.inr (List.mem_cons_of_mem e hr)

theorem mem_of_get?_ofList {definitions : List Definition} {classType : String} {d : Definition}
    (h : (ofList definitions).get? classType = some d) : d ∈ definitions := by
  have hm : d ∈ (definitions.foldl register empty).definitions := List.mem_of_find?_eq_some h
  rcases mem_definitions_foldl_register hm with he | hd
  · simp [empty] at he
  · exact hd

lemma definitions_foldl_register {definitions : List Definition} {library : NodeLibrary}
    (h : ((library.definitions ++ definitions).map (·.classType)).Nodup) :
    (definitions.foldl register library).definitions = library.definitions ++ definitions := by
  induction definitions generalizing library with
  | nil => simp
  | cons e rest ih =>
    have hfresh : ∀ d ∈ library.definitions, (d.classType != e.classType) = true := by
      intro d hd
      simp only [List.map_append, List.map_cons, List.nodup_append, List.mem_map] at h
      simpa using h.2.2 d.classType ⟨d, hd, rfl⟩ e.classType (by simp)
    have hreg : (library.register e).definitions = library.definitions ++ [e] := by
      rw [register, List.filter_eq_self.mpr hfresh]
    rw [List.foldl_cons, ih (by simpa [hreg] using h), hreg, List.append_assoc]
    rfl

/-- Of descriptions of distinct types each is found under its type. -/
theorem get?_ofList_of_mem {definitions : List Definition} {d : Definition}
    (h : (definitions.map (·.classType)).Nodup) (hd : d ∈ definitions) :
    (ofList definitions).get? d.classType = some d := by
  have hlist : (ofList definitions).definitions = empty.definitions ++ definitions :=
    definitions_foldl_register h
  rw [get?, hlist, empty, List.nil_append]
  obtain ⟨before, after, rfl⟩ := List.append_of_mem hd
  rw [List.find?_eq_some_iff_append]
  refine ⟨by simp, before, after, rfl, fun e he => ?_⟩
  simp only [List.map_append, List.map_cons, List.nodup_append, List.mem_map] at h
  simpa using h.2.2 e.classType ⟨e, he, rfl⟩ d.classType (by simp)

/-- All catalogues one after the other. -/
def catalogues : List Definition :=
  Catalogue.models ++ Catalogue.sampling ++ Catalogue.texts ++ Catalogue.images ++
    Catalogue.wiring

theorem mem_catalogues {classType : String} {d : Definition}
    (h : builtin.get? classType = some d) : d ∈ catalogues := mem_of_get?_ofList h

lemma nodup_catalogues : (catalogues.map (·.classType)).Nodup := by decide +kernel

theorem get?_builtin_of_mem {d : Definition} (hd : d ∈ catalogues) :
    builtin.get? d.classType = some d := get?_ofList_of_mem nodup_catalogues hd

/-- No description is put in place of another, so the library is the catalogues as they stand. -/
theorem builtin_eq_catalogues : builtin = ⟨catalogues⟩ := by
  have hdefinitions : builtin.definitions = empty.definitions ++ catalogues :=
    definitions_foldl_register nodup_catalogues
  rw [empty, List.nil_append] at hdefinitions
  exact congrArg NodeLibrary.mk hdefinitions

lemma get?_builtin_saveImage : builtin.get? "SaveImage" =
    some (Catalogue.imageSink "SaveImage" .output ["filename_prefix"]) :=
  get?_builtin_of_mem (d := Catalogue.imageSink "SaveImage" .output ["filename_prefix"])
    (by simp [catalogues, Catalogue.images])

lemma get?_builtin_kSampler : builtin.get? "KSampler" = some Catalogue.kSampler :=
  get?_builtin_of_mem (d := Catalogue.kSampler) (by simp [catalogues, Catalogue.sampling])

lemma get?_builtin_checkpointLoader : builtin.get? "CheckpointLoaderSimple" =
    some (Catalogue.checkpointLoader "CheckpointLoaderSimple" ["ckpt_name"]) :=
  get?_builtin_of_mem (d := Catalogue.checkpointLoader "CheckpointLoaderSimple" ["ckpt_name"])
    (by simp [catalogues, Catalogue.models])

lemma get?_builtin_reroute : builtin.get? "Reroute" = some (Catalogue.reroute "Reroute") :=
  get?_builtin_of_mem (d := Catalogue.reroute "Reroute")
    (by simp [catalogues, Catalogue.wiring])

lemma get?_builtin_textEncoder : builtin.get? "CLIPTextEncode" =
    some (Catalogue.textEncoder "CLIPTextEncode" ["text"] "text") :=
  get?_builtin_of_mem (d := Catalogue.textEncoder "CLIPTextEncode" ["text"] "text")
    (by simp [catalogues, Catalogue.texts])

lemma get?_builtin_primitiveString : builtin.get? "PrimitiveString" =
    some (Catalogue.textHolder "PrimitiveString" "value") :=
  get?_builtin_of_mem (d := Catalogue.textHolder "PrimitiveString" "value")
    (by simp [catalogues, Catalogue.texts])

lemma get?_builtin_impactSwitch : builtin.get? "ImpactSwitch" =
    some (Catalogue.switchOf "ImpactSwitch" ["select", "sel_mode"] "select" "input") :=
  get?_builtin_of_mem
    (d := Catalogue.switchOf "ImpactSwitch" ["select", "sel_mode"] "select" "input")
    (by simp [catalogues, Catalogue.wiring])

end NodeLibrary

lemma Param.mem_all (param : Param) : param ∈ Param.all := by
  cases param <;> decide

/-- The rule by which a parameter is read from nodes of a type. -/
def NodeLibrary.rule? (library : NodeLibrary) (classType : String) (param : Param) : Option Rule :=
  (library.get? classType).bind (·.rule? param)

namespace NodeLibrary

/-- What a type's description says is checked along the catalogues. -/
lemma rule?_builtin {classType : String} {param : Param} {rule : Rule}
    (h : rule? ⟨catalogues⟩ classType param = some rule) :
    builtin.rule? classType param = some rule := by
  rw [builtin_eq_catalogues]
  exact h

lemma rule?_saveImage (param : Param) :
    builtin.rule? "SaveImage" param = some (.trace "images") := by
  have hall : ∀ param ∈ Param.all,
      builtin.rule? "SaveImage" param = some (.trace "images") := by
    rw [builtin_eq_catalogues]
    decide +kernel
  exact hall param (Param.mem_all param)

lemma rule?_kSampler_steps : builtin.rule? "KSampler" .steps = some (.widget "steps" false) :=
  rule?_builtin (by decide +kernel)

end NodeLibrary

/-- The parameters whose value lies at the end of a single path, whatever the nodes on it. -/
def Param.onOnePath : List Param :=
  [.seed, .steps, .cfg, .model, .vae, .sampler, .scheduler, .denoise]

/-- Whether a rule reads one value at one place. -/
def Rule.readsOnePlace : Rule → Bool
  | .widget _ gathers => !gathers
  | .trace _ => true
  | .literal _ => true
  | .extract _ => false

theorem NodeLibrary.readsOnePlace_of_builtin {classType : String} {d : Definition}
    {param : Param} {rule : Rule} (hd : builtin.get? classType = some d)
    (hp : param ∈ Param.onOnePath) (hr : d.rule? param = some rule) :
    rule.readsOnePlace = true := by
  have hall : ∀ d ∈ catalogues, ∀ param ∈ Param.onOnePath,
      (d.rule? param).all Rule.readsOnePlace = true := by decide +kernel
  have h := hall d (mem_catalogues hd) param hp
  simpa [hr] using h

/-- Whether the control of every switch in a graph is a widget of its own and not linked. -/
def Workflow.Graph.ControlsUnlinked (graph : Graph) (library : NodeLibrary) : Prop :=
  ∀ node ∈ graph.nodes, ∀ d ∈ library.get? node.classType, ∀ switch ∈ d.switch,
    node.link? switch.control = none

instance (graph : Workflow.Graph) (library : NodeLibrary) :
    Decidable (graph.ControlsUnlinked library) := by
  unfold Workflow.Graph.ControlsUnlinked
  infer_instance

end ImageRecipe
