import ImageRecipe.Proofs.BuiltinLibrary
import Mathlib.Data.List.Induction
import Mathlib.Data.List.Nodup

/-!
# Descriptions put together step by step

A description begins empty, and each step adds one statement to it. However the
steps are mixed, its rules stay a function of the parameters: the last rule that
was set for a parameter counts, else the first input behind which the rest is
looked for. Roles are listed once, and pass-throughs as they were declared.
-/
namespace ImageRecipe

/-- One step by which a description is put together. -/
inductive BuildStep where
  | withRole (role : Role)
  | withInputs (inputs : List (String × String))
  | withOutputs (outputs : List String)
  | withWidgets (widgets : List String)
  | withRule (param : Param) (rule : Rule)
  | withRules (params : List Param) (rule : Rule)
  | tracingRest (input : String)
  | passing (input : String) (slot : UInt32)
  | passingFirst
  | switching (control stem : String)

namespace BuildStep

/-- What a step makes of a description. -/
def apply (d : Definition) : BuildStep → Definition
  | withRole role => d.withRole role
  | withInputs inputs => d.withInputs inputs
  | withOutputs outputs => d.withOutputs outputs
  | withWidgets widgets => d.withWidgets widgets
  | withRule param rule => d.withRule param rule
  | withRules params rule => d.withRules params rule
  | tracingRest input => d.tracingRest input
  | passing input slot => d.passing input slot
  | passingFirst => d.passingFirst
  | switching control stem => d.switching control stem

/-- The rule that a step sets for a parameter. -/
def rule? (param : Param) : BuildStep → Option Rule
  | withRule changed rule => if param = changed then some rule else none
  | withRules changed rule => if param ∈ changed then some rule else none
  | _ => none

/-- The input behind which a step looks for every parameter that has no rule yet. -/
def traced? : BuildStep → Option String
  | tracingRest input => some input
  | _ => none

/-- The pass-through that a step declares. -/
def passThrough? : BuildStep → Option PassThrough
  | passing input slot => some ⟨some input, some slot⟩
  | passingFirst => some ⟨none, none⟩
  | _ => none

end BuildStep

namespace Definition

variable (d : Definition) (param changed : Param) (rule : Rule)

lemma rule?_eq_none_iff : d.rule? param = none ↔ param ∉ d.rules.map Prod.fst := by
  rw [rule?, Option.map_eq_none_iff, List.find?_eq_none, List.mem_map]
  constructor
  · rintro hnone ⟨entry, hentry, rfl⟩
    exact hnone entry hentry (beq_self_eq_true entry.1)
  · intro hnone entry hentry heq
    exact hnone ⟨entry, hentry, eq_of_beq heq⟩

lemma rule?_append (entry : Param × Rule) :
    rule? { d with rules := d.rules ++ [entry] } param =
      (d.rule? param).or (if param = entry.1 then some entry.2 else none) := by
  rw [rule?, List.find?_append, rule?, Option.map_or, List.find?_singleton]
  by_cases h : param = entry.1
  · simp [h]
  · simp [h, Ne.symm h]

lemma rule?_filter : rule? { d with rules := d.rules.filter (·.1 != changed) } param =
    if param = changed then none else d.rule? param := by
  rw [rule?, List.find?_filter]
  split
  · rename_i h
    rw [Option.map_eq_none_iff, List.find?_eq_none]
    simp [h]
  · rename_i h
    have hsame : (fun entry : Param × Rule => decide ((entry.1 != changed) = true ∧
        (entry.1 == param) = true)) = fun entry => entry.1 == param := by
      funext entry
      by_cases heq : entry.1 = param
      · simp [heq, h]
      · simp [heq]
    rw [hsame, rule?]

lemma rule?_withRule : (d.withRule changed rule).rule? param =
    if param = changed then some rule else d.rule? param := by
  have happend := rule?_append { d with rules := d.rules.filter (·.1 != changed) } param
    (changed, rule)
  rw [rule?_filter] at happend
  refine happend.trans ?_
  split
  · rfl
  · exact Option.or_none

lemma rule?_withRules (params : List Param) : (d.withRules params rule).rule? param =
    if param ∈ params then some rule else d.rule? param := by
  unfold withRules
  induction params generalizing d with
  | nil => rfl
  | cons changed params ih =>
    rw [List.foldl_cons, ih, rule?_withRule]
    by_cases hrest : param ∈ params
    · rw [if_pos hrest, if_pos (List.mem_cons_of_mem changed hrest)]
    · simp only [hrest, if_false, List.mem_cons, or_false]

/-- A look behind an input for one parameter, if it has no rule yet. -/
def tracing (d : Definition) (input : String) (param : Param) : Definition :=
  if (d.rule? param).isNone then { d with rules := d.rules ++ [(param, .trace input)] } else d

lemma tracingRest_eq_foldl (input : String) :
    d.tracingRest input = Param.all.foldl (fun d param => d.tracing input param) d := rfl

lemma rule?_tracing (input : String) : (d.tracing input changed).rule? param =
    (d.rule? param).or (if param = changed then some (.trace input) else none) := by
  unfold tracing
  cases hrule : d.rule? changed with
  | none => exact d.rule?_append param (changed, .trace input)
  | some rule =>
    by_cases h : param = changed
    · subst h
      simp [hrule]
    · simp [h]

lemma rule?_foldl_tracing (input : String) (params : List Param) :
    (params.foldl (fun d param => d.tracing input param) d).rule? param =
      (d.rule? param).or (if param ∈ params then some (.trace input) else none) := by
  induction params generalizing d with
  | nil => exact Option.or_none.symm
  | cons changed params ih =>
    rw [List.foldl_cons, ih, rule?_tracing, Option.or_assoc]
    congr 1
    by_cases h : param = changed
    · simp [h]
    · simp [h]

lemma rule?_tracingRest (input : String) :
    (d.tracingRest input).rule? param = (d.rule? param).or (some (.trace input)) := by
  rw [tracingRest_eq_foldl, rule?_foldl_tracing, if_pos param.mem_all]

lemma rules_withRole (role : Role) : (d.withRole role).rules = d.rules := by
  unfold withRole
  split <;> rfl

/-- What one step does to the rule of a parameter: a rule that it sets replaces the one before, an
input that it traces counts if there is none. -/
lemma rule?_apply (step : BuildStep) : (step.apply d).rule? param =
    (step.rule? param).or ((d.rule? param).or (step.traced?.map .trace)) := by
  have hkeep {e : Definition} (h : e.rules = d.rules) : e.rule? param =
      (none : Option Rule).or ((d.rule? param).or ((none : Option String).map .trace)) := by
    rw [rule?, h, Option.none_or, Option.map_none, Option.or_none, rule?]
  cases step with
  | withRole role => exact hkeep (d.rules_withRole role)
  | withInputs inputs => exact hkeep rfl
  | withOutputs outputs => exact hkeep rfl
  | withWidgets widgets => exact hkeep rfl
  | withRule changed rule =>
    rw [BuildStep.apply, rule?_withRule, BuildStep.rule?]
    split <;> simp [BuildStep.traced?]
  | withRules changed rule =>
    rw [BuildStep.apply, rule?_withRules, BuildStep.rule?]
    split <;> simp [BuildStep.traced?]
  | tracingRest input =>
    rw [BuildStep.apply, rule?_tracingRest]
    rfl
  | passing input slot => exact hkeep (rules_withRole _ _)
  | passingFirst => exact hkeep (rules_withRole _ _)
  | switching control stem => exact hkeep (rules_withRole _ _)

lemma passThrough_withRole (role : Role) :
    (d.withRole role).passThrough = d.passThrough := by
  unfold Definition.withRole
  split <;> rfl

lemma passThrough_withRules (params : List Param) :
    (d.withRules params rule).passThrough = d.passThrough := by
  unfold Definition.withRules
  induction params generalizing d with
  | nil => rfl
  | cons changed params ih => exact ih (d.withRule changed rule)

lemma passThrough_tracingRest (input : String) :
    (d.tracingRest input).passThrough = d.passThrough := by
  rw [tracingRest_eq_foldl]
  generalize Param.all = params
  induction params generalizing d with
  | nil => rfl
  | cons param params ih =>
    rw [List.foldl_cons, ih, tracing]
    split <;> rfl

/-- Only a step that declares a pass-through adds one, behind the others. -/
lemma passThrough_apply (step : BuildStep) :
    (step.apply d).passThrough = d.passThrough ++ step.passThrough?.toList := by
  cases step with
  | withRole role => exact (d.passThrough_withRole role).trans (List.append_nil _).symm
  | withInputs inputs => exact (List.append_nil _).symm
  | withOutputs outputs => exact (List.append_nil _).symm
  | withWidgets widgets => exact (List.append_nil _).symm
  | withRule changed rule => exact (List.append_nil _).symm
  | withRules changed rule =>
    exact (d.passThrough_withRules rule changed).trans (List.append_nil _).symm
  | tracingRest input => exact (d.passThrough_tracingRest input).trans (List.append_nil _).symm
  | passing input slot => exact passThrough_withRole _ _
  | passingFirst => exact passThrough_withRole _ _
  | switching control stem => exact (passThrough_withRole _ _).trans (List.append_nil _).symm

/-- Whether no parameter has two rules and no role is listed twice. -/
structure ListsOnce (d : Definition) : Prop where
  params_nodup : (d.rules.map Prod.fst).Nodup
  roles_nodup : d.roles.Nodup

variable {d}

lemma ListsOnce.of_eq {e : Definition} (h : d.ListsOnce) (hrules : e.rules = d.rules)
    (hroles : e.roles = d.roles) : e.ListsOnce :=
  ⟨hrules ▸ h.params_nodup, hroles ▸ h.roles_nodup⟩

/-- A rule for a parameter that has none among the rules that are kept. -/
lemma ListsOnce.add_rule (h : d.ListsOnce) {rules : List (Param × Rule)}
    (hrules : rules.Sublist d.rules) {entry : Param × Rule} (hnew : entry.1 ∉ rules.map Prod.fst) :
    ListsOnce { d with rules := rules ++ [entry] } where
  params_nodup := by
    rw [List.map_append, List.map_singleton, ← List.concat_eq_append]
    exact (h.params_nodup.sublist (hrules.map Prod.fst)).concat hnew
  roles_nodup := h.roles_nodup

lemma ListsOnce.withRule (h : d.ListsOnce) : (d.withRule changed rule).ListsOnce := by
  refine h.add_rule List.filter_sublist ?_
  rw [List.mem_map]
  rintro ⟨entry, hentry, rfl⟩
  simpa using (List.mem_filter.mp hentry).2

lemma ListsOnce.withRules (h : d.ListsOnce) (params : List Param) :
    (d.withRules params rule).ListsOnce := by
  unfold Definition.withRules
  induction params generalizing d with
  | nil => exact h
  | cons changed params ih => exact ih (h.withRule changed rule)

lemma ListsOnce.tracing (h : d.ListsOnce) (input : String) :
    (d.tracing input param).ListsOnce := by
  unfold Definition.tracing
  split
  · rename_i hnone
    exact h.add_rule (List.Sublist.refl _)
      ((d.rule?_eq_none_iff param).mp (Option.isNone_iff_eq_none.mp hnone))
  · exact h

lemma ListsOnce.tracingRest (h : d.ListsOnce) (input : String) :
    (d.tracingRest input).ListsOnce := by
  rw [tracingRest_eq_foldl]
  generalize Param.all = params
  induction params generalizing d with
  | nil => exact h
  | cons param params ih => exact ih (h.tracing param input)

lemma ListsOnce.withRole (h : d.ListsOnce) (role : Role) :
    (d.withRole role).ListsOnce := by
  unfold Definition.withRole
  split
  · exact h
  · rename_i hnew
    refine ⟨h.params_nodup, ?_⟩
    rw [← List.concat_eq_append]
    exact h.roles_nodup.concat (by simpa using hnew)

/-- Every step keeps the rules a function of the parameters, and the roles apart. -/
lemma ListsOnce.apply (h : d.ListsOnce) (step : BuildStep) : (step.apply d).ListsOnce := by
  cases step with
  | withRole role => exact h.withRole role
  | withInputs inputs => exact h.of_eq rfl rfl
  | withOutputs outputs => exact h.of_eq rfl rfl
  | withWidgets widgets => exact h.of_eq rfl rfl
  | withRule changed rule => exact h.withRule changed rule
  | withRules changed rule => exact h.withRules rule changed
  | tracingRest input => exact h.tracingRest input
  | passing input slot =>
    apply ListsOnce.withRole
    exact h.of_eq rfl rfl
  | passingFirst =>
    apply ListsOnce.withRole
    exact h.of_eq rfl rfl
  | switching control stem =>
    apply ListsOnce.withRole
    exact h.of_eq rfl rfl

/-- The description that some steps put together. -/
def built (classType : String) (category : Category) (steps : List BuildStep) : Definition :=
  steps.foldl BuildStep.apply (new classType category)

/-- However a description is put together, no parameter has two rules and no role is listed twice.
The rule of a parameter is the last one that was set for it; without one it is a look behind the
input of the first step that looks for the rest, and without such a step there is none. The
pass-throughs are the declared ones in their order. -/
theorem built_consistent (classType : String) (category : Category) (steps : List BuildStep) :
    (built classType category steps).ListsOnce ∧
    (∀ param, (built classType category steps).rule? param =
      (steps.filterMap (BuildStep.rule? param)).getLast?.or
        ((steps.filterMap BuildStep.traced?).head?.map .trace)) ∧
    (built classType category steps).passThrough = steps.filterMap BuildStep.passThrough? := by
  induction steps using List.reverseRecOn with
  | nil => exact ⟨⟨List.nodup_nil, List.nodup_nil⟩, fun _ => rfl, rfl⟩
  | append_singleton steps step ih =>
    obtain ⟨honce, hrule, hpass⟩ := ih
    have hbuilt : built classType category (steps ++ [step]) =
        step.apply (built classType category steps) := by
      rw [built, List.foldl_append]
      rfl
    rw [hbuilt]
    refine ⟨honce.apply step, fun param => ?_, ?_⟩
    · rw [rule?_apply, hrule, List.filterMap_append, List.filterMap_append, List.getLast?_append,
        List.head?_append, Option.map_or, Option.or_assoc, Option.or_assoc]
      cases hset : step.rule? param <;> cases htraced : step.traced? <;> simp [hset, htraced]
    · rw [passThrough_apply, hpass, List.filterMap_append]
      cases hstep : step.passThrough? <;> simp [hstep]

/-- A rule that is set replaces the one before, also one that a look for the rest gave; and of two
such looks the first counts. -/
example : let d := built "X" .text [.tracingRest "in", .withRule .prompt (.widget "text" false),
      .withRules [.seed, .prompt] (.literal "value"), .tracingRest "other"]
    d.rule? .prompt = some (.literal "value") ∧ d.rule? .steps = some (.trace "in") ∧
      d.rules.length = Param.all.length := by
  decide +kernel

end Definition

end ImageRecipe
