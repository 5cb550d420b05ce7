import ImageRecipe.Proofs.GraphStore
import Mathlib.Data.List.Pairwise

/-!
# Linked inputs and their names

An input is looked up by its name, and the first input of that name counts. In
the nodes of a saved workflow a linked input is found under its name: the inputs
of an API node have distinct names, and in a UI node the links come first. Of a
node of this kind the input that stands in for an output slot is linked, so the
step through it follows a link and never answers with a literal.
-/
namespace ImageRecipe

namespace Workflow

namespace Node

/-- Every linked input is found under its name: no literal of that name is before it. -/
def FindsLinks (node : Node) : Prop := ∀ link ∈ node.links, (node.link? link.input).isSome = true

instance (node : Node) : Decidable node.FindsLinks :=
  inferInstanceAs (Decidable (∀ link ∈ node.links, (node.link? link.input).isSome = true))

variable {node : Node} {name : String}

/-- Under a name that is found there is the first link of that name. Induction on the inputs; a
literal of the name may only come first if no link of the name is behind it. -/
lemma FindsLinks.link?_eq (h : node.FindsLinks) (name : String) :
    node.link? name = (node.links.find? (·.input == name)).map (·.target) := by
  have hfound : ∀ link ∈ node.links, link.input = name → (node.link? name).isSome = true := by
    rintro link hmem rfl
    exact h link hmem
  unfold link? input? links at *
  generalize node.inputs = inputs at hfound ⊢
  induction inputs with
  | nil => rfl
  | cons entry rest ih =>
    obtain ⟨entryName, input⟩ := entry
    by_cases hn : entryName = name
    · subst hn
      cases input with
      | link target => simp [Input.link?]
      | literal value =>
        simp only [List.find?_cons, beq_self_eq_true, Option.map_some, Option.bind_some,
          Input.link?, Option.map_none, List.filterMap_cons] at hfound ⊢
        refine (Option.map_eq_none_iff.mpr (List.find?_eq_none.mpr fun link hmem heq => ?_)).symm
        exact Bool.false_ne_true (hfound link hmem (eq_of_beq heq))
    · have hne : (entryName == name) = false := beq_false_of_ne hn
      cases input with
      | link target =>
        simp only [List.find?_cons, hne, List.filterMap_cons, Input.link?, Option.map_some] at *
        exact ih fun link hmem => hfound link (List.mem_cons_of_mem _ hmem)
      | literal value =>
        simp only [List.find?_cons, hne, List.filterMap_cons, Input.link?, Option.map_none] at *
        exact ih hfound

lemma mem_inputs_of_mem_links {link : NamedLink} (h : link ∈ node.links) :
    (link.input, .link link.target) ∈ node.inputs := by
  obtain ⟨⟨name, input⟩, hentry, hlink⟩ := List.mem_filterMap.mp h
  cases input with
  | literal value => cases hlink
  | link target =>
    cases hlink
    exact hentry

/-- A linked input is found under its name if what is found there is a link. -/
lemma findsLinks_of_find? (h : ∀ link ∈ node.links, ∀ entry,
    node.inputs.find? (·.1 == link.input) = some entry → entry.2.link?.isSome = true) :
    node.FindsLinks := by
  intro link hmem
  have hsome : (node.inputs.find? (·.1 == link.input)).isSome = true :=
    List.find?_isSome.mpr ⟨_, mem_inputs_of_mem_links hmem, beq_self_eq_true link.input⟩
  obtain ⟨entry, hfind⟩ := Option.isSome_iff_exists.mp hsome
  rw [link?, input?, hfind]
  exact h link hmem entry hfind

/-- Links that come before all literals are found under their names. -/
lemma findsLinks_of_append {linked literals : List (String × Input)}
    (h : node.inputs = linked ++ literals) (hl : ∀ entry ∈ linked, entry.2.link?.isSome = true)
    (hn : ∀ entry ∈ literals, entry.2.link? = none) : node.FindsLinks := by
  refine findsLinks_of_find? fun link hmem entry hfind => ?_
  have hlink := mem_inputs_of_mem_links hmem
  rw [h] at hlink hfind
  have hlinked : (link.input, .link link.target) ∈ linked := by
    rcases List.mem_append.mp hlink with hlinked | hliteral
    · exact hlinked
    · cases hn _ hliteral
  have hsome : (linked.find? (·.1 == link.input)).isSome = true :=
    List.find?_isSome.mpr ⟨_, hlinked, beq_self_eq_true link.input⟩
  obtain ⟨first, hfirst⟩ := Option.isSome_iff_exists.mp hsome
  rw [List.find?_append, hfirst] at hfind
  cases hfind
  exact hl entry (List.mem_of_find?_eq_some hfirst)

/-- Of two inputs with one name both are links. -/
def SharedIsLinked (a b : String × Input) : Prop :=
  a.1 = b.1 → a.2.link?.isSome = true ∧ b.2.link?.isSome = true

instance : Std.Symm SharedIsLinked := ⟨fun _ _ h hname => (h hname.symm).symm⟩

/-- A literal is the only input of its name. -/
def LiteralsApart (node : Node) : Prop := node.inputs.Pairwise SharedIsLinked

lemma literalsApart_of_nodup (h : (node.inputs.map Prod.fst).Nodup) : node.LiteralsApart :=
  (List.pairwise_map.mp h).imp fun hne hname => absurd hname hne

lemma LiteralsApart.of_perm {other : Node} (h : node.LiteralsApart)
    (hperm : other.inputs.Perm node.inputs) : other.LiteralsApart :=
  (hperm.pairwise_iff (Std.Symm.symm _ _)).mpr h

lemma exists_input?_of_mem {input : Input} (h : (name, input) ∈ node.inputs) :
    ∃ found, node.input? name = some found := by
  have hsome : (node.inputs.find? (·.1 == name)).isSome = true :=
    List.find?_isSome.mpr ⟨_, h, beq_self_eq_true name⟩
  obtain ⟨entry, hfind⟩ := Option.isSome_iff_exists.mp hsome
  exact ⟨entry.2, by rw [input?, hfind, Option.map_some]⟩

lemma mem_inputs_of_input? {input : Input} (h : node.input? name = some input) :
    (name, input) ∈ node.inputs := by
  obtain ⟨entry, hfind, rfl⟩ := Option.map_eq_some_iff.mp h
  have hname : entry.1 = name := by simpa using List.find?_some hfind
  exact hname ▸ List.mem_of_find?_eq_some hfind

/-- Two inputs of one name are one input, or both are links. -/
lemma LiteralsApart.eq_or_linked (h : node.LiteralsApart) {a b : Input}
    (ha : (name, a) ∈ node.inputs) (hb : (name, b) ∈ node.inputs) :
    a = b ∨ a.link?.isSome = true ∧ b.link?.isSome = true := by
  by_cases hab : a = b
  · exact .inl hab
  · exact .inr (List.Pairwise.forall h ha hb (fun heq => hab (congrArg Prod.snd heq)) rfl)

/-- What is found under the name of a literal is this literal. -/
lemma LiteralsApart.input?_of_literal (h : node.LiteralsApart) {value : Json}
    (hmem : (name, .literal value) ∈ node.inputs) : node.input? name = some (.literal value) := by
  obtain ⟨found, hfound⟩ := exists_input?_of_mem hmem
  rcases h.eq_or_linked (mem_inputs_of_input? hfound) hmem with rfl | hlinked
  · exact hfound
  · exact absurd hlinked.2 Bool.false_ne_true

lemma LiteralsApart.literal?_eq_some_iff (h : node.LiteralsApart) {value : Json} :
    node.literal? name = some value ↔ (name, .literal value) ∈ node.inputs ∧ value ≠ .null := by
  constructor
  · intro hliteral
    obtain ⟨input, hinput, hvalue⟩ := Option.bind_eq_some_iff.mp hliteral
    have hmem := mem_inputs_of_input? hinput
    unfold Input.literal? at hvalue
    split at hvalue
    · cases hvalue
    · rename_i hnull
      cases hvalue
      exact ⟨hmem, hnull⟩
    · cases hvalue
  · rintro ⟨hmem, hne⟩
    rw [literal?, h.input?_of_literal hmem, Option.bind_some]
    cases value <;> first | rfl | exact absurd rfl hne

lemma LiteralsApart.link?_eq_none_iff (h : node.LiteralsApart) :
    node.link? name = none ↔ ∀ target, (name, .link target) ∉ node.inputs := by
  constructor
  · intro hnone target hmem
    obtain ⟨found, hfound⟩ := exists_input?_of_mem hmem
    rw [link?, hfound, Option.bind_some] at hnone
    rcases h.eq_or_linked (mem_inputs_of_input? hfound) hmem with rfl | hlinked
    · cases hnone
    · rw [hnone] at hlinked
      exact Bool.false_ne_true hlinked.1
  · intro hnone
    rw [link?]
    cases hinput : node.input? name with
    | none => rfl
    | some input =>
      cases input with
      | literal value => rfl
      | link target => exact absurd (mem_inputs_of_input? hinput) (hnone target)

lemma LiteralsApart.findsLinks (h : node.LiteralsApart) : node.FindsLinks := by
  intro link hmem
  rw [Option.isSome_iff_ne_none]
  exact fun hnone => h.link?_eq_none_iff.mp hnone _ (mem_inputs_of_mem_links hmem)

end Node

/-- A node as it is read from a saved workflow, in which no object has two members of one name. -/
inductive Node.IsSaved : Node → Prop
  | api (api : ApiNode) (id : String) (hnames : (api.inputs.map Prod.fst).Nodup) :
      IsSaved (api.node id)
  | ui (ui : UiNode) (origin? : Int → Option Link) (node : Node)
      (hnode : ui.node? origin? = some node)
      (hnames : ∀ members, ui.widgetValues = some (.obj members) →
        (members.map Prod.fst).Nodup) : IsSaved node

lemma ApiNode.literalsApart_node {api : ApiNode} (h : (api.inputs.map Prod.fst).Nodup)
    (id : String) : (api.node id).LiteralsApart := by
  refine Node.literalsApart_of_nodup ?_
  have hnames : (api.node id).inputs.map Prod.fst = api.inputs.map Prod.fst := by
    rw [ApiNode.node, List.map_map]
    rfl
  rw [hnames]
  exact h

lemma UiNode.isSome_link?_of_mem_linkedInputs {ui : UiNode} {origin? : Int → Option Link}
    {entry : String × Input} (h : entry ∈ ui.linkedInputs origin?) :
    entry.2.link?.isSome = true := by
  obtain ⟨input, -, hlink⟩ := List.mem_filterMap.mp h
  obtain ⟨target, -, rfl⟩ := Option.map_eq_some_iff.mp hlink
  rfl

lemma UiNode.link?_of_mem_namedWidgets {ui : UiNode} {linked : List (String × Input)}
    {entry : String × Input} (h : entry ∈ ui.namedWidgets linked) : entry.2.link? = none := by
  unfold namedWidgets at h
  split at h
  · obtain ⟨member, -, rfl⟩ := List.mem_map.mp h
    rfl
  · cases h

lemma UiNode.findsLinks_of_node? {ui : UiNode} {origin? : Int → Option Link} {node : Node}
    (h : ui.node? origin? = some node) : node.FindsLinks := by
  obtain ⟨id, -, rfl⟩ := Option.map_eq_some_iff.mp h
  exact Node.findsLinks_of_append rfl (fun _ => isSome_link?_of_mem_linkedInputs)
    (fun _ => link?_of_mem_namedWidgets)

/-- An input of the node is linked if one of the linked inputs has its name: they come before the
literals, and of one name the first counts. -/
lemma UiNode.isSome_link?_of_node? {ui : UiNode} {origin? : Int → Option Link} {node : Node}
    (h : ui.node? origin? = some node) (name : String) :
    (node.link? name).isSome = (ui.linkedInputs origin?).any (·.1 == name) := by
  obtain ⟨id, -, rfl⟩ := Option.map_eq_some_iff.mp h
  rw [Node.link?, Node.input?, List.find?_append]
  cases hfind : (ui.linkedInputs origin?).find? (·.1 == name) with
  | some entry =>
    have hmem := List.mem_of_find?_eq_some hfind
    have hname : (entry.1 == name) = true := by simpa using List.find?_some hfind
    have hany : (ui.linkedInputs origin?).any (·.1 == name) = true :=
      List.any_eq_true.mpr ⟨entry, hmem, hname⟩
    rw [hany]
    exact isSome_link?_of_mem_linkedInputs hmem
  | none =>
    have hany : (ui.linkedInputs origin?).any (·.1 == name) = false := by
      simpa using hfind
    rw [hany, Option.none_or]
    cases hnamed : (ui.namedWidgets (ui.linkedInputs origin?)).find? (·.1 == name) with
    | none => rfl
    | some entry =>
      have hlink := link?_of_mem_namedWidgets (List.mem_of_find?_eq_some hnamed)
      simp only [Option.map_some, Option.bind_some, hlink, Option.isSome_none]

lemma UiNode.pairwise_namedWidgets {ui : UiNode} {linked : List (String × Input)}
    (hnames : ∀ members, ui.widgetValues = some (.obj members) → (members.map Prod.fst).Nodup) :
    (ui.namedWidgets linked).Pairwise fun a b => a.1 ≠ b.1 := by
  unfold namedWidgets
  split
  · rename_i members hvalues
    have hmembers : members.Pairwise fun a b => a.1 ≠ b.1 :=
      List.pairwise_map.mp (hnames members hvalues)
    exact List.pairwise_map.mpr (hmembers.filter _)
  · exact List.Pairwise.nil

lemma UiNode.name_ne_of_mem_namedWidgets {ui : UiNode} {linked : List (String × Input)}
    {link entry : String × Input} (hlink : link ∈ linked) (h : entry ∈ ui.namedWidgets linked) :
    link.1 ≠ entry.1 := by
  unfold namedWidgets at h
  split at h
  · obtain ⟨member, hmember, rfl⟩ := List.mem_map.mp h
    have hfree := (List.mem_filter.mp hmember).2
    rw [Bool.not_eq_true', List.any_eq_false] at hfree
    simpa using hfree link hlink
  · cases h

/-- In a saved node a literal is the only input of its name. -/
theorem Node.IsSaved.literalsApart {node : Node} (h : node.IsSaved) : node.LiteralsApart := by
  cases h with
  | api api id hnames => exact ApiNode.literalsApart_node hnames id
  | ui ui origin? node hnode hnames =>
    obtain ⟨id, -, rfl⟩ := Option.map_eq_some_iff.mp hnode
    refine List.pairwise_append.mpr ⟨?_, ?_, ?_⟩
    · refine List.pairwise_of_forall_mem_list fun a ha b hb _ => ⟨?_, ?_⟩
      · exact UiNode.isSome_link?_of_mem_linkedInputs ha
      · exact UiNode.isSome_link?_of_mem_linkedInputs hb
    · exact (UiNode.pairwise_namedWidgets hnames).imp fun hne hname => absurd hname hne
    · intro a ha b hb hname
      exact absurd hname (UiNode.name_ne_of_mem_namedWidgets ha hb)

namespace Graph

/-- The nodes that do not run have their linked inputs found under their names. -/
def SkippedFindLinks (graph : Graph) : Prop :=
  ∀ node ∈ graph.nodes, node.mode.isSkipped = true → node.FindsLinks

instance (graph : Graph) : Decidable graph.SkippedFindLinks :=
  inferInstanceAs
    (Decidable (∀ node ∈ graph.nodes, node.mode.isSkipped = true → node.FindsLinks))

/-- A graph that was read from the UI form has its links found under their names. -/
theorem skippedFindLinks_ofUi {value : Json} {graph : Graph} (h : ofUi value = .ok graph) :
    graph.SkippedFindLinks := by
  obtain ⟨workflow, -, rfl⟩ := exists_ofNodes_of_ofUi h
  intro node hn _
  obtain ⟨ui, -, hui⟩ := List.mem_filterMap.mp (mem_of_mem_ofNodes hn)
  exact UiNode.findsLinks_of_node? hui

/-- So does one that was read from the API form, in which no input is written twice. -/
theorem skippedFindLinks_ofApi {members : List (String × Json)} {graph : Graph}
    (hinputs : ∀ member ∈ members, ((ApiNode.ofJson member.2).inputs.map Prod.fst).Nodup)
    (h : ofApi (.obj members) = .ok graph) : graph.SkippedFindLinks := by
  cases (ofApi_obj members).symm.trans h
  intro node hn _
  obtain ⟨member, hmember, rfl⟩ := List.mem_map.mp (mem_of_mem_ofNodes hn)
  exact (ApiNode.literalsApart_node (hinputs member (List.mem_filter.mp hmember).1)
    member.1).findsLinks

end Graph

/-- No member of a value is an API node with two inputs of one name. -/
def HasDistinctInputs (value : Json) : Prop :=
  ∀ members, value = .obj members →
    ∀ member ∈ members, ((ApiNode.ofJson member.2).inputs.map Prod.fst).Nodup

/-- So in a saved workflow of either form. -/
theorem Graph.skippedFindLinks_ofJson {value : Json} {graph : Graph}
    (hinputs : HasDistinctInputs value) (h : ofJson value = .ok graph) :
    graph.SkippedFindLinks := by
  unfold ofJson at h
  split at h
  · exact skippedFindLinks_ofUi h
  · split at h
    · obtain ⟨members, rfl, -⟩ := exists_ofNodes_of_ofApi h
      exact skippedFindLinks_ofApi (hinputs members rfl) h
    · cases h

end Workflow

namespace Definition

variable {d : Definition} {node : Workflow.Node} {slot : Option UInt32} {name : String}

lemma exists_link_of_firstLink? (h : node.firstLink?.map (·.input) = some name) :
    ∃ link ∈ node.links, link.input = name := by
  obtain ⟨link, hfirst, hname⟩ := Option.map_eq_some_iff.mp h
  exact ⟨link, List.mem_of_head? hfirst, hname⟩

lemma exists_link_of_undeclaredInput? (h : d.undeclaredInput? node slot = some name) :
    ∃ link ∈ node.links, link.input = name := by
  unfold undeclaredInput? at h
  split at h
  · rename_i typed ht
    cases h
    obtain ⟨index, -, htype⟩ := Option.bind_eq_some_iff.mp ht
    obtain ⟨type, -, hcandidate⟩ := Option.bind_eq_some_iff.mp htype
    obtain ⟨input, -, hfind⟩ := List.exists_of_findSome?_eq_some hcandidate
    obtain ⟨link, hlink, hname⟩ := Option.map_eq_some_iff.mp hfind
    exact ⟨link, List.mem_of_find?_eq_some hlink, hname⟩
  · exact exists_link_of_firstLink? h

/-- What stands in for an output slot is a linked input. -/
lemma isSome_link?_of_bypassInput? (hf : node.FindsLinks)
    (h : d.bypassInput? node slot = some name) : (node.link? name).isSome = true := by
  have hfound : (∃ link ∈ node.links, link.input = name) → (node.link? name).isSome = true := by
    rintro ⟨link, hmem, rfl⟩
    exact hf link hmem
  unfold bypassInput? at h
  split at h
  · split at h
    · rename_i hlinked
      cases h
      exact hlinked
    · exact hfound (exists_link_of_undeclaredInput? h)
  · exact hfound (exists_link_of_firstLink? h)
  · exact hfound (exists_link_of_undeclaredInput? h)

end Definition

namespace Tracing

open Workflow

variable {node : Node} (slot : Option UInt32) (depth : Nat)

lemma toInput_of_link? {name : String} (h : (node.link? name).isSome = true) :
    Step.toInput node name depth =
      ((node.link? name).map (Step.follow · (depth + 1))).getD .nothing := by
  unfold Node.link? at h ⊢
  unfold Step.toInput
  cases hi : node.input? name with
  | none => simp [hi] at h
  | some input =>
    cases input with
    | link target => rfl
    | literal value => simp [hi, Input.link?] at h

/-- The step through a node is decided by its links. -/
lemma through_eq_standIn? (hf : node.FindsLinks) (definition : Option Definition) :
    Step.through definition node slot depth =
      ((standIn? definition node slot).map (Step.follow · (depth + 1))).getD .nothing := by
  unfold Step.through standIn?
  cases definition with
  | none =>
    cases hfirst : node.firstLink? with
    | none => rfl
    | some link =>
      exact toInput_of_link? depth (hf link (List.mem_of_head? hfirst))
  | some d =>
    cases hi : d.bypassInput? node slot with
    | none => simp only [hi]; rfl
    | some input =>
      simp only [hi, Option.bind_some]
      exact toInput_of_link? depth (Definition.isSome_link?_of_bypassInput? hf hi)

end Tracing

end ImageRecipe
