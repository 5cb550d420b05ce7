import ImageRecipe.Proofs.BuiltinLibrary
import ImageRecipe.Proofs.IndexedStore
import Mathlib.Data.List.Nodup

/-!
# Workflows as their authors made them

An author puts nodes of known types into a workflow and gives their inputs
literals and links. Such a workflow can be saved in the API form, where every
input stands under its name, and in the UI form, where links have numbers and
literals stand at the places of their widgets. Both forms can be read, and here
it is said which nodes come out.
-/
namespace ImageRecipe.Workflow

/-- An input as it was made: a literal, or a link, which has a number of its own. -/
inductive AuthoredInput where
  | literal (value : Json)
  | link (number : Int64) (target : Link)

/-- A linked input. -/
structure AuthoredLink where
  name : String
  number : Int64
  target : Link

/-- The link of an input, if it has one. -/
def AuthoredLink.ofInput? : String × AuthoredInput → Option AuthoredLink
  | (_, .literal _) => none
  | (name, .link number target) => some ⟨name, number, target⟩

/-- A node of a type in the built-in library. Its inputs have distinct names, a literal is that of
a widget, and the control of a switch is not linked. -/
structure AuthoredNode where
  id : String
  definition : Definition
  mode : Option Int64
  inputs : List (String × AuthoredInput)
  id_ne_empty : id ≠ ""
  registered : NodeLibrary.builtin.get? definition.classType = some definition
  names_nodup : (inputs.map Prod.fst).Nodup
  names_ne_empty : ∀ input ∈ inputs, input.1 ≠ ""
  sources_ne_empty : ∀ name number target, (name, .link number target) ∈ inputs →
    target.source ≠ ""
  literals_named : ∀ name value, (name, .literal value) ∈ inputs → name ∈ definition.widgets
  control_unlinked : ∀ switch ∈ definition.switch, ∀ number target,
    (switch.control, .link number target) ∉ inputs

namespace AuthoredNode

variable (node : AuthoredNode)

/-- The linked inputs in order. -/
def links : List AuthoredLink := node.inputs.filterMap AuthoredLink.ofInput?

/-- The input with the given name. -/
def input? (name : String) : Option AuthoredInput :=
  (node.inputs.find? (·.1 == name)).map (·.2)

end AuthoredNode

/-- Nodes with distinct ids, whose links have distinct numbers. -/
structure AuthoredWorkflow where
  nodes : List AuthoredNode
  ids_nodup : (nodes.map AuthoredNode.id).Nodup
  numbers_nodup : ((nodes.flatMap AuthoredNode.links).map AuthoredLink.number).Nodup

/-- The member for the mode of a node, if it has one. -/
def modeMember : Option Int64 → List (String × Json)
  | none => []
  | some mode => [("mode", .num (.int mode.toInt))]

/-- Whether a value is an array of a text and a natural number, as a link in the API form is. -/
def isLinkForm : Json → Bool
  | .arr [.str _, .num slot] => slot.natural?.isSome
  | _ => false

/-- An input in the API form, where a link is an array of an id and a slot. -/
def AuthoredInput.apiForm : AuthoredInput → Json
  | .literal value => value
  | .link _ target => .arr [.str target.source, .ofNatural target.slot.toUInt64]

namespace AuthoredLink

variable (link : AuthoredLink)

/-- A linked input in the UI form. -/
def uiForm : Json :=
  .obj [("name", .str link.name), ("link", .num (.int link.number.toInt))]

/-- The row of the link table for a link to the node `id`; `more` is what comes after the slot
that it ends at, as the type of the link. -/
def row (id : String) (slot : UInt64) (more : List Json) : Json :=
  .arr (.num (.int link.number.toInt) :: .str link.target.source ::
    .ofNatural link.target.slot.toUInt64 :: .str id :: .ofNatural slot :: more)

end AuthoredLink

namespace AuthoredNode

variable (node : AuthoredNode)

def apiForm : Json :=
  .obj ([("class_type", .str node.definition.classType),
    ("inputs", .obj (node.inputs.map fun input => (input.1, input.2.apiForm)))] ++
    modeMember node.mode)

/-- The literal of an input, null if it has none. -/
def widgetValue (name : String) : Json :=
  match node.input? name with
  | some (.literal value) => value
  | _ => .null

/-- The node in the UI form: its linked inputs, and a value for each widget. -/
def uiForm : Json :=
  .obj ([("id", .str node.id), ("type", .str node.definition.classType),
    ("inputs", .arr (node.links.map AuthoredLink.uiForm)),
    ("widgets_values", .arr (node.definition.widgets.map node.widgetValue))] ++
    modeMember node.mode)

end AuthoredNode

namespace AuthoredWorkflow

variable (workflow : AuthoredWorkflow)

def apiForm : Json := .obj (workflow.nodes.map fun node => (node.id, node.apiForm))

/-- Whether a table has a row for every link and no other rows. -/
structure IsLinkTable (table : List Json) : Prop where
  sound : ∀ row ∈ table, ∃ node ∈ workflow.nodes, ∃ link ∈ node.links, ∃ slot more,
    link.row node.id slot more = row
  complete : ∀ node ∈ workflow.nodes, ∀ link ∈ node.links, ∃ slot more,
    link.row node.id slot more ∈ table

/-- The UI form with a table of links. -/
def uiForm (table : List Json) : Json :=
  .obj [("nodes", .arr (workflow.nodes.map AuthoredNode.uiForm)), ("links", .arr table)]

/-- Whether no literal has the form of a link. -/
def LiteralsApart : Prop :=
  ∀ node ∈ workflow.nodes, ∀ name value, (name, .literal value) ∈ node.inputs →
    isLinkForm value = false

end AuthoredWorkflow

/-- An input of a graph. -/
def AuthoredInput.plain : AuthoredInput → Input
  | .literal value => .literal value
  | .link _ target => .link target

/-- The node that is read from the API form, where a literal may be taken for a link. -/
def AuthoredNode.readNode (node : AuthoredNode) : Node where
  id := node.id
  classType := node.definition.classType
  title := none
  inputs := node.inputs.map fun input => (input.1, Input.ofJson input.2.apiForm)
  widgets := []
  mode := .ofCode (node.mode.map Int64.toInt)

/-- The node that is read from the API form if no literal is taken for a link. -/
def AuthoredNode.apiNode (node : AuthoredNode) : Node where
  id := node.id
  classType := node.definition.classType
  title := none
  inputs := node.inputs.map fun input => (input.1, input.2.plain)
  widgets := []
  mode := .ofCode (node.mode.map Int64.toInt)

lemma natural?_int_toNat (n : UInt64) : (Number.int n.toNat).natural? = some n := by
  have hlt : (n.toNat : Int) < UInt64.size := Int.ofNat_lt.mpr n.toNat_lt
  have hrange : (decide (0 ≤ (n.toNat : Int)) &&
      decide ((n.toNat : Int) < UInt64.size)) = true := by
    simp only [Int.natCast_nonneg, hlt, decide_true, Bool.and_self]
  rw [Number.natural?, if_pos hrange, Int.toNat_natCast, UInt64.ofNat_toNat]

lemma integer?_int_toInt (n : Int64) : (Number.int n.toInt).integer? = some n.toInt := by
  have hlow : -(Nat.pow 2 63 : Int) ≤ n.toInt := n.le_toInt
  have hhigh : n.toInt < (Nat.pow 2 63 : Int) := n.toInt_lt
  have hrange : (decide (-(Nat.pow 2 63 : Int) ≤ n.toInt) &&
      decide (n.toInt < (Nat.pow 2 63 : Int))) = true := by
    simp only [hlow, hhigh, decide_true, Bool.and_self]
  rw [Number.integer?, if_pos hrange]

lemma ofJson_pair (source : String) {slot : Number} {n : UInt64} (h : slot.natural? = some n) :
    Input.ofJson (.arr [.str source, .num slot]) = .link ⟨source, n.toUInt32⟩ := by
  simp only [Input.ofJson, h]

lemma ofJson_link (target : Link) :
    Input.ofJson (.arr [.str target.source, .ofNatural target.slot.toUInt64]) = .link target := by
  have h := ofJson_pair target.source (natural?_int_toNat target.slot.toUInt64)
  rwa [UInt32.toUInt32_toUInt64] at h

lemma ofJson_literal {value : Json} (h : isLinkForm value = false) :
    Input.ofJson value = .literal value := by
  unfold Input.ofJson
  split
  · rename_i source slot
    have hslot : slot.natural? = none := by simpa [isLinkForm] using h
    rw [hslot]
  · rfl

/-- The mode is read from its member. -/
lemma openField_modeMember (mode : Option Int64) :
    Json.openField Json.integer? (Json.lookup? "mode" (modeMember mode)) =
      some (mode.map Int64.toInt) := by
  cases mode with
  | none => rfl
  | some n =>
    simp only [modeMember, Json.lookup?, beq_self_eq_true, if_true, Json.openField,
      Json.integer?, integer?_int_toInt, Option.map_some]

lemma lookup?_modeMember {key : String} (h : key ≠ "mode") (mode : Option Int64) :
    Json.lookup? key (modeMember mode) = none := by
  cases mode with
  | none => rfl
  | some n =>
    have hkey : ("mode" == key) = false := by simpa using h.symm
    simp only [modeMember, Json.lookup?, hkey, Bool.false_eq_true, if_false]

lemma ofJson?_apiForm (node : AuthoredNode) : ApiNode.ofJson? node.apiForm =
    some ⟨node.definition.classType, node.inputs.map fun input => (input.1, input.2.apiForm),
      none, node.mode.map Int64.toInt, none⟩ := by
  have hwidgets : Json.lookup? "widgets_values" (modeMember node.mode) = none :=
    lookup?_modeMember (by decide) node.mode
  have hmeta : Json.lookup? "_meta" (modeMember node.mode) = none :=
    lookup?_modeMember (by decide) node.mode
  simp only [ApiNode.ofJson?, Json.fields?, AuthoredNode.apiForm, List.cons_append,
    List.nil_append, Json.lookup?, beq_iff_eq, List.map_cons, ↓reduceIte, String.reduceEq,
    hwidgets, hmeta, List.map_nil, Json.fieldOr, Json.string?, Json.object?,
    Option.bind_eq_bind, Option.bind_some, openField_modeMember]
  rfl

lemma node_ofJson_apiForm (node : AuthoredNode) :
    (ApiNode.ofJson node.apiForm).node node.id = node.readNode := by
  simp only [ApiNode.ofJson, ofJson?_apiForm, ApiNode.node, List.map_map]
  rfl

lemma readNode_eq_apiNode {node : AuthoredNode}
    (h : ∀ name value, (name, .literal value) ∈ node.inputs → isLinkForm value = false) :
    node.readNode = node.apiNode := by
  have hinputs : ∀ input ∈ node.inputs,
      (input.1, Input.ofJson input.2.apiForm) = (input.1, input.2.plain) := by
    intro input hi
    obtain ⟨name, input⟩ := input
    cases input with
    | literal value => exact congrArg (Prod.mk name) (ofJson_literal (h name value hi))
    | link number target => exact congrArg (Prod.mk name) (ofJson_link target)
  rw [AuthoredNode.readNode, List.map_congr_left hinputs]
  rfl

/-- The node that is read from the UI form. -/
def AuthoredNode.uiNode (node : AuthoredNode) : Node where
  id := node.id
  classType := node.definition.classType
  title := none
  inputs := node.links.map fun link => (link.name, .link link.target)
  widgets := node.definition.widgets.map node.widgetValue
  mode := .ofCode (node.mode.map Int64.toInt)

lemma ofJson?_link (link : AuthoredLink) :
    UiInput.ofJson? link.uiForm = some ⟨link.name, some link.number.toInt, none⟩ := by
  simp only [UiInput.ofJson?, Json.fields?, AuthoredLink.uiForm, Json.lookup?, beq_iff_eq,
    List.map_cons, ↓reduceIte, String.reduceEq, List.map_nil, Json.fieldOr, Json.string?,
    Json.openField, Json.integer?, Option.bind_eq_bind, Option.bind_some, integer?_int_toInt,
    Option.map_some]

lemma mapM_eq_some_map {α β γ : Type} {read : β → Option γ} {save : α → β} {back : α → γ}
    (h : ∀ a, read (save a) = some (back a)) (l : List α) :
    (l.map save).mapM read = some (l.map back) := by
  induction l with
  | nil => rfl
  | cons a l ih => simp only [List.map_cons, List.mapM_cons, h, ih]; rfl

lemma ofJson?_uiForm (node : AuthoredNode) : UiNode.ofJson? node.uiForm =
    some ⟨.str node.id, node.definition.classType, node.mode.map Int64.toInt,
      node.links.map fun link => ⟨link.name, some link.number.toInt, none⟩,
      some (.arr (node.definition.widgets.map node.widgetValue)), none⟩ := by
  have htitle : Json.lookup? "title" (modeMember node.mode) = none :=
    lookup?_modeMember (by decide) node.mode
  have hinputs := mapM_eq_some_map ofJson?_link node.links
  simp only [UiNode.ofJson?, Json.fields?, AuthoredNode.uiForm, List.cons_append,
    List.nil_append, Json.lookup?, beq_iff_eq, List.map_cons, ↓reduceIte, String.reduceEq,
    htitle, List.map_nil, Json.fieldOr, Json.string?, UiNode.inputs?, Json.array?,
    Option.bind_eq_bind, Option.bind_some, openField_modeMember, hinputs, Option.getD_some]
  rfl

lemma idText?_str {s : String} (h : s ≠ "") : idText? (.str s) = some s := by
  have he : s.isEmpty = false := by simpa using h
  rw [idText?, he]
  rfl

lemma ofJson?_row {link : AuthoredLink} {id : String} (hs : link.target.source ≠ "")
    (hid : id ≠ "") (slot : UInt64) (more : List Json) :
    UiLink.ofJson? (link.row id slot more) =
      some ⟨link.number.toInt, link.target, ⟨id, slot.toUInt32⟩⟩ := by
  simp only [UiLink.ofJson?, AuthoredLink.row, UiLink.ofValues?, Json.integer?,
    integer?_int_toInt, idText?_str hs, idText?_str hid, Json.ofNatural, Json.natural?,
    natural?_int_toNat, Option.bind_eq_bind, Option.bind_some, UInt32.toUInt32_toUInt64]

namespace AuthoredNode

variable {node : AuthoredNode} {link : AuthoredLink}

lemma mem_links : link ∈ node.links ↔
    (link.name, .link link.number link.target) ∈ node.inputs := by
  unfold links
  rw [List.mem_filterMap]
  constructor
  · rintro ⟨⟨name, input⟩, hi, h⟩
    cases input with
    | literal value => cases h
    | link number target =>
      cases h
      exact hi
  · intro h
    exact ⟨_, h, rfl⟩

lemma source_ne_empty_of_mem_links (h : link ∈ node.links) : link.target.source ≠ "" :=
  node.sources_ne_empty _ _ _ (mem_links.mp h)

lemma name_ne_empty_of_mem_links (h : link ∈ node.links) : link.name ≠ "" :=
  node.names_ne_empty _ (mem_links.mp h)

end AuthoredNode

namespace AuthoredWorkflow

variable {workflow : AuthoredWorkflow} {table : List Json}

/-- Links of one number are one link. -/
lemma eq_of_number_eq {node node' : AuthoredNode} (hn : node ∈ workflow.nodes)
    (hn' : node' ∈ workflow.nodes) {link link' : AuthoredLink} (hl : link ∈ node.links)
    (hl' : link' ∈ node'.links) (h : link.number = link'.number) : link = link' :=
  List.inj_on_of_nodup_map workflow.numbers_nodup (List.mem_flatMap.mpr ⟨node, hn, hl⟩)
    (List.mem_flatMap.mpr ⟨node', hn', hl'⟩) h

/-- A table of the links, in any order, gives each its origin. -/
theorem IsLinkTable.origin? (h : workflow.IsLinkTable table) {node : AuthoredNode}
    (hn : node ∈ workflow.nodes) {link : AuthoredLink} (hl : link ∈ node.links) :
    UiLink.origin? (table.filterMap UiLink.ofJson?) link.number.toInt = some link.target := by
  let rows := table.filterMap UiLink.ofJson?
  have hsound : ∀ r ∈ rows, r.id = link.number.toInt → r.origin = link.target := by
    intro r hr hid
    obtain ⟨row, hrow, hread⟩ := List.mem_filterMap.mp hr
    obtain ⟨node', hn', link', hl', slot, more, rfl⟩ := h.sound row hrow
    rw [ofJson?_row (AuthoredNode.source_ne_empty_of_mem_links hl') node'.id_ne_empty] at hread
    cases hread
    have hnumber : link'.number = link.number := Int64.toInt_inj.mp hid
    rw [eq_of_number_eq hn' hn hl' hl hnumber]
  have hfound : ∃ r ∈ rows.reverse, (r.id == link.number.toInt) = true := by
    obtain ⟨slot, more, hrow⟩ := h.complete node hn link hl
    have hread := ofJson?_row (AuthoredNode.source_ne_empty_of_mem_links hl) node.id_ne_empty
      slot more
    exact ⟨_, List.mem_reverse.mpr (List.mem_filterMap.mpr ⟨_, hrow, hread⟩), by simp⟩
  change (rows.reverse.find? (·.id == link.number.toInt)).map (·.origin) = some link.target
  cases hf : rows.reverse.find? (·.id == link.number.toInt) with
  | none =>
    obtain ⟨r, hr, hid⟩ := hfound
    exact absurd hid (List.find?_eq_none.mp hf r hr)
  | some r =>
    have hid : r.id = link.number.toInt := by simpa using List.find?_some hf
    have hmem : r ∈ rows := List.mem_reverse.mp (List.mem_of_find?_eq_some hf)
    exact congrArg some (hsound r hmem hid)

end AuthoredWorkflow

/-- With the origins of its links, the linked inputs of a node are read in order. Induction on the
links, with the position of the first one. -/
lemma linkedInputs_links {origin? : Int → Option Link} {links : List AuthoredLink}
    (ho : ∀ link ∈ links, origin? link.number.toInt = some link.target)
    (hn : ∀ link ∈ links, link.name ≠ "") (first : Nat) :
    ((links.map fun link => (⟨link.name, some link.number.toInt, none⟩ : UiInput)).zipIdx
      first).filterMap (fun (input, position) => (input.link.bind origin?).map fun target =>
        (input.nodeInputName position, Input.link target)) =
      links.map fun link => (link.name, Input.link link.target) := by
  induction links generalizing first with
  | nil => rfl
  | cons link links ih =>
    have hname : link.name.isEmpty = false := by simpa using hn link List.mem_cons_self
    have hrest := ih (fun l hl => ho l (List.mem_cons_of_mem _ hl))
      (fun l hl => hn l (List.mem_cons_of_mem _ hl)) (first + 1)
    simp only [List.map_cons, List.zipIdx_cons, List.filterMap_cons, Option.bind_some,
      ho link List.mem_cons_self, Option.map_some, UiInput.nodeInputName, Option.filter_none,
      hname, Bool.false_eq_true, if_false]
    exact congrArg _ hrest

theorem node?_uiForm {workflow : AuthoredWorkflow} {table : List Json}
    (h : workflow.IsLinkTable table) {node : AuthoredNode}
    (hn : node ∈ workflow.nodes) :
    (UiNode.ofJson? node.uiForm).bind
      (·.node? (UiLink.origin? (table.filterMap UiLink.ofJson?))) = some node.uiNode := by
  have hlinked := linkedInputs_links
    (fun link hl => h.origin? hn hl)
    (fun link hl => AuthoredNode.name_ne_empty_of_mem_links hl) 0
  rw [ofJson?_uiForm, Option.bind_some, UiNode.node?, idText?_str node.id_ne_empty]
  simp only [Option.map_some, UiNode.linkedInputs, hlinked, UiNode.namedWidgets,
    List.append_nil, Option.bind_some, Json.array?, Option.getD_some]
  rfl

namespace AuthoredWorkflow

variable {workflow : AuthoredWorkflow} {table : List Json}

/-- The graph in which every node has the given form. -/
def graphOf (workflow : AuthoredWorkflow) (form : AuthoredNode → Node) : Graph :=
  .ofNodes (workflow.nodes.map form)

theorem ofApi_apiForm :
    Graph.ofApi workflow.apiForm = .ok (workflow.graphOf AuthoredNode.readNode) := by
  have hobjects : ∀ member ∈ workflow.nodes.map fun node => (node.id, node.apiForm),
      member.2.isObject = true := by
    intro member hm
    obtain ⟨node, -, rfl⟩ := List.mem_map.mp hm
    rfl
  have hnodes : ∀ node ∈ workflow.nodes, (ApiNode.ofJson node.apiForm).node node.id =
      node.readNode := fun node _ => node_ofJson_apiForm node
  rw [apiForm, Graph.ofApi_obj, Graph.apiNodes, List.filter_eq_self.mpr hobjects, List.map_map]
  exact congrArg (fun nodes => Except.ok (Graph.ofNodes nodes)) (List.map_congr_left hnodes)

/-- No literal is taken for a link, so the nodes are as they were made. -/
lemma graphOf_readNode (h : workflow.LiteralsApart) :
    workflow.graphOf AuthoredNode.readNode = workflow.graphOf AuthoredNode.apiNode :=
  congrArg Graph.ofNodes (List.map_congr_left fun node hn => readNode_eq_apiNode (h node hn))

theorem ofUi_uiForm (h : workflow.IsLinkTable table) :
    Graph.ofUi (workflow.uiForm table) = .ok (workflow.graphOf AuthoredNode.uiNode) := by
  have hread : UiWorkflow.ofJson? (workflow.uiForm table) =
      some ⟨(workflow.nodes.map AuthoredNode.uiForm).filterMap UiNode.ofJson?,
        table.filterMap UiLink.ofJson?⟩ := rfl
  have hnodes : ∀ node ∈ workflow.nodes, ((UiNode.ofJson? node.uiForm).bind
      (·.node? (UiLink.origin? (table.filterMap UiLink.ofJson?)))) = some node.uiNode :=
    fun node hn => node?_uiForm h hn
  rw [Graph.ofUi_of_ofJson? hread]
  simp only [Graph.uiNodes, List.filterMap_filterMap, List.filterMap_map]
  rw [graphOf, ← List.filterMap_eq_map]
  exact congrArg (fun nodes => Except.ok (Graph.ofNodes nodes)) (List.filterMap_congr hnodes)

end AuthoredWorkflow

end ImageRecipe.Workflow
