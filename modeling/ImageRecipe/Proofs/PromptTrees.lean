import ImageRecipe.Proofs.Routes
import ImageRecipe.Proofs.VisibleEnds

/-!
# Prompts put together along a tree

Two conditionings are made into one by nodes that combine, concatenate or average
them, and the prompt of such a node is made of the prompts behind both inputs. A
tree of these nodes has the texts of all its encoders for its prompt, from left to
right: what was visited on the way through one branch is not met again in another,
and the room on the path is the same for both.
-/
namespace ImageRecipe

namespace Text

/-- A text that cannot be mistaken when it is joined with others: it has no blanks at its ends and
no comma. -/
structure IsPart (text : String) : Prop where
  nonempty : text ≠ ""
  trimmed_eq : trimmed text = text
  plain : ',' ∉ text.toList

instance (text : String) : Decidable (IsPart text) :=
  decidable_of_iff (text ≠ "" ∧ trimmed text = text ∧ ',' ∉ text.toList)
    ⟨fun h => ⟨h.1, h.2.1, h.2.2⟩, fun h => ⟨h.nonempty, h.trimmed_eq, h.plain⟩⟩

lemma IsPart.visible {text : String} (h : IsPart text) :
    StartsVisibly text.toList ∧ EndsVisibly text.toList := by
  have htrim : trim text.toList = text.toList := trim_toList_of_trimmed_eq h.trimmed_eq
  exact visible_of_trim_eq htrim fun hnil => h.nonempty (String.toList_eq_nil_iff.mp hnil)

lemma nonBlank?_of_visible {text : String}
    (h : StartsVisibly text.toList ∧ EndsVisibly text.toList) : nonBlank? text = some text := by
  have htrimmed : trimmed text = text := by
    rw [trimmed, trim_of_visible h.1 h.2, String.ofList_toList]
  have hne : text.isEmpty = false := by
    rw [String.isEmpty_eq_false_iff]
    rintro rfl
    exact h.2.ne_nil rfl
  rw [nonBlank?, htrimmed, hne]
  rfl

variable {separator : String} {texts : List String}

/-- Joined texts begin as the first and end as the last of them. -/
lemma visible_intercalate (hne : texts ≠ [])
    (h : ∀ text ∈ texts, StartsVisibly text.toList ∧ EndsVisibly text.toList) :
    StartsVisibly (separator.intercalate texts).toList ∧
      EndsVisibly (separator.intercalate texts).toList := by
  induction texts with
  | nil => exact absurd rfl hne
  | cons text rest ih =>
    obtain ⟨htext, hrest⟩ := List.forall_mem_cons.mp h
    by_cases hnil : rest = []
    · rw [hnil, String.intercalate_singleton]
      exact htext
    · rw [String.intercalate_cons_of_ne_nil hnil, String.toList_append, String.toList_append]
      refine ⟨?_, (ih hnil hrest).2.append _⟩
      rw [List.append_assoc]
      exact htext.1.append _

/-- Up to its first comma a joined text is the first part. -/
lemma takeWhile_intercalate {text : String} (hplain : ',' ∉ text.toList) (rest : List String) :
    (", ".intercalate (text :: rest)).toList.takeWhile (· != ',') = text.toList := by
  have hall : ∀ c ∈ text.toList, (c != ',') = true := by
    intro c hc
    rw [bne_iff_ne]
    rintro rfl
    exact hplain hc
  cases rest with
  | nil =>
    rw [String.intercalate_singleton]
    exact List.takeWhile_eq_self_iff.mpr hall
  | cons next rest =>
    rw [String.intercalate_cons_cons, String.toList_append, String.toList_append, List.append_assoc,
      List.takeWhile_append_of_pos hall]
    exact List.append_nil _

/-- Different parts are still different when they are joined, as their first parts are. -/
lemma intercalate_ne_intercalate {left right : List String} (hleft : left ≠ [])
    (hright : right ≠ []) (hparts : ∀ text ∈ left ++ right, IsPart text)
    (hnodup : (left ++ right).Nodup) : ", ".intercalate left ≠ ", ".intercalate right := by
  obtain ⟨first, rest, rfl⟩ := List.exists_cons_of_ne_nil hleft
  obtain ⟨second, others, rfl⟩ := List.exists_cons_of_ne_nil hright
  intro heq
  have hsame : first.toList = second.toList := by
    rw [← takeWhile_intercalate (hparts first (by simp)).plain rest, heq,
      takeWhile_intercalate (hparts second (by simp)).plain]
  exact (List.nodup_append.mp hnodup).2.2 first List.mem_cons_self second List.mem_cons_self
    (String.toList_inj.mp hsame)

end Text

namespace Workflow

/-- The types of node that make one conditioning out of two. -/
inductive Pairing where
  | combine
  | concat
  | average
  deriving DecidableEq, Repr

namespace Pairing

def classType : Pairing → String
  | combine => "ConditioningCombine"
  | concat => "ConditioningConcat"
  | average => "ConditioningAverage"

/-- The input for the first conditioning. -/
def first : Pairing → String
  | combine => "conditioning_1"
  | concat => "conditioning_to"
  | average => "conditioning_to"

/-- The input for the second conditioning. -/
def second : Pairing → String
  | combine => "conditioning_2"
  | concat => "conditioning_from"
  | average => "conditioning_from"

lemma rule?_prompt (pairing : Pairing) : NodeLibrary.builtin.rule? pairing.classType .prompt =
    some (.extract (.joinInputs [pairing.first, pairing.second])) := by
  cases pairing <;> exact NodeLibrary.rule?_builtin (by decide +kernel)

end Pairing

/-- Encoders with their texts, put together by nodes that make one conditioning out of two. -/
inductive PromptTree where
  | leaf (id text : String)
  | pair (pairing : Pairing) (id : String) (left right : PromptTree)
  deriving Repr

namespace PromptTree

/-- The node at which the tree is put together. -/
def root : PromptTree → String
  | leaf id _ => id
  | pair _ id _ _ => id

/-- All nodes in the order in which they are visited. -/
def ids : PromptTree → List String
  | leaf id _ => [id]
  | pair _ id left right => id :: (left.ids ++ right.ids)

/-- The texts from left to right. -/
def texts : PromptTree → List String
  | leaf _ text => [text]
  | pair _ _ left right => left.texts ++ right.texts

/-- The greatest number of links from the root to an encoder. -/
def height : PromptTree → Nat
  | leaf _ _ => 0
  | pair _ _ left right => max left.height right.height + 1

lemma texts_ne_nil (tree : PromptTree) : tree.texts ≠ [] := by
  induction tree with
  | leaf id text => exact List.cons_ne_nil _ _
  | pair pairing id left right ihl _ => exact List.append_ne_nil_of_left_ne_nil ihl _

/-- The texts of the tree in one. -/
def prompt (tree : PromptTree) : String := ", ".intercalate tree.texts

lemma prompt_pair (pairing : Pairing) (id : String) (left right : PromptTree) :
    (pair pairing id left right).prompt = left.prompt ++ ", " ++ right.prompt :=
  String.intercalate_append_of_ne_nil left.texts_ne_nil right.texts_ne_nil

/-- The texts can be told apart in what is joined of them. -/
structure HasParts (tree : PromptTree) : Prop where
  parts : ∀ text ∈ tree.texts, Text.IsPart text
  distinct : tree.texts.Nodup

variable {pairing : Pairing} {id : String} {left right : PromptTree}

/-- Of nodes that are new to a search those on the left are new behind the root, and those on the
right behind the root and all on the left. -/
lemma fresh_of_pair {visited : List String} (hids : (pair pairing id left right).ids.Nodup)
    (hfresh : ∀ other ∈ (pair pairing id left right).ids, other ∉ visited) :
    (∀ other ∈ left.ids, other ∉ id :: visited) ∧
      ∀ other ∈ right.ids, other ∉ left.ids.reverse ++ id :: visited := by
  obtain ⟨hid, hbranches⟩ := List.nodup_cons.mp hids
  obtain ⟨-, -, hapart⟩ := List.nodup_append.mp hbranches
  have hbehind : ∀ other ∈ left.ids ++ right.ids, other ∉ id :: visited := by
    intro other hother hmem
    rcases List.mem_cons.mp hmem with rfl | hvisited
    · exact hid hother
    · exact hfresh other (List.mem_cons_of_mem _ hother) hvisited
  refine ⟨fun other hother => hbehind other (List.mem_append_left _ hother), ?_⟩
  intro other hother hmem
  rcases List.mem_append.mp hmem with hleft | hvisited
  · exact hapart other (List.mem_reverse.mp hleft) other hother rfl
  · exact hbehind other (List.mem_append_right _ hother) hvisited

lemma HasParts.of_pair (h : (pair pairing id left right).HasParts) :
    left.HasParts ∧ right.HasParts := by
  obtain ⟨hleft, hright, -⟩ := List.nodup_append.mp h.distinct
  exact ⟨⟨fun text hmem => h.parts text (List.mem_append_left _ hmem), hleft⟩,
    ⟨fun text hmem => h.parts text (List.mem_append_right _ hmem), hright⟩⟩

lemma HasParts.nonBlank?_prompt {tree : PromptTree} (h : tree.HasParts) :
    Text.nonBlank? tree.prompt = some tree.prompt :=
  Text.nonBlank?_of_visible
    (Text.visible_intercalate tree.texts_ne_nil fun text hmem => (h.parts text hmem).visible)

lemma HasParts.prompt_ne (h : (pair pairing id left right).HasParts) :
    left.prompt ≠ right.prompt :=
  Text.intercalate_ne_intercalate left.texts_ne_nil right.texts_ne_nil h.parts h.distinct

end PromptTree

/-- The graph has the nodes of a tree, linked as the tree says, and they all run. -/
inductive Graph.Carries (graph : Graph) : PromptTree → Prop
  | leaf {id text : String} {node : Node} (hrun : graph.RunsAt id "CLIPTextEncode" node)
      (htext : node.Holds .builtin "text" (.str text)) : graph.Carries (.leaf id text)
  | pair {pairing : Pairing} {id : String} {left right : PromptTree} {node : Node}
      {slot slot' : UInt32} (hrun : graph.RunsAt id pairing.classType node)
      (hfirst : node.link? pairing.first = some ⟨left.root, slot⟩)
      (hsecond : node.link? pairing.second = some ⟨right.root, slot'⟩)
      (hleft : graph.Carries left) (hright : graph.Carries right) :
      graph.Carries (.pair pairing id left right)

end Workflow

namespace Tracing

open Workflow

/-- Two different texts are joined as they are. -/
lemma joined?_pair {first second : String} (hfirst : Text.nonBlank? first = some first)
    (hsecond : Text.nonBlank? second = some second) (hne : first ≠ second) (separator : String) :
    joined? separator [some (.str first), some (.str second)] =
      some (.str (first ++ separator ++ second)) := by
  have hdistinct : distinctTexts [first, second] = [first, second] := by
    simp [distinctTexts, hne.symm]
  have htexts : [some (Json.str first), some (.str second)].filterMap partText? =
      [first, second] := by
    simp only [List.filterMap_cons, List.filterMap_nil, partText?, hfirst, hsecond]
  rw [joined?, htexts, hdistinct]
  simp only [String.intercalate_cons_cons, String.intercalate_singleton]

lemma rule?_textEncoder_prompt : NodeLibrary.builtin.rule? "CLIPTextEncode" .prompt =
    some (.widget "text" false) := NodeLibrary.rule?_builtin (by decide +kernel)

variable {search : Search} {node : Node} {slot : Option UInt32} {depth : Nat}

/-- At a node with two conditionings both links are followed, the first one first. -/
lemma planFor_pairing (hlibrary : search.library = .builtin) {pairing : Pairing}
    (hmode : node.mode = .active) (htype : node.classType = pairing.classType)
    {first second : Link} (hfirst : node.link? pairing.first = some first)
    (hsecond : node.link? pairing.second = some second) :
    planFor search .prompt node slot depth =
      .join ", " [.follow first (depth + 1), .follow second (depth + 1)] := by
  obtain ⟨d, hd, hrule⟩ := Option.bind_eq_some_iff.mp pairing.rule?_prompt
  rw [← hlibrary, ← htype] at hd
  have hskip : node.mode.isSkipped = false := by rw [hmode]; rfl
  rw [planFor_ruled hskip hd hrule, rulePlan, extractorPlan, List.map_cons, List.map_cons,
    List.map_nil, toInput_eq_follow hfirst, toInput_eq_follow hsecond]
  rfl

/-- The texts of two links are joined; what the first one visits is visited for the second. -/
lemma run_carryOut_join_pair (visit : Link → Nat → Walk (Option Json)) (id separator : String)
    (first second : Link) (behind : Nat) (trail : Trail) :
    (Walk.carryOut visit id
        (.join separator [.follow first behind, .follow second behind])).run trail =
      let left := (visit first behind).run trail
      let right := (visit second behind).run left.2
      (joined? separator [left.1, right.1], right.2) := rfl

/-- A visit of the root finds all texts of the tree and visits all of its nodes, if none of them was
visited before. Induction on the tree: both branches have the room and the depth that their root
leaves them, and what the first one visits is not in the second. -/
theorem run_visit_promptTree {tree : PromptTree} (hlibrary : search.library = .builtin)
    (h : search.graph.Carries tree) (hparts : tree.HasParts) (hids : tree.ids.Nodup) {room : Nat}
    {trail : Trail} (hfresh : ∀ id ∈ tree.ids, id ∉ trail.visited)
    (hdepth : depth + tree.height ≤ search.maxDepth) (hroom : tree.height < room) :
    (search.visit .prompt room tree.root slot depth).run trail =
      (some (.str tree.prompt), ⟨tree.ids.reverse ++ trail.visited, trail.gathered⟩) := by
  induction h generalizing room slot depth trail with
  | @leaf id text node hrun htext =>
    obtain ⟨room, rfl⟩ : ∃ r, room = r + 1 := ⟨room - 1, by omega⟩
    have hr : ¬ search.Refuses id depth trail :=
      not_or.mpr ⟨Nat.not_lt.mpr (by omega), hfresh id List.mem_cons_self⟩
    have hplan : planFor search .prompt node slot depth = .single (.answer (some (.str text))) :=
      planFor_held hrun.runs hrun.isOfType (hlibrary ▸ rule?_textEncoder_prompt) (hlibrary ▸ htext)
    rw [PromptTree.root, search.run_visit_single .prompt hr hrun.found hplan, Walk.run_step_answer]
    rfl
  | @pair pairing id left right node slot₁ slot₂ hrun hfirst hsecond hleft hright ihl ihr =>
    obtain ⟨room, rfl⟩ : ∃ r, room = r + 1 := ⟨room - 1, by omega⟩
    rw [PromptTree.height] at hdepth hroom
    have hr : ¬ search.Refuses id depth trail :=
      not_or.mpr ⟨Nat.not_lt.mpr (by omega), hfresh id List.mem_cons_self⟩
    obtain ⟨hleftIds, hrightIds, -⟩ := List.nodup_append.mp (List.nodup_cons.mp hids).2
    obtain ⟨hfreshLeft, hfreshRight⟩ := PromptTree.fresh_of_pair hids hfresh
    have hplan : planFor search .prompt node slot depth =
        .join ", " [.follow ⟨left.root, slot₁⟩ (depth + 1),
          .follow ⟨right.root, slot₂⟩ (depth + 1)] :=
      planFor_pairing hlibrary hrun.runs hrun.isOfType hfirst hsecond
    obtain ⟨hpartsLeft, hpartsRight⟩ := hparts.of_pair
    rw [PromptTree.root, search.run_visit_found .prompt hr hrun.found, hplan,
      run_carryOut_join_pair]
    dsimp only [Search.visitBehind]
    rw [ihl hpartsLeft hleftIds hfreshLeft (by omega) (by omega),
      ihr hpartsRight hrightIds hfreshRight (by omega) (by omega),
      joined?_pair hpartsLeft.nonBlank?_prompt hpartsRight.nonBlank?_prompt hparts.prompt_ne,
      ← PromptTree.prompt_pair pairing id]
    simp [PromptTree.ids]

/-- The prompt at the root of a tree that is not higher than the search may go is made of all its
texts from left to right, whatever was searched before. -/
theorem run_resolve_promptTree (graph : Graph) (settings : Settings) (tree : PromptTree)
    (trail : Trail) (h : graph.Carries tree)
    (hdepth : 1 ≤ settings.maxDepth ∧ settings.maxDepth ≤ 128)
    (hheight : tree.height ≤ settings.maxDepth) (hids : tree.ids.Nodup)
    (hparts : ∀ text ∈ tree.texts, Text.IsPart text) (htexts : tree.texts.Nodup) :
    ((Search.ofSettings graph .builtin settings).resolve tree.root .prompt).run trail =
      (some (.str (", ".intercalate tree.texts)), ⟨tree.ids.reverse, trail.gathered⟩) := by
  let search : Search := .ofSettings graph .builtin settings
  have hlibrary : search.library = .builtin := rfl
  have hmax : search.maxDepth = settings.maxDepth := by
    have hlimit : Fault.depthLimit = 128 := rfl
    rw [Search.maxDepth_ofSettings, hlimit]
    omega
  have hroom : tree.height < search.maxPath := by
    rw [Search.maxPath, hmax]
    omega
  have hvisit : (search.visit .prompt search.maxPath tree.root none 0).run ⟨[], trail.gathered⟩ =
      (some (.str tree.prompt), ⟨tree.ids.reverse ++ [], trail.gathered⟩) :=
    run_visit_promptTree hlibrary h ⟨hparts, htexts⟩ hids (fun _ _ => List.not_mem_nil)
      (by omega) hroom
  rw [Search.run_resolve, hvisit, List.append_nil]
  rfl

/-- Four encoders under nodes of all three types. -/
def castleTree : PromptTree :=
  .pair .combine "1" (.leaf "2" "a castle")
    (.pair .average "3"
      (.pair .concat "4" (.leaf "5" "at night") (.leaf "6" "under stars"))
      (.leaf "7" "in fog"))

def castleText (id text : String) : Node :=
  ⟨id, "CLIPTextEncode", none, [("text", .literal (.str text))], [], .active⟩

def castlePair (pairing : Pairing) (id first second : String) : Node :=
  ⟨id, pairing.classType, none, [(pairing.second, .link ⟨second, 0⟩),
    (pairing.first, .link ⟨first, 0⟩)], [], .active⟩

/-- The nodes of the tree in some other order. -/
def castleGraph : Graph := .ofNodes [
  castleText "7" "in fog", castleText "6" "under stars", castleText "5" "at night",
  castlePair .concat "4" "5" "6", castlePair .average "3" "4" "7", castleText "2" "a castle",
  castlePair .combine "1" "2" "3"]

lemma carries_castleTree : castleGraph.Carries castleTree := by
  have hencoder : ∀ id text, castleGraph.node? id = some (castleText id text) →
      castleGraph.Carries (.leaf id text) :=
    fun id text hnode => .leaf ⟨hnode, rfl, rfl⟩ ⟨rfl, rfl⟩
  have hpairing : ∀ (pairing : Pairing) (id : String) (left right : PromptTree),
      castleGraph.node? id = some (castlePair pairing id left.root right.root) →
      castleGraph.Carries left → castleGraph.Carries right →
        castleGraph.Carries (.pair pairing id left right) := by
    intro pairing id left right hnode hleft hright
    have hfirst : (castlePair pairing id left.root right.root).link? pairing.first =
        some ⟨left.root, 0⟩ := by cases pairing <;> rfl
    have hsecond : (castlePair pairing id left.root right.root).link? pairing.second =
        some ⟨right.root, 0⟩ := by cases pairing <;> rfl
    exact .pair ⟨hnode, rfl, rfl⟩ hfirst hsecond hleft hright
  refine hpairing _ _ _ _ rfl (hencoder _ _ rfl) (hpairing _ _ _ _ rfl ?_ (hencoder _ _ rfl))
  exact hpairing _ _ _ _ rfl (hencoder _ _ rfl) (hencoder _ _ rfl)

/-- The tree is as high as the search may go. -/
theorem run_resolve_castleTree : castleTree.height = 3 ∧
    ((Search.ofSettings castleGraph .builtin { maxDepth := 3 }).resolve "1" .prompt).run .empty =
      (some (.str "a castle, at night, under stars, in fog"),
        ⟨["7", "6", "5", "4", "3", "2", "1"], []⟩) := by
  refine ⟨rfl, ?_⟩
  exact run_resolve_promptTree castleGraph { maxDepth := 3 } castleTree .empty carries_castleTree
    (by decide) (by decide) (by decide) (by decide +kernel) (by decide)

end Tracing

end ImageRecipe
