import ImageRecipe.Proofs.BuiltinLibrary
import ImageRecipe.Proofs.LinkedInputs
import ImageRecipe.Proofs.Routes
import ImageRecipe.Proofs.Upstream
import Mathlib.Algebra.Ring.Int.Defs
import Mathlib.Algebra.Ring.Nat

/-!
# Branches of a switch

An input of a switch is a branch if its name is the prefix with a number behind
it and it does not hold null. If no number belongs to two branches, a search goes
on through the branch whose number the control has, else through the one with the
smallest number, wherever these stand among the inputs.
-/
namespace ImageRecipe

namespace Text

/-- A number of 64 bits as it is written: digits, with one sign before them or none. -/
inductive Integer64 : List Char → Int → Prop
  | unsigned {digits : List Char} (hne : digits ≠ []) (hdigits : digits.all Char.isDigit = true)
      (hfits : decimalValue digits < 2 ^ 63) : Integer64 digits (decimalValue digits)
  | plus {digits : List Char} (hne : digits ≠ []) (hdigits : digits.all Char.isDigit = true)
      (hfits : decimalValue digits < 2 ^ 63) : Integer64 ('+' :: digits) (decimalValue digits)
  | minus {digits : List Char} (hne : digits ≠ []) (hdigits : digits.all Char.isDigit = true)
      (hfits : decimalValue digits ≤ 2 ^ 63) : Integer64 ('-' :: digits) (-decimalValue digits)

lemma digits?_eq_some_iff {s : List Char} {n : Nat} :
    digits? s = some n ↔ s ≠ [] ∧ s.all Char.isDigit = true ∧ decimalValue s = n := by
  unfold digits?
  split
  · rename_i h
    rw [Bool.and_eq_true, Bool.not_eq_true', List.isEmpty_eq_false_iff] at h
    simp [h]
  · rename_i h
    rw [Bool.and_eq_true, Bool.not_eq_true', List.isEmpty_eq_false_iff] at h
    simp only [reduceCtorEq, false_iff]
    exact fun hs => h ⟨hs.1, hs.2.1⟩

lemma integer64?_minus (digits : List Char) : integer64? ('-' :: digits) =
    ((digits? digits).filter fun n => n ≤ 2 ^ 63).map fun n : Nat => -(n : Int) := by
  change (((digits? digits).filter fun n => n ≤ 2 ^ 63).bind fun n : Nat => some (n : Int)).map
    (fun n => -n) = _
  cases (digits? digits).filter fun n => n ≤ 2 ^ 63 <;> rfl

/-- Without a minus sign a number is natural. -/
lemma integer64?_of_head_ne {s : List Char} (h : s.head? ≠ some '-') :
    integer64? s = (natural? (2 ^ 63) s).map Int.ofNat := by
  unfold integer64?
  split
  · exact absurd rfl h
  · rfl

lemma natural?_eq_some_iff {bound : Nat} {s : List Char} {n : Nat} :
    natural? bound s = some n ↔ n < bound ∧
      (digits? s = some n ∨ ∃ digits, s = '+' :: digits ∧ digits? digits = some n) := by
  unfold natural?
  rw [Option.filter_eq_some_iff, decide_eq_true_iff, and_comm]
  refine and_congr_right fun _ => ?_
  split
  · rename_i digits
    have hplus : digits? ('+' :: digits) = none := rfl
    simp [hplus]
  · rename_i hplus
    refine ⟨.inl, fun h => h.resolve_right ?_⟩
    rintro ⟨digits, rfl, -⟩
    exact hplus digits rfl

theorem integer64?_eq_some_iff {s : List Char} {i : Int} :
    integer64? s = some i ↔ Integer64 s i := by
  constructor
  · intro h
    by_cases hminus : s.head? = some '-'
    · obtain ⟨digits, rfl⟩ := List.head?_eq_some_iff.mp hminus
      rw [integer64?_minus] at h
      obtain ⟨n, hn, rfl⟩ := Option.map_eq_some_iff.mp h
      obtain ⟨hdigits, hfits⟩ := Option.filter_eq_some_iff.mp hn
      obtain ⟨hne, hall, rfl⟩ := digits?_eq_some_iff.mp hdigits
      exact .minus hne hall (of_decide_eq_true hfits)
    · rw [integer64?_of_head_ne hminus] at h
      obtain ⟨n, hn, rfl⟩ := Option.map_eq_some_iff.mp h
      obtain ⟨hfits, hdigits | ⟨digits, rfl, hdigits⟩⟩ := natural?_eq_some_iff.mp hn
      · obtain ⟨hne, hall, rfl⟩ := digits?_eq_some_iff.mp hdigits
        exact .unsigned hne hall hfits
      · obtain ⟨hne, hall, rfl⟩ := digits?_eq_some_iff.mp hdigits
        exact .plus hne hall hfits
  · intro h
    cases h with
    | unsigned hne hdigits hfits =>
      have hhead : s.head? ≠ some '-' := by
        intro hminus
        obtain ⟨digits, rfl⟩ := List.head?_eq_some_iff.mp hminus
        cases hdigits
      have hsome := digits?_eq_some_iff.mpr ⟨hne, hdigits, rfl⟩
      rw [integer64?_of_head_ne hhead, natural?_eq_some_iff.mpr ⟨hfits, .inl hsome⟩]
      rfl
    | @plus digits hne hdigits hfits =>
      have hsome := digits?_eq_some_iff.mpr ⟨hne, hdigits, rfl⟩
      have hhead : ('+' :: digits).head? ≠ some '-' := by simp
      rw [integer64?_of_head_ne hhead, natural?_eq_some_iff.mpr ⟨hfits, .inr ⟨_, rfl, hsome⟩⟩]
      rfl
    | minus hne hdigits hfits =>
      have hsome := digits?_eq_some_iff.mpr ⟨hne, hdigits, rfl⟩
      rw [integer64?_minus, hsome, Option.filter_some, if_pos (decide_eq_true hfits),
        Option.map_some]

lemma Integer64.bounds {s : List Char} {i : Int} (h : Integer64 s i) :
    -2 ^ 63 ≤ i ∧ i < 2 ^ 63 := by
  cases h <;> omega

end Text

lemma Number.integer?_eq_some_iff {n : Number} {i : Int} :
    n.integer? = some i ↔ n = .int i ∧ -2 ^ 63 ≤ i ∧ i < 2 ^ 63 := by
  cases n with
  | real x => exact ⟨fun h => (Option.some_ne_none i h.symm).elim, fun h => nomatch h.1⟩
  | int j =>
    have hrange : (-(Nat.pow 2 63 : Int) ≤ j && j < Nat.pow 2 63) = true ↔
        -2 ^ 63 ≤ j ∧ j < 2 ^ 63 := by
      rw [Bool.and_eq_true, decide_eq_true_iff, decide_eq_true_iff]
      rfl
    rw [integer?]
    by_cases h : -2 ^ 63 ≤ j ∧ j < 2 ^ 63
    · rw [if_pos (hrange.mpr h)]
      constructor
      · rintro ⟨⟩
        exact ⟨rfl, h⟩
      · rintro ⟨⟨⟩, -⟩
        rfl
    · rw [if_neg (hrange.not.mpr h)]
      constructor
      · intro hnone
        cases hnone
      · rintro ⟨⟨⟩, hbounds⟩
        exact absurd hbounds h

/-- A value has the number `i`: it is this number, or a text that is one but for blanks around. -/
inductive Json.Selects : Json → Int → Prop
  | number (i : Int) : Selects (.num (.int i)) i
  | text (s : String) (i : Int) (h : Text.Integer64 (Text.trim s.toList) i) : Selects (.str s) i

/-- An input is the branch with the number `i`: it does not hold null, and its name is the prefix of
the switch with this number behind it. -/
structure Switch.Branch (switch : Switch) (entry : String × Workflow.Input) (i : Int) : Prop where
  held : entry.2 ≠ .literal .null
  numbered : ∃ digits, entry.1.toList = switch.stem.toList ++ digits ∧ Text.Integer64 digits i

namespace Tracing

open Workflow

/-- The control of a switch has the number `i`, as a literal or by position. -/
def Selected (library : NodeLibrary) (switch : Switch) (node : Node) (i : Int) : Prop :=
  ∃ value, ownValue? library node switch.control = some value ∧ value.Selects i

/-- No number belongs to two inputs that are branches. -/
def DistinctBranches (switch : Switch) (node : Node) : Prop :=
  node.inputs.Pairwise fun a b => ∀ i, switch.Branch a i → ¬ switch.Branch b i

/-- The step that an input itself leads to. -/
def Step.ofInput (input : Input) (depth : Nat) : Step :=
  match input with
  | .link target => .follow target (depth + 1)
  | .literal value => .answer (some value)

variable {library : NodeLibrary} {switch : Switch} {node : Node} {entry : String × Input} {i : Int}

lemma selection?_num (n : Number) : selection? (.num n) = n.integer? := by
  have hinteger : (Json.num n).integer? = n.integer? := rfl
  rw [selection?, hinteger]
  cases n.integer? <;> rfl

lemma selection?_eq_some_iff {value : Json} :
    selection? value = some i ↔ value.Selects i ∧ -2 ^ 63 ≤ i ∧ i < 2 ^ 63 := by
  cases value with
  | num n =>
    rw [selection?_num, Number.integer?_eq_some_iff]
    refine and_congr_left fun _ => ⟨?_, ?_⟩
    · rintro rfl
      exact .number i
    · rintro ⟨⟩
      rfl
  | str s =>
    have htext : selection? (.str s) = Text.integer64? (Text.trim s.toList) := rfl
    rw [htext, Text.integer64?_eq_some_iff]
    constructor
    · intro h
      exact ⟨.text s i h, h.bounds⟩
    · rintro ⟨⟨⟩, -⟩
      assumption
  | _ =>
    constructor
    · intro h
      cases h
    · rintro ⟨⟨⟩, -⟩

/-- The number of the branch that an input is, if it is one. -/
def branchOf? (switch : Switch) (entry : String × Input) : Option Int :=
  match entry.2 with
  | .literal .null => none
  | _ => branchNumber? switch.stem entry.1

lemma branchOf?_eq_some_iff : branchOf? switch entry = some i ↔ switch.Branch entry i := by
  have hnumber : branchNumber? switch.stem entry.1 = some i ↔
      ∃ digits, entry.1.toList = switch.stem.toList ++ digits ∧ Text.Integer64 digits i := by
    simp only [branchNumber?, Option.bind_eq_some_iff, Text.after?_eq_some_iff,
      Text.integer64?_eq_some_iff]
  unfold branchOf?
  split
  · rename_i hnull
    exact ⟨fun h => (Option.some_ne_none i h.symm).elim, fun h => absurd hnull h.held⟩
  · rename_i hheld
    exact hnumber.trans ⟨fun h => ⟨hheld, h⟩, fun h => h.numbered⟩

instance : Decidable (switch.Branch entry i) := decidable_of_iff _ branchOf?_eq_some_iff

instance : Decidable (DistinctBranches switch node) :=
  decidable_of_iff (node.inputs.Pairwise fun a b =>
    branchOf? switch a = none ∨ branchOf? switch a ≠ branchOf? switch b) <| by
    refine List.Pairwise.iff fun a b => ?_
    simp only [← branchOf?_eq_some_iff]
    cases branchOf? switch a with
    | none => simp
    | some i => simp [eq_comm]

lemma branches_eq (switch : Switch) (node : Node) : branches switch.stem node =
    (node.inputs.filterMap fun entry =>
      (branchOf? switch entry).map fun i => (i, entry.1)).mergeSort fun a b => a.1 ≤ b.1 := by
  refine congrArg (List.mergeSort · _) (List.filterMap_congr fun entry _ => ?_)
  obtain ⟨name, input⟩ := entry
  cases input with
  | link target => rfl
  | literal value => cases value <;> rfl

/-- The branches of a switch with the names of their inputs. -/
lemma mem_branches_iff {name : String} : (i, name) ∈ branches switch.stem node ↔
    ∃ input, (name, input) ∈ node.inputs ∧ switch.Branch (name, input) i := by
  rw [branches_eq, List.mem_mergeSort, List.mem_filterMap]
  simp only [Option.map_eq_some_iff, branchOf?_eq_some_iff]
  constructor
  · rintro ⟨⟨name', input⟩, hmem, j, hbranch, heq⟩
    cases heq
    exact ⟨input, hmem, hbranch⟩
  · rintro ⟨input, hmem, hbranch⟩
    exact ⟨(name, input), hmem, i, hbranch, rfl⟩

/-- The branch that comes first has the smallest number. -/
lemma exists_head?_branches {stem : String} {branch : Int × String}
    (h : branch ∈ branches stem node) : ∃ first ∈ branches stem node,
      (branches stem node).head? = some first ∧
        ∀ other ∈ branches stem node, first.1 ≤ other.1 := by
  have hsorted : (branches stem node).Pairwise fun a b => decide (a.1 ≤ b.1) = true :=
    List.pairwise_mergeSort (by grind) (by grind) _
  cases hlist : branches stem node with
  | nil =>
    rw [hlist] at h
    cases h
  | cons first rest =>
    rw [hlist, List.pairwise_cons] at hsorted
    refine ⟨first, List.mem_cons_self, rfl, fun other hother => ?_⟩
    rcases List.mem_cons.mp hother with rfl | hrest
    · exact Int.le_refl _
    · exact of_decide_eq_true (hsorted.1 other hrest)

/-- Two inputs that are branches of one number are one input. -/
lemma DistinctBranches.eq_of_branch (h : DistinctBranches switch node) {a b : String × Input}
    (ha : a ∈ node.inputs) (hb : b ∈ node.inputs) (hai : switch.Branch a i)
    (hbi : switch.Branch b i) : a = b := by
  have hsymm : Std.Symm fun a b : String × Input => ∀ i, switch.Branch a i → ¬ switch.Branch b i :=
    ⟨fun a b hab i hbi hai => hab i hai hbi⟩
  by_contra hne
  exact List.Pairwise.forall h ha hb hne i hai hbi

section Branches

variable (hdistinct : DistinctBranches switch node) (hentry : entry ∈ node.inputs)
  (hbranch : switch.Branch entry i) {control : Option Json}

include hdistinct hentry hbranch

lemma branch?_of_selected (hselected : control.bind selection? = some i) :
    branch? switch node control = some entry.1 := by
  have hmem : (i, entry.1) ∈ branches switch.stem node := mem_branches_iff.mpr ⟨_, hentry, hbranch⟩
  have hsome : ((branches switch.stem node).find? (·.1 == i)).isSome = true :=
    List.find?_isSome.mpr ⟨_, hmem, beq_self_eq_true i⟩
  obtain ⟨⟨j, name⟩, hfind⟩ := Option.isSome_iff_exists.mp hsome
  obtain rfl : j = i := by simpa using List.find?_some hfind
  obtain ⟨input, hinput, hother⟩ := mem_branches_iff.mp (List.mem_of_find?_eq_some hfind)
  have hsame := hdistinct.eq_of_branch hinput hentry hother hbranch
  simp only [branch?, hselected, Option.bind_some, hfind]
  exact congrArg some (congrArg Prod.fst hsame)

/-- If the control has no number of a branch, the smallest number counts. -/
lemma branch?_of_unselected
    (hother : ∀ j, control.bind selection? = some j →
      ∀ other ∈ node.inputs, ¬ switch.Branch other j)
    (hfirst : ∀ other ∈ node.inputs, ∀ j, switch.Branch other j → i ≤ j) :
    branch? switch node control = some entry.1 := by
  have hmem : (i, entry.1) ∈ branches switch.stem node := mem_branches_iff.mpr ⟨_, hentry, hbranch⟩
  have hnone : ((control.bind selection?).bind fun j =>
      (branches switch.stem node).find? (·.1 == j)) = none := by
    refine Option.bind_eq_none_iff.mpr fun j hj => List.find?_eq_none.mpr ?_
    rintro ⟨k, name⟩ hk heq
    obtain rfl : k = j := by simpa using heq
    obtain ⟨input, hinput, hbranch'⟩ := mem_branches_iff.mp hk
    exact hother k hj _ hinput hbranch'
  have hfallback : branch? switch node control =
      (branches switch.stem node).head?.map (·.2) := by
    rw [branch?, hnone]
    rfl
  obtain ⟨⟨j, name⟩, hfirstMem, hhead, hleast⟩ := exists_head?_branches hmem
  obtain ⟨input, hinput, hbranch'⟩ := mem_branches_iff.mp hfirstMem
  obtain rfl : i = j := Int.le_antisymm (hfirst _ hinput j hbranch') (hleast _ hmem)
  have hsame := hdistinct.eq_of_branch hinput hentry hbranch' hbranch
  rw [hfallback, hhead, ← hsame]
  rfl

end Branches

/-- Of branches there is one with the smallest number. -/
lemma exists_first_branch (h : ∃ entry ∈ node.inputs, ∃ i, switch.Branch entry i) :
    ∃ entry ∈ node.inputs, ∃ i, switch.Branch entry i ∧
      ∀ other ∈ node.inputs, ∀ j, switch.Branch other j → i ≤ j := by
  obtain ⟨⟨name, input⟩, hinput, i, hbranch⟩ := h
  obtain ⟨⟨j, first⟩, hfirst, -, hleast⟩ :=
    exists_head?_branches (mem_branches_iff.mpr ⟨input, hinput, hbranch⟩)
  obtain ⟨found, hfound, hbranch'⟩ := mem_branches_iff.mp hfirst
  exact ⟨_, hfound, j, hbranch', fun other hother k hk =>
    hleast _ (mem_branches_iff.mpr ⟨other.2, hother, hk⟩)⟩

lemma branch?_of_no_branch (hnone : ∀ entry ∈ node.inputs, ∀ i, ¬ switch.Branch entry i)
    (control : Option Json) : branch? switch node control = none := by
  have hempty : branches switch.stem node = [] := by
    refine List.eq_nil_iff_forall_not_mem.mpr ?_
    rintro ⟨i, name⟩ hmem
    obtain ⟨input, hinput, hbranch⟩ := mem_branches_iff.mp hmem
    exact hnone _ hinput i hbranch
  unfold branch?
  rw [hempty]
  cases control.bind selection? <;> rfl

/-- A node that runs is a switch for the parameter: its description has no rule for this, nothing is
linked to its control, and no two of its branches have one number. Its literals share their names
with no other input, as in a saved workflow. -/
structure SwitchesFor (search : Search) (param : Param) (node : Node) (switch : Switch) : Prop where
  active : node.mode = .active
  described : ∃ d, search.library.get? node.classType = some d ∧ d.rule? param = none ∧
    d.switch = some switch
  apart : node.LiteralsApart
  unlinked : node.link? switch.control = none
  distinct : DistinctBranches switch node

section Through

variable {search : Search} {param : Param} (h : SwitchesFor search param node switch)

include h

lemma SwitchesFor.planFor_eq (slot : Option UInt32) (depth : Nat) :
    planFor search param node slot depth =
      .single (.throughSwitch search switch node depth) := by
  obtain ⟨d, hd, hrule, hswitch⟩ := h.described
  have hskip : node.mode.isSkipped = false := by rw [h.active]; rfl
  rw [planFor_unruled hskip hd hrule, unruledPlan, hswitch]

lemma SwitchesFor.bind_control?_eq_some_iff {depth : Nat} :
    (control? search node switch.control depth).bind selection? = some i ↔
      Selected search.library switch node i ∧ -2 ^ 63 ≤ i ∧ i < 2 ^ 63 := by
  rw [control?, h.unlinked, Option.bind_eq_some_iff]
  simp only [selection?_eq_some_iff]
  exact ⟨fun ⟨value, hown, hselects, hbounds⟩ => ⟨⟨value, hown, hselects⟩, hbounds⟩,
    fun ⟨⟨value, hown, hselects⟩, hbounds⟩ => ⟨value, hown, hselects, hbounds⟩⟩

/-- What is found under the name of a branch is the branch: another input of the name would be a
branch of the same number. -/
lemma SwitchesFor.toInput_eq (hentry : entry ∈ node.inputs) (hbranch : switch.Branch entry i)
    (depth : Nat) : Step.toInput node entry.1 depth = .ofInput entry.2 depth := by
  obtain ⟨name, input⟩ := entry
  obtain ⟨found, hfound⟩ := Node.exists_input?_of_mem hentry
  have hmem := Node.mem_inputs_of_input? hfound
  obtain rfl : found = input := by
    rcases h.apart.eq_or_linked hmem hentry with hsame | hlinked
    · exact hsame
    · have hheld : found ≠ .literal .null := by
        rintro rfl
        exact Bool.false_ne_true hlinked.1
      have hfoundBranch : switch.Branch (name, found) i := ⟨hheld, hbranch.numbered⟩
      exact congrArg Prod.snd (h.distinct.eq_of_branch hmem hentry hfoundBranch hbranch)
  rw [Step.toInput, hfound]
  cases found with
  | link target => rfl
  | literal value =>
    have hliteral : node.literal? name = some value :=
      h.apart.literal?_eq_some_iff.mpr
        ⟨hmem, fun hnull => hbranch.held (congrArg Input.literal hnull)⟩
    exact congrArg Step.answer hliteral

lemma SwitchesFor.throughSwitch_of_branch? {depth : Nat} (hentry : entry ∈ node.inputs)
    (hbranch : switch.Branch entry i)
    (hthrough : branch? switch node (control? search node switch.control depth) = some entry.1) :
    Step.throughSwitch search switch node depth = .ofInput entry.2 depth := by
  rw [Step.throughSwitch, hthrough]
  exact h.toInput_eq hentry hbranch depth

lemma SwitchesFor.throughSwitch_of_selected (hentry : entry ∈ node.inputs)
    (hbranch : switch.Branch entry i) (hselected : Selected search.library switch node i)
    (depth : Nat) : Step.throughSwitch search switch node depth = .ofInput entry.2 depth := by
  obtain ⟨digits, -, hdigits⟩ := hbranch.numbered
  exact h.throughSwitch_of_branch? hentry hbranch (branch?_of_selected h.distinct hentry hbranch
    (h.bind_control?_eq_some_iff.mpr ⟨hselected, hdigits.bounds⟩))

lemma SwitchesFor.throughSwitch_of_unselected (hentry : entry ∈ node.inputs)
    (hbranch : switch.Branch entry i)
    (hother : ∀ other ∈ node.inputs, ∀ j, switch.Branch other j →
      ¬ Selected search.library switch node j)
    (hfirst : ∀ other ∈ node.inputs, ∀ j, switch.Branch other j → i ≤ j) (depth : Nat) :
    Step.throughSwitch search switch node depth = .ofInput entry.2 depth := by
  refine h.throughSwitch_of_branch? hentry hbranch
    (branch?_of_unselected h.distinct hentry hbranch ?_ hfirst)
  intro j hj other hmem hbranch'
  exact hother other hmem j hbranch' (h.bind_control?_eq_some_iff.mp hj).1

omit h in
lemma throughSwitch_of_no_branch (hnone : ∀ entry ∈ node.inputs, ∀ i, ¬ switch.Branch entry i)
    (depth : Nat) : Step.throughSwitch search switch node depth = .nothing := by
  rw [Step.throughSwitch, branch?_of_no_branch hnone]

section Order

variable {inputs : List (String × Input)} (hperm : inputs.Perm node.inputs)

include hperm

lemma SwitchesFor.of_perm : SwitchesFor search param { node with inputs := inputs } switch where
  active := h.active
  described := h.described
  apart := h.apart.of_perm hperm
  unlinked := by
    have hnone := h.apart.link?_eq_none_iff.mp h.unlinked
    have hapart : ({ node with inputs := inputs } : Node).LiteralsApart := h.apart.of_perm hperm
    exact hapart.link?_eq_none_iff.mpr fun target hmem => hnone target (hperm.mem_iff.mp hmem)
  distinct := (hperm.pairwise_iff fun hab i hb ha => hab i ha hb).mpr h.distinct

lemma SwitchesFor.literal?_of_perm (name : String) :
    ({ node with inputs := inputs } : Node).literal? name = node.literal? name := by
  refine Option.ext fun value => ?_
  rw [(h.of_perm hperm).apart.literal?_eq_some_iff, h.apart.literal?_eq_some_iff]
  exact and_congr_left fun _ => hperm.mem_iff

lemma SwitchesFor.plainValue?_of_perm :
    plainValue? { node with inputs := inputs } = plainValue? node := by
  have hliteral : ({ node with inputs := inputs } : Node).literal? = node.literal? :=
    funext (h.literal?_of_perm hperm)
  rw [plainValue?, plainValue?, hliteral]

lemma SwitchesFor.selected_of_perm :
    Selected search.library switch { node with inputs := inputs } i ↔
      Selected search.library switch node i := by
  have hown : ownValue? search.library { node with inputs := inputs } switch.control =
      ownValue? search.library node switch.control := by
    rw [ownValue?, h.literal?_of_perm hperm]
    rfl
  rw [Selected, hown, Selected]

/-- Which step is taken does not depend on the order of the inputs. -/
lemma SwitchesFor.throughSwitch_of_perm (depth : Nat) :
    Step.throughSwitch search switch { node with inputs := inputs } depth =
      Step.throughSwitch search switch node depth := by
  have h' := h.of_perm hperm
  by_cases hany : ∃ entry ∈ node.inputs, ∃ i, switch.Branch entry i
  · by_cases hselected : ∃ entry ∈ node.inputs, ∃ i, switch.Branch entry i ∧
        Selected search.library switch node i
    · obtain ⟨entry, hentry, i, hbranch, hi⟩ := hselected
      rw [h.throughSwitch_of_selected hentry hbranch hi,
        h'.throughSwitch_of_selected (hperm.mem_iff.mpr hentry) hbranch
          ((h.selected_of_perm hperm).mpr hi)]
    · have hother : ∀ other ∈ node.inputs, ∀ j, switch.Branch other j →
          ¬ Selected search.library switch node j :=
        fun other hmem j hbranch hj => hselected ⟨other, hmem, j, hbranch, hj⟩
      obtain ⟨entry, hentry, i, hbranch, hfirst⟩ := exists_first_branch hany
      rw [h.throughSwitch_of_unselected hentry hbranch hother hfirst,
        h'.throughSwitch_of_unselected (hperm.mem_iff.mpr hentry) hbranch
          (fun other hmem j hj => (h.selected_of_perm hperm).not.mpr
            (hother other (hperm.mem_iff.mp hmem) j hj))
          (fun other hmem => hfirst other (hperm.mem_iff.mp hmem))]
  · have hnone : ∀ entry ∈ node.inputs, ∀ i, ¬ switch.Branch entry i :=
      fun entry hmem i hbranch => hany ⟨entry, hmem, i, hbranch⟩
    rw [throughSwitch_of_no_branch hnone, throughSwitch_of_no_branch
      fun entry hmem => hnone entry (hperm.mem_iff.mp hmem)]

end Order

end Through

/-- A node that runs is a switch for the parameter and has its control behind the link `target`. -/
structure Search.ReadsControl (search : Search) (param : Param) (reader : Node) (target : Link) :
    Prop where
  runs : reader.mode.isSkipped = false
  described : ∃ d switch, search.library.get? reader.classType = some d ∧ d.rule? param = none ∧
    d.switch = some switch ∧ reader.link? switch.control = some target

/-- A search from `start` may come to a switch whose control is looked for behind the node: this has
no plain value, so its first link counts. -/
structure Search.ReadsThrough (search : Search) (param : Param) (start : String) (node : Node) :
    Prop where
  valueless : plainValue? node = none
  reader : ∃ id reader target, search.graph.Upstream start id ∧
    search.graph.node? id = some reader ∧ search.ReadsControl param reader target ∧
    search.graph.Consults target.source node

/-- `other` is the graph with the inputs of the node under an id in another order. -/
structure ReorderedAt (graph other : Graph) (id : String) (node : Node)
    (inputs : List (String × Input)) : Prop where
  perm : inputs.Perm node.inputs
  found : graph.node? id = some node
  reordered : other.node? id = some { node with inputs := inputs }
  elsewhere : ∀ source, source ≠ id → graph.node? source = other.node? source

lemma reorderedAt_ofNodes {inputs : List (String × Input)} (hperm : inputs.Perm node.inputs)
    (rest : List Node) :
    ReorderedAt (.ofNodes (node :: rest)) (.ofNodes ({ node with inputs := inputs } :: rest))
      node.id node inputs where
  perm := hperm
  found := Graph.node?_ofNodes_cons node rest
  reordered := Graph.node?_ofNodes_cons { node with inputs := inputs } rest
  elsewhere := by
    intro source hne
    have hne' : ({ node with inputs := inputs } : Node).id ≠ source := hne.symm
    rw [Graph.node?_ofNodes_cons_of_ne rest hne.symm, Graph.node?_ofNodes_cons_of_ne rest hne']

section Reordered

variable {search : Search} {param : Param} {id : String} {inputs : List (String × Input)}
  {other : Graph}

/-- A control that is not looked for behind the switch is found as before: only the switch may have
another first link. -/
lemma SwitchesFor.control?_reordered (h : SwitchesFor search param node switch)
    (ho : ReorderedAt search.graph other id node inputs) {reader : Node} {name : String}
    (hapart : ({ node with inputs := inputs } : Node).firstLink? = node.firstLink? ∨
      ∀ target, reader.link? name = some target → plainValue? node = none →
        ¬ search.graph.Consults target.source node) (depth : Nat) :
    control? { search with graph := other } reader name depth =
      control? search reader name depth := by
  unfold control?
  cases hl : reader.link? name with
  | none => rfl
  | some target =>
    refine plainValueBehind?_congr (fun source _ hnone => ?_) (fun asked ha => ?_) _
    · have hne : source ≠ id := by
        rintro rfl
        cases ho.found.symm.trans hnone
      rw [← ho.elsewhere source hne, hnone]
    by_cases hid : asked.id = id
    · obtain rfl : asked = node :=
        Option.some.inj (ha.node?_eq.symm.trans (hid.symm ▸ ho.found))
      refine ⟨_, hid.symm ▸ ho.reordered, h.plainValue?_of_perm ho.perm, fun hvalue => ?_⟩
      exact hapart.resolve_right fun hnot => hnot target hl hvalue ha
    · exact ⟨asked, (ho.elsewhere _ hid).symm.trans ha.node?_eq, rfl, fun _ => rfl⟩

/-- The plan at the switch itself; its own control is not behind a link. -/
lemma SwitchesFor.planFor_reordered (h : SwitchesFor search param node switch)
    (hperm : inputs.Perm node.inputs) (slot : Option UInt32) (depth : Nat) :
    planFor { search with graph := other } param { node with inputs := inputs } slot depth =
      planFor search param node slot depth := by
  have h' := h.of_perm hperm
  have hother : SwitchesFor { search with graph := other } param { node with inputs := inputs }
      switch := ⟨h'.active, h'.described, h'.apart, h'.unlinked, h'.distinct⟩
  have hcontrol : control? { search with graph := other } { node with inputs := inputs }
      switch.control depth =
        control? search { node with inputs := inputs } switch.control depth := by
    rw [control?, control?, h'.unlinked]
  have hstep : Step.throughSwitch { search with graph := other } switch
      { node with inputs := inputs } depth = Step.throughSwitch search switch node depth := by
    rw [← h.throughSwitch_of_perm hperm, Step.throughSwitch, Step.throughSwitch, hcontrol]
  rw [hother.planFor_eq, h.planFor_eq, hstep]

/-- With the inputs of a switch in another order a search makes the same plans, unless it may come
to a switch whose control is looked for behind the first link of this one. -/
lemma SwitchesFor.agreesOn_reordered (h : SwitchesFor search param node switch)
    (ho : ReorderedAt search.graph other id node inputs) {start : String}
    (hapart : ({ node with inputs := inputs } : Node).firstLink? = node.firstLink? ∨
      ¬ search.ReadsThrough param start node) :
    search.AgreesOn { search with graph := other } param (search.graph.Upstream start) where
  maxDepth_eq := rfl
  closed := fun _ hid _ hnode _ ht => hid.source hnode ht
  plan?_eq := by
    intro source hup slot depth
    by_cases hid : source = id
    · rw [hid, Search.plan?, Search.plan?, ho.found, ho.reordered, Option.map_some,
        Option.map_some, h.planFor_reordered ho.perm]
    · rw [Search.plan?, Search.plan?, ← ho.elsewhere source hid]
      cases hnode : search.graph.node? source with
      | none => rfl
      | some reader =>
        refine congrArg some (planFor_congr rfl rfl fun hrun d hd hrule switch' hs => ?_)
        refine (h.control?_reordered ho ?_ depth).symm
        refine hapart.imp_right fun hnot target hl hvalue hc => hnot ⟨hvalue, ?_⟩
        exact ⟨source, reader, target, hup, hnode, ⟨hrun, d, switch', hd, hrule, hs, hl⟩, hc⟩

/-- No switch that a search from this one may come to reads its control behind it, if none of its
links leads back to it. -/
lemma SwitchesFor.not_readsThrough (h : SwitchesFor search param node switch)
    (hn : search.graph.node? id = some node)
    (hback : ∀ target ∈ node.targets, ¬ search.graph.Upstream target.source id) :
    ¬ search.ReadsThrough param id node := by
  rintro ⟨-, elsewhere, reader, target, hup, hreader, hreads, hc⟩
  have hid : search.graph.Upstream target.source id := Graph.id_of_node? hn ▸ hc.upstream
  obtain ⟨d, switch', hd, -, hs, hl⟩ := hreads.described
  have hsource := Node.mem_targets_of_link? hl
  rcases Relation.ReflTransGen.cases_head hup with rfl | ⟨-, ⟨first, hf, next, hnext, rfl⟩, hrest⟩
  · cases hn.symm.trans hreader
    obtain ⟨d', hd', -, hs'⟩ := h.described
    cases hd.symm.trans hd'
    cases hs.symm.trans hs'
    cases h.unlinked.symm.trans hl
  · cases hn.symm.trans hf
    exact hback next hnext ((Graph.Upstream.source hrest hreader hsource).trans hid)

end Reordered

/-- A switch whose control is a text, with four branches and two other inputs that begin like
them. -/
def gappedSwitch : ApiNode where
  classType := "ImpactSwitch"
  inputs := [
    ("input7", .arr [.str "7", .num (.int 0)]),
    ("select", .str " -2 "),
    ("input+3", .str "third"),
    ("input4", .null),
    ("input_mode", .str "first"),
    ("input-2", .arr [.str "8", .num (.int 1)]),
    ("input0", .str "zeroth")]

/-- The nodes behind the switch are not there. -/
def gappedSearch : Search := .ofSettings (.ofNodes [gappedSwitch.node "1"]) .builtin {}

/-- The switch with its inputs the other way round, so that another link is the first one. -/
def gappedReversed : Node :=
  { gappedSwitch.node "1" with inputs := (gappedSwitch.node "1").inputs.reverse }

lemma switchesFor_gapped (hdistinct : DistinctBranches ⟨"select", "input"⟩
    (gappedSwitch.node "1")) :
    SwitchesFor gappedSearch .prompt (gappedSwitch.node "1") ⟨"select", "input"⟩ where
  active := rfl
  described := ⟨_, NodeLibrary.get?_builtin_impactSwitch, rfl, rfl⟩
  apart := (Node.IsSaved.api gappedSwitch "1" (by decide)).literalsApart
  unlinked := rfl
  distinct := hdistinct

lemma not_upstream_gapped :
    ∀ target ∈ (gappedSwitch.node "1").targets,
      ¬ gappedSearch.graph.Upstream target.source "1" := by
  have hnone : ∀ target ∈ (gappedSwitch.node "1").targets,
      target.source ≠ "1" ∧ (gappedSearch.graph.node? target.source).isNone = true := by
    decide +kernel
  intro target ht hup
  obtain ⟨hne, habsent⟩ := hnone target ht
  rcases Relation.ReflTransGen.cases_head hup with heq | ⟨-, ⟨node, hn, -⟩, -⟩
  · exact hne heq
  · rw [hn] at habsent
    cases habsent

/-- A switch without a control, before another switch and a number. -/
def outerSwitch : ApiNode where
  classType := "ImpactSwitch"
  inputs := [
    ("input1", .arr [.str "2", .num (.int 0)]),
    ("input2", .arr [.str "5", .num (.int 0)])]

/-- The other switch, which has its control behind the first one. -/
def innerSwitch : ApiNode where
  classType := "ImpactSwitch"
  inputs := [
    ("select", .arr [.str "1", .num (.int 0)]),
    ("input1", .arr [.str "3", .num (.int 0)]),
    ("input2", .arr [.str "4", .num (.int 0)])]

def encoderSaying (text : String) : ApiNode where
  classType := "CLIPTextEncode"
  inputs := [("text", .str text)]

def numberTwo : ApiNode where
  classType := "PrimitiveInt"
  inputs := [("value", .num (.int 2))]

/-- A search in the graph of two switches, each of which has the other behind a link. -/
def crossedSearch (outer : Node) : Search :=
  .ofSettings (.ofNodes [outer, innerSwitch.node "2", (encoderSaying "a cat").node "3",
    (encoderSaying "a dog").node "4", numberTwo.node "5"]) .builtin {}

section Crossed

variable {outer : Node}

lemma distinctBranches_outer : DistinctBranches ⟨"select", "input"⟩ (outerSwitch.node "1") := by
  decide +kernel

lemma switchesFor_outer :
    SwitchesFor (crossedSearch outer) .prompt (outerSwitch.node "1") ⟨"select", "input"⟩ where
  active := rfl
  described := ⟨_, NodeLibrary.get?_builtin_impactSwitch, rfl, rfl⟩
  apart := (Node.IsSaved.api outerSwitch "1" (by decide)).literalsApart
  unlinked := rfl
  distinct := distinctBranches_outer

/-- In whatever order its inputs are, the switch without a control leads to the other one. -/
lemma planFor_outer {inputs : List (String × Input)}
    (hperm : inputs.Perm (outerSwitch.node "1").inputs) :
    planFor (crossedSearch outer) .prompt { outerSwitch.node "1" with inputs := inputs } none 0 =
      .single (.follow ⟨"2", 0⟩ 1) := by
  have hbranch : (⟨"select", "input"⟩ : Switch).Branch ("input1", .link ⟨"2", 0⟩) 1 := by
    decide +kernel
  have hfirst : ∀ entry ∈ (outerSwitch.node "1").inputs,
      ∀ i ∈ branchOf? ⟨"select", "input"⟩ entry, 1 ≤ i := by decide +kernel
  have hunselected : ∀ i, ¬ Selected (crossedSearch outer).library ⟨"select", "input"⟩
      (outerSwitch.node "1") i := by
    rintro i ⟨value, hvalue, -⟩
    have hnone : ownValue? .builtin (outerSwitch.node "1") "select" = none := by
      have hliteral : (outerSwitch.node "1").literal? "select" = none := rfl
      have hget : NodeLibrary.builtin.get? (outerSwitch.node "1").classType = _ :=
        NodeLibrary.get?_builtin_impactSwitch
      rw [ownValue?, hliteral, positional?, hget]
      rfl
    exact Option.some_ne_none value (hvalue.symm.trans hnone)
  rw [(switchesFor_outer.of_perm hperm).planFor_eq, switchesFor_outer.throughSwitch_of_perm hperm,
    switchesFor_outer.throughSwitch_of_unselected List.mem_cons_self hbranch
      (fun _ _ i _ => hunselected i)
      (fun entry he i hi => hfirst entry he i (branchOf?_eq_some_iff.mpr hi))]
  rfl

lemma planFor_inner {name id : String}
    (hbranch : branch? ⟨"select", "input"⟩ (innerSwitch.node "2")
      (control? (crossedSearch outer) (innerSwitch.node "2") "select" 1) = some name)
    (hlink : (innerSwitch.node "2").input? name = some (.link ⟨id, 0⟩)) :
    planFor (crossedSearch outer) .prompt (innerSwitch.node "2") (some 0) 1 =
      .single (.follow ⟨id, 0⟩ 2) := by
  have hget : (crossedSearch outer).library.get? (innerSwitch.node "2").classType =
      some (Catalogue.switchOf "ImpactSwitch" ["select", "sel_mode"] "select" "input") :=
    NodeLibrary.get?_builtin_impactSwitch
  have hactive : (innerSwitch.node "2").mode.isSkipped = false := rfl
  rw [planFor_unruled hactive hget rfl]
  change Plan.single (Step.throughSwitch _ ⟨"select", "input"⟩ _ _) = _
  rw [Step.throughSwitch, hbranch]
  simp only [Step.toInput, hlink]

/-- The search goes through both switches to the encoder that the inner one leads to. -/
lemma value_resolve_crossed {inputs : List (String × Input)} {name id text : String}
    (hperm : inputs.Perm (outerSwitch.node "1").inputs)
    (houter : outer = { outerSwitch.node "1" with inputs := inputs })
    (hbranch : branch? ⟨"select", "input"⟩ (innerSwitch.node "2")
      (control? (crossedSearch outer) (innerSwitch.node "2") "select" 1) = some name)
    (hlink : (innerSwitch.node "2").input? name = some (.link ⟨id, 0⟩))
    (hid : id ≠ "2" ∧ id ≠ "1")
    (hn : (crossedSearch outer).graph.node? id = some ((encoderSaying text).node id)) :
    (((crossedSearch outer).resolve "1" .prompt).run .empty).1 = some (.str text) := by
  subst houter
  have hencoder : planFor (crossedSearch { outerSwitch.node "1" with inputs := inputs }) .prompt
      ((encoderSaying text).node id) (some 0) 2 = .single (.answer (some (.str text))) := by
    have hget : (crossedSearch { outerSwitch.node "1" with inputs := inputs }).library.get?
        ((encoderSaying text).node id).classType =
          some (Catalogue.textEncoder "CLIPTextEncode" ["text"] "text") :=
      NodeLibrary.get?_builtin_textEncoder
    have hactive : ((encoderSaying text).node id).mode.isSkipped = false := rfl
    have hrule : (Catalogue.textEncoder "CLIPTextEncode" ["text"] "text").rule? .prompt =
        some (.widget "text" false) := rfl
    rw [planFor_ruled hactive hget hrule]
    rfl
  have hdepth : 2 ≤ (crossedSearch { outerSwitch.node "1" with inputs := inputs }).maxDepth := by
    change 2 ≤ 64
    decide
  exact Search.value_resolve_of_two_links _ _ hdepth (by decide) hid rfl (planFor_outer hperm) rfl
    (planFor_inner hbranch hlink) hn hencoder

end Crossed

lemma distinctBranches_inner : DistinctBranches ⟨"select", "input"⟩ (innerSwitch.node "2") := by
  decide +kernel

lemma value_resolve_crossed_cat :
    (((crossedSearch (outerSwitch.node "1")).resolve "1" .prompt).run .empty).1 =
      some (.str "a cat") := by
  have hlink : (innerSwitch.node "2").input? "input1" = some (.link ⟨"3", 0⟩) := rfl
  refine value_resolve_crossed (.refl _) rfl ?_ hlink (by decide) rfl
  have hcontrol :
      control? (crossedSearch (outerSwitch.node "1")) (innerSwitch.node "2") "select" 1 = none := rfl
  have hfirst : ∀ entry ∈ (innerSwitch.node "2").inputs,
      ∀ i ∈ branchOf? ⟨"select", "input"⟩ entry, 1 ≤ i := by decide +kernel
  have hbranch : (⟨"select", "input"⟩ : Switch).Branch ("input1", .link ⟨"3", 0⟩) 1 := by
    decide +kernel
  rw [hcontrol]
  exact branch?_of_unselected distinctBranches_inner (Node.mem_inputs_of_input? hlink) hbranch
    (fun _ hnone => nomatch hnone)
    fun entry he i hi => hfirst entry he i (branchOf?_eq_some_iff.mpr hi)

/-- Here the number is behind the first link of the switch without a control, and the inner switch
takes its second branch. -/
lemma value_resolve_crossed_dog :
    (((crossedSearch { outerSwitch.node "1" with
      inputs := (outerSwitch.node "1").inputs.reverse }).resolve "1" .prompt).run .empty).1 =
      some (.str "a dog") := by
  have hlink : (innerSwitch.node "2").input? "input2" = some (.link ⟨"4", 0⟩) := rfl
  refine value_resolve_crossed (List.reverse_perm _) rfl ?_ hlink (by decide) rfl
  have hcontrol : control? (crossedSearch { outerSwitch.node "1" with
      inputs := (outerSwitch.node "1").inputs.reverse }) (innerSwitch.node "2") "select" 1 =
      some (.num (.int 2)) := rfl
  have hbranch : (⟨"select", "input"⟩ : Switch).Branch ("input2", .link ⟨"4", 0⟩) 2 := by
    decide +kernel
  rw [hcontrol]
  exact branch?_of_selected distinctBranches_inner (Node.mem_inputs_of_input? hlink) hbranch rfl

end Tracing

end ImageRecipe
