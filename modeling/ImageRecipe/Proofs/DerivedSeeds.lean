import ImageRecipe.Workflow.Seed
import Mathlib.Data.UInt

/-!
# Seeds that are derived

An object is a seed through its base and its offset. Of the names for either one
the first that is there decides, so the seed is the sum of the first base and the
first offset that are seeds exactly if nothing that is no seed stands under an
earlier name.
-/
namespace ImageRecipe.Seed

/-- The seed that the first of the named members is. It may be none: the members behind it are not
looked at. -/
def firstThere? (names : List String) (members : List (String × Json)) : Option UInt64 :=
  (names.findSome? fun name => Json.lookup? name members).bind ofJson?

/-- The first of the named members that is a seed. -/
def firstSeed? (names : List String) (members : List (String × Json)) : Option UInt64 :=
  names.findSome? fun name => (Json.lookup? name members).bind ofJson?

section Members

variable (names : List String) (members : List (String × Json))

lemma find?_memberSeeds (name : String) :
    ((memberSeeds members).find? (·.1 == name)).map (·.2) =
      (Json.lookup? name members).map ofJson? := by
  induction members with
  | nil => rfl
  | cons member rest ih =>
    rw [memberSeeds, List.find?_cons, Json.lookup?]
    cases hname : member.1 == name with
    | true => rfl
    | false => exact ih

lemma member?_memberSeeds : member? names (memberSeeds members) = firstThere? names members := by
  simp only [member?, firstThere?, find?_memberSeeds]
  induction names with
  | nil => rfl
  | cons name rest ih =>
    rw [List.findSome?_cons, List.findSome?_cons]
    cases Json.lookup? name members with
    | none => exact ih
    | some value => rfl

/-- The seed of an object in terms of its members. -/
lemma ofJson?_obj : ofJson? (.obj members) =
    (firstThere? baseNames members).map fun base =>
      derived base ((firstThere? offsetNames members).getD 0) := by
  rw [ofJson?, ofMembers?, member?_memberSeeds, member?_memberSeeds]

variable {names members}

/-- A first member that is a seed is the first seed. -/
lemma firstSeed?_of_firstThere? {seed : UInt64} (h : firstThere? names members = some seed) :
    firstSeed? names members = some seed := by
  rw [firstThere?] at h
  induction names with
  | nil => cases h
  | cons name rest ih =>
    rw [List.findSome?_cons] at h
    rw [firstSeed?, List.findSome?_cons]
    cases hvalue : Json.lookup? name members with
    | none =>
      rw [hvalue] at h
      exact ih h
    | some value =>
      rw [hvalue, Option.bind_some] at h
      rw [Option.bind_some, h]

end Members

lemma toNat_derived (base offset : UInt64) :
    (derived base offset).toNat = (base.toNat + offset.toNat) % 2 ^ 64 :=
  UInt64.toNat_add base offset

lemma derived_inj_right {base offset offset' : UInt64}
    (h : (derived base offset).toNat = (derived base offset').toNat) : offset = offset' := by
  have hsum : base + offset = base + offset' := UInt64.toNat_inj.mp h
  exact add_left_cancel hsum

/-- Of an object with a base that is a seed, the seed is the sum, modulo `2 ^ 64`, of the first base
and the first offset that are seeds (zero without one), exactly if the first base that is there is a
seed and no other offset than that one is reached. -/
theorem ofJson?_obj_eq_sum_iff (members : List (String × Json)) (base : UInt64)
    (h : firstSeed? baseNames members = some base) :
    (∃ seed, ofJson? (.obj members) = some seed ∧ seed.toNat =
      (base.toNat + ((firstSeed? offsetNames members).getD 0).toNat) % 2 ^ 64) ↔
    (firstThere? baseNames members).isSome = true ∧
      (firstThere? offsetNames members).getD 0 = (firstSeed? offsetNames members).getD 0 := by
  rw [ofJson?_obj]
  cases hthere : firstThere? baseNames members with
  | none => simp
  | some first =>
    obtain rfl : first = base := Option.some.inj ((firstSeed?_of_firstThere? hthere).symm.trans h)
    rw [Option.map_some]
    constructor
    · rintro ⟨seed, hseed, hsum⟩
      cases hseed
      rw [← toNat_derived] at hsum
      exact ⟨rfl, derived_inj_right hsum⟩
    · rintro ⟨-, hoffset⟩
      exact ⟨_, rfl, by rw [hoffset, toNat_derived]⟩

/-- A base that is derived itself. -/
def nestedMembers : List (String × Json) :=
  [("base_seed", .obj [("seed", .str "0xff"), ("offset", .num (.int 1))]),
    ("seed_offset", .str "+2")]

theorem ofJson?_obj_eq_sum_nested :
    firstSeed? baseNames nestedMembers = some 256 ∧
      ∃ seed, ofJson? (.obj nestedMembers) = some seed ∧ seed.toNat =
        (256 + ((firstSeed? offsetNames nestedMembers).getD 0).toNat) % 2 ^ 64 := by
  have hbase : firstSeed? baseNames nestedMembers = some 256 := by decide
  exact ⟨hbase, (ofJson?_obj_eq_sum_iff nestedMembers 256 hbase).mpr ⟨by decide, by decide⟩⟩

def negativeMembers : List (String × Json) :=
  [("seed", .num (.int (-1))), ("base_seed", .num (.int 5))]

/-- A negative seed does not send the reader on to the base behind it. -/
theorem ofJson?_obj_negative_ne :
    firstSeed? baseNames negativeMembers = some 5 ∧
      firstSeed? offsetNames negativeMembers = none ∧
      ¬ ∃ seed, ofJson? (.obj negativeMembers) = some seed ∧ seed.toNat =
        (5 + ((firstSeed? offsetNames negativeMembers).getD 0).toNat) % 2 ^ 64 := by
  have hnone : ofJson? (.obj negativeMembers) = none := by decide +kernel
  refine ⟨by decide +kernel, by decide, ?_⟩
  rintro ⟨seed, hseed, -⟩
  rw [hnone] at hseed
  cases hseed

end ImageRecipe.Seed
