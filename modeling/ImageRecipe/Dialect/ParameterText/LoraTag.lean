import ImageRecipe.Decimal.Reading
import ImageRecipe.Recipe.Basic
import ImageRecipe.Text.Class
import ImageRecipe.Text.Pattern

/-!
# LoRA tags

A prompt applies a LoRA by a tag `<lora:name:weight>`. The weight may be left
out, and more may follow it up to the closing bracket. A weight that is no
decimal is left out.
-/
namespace ImageRecipe.ParameterText

open Text

/-- The digits of a decimal, with any number of points. -/
def isDecimalChar (c : Char) : Bool := isDecimalDigit c || c == '.'

/-- The weight behind a colon. -/
def weight? (s : List Char) : Option Float :=
  match trimStart s with
  | '-' :: digits => (run? isDecimalChar digits).bind fun found => Decimal.float? ('-' :: found.1)
  | digits => (run? isDecimalChar digits).bind fun found => Decimal.float? found.1

/-- The name and the weight behind the opening of a tag, and what follows the tag. -/
def loraTag? (s : List Char) : Option (Lora × List Char) := do
  let (name, rest) ← run? (fun c => c != ':' && c != '>') s
  let weight := match rest with
    | ':' :: more => weight? more
    | _ => none
  let (_, after) ← splitOnce? (· == '>') rest
  some (⟨String.ofList (trim name), weight, weight⟩, after)

/-- The tag at the front of a text, and what follows it. -/
def loraTagAt? (s : List Char) : Option (Lora × List Char) :=
  (after? "<lora:".toList s).bind loraTag?

theorem loraTagAt?_length_lt {s after : List Char} {lora : Lora}
    (h : loraTagAt? s = some (lora, after)) : after.length < s.length := by
  simp only [loraTagAt?, Option.bind_eq_some_iff] at h
  obtain ⟨inner, hinner, htag⟩ := h
  have houter := length_eq_of_after? hinner
  simp only [loraTag?, Option.bind_eq_bind, Option.bind_eq_some_iff] at htag
  obtain ⟨⟨name, rest⟩, hname, ⟨before, after'⟩, hafter, heq⟩ := htag
  simp only [Option.some.injEq, Prod.mk.injEq] at heq
  obtain ⟨-, rfl⟩ := heq
  have hrun := congrArg List.length (eq_of_run?_eq_some hname)
  have hcut := splitOnce?_length_lt hafter
  simp only [List.length_append] at hrun
  simp only at hcut
  omega

/-- The LoRAs of the tags in a prompt, in order. -/
def loraTags (s : List Char) : List Lora :=
  match _h : loraTagAt? s with
  | some (lora, after) => lora :: loraTags after
  | none =>
    match s with
    | [] => []
    | _ :: rest => loraTags rest
termination_by s.length
decreasing_by
  · exact loraTagAt?_length_lt ‹_›
  · simp

/-- A tag at the front is taken, and reading goes on behind it. -/
theorem loraTags_of_eq_some {s after : List Char} {lora : Lora}
    (h : loraTagAt? s = some (lora, after)) : loraTags s = lora :: loraTags after := by
  rw [loraTags]
  split
  · rename_i heq
    rw [h] at heq
    cases heq
    rfl
  · rename_i heq
    rw [h] at heq
    cases heq

/-- A character at which no tag begins is passed over. -/
theorem loraTags_cons_of_eq_none {c : Char} {s : List Char} (h : loraTagAt? (c :: s) = none) :
    loraTags (c :: s) = loraTags s := by
  rw [loraTags]
  split
  · rename_i heq
    rw [h] at heq
    cases heq
  · rfl

end ImageRecipe.ParameterText
