import ImageRecipe.Image.Tags
import ImageRecipe.Proofs.Utf8RoundTrip
import Mathlib.Data.List.Pairwise
import Mathlib.Data.List.Sort
import Mathlib.Order.Defs.Unbundled

/-!
# Printable runs of a manifest

A run is a longest stretch of bytes that can be printed. The text of a manifest
is made of its runs of at least four bytes, of all of them and of nothing else,
in their order and each on a line of its own. A run may end with the manifest.
-/
namespace ImageRecipe.Manifest

/-- The positions of a manifest from `start` on and before `stop`. -/
@[ext] structure Span where
  start : Nat
  stop : Nat
  deriving DecidableEq

namespace Span

def length (span : Span) : Nat := span.stop - span.start

/-- What stands at the positions of a span. -/
def bytes (manifest : Bytes) (span : Span) : Bytes := (manifest.drop span.start).take span.length

/-- The same positions with one byte more in front of the manifest. -/
def shifted (span : Span) : Span := ⟨span.start + 1, span.stop + 1⟩

/-- The same positions without the first byte of the manifest. -/
def rest (span : Span) : Span := ⟨span.start - 1, span.stop - 1⟩

/-- A span is at most another one if it lies within it. -/
instance : LE Span := ⟨fun inner outer => outer.start ≤ inner.start ∧ inner.stop ≤ outer.stop⟩

lemma antisymm {s t : Span} (hst : s ≤ t) (hts : t ≤ s) : s = t :=
  Span.ext (Nat.le_antisymm hts.1 hst.1) (Nat.le_antisymm hst.2 hts.2)

lemma le_shifted {inner outer : Span} (hstart : 0 < inner.start) (h : inner.rest ≤ outer) :
    inner ≤ outer.shifted := by
  have hleft : outer.start ≤ inner.start - 1 := h.1
  have hright : inner.stop - 1 ≤ outer.stop := h.2
  exact ⟨Nat.add_le_of_le_sub hstart hleft, Nat.le_add_of_sub_le hright⟩

lemma bytes_shifted (b : UInt8) (manifest : Bytes) (span : Span) :
    span.shifted.bytes (b :: manifest) = span.bytes manifest := by
  rw [bytes, bytes, shifted, length, length, Nat.add_sub_add_right, List.drop_succ_cons]

lemma bytes_grown (b : UInt8) (manifest : Bytes) (stop : Nat) :
    bytes (b :: manifest) ⟨0, stop + 1⟩ = b :: bytes manifest ⟨0, stop⟩ := rfl

lemma length_bytes {manifest : Bytes} {span : Span} (h : span.stop ≤ manifest.length) :
    (span.bytes manifest).length = span.length := by
  rw [bytes, List.length_take, List.length_drop, length]
  omega

end Span

/-- Whether every byte of a span can be printed. -/
def Printable (manifest : Bytes) (span : Span) : Prop :=
  ∀ i b, span.start ≤ i → i < span.stop → manifest[i]? = some b → 0x20 ≤ b ∧ b ≤ 0x7E

/-- A span with something in it, all of which can be printed. -/
structure IsStretch (manifest : Bytes) (span : Span) : Prop where
  start_lt : span.start < span.stop
  stop_le : span.stop ≤ manifest.length
  printable : Printable manifest span

/-- A stretch that lies within no other one. -/
def IsRun (manifest : Bytes) (span : Span) : Prop := Maximal (IsStretch manifest) span

/-- The runs of at least four bytes, all of them, from left to right. -/
structure ListsLongRuns (manifest : Bytes) (runs : List Span) : Prop where
  ordered : runs.Pairwise (·.stop < ·.start)
  mem_iff : ∀ run, run ∈ runs ↔ IsRun manifest run ∧ 4 ≤ run.length

section Stretches

variable {b : UInt8} {manifest : Bytes} {span : Span} {stop : Nat}

lemma isPrintable_iff : isPrintable b = true ↔ 0x20 ≤ b ∧ b ≤ 0x7E := by
  rw [isPrintable, Bool.and_eq_true, decide_eq_true_eq, decide_eq_true_eq]

lemma Printable.shifted (h : Printable manifest span) : Printable (b :: manifest) span.shifted := by
  intro i c hstart hstop hc
  cases i with
  | zero => exact absurd hstart (Nat.not_succ_le_zero span.start)
  | succ i => exact h i c (Nat.le_of_succ_le_succ hstart) (Nat.lt_of_succ_lt_succ hstop) hc

lemma Printable.grown (h : Printable manifest ⟨0, stop⟩) (hb : isPrintable b = true) :
    Printable (b :: manifest) ⟨0, stop + 1⟩ := by
  intro i c _ hstop hc
  cases i with
  | zero =>
    obtain rfl := Option.some.inj hc
    exact isPrintable_iff.mp hb
  | succ i => exact h i c (Nat.zero_le i) (Nat.lt_of_succ_lt_succ hstop) hc

/-- What of a stretch stands behind the first byte of a manifest is a stretch of the rest. -/
lemma IsStretch.rest (h : IsStretch (b :: manifest) span) (hstop : 1 < span.stop) :
    IsStretch manifest span.rest := by
  have hlt := h.start_lt
  have hle : span.stop ≤ manifest.length + 1 := h.stop_le
  refine ⟨?_, Nat.sub_le_of_le_add hle, fun i c hi hi' hc => ?_⟩
  · dsimp only [Span.rest]
    omega
  · dsimp only [Span.rest] at hi hi'
    exact h.printable (i + 1) c (by omega) (by omega) hc

/-- The bytes of a stretch are the codes of the characters that they are read as. -/
lemma utf8Lossy_bytes (h : Printable manifest span) :
    Text.utf8Lossy (span.bytes manifest) = Text.latin1 (span.bytes manifest) := by
  refine Text.utf8Lossy_eq_latin1 fun b hb => ?_
  obtain ⟨i, hi⟩ := List.mem_iff_getElem?.mp hb
  rw [Span.bytes, List.getElem?_take, Option.ite_none_right_eq_some, List.getElem?_drop,
    Span.length] at hi
  obtain ⟨hlt, hget⟩ := hi
  have hle := (h (span.start + i) b (by omega) (by omega) hget).2
  exact Nat.lt_of_le_of_lt (UInt8.le_iff_toNat_le.mp hle) (by decide)

end Stretches

/-- Spans in their order and apart from each other, with nothing in them that cannot be printed. -/
structure Apart (manifest : Bytes) (spans : List Span) : Prop where
  ordered : spans.Pairwise (·.stop < ·.start)
  stop_le : ∀ span ∈ spans, span.stop ≤ manifest.length
  printable : ∀ span ∈ spans, Printable manifest span

/-- Spans into which a manifest is cut, the empty ones among them: every stretch lies within one. -/
structure CutInto (manifest : Bytes) (spans : List Span) : Prop extends Apart manifest spans where
  covers : ∀ stretch, IsStretch manifest stretch → ∃ span ∈ spans, stretch ≤ span

section Steps

variable {b : UInt8} {manifest : Bytes} {front : Span} {spans : List Span} {stop : Nat}

lemma Apart.tail (h : Apart manifest (front :: spans)) : Apart manifest spans where
  ordered := h.ordered.of_cons
  stop_le := (List.forall_mem_cons.mp h.stop_le).2
  printable := (List.forall_mem_cons.mp h.printable).2

/-- Spans with one byte more in front of the manifest, and one that ends before them. -/
lemma Apart.behind (h : Apart manifest spans) (hbefore : ∀ span ∈ spans, front.stop ≤ span.start)
    (hstop : front.stop ≤ manifest.length + 1) (hfront : Printable (b :: manifest) front) :
    Apart (b :: manifest) (front :: spans.map Span.shifted) := by
  constructor
  case ordered =>
    refine List.pairwise_cons.mpr ⟨List.forall_mem_map.mpr fun span hspan => ?_, ?_⟩
    · exact Nat.lt_succ_of_le (hbefore span hspan)
    · exact List.pairwise_map.mpr (h.ordered.imp Nat.succ_lt_succ)
  case stop_le =>
    refine List.forall_mem_cons.mpr ⟨hstop, List.forall_mem_map.mpr fun span hspan => ?_⟩
    exact Nat.succ_le_succ (h.stop_le span hspan)
  case printable =>
    refine List.forall_mem_cons.mpr ⟨hfront, List.forall_mem_map.mpr fun span hspan => ?_⟩
    exact (h.printable span hspan).shifted

/-- A byte that cannot be printed puts an empty span in front. -/
lemma CutInto.cut (h : CutInto manifest spans) (hb : isPrintable b = false) :
    CutInto (b :: manifest) (⟨0, 0⟩ :: spans.map Span.shifted) := by
  refine ⟨h.toApart.behind (fun _ _ => Nat.zero_le _) (Nat.zero_le _) ?_, ?_⟩
  · intro i c _ hi
    exact absurd hi (Nat.not_lt_zero i)
  · intro stretch hstretch
    have hlt := hstretch.start_lt
    have hstart : 0 < stretch.start := by
      by_contra hzero
      have hfirst := hstretch.printable 0 b (by omega) (by omega) rfl
      rw [isPrintable_iff.mpr hfirst] at hb
      cases hb
    obtain ⟨span, hspan, hle⟩ := h.covers _ (hstretch.rest (by omega))
    exact ⟨span.shifted, List.mem_cons_of_mem _ (List.mem_map_of_mem hspan),
      Span.le_shifted hstart hle⟩

/-- A byte that can be printed makes the span in front longer. -/
lemma CutInto.grow (h : CutInto manifest (⟨0, stop⟩ :: spans)) (hb : isPrintable b = true) :
    CutInto (b :: manifest) (⟨0, stop + 1⟩ :: spans.map Span.shifted) := by
  have hbefore := (List.pairwise_cons.mp h.ordered).1
  have hstop : stop ≤ manifest.length := (List.forall_mem_cons.mp h.stop_le).1
  have hfront := (List.forall_mem_cons.mp h.printable).1
  refine ⟨h.toApart.tail.behind hbefore (Nat.succ_le_succ hstop) (hfront.grown hb), ?_⟩
  intro stretch hstretch
  by_cases hshort : stretch.stop ≤ 1
  · exact ⟨_, List.mem_cons_self, Nat.zero_le _, hshort.trans (Nat.succ_le_succ stop.zero_le)⟩
  · obtain ⟨span, hspan, hle⟩ := h.covers _ (hstretch.rest (by omega))
    rcases List.mem_cons.mp hspan with rfl | hspan
    · exact ⟨_, List.mem_cons_self, Nat.zero_le _, Nat.le_add_of_sub_le hle.2⟩
    · -- A stretch that begins with the first byte does not lie within a span further back.
      have hpast : stop < span.start := hbefore span hspan
      have hleft : span.start ≤ stretch.start - 1 := hle.1
      exact ⟨span.shifted, List.mem_cons_of_mem _ (List.mem_map_of_mem hspan),
        Span.le_shifted (by omega) hle⟩

end Steps

/-- The pieces of a manifest are what stands at the spans into which it is cut. Induction on the
bytes, each of which makes the first piece longer or puts an empty one in front. -/
lemma exists_cutInto (manifest : Bytes) : ∃ stop spans,
    CutInto manifest (⟨0, stop⟩ :: spans) ∧
    printableRuns manifest = (⟨0, stop⟩ :: spans).map (Span.bytes manifest) := by
  induction manifest with
  | nil =>
    refine ⟨0, [], ⟨⟨List.pairwise_singleton _ _, by simp, ?_⟩, ?_⟩, rfl⟩
    · intro span _ i b _ _ hb
      cases hb
    · intro stretch hstretch
      exact absurd (hstretch.start_lt.trans_le hstretch.stop_le) (Nat.not_lt_zero _)
  | cons b manifest ih =>
    obtain ⟨stop, spans, hcut, hpieces⟩ := ih
    have hshifted (spans : List Span) : (spans.map Span.shifted).map (Span.bytes (b :: manifest)) =
        spans.map (Span.bytes manifest) := by
      rw [List.map_map]
      exact List.map_congr_left fun span _ => Span.bytes_shifted b manifest span
    cases hb : isPrintable b with
    | true =>
      refine ⟨stop + 1, spans.map Span.shifted, hcut.grow hb, ?_⟩
      rw [printableRuns, if_pos hb, hpieces, List.map_cons, List.map_cons, hshifted,
        Span.bytes_grown]
    | false =>
      refine ⟨0, (⟨0, stop⟩ :: spans).map Span.shifted, hcut.cut hb, ?_⟩
      rw [List.map_cons, hshifted, printableRuns, if_neg (by simp [hb]), hpieces]
      rfl

section Runs

variable {manifest : Bytes} {spans runs others : List Span} {span : Span}

lemma Apart.isStretch (h : Apart manifest spans) (hspan : span ∈ spans)
    (hne : span.start < span.stop) : IsStretch manifest span :=
  ⟨hne, h.stop_le span hspan, h.printable span hspan⟩

/-- Of two spans that are apart, neither lies within the other. -/
lemma Apart.eq_of_le (h : Apart manifest spans) {inner outer : Span} (hinner : inner ∈ spans)
    (houter : outer ∈ spans) (hne : inner.start < inner.stop) (hle : inner ≤ outer) :
    inner = outer := by
  by_contra hdistinct
  have hsymm : Std.Symm fun s t : Span => s.stop < t.start ∨ t.stop < s.start :=
    ⟨fun _ _ => Or.symm⟩
  have hpairs : spans.Pairwise fun s t => s.stop < t.start ∨ t.stop < s.start :=
    h.ordered.imp Or.inl
  have hapart := hpairs.forall hinner houter hdistinct
  have hleft : outer.start ≤ inner.start := hle.1
  have hright : inner.stop ≤ outer.stop := hle.2
  omega

/-- The runs of a manifest are the spans into which it is cut, without the empty ones. -/
lemma CutInto.isRun_iff (h : CutInto manifest spans) :
    IsRun manifest span ↔ span ∈ spans ∧ span.start < span.stop := by
  constructor
  · intro hrun
    obtain ⟨outer, houter, hle⟩ := h.covers span hrun.prop
    have hlt := hrun.prop.start_lt
    have hne : outer.start < outer.stop := hle.1.trans_lt (hlt.trans_le hle.2)
    have hge : outer ≤ span := hrun.le_of_ge (h.isStretch houter hne) hle
    rw [Span.antisymm hle hge]
    exact ⟨houter, hne⟩
  · rintro ⟨hspan, hne⟩
    refine ⟨h.isStretch hspan hne, fun stretch hstretch hle => ?_⟩
    obtain ⟨outer, houter, hwithin⟩ := h.covers stretch hstretch
    have hsame : span = outer :=
      h.eq_of_le hspan houter hne ⟨hwithin.1.trans hle.1, hle.2.trans hwithin.2⟩
    rw [hsame]
    exact hwithin

/-- The long runs are the long ones among the spans into which a manifest is cut. -/
lemma CutInto.listsLongRuns (h : CutInto manifest spans) :
    ListsLongRuns manifest (spans.filter (4 ≤ ·.length)) where
  ordered := h.ordered.filter _
  mem_iff run := by
    rw [List.mem_filter, decide_eq_true_eq, h.isRun_iff, and_assoc, and_congr_right_iff]
    intro _
    rw [Span.length]
    omega

/-- The pieces that are kept are the bytes of the long runs. -/
lemma exists_longRuns (manifest : Bytes) : ∃ runs, ListsLongRuns manifest runs ∧
    (printableRuns manifest).filter (minRun ≤ ·.length) = runs.map (Span.bytes manifest) := by
  obtain ⟨stop, spans, hcut, hpieces⟩ := exists_cutInto manifest
  refine ⟨_, hcut.listsLongRuns, ?_⟩
  rw [hpieces, List.filter_map]
  refine congrArg _ (List.filter_congr fun span hspan => ?_)
  rw [Function.comp_apply, Span.length_bytes (hcut.stop_le span hspan), minRun]

lemma ListsLongRuns.eq_nil_iff (h : ListsLongRuns manifest runs) :
    runs = [] ↔ ¬ ∃ run, IsRun manifest run ∧ 4 ≤ run.length := by
  rw [List.eq_nil_iff_forall_not_mem, not_exists]
  exact forall_congr' fun run => not_congr (h.mem_iff run)

lemma ListsLongRuns.start_lt (h : ListsLongRuns manifest runs) (hspan : span ∈ runs) :
    span.start < span.stop :=
  ((h.mem_iff span).mp hspan).1.prop.start_lt

lemma ListsLongRuns.unique (h : ListsLongRuns manifest runs)
    (hothers : ListsLongRuns manifest others) : others = runs := by
  have hstarts {runs : List Span} (h : ListsLongRuns manifest runs) :
      runs.Pairwise (·.start < ·.start) :=
    h.ordered.imp_of_mem fun hs _ hlt => (h.start_lt hs).trans hlt
  have hirrefl : Std.Irrefl fun s t : Span => s.start < t.start := ⟨fun s => Nat.lt_irrefl _⟩
  have hanti : Std.Antisymm fun s t : Span => s.start < t.start :=
    ⟨fun s t hst hts => absurd hst (Nat.lt_asymm hts)⟩
  exact (hstarts hothers).eq_of_mem_iff (hstarts h) fun run => by rw [h.mem_iff, hothers.mem_iff]

/-- Nothing is listed behind a run that ends with the manifest. -/
lemma ListsLongRuns.getLast? (h : ListsLongRuns manifest runs) (hspan : span ∈ runs)
    (hend : span.stop = manifest.length) : runs.getLast? = some span := by
  obtain ⟨before, after, rfl⟩ := List.append_of_mem hspan
  cases after with
  | nil => exact List.getLast?_concat
  | cons next after =>
    have hnext : next ∈ before ++ span :: next :: after := by simp
    have hstretch := ((h.mem_iff next).mp hnext).1.prop
    have hstart := hstretch.start_lt
    have hstop := hstretch.stop_le
    have hbehind : span.stop < next.start :=
      (List.pairwise_cons.mp (List.pairwise_append.mp h.ordered).2.1).1 next List.mem_cons_self
    omega

end Runs

/-- The text of a manifest is made of its runs of at least four bytes, from left to right and with
line feeds between them. A manifest without such a run has no text, and every other one has. A
run that ends with the manifest is the last one. -/
theorem text?_eq_longRuns (manifest : Bytes) : ∃! runs : List Span,
    ListsLongRuns manifest runs ∧
    text? manifest = (if runs = [] then none else
      some ("\n".intercalate (runs.map fun run => Text.utf8Lossy (run.bytes manifest)))) ∧
    (text? manifest = none ↔ ¬ ∃ run, IsRun manifest run ∧ 4 ≤ run.length) ∧
    ∀ run, IsRun manifest run → 4 ≤ run.length → run.stop = manifest.length →
      runs.getLast? = some run := by
  obtain ⟨runs, hlists, hkept⟩ := exists_longRuns manifest
  have hread : (runs.map (Span.bytes manifest)).map Text.latin1 =
      runs.map fun run => Text.utf8Lossy (run.bytes manifest) := by
    rw [List.map_map]
    exact List.map_congr_left fun run hrun =>
      (utf8Lossy_bytes ((hlists.mem_iff run).mp hrun).1.prop.printable).symm
  have htext : text? manifest = if runs = [] then none else
      some ("\n".intercalate (runs.map fun run => Text.utf8Lossy (run.bytes manifest))) := by
    rw [text?, hkept, ← hread]
    cases runs <;> rfl
  refine ⟨runs, ⟨hlists, htext, ?_, ?_⟩, fun others hothers => hlists.unique hothers.1⟩
  · rw [htext, ← hlists.eq_nil_iff]
    by_cases hnil : runs = [] <;> simp [hnil]
  · intro run hrun hlong hend
    exact hlists.getLast? ((hlists.mem_iff run).mpr ⟨hrun, hlong⟩) hend

example : TagReader.builtin.manifest (Text.utf8Bytes "\x00jumb\x01abc\x02é~ 1.4") =
    some "jumb\n~ 1.4" := by
  decide +kernel

end ImageRecipe.Manifest
