import ImageRecipe.Proofs.ExifTexts
import ImageRecipe.Proofs.ImageTexts

/-!
# Exif blocks in either byte order

The entries of a directory stand one behind the other, and a value stands in its
entry or anywhere else in the block, over other values too. What is read from a
block depends on the texts of its entries alone: not on the byte order and not
on where the directories and the values stand.
-/
namespace ImageRecipe.Exif

open Text (ByteOrder)

/-- Bytes that stand in a block from an offset on. -/
def BytesAt (block : Bytes) (offset : Nat) (bytes : Bytes) : Prop := bytes <+: block.drop offset

instance (block : Bytes) (offset : Nat) (bytes : Bytes) : Decidable (BytesAt block offset bytes) :=
  inferInstanceAs (Decidable (bytes <+: block.drop offset))

/-- A number that is written in `size` bytes at an offset. -/
def NumberAt (order : ByteOrder) (block : Bytes) (offset size n : Nat) : Prop :=
  n < 256 ^ size ∧ BytesAt block offset (order.bytes size n)

instance (order : ByteOrder) (block : Bytes) (offset size n : Nat) :
    Decidable (NumberAt order block offset size n) :=
  inferInstanceAs (Decidable (_ ∧ _))

/-- Four bytes that say where something stands. -/
def LeadsTo (order : ByteOrder) (block : Bytes) (offset : Nat) (P : Nat → Prop) : Prop :=
  ∃ target, NumberAt order block offset 4 target ∧ P target

section Reading

variable {order : ByteOrder} {block : Bytes}

lemma slice?_eq_some_iff {offset size : Nat} {bytes : Bytes} :
    slice? block offset size = some bytes ↔ bytes.length = size ∧ BytesAt block offset bytes := by
  constructor
  · intro h
    simp only [slice?, beq_iff_eq, Option.ite_none_right_eq_some, Option.some.injEq] at h
    obtain ⟨hlength, rfl⟩ := h
    exact ⟨hlength, List.take_prefix _ _⟩
  · rintro ⟨rfl, h⟩
    have htake := (List.prefix_iff_eq_take.mp h).symm
    simp only [slice?, htake, beq_self_eq_true, if_true]

/-- A number is read exactly if it is written. -/
lemma number?_eq_some_iff {offset size n : Nat} :
    Tiff.number? ⟨order, block⟩ offset size = some n ↔ NumberAt order block offset size n := by
  rw [Tiff.number?, Option.map_eq_some_iff]
  constructor
  · rintro ⟨bytes, hslice, rfl⟩
    obtain ⟨rfl, hbytes⟩ := slice?_eq_some_iff.mp hslice
    refine ⟨order.number_lt bytes, ?_⟩
    rw [order.bytes_number]
    exact hbytes
  · rintro ⟨hlt, hbytes⟩
    exact ⟨order.bytes size n, slice?_eq_some_iff.mpr ⟨order.length_bytes size n, hbytes⟩,
      order.number_bytes hlt⟩

/-- There is at most one place to look at. -/
instance {offset : Nat} {P : Nat → Prop} [DecidablePred P] :
    Decidable (LeadsTo order block offset P) :=
  decidable_of_iff (∃ target ∈ Tiff.number? ⟨order, block⟩ offset 4, P target) <|
    exists_congr fun _ => and_congr_left fun _ => number?_eq_some_iff

end Reading

/-- The type, the size and the bytes of the value of an entry. Up to four bytes stand in the entry
itself and more of them where it says. -/
def ValueAt (order : ByteOrder) (block : Bytes) (entry type : Nat) (value : Bytes) : Prop :=
  NumberAt order block (entry + 2) 2 type ∧ NumberAt order block (entry + 4) 4 value.length ∧
    if value.length ≤ 4 then BytesAt block (entry + 8) value
    else LeadsTo order block (entry + 8) fun start => BytesAt block start value

instance (order : ByteOrder) (block : Bytes) (entry type : Nat) (value : Bytes) :
    Decidable (ValueAt order block entry type value) :=
  inferInstanceAs (Decidable (_ ∧ _ ∧ ite _ _ _))

/-- A value of single bytes is read where it stands. -/
lemma value?_of_valueAt {order : ByteOrder} {block : Bytes} {entry type : Nat} {value : Bytes}
    (hunit : Tiff.unitSize? type = some 1) (h : ValueAt order block entry type value) :
    Tiff.value? ⟨order, block⟩ entry = some value := by
  obtain ⟨htype, hcount, hplace⟩ := h
  simp only [Tiff.value?, number?_eq_some_iff.mpr htype, number?_eq_some_iff.mpr hcount,
    Option.bind_eq_bind, Option.bind_some, hunit, Nat.mul_one]
  split_ifs at hplace ⊢
  · exact slice?_eq_some_iff.mpr ⟨rfl, hplace⟩
  · obtain ⟨start, hstart, hbytes⟩ := hplace
    rw [number?_eq_some_iff.mpr hstart, Option.bind_some]
    exact slice?_eq_some_iff.mpr ⟨rfl, hbytes⟩

/-- The tags whose values are texts with a zero behind them. -/
inductive TextTag where
  | imageDescription
  | software
  | artist

namespace TextTag

def number : TextTag → Nat
  | imageDescription => 0x010E
  | software => 0x0131
  | artist => 0x013B

def name : TextTag → String
  | imageDescription => "ImageDescription"
  | software => "Software"
  | artist => "Artist"

end TextTag

/-- The tags that make a difference: those of texts and of the pointer to the Exif directory. -/
def readTags : List Nat := [0x010E, 0x0131, 0x013B, 0x9286, 0x9C9C, 0x8769]

/-- An entry of a directory: a text, a comment, a pointer to another directory, or one that is not
read at all. -/
inductive Entry where
  | text (tag : TextTag) (s : String) (h : '\x00' ∉ s.toList)
  | comment (c : Comment) (h : c.Readable)
  | pointer
  | other (tag : Nat) (h : tag ∉ readTags)

namespace Entry

def tag : Entry → Nat
  | text tag _ _ => tag.number
  | comment _ _ => 0x9286
  | pointer => 0x8769
  | other tag _ => tag

/-- The type and the bytes of a value that is read: 2 for ASCII and 7 for UNDEFINED. -/
def value? : Entry → Option (Nat × Bytes)
  | text _ s _ => some (2, zeroEndedBytes s)
  | comment c _ => some (7, c.bytes)
  | _ => none

/-- The name and the text of an entry. -/
def text? : Entry → Option (String × String)
  | text tag s _ => some (tag.name, s)
  | comment c _ => some ("UserComment", c.text)
  | _ => none

def isPointer : Entry → Bool
  | pointer => true
  | _ => false

/-- An entry that is written at an offset. -/
def WrittenAt (order : ByteOrder) (block : Bytes) (offset : Nat) (e : Entry) : Prop :=
  NumberAt order block offset 2 e.tag ∧
    ∀ value ∈ e.value?, ValueAt order block offset value.1 value.2

instance (order : ByteOrder) (block : Bytes) (offset : Nat) (e : Entry) :
    Decidable (e.WrittenAt order block offset) :=
  inferInstanceAs (Decidable (_ ∧ ∀ value ∈ e.value?, _))

/-- The text of a known tag without the blanks at its ends, if anything else is left. -/
def tidied? (e : Entry) : Option (String × String) := do
  let (name, s) ← e.text?
  some (name, ← Text.nonBlank? s)

/-- The same text, if the tag has a given name. -/
def textOf? (name : String) (e : Entry) : Option String := do
  let (known, s) ← e.text?
  if name == known then Text.nonBlank? s else none

end Entry

/-- Entries that are written in twelve bytes each, one behind the other. -/
def EntriesAt (order : ByteOrder) (block : Bytes) : Nat → List Entry → Prop
  | _, [] => True
  | offset, e :: entries =>
    e.WrittenAt order block offset ∧ EntriesAt order block (offset + 12) entries

instance decidableEntriesAt (order : ByteOrder) (block : Bytes) :
    ∀ offset entries, Decidable (EntriesAt order block offset entries)
  | _, [] => inferInstanceAs (Decidable True)
  | offset, e :: entries =>
    have := decidableEntriesAt order block (offset + 12) entries
    inferInstanceAs (Decidable (e.WrittenAt order block offset ∧ _))

/-- A directory that is written at an offset: the number of its entries, and the entries. -/
def DirectoryAt (order : ByteOrder) (block : Bytes) (offset : Nat) (entries : List Entry) : Prop :=
  NumberAt order block offset 2 entries.length ∧ EntriesAt order block (offset + 2) entries

instance (order : ByteOrder) (block : Bytes) (offset : Nat) (entries : List Entry) :
    Decidable (DirectoryAt order block offset entries) :=
  inferInstanceAs (Decidable (_ ∧ _))

/-- The offset of the first pointer of entries that begin at `offset`. -/
def firstPointer? : Nat → List Entry → Option Nat
  | _, [] => none
  | offset, e :: entries => if e.isPointer then some offset else firstPointer? (offset + 12) entries

/-- The tags and the offsets of entries that begin at `offset`. -/
def placed : Nat → List Entry → List (Nat × Nat)
  | _, [] => []
  | offset, e :: entries => (e.tag, offset) :: placed (offset + 12) entries

section Directories

variable {order : ByteOrder} {block : Bytes} {offset : Nat}

lemma rawText?_of_writtenAt {e : Entry} (h : e.WrittenAt order block offset) :
    rawText? ⟨order, block⟩ e.tag offset = e.text? := by
  obtain ⟨-, hvalue⟩ := h
  cases e with
  | text tag s hnul =>
    have hread := value?_of_valueAt rfl (hvalue _ rfl)
    have hends := zeroEnded_zeroEndedBytes hnul
    cases tag <;> simp [rawText?, Entry.tag, TextTag.number, hread, hends, Entry.text?,
      TextTag.name]
  | comment c hreadable =>
    have hread := value?_of_valueAt rfl (hvalue _ rfl)
    simp [rawText?, Entry.tag, hread, userComment?_bytes order hreadable, Entry.text?]
  | pointer => rfl
  | other tag hother =>
    simp only [readTags, List.mem_cons, List.not_mem_nil, or_false, not_or] at hother
    simp [rawText?, Entry.tag, Entry.text?, hother]

lemma zero_notMem_text {e : Entry} {name s : String} (h : e.text? = some (name, s)) :
    '\x00' ∉ s.toList := by
  cases e with
  | text tag s hnul =>
    cases h
    exact hnul
  | comment c hreadable =>
    cases h
    cases c with
    | ascii s => exact hreadable
    | marked textOrder s => exact hreadable
    | unmarked textOrder s => exact hreadable.1
  | pointer => cases h
  | other tag hother => cases h

lemma tag_beq_pointer (e : Entry) : (e.tag == 0x8769) = e.isPointer := by
  cases e with
  | text tag s hnul => cases tag <;> rfl
  | comment c hreadable => rfl
  | pointer => rfl
  | other tag hother =>
    simp only [readTags, List.mem_cons, List.not_mem_nil, or_false, not_or] at hother
    simp [Entry.tag, Entry.isPointer, hother]

/-- The tags of entries are read one after the other. -/
lemma map_number?_of_entriesAt {entries : List Entry} (h : EntriesAt order block offset entries) :
    (List.range' offset entries.length 12).map (fun entry =>
      (Tiff.number? ⟨order, block⟩ entry 2).map fun tag => (tag, entry)) =
        (placed offset entries).map some := by
  induction entries generalizing offset with
  | nil => rfl
  | cons e entries ih =>
    obtain ⟨he, hentries⟩ := h
    rw [List.length_cons, List.range'_succ, List.map_cons, ih hentries,
      number?_eq_some_iff.mpr he.1]
    rfl

/-- The table of a directory goes over all of its entries, and none of them ends it. -/
lemma entries_of_directoryAt {entries : List Entry} (h : DirectoryAt order block offset entries) :
    Tiff.entries ⟨order, block⟩ offset = placed (offset + 2) entries := by
  obtain ⟨hcount, hentries⟩ := h
  have hrange : (List.range entries.length).map (fun i => offset + 2 + i * 12) =
      List.range' (offset + 2) entries.length 12 :=
    List.ext_getElem (by simp) fun i _ _ => by
      rw [List.getElem_map, List.getElem_range, List.getElem_range', Nat.mul_comm]
  have hall : ((placed (offset + 2) entries).map some).takeWhile Option.isSome =
      (placed (offset + 2) entries).map some :=
    List.takeWhile_eq_self_iff.mpr fun entry hentry => by
      obtain ⟨-, -, rfl⟩ := List.mem_map.mp hentry
      rfl
  simp only [Tiff.entries, number?_eq_some_iff.mpr hcount, Option.getD_some, hrange,
    map_number?_of_entriesAt hentries, hall]
  rw [List.filterMap_map]
  exact List.filterMap_some

/-- The texts of entries are read one after the other. -/
lemma filterMap_placed {entries : List Entry} (h : EntriesAt order block offset entries) :
    ((placed offset entries).filterMap fun (tag, entry) => do
      let (name, text) ← rawText? ⟨order, block⟩ tag entry
      some (name, ← tidyText? text)) = entries.filterMap Entry.tidied? := by
  induction entries generalizing offset with
  | nil => rfl
  | cons e entries ih =>
    obtain ⟨he, hentries⟩ := h
    simp only [placed, List.filterMap_cons, ih hentries, rawText?_of_writtenAt he, Entry.tidied?]
    cases hfound : e.text? with
    | none => rfl
    | some found =>
      simp only [Option.bind_eq_bind, Option.bind_some, tidyText?_eq (zero_notMem_text hfound)]

/-- What is read from a directory depends on its texts alone. -/
lemma texts_of_directoryAt {entries : List Entry} (h : DirectoryAt order block offset entries) :
    texts ⟨order, block⟩ offset = entries.filterMap Entry.tidied? := by
  rw [texts, entries_of_directoryAt h]
  exact filterMap_placed h.2

/-- A pointer that has an offset ends the search for one. -/
lemma findSome?_placed {entries : List Entry} (number? : Nat → Option Nat)
    (h : ∀ entry ∈ firstPointer? offset entries, (number? entry).isSome) :
    ((placed offset entries).findSome? fun (tag, entry) =>
      if tag == 0x8769 then number? entry else none) =
        (firstPointer? offset entries).bind number? := by
  induction entries generalizing offset with
  | nil => rfl
  | cons e entries ih =>
    rw [firstPointer?] at h ⊢
    rw [placed, List.findSome?_cons]
    simp only [tag_beq_pointer]
    cases hpointer : e.isPointer with
    | true =>
      rw [hpointer] at h
      obtain ⟨target, htarget⟩ := Option.isSome_iff_exists.mp (h offset rfl)
      simp only [if_true, htarget, Option.bind_some]
    | false =>
      rw [hpointer] at h
      exact ih h

/-- A directory points to what its first pointer does. -/
lemma pointer?_of_directoryAt {entries : List Entry} (h : DirectoryAt order block offset entries)
    (hnumber : ∀ entry ∈ firstPointer? (offset + 2) entries,
      (Tiff.number? ⟨order, block⟩ (entry + 8) 4).isSome) :
    pointer? ⟨order, block⟩ offset = (firstPointer? (offset + 2) entries).bind fun entry =>
      Tiff.number? ⟨order, block⟩ (entry + 8) 4 := by
  rw [pointer?, entries_of_directoryAt h]
  exact findSome?_placed (fun entry => Tiff.number? ⟨order, block⟩ (entry + 8) 4) hnumber

end Directories

/-- The two letters that a block begins with. -/
def orderMark : ByteOrder → Bytes
  | .little => [0x49, 0x49]
  | .big => [0x4D, 0x4D]

/-- The entries of the first directory, and those of the Exif directory if there is one. -/
structure Content where
  first : List Entry
  second : Option (List Entry)

namespace Content

/-- Whether a first directory at an offset leads to the Exif directory: its first pointer does, and
to another offset. Without an Exif directory it has no pointer. -/
def Continues (content : Content) (order : ByteOrder) (block : Bytes) (first : Nat) : Prop :=
  match content.second with
  | none => firstPointer? (first + 2) content.first = none
  | some entries => ∃ pointer ∈ firstPointer? (first + 2) content.first,
      LeadsTo order block (pointer + 8) fun second =>
        second ≠ first ∧ DirectoryAt order block second entries

instance (order : ByteOrder) (block : Bytes) (first : Nat) :
    ∀ content : Content, Decidable (content.Continues order block first)
  | ⟨_, none⟩ => inferInstanceAs (Decidable (_ = none))
  | ⟨_, some _⟩ => inferInstanceAs (Decidable (∃ pointer ∈ firstPointer? _ _, LeadsTo _ _ _ _))

/-- A block that is written in a byte order, with its directories and values at any offsets. -/
def WrittenIn (content : Content) (order : ByteOrder) (block : Bytes) : Prop :=
  BytesAt block 0 (orderMark order) ∧ NumberAt order block 2 2 42 ∧
    LeadsTo order block 4 fun first =>
      DirectoryAt order block first content.first ∧ content.Continues order block first

instance (content : Content) (order : ByteOrder) (block : Bytes) :
    Decidable (content.WrittenIn order block) :=
  inferInstanceAs (Decidable (_ ∧ _ ∧ LeadsTo _ _ _ _))

/-- The entries in the order in which they are read. -/
def entries (content : Content) : List Entry := content.first ++ content.second.getD []

/-- The text of a name: that of its first entry with anything but blanks, without the blanks at its
ends. -/
def text? (content : Content) (name : String) : Option String :=
  content.entries.findSome? (Entry.textOf? name)

end Content

section Blocks

variable {content : Content} {order : ByteOrder} {block : Bytes}

lemma ofBytes?_of_orderMark (hmark : BytesAt block 0 (orderMark order))
    (hnumber : NumberAt order block 2 2 42) : Tiff.ofBytes? block = some ⟨order, block⟩ := by
  have h42 := number?_eq_some_iff.mpr hnumber
  obtain ⟨rest, hrest⟩ := hmark
  rw [List.drop_zero] at hrest
  subst hrest
  cases order with
  | little =>
    simp only [orderMark, List.cons_append, List.nil_append] at h42 ⊢
    simp [Tiff.ofBytes?, h42]
  | big =>
    simp only [orderMark, List.cons_append, List.nil_append] at h42 ⊢
    simp [Tiff.ofBytes?, h42]

/-- Both directories are read, in order. -/
lemma allTexts_of_continues {first : Nat} (hfirst : DirectoryAt order block first content.first)
    (hsecond : content.Continues order block first) :
    allTexts ⟨order, block⟩ first = content.entries.filterMap Entry.tidied? := by
  obtain ⟨entries, second?⟩ := content
  have htexts := texts_of_directoryAt hfirst
  cases second? with
  | none =>
    have hnone : firstPointer? (first + 2) entries = none := hsecond
    have hpointer : pointer? ⟨order, block⟩ first = none := by
      rw [pointer?_of_directoryAt hfirst (by simp [hnone]), hnone, Option.bind_none]
    rw [allTexts, hpointer]
    simpa [Content.entries] using htexts
  | some further =>
    obtain ⟨pointer, hplace, second, htarget, hne, hfurther⟩ := hsecond
    rw [Option.mem_def] at hplace
    have hnumber := number?_eq_some_iff.mpr htarget
    have hpointer : pointer? ⟨order, block⟩ first = some second := by
      rw [pointer?_of_directoryAt hfirst (by simp [hplace, hnumber]), hplace, Option.bind_some,
        hnumber]
    have hother : (second == first) = false := beq_eq_false_iff_ne.mpr hne
    simp only [allTexts, hpointer, hother, Bool.false_eq_true, if_false, htexts,
      texts_of_directoryAt hfurther, Content.entries, Option.getD_some, List.filterMap_append]

lemma read_of_writtenIn (h : content.WrittenIn order block) :
    read block = (content.entries.filterMap Entry.tidied?).foldl
      (fun map f => map.insertNew f.1 f.2) ∅ := by
  obtain ⟨hmark, hnumber, first, hstart, hfirst, hsecond⟩ := h
  simp only [read, ofBytes?_of_orderMark hmark hnumber, number?_eq_some_iff.mpr hstart,
    Option.map_some, Option.getD_some, allTexts_of_continues hfirst hsecond]

lemma lookup_filterMap_tidied? (entries : List Entry) (name : String) :
    (entries.filterMap Entry.tidied?).lookup name = entries.findSome? (Entry.textOf? name) := by
  induction entries with
  | nil => rfl
  | cons e entries ih =>
    rw [List.filterMap_cons, List.findSome?_cons, Entry.tidied?, Entry.textOf?]
    cases e.text? with
    | none => exact ih
    | some found =>
      cases htext : Text.nonBlank? found.2 with
      | none => simp [htext, ih]
      | some text =>
        by_cases hname : name = found.1
        · simp [htext, hname]
        · simp [htext, hname, beq_eq_false_iff_ne.mpr hname, List.lookup_cons, ih]

end Blocks

/-- Blocks with the same entries are read alike in either byte order: a name has the text of its
first entry that is not blank, those of the first directory before those of the Exif directory. -/
theorem read_eq_of_writtenIn {content : Content} {little big : Bytes}
    (hlittle : content.WrittenIn .little little) (hbig : content.WrittenIn .big big) :
    read little = read big ∧ ∀ name, (read little)[name]? = content.text? name := by
  refine ⟨by rw [read_of_writtenIn hlittle, read_of_writtenIn hbig], fun name => ?_⟩
  rw [read_of_writtenIn hlittle, TextMap.getElem?_foldl_insertNew, lookup_filterMap_tidied?,
    Content.text?]
  simp

/-- An artist in four bytes, and a comment in the Exif directory. -/
def signedContent : Content where
  first := [.text .artist "Ann" (by decide), .pointer]
  second := some [.comment (.unmarked .little "ok") ⟨by decide, by decide, by simp⟩]

/-- The comment stands behind the directories. -/
def signedLittle : Bytes :=
  [0x49, 0x49, 42, 0, 8, 0, 0, 0,
    2, 0, 0x3B, 0x01, 2, 0, 4, 0, 0, 0, 0x41, 0x6E, 0x6E, 0,
    0x69, 0x87, 4, 0, 1, 0, 0, 0, 34, 0, 0, 0,
    1, 0, 0x86, 0x92, 7, 0, 12, 0, 0, 0, 48, 0, 0, 0,
    0x55, 0x4E, 0x49, 0x43, 0x4F, 0x44, 0x45, 0, 0x6F, 0, 0x6B, 0]

/-- The comment stands before the directories. -/
def signedBig : Bytes :=
  [0x4D, 0x4D, 0, 42, 0, 0, 0, 20,
    0x55, 0x4E, 0x49, 0x43, 0x4F, 0x44, 0x45, 0, 0x6F, 0, 0x6B, 0,
    0, 2, 0x01, 0x3B, 0, 2, 0, 0, 0, 4, 0x41, 0x6E, 0x6E, 0,
    0x87, 0x69, 0, 4, 0, 0, 0, 1, 0, 0, 0, 46,
    0, 1, 0x92, 0x86, 0, 7, 0, 0, 0, 12, 0, 0, 0, 8]

theorem read_eq_of_writtenIn_signed : signedContent.WrittenIn .little signedLittle ∧
    signedContent.WrittenIn .big signedBig ∧ read signedLittle = read signedBig ∧
      (read signedBig)["UserComment"]? = some "ok" :=
  have hlittle : signedContent.WrittenIn .little signedLittle := by decide +kernel
  have hbig : signedContent.WrittenIn .big signedBig := by decide +kernel
  have h := read_eq_of_writtenIn hlittle hbig
  ⟨hlittle, hbig, h.1, h.1 ▸ (h.2 "UserComment").trans (by decide +kernel)⟩

end ImageRecipe.Exif
