import Mathlib.Data.List.Basic
import Mathlib.Data.List.TakeWhile

/-!
# Buffers of C

A buffer is an array of fixed size whose elements are written one by one, and a program that writes
beyond its end is not stopped.  `CBuffer` therefore records the index of every write next to what the
buffer holds, and `WritesBelow` says that all of them were below a bound.

The functions of `string.h` are sequences of writes (`copyAt`).  What they write depends on where the
strings involved end, that is on the first zero; `Holds` is the state of a buffer that holds a given
string and has not been overrun, and there is one rule for each function that leads from one such
state to the next.
-/

namespace Library

/-- A buffer: the elements it holds and the indices that have been written, the first one first.  A
write beyond the end changes nothing that the buffer holds. -/
structure CBuffer (α : Type*) where
  cells : List α
  written : List ℕ

namespace CBuffer

variable {α : Type*}

/-- A buffer that has not been written yet, with whatever its memory happens to hold. -/
def fresh (cells : List α) : CBuffer α where
  cells := cells
  written := []

/-- All writes went to indices below a bound. -/
def WritesBelow (b : CBuffer α) (size : ℕ) : Prop :=
  ∀ i ∈ b.written, i < size

/-- Write one element. -/
def store (b : CBuffer α) (i : ℕ) (a : α) : CBuffer α where
  cells := b.cells.set i a
  written := b.written ++ [i]

/-- Write the elements of a list one after the other, from an index on.  This is `memcpy` into a
buffer. -/
def copyAt : CBuffer α → ℕ → List α → CBuffer α
  | b, _, [] => b
  | b, i, a :: l => copyAt (b.store i a) (i + 1) l

/-- A buffer of the given size that has not been overrun. -/
structure Intact (b : CBuffer α) (size : ℕ) : Prop where
  length : b.cells.length = size
  writes : b.WritesBelow size

lemma intact_fresh {cells : List α} {size : ℕ} (h : cells.length = size) :
    (fresh cells).Intact size :=
  ⟨h, fun _ hi => absurd hi List.not_mem_nil⟩

/-- One more write is below the bound if it is and all the others are. -/
lemma writesBelow_store_iff {b : CBuffer α} {size i : ℕ} {a : α} :
    (b.store i a).WritesBelow size ↔ b.WritesBelow size ∧ i < size := by
  simp only [WritesBelow, store, List.forall_mem_append, List.mem_singleton, forall_eq]

/-- A copy stays below the bound if the last index does. -/
lemma writesBelow_copyAt {b : CBuffer α} {size i : ℕ} {l : List α} (h : b.WritesBelow size)
    (hlength : i + l.length ≤ size) : (b.copyAt i l).WritesBelow size := by
  induction l generalizing b i with
  | nil => exact h
  | cons a l ih =>
    rw [List.length_cons] at hlength
    have hstore : (b.store i a).WritesBelow size := writesBelow_store_iff.mpr ⟨h, by omega⟩
    exact ih hstore (by omega)

@[simp] lemma length_cells_copyAt (b : CBuffer α) (i : ℕ) (l : List α) :
    (b.copyAt i l).cells.length = b.cells.length := by
  induction l generalizing b i with
  | nil => rfl
  | cons a l ih =>
    rw [copyAt, ih]
    exact List.length_set

/-- A copy that fits replaces a part of what the buffer holds. -/
lemma cells_copyAt {b : CBuffer α} {i : ℕ} {l : List α} (h : i + l.length ≤ b.cells.length) :
    (b.copyAt i l).cells = b.cells.take i ++ (l ++ b.cells.drop (i + l.length)) := by
  induction l generalizing b i with
  | nil => simp [copyAt]
  | cons a l ih =>
    rw [List.length_cons] at h
    have hi : i < b.cells.length := by omega
    have hset : (b.store i a).cells = b.cells.take i ++ a :: b.cells.drop (i + 1) :=
      List.set_eq_take_append_cons_drop.trans (if_pos hi)
    have hfits : i + 1 + l.length ≤ (b.store i a).cells.length := by
      rw [store, List.length_set]
      omega
    have htake : (b.store i a).cells.take (i + 1) = b.cells.take i ++ [a] := by
      have hlength : (b.cells.take i).length = i := List.length_take_of_le hi.le
      rw [hset, List.take_append, hlength, List.take_of_length_le (by omega)]
      simp
    have hdrop : (b.store i a).cells.drop (i + 1 + l.length) =
        b.cells.drop (i + (l.length + 1)) := by
      rw [store, List.drop_set_of_lt (by omega)]
      congr 1
      omega
    rw [copyAt, ih hfits, htake, hdrop]
    simp

/-- Copies one behind the other are one copy. -/
lemma copyAt_append (b : CBuffer α) (i : ℕ) (l m : List α) :
    b.copyAt i (l ++ m) = (b.copyAt i l).copyAt (i + l.length) m := by
  induction l generalizing b i with
  | nil => rfl
  | cons a l ih =>
    rw [List.cons_append, copyAt, ih, copyAt, List.length_cons]
    congr 1
    omega

section Strings

variable [Zero α] [DecidableEq α]

/-- The string that starts at the beginning of some memory: it ends before the first zero. -/
def cString (memory : List α) : List α :=
  memory.takeWhile (· ≠ 0)

/-- The string in a buffer; its length is what `strlen` returns. -/
def text (b : CBuffer α) : List α :=
  cString b.cells

/-- `strcpy`. -/
def strcpy (b : CBuffer α) (source : List α) : CBuffer α :=
  b.copyAt 0 (cString source ++ [0])

/-- `strncpy`: it writes exactly `n` elements, without a zero behind them. -/
def strncpy (b : CBuffer α) (source : List α) (n : ℕ) : CBuffer α :=
  b.copyAt 0 ((cString source ++ List.replicate n 0).take n)

/-- `strcat`. -/
def strcat (b : CBuffer α) (source : List α) : CBuffer α :=
  b.copyAt b.text.length (cString source ++ [0])

/-- `snprintf` with a positive size, given what is printed. -/
def snprintf (b : CBuffer α) (size : ℕ) (printed : List α) : CBuffer α :=
  b.copyAt 0 (printed.take (size - 1) ++ [0])

/-- A list without zeros that is followed by one. -/
lemma cString_append_zero {l : List α} (h : 0 ∉ l) (rest : List α) :
    cString (l ++ 0 :: rest) = l := by
  have hall : ∀ a ∈ l, decide (a ≠ 0) = true := fun a ha =>
    decide_eq_true fun hzero => h (hzero ▸ ha)
  rw [cString, List.takeWhile_append_of_pos hall, List.takeWhile_cons_of_neg (by simp),
    List.append_nil]

lemma cString_eq_self {l : List α} (h : 0 ∉ l) : cString l = l :=
  List.takeWhile_eq_self_iff.mpr fun _ ha => decide_eq_true fun hzero => h (hzero ▸ ha)

lemma zero_notMem_cString (memory : List α) : 0 ∉ cString memory :=
  fun h => absurd (List.mem_takeWhile_imp h) (by simp)

/-- The beginning of a buffer up to the end of its string is the string. -/
lemma take_length_text (b : CBuffer α) : b.cells.take b.text.length = b.text :=
  (List.prefix_iff_eq_take.mp (List.takeWhile_prefix _)).symm

/-! ### Buffers that hold a string -/

/-- A buffer of the given size holds a string, and no write was beyond its end. -/
structure Holds (b : CBuffer α) (size : ℕ) (string : List α) : Prop where
  length : b.cells.length = size
  text : b.text = string
  writes : b.WritesBelow size

variable {b : CBuffer α} {size : ℕ} {string source : List α}

lemma Holds.intact (h : b.Holds size string) : b.Intact size :=
  ⟨h.length, h.writes⟩

/-- A copy behind the string that a buffer holds. -/
lemma holds_copyAt (h : b.Intact size) {i : ℕ} (hbefore : 0 ∉ b.cells.take i)
    (hsource : 0 ∉ source) (hlength : i + source.length < size) :
    (b.copyAt i (source ++ [0])).Holds size (b.cells.take i ++ source) := by
  have hfits : i + (source ++ [0]).length ≤ b.cells.length := by
    rw [h.length, List.length_append, List.length_singleton]
    omega
  refine ⟨?_, ?_, writesBelow_copyAt h.writes (h.length ▸ hfits)⟩
  · rw [length_cells_copyAt, h.length]
  · have hnone : 0 ∉ b.cells.take i ++ source := by
      rw [List.mem_append, not_or]
      exact ⟨hbefore, hsource⟩
    rw [CBuffer.text, cells_copyAt hfits, List.append_assoc source, ← List.append_assoc]
    exact cString_append_zero hnone _

/-- **Rule** for a copy to the start of a buffer, with a zero behind it. -/
lemma Intact.holds_copy (h : b.Intact size) (hsource : 0 ∉ source)
    (hlength : source.length < size) : (b.copyAt 0 (source ++ [0])).Holds size source :=
  holds_copyAt h List.not_mem_nil hsource (by omega)

/-- **Rule** for `strcpy`. -/
lemma Intact.strcpy (h : b.Intact size) (hlength : (cString source).length < size) :
    (b.strcpy source).Holds size (cString source) :=
  h.holds_copy (zero_notMem_cString source) hlength

/-- **Rule** for `snprintf` of something that is not cut off. -/
lemma Intact.snprintf (h : b.Intact size) (hsource : 0 ∉ source) (hlength : source.length < size) :
    (b.snprintf size source).Holds size source := by
  rw [CBuffer.snprintf, List.take_of_length_le (by omega)]
  exact h.holds_copy hsource hlength

/-- **Rule** for `strcat`. -/
lemma Holds.strcat (h : b.Holds size string) (hsource : 0 ∉ source)
    (hlength : string.length + source.length < size) :
    (b.strcat source).Holds size (string ++ source) := by
  have htake : b.cells.take b.text.length = string := b.take_length_text.trans h.text
  have hzero : 0 ∉ b.cells.take b.text.length := by
    rw [b.take_length_text]
    exact zero_notMem_cString b.cells
  have hcopy := holds_copyAt h.intact hzero hsource (h.text ▸ hlength)
  rw [htake] at hcopy
  rwa [CBuffer.strcat, cString_eq_self hsource]

/-! ### Printing piece by piece -/

/-- Print into a small buffer and append what is there to a larger one. -/
def appendPrinted (size : ℕ) (buffers : CBuffer α × CBuffer α) (printed : List α) :
    CBuffer α × CBuffer α :=
  let small := buffers.2.snprintf size printed
  (buffers.1.strcat small.text, small)

/-- **Loop rule** for printing: if every piece fits the small buffer and all of them together fit the
large one, then all pieces are appended and neither buffer is overrun. -/
lemma holds_foldl_appendPrinted {capacity : ℕ} {pieces : List (List α)}
    (hpieces : ∀ piece ∈ pieces, 0 ∉ piece ∧ piece.length < size)
    {buffers : CBuffer α × CBuffer α} (hlarge : buffers.1.Holds capacity string)
    (hsmall : buffers.2.Intact size)
    (hlength : string.length + pieces.flatten.length < capacity) :
    (pieces.foldl (appendPrinted size) buffers).1.Holds capacity (string ++ pieces.flatten) ∧
      (pieces.foldl (appendPrinted size) buffers).2.Intact size := by
  induction pieces generalizing buffers string with
  | nil =>
    rw [List.flatten_nil, List.append_nil]
    exact ⟨hlarge, hsmall⟩
  | cons piece pieces ih =>
    obtain ⟨hzero, hfits⟩ := hpieces piece List.mem_cons_self
    rw [List.flatten_cons, List.length_append] at hlength
    have hprinted := hsmall.snprintf hzero hfits
    have hlarge' : (appendPrinted size buffers piece).1.Holds capacity (string ++ piece) := by
      rw [appendPrinted, hprinted.text]
      exact hlarge.strcat hzero (by omega)
    have hsmall' : (appendPrinted size buffers piece).2.Intact size := hprinted.intact
    have hrest := ih (fun piece' h => hpieces piece' (List.mem_cons_of_mem piece h)) hlarge' hsmall'
      (by rw [List.length_append]; omega)
    rwa [List.foldl_cons, List.flatten_cons, ← List.append_assoc]

end Strings

end CBuffer

end Library
