import Mathlib.Data.List.Range
import Dnsconfd.Library.Tables

/-!
# Records on a heap

A heap holds records at addresses.  Records are allocated, overwritten and released; a heap notes
whether a record has been read, overwritten or released at an address where there is none, which
covers reading a released record and releasing a record twice.

`h.Owns owned` says that nothing of that kind has happened and that `owned` lists the address of
every record of the heap exactly once.  The rules for it say of each operation which addresses it
needs and which it leaves, so that a program is followed by moving addresses between the lists that
own them: whatever can be released is in exactly one of them, and what is left over at the end was
never released.  `h.Keeps h' as` is the frame condition, that the records at `as` are the same.
-/

namespace Library

/-- An address of a record. -/
abbrev Addr := ℕ

/-- Records by their addresses, with a note whether an address without a record was ever used. -/
structure Heap (α : Type) where
  cells : List (Option α)
  misused : Bool

namespace Heap

variable {α : Type}

/-- The heap without records. -/
def empty : Heap α where
  cells := []
  misused := false

/-- The record at an address, if there is one. -/
def read (h : Heap α) (a : Addr) : Option α :=
  (h.cells[a]?).join

/-- There is a record at an address. -/
def isLive (h : Heap α) (a : Addr) : Bool :=
  (h.read a).isSome

/-- The address at which the next record is allocated. -/
def next (h : Heap α) : Addr :=
  h.cells.length

/-- Allocate a record, at the address `h.next`. -/
def alloc (h : Heap α) (x : α) : Heap α :=
  { h with cells := h.cells ++ [some x] }

/-- Note the use of records. -/
def touch (h : Heap α) (as : List Addr) : Heap α :=
  { h with misused := h.misused || !as.all h.isLive }

/-- Overwrite a record. -/
def write (h : Heap α) (a : Addr) (x : α) : Heap α :=
  { h.touch [a] with cells := h.cells.set a (some x) }

/-- Release a record. -/
def free (h : Heap α) (a : Addr) : Heap α :=
  { h.touch [a] with cells := h.cells.set a none }

/-- Release records one after the other. -/
def freeAll (h : Heap α) (as : List Addr) : Heap α :=
  as.foldl free h

/-- Allocate records one after the other. -/
def allocAll (h : Heap α) (xs : List α) : Heap α :=
  xs.foldl alloc h

/-- The addresses at which `allocAll` allocates the next `n` records. -/
def fresh (h : Heap α) (n : ℕ) : List Addr :=
  List.range' h.next n

/-! ## Reading after an operation -/

lemma read_eq_none_of_next_le {h : Heap α} {a : Addr} (ha : h.next ≤ a) : h.read a = none := by
  rw [read, List.getElem?_eq_none ha]
  rfl

lemma lt_next_of_isLive {h : Heap α} {a : Addr} (ha : h.isLive a = true) : a < h.next := by
  by_contra hle
  rw [isLive, read_eq_none_of_next_le (not_lt.mp hle)] at ha
  cases ha

@[simp] lemma read_touch (h : Heap α) (as : List Addr) (a : Addr) :
    (h.touch as).read a = h.read a := rfl

@[simp] lemma next_alloc (h : Heap α) (x : α) : (h.alloc x).next = h.next + 1 := by
  simp [alloc, next]

/-- The new record is at the next address, and the others are where they were. -/
lemma read_alloc (h : Heap α) (x : α) (a : Addr) :
    (h.alloc x).read a = if a = h.next then some x else h.read a := by
  unfold read alloc next
  rcases lt_trichotomy a h.cells.length with hlt | heq | hgt
  · rw [List.getElem?_append_left hlt, if_neg hlt.ne]
  · rw [heq, List.getElem?_concat_length, if_pos rfl]
    rfl
  · have hout : h.cells.length + 1 ≤ a := hgt
    rw [if_neg hgt.ne', List.getElem?_eq_none (by simpa using hout), List.getElem?_eq_none hgt.le]

/-- Setting a cell changes what is read at its address only. -/
lemma join_getElem?_set (cells : List (Option α)) (a b : Addr) (c : Option α) :
    ((cells.set a c)[b]?).join =
      if b = a ∧ a < cells.length then c else (cells[b]?).join := by
  rw [List.getElem?_set]
  by_cases hab : a = b
  · subst hab
    by_cases hlt : a < cells.length
    · simp [hlt]
    · simp [hlt]
  · simp [hab, Ne.symm hab]

lemma read_free (h : Heap α) (a b : Addr) :
    (h.free a).read b = if b = a then none else h.read b := by
  change ((h.cells.set a none)[b]?).join = _
  rw [join_getElem?_set]
  by_cases hab : b = a
  · subst hab
    by_cases hlt : b < h.cells.length
    · simp [hlt]
    · simp [hlt]
  · simp [hab, read]

lemma read_write {h : Heap α} {a : Addr} (ha : h.isLive a = true) (x : α) (b : Addr) :
    (h.write a x).read b = if b = a then some x else h.read b := by
  change ((h.cells.set a (some x))[b]?).join = _
  have hlt : a < h.cells.length := lt_next_of_isLive ha
  rw [join_getElem?_set]
  simp [hlt, read]

/-! ## Frames -/

/-- The records at the given addresses are the same in two heaps. -/
def Keeps (h h' : Heap α) (as : List Addr) : Prop :=
  ∀ a ∈ as, h'.read a = h.read a

lemma Keeps.refl (h : Heap α) (as : List Addr) : h.Keeps h as :=
  fun _ _ => rfl

lemma Keeps.trans {h₁ h₂ h₃ : Heap α} {as : List Addr} (h₁₂ : h₁.Keeps h₂ as)
    (h₂₃ : h₂.Keeps h₃ as) : h₁.Keeps h₃ as :=
  fun a ha => (h₂₃ a ha).trans (h₁₂ a ha)

lemma Keeps.subset {h h' : Heap α} {as bs : List Addr} (hk : h.Keeps h' as) (hsub : bs ⊆ as) :
    h.Keeps h' bs :=
  fun a ha => hk a (hsub ha)

/-! ## Reading several records -/

section Values

variable [Inhabited α]

/-- The record at an address at which there is one. -/
def value (h : Heap α) (a : Addr) : α :=
  (h.read a).getD default

/-- The records at several addresses. -/
def values (h : Heap α) (as : List Addr) : List α :=
  as.map h.value

@[simp] lemma values_append (h : Heap α) (as bs : List Addr) :
    h.values (as ++ bs) = h.values as ++ h.values bs :=
  List.map_append

lemma Keeps.value {h h' : Heap α} {as : List Addr} (hk : h.Keeps h' as) {a : Addr} (ha : a ∈ as) :
    h'.value a = h.value a := by
  rw [Heap.value, Heap.value, hk a ha]

lemma Keeps.values {h h' : Heap α} {as : List Addr} (hk : h.Keeps h' as) :
    h'.values as = h.values as :=
  List.map_congr_left fun _ ha => hk.value ha

end Values

/-! ## Ownership -/

/-- Every use of the heap so far was that of a record, and the list has the address of every record
exactly once. -/
structure Owns (h : Heap α) (owned : List Addr) : Prop where
  used : h.misused = false
  nodup : owned.Nodup
  isLive_iff : ∀ a, h.isLive a = true ↔ a ∈ owned

namespace Owns

variable {h : Heap α} {owned rest as : List Addr} {a : Addr} {x : α}

lemma empty : (Heap.empty : Heap α).Owns [] where
  used := rfl
  nodup := List.nodup_nil
  isLive_iff a := by simp [isLive, read, Heap.empty]

/-- The order in which the addresses are listed does not matter. -/
lemma perm (ho : h.Owns owned) (hp : owned.Perm rest) : h.Owns rest where
  used := ho.used
  nodup := hp.nodup_iff.mp ho.nodup
  isLive_iff a := by rw [ho.isLive_iff, hp.mem_iff]

/-- Records that are owned can be used. -/
lemma touch (ho : h.Owns owned) (hsub : as ⊆ owned) : h.touch as = h := by
  have hlive : as.all h.isLive = true :=
    List.all_eq_true.mpr fun a ha => (ho.isLive_iff a).mpr (hsub ha)
  unfold Heap.touch
  rw [hlive, Bool.not_true, Bool.or_false]

lemma lt_next (ho : h.Owns owned) (ha : a ∈ owned) : a < h.next :=
  lt_next_of_isLive ((ho.isLive_iff a).mpr ha)

/-- A new record is owned besides the others. -/
lemma alloc (ho : h.Owns owned) (x : α) : (h.alloc x).Owns (h.next :: owned) where
  used := ho.used
  nodup := List.nodup_cons.mpr ⟨fun hmem => absurd (ho.lt_next hmem) (lt_irrefl _), ho.nodup⟩
  isLive_iff a := by
    rw [isLive, read_alloc, List.mem_cons, ← ho.isLive_iff a, isLive]
    split_ifs with heq
    · simp [heq]
    · simp [heq]

lemma alloc_keeps (ho : h.Owns owned) (x : α) : h.Keeps (h.alloc x) owned := by
  intro a ha
  rw [read_alloc, if_neg (ho.lt_next ha).ne]

/-- A record that is owned can be overwritten. -/
lemma write (ho : h.Owns (a :: rest)) (x : α) : (h.write a x).Owns (a :: rest) := by
  have hlive : h.isLive a = true := (ho.isLive_iff a).mpr List.mem_cons_self
  refine ⟨?_, ho.nodup, fun b => ?_⟩
  · have htouch : h.touch [a] = h := ho.touch (by simp)
    exact (congrArg Heap.misused htouch).trans ho.used
  · rw [← ho.isLive_iff b, isLive, isLive, read_write hlive]
    split_ifs with hb
    · subst hb
      rw [isLive] at hlive
      simp [hlive]
    · exact Iff.rfl

lemma read_write_self (ho : h.Owns (a :: rest)) (x : α) : (h.write a x).read a = some x := by
  rw [read_write ((ho.isLive_iff a).mpr List.mem_cons_self), if_pos rfl]

lemma write_keeps (ho : h.Owns (a :: rest)) (x : α) : h.Keeps (h.write a x) rest := by
  intro b hb
  have hne : b ≠ a := fun heq => (List.nodup_cons.mp ho.nodup).1 (heq ▸ hb)
  rw [read_write ((ho.isLive_iff a).mpr List.mem_cons_self), if_neg hne]

/-- A record that is owned can be released, once. -/
lemma free (ho : h.Owns (a :: rest)) : (h.free a).Owns rest := by
  obtain ⟨hnot, hnodup⟩ := List.nodup_cons.mp ho.nodup
  refine ⟨?_, hnodup, fun b => ?_⟩
  · have htouch : h.touch [a] = h := ho.touch (by simp)
    exact (congrArg Heap.misused htouch).trans ho.used
  · rw [isLive, read_free]
    split_ifs with hb
    · subst hb
      simpa using hnot
    · have hiff := ho.isLive_iff b
      rw [isLive, List.mem_cons] at hiff
      rw [hiff]
      exact or_iff_right hb

lemma free_keeps (ho : h.Owns (a :: rest)) : h.Keeps (h.free a) rest := by
  intro b hb
  have hne : b ≠ a := fun heq => (List.nodup_cons.mp ho.nodup).1 (heq ▸ hb)
  rw [read_free, if_neg hne]

/-- Records that are owned can all be released. -/
lemma freeAll (ho : h.Owns (as ++ rest)) : (h.freeAll as).Owns rest := by
  induction as generalizing h with
  | nil => exact ho
  | cons a as ih => exact ih ho.free

lemma freeAll_keeps (ho : h.Owns (as ++ rest)) : h.Keeps (h.freeAll as) rest := by
  induction as generalizing h with
  | nil => exact Keeps.refl h rest
  | cons a as ih => exact (ho.free_keeps.subset (List.subset_append_right as rest)).trans (ih ho.free)

/-- The new records are owned besides the others. -/
lemma allocAll (ho : h.Owns owned) (xs : List α) :
    (h.allocAll xs).Owns (h.fresh xs.length ++ owned) := by
  induction xs generalizing h owned with
  | nil => exact ho
  | cons x xs ih =>
    have hrest := ih (ho.alloc x)
    have hnext : (h.alloc x).fresh xs.length = List.range' (h.next + 1) xs.length := by
      rw [fresh, next_alloc]
    rw [hnext] at hrest
    exact hrest.perm List.perm_middle

lemma allocAll_keeps (ho : h.Owns owned) (xs : List α) : h.Keeps (h.allocAll xs) owned := by
  induction xs generalizing h owned with
  | nil => exact Keeps.refl h owned
  | cons x xs ih =>
    exact (ho.alloc_keeps x).trans ((ih (ho.alloc x)).subset (List.subset_cons_self _ _))

/-- The new records are the given ones. -/
lemma values_allocAll [Inhabited α] (ho : h.Owns owned) (xs : List α) :
    (h.allocAll xs).values (h.fresh xs.length) = xs := by
  induction xs generalizing h owned with
  | nil => rfl
  | cons x xs ih =>
    have hhead : (h.allocAll (x :: xs)).value h.next = x := by
      have hkeeps := (ho.alloc x).allocAll_keeps xs
      change ((h.alloc x).allocAll xs).value h.next = x
      rw [hkeeps.value List.mem_cons_self, Heap.value, read_alloc, if_pos rfl]
      rfl
    have htail : (h.allocAll (x :: xs)).values (List.range' (h.next + 1) xs.length) = xs := by
      have hrest := ih (ho.alloc x)
      rw [fresh, next_alloc] at hrest
      exact hrest
    change (h.allocAll (x :: xs)).value h.next ::
      (h.allocAll (x :: xs)).values (List.range' (h.next + 1) xs.length) = x :: xs
    rw [hhead, htail]

end Owns

/-! ## Records in tables -/

section Tables

variable {κ β : Type} [DecidableEq κ]

/-- The addresses in a table. -/
def addrs (t : Table κ (List Addr)) : List Addr :=
  t.entries.flatMap fun e => e.2

/-- The records in a table. -/
def readTable [Inhabited α] (h : Heap α) (t : Table κ (List Addr)) : Table κ (List α) :=
  t.mapValues fun _ as => h.values as

omit [DecidableEq κ] in
lemma Keeps.readTable [Inhabited α] {h h' : Heap α} {t : Table κ (List Addr)}
    (hk : h.Keeps h' (addrs t)) : h'.readTable t = h.readTable t := by
  refine AList.ext (List.map_congr_left fun e he => ?_)
  have hsub : e.2 ⊆ addrs t := fun a ha => List.mem_flatMap.mpr ⟨e, he, ha⟩
  have hvalues : h'.values e.2 = h.values e.2 := (hk.subset hsub).values
  exact congrArg (Sigma.mk e.1) hvalues

/-- What is inserted is read where it is inserted. -/
lemma readTable_insert [Inhabited α] (h : Heap α) (t : Table κ (List Addr)) (k : κ)
    (as : List Addr) : h.readTable (t.insert k as) = (h.readTable t).insert k (h.values as) :=
  Table.mapValues_insert _ t k as

/-- An insertion brings its own addresses only. -/
lemma addrs_insert_subset (t : Table κ (List Addr)) (k : κ) (as : List Addr) :
    addrs (t.insert k as) ⊆ as ++ addrs t := by
  intro a ha
  obtain ⟨e, he, hmem⟩ := List.mem_flatMap.mp ha
  rw [AList.entries_insert, List.mem_cons] at he
  rcases he with rfl | he
  · exact List.mem_append_left _ hmem
  · have hold : e ∈ t.entries := (List.kerase_sublist k t.entries).subset he
    exact List.mem_append_right _ (List.mem_flatMap.mpr ⟨e, hold, hmem⟩)

lemma addrs_insert_of_notMem {t : Table κ (List Addr)} {k : κ} (hk : k ∉ t) (as : List Addr) :
    addrs (t.insert k as) = as ++ addrs t := by
  rw [addrs, AList.entries_insert_of_notMem hk, List.flatMap_cons]
  rfl

/-- Fill a table with new records while iterating over another one, skipping entries for which
`f` gives none. -/
def collectFresh (f : κ → β → Option (List α)) (entries : List (Table.Entry κ β)) (h : Heap α) :
    Heap α × Table κ (List Addr) :=
  entries.foldl (fun r e => match f e.1 e.2 with
    | none => r
    | some xs => (r.1.allocAll xs, r.2.insert e.1 (r.1.fresh xs.length))) (h, ∅)

/-- Filling a table that has entries under other keys.  Both loops, the one over addresses and the
one over values, are given by what they do at an entry. -/
private lemma foldl_fresh [Inhabited α] {f : κ → β → Option (List α)}
    {step : Heap α × Table κ (List Addr) → Table.Entry κ β → Heap α × Table κ (List Addr)}
    {store : Table κ (List α) → Table.Entry κ β → Table κ (List α)}
    (hskip : ∀ r e, f e.1 e.2 = none → step r e = r)
    (hstep : ∀ r e xs, f e.1 e.2 = some xs →
      step r e = (r.1.allocAll xs, r.2.insert e.1 (r.1.fresh xs.length)))
    (hpass : ∀ t e, f e.1 e.2 = none → store t e = t)
    (hstore : ∀ t e xs, f e.1 e.2 = some xs → store t e = t.insert e.1 xs)
    {entries : List (Table.Entry κ β)} (hnd : entries.NodupKeys)
    {r : Heap α × Table κ (List Addr)} {owned : List Addr} (hnew : ∀ e ∈ entries, e.1 ∉ r.2)
    (ho : r.1.Owns (addrs r.2 ++ owned)) :
    (entries.foldl step r).1.Owns (addrs (entries.foldl step r).2 ++ owned) ∧
      r.1.Keeps (entries.foldl step r).1 owned ∧
      (entries.foldl step r).1.readTable (entries.foldl step r).2 =
        entries.foldl store (r.1.readTable r.2) := by
  induction entries generalizing r with
  | nil => exact ⟨ho, Keeps.refl _ _, rfl⟩
  | cons e entries ih =>
    obtain ⟨hk, hnd⟩ := List.nodupKeys_cons.mp hnd
    have hrest : ∀ e ∈ entries, e.1 ∉ r.2 := fun e he => hnew e (List.mem_cons_of_mem _ he)
    rw [List.foldl_cons, List.foldl_cons]
    cases hf : f e.1 e.2 with
    | none =>
      rw [hskip r e hf, hpass _ e hf]
      exact ih hnd hrest ho
    | some xs =>
      have hkr : e.1 ∉ r.2 := hnew e List.mem_cons_self
      have howns : (r.1.allocAll xs).Owns
          (addrs (r.2.insert e.1 (r.1.fresh xs.length)) ++ owned) := by
        rw [addrs_insert_of_notMem hkr, List.append_assoc]
        exact ho.allocAll xs
      have hfresh : ∀ e' ∈ entries, e'.1 ∉ r.2.insert e.1 (r.1.fresh xs.length) := by
        intro e' he' hmem
        rcases (AList.mem_insert _).mp hmem with heq | hmem
        · exact hk (heq ▸ List.mem_keys_of_mem he')
        · exact hrest e' he' hmem
      have hread : (r.1.allocAll xs).readTable (r.2.insert e.1 (r.1.fresh xs.length)) =
          (r.1.readTable r.2).insert e.1 xs := by
        have hold : r.1.Keeps (r.1.allocAll xs) (addrs r.2) :=
          (ho.allocAll_keeps xs).subset (List.subset_append_left _ _)
        rw [readTable_insert, ho.values_allocAll, hold.readTable]
      rw [hstep r e xs hf, hstore _ e xs hf, ← hread]
      obtain ⟨howns', hkeeps', hread'⟩ :=
        ih (r := (r.1.allocAll xs, r.2.insert e.1 (r.1.fresh xs.length))) hnd hfresh howns
      exact ⟨howns', ((ho.allocAll_keeps xs).subset (List.subset_append_right _ _)).trans hkeeps',
        hread'⟩

/-- The filled table owns its records, and read back it is the table filled with values. -/
lemma Owns.collectFresh [Inhabited α] {h : Heap α} {owned : List Addr} (ho : h.Owns owned)
    (f : κ → β → Option (List α)) {entries : List (Table.Entry κ β)} (hnd : entries.NodupKeys) :
    (Heap.collectFresh f entries h).1.Owns (addrs (Heap.collectFresh f entries h).2 ++ owned) ∧
      h.Keeps (Heap.collectFresh f entries h).1 owned ∧
      (Heap.collectFresh f entries h).1.readTable (Heap.collectFresh f entries h).2 =
        Table.collect f entries := by
  have hempty : h.readTable (∅ : Table κ (List Addr)) = ∅ := rfl
  rw [Table.collect, ← hempty]
  refine foldl_fresh (f := f) (r := (h, ∅)) ?_ ?_ ?_ ?_ hnd (by simp) ho
  · intro r e hf
    simp only [hf]
  · intro r e xs hf
    simp only [hf]
  · intro t e hf
    simp only [hf]
  · intro t e xs hf
    simp only [hf]

end Tables

end Heap

end Library
