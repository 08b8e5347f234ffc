import Mathlib.Data.List.Sort

/-!
# Stable sorting of one list

A sorting function of a library is only asked to sort lists on whose elements the comparison is a
total preorder (`TotalPreorderOn`).  `IsStableSort` says what it then returns: a rearrangement in
order, in which tied elements stand as they stood in the input.  If the comparison is that of a
key, the result is sorted by the key and keeps the order of the elements of each key
(`IsStableSort.pairwise_key`, `IsStableSort.filter_key_eq`).  Insertion sort is such a function
(`isStableSort_insertionSort`).
-/

namespace Library

variable {α : Type*} {le : α → α → Prop} {l l' : List α}

/-- On the elements of a list any two are related, and the relation is transitive. -/
structure TotalPreorderOn (le : α → α → Prop) (l : List α) : Prop where
  total : ∀ a ∈ l, ∀ b ∈ l, le a b ∨ le b a
  trans : ∀ a ∈ l, ∀ b ∈ l, ∀ c ∈ l, le a b → le b c → le a c

/-- A list is rearranged in order, and elements that are all tied keep theirs. -/
structure IsStableSort (le : α → α → Prop) (l l' : List α) : Prop where
  perm : l'.Perm l
  pairwise : l'.Pairwise le
  filter_tied : ∀ q : α → Bool,
    (∀ a ∈ l, ∀ b ∈ l, q a = true → q b = true → le a b) → l'.filter q = l.filter q

lemma TotalPreorderOn.tail {a : α} (h : TotalPreorderOn le (a :: l)) : TotalPreorderOn le l where
  total x hx y hy := h.total x (List.mem_cons_of_mem a hx) y (List.mem_cons_of_mem a hy)
  trans x hx y hy z hz := h.trans x (List.mem_cons_of_mem a hx) y (List.mem_cons_of_mem a hy) z
    (List.mem_cons_of_mem a hz)

lemma TotalPreorderOn.perm (h : TotalPreorderOn le l) (hp : l'.Perm l) :
    TotalPreorderOn le l' where
  total x hx y hy := h.total x (hp.mem_iff.mp hx) y (hp.mem_iff.mp hy)
  trans x hx y hy z hz := h.trans x (hp.mem_iff.mp hx) y (hp.mem_iff.mp hy) z (hp.mem_iff.mp hz)

/-! ## Sorting by a key -/

section Key

variable {κ : Type*} [LinearOrder κ] {key : α → κ}

/-- The comparison of keys, larger ones first, is a total preorder. -/
lemma totalPreorderOn_of_key (h : ∀ a ∈ l, ∀ b ∈ l, le a b ↔ key b ≤ key a) :
    TotalPreorderOn le l where
  total a ha b hb := by
    rw [h a ha b hb, h b hb a ha]
    exact le_total _ _
  trans a ha b hb c hc := by
    rw [h a ha b hb, h b hb c hc, h a ha c hc]
    exact fun hba hcb => hcb.trans hba

/-- A list sorted by the comparison of keys has them in descending order. -/
lemma IsStableSort.pairwise_key (hs : IsStableSort le l l')
    (h : ∀ a ∈ l, ∀ b ∈ l, le a b ↔ key b ≤ key a) : l'.Pairwise fun a b => key b ≤ key a := by
  refine hs.pairwise.imp_of_mem fun ha hb hle => ?_
  exact (h _ (hs.perm.mem_iff.mp ha) _ (hs.perm.mem_iff.mp hb)).mp hle

/-- The elements of one key stand in the order in which they stood. -/
lemma IsStableSort.filter_key_eq (hs : IsStableSort le l l')
    (h : ∀ a ∈ l, ∀ b ∈ l, le a b ↔ key b ≤ key a) (k : κ) :
    l'.filter (fun y => decide (key y = k)) = l.filter fun y => decide (key y = k) := by
  refine hs.filter_tied _ fun a ha b hb hka hkb => ?_
  have hkeys : key b = key a := (of_decide_eq_true hkb).trans (of_decide_eq_true hka).symm
  exact (h a ha b hb).mpr hkeys.le

end Key

/-! ## Insertion sort -/

variable [DecidableRel le]

/-- Inserting into a sorted list gives a sorted list. -/
lemma pairwise_orderedInsert {a : α} (h : TotalPreorderOn le (a :: l)) (hl : l.Pairwise le) :
    (l.orderedInsert le a).Pairwise le := by
  induction l with
  | nil => simp
  | cons b l ih =>
    have ha : a ∈ a :: b :: l := List.mem_cons_self
    have hb : b ∈ a :: b :: l := List.mem_cons_of_mem a List.mem_cons_self
    obtain ⟨hbl, hl⟩ := List.pairwise_cons.mp hl
    by_cases hab : le a b
    · rw [List.orderedInsert_cons_of_le le l hab, List.pairwise_cons]
      refine ⟨fun c hc => ?_, List.pairwise_cons.mpr ⟨hbl, hl⟩⟩
      rcases List.mem_cons.mp hc with rfl | hcl
      · exact hab
      · exact h.trans a ha b hb c (by simp [hcl]) hab (hbl c hcl)
    · have hba : le b a := (h.total a ha b hb).resolve_left hab
      have hsub : TotalPreorderOn le (a :: l) := (h.perm (List.Perm.swap a b l)).tail
      rw [List.orderedInsert_of_not_le le l hab, List.pairwise_cons]
      refine ⟨fun c hc => ?_, ih hsub hl⟩
      rcases (List.mem_orderedInsert le).mp hc with rfl | hcl
      · exact hba
      · exact hbl c hcl

/-- Inserting an element puts it before those it is tied with. -/
lemma filter_orderedInsert {a : α} {q : α → Bool}
    (h : ∀ b ∈ l, q a = true → q b = true → le a b) :
    (l.orderedInsert le a).filter q = (a :: l).filter q := by
  induction l with
  | nil => rfl
  | cons b l ih =>
    by_cases hab : le a b
    · rw [List.orderedInsert_cons_of_le le l hab]
    · -- `b` is passed over, so at most one of the two is among the tied elements
      have hone : ¬ (q a = true ∧ q b = true) := fun hq => hab (h b List.mem_cons_self hq.1 hq.2)
      have hrest := ih fun c hc => h c (List.mem_cons_of_mem b hc)
      rw [List.orderedInsert_of_not_le le l hab, List.filter_cons, hrest]
      by_cases hqb : q b = true
      · have hqa : q a = false := by simpa [hqb] using hone
        simp [hqa, hqb]
      · simp [hqb, List.filter_cons]

/-- Insertion sort is a stable sort. -/
theorem isStableSort_insertionSort (h : TotalPreorderOn le l) :
    IsStableSort le l (l.insertionSort le) := by
  induction l with
  | nil => exact ⟨List.Perm.refl [], List.Pairwise.nil, fun q _ => rfl⟩
  | cons a l ih =>
    have hs := ih h.tail
    have hperm : (a :: l.insertionSort le).Perm (a :: l) := hs.perm.cons a
    rw [List.insertionSort_cons]
    refine ⟨(List.perm_orderedInsert le a _).trans hperm,
      pairwise_orderedInsert (h.perm hperm) hs.pairwise, fun q hq => ?_⟩
    have hrest := hs.filter_tied q fun b hb c hc =>
      hq b (List.mem_cons_of_mem a hb) c (List.mem_cons_of_mem a hc)
    have ha : ∀ b ∈ l.insertionSort le, q a = true → q b = true → le a b := by
      intro b hb
      exact hq a List.mem_cons_self b (hperm.mem_iff.mp (List.mem_cons_of_mem a hb))
    rw [filter_orderedInsert ha, List.filter_cons, List.filter_cons, hrest]

end Library
