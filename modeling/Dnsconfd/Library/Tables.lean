import Mathlib.Data.List.AList
import Mathlib.Data.List.MinMax

/-!
# Hash tables with an unspecified iteration order

A hash table is an association list with distinct keys (`AList`); what a program may rely on is
its lookup function.  An iteration over a table visits every entry once, in an order that the
program does not control: an `Enumeration` is one such order, given as a function that permutes
whatever entries it is asked to visit.

`Table.mapValues` replaces every value in place, `Table.collect` fills a new table while
iterating over an old one and `Table.writeAll` changes a function at the keys it visits; all are
determined up to lookup by what they do at one key.  The last section is about the first entry
of least key met by an iteration, over all orders of it.
-/

namespace Library

/-- A table from keys `κ` to values `α`. -/
abbrev Table (κ α : Type*) := AList (fun _ : κ => α)

/-- One entry of a table, as an iteration delivers it. -/
abbrev Table.Entry (κ α : Type*) := Σ _ : κ, α

/-- An order of iteration: whatever the entries are, each of them is visited exactly once. -/
structure Enumeration (ε : Type*) where
  visit : List ε → List ε
  visit_perm : ∀ l, (visit l).Perm l

namespace Enumeration

variable {ε : Type*}

/-- The order in which the entries are stored. -/
def stored : Enumeration ε where
  visit l := l
  visit_perm l := List.Perm.refl l

@[simp] theorem mem_visit (ν : Enumeration ε) {l : List ε} {e : ε} : e ∈ ν.visit l ↔ e ∈ l :=
  (ν.visit_perm l).mem_iff

@[simp] theorem visit_eq_nil (ν : Enumeration ε) {l : List ε} : ν.visit l = [] ↔ l = [] := by
  constructor
  · intro h
    exact (h ▸ ν.visit_perm l).nil_eq.symm
  · rintro rfl
    exact (ν.visit_perm []).eq_nil

/-- Any two orders visit the same entries. -/
theorem visit_perm_visit (ν ν' : Enumeration ε) {l l' : List ε} (h : l.Perm l') :
    (ν.visit l).Perm (ν'.visit l') :=
  ((ν.visit_perm l).trans h).trans (ν'.visit_perm l').symm

/-- Entries that are changed one by one can be visited in the order of the original ones. -/
theorem exists_visit_map (ν : Enumeration ε) (f : ε → ε) (l : List ε) :
    ∃ ν' : Enumeration ε, ν'.visit (l.map f) = (ν.visit l).map f := by
  classical
  refine ⟨⟨fun l' => if l' = l.map f then (ν.visit l).map f else l', fun l' => ?_⟩, if_pos rfl⟩
  split_ifs with h
  · rw [h]
    exact (ν.visit_perm l).map f
  · exact List.Perm.refl l'

/-- The order that visits the entries satisfying `p` before all others. -/
def first (p : ε → Bool) : Enumeration ε where
  visit l := l.filter p ++ l.filter fun e => !p e
  visit_perm l := List.filter_append_perm p l

end Enumeration

namespace Table

variable {κ α γ : Type*} [DecidableEq κ]

/-- Looking a key up among the visited entries does not depend on the order of the visit. -/
theorem dlookup_visit (ν : Enumeration (Entry κ α)) (t : Table κ α) (k : κ) :
    (ν.visit t.entries).dlookup k = t.lookup k :=
  (List.perm_dlookup k t.nodupKeys (ν.visit_perm t.entries).symm).symm

omit [DecidableEq κ] in
/-- The visited entries have distinct keys. -/
theorem nodupKeys_visit (ν : Enumeration (Entry κ α)) (t : Table κ α) :
    (ν.visit t.entries).NodupKeys :=
  (List.perm_nodupKeys (ν.visit_perm t.entries)).mpr t.nodupKeys

/-- An entry is visited exactly when looking its key up gives its value. -/
theorem mem_visit_iff_lookup (ν : Enumeration (Entry κ α)) (t : Table κ α) {k : κ} {v : α} :
    ⟨k, v⟩ ∈ ν.visit t.entries ↔ t.lookup k = some v := by
  rw [Enumeration.mem_visit]
  exact AList.mem_lookup_iff.symm

/-- Two tables have the same entries, stored in whatever order. -/
def Same (t t' : Table κ α) : Prop :=
  t.entries.Perm t'.entries

omit [DecidableEq κ] in
theorem Same.mem_iff {t t' : Table κ α} (h : t.Same t') {e : Entry κ α} :
    e ∈ t.entries ↔ e ∈ t'.entries :=
  List.Perm.mem_iff h

/-- Tables with the same entries are looked up alike. -/
theorem Same.lookup_eq {t t' : Table κ α} (h : t.Same t') (k : κ) : t.lookup k = t'.lookup k :=
  List.perm_dlookup k t.nodupKeys h

/-- Tables that are looked up alike have the same entries. -/
theorem same_of_lookup {t t' : Table κ α} (h : ∀ k, t.lookup k = t'.lookup k) : t.Same t' :=
  List.lookup_ext t.nodupKeys t'.nodupKeys fun k _ => Option.mem_def.trans (by
    change t.lookup k = _ ↔ t'.lookup k = _
    rw [h k])

/-- Replace every value of a table. -/
def mapValues (f : κ → α → γ) (t : Table κ α) : Table κ γ where
  entries := t.entries.map (.map id f)
  nodupKeys := List.NodupKeys.map₂ f t.entries t.nodupKeys

/-- Replacing every value replaces the one that is looked up. -/
theorem lookup_mapValues (f : κ → α → γ) (t : Table κ α) (k : κ) :
    (t.mapValues f).lookup k = (t.lookup k).map (f k) :=
  List.dlookup_map₂ k

/-- Replacing every value and inserting can be exchanged. -/
theorem mapValues_insert (f : κ → α → γ) (t : Table κ α) (k : κ) (v : α) :
    mapValues f (t.insert k v) = (t.mapValues f).insert k (f k v) := by
  have herase : (List.kerase k t.entries).map (fun e => (⟨e.1, f e.1 e.2⟩ : Entry κ γ)) =
      List.kerase k (t.entries.map fun e => (⟨e.1, f e.1 e.2⟩ : Entry κ γ)) := by
    rw [List.kerase, List.kerase, List.eraseP_map]
    rfl
  exact AList.ext (congrArg (List.cons (⟨k, f k v⟩ : Entry κ γ)) herase)

/-- Insert the value `f` gives for each visited entry, skipping those for which it gives none. -/
def collect (f : κ → α → Option γ) (entries : List (Entry κ α)) : Table κ γ :=
  entries.foldl (fun t e => match f e.1 e.2 with
    | none => t
    | some v => t.insert e.1 v) ∅

/-- Filling a table that already has entries: what is visited goes over what was there. -/
private theorem lookup_foldl_insert (f : κ → α → Option γ) (entries : List (Entry κ α))
    (hnd : entries.NodupKeys) (t : Table κ γ) (k : κ) :
    (entries.foldl (fun t e => match f e.1 e.2 with
      | none => t
      | some v => t.insert e.1 v) t).lookup k =
      ((entries.dlookup k).bind (f k)).or (t.lookup k) := by
  induction entries generalizing t with
  | nil => simp
  | cons e entries ih =>
    obtain ⟨k', v⟩ := e
    rw [List.nodupKeys_cons] at hnd
    rw [List.foldl_cons, ih hnd.2]
    by_cases hk : k = k'
    · subst hk
      have hnone : entries.dlookup k = none := List.dlookup_eq_none.mpr hnd.1
      rw [hnone, List.dlookup_cons_eq]
      cases hf : f k v with
      | none => simp [hf]
      | some w => simp [hf]
    · rw [List.dlookup_cons_ne _ _ hk]
      congr 1
      cases f k' v with
      | none => rfl
      | some w => exact AList.lookup_insert_ne hk

/-- What an iteration that fills a table leaves at one key. -/
theorem lookup_collect (f : κ → α → Option γ) {entries : List (Entry κ α)}
    (hnd : entries.NodupKeys) (k : κ) :
    (collect f entries).lookup k = (entries.dlookup k).bind (f k) := by
  rw [collect, lookup_foldl_insert f entries hnd]
  simp

/-- Filling a table while iterating over `t`: the order does not matter for lookups. -/
@[simp] theorem lookup_collect_visit (f : κ → α → Option γ) (ν : Enumeration (Entry κ α))
    (t : Table κ α) (k : κ) :
    (collect f (ν.visit t.entries)).lookup k = (t.lookup k).bind (f k) := by
  rw [lookup_collect f (nodupKeys_visit ν t), dlookup_visit]

/-- Change a function at the key of each visited entry for which `w` gives a value. -/
def writeAll (w : κ → α → Option γ) (entries : List (Entry κ α)) (z : κ → γ) : κ → γ :=
  entries.foldl (fun z e => match w e.1 e.2 with
    | none => z
    | some v => Function.update z e.1 v) z

/-- What writing leaves at one key: the value written there, or else what was there before. -/
theorem writeAll_apply (w : κ → α → Option γ) {entries : List (Entry κ α)}
    (hnd : entries.NodupKeys) (z : κ → γ) (k : κ) :
    writeAll w entries z k = ((entries.dlookup k).bind (w k)).getD (z k) := by
  induction entries generalizing z with
  | nil => simp [writeAll]
  | cons e entries ih =>
    obtain ⟨k', v⟩ := e
    rw [List.nodupKeys_cons] at hnd
    have hrest := ih hnd.2
    unfold writeAll at hrest ⊢
    rw [List.foldl_cons, hrest]
    by_cases hk : k = k'
    · subst hk
      have hnone : entries.dlookup k = none := List.dlookup_eq_none.mpr hnd.1
      rw [hnone, List.dlookup_cons_eq]
      cases hw : w k v with
      | none => simp [hw]
      | some u => simp [hw]
    · rw [List.dlookup_cons_ne _ _ hk]
      congr 1
      cases w k' v with
      | none => rfl
      | some u => exact Function.update_of_ne hk _ _

/-- Writing while iterating over a table: the order does not matter. -/
theorem writeAll_visit_apply (w : κ → α → Option γ) (ν : Enumeration (Entry κ α)) (t : Table κ α)
    (z : κ → γ) (k : κ) :
    writeAll w (ν.visit t.entries) z k = ((t.lookup k).bind (w k)).getD (z k) := by
  rw [writeAll_apply w (nodupKeys_visit ν t), dlookup_visit]

end Table

/-! ## The first entry of least key -/

section ArgMin

variable {ε α β : Type*} [LinearOrder β] {key : α → β}

/-- The first element of least key stays the first one when elements of no smaller key follow. -/
theorem mem_argmin_append_left {l₁ l₂ : List α} {x : α} (hx : x ∈ l₁.argmin key)
    (hle : ∀ y ∈ l₂, key x ≤ key y) : x ∈ (l₁ ++ l₂).argmin key := by
  induction l₂ using List.reverseRecOn with
  | nil => simpa using hx
  | append_singleton l₂ a ih =>
    have hprev : (l₁ ++ l₂).argmin key = some x :=
      ih fun y hy => hle y (List.mem_append_left _ hy)
    have ha : ¬ key a < key x := not_lt.mpr (hle a (by simp))
    rw [← List.append_assoc, List.argmin_concat, hprev]
    simp [ha]

/-- The first element of least key of two lists in a row is the first one of either list. -/
theorem mem_argmin_of_mem_append {l₁ l₂ : List α} {x : α} (hx : x ∈ (l₁ ++ l₂).argmin key) :
    x ∈ l₁.argmin key ∨ x ∈ l₂.argmin key := by
  induction l₂ using List.reverseRecOn generalizing x with
  | nil => exact Or.inl (by simpa using hx)
  | append_singleton l₂ a ih =>
    rw [← List.append_assoc, List.argmin_concat] at hx
    rw [List.argmin_concat]
    cases hprev : (l₁ ++ l₂).argmin key with
    | none =>
      rw [hprev] at hx
      obtain ⟨-, rfl⟩ := List.append_eq_nil_iff.mp (List.argmin_eq_none.mp hprev)
      exact Or.inr hx
    | some c =>
      rw [hprev] at hx
      have hmin : ∀ y ∈ l₁ ++ l₂, key c ≤ key y := fun y hy => List.le_of_mem_argmin hy hprev
      by_cases hlt : key a < key c
      · simp only [hlt, if_true] at hx
        cases hlast : l₂.argmin key with
        | none => exact Or.inr hx
        | some b =>
          have hb : key a < key b :=
            lt_of_lt_of_le hlt (hmin b (List.mem_append_right _ (List.argmin_mem hlast)))
          simpa [hb] using Or.inr hx
      · simp only [hlt, if_false] at hx
        obtain rfl : c = x := Option.some.inj hx
        rcases ih hprev with h | h
        · exact Or.inl h
        · rw [Option.mem_def] at h
          exact Or.inr (by simp [h, hlt])

/-- The first element of least key met while going through several lists is the first one of
its own list. -/
theorem exists_mem_argmin_of_flatMap {f : ε → List α} {l : List ε} {x : α}
    (hx : x ∈ (l.flatMap f).argmin key) : ∃ e ∈ l, x ∈ (f e).argmin key := by
  induction l with
  | nil => simp at hx
  | cons e l ih =>
    rw [List.flatMap_cons] at hx
    rcases mem_argmin_of_mem_append hx with h | h
    · exact ⟨e, List.mem_cons_self, h⟩
    · obtain ⟨e', he', h'⟩ := ih h
      exact ⟨e', List.mem_cons_of_mem _ he', h'⟩

/-- The elements that some order of iteration meets first among those of least key: each is the
first of least key of its own list, and of least key over all lists. -/
theorem exists_visit_mem_argmin_iff [DecidableEq ε] {f : ε → List α} {l : List ε} {x : α} :
    (∃ ν : Enumeration ε, x ∈ ((ν.visit l).flatMap f).argmin key) ↔
      ∃ e ∈ l, x ∈ (f e).argmin key ∧ ∀ e' ∈ l, ∀ y ∈ f e', key x ≤ key y := by
  constructor
  · rintro ⟨ν, hx⟩
    obtain ⟨e, he, hex⟩ := exists_mem_argmin_of_flatMap hx
    refine ⟨e, ν.mem_visit.mp he, hex, fun e' he' y hy => ?_⟩
    exact List.le_of_mem_argmin (List.mem_flatMap.mpr ⟨e', ν.mem_visit.mpr he', hy⟩) hx
  · rintro ⟨e, he, hex, hmin⟩
    refine ⟨Enumeration.first (· = e), ?_⟩
    obtain ⟨l', hl'⟩ : ∃ l', (Enumeration.first (· = e)).visit l = e :: l' := by
      have hmem : e ∈ l.filter (· = e) := by simpa using he
      cases hfilter : l.filter (· = e) with
      | nil => rw [hfilter] at hmem; simp at hmem
      | cons a l₁ =>
        have ha : a ∈ l.filter (· = e) := by rw [hfilter]; exact List.mem_cons_self
        obtain rfl : a = e := by simpa using (List.mem_filter.mp ha).2
        exact ⟨l₁ ++ l.filter fun b => !(decide (b = a)), by
          simp only [Enumeration.first, hfilter, List.cons_append]⟩
    rw [hl', List.flatMap_cons]
    refine mem_argmin_append_left hex fun y hy => ?_
    obtain ⟨e', he', hy'⟩ := List.mem_flatMap.mp hy
    have hmem : e' ∈ (Enumeration.first (· = e)).visit l := by
      rw [hl']; exact List.mem_cons_of_mem _ he'
    exact hmin e' (Enumeration.mem_visit _ |>.mp hmem) y hy'

end ArgMin

end Library
