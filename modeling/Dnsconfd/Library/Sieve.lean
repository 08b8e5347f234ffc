import Mathlib.Data.List.Induction
import Mathlib.Data.List.Nodup

/-!
# Keeping what does not conflict with what is kept

A loop that goes through a list and keeps an element unless it conflicts with one kept before
(`sieve`).  The result is a sublist without conflicts that contains everything it can
(`sieve_concat` says what happens to the next element), and a list without conflicts is kept as it
is.  With equality as the conflict the loop removes duplicates (`sieve_eq_eraseDups`).
-/

namespace Library

variable {α : Type*} {conflict : α → α → Bool}

/-- Keep an element unless it conflicts with one that is kept. -/
def sieveStep (conflict : α → α → Bool) (kept : List α) (a : α) : List α :=
  if kept.any (conflict a) then kept else kept ++ [a]

/-- Go through a list and keep what does not conflict with what is kept. -/
def sieve (conflict : α → α → Bool) (l : List α) : List α :=
  l.foldl (sieveStep conflict) []

/-- The last element is kept unless it conflicts with one kept before it. -/
lemma sieve_concat (l : List α) (a : α) :
    sieve conflict (l ++ [a]) = sieveStep conflict (sieve conflict l) a := by
  unfold sieve
  rw [List.foldl_append]
  rfl

/-- What has been kept stays. -/
lemma sieve_prefix_append (l l' : List α) : sieve conflict l <+: sieve conflict (l ++ l') := by
  induction l' using List.reverseRecOn with
  | nil =>
    have hsame : sieve conflict (l ++ []) = sieve conflict l := by rw [List.append_nil]
    exact hsame ▸ List.prefix_refl _
  | append_singleton l' a ih =>
    rw [← List.append_assoc, sieve_concat]
    refine ih.trans ?_
    unfold sieveStep
    split_ifs
    · exact List.prefix_refl _
    · exact List.prefix_append _ _

/-- What is kept stands in the order of the list. -/
lemma sieve_sublist (l : List α) : (sieve conflict l).Sublist l := by
  induction l using List.reverseRecOn with
  | nil => exact List.Sublist.refl []
  | append_singleton l a ih =>
    rw [sieve_concat, sieveStep]
    split_ifs
    · exact ih.trans (List.sublist_append_left l [a])
    · exact ih.append (List.Sublist.refl [a])

/-- Nothing that is kept conflicts with anything kept before it. -/
lemma pairwise_sieve (l : List α) :
    (sieve conflict l).Pairwise fun a b => conflict b a = false := by
  induction l using List.reverseRecOn with
  | nil => exact List.Pairwise.nil
  | append_singleton l a ih =>
    rw [sieve_concat, sieveStep]
    split_ifs with hany
    · exact ih
    · have hnone : ∀ b ∈ sieve conflict l, conflict a b = false := by simpa using hany
      refine List.pairwise_append.mpr ⟨ih, List.pairwise_singleton _ a, fun b hb c hc => ?_⟩
      rw [List.mem_singleton.mp hc]
      exact hnone b hb

/-- A list without conflicts is kept as it is. -/
lemma sieve_eq_self {l : List α} (h : l.Pairwise fun a b => conflict b a = false) :
    sieve conflict l = l := by
  induction l using List.reverseRecOn with
  | nil => rfl
  | append_singleton l a ih =>
    obtain ⟨hl, -, ha⟩ := List.pairwise_append.mp h
    have hnone : (l.any (conflict a)) = false := by
      simpa using fun b hb => ha b hb a (List.mem_singleton.mpr rfl)
    rw [sieve_concat, ih hl, sieveStep, hnone]
    rfl

/-- Going through the kept elements again keeps all of them. -/
lemma sieve_sieve (l : List α) : sieve conflict (sieve conflict l) = sieve conflict l :=
  sieve_eq_self (pairwise_sieve l)

/-- Removing duplicates appends the last element if it is new. -/
lemma eraseDups_concat [DecidableEq α] (l : List α) (a : α) :
    (l ++ [a]).eraseDups = if a ∈ l then l.eraseDups else l.eraseDups ++ [a] := by
  rw [List.eraseDups_append]
  split_ifs with ha
  · simp [ha, List.removeAll]
  · simp [ha, List.removeAll, List.eraseDups_cons]

/-- With equality as the conflict, the first occurrence of each element is kept. -/
theorem sieve_eq_eraseDups [DecidableEq α] (l : List α) :
    sieve (fun a b => decide (a = b)) l = l.eraseDups := by
  induction l using List.reverseRecOn with
  | nil => rfl
  | append_singleton l a ih =>
    have hmem : l.eraseDups.any (fun b => decide (a = b)) = decide (a ∈ l) := by
      rw [Bool.eq_iff_iff]
      simp
    rw [sieve_concat, ih, eraseDups_concat, sieveStep, hmem]
    simp

/-- Without duplicates nothing is left twice. -/
lemma nodup_eraseDups [DecidableEq α] (l : List α) : l.eraseDups.Nodup := by
  rw [← sieve_eq_eraseDups, List.nodup_iff_pairwise_ne]
  refine (pairwise_sieve l).imp fun {a b} h heq => ?_
  simp [heq] at h

end Library
