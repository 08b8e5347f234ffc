import Mathlib.Data.List.Basic

/-!
# Work queues

A work queue takes the first node from a queue, works on it and appends the nodes that this asks for.
The graph of the nodes may have cycles, so a bound on the number of nodes ends the loop as well.

What such a loop does is best said of the trees that the graph unfolds to: `levels children d nodes`
are the nodes of the first `d` levels below the given ones, one level after the other, and a finite
tree is one with a bound on the nodes in its levels.  The nodes are visited in this order
(`visited_prefix_levels`), and the queue runs empty exactly if the trees have no more nodes than
allowed and the work on each of them succeeds (`workQueue_emptied_iff`).
-/

namespace Library

/-! ## Levels -/

section Levels

variable {α : Type*} (children : α → List α)

/-- The nodes in the first `d` levels below the given ones, one level after the other. -/
def levels : ℕ → List α → List α
  | 0, _ => []
  | d + 1, nodes => nodes ++ levels d (nodes.flatMap children)

/-- The first `n` nodes of a queue to which the children of each node are appended. -/
def served : ℕ → List α → List α
  | 0, _ => []
  | _ + 1, [] => []
  | n + 1, a :: queue => a :: served n (queue ++ children a)

@[simp] lemma levels_nil (d : ℕ) : levels children d [] = [] := by
  induction d with
  | zero => rfl
  | succ d ih => rw [levels, List.flatMap_nil, ih, List.append_nil]

lemma levels_prefix_succ (d : ℕ) (nodes : List α) :
    levels children d nodes <+: levels children (d + 1) nodes := by
  induction d generalizing nodes with
  | zero => exact List.nil_prefix
  | succ d ih =>
    rw [levels, levels]
    exact (List.prefix_append_right_inj nodes).mpr (ih (nodes.flatMap children))

/-- More levels have more nodes, behind those that there are already. -/
lemma levels_mono {d d' : ℕ} (h : d ≤ d') (nodes : List α) :
    levels children d nodes <+: levels children d' nodes := by
  induction h with
  | refl => exact List.prefix_refl _
  | @step d' _ ih => exact ih.trans (levels_prefix_succ children d' nodes)

@[simp] lemma served_nil (n : ℕ) : served children n [] = [] := by
  cases n <;> rfl

lemma length_served_le (n : ℕ) (queue : List α) : (served children n queue).length ≤ n := by
  induction n generalizing queue with
  | zero => exact Nat.le_refl 0
  | succ n ih =>
    cases queue with
    | nil => exact Nat.zero_le _
    | cons a queue =>
      rw [served, List.length_cons]
      exact Nat.succ_le_succ (ih _)

/-- A part of the queue is served before the nodes behind it and before all of their children. -/
lemma served_append (n : ℕ) (part queue : List α) :
    served children n (part ++ queue) =
      (part ++ served children (n - part.length) (queue ++ part.flatMap children)).take n := by
  induction part generalizing n queue with
  | nil =>
    rw [List.flatMap_nil, List.append_nil, List.nil_append, List.nil_append, List.length_nil,
      Nat.sub_zero, List.take_of_length_le (length_served_le children n queue)]
  | cons a part ih =>
    cases n with
    | zero => rfl
    | succ n =>
      rw [List.cons_append, served, List.append_assoc, ih, List.cons_append, List.take_succ_cons,
        List.length_cons, Nat.succ_sub_succ, List.flatMap_cons, List.append_assoc]

/-- **Breadth first.**  A queue serves the nodes level by level. -/
theorem served_eq_take {n d : ℕ} (h : n ≤ d) (nodes : List α) :
    served children n nodes = (levels children d nodes).take n := by
  induction d generalizing n nodes with
  | zero =>
    obtain rfl := Nat.le_zero.mp h
    rfl
  | succ d ih =>
    cases nodes with
    | nil => rw [served_nil, levels_nil, List.take_nil]
    | cons a nodes =>
      have hless : n - (a :: nodes).length ≤ d := by
        rw [List.length_cons]
        omega
      have hserved := served_append children n (a :: nodes) []
      rw [List.append_nil, List.nil_append, ih hless, List.take_append, List.take_take] at hserved
      rw [hserved, levels, List.take_append, Nat.min_self]

/-- There is no node behind the first `n` exactly if no level has one. -/
lemma length_served_le_iff {n : ℕ} {nodes : List α} :
    (served children (n + 1) nodes).length ≤ n ↔ ∀ d, (levels children d nodes).length ≤ n := by
  constructor
  · intro h d
    have hmono := (levels_mono children (Nat.le_max_left d (n + 1)) nodes).length_le
    rw [served_eq_take children (Nat.le_max_right d (n + 1)), List.length_take] at h
    omega
  · intro h
    rw [served_eq_take children (Nat.le_refl (n + 1)), List.length_take]
    exact Nat.le_trans (Nat.min_le_right _ _) (h (n + 1))

/-- Then the first `n` nodes are those of all levels. -/
lemma served_eq_levels {n d : ℕ} {nodes : List α} (hd : n ≤ d)
    (h : ∀ d, (levels children d nodes).length ≤ n) :
    served children n nodes = levels children d nodes := by
  rw [served_eq_take children hd, List.take_of_length_le (h d)]

lemma mem_served_of_mem_levels {n d : ℕ} {nodes : List α} {a : α}
    (h : ∀ d, (levels children d nodes).length ≤ n) (ha : a ∈ levels children d nodes) :
    a ∈ served children n nodes := by
  rw [served_eq_levels children (Nat.le_max_right d n) h]
  exact (levels_mono children (Nat.le_max_left d n) nodes).subset ha

end Levels

/-! ## The loop -/

/-- How a work queue ends: it is empty, there are too many nodes, or the work on one has failed. -/
inductive QueueEnd (σ ε : Type*) where
  | emptied (state : σ)
  | exceeded
  | failed (error : ε)

section WorkQueue

variable {σ ε α : Type*} (visit : σ → α → Except ε (σ × List α))

/-- The loop over a queue with `n` more nodes allowed, as the nodes that are visited and how it ends.
`visit s a` works on the node `a` in the state `s` and says what is to be appended. -/
def workQueue : ℕ → List α → σ → List α × QueueEnd σ ε
  | _, [], s => ([], .emptied s)
  | 0, _ :: _, _ => ([], .exceeded)
  | n + 1, a :: queue, s =>
    match visit s a with
    | .error error => ([a], .failed error)
    | .ok (s, next) => (a :: (workQueue n (queue ++ next) s).1, (workQueue n (queue ++ next) s).2)

variable {visit}

lemma workQueue_nil (n : ℕ) (s : σ) : workQueue visit n [] s = ([], .emptied s) := by
  cases n <;> rfl

/-- The state at the end is the one that the visited nodes lead to one after the other. -/
theorem foldlM_of_emptied {n : ℕ} {queue : List α} {s s' : σ}
    (h : (workQueue visit n queue s).2 = .emptied s') :
    (workQueue visit n queue s).1.foldlM (fun s a => (visit s a).map Prod.fst) s = .ok s' := by
  induction n generalizing queue s with
  | zero =>
    cases queue with
    | nil =>
      rw [workQueue_nil, QueueEnd.emptied.injEq] at h
      exact congrArg Except.ok h
    | cons a queue => cases h
  | succ n ih =>
    cases queue with
    | nil =>
      rw [workQueue_nil, QueueEnd.emptied.injEq] at h
      exact congrArg Except.ok h
    | cons a queue =>
      rw [workQueue] at h ⊢
      cases hvisit : visit s a with
      | error error =>
        rw [hvisit] at h
        cases h
      | ok result =>
        rw [hvisit] at h
        rw [List.foldlM_cons, hvisit]
        exact ih h

/-- A failure is one of the work on a node. -/
theorem visit_of_failed {n : ℕ} {queue : List α} {s : σ} {error : ε}
    (h : (workQueue visit n queue s).2 = .failed error) : ∃ s a, visit s a = .error error := by
  induction n generalizing queue s with
  | zero => cases queue <;> cases h
  | succ n ih =>
    cases queue with
    | nil => cases h
    | cons a queue =>
      rw [workQueue] at h
      cases hvisit : visit s a with
      | error error' =>
        rw [hvisit, QueueEnd.failed.injEq] at h
        exact ⟨s, a, by rw [hvisit, h]⟩
      | ok result =>
        rw [hvisit] at h
        exact ih h

/-! What is appended for a node, and whether there is a failure, does not depend on the state. -/

variable {children : α → Option (List α)}
  (hvisit : ∀ s a, (visit s a).toOption.map Prod.snd = children a)

include hvisit

lemma visit_cases (s : σ) (a : α) :
    (children a = none ∧ ∃ error, visit s a = .error error) ∨
      ∃ next s', children a = some next ∧ visit s a = .ok (s', next) := by
  rw [← hvisit s a]
  cases visit s a with
  | error error => exact Or.inl ⟨rfl, error, rfl⟩
  | ok result => exact Or.inr ⟨result.2, result.1, rfl, rfl⟩

lemma visited_prefix_served (n : ℕ) (queue : List α) (s : σ) :
    (workQueue visit n queue s).1 <+: served (fun a => (children a).getD []) n queue := by
  induction n generalizing queue s with
  | zero => cases queue <;> exact List.nil_prefix
  | succ n ih =>
    cases queue with
    | nil => exact List.nil_prefix
    | cons a queue =>
      rw [workQueue, served, List.prefix_cons_iff]
      rcases visit_cases hvisit s a with ⟨-, error, herror⟩ | ⟨next, s', hchildren, hok⟩
      · rw [herror]
        exact Or.inr ⟨[], rfl, List.nil_prefix⟩
      · rw [hok, hchildren]
        exact Or.inr ⟨_, rfl, ih (queue ++ next) s'⟩

lemma emptied_iff_served (n : ℕ) (queue : List α) (s : σ) :
    (∃ s', (workQueue visit n queue s).2 = .emptied s') ↔
      (∀ a ∈ served (fun a => (children a).getD []) n queue, children a ≠ none) ∧
        (served (fun a => (children a).getD []) (n + 1) queue).length ≤ n := by
  induction n generalizing queue s with
  | zero => cases queue <;> simp [workQueue, served]
  | succ n ih =>
    cases queue with
    | nil => simp [workQueue, served]
    | cons a queue =>
      rw [workQueue, served, served, List.forall_mem_cons, List.length_cons, Nat.succ_le_succ_iff]
      rcases visit_cases hvisit s a with ⟨hchildren, error, herror⟩ | ⟨next, s', hchildren, hok⟩
      · simp [herror, hchildren]
      · simp only [hok, hchildren, Option.getD_some, ih (queue ++ next) s', ne_eq, reduceCtorEq,
          not_false_eq_true, true_and]

lemma visited_eq_served {n : ℕ} {queue : List α} {s s' : σ}
    (h : (workQueue visit n queue s).2 = .emptied s') :
    (workQueue visit n queue s).1 = served (fun a => (children a).getD []) n queue := by
  induction n generalizing queue s with
  | zero => cases queue <;> rfl
  | succ n ih =>
    cases queue with
    | nil => rfl
    | cons a queue =>
      rw [workQueue] at h ⊢
      rcases visit_cases hvisit s a with ⟨-, error, herror⟩ | ⟨next, s₁, hchildren, hok⟩
      · rw [herror] at h
        cases h
      · rw [hok] at h ⊢
        rw [served, hchildren]
        exact congrArg (a :: ·) (ih h)

theorem length_visited_le (n : ℕ) (queue : List α) (s : σ) :
    (workQueue visit n queue s).1.length ≤ n :=
  Nat.le_trans (visited_prefix_served hvisit n queue s).length_le (length_served_le _ n queue)

/-- The nodes are visited level by level. -/
theorem visited_prefix_levels {n d : ℕ} (hd : n ≤ d) (queue : List α) (s : σ) :
    (workQueue visit n queue s).1 <+: levels (fun a => (children a).getD []) d queue := by
  have hserved := visited_prefix_served hvisit n queue s
  rw [served_eq_take _ hd] at hserved
  exact hserved.trans (List.take_prefix n _)

/-- **Acceptance.**  The queue runs empty exactly if there are no more nodes than allowed and the
work on none of them fails. -/
theorem workQueue_emptied_iff (n : ℕ) (queue : List α) (s : σ) :
    (∃ s', (workQueue visit n queue s).2 = .emptied s') ↔
      (∀ d, (levels (fun a => (children a).getD []) d queue).length ≤ n) ∧
        ∀ d, ∀ a ∈ levels (fun a => (children a).getD []) d queue, children a ≠ none := by
  rw [emptied_iff_served hvisit, length_served_le_iff, and_comm]
  refine and_congr_right fun hbound => ⟨fun h d a ha => ?_, fun h a ha => ?_⟩
  · exact h a (mem_served_of_mem_levels _ hbound ha)
  · rw [served_eq_levels _ (Nat.le_refl n) hbound] at ha
    exact h n a ha

/-- Then all nodes have been visited. -/
theorem visited_eq_levels {n d : ℕ} {queue : List α} {s s' : σ} (hd : n ≤ d)
    (h : (workQueue visit n queue s).2 = .emptied s') :
    (workQueue visit n queue s).1 = levels (fun a => (children a).getD []) d queue := by
  have hbound := ((workQueue_emptied_iff hvisit n queue s).mp ⟨s', h⟩).1
  rw [visited_eq_served hvisit h, served_eq_levels _ hd hbound]

end WorkQueue

end Library
