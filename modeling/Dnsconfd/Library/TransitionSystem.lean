import Mathlib.Data.List.Basic
import Mathlib.Data.List.Forall2

/-!
# Runs of a deterministic transition system

A `System` is an initial state together with a step function that consumes one input at a
time.  Nondeterminism of the environment is part of the input, so a run is determined by the
list of its inputs.  `Meets ok s is` says that every step of the run from `s` over `is` starts
in a state and consumes an input related by `ok`; `invariant_of_meets` is the induction rule
for the states reached by such runs.  `Passes` are the steps of a given run.

The second half is about the loops of an imperative program: loops over lists, which may be left
early, and the `do … while` loop, whose body may abandon the loop and which otherwise goes on as
long as the test holds.
-/

namespace Library

/-- A deterministic transition system with states `σ` and inputs `ι`. -/
structure System (σ ι : Type*) where
  init : σ
  step : σ → ι → σ

namespace System

variable {σ ι : Type*} (S : System σ ι)

/-- The state reached from `s` over the inputs `is`. -/
def runFrom (s : σ) (is : List ι) : σ :=
  is.foldl S.step s

/-- The state reached from the initial state over the inputs `is`. -/
def run (is : List ι) : σ :=
  S.runFrom S.init is

/-- A run over an appended list of inputs continues from where the first part stopped. -/
theorem runFrom_append (s : σ) (is js : List ι) :
    S.runFrom s (is ++ js) = S.runFrom (S.runFrom s is) js :=
  List.foldl_append

/-- A run over an appended list of inputs, from the initial state. -/
theorem run_append (is js : List ι) : S.run (is ++ js) = S.runFrom (S.run is) js :=
  S.runFrom_append S.init is js

/-- Every step of the run from `s` over the given inputs is related by `ok`. -/
def Meets (ok : σ → ι → Prop) : σ → List ι → Prop
  | _, [] => True
  | s, i :: is => ok s i ∧ Meets ok (S.step s i) is

/-- A condition that the inputs guarantee in every state is met by every run over them. -/
theorem meets_of_forall_mem {ok : σ → ι → Prop} {is : List ι} (h : ∀ i ∈ is, ∀ s, ok s i) (s : σ) :
    S.Meets ok s is := by
  induction is generalizing s with
  | nil => trivial
  | cons i is ih =>
    exact ⟨h i List.mem_cons_self s, ih (fun j hj => h j (List.mem_cons_of_mem _ hj)) _⟩

/-- The run from `s` over the given inputs consumes the input `i` in the state `t`. -/
def Passes (s : σ) (is : List ι) (t : σ) (i : ι) : Prop :=
  ∃ is₁ is₂, is = is₁ ++ i :: is₂ ∧ S.runFrom s is₁ = t

/-- Every step of a run is one that it passes. -/
theorem meets_passes (s : σ) (is : List ι) : S.Meets (S.Passes s is) s is := by
  have hrest : ∀ is₁ is₂, is = is₁ ++ is₂ → S.Meets (S.Passes s is) (S.runFrom s is₁) is₂ := by
    intro is₁ is₂
    induction is₂ generalizing is₁ with
    | nil => exact fun _ => trivial
    | cons i is₂ ih =>
      intro his
      refine ⟨⟨is₁, is₂, his, rfl⟩, ?_⟩
      have hnext := ih (is₁ ++ [i]) (by rw [his, List.append_assoc]; rfl)
      rwa [runFrom_append] at hnext
  exact hrest [] is rfl

/-- A run that meets a condition meets every weaker one. -/
theorem Meets.mono {ok ok' : σ → ι → Prop} (h : ∀ s i, ok s i → ok' s i) {s : σ} {is : List ι}
    (his : S.Meets ok s is) : S.Meets ok' s is := by
  induction is generalizing s with
  | nil => trivial
  | cons i is ih => exact ⟨h s i his.1, ih his.2⟩

instance Meets.decidable (ok : σ → ι → Prop) [∀ s i, Decidable (ok s i)] :
    ∀ s is, Decidable (S.Meets ok s is)
  | _, [] => isTrue trivial
  | s, i :: is =>
    have := Meets.decidable ok (S.step s i) is
    inferInstanceAs (Decidable (ok s i ∧ S.Meets ok (S.step s i) is))

/-- **Invariant rule.**  A property that every admissible step preserves holds in every state
reached by admissible steps. -/
theorem invariant_of_meets {ok : σ → ι → Prop} {Inv : σ → Prop}
    (hstep : ∀ s i, Inv s → ok s i → Inv (S.step s i)) {s : σ} (hs : Inv s) {is : List ι}
    (his : S.Meets ok s is) : Inv (S.runFrom s is) := by
  induction is generalizing s with
  | nil => exact hs
  | cons i is ih => exact ih (hstep s i hs his.1) his.2

/-- **Invariant rule** for a property that every step preserves. -/
theorem invariant {J : σ → Prop} (hstep : ∀ s i, J s → J (S.step s i)) {s : σ} (hs : J s)
    (is : List ι) : J (S.runFrom s is) :=
  S.invariant_of_meets (fun s i hJ _ => hstep s i hJ) hs
    (S.meets_of_forall_mem (fun _ _ _ => trivial : ∀ i ∈ is, ∀ _ : σ, True) s)

/-- **Invariant rule** for the steps themselves.  A property that every step preserves, under a
condition that it implies, gives the condition at every step of a run and itself at its end. -/
theorem meets_and_invariant {ok : σ → ι → Prop} {J : σ → Prop} (hok : ∀ s i, J s → ok s i)
    (hstep : ∀ s i, J s → ok s i → J (S.step s i)) {s : σ} (hs : J s) (is : List ι) :
    S.Meets ok s is ∧ J (S.runFrom s is) := by
  induction is generalizing s with
  | nil => exact ⟨trivial, hs⟩
  | cons i is ih =>
    obtain ⟨hmeets, hinv⟩ := ih (hstep s i hs (hok s i hs))
    exact ⟨⟨hok s i hs, hmeets⟩, hinv⟩

/-- Two runs over related inputs are the same if related inputs lead to the same step. -/
theorem runFrom_congr {R : ι → ι → Prop} (hstep : ∀ s i j, R i j → S.step s i = S.step s j)
    {is js : List ι} (h : List.Forall₂ R is js) (s : σ) : S.runFrom s is = S.runFrom s js := by
  induction h generalizing s with
  | nil => rfl
  | @cons i j is js hij _ ih =>
    change S.runFrom (S.step s i) is = S.runFrom (S.step s j) js
    rw [hstep s i j hij, ih]

/-- If every step that fails a condition leaves a damage that lasts, a run that ends without the
damage meets the condition. -/
theorem meets_of_final {ok : σ → ι → Prop} {B : σ → Prop}
    (hbad : ∀ s i, ¬ ok s i → B (S.step s i)) (hlast : ∀ s i, B s → B (S.step s i)) {s : σ}
    {is : List ι} (h : ¬ B (S.runFrom s is)) : S.Meets ok s is := by
  have hkept : ∀ (is : List ι) (s : σ), B s → B (S.runFrom s is) :=
    fun is _ hs => S.invariant hlast hs is
  induction is generalizing s with
  | nil => trivial
  | cons i is ih =>
    refine ⟨?_, ih h⟩
    by_contra hnot
    exact h (hkept is _ (hbad s i hnot))

end System

/-! ## Loops over lists -/

/-- A fold over elements none of which changes anything. -/
theorem foldl_eq_self {α β : Type*} {f : α → β → α} {l : List β} (h : ∀ b ∈ l, ∀ a, f a b = a)
    (a : α) : l.foldl f a = a := by
  induction l with
  | nil => rfl
  | cons b l ih =>
    rw [List.foldl_cons, h b List.mem_cons_self]
    exact ih fun c hc => h c (List.mem_cons_of_mem _ hc)

/-- If every iteration adds what its element has, the loop adds what the elements have. -/
theorem mem_foldl_iff {α β : Type*} {f : List β → α → List β} {Q : α → Prop} {b : β}
    (hf : ∀ acc a, b ∈ f acc a ↔ b ∈ acc ∨ Q a) (l : List α) (acc : List β) :
    b ∈ l.foldl f acc ↔ b ∈ acc ∨ ∃ a ∈ l, Q a := by
  induction l generalizing acc with
  | nil => simp
  | cons a l ih =>
    rw [List.foldl_cons, ih, hf, or_assoc]
    simp

/-- A property that every iteration of a loop preserves holds after a loop that is not left
early. -/
theorem foldlM_invariant {α β : Type*} {f : α → β → Option α} {P : α → Prop} {l : List β}
    (hstep : ∀ b ∈ l, ∀ a a', P a → f a b = some a' → P a') {a a' : α} (ha : P a)
    (h : l.foldlM f a = some a') : P a' := by
  induction l generalizing a with
  | nil =>
    obtain rfl : a = a' := Option.some.inj h
    exact ha
  | cons b l ih =>
    rw [List.foldlM_cons] at h
    obtain ⟨a'', hb, hrest⟩ := Option.bind_eq_some_iff.mp h
    exact ih (fun c hc => hstep c (List.mem_cons_of_mem _ hc))
      (hstep b List.mem_cons_self a a'' ha hb) hrest

/-- A loop no iteration of which can leave it is not left early. -/
theorem foldlM_isSome {α β : Type*} {f : α → β → Option α} {l : List β}
    (h : ∀ b ∈ l, ∀ a, (f a b).isSome = true) (a : α) : (l.foldlM f a).isSome = true := by
  induction l generalizing a with
  | nil => rfl
  | cons b l ih =>
    obtain ⟨a', ha'⟩ := Option.isSome_iff_exists.mp (h b List.mem_cons_self a)
    rw [List.foldlM_cons, ha']
    exact ih (fun c hc => h c (List.mem_cons_of_mem _ hc)) a'

/-- Two operations in a row succeed only if both of them do. -/
theorem ok_of_bind {ε α β : Type} {x : Except ε α} {f : α → Except ε β} {b : β}
    (h : (x >>= f) = .ok b) : ∃ a, x = .ok a ∧ f a = .ok b := by
  cases x with
  | error error => cases h
  | ok a => exact ⟨a, rfl, h⟩

/-- A property that every iteration of a loop preserves holds after a loop that meets no error. -/
theorem foldlM_ok_invariant {ε α β : Type} {f : α → β → Except ε α} {P : α → Prop} {l : List β}
    (hstep : ∀ b ∈ l, ∀ a a', P a → f a b = .ok a' → P a') {a a' : α} (ha : P a)
    (h : l.foldlM f a = .ok a') : P a' := by
  induction l generalizing a with
  | nil =>
    obtain rfl : a = a' := Except.ok.inj h
    exact ha
  | cons b l ih =>
    rw [List.foldlM_cons] at h
    obtain ⟨a'', hb, hrest⟩ := ok_of_bind h
    exact ih (fun c hc => hstep c (List.mem_cons_of_mem _ hc))
      (hstep b List.mem_cons_self a a'' ha hb) hrest

/-- What a conversion of all elements gives comes from one of them. -/
theorem exists_of_mem_mapM {α β : Type*} {f : α → Option β} {l : List α} {l' : List β} {b : β}
    (h : l.mapM f = some l') (hb : b ∈ l') : ∃ a ∈ l, f a = some b := by
  induction l generalizing l' with
  | nil =>
    obtain rfl : [] = l' := Option.some.inj h
    cases hb
  | cons a l ih =>
    rw [List.mapM_cons] at h
    obtain ⟨b', ha, h⟩ := Option.bind_eq_some_iff.mp h
    obtain ⟨l'', hl, h⟩ := Option.bind_eq_some_iff.mp h
    obtain rfl : b' :: l'' = l' := Option.some.inj h
    rcases List.mem_cons.mp hb with rfl | hb
    · exact ⟨a, List.mem_cons_self, ha⟩
    · obtain ⟨a', ha', hfa'⟩ := ih hl hb
      exact ⟨a', List.mem_cons_of_mem _ ha', hfa'⟩

/-- What a conversion makes of an element is in the result of converting all elements. -/
theorem mem_of_mapM {α β : Type*} {f : α → Option β} {l : List α} {l' : List β}
    (h : l.mapM f = some l') {a : α} (ha : a ∈ l) {b : β} (hb : f a = some b) : b ∈ l' := by
  induction l generalizing l' with
  | nil => cases ha
  | cons a' l ih =>
    rw [List.mapM_cons] at h
    obtain ⟨b', ha', h⟩ := Option.bind_eq_some_iff.mp h
    obtain ⟨l'', hl, h⟩ := Option.bind_eq_some_iff.mp h
    obtain rfl : b' :: l'' = l' := Option.some.inj h
    rcases List.mem_cons.mp ha with rfl | hmem
    · obtain rfl : b' = b := Option.some.inj (ha'.symm.trans hb)
      exact List.mem_cons_self
    · exact List.mem_cons_of_mem _ (ih hl hmem)

/-- If the conversion of all elements succeeds, that of each of them does. -/
theorem exists_of_mem_mapM_ok {ε α β : Type} {f : α → Except ε β} {l : List α} {l' : List β}
    (h : l.mapM f = .ok l') {a : α} (ha : a ∈ l) : ∃ b, f a = .ok b ∧ b ∈ l' := by
  induction l generalizing l' with
  | nil => cases ha
  | cons a' l ih =>
    rw [List.mapM_cons] at h
    obtain ⟨b', ha', h⟩ := ok_of_bind h
    obtain ⟨l'', hl, h⟩ := ok_of_bind h
    obtain rfl : b' :: l'' = l' := Except.ok.inj h
    rcases List.mem_cons.mp ha with rfl | hmem
    · exact ⟨b', ha', List.mem_cons_self⟩
    · obtain ⟨b, hb, hbl⟩ := ih hl hmem
      exact ⟨b, hb, List.mem_cons_of_mem _ hbl⟩

/-- A conversion of all elements gives nothing exactly if that of one of them does. -/
theorem mapM_eq_none_iff {α β : Type*} {f : α → Option β} {l : List α} :
    l.mapM f = none ↔ ∃ a ∈ l, f a = none := by
  induction l with
  | nil => simp
  | cons a l ih =>
    cases ha : f a with
    | none => simp [List.mapM_cons, ha]
    | some b =>
      cases hl : l.mapM f with
      | none => simp [List.mapM_cons, ha, hl, ← ih]
      | some l' => simp [List.mapM_cons, ha, hl, ← ih]

/-- A conversion of all elements gives a list exactly if each element is converted to the one at its
place. -/
theorem mapM_eq_some_iff {α β : Type*} {f : α → Option β} {l : List α} {l' : List β} :
    l.mapM f = some l' ↔ List.Forall₂ (fun a b => f a = some b) l l' := by
  induction l generalizing l' with
  | nil => simp [List.forall₂_nil_left_iff, eq_comm]
  | cons a l ih =>
    simp only [List.mapM_cons, Option.bind_eq_bind, Option.pure_def, Option.bind_eq_some_iff, ih,
      Option.some.injEq]
    constructor
    · rintro ⟨b, hb, bs, hbs, rfl⟩
      exact .cons hb hbs
    · rintro (_ | ⟨hb, hbs⟩)
      exact ⟨_, hb, _, hbs, rfl⟩

/-! ## The `do … while` loop -/

/-- How a loop was left: after an iteration that found nothing more to do (`accepted`), or by
an iteration that abandoned the loop, with the state as that iteration found it. -/
structure Halt (σ : Type*) where
  accepted : Bool
  state : σ

/-- `do { body } while (again)`, for at most `n` iterations; `none` if these do not suffice. -/
def doWhile {σ : Type*} (body : σ → Option σ) (again : σ → Bool) : ℕ → σ → Option (Halt σ)
  | 0, _ => none
  | n + 1, s =>
    match body s with
    | none => some ⟨false, s⟩
    | some s' => if again s' then doWhile body again n s' else some ⟨true, s'⟩

/-- Related results, after functions that lead from related values to related ones. -/
theorem optionRel_map {α β γ δ : Type*} {R : α → β → Prop} {S : γ → δ → Prop} {f : α → γ}
    {g : β → δ} {x : Option α} {y : Option β} (h : Option.Rel R x y)
    (hfg : ∀ a b, x = some a → R a b → S (f a) (g b)) : Option.Rel S (x.map f) (y.map g) := by
  cases h with
  | none => exact .none
  | some hab => exact .some (hfg _ _ rfl hab)

section DoWhile

variable {σ : Type*} {body : σ → Option σ} {again : σ → Bool}

/-- Two loops whose bodies correspond, and which go on under corresponding conditions, end in the
same way in corresponding states. -/
theorem doWhile_rel {τ : Type*} {body' : τ → Option τ} {again' : τ → Bool} {R : σ → τ → Prop}
    (hagain : ∀ s t, R s t → again s = again' t)
    (hbody : ∀ s t, R s t → Option.Rel R (body s) (body' t)) :
    ∀ (n : ℕ) (s : σ) (t : τ), R s t →
      Option.Rel (fun r r' => r.accepted = r'.accepted ∧ R r.state r'.state)
        (doWhile body again n s) (doWhile body' again' n t) := by
  intro n
  induction n with
  | zero => exact fun _ _ _ => .none
  | succ n ih =>
    intro s t hst
    have hnext := hbody s t hst
    unfold doWhile
    cases hs : body s with
    | none =>
      rw [hs] at hnext
      cases ht : body' t with
      | none => exact .some ⟨rfl, hst⟩
      | some t' => rw [ht] at hnext; cases hnext
    | some s' =>
      rw [hs] at hnext
      cases ht : body' t with
      | none => rw [ht] at hnext; cases hnext
      | some t' =>
        rw [ht] at hnext
        cases hnext with
        | some hst' =>
          dsimp only
          rw [hagain s' t' hst']
          by_cases ha : again' t' = true
          · rw [if_pos ha, if_pos ha]
            exact ih s' t' hst'
          · rw [if_neg ha, if_neg ha]
            exact .some ⟨rfl, hst'⟩

/-- A loop whose continuing iterations decrease a rank ends within as many iterations as the
rank allows. -/
theorem doWhile_isSome (rank : σ → ℕ)
    (hrank : ∀ s s', body s = some s' → again s' = true → rank s' < rank s) :
    ∀ (n : ℕ) (s : σ), rank s < n → (doWhile body again n s).isSome = true := by
  intro n
  induction n with
  | zero => intro s hs; exact absurd hs (Nat.not_lt_zero _)
  | succ n ih =>
    intro s hs
    unfold doWhile
    cases hb : body s with
    | none => rfl
    | some s' =>
      by_cases ha : again s' = true
      · have hlt : rank s' < n := Nat.lt_of_lt_of_le (hrank s s' hb ha) (Nat.lt_succ_iff.mp hs)
        simpa [ha] using ih s' hlt
      · simp [ha]

/-- Every iteration of the loop from `s` starts in a state that satisfies `ok`. -/
def LoopMeets (body : σ → Option σ) (again : σ → Bool) (ok : σ → Prop) : ℕ → σ → Prop
  | 0, _ => True
  | n + 1, s =>
    ok s ∧ ∀ s', body s = some s' → again s' = true → LoopMeets body again ok n s'

/-- A condition that always holds is met by every loop. -/
theorem loopMeets_of_forall {ok : σ → Prop} (h : ∀ s, ok s) :
    ∀ (n : ℕ) (s : σ), LoopMeets body again ok n s := by
  intro n
  induction n with
  | zero => intro _; trivial
  | succ n ih => intro s; exact ⟨h s, fun s' _ _ => ih s'⟩

/-- A loop that meets a condition meets every weaker one. -/
theorem LoopMeets.mono {ok ok' : σ → Prop} (h : ∀ s, ok s → ok' s) {n : ℕ} {s : σ}
    (hs : LoopMeets body again ok n s) : LoopMeets body again ok' n s := by
  induction n generalizing s with
  | zero => trivial
  | succ n ih => exact ⟨h s hs.1, fun s' hs' ha => ih (hs.2 s' hs' ha)⟩

/-- A condition that every iteration preserves is met by the loop if it holds at its start. -/
theorem loopMeets_of_preserved {ok : σ → Prop}
    (hbody : ∀ s s', ok s → body s = some s' → ok s') :
    ∀ (n : ℕ) (s : σ), ok s → LoopMeets body again ok n s := by
  intro n
  induction n with
  | zero => intro _ _; trivial
  | succ n ih => intro s hs; exact ⟨hs, fun s' hs' _ => ih s' (hbody s s' hs hs')⟩

/-- If every iteration that fails a condition leaves a damage that lasts, a loop that ends without
the damage meets the condition. -/
theorem loopMeets_of_final {ok B : σ → Prop}
    (hbad : ∀ s, ¬ ok s → ∃ s', body s = some s' ∧ B s')
    (hlast : ∀ s s', B s → body s = some s' → B s') {n : ℕ} {s : σ} {r : Halt σ}
    (hr : doWhile body again n s = some r) (h : ¬ B r.state) :
    LoopMeets body again ok n s := by
  have hkept : ∀ (n : ℕ) (s : σ) (r : Halt σ), B s → doWhile body again n s = some r →
      B r.state := by
    intro n
    induction n with
    | zero => intro s r _ hr; simp [doWhile] at hr
    | succ n ih =>
      intro s r hs hr
      unfold doWhile at hr
      split at hr
      · obtain rfl := Option.some.inj hr
        exact hs
      · rename_i s' hs'
        split at hr
        · exact ih s' r (hlast s s' hs hs') hr
        · obtain rfl := Option.some.inj hr
          exact hlast s s' hs hs'
  induction n generalizing s with
  | zero => trivial
  | succ n ih =>
    unfold doWhile at hr
    refine ⟨?_, fun s' hs' ha => ?_⟩
    · by_contra hnot
      obtain ⟨s', hs', hbad'⟩ := hbad s hnot
      simp only [hs'] at hr
      split at hr
      · exact h (hkept n s' r hbad' hr)
      · obtain rfl := Option.some.inj hr
        exact h hbad'
    · simp only [hs', ha, if_true] at hr
      exact ih hr

instance LoopMeets.decidable (ok : σ → Prop) [DecidablePred ok] :
    ∀ n s, Decidable (LoopMeets body again ok n s)
  | 0, _ => isTrue trivial
  | n + 1, s =>
    match hb : body s with
    | none => decidable_of_iff (ok s) ⟨fun h => ⟨h, fun _ hs' => by rw [hb] at hs'; cases hs'⟩,
        And.left⟩
    | some s' =>
      have := LoopMeets.decidable ok n s'
      decidable_of_iff (ok s ∧ (again s' = true → LoopMeets body again ok n s'))
        ⟨fun h => ⟨h.1, fun t ht ha => by rw [hb] at ht; cases ht; exact h.2 ha⟩,
          fun h => ⟨h.1, h.2 s' hb⟩⟩

/-- **Loop rule.**  If every iteration that meets `ok` leads from `s` only to states related to
`s` by a reflexive and transitive `R`, so does the loop. -/
theorem doWhile_related {ok : σ → Prop} {R : σ → σ → Prop} (hrefl : ∀ s, R s s)
    (htrans : ∀ s t u, R s t → R t u → R s u)
    (hbody : ∀ s s', ok s → body s = some s' → R s s') :
    ∀ (n : ℕ) (s : σ) (r : Halt σ), LoopMeets body again ok n s →
      doWhile body again n s = some r → R s r.state := by
  intro n
  induction n with
  | zero => intro s r _ hr; simp [doWhile] at hr
  | succ n ih =>
    intro s r hok hr
    unfold doWhile at hr
    cases hb : body s with
    | none =>
      rw [hb] at hr
      obtain rfl := Option.some.inj hr
      exact hrefl s
    | some s' =>
      rw [hb] at hr
      have hs' : R s s' := hbody s s' hok.1 hb
      by_cases ha : again s' = true
      · simp only [ha, if_true] at hr
        exact htrans s s' r.state hs' (ih s' r (hok.2 s' hb ha) hr)
      · simp only [ha] at hr
        obtain rfl := Option.some.inj hr
        exact hs'

/-- A loop that ran to its end stops where its test fails, after an iteration. -/
theorem doWhile_last {n : ℕ} {s : σ} {r : Halt σ} (hr : doWhile body again n s = some r)
    (hacc : r.accepted = true) : again r.state = false ∧ ∃ t, body t = some r.state := by
  induction n generalizing s with
  | zero => simp [doWhile] at hr
  | succ n ih =>
    unfold doWhile at hr
    cases hb : body s with
    | none =>
      rw [hb] at hr
      obtain rfl := Option.some.inj hr
      exact absurd hacc (by simp)
    | some s' =>
      rw [hb] at hr
      by_cases ha : again s' = true
      · simp only [ha, if_true] at hr
        exact ih hr
      · simp only [ha] at hr
        obtain rfl := Option.some.inj hr
        exact ⟨by simpa using ha, s, hb⟩

/-- More iterations than suffice change nothing. -/
theorem doWhile_mono {n k : ℕ} (hnk : n ≤ k) {s : σ} {r : Halt σ}
    (hr : doWhile body again n s = some r) : doWhile body again k s = some r := by
  induction n generalizing s k with
  | zero => simp [doWhile] at hr
  | succ n ih =>
    obtain ⟨k, rfl⟩ : ∃ k', k = k' + 1 := ⟨k - 1, by omega⟩
    unfold doWhile at hr ⊢
    cases hb : body s with
    | none => rw [hb] at hr; exact hr
    | some s' =>
      rw [hb] at hr
      by_cases ha : again s' = true
      · simp only [ha, if_true] at hr ⊢
        exact ih (by omega) hr
      · simp only [ha] at hr ⊢
        exact hr

/-- A loop that is abandoned, where no later iteration gives up, is abandoned at once. -/
theorem doWhile_refused {n : ℕ} {s : σ} {r : Halt σ}
    (hdue : ∀ s s', body s = some s' → again s' = true → body s' ≠ none)
    (hr : doWhile body again n s = some r) (hacc : r.accepted = false) :
    body s = none ∧ r.state = s := by
  induction n generalizing s with
  | zero => simp [doWhile] at hr
  | succ n ih =>
    unfold doWhile at hr
    cases hb : body s with
    | none =>
      rw [hb] at hr
      obtain rfl := Option.some.inj hr
      exact ⟨rfl, rfl⟩
    | some s' =>
      rw [hb] at hr
      by_cases ha : again s' = true
      · simp only [ha, if_true] at hr
        exact absurd (ih hr).1 (hdue s s' hb ha)
      · simp only [ha] at hr
        obtain rfl := Option.some.inj hr
        exact absurd hacc (by simp)

end DoWhile

end Library
