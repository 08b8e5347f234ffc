import Mathlib.Data.List.Basic

/-!
# Loops that read a stream

Parsers of event streams are loops that take the next event from a source, decide what to do with
it and go on until they meet the end of what they parse.  An iteration may itself read further
events, by running an inner loop, so what it leaves of the stream is part of its result.

`readAll body l s` is such a loop.  Its value is `none` if the loop asks for an event after the
last one, where a real source would make it wait.  The definition counts iterations in order to be
structural; as long as no iteration puts events back (`Consumes`), the bound is never reached, and
`readAll_cons` is the equation of the loop without it.
-/

namespace Library

/-- How an iteration ends: it leaves the loop with an error, it leaves the loop with success, or it
goes on.  In the last two cases `rest` is what it has not read. -/
inductive Turn (σ ε α : Type*) where
  | failed (error : ε)
  | finished (state : σ) (rest : List α)
  | continued (state : σ) (rest : List α)

section ReadLoop

variable {σ ε α : Type*}

/-- At most `n` iterations over the events `l`; `body s a rest` handles the event `a` in the state
`s` with `rest` still to come, and it is `none` if it waits for an event for ever. -/
def readLoop (body : σ → α → List α → Option (Turn σ ε α)) :
    ℕ → List α → σ → Option (Except ε (σ × List α))
  | 0, _, _ => none
  | _ + 1, [], _ => none
  | n + 1, a :: rest, s =>
    match body s a rest with
    | none => none
    | some (.failed error) => some (.error error)
    | some (.finished s rest) => some (.ok (s, rest))
    | some (.continued s rest) => readLoop body n rest s

/-- The loop over the events `l`. -/
def readAll (body : σ → α → List α → Option (Turn σ ε α)) (l : List α) (s : σ) :
    Option (Except ε (σ × List α)) :=
  readLoop body l.length l s

/-- No iteration leaves more events than it was given. -/
def Consumes (body : σ → α → List α → Option (Turn σ ε α)) : Prop :=
  ∀ s a rest s' rest', body s a rest = some (.continued s' rest') ∨
    body s a rest = some (.finished s' rest') → rest'.length ≤ rest.length

variable {body : σ → α → List α → Option (Turn σ ε α)}

/-- A bound on the iterations that is at least the number of events does not matter. -/
theorem readLoop_eq_readAll (hbody : Consumes body) {n : ℕ} {l : List α} (hn : l.length ≤ n)
    (s : σ) : readLoop body n l s = readAll body l s := by
  -- by strong induction on the number of events, both bounds go down together
  induction hlen : l.length using Nat.strongRecOn generalizing n l s with
  | ind len ih =>
    cases l with
    | nil => cases n <;> rfl
    | cons a rest =>
      obtain ⟨m, rfl⟩ : ∃ m, n = m + 1 := Nat.exists_eq_succ_of_ne_zero (by
        rintro rfl
        simp at hn)
      have hrest : rest.length ≤ m := by simpa using hn
      have hlt : ∀ {s'} {rest' : List α}, body s a rest = some (.continued s' rest') →
          rest'.length ≤ rest.length := fun h => hbody s a rest _ _ (Or.inl h)
      rw [readAll, List.length_cons]
      unfold readLoop
      cases hturn : body s a rest with
      | none => rfl
      | some turn =>
        cases turn with
        | failed error => rfl
        | finished s' rest' => rfl
        | continued s' rest' =>
          have hshort := hlt hturn
          have hless : rest'.length < len := by
            rw [← hlen, List.length_cons]
            omega
          dsimp only
          rw [ih rest'.length hless (Nat.le_trans hshort hrest) s' rfl,
            ih rest'.length hless hshort s' rfl]

/-- One iteration of the loop. -/
theorem readAll_cons (hbody : Consumes body) (a : α) (rest : List α) (s : σ) :
    readAll body (a :: rest) s =
      match body s a rest with
      | none => none
      | some (.failed error) => some (.error error)
      | some (.finished s rest) => some (.ok (s, rest))
      | some (.continued s rest) => readAll body rest s := by
  rw [readAll, List.length_cons]
  unfold readLoop
  cases hturn : body s a rest with
  | none => rfl
  | some turn =>
    cases turn with
    | failed error => rfl
    | finished s' rest' => rfl
    | continued s' rest' =>
      exact readLoop_eq_readAll hbody (hbody s a rest s' rest' (Or.inl hturn)) s'

/-- **Loop rule.**  If every iteration preserves `P` as long as the loop goes on, and leaves `Q`
when it ends with success, then a loop that started in a state with `P` ends with `Q`. -/
theorem readAll_rule {P Q : σ → Prop}
    (hcont : ∀ s a rest s' rest', P s → body s a rest = some (.continued s' rest') → P s')
    (hfin : ∀ s a rest s' rest', P s → body s a rest = some (.finished s' rest') → Q s')
    {l rest : List α} {s s' : σ} (hs : P s) (h : readAll body l s = some (.ok (s', rest))) :
    Q s' := by
  unfold readAll at h
  generalize l.length = n at h
  induction n generalizing l s with
  | zero => cases h
  | succ n ih =>
    cases l with
    | nil => cases h
    | cons a l =>
      unfold readLoop at h
      cases hturn : body s a l with
      | none => rw [hturn] at h; cases h
      | some turn =>
        rw [hturn] at h
        cases turn with
        | failed error => cases h
        | finished s'' rest' =>
          obtain ⟨rfl, rfl⟩ := Prod.mk.inj (Except.ok.inj (Option.some.inj h))
          exact hfin s a l s'' rest' hs hturn
        | continued s'' rest' => exact ih (hcont s a l s'' rest' hs hturn) h

/-- What an iteration leaves is the end of what it was given. -/
def Follows (body : σ → α → List α → Option (Turn σ ε α)) : Prop :=
  ∀ s a rest s' rest', body s a rest = some (.continued s' rest') ∨
    body s a rest = some (.finished s' rest') → rest' <:+ rest

lemma Follows.consumes (hbody : Follows body) : Consumes body :=
  fun s a rest s' rest' h => (hbody s a rest s' rest' h).length_le

/-- A loop that ends with success has a last iteration, over one of the events it was given. -/
theorem finished_of_readAll (hbody : Follows body) {l rest : List α} {s s' : σ}
    (h : readAll body l s = some (.ok (s', rest))) :
    ∃ s₁ a rest₁, body s₁ a rest₁ = some (.finished s' rest) ∧ a :: rest₁ <:+ l := by
  induction hlen : l.length using Nat.strongRecOn generalizing l s with
  | ind len ih =>
    cases l with
    | nil => cases h
    | cons a l =>
      rw [readAll_cons hbody.consumes] at h
      cases hturn : body s a l with
      | none => rw [hturn] at h; cases h
      | some turn =>
        rw [hturn] at h
        cases turn with
        | failed error => cases h
        | finished s'' rest' =>
          obtain ⟨rfl, rfl⟩ := Prod.mk.inj (Except.ok.inj (Option.some.inj h))
          exact ⟨s, a, l, hturn, List.suffix_refl _⟩
        | continued s'' rest' =>
          have hrest : rest' <:+ l := hbody s a l s'' rest' (Or.inl hturn)
          have hless : rest'.length < len := by
            rw [← hlen, List.length_cons]
            exact Nat.lt_succ_of_le hrest.length_le
          obtain ⟨s₁, a₁, rest₁, hlast, hsuffix⟩ := ih rest'.length hless h rfl
          exact ⟨s₁, a₁, rest₁, hlast, hsuffix.trans (hrest.trans (List.suffix_cons a l))⟩

/-- What a loop that ends with success leaves is the end of what it was given. -/
theorem suffix_of_readAll (hbody : Follows body) {l rest : List α} {s s' : σ}
    (h : readAll body l s = some (.ok (s', rest))) : rest <:+ l := by
  obtain ⟨s₁, a, rest₁, hlast, hsuffix⟩ := finished_of_readAll hbody h
  have hrest : rest <:+ rest₁ := hbody s₁ a rest₁ s' rest (Or.inr hlast)
  exact hrest.trans ((List.suffix_cons a rest₁).trans hsuffix)

/-- An iteration that runs an inner loop and goes on behind what that has read. -/
def Turn.afterRead {ε' β : Type*} (onError : ε' → ε) (onOk : β → σ) :
    Option (Except ε' (β × List α)) → Option (Turn σ ε α)
  | none => none
  | some (.error error) => some (.failed (onError error))
  | some (.ok (result, rest)) => some (.continued (onOk result) rest)

/-- An iteration that runs an inner loop goes on exactly if that ends with success. -/
theorem Turn.afterRead_eq_continued {ε' β : Type*} {onError : ε' → ε} {onOk : β → σ}
    {r : Option (Except ε' (β × List α))} {s : σ} {rest : List α}
    (h : Turn.afterRead onError onOk r = some (.continued s rest)) :
    ∃ result, r = some (.ok (result, rest)) ∧ s = onOk result := by
  match r with
  | none => cases h
  | some (.error error) => cases h
  | some (.ok (result, rest')) =>
    obtain ⟨rfl, rfl⟩ := Turn.continued.inj (Option.some.inj h)
    exact ⟨result, rfl, rfl⟩

/-- An iteration that runs an inner loop does not leave its own loop with success. -/
theorem Turn.afterRead_ne_finished {ε' β : Type*} {onError : ε' → ε} {onOk : β → σ}
    {r : Option (Except ε' (β × List α))} {s : σ} {rest : List α} :
    Turn.afterRead onError onOk r ≠ some (.finished s rest) := by
  match r with
  | none => exact nofun
  | some (.error error) => exact nofun
  | some (.ok (result, rest')) => exact nofun

/-! ## Loops inside of a run

A run that is in a loop reads on by itself where the loop ends.  `behind` is what comes of a run
given how the loop ends, and `Turn.behind` given how an iteration does. -/

variable {β : Type*}

/-- What comes of a run behind a loop: an error ends it, and otherwise it reads on. -/
def behind (onError : ε → β) (onOk : σ → List α → Option β) :
    Option (Except ε (σ × List α)) → Option β
  | none => none
  | some (.error error) => some (onError error)
  | some (.ok (s, rest)) => onOk s rest

/-- What comes of a run behind an iteration. -/
def Turn.behind (onError : ε → β) (onOk goOn : σ → List α → Option β) :
    Option (Turn σ ε α) → Option β
  | none => none
  | some (.failed error) => some (onError error)
  | some (.finished s rest) => onOk s rest
  | some (.continued s rest) => goOn s rest

/-- The same end of an iteration with another rest of the stream. -/
def Turn.withRest (rest : List α) : Turn σ ε α → Turn σ ε α
  | failed error => failed error
  | finished s _ => finished s rest
  | continued s _ => continued s rest

/-- Behind an iteration that runs an inner loop, the run goes on where that loop ends. -/
theorem Turn.behind_afterRead {ε' τ : Type*} {onError : ε → β} {onOk goOn : σ → List α → Option β}
    {errorOf : ε' → ε} {stateOf : τ → σ} (r : Option (Except ε' (τ × List α))) :
    Turn.behind onError onOk goOn (Turn.afterRead errorOf stateOf r) =
      Library.behind (fun error => onError (errorOf error))
        (fun result rest => goOn (stateOf result) rest) r := by
  match r with
  | none => rfl
  | some (.error error) => rfl
  | some (.ok (result, rest)) => rfl

/-- A run that does one iteration of a loop after the other reads what the loop reads. -/
theorem eq_behind_readAll (hbody : Consumes body) (run : σ → List α → Option β) {onError : ε → β}
    {onOk : σ → List α → Option β} (hnil : ∀ s, run s [] = none)
    (hcons : ∀ s a rest, run s (a :: rest) = Turn.behind onError onOk run (body s a rest))
    (l : List α) (s : σ) : run s l = behind onError onOk (readAll body l s) := by
  induction hlen : l.length using Nat.strongRecOn generalizing l s with
  | ind len ih =>
    cases l with
    | nil => exact hnil s
    | cons a rest =>
      rw [hcons, readAll_cons hbody]
      cases hturn : body s a rest with
      | none => rfl
      | some turn =>
        cases turn with
        | failed error => rfl
        | finished s' rest' => rfl
        | continued s' rest' =>
          have hshort := hbody s a rest s' rest' (Or.inl hturn)
          have hless : rest'.length < len := by
            rw [← hlen, List.length_cons]
            omega
          exact ih rest'.length hless rest' s' rfl

end ReadLoop

end Library
