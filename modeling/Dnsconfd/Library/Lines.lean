import Mathlib.Data.List.Basic

/-!
# Lines and words

Texts over an arbitrary alphabet, read back line by line and word by word.  A line ends at a newline;
words are separated by blanks, and a quoted word ends at the next quote.  What a program writes line
by line is read back as it was meant exactly if no newline occurs inside of a line
(`map_lines_unlines_eq_iff`), and a word exactly if it has no blank and no quote inside of it, or, if
it is quoted, no quote (`words_eq_singleton_iff`, `words_quoted_eq_singleton_iff`).
-/

namespace Library

variable {α : Type*} [DecidableEq α]

/-! ## Lines -/

/-- The lines of a text behind the beginning of a line.  A last line without an end counts if it is
not empty. -/
def linesFrom (newline : α) : List α → List α → List (List α)
  | current, [] => if current = [] then [] else [current]
  | current, c :: text =>
    if c = newline then current :: linesFrom newline [] text
    else linesFrom newline (current ++ [c]) text

/-- The lines of a text. -/
def lines (newline : α) (text : List α) : List (List α) :=
  linesFrom newline [] text

/-- A text written line by line. -/
def unlines (newline : α) (ls : List (List α)) : List α :=
  ls.flatMap (· ++ [newline])

variable {newline : α}

/-- Where a line ends, reading starts anew. -/
theorem linesFrom_append (current text rest : List α) :
    linesFrom newline current (text ++ newline :: rest) =
      linesFrom newline current (text ++ [newline]) ++ lines newline rest := by
  induction text generalizing current with
  | nil => simp [linesFrom, lines]
  | cons c text ih =>
    simp only [List.cons_append, linesFrom, ih]
    split <;> rfl

theorem lines_append (text rest : List α) :
    lines newline (text ++ newline :: rest) =
      lines newline (text ++ [newline]) ++ lines newline rest :=
  linesFrom_append [] text rest

/-- A text without a newline is one line. -/
theorem linesFrom_of_not_mem {text : List α} (h : newline ∉ text) (current : List α) :
    linesFrom newline current (text ++ [newline]) = [current ++ text] := by
  induction text generalizing current with
  | nil => simp [linesFrom]
  | cons c text ih =>
    have hc : c ≠ newline := fun heq => h (heq ▸ List.mem_cons_self)
    have htext : newline ∉ text := fun hmem => h (List.mem_cons_of_mem c hmem)
    rw [List.cons_append, linesFrom, if_neg hc, ih htext, List.append_assoc, List.singleton_append]

/-- Every newline ends a line. -/
theorem length_linesFrom (current text : List α) :
    (linesFrom newline current (text ++ [newline])).length = text.count newline + 1 := by
  induction text generalizing current with
  | nil => simp [linesFrom]
  | cons c text ih =>
    rw [List.cons_append, linesFrom]
    split
    · rename_i hc
      rw [List.length_cons, ih, hc, List.count_cons_self]
    · rename_i hc
      rw [ih, List.count_cons_of_ne hc]

/-- A text is read back as one line exactly if there is no newline in it. -/
theorem lines_eq_singleton_iff {text : List α} :
    lines newline (text ++ [newline]) = [text] ↔ newline ∉ text := by
  constructor
  · intro h
    have hlength := congrArg List.length h
    rw [lines, length_linesFrom, List.length_singleton] at hlength
    have hcount : text.count newline = 0 := by omega
    exact List.count_eq_zero.mp hcount
  · intro h
    exact linesFrom_of_not_mem h []

theorem lines_unlines_cons (l : List α) (ls : List (List α)) :
    lines newline (unlines newline (l :: ls)) =
      lines newline (l ++ [newline]) ++ lines newline (unlines newline ls) := by
  have htext : unlines newline (l :: ls) = l ++ newline :: unlines newline ls := by
    simp [unlines]
  rw [htext, lines_append]

/-- There is a line for each one that was written and one more for each newline inside of one. -/
theorem length_lines_unlines (ls : List (List α)) :
    (lines newline (unlines newline ls)).length = ls.length + ls.flatten.count newline := by
  induction ls with
  | nil => rfl
  | cons l ls ih =>
    rw [lines_unlines_cons, List.length_append, ih, lines, length_linesFrom, List.flatten_cons,
      List.count_append, List.length_cons]
    omega

theorem lines_unlines {ls : List (List α)} (h : ∀ l ∈ ls, newline ∉ l) :
    lines newline (unlines newline ls) = ls := by
  induction ls with
  | nil => rfl
  | cons l ls ih =>
    have hl : lines newline (l ++ [newline]) = [l] :=
      lines_eq_singleton_iff.mpr (h l List.mem_cons_self)
    rw [lines_unlines_cons, hl, ih fun l' hl' => h l' (List.mem_cons_of_mem l hl'),
      List.singleton_append]

/-- If as many lines are read back as were written, no newline is inside of one. -/
theorem not_mem_of_length_lines_unlines {ls : List (List α)}
    (h : (lines newline (unlines newline ls)).length = ls.length) : ∀ l ∈ ls, newline ∉ l := by
  rw [length_lines_unlines] at h
  have hcount : ls.flatten.count newline = 0 := by omega
  intro l hl hmem
  exact List.count_eq_zero.mp hcount (List.mem_flatten.mpr ⟨l, hl, hmem⟩)

/-- What is written line by line is read back as meant exactly if no newline is inside of a line and
every line on its own is read as meant. -/
theorem map_lines_unlines_eq_iff {β : Type*} {f : List α → β} {ls : List (List α)} {meant : List β}
    (hlength : meant.length = ls.length) :
    (lines newline (unlines newline ls)).map f = meant ↔
      (∀ l ∈ ls, newline ∉ l) ∧ ls.map f = meant := by
  constructor
  · intro h
    have hlengths := congrArg List.length h
    rw [List.length_map, hlength] at hlengths
    have hclean := not_mem_of_length_lines_unlines hlengths
    rw [lines_unlines hclean] at h
    exact ⟨hclean, h⟩
  · rintro ⟨hclean, h⟩
    rw [lines_unlines hclean, h]

/-- Two readings of the same things are the same if they agree up to the order, and wherever they differ
only the second one has a certain property. -/
theorem forall_eq_of_perm_map {β γ : Type*} {f g : β → γ} {P : γ → Prop} {l : List β}
    (h : (l.map f).Perm (l.map g)) (hP : ∀ x ∈ l, f x ≠ g x → ¬ P (f x) ∧ P (g x)) :
    ∀ x ∈ l, f x = g x := by
  classical
  -- what is read alike can be taken away on both sides
  have hsplit : ∀ r : β → γ, (l.map r).Perm
      ((l.filter fun x => f x = g x).map r ++ (l.filter fun x => ¬ f x = g x).map r) := by
    intro r
    rw [← List.map_append]
    have hperm := List.filter_append_perm (fun x => decide (f x = g x)) l
    simpa only [decide_not] using hperm.symm.map r
  have hsame : (l.filter fun x => f x = g x).map f = (l.filter fun x => f x = g x).map g :=
    List.map_congr_left fun x hx => by simpa using (List.mem_filter.mp hx).2
  have hrest := ((hsplit f).symm.trans h).trans (hsplit g)
  rw [hsame, List.perm_append_left_iff] at hrest
  intro x hx
  by_contra hne
  have hbad : x ∈ l.filter fun x => ¬ f x = g x := List.mem_filter.mpr ⟨hx, by simpa using hne⟩
  obtain ⟨y, hy, heq⟩ := List.mem_map.mp (hrest.mem_iff.mp (List.mem_map_of_mem hbad))
  obtain ⟨hy, hne'⟩ := List.mem_filter.mp hy
  refine (hP x hx hne).1 ?_
  rw [← heq]
  exact (hP y hy (by simpa using hne')).2

/-! ## Words -/

/-- Where a reader of words is in a line. -/
inductive WordState (α : Type*) where
  | between
  | word (current : List α)
  | quoted (current : List α)

/-- The words of the rest of a line. -/
def wordsFrom (isBlank : α → Bool) (quote : α) : WordState α → List α → List (List α)
  | .between, [] => []
  | .between, c :: text =>
    if isBlank c then wordsFrom isBlank quote .between text
    else if c = quote then wordsFrom isBlank quote (.quoted []) text
    else wordsFrom isBlank quote (.word [c]) text
  | .word current, [] => [current]
  | .word current, c :: text =>
    if isBlank c then current :: wordsFrom isBlank quote .between text
    else if c = quote then current :: wordsFrom isBlank quote (.quoted []) text
    else wordsFrom isBlank quote (.word (current ++ [c])) text
  | .quoted current, [] => [current]
  | .quoted current, c :: text =>
    if c = quote then current :: wordsFrom isBlank quote .between text
    else wordsFrom isBlank quote (.quoted (current ++ [c])) text

/-- The words of a line. -/
def words (isBlank : α → Bool) (quote : α) (line : List α) : List (List α) :=
  wordsFrom isBlank quote .between line

variable {isBlank : α → Bool} {quote : α}

/-- What has been read of the current word. -/
def WordState.current : WordState α → List α
  | between => []
  | word current => current
  | quoted current => current

/-- The reader is not inside of quotes. -/
def WordState.isOpen : WordState α → Bool
  | quoted _ => false
  | _ => true

/-- No word that is read has a quote in it. -/
theorem quote_not_mem_wordsFrom {s : WordState α} {text w : List α} (hs : quote ∉ s.current)
    (hw : w ∈ wordsFrom isBlank quote s text) : quote ∉ w := by
  induction text generalizing s with
  | nil =>
    cases s with
    | between => cases hw
    | word current | quoted current => exact List.mem_singleton.mp hw ▸ hs
  | cons c text ih =>
    have hnil : quote ∉ ([] : List α) := List.not_mem_nil
    have happend : ∀ {current : List α}, quote ∉ current → c ≠ quote → quote ∉ current ++ [c] := by
      intro current hcurrent hc hmem
      rcases List.mem_append.mp hmem with hmem | hmem
      · exact hcurrent hmem
      · exact hc (List.mem_singleton.mp hmem).symm
    cases s with
    | between =>
      simp only [wordsFrom] at hw
      split_ifs at hw with hblank hquote
      · exact ih (s := .between) hnil hw
      · exact ih (s := .quoted []) hnil hw
      · exact ih (s := .word [c]) (happend hnil hquote) hw
    | word current =>
      simp only [wordsFrom] at hw
      split_ifs at hw with hblank hquote
      · rcases List.mem_cons.mp hw with rfl | hw
        · exact hs
        · exact ih (s := .between) hnil hw
      · rcases List.mem_cons.mp hw with rfl | hw
        · exact hs
        · exact ih (s := .quoted []) hnil hw
      · exact ih (s := .word (current ++ [c])) (happend hs hquote) hw
    | quoted current =>
      simp only [wordsFrom] at hw
      split_ifs at hw with hquote
      · rcases List.mem_cons.mp hw with rfl | hw
        · exact hs
        · exact ih (s := .between) hnil hw
      · exact ih (s := .quoted (current ++ [c])) (happend hs hquote) hw

/-- Without quotes no word has a blank in it. -/
theorem not_isBlank_of_mem_wordsFrom {s : WordState α} {text w : List α} (hopen : s.isOpen = true)
    (hs : ∀ c ∈ s.current, isBlank c = false) (hquote : quote ∉ text)
    (hw : w ∈ wordsFrom isBlank quote s text) : ∀ c ∈ w, isBlank c = false := by
  induction text generalizing s with
  | nil =>
    cases s with
    | between => cases hw
    | word current => exact List.mem_singleton.mp hw ▸ hs
    | quoted current => cases hopen
  | cons c text ih =>
    have hc : c ≠ quote := fun heq => hquote (heq ▸ List.mem_cons_self)
    have htext : quote ∉ text := fun hmem => hquote (List.mem_cons_of_mem c hmem)
    have hnil : ∀ c ∈ ([] : List α), isBlank c = false := fun _ hmem => by cases hmem
    cases s with
    | between =>
      simp only [wordsFrom, if_neg hc] at hw
      split_ifs at hw with hblank
      · exact ih (s := .between) rfl hnil htext hw
      · refine ih (s := .word [c]) rfl (fun c' hc' => ?_) htext hw
        rw [List.mem_singleton.mp hc']
        exact Bool.not_eq_true _ ▸ hblank
    | word current =>
      simp only [wordsFrom, if_neg hc] at hw
      split_ifs at hw with hblank
      · rcases List.mem_cons.mp hw with rfl | hw
        · exact hs
        · exact ih (s := .between) rfl hnil htext hw
      · refine ih (s := .word (current ++ [c])) rfl (fun c' hc' => ?_) htext hw
        rcases List.mem_append.mp hc' with hold | hnew
        · exact hs c' hold
        · rw [List.mem_singleton.mp hnew]
          exact Bool.not_eq_true _ ▸ hblank
    | quoted current => cases hopen

/-- Without quotes no word is empty. -/
theorem ne_nil_of_mem_wordsFrom {s : WordState α} {text w : List α} (hopen : s.isOpen = true)
    (hs : ∀ current, s = .word current → current ≠ []) (hquote : quote ∉ text)
    (hw : w ∈ wordsFrom isBlank quote s text) : w ≠ [] := by
  induction text generalizing s with
  | nil =>
    cases s with
    | between => cases hw
    | word current => exact List.mem_singleton.mp hw ▸ hs current rfl
    | quoted current => cases hopen
  | cons c text ih =>
    have hc : c ≠ quote := fun heq => hquote (heq ▸ List.mem_cons_self)
    have htext : quote ∉ text := fun hmem => hquote (List.mem_cons_of_mem c hmem)
    cases s with
    | between =>
      simp only [wordsFrom, if_neg hc] at hw
      split_ifs at hw with hblank
      · exact ih (s := .between) rfl (by simp) htext hw
      · exact ih (s := .word [c]) rfl (by simp) htext hw
    | word current =>
      simp only [wordsFrom, if_neg hc] at hw
      split_ifs at hw with hblank
      · rcases List.mem_cons.mp hw with rfl | hw
        · exact hs w rfl
        · exact ih (s := .between) rfl (by simp) htext hw
      · exact ih (s := .word (current ++ [c])) rfl (by simp) htext hw
    | quoted current => cases hopen

/-- A word without blanks and quotes. -/
def IsPlainWord (isBlank : α → Bool) (quote : α) (w : List α) : Prop :=
  ∀ c ∈ w, isBlank c = false ∧ c ≠ quote

instance (isBlank : α → Bool) (quote : α) (w : List α) : Decidable (IsPlainWord isBlank quote w) :=
  inferInstanceAs (Decidable (∀ c ∈ w, isBlank c = false ∧ c ≠ quote))

theorem wordsFrom_word {w : List α} (h : IsPlainWord isBlank quote w) (current : List α) :
    wordsFrom isBlank quote (.word current) w = [current ++ w] := by
  induction w generalizing current with
  | nil => simp [wordsFrom]
  | cons c w ih =>
    obtain ⟨hblank, hquote⟩ := h c List.mem_cons_self
    have hrest : IsPlainWord isBlank quote w := fun c' hc' => h c' (List.mem_cons_of_mem c hc')
    rw [wordsFrom, if_neg (by simp [hblank]), if_neg hquote, ih hrest, List.append_assoc,
      List.singleton_append]

/-- A blank ends a word. -/
theorem wordsFrom_word_append {w : List α} (h : IsPlainWord isBlank quote w) {b : α}
    (hb : isBlank b = true) (current rest : List α) :
    wordsFrom isBlank quote (.word current) (w ++ b :: rest) =
      (current ++ w) :: words isBlank quote rest := by
  induction w generalizing current with
  | nil => simp [wordsFrom, words, hb]
  | cons c w ih =>
    obtain ⟨hblank, hquote⟩ := h c List.mem_cons_self
    have hrest : IsPlainWord isBlank quote w := fun c' hc' => h c' (List.mem_cons_of_mem c hc')
    rw [List.cons_append, wordsFrom, if_neg (by simp [hblank]), if_neg hquote, ih hrest,
      List.append_assoc, List.singleton_append]

/-- A line that starts with a blank, a plain word and a blank. -/
theorem words_keyword {w : List α} (hne : w ≠ []) (h : IsPlainWord isBlank quote w) {b b' : α}
    (hb : isBlank b = true) (hb' : isBlank b' = true) (rest : List α) :
    words isBlank quote (b :: (w ++ b' :: rest)) = w :: words isBlank quote rest := by
  obtain ⟨c, w, rfl⟩ := List.exists_cons_of_ne_nil hne
  obtain ⟨hblank, hquote⟩ := h c List.mem_cons_self
  have hrest : IsPlainWord isBlank quote w := fun c' hc' => h c' (List.mem_cons_of_mem c hc')
  rw [words, wordsFrom, if_pos hb, List.cons_append, wordsFrom, if_neg (by simp [hblank]),
    if_neg hquote, wordsFrom_word_append hrest hb', List.singleton_append]

/-- A text is read back as one word exactly if it is a plain word and not empty. -/
theorem words_eq_singleton_iff {w : List α} :
    words isBlank quote w = [w] ↔ w ≠ [] ∧ IsPlainWord isBlank quote w := by
  constructor
  · intro h
    have hmem : w ∈ wordsFrom isBlank quote .between w := by
      have hwords : wordsFrom isBlank quote .between w = [w] := h
      rw [hwords]
      exact List.mem_singleton_self w
    have hquote : quote ∉ w := quote_not_mem_wordsFrom (s := .between) List.not_mem_nil hmem
    have hblank : ∀ c ∈ w, isBlank c = false :=
      not_isBlank_of_mem_wordsFrom (s := .between) rfl (fun _ hc => by cases hc) hquote hmem
    refine ⟨?_, fun c hc => ⟨hblank c hc, fun heq => hquote (heq ▸ hc)⟩⟩
    rintro rfl
    cases h
  · rintro ⟨hne, hplain⟩
    obtain ⟨c, w, rfl⟩ := List.exists_cons_of_ne_nil hne
    obtain ⟨hblank, hquote⟩ := hplain c List.mem_cons_self
    have hrest : IsPlainWord isBlank quote w := fun c' hc' => hplain c' (List.mem_cons_of_mem c hc')
    rw [words, wordsFrom, if_neg (by simp [hblank]), if_neg hquote, wordsFrom_word hrest,
      List.singleton_append]

/-- Plain words joined by a blank are read back. -/
theorem words_intercalate {ws : List (List α)} {b : α} (hb : isBlank b = true)
    (h : ∀ w ∈ ws, w ≠ [] ∧ IsPlainWord isBlank quote w) :
    words isBlank quote ([b].intercalate ws) = ws := by
  induction ws with
  | nil => rfl
  | cons w ws ih =>
    obtain ⟨hne, hplain⟩ := h w List.mem_cons_self
    cases ws with
    | nil =>
      rw [List.intercalate_singleton]
      exact words_eq_singleton_iff.mpr ⟨hne, hplain⟩
    | cons w' ws =>
      have hrest := ih fun v hv => h v (List.mem_cons_of_mem w hv)
      obtain ⟨c, w, rfl⟩ := List.exists_cons_of_ne_nil hne
      obtain ⟨hblank, hquote⟩ := hplain c List.mem_cons_self
      have htail : IsPlainWord isBlank quote w := fun d hd => hplain d (List.mem_cons_of_mem c hd)
      rw [List.intercalate_cons_cons, List.append_assoc, List.singleton_append, List.cons_append,
        words, wordsFrom, if_neg (by simp [hblank]), if_neg hquote,
        wordsFrom_word_append htail hb, hrest, List.singleton_append]

theorem wordsFrom_quoted {w : List α} (h : quote ∉ w) (current : List α) :
    wordsFrom isBlank quote (.quoted current) (w ++ [quote]) = [current ++ w] := by
  induction w generalizing current with
  | nil => simp [wordsFrom]
  | cons c w ih =>
    have hc : c ≠ quote := fun heq => h (heq ▸ List.mem_cons_self)
    have hrest : quote ∉ w := fun hmem => h (List.mem_cons_of_mem c hmem)
    rw [List.cons_append, wordsFrom, if_neg hc, ih hrest, List.append_assoc, List.singleton_append]

/-- A text between quotes is read back as one word exactly if there is no quote in it. -/
theorem words_quoted_eq_singleton_iff {w : List α} (hblank : isBlank quote = false) :
    words isBlank quote (quote :: (w ++ [quote])) = [w] ↔ quote ∉ w := by
  have hwords : words isBlank quote (quote :: (w ++ [quote])) =
      wordsFrom isBlank quote (.quoted []) (w ++ [quote]) := by
    rw [words, wordsFrom, if_neg (by simp [hblank]), if_pos rfl]
  rw [hwords]
  constructor
  · intro h
    have hmem : w ∈ wordsFrom isBlank quote (.quoted []) (w ++ [quote]) := by
      rw [h]
      exact List.mem_singleton_self w
    exact quote_not_mem_wordsFrom (s := .quoted []) List.not_mem_nil hmem
  · intro h
    exact wordsFrom_quoted h []

end Library
