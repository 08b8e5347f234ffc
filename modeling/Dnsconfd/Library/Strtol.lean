import Mathlib.Data.List.Basic
import Mathlib.Data.List.TakeWhile
import Mathlib.Algebra.Order.Ring.Int

/-!
# Decimal numbers in C text

`strtol` with base ten on a 64-bit `long`: leading white space and a sign are skipped, the
longest run of digits is read and its value is clamped to the range of the type.  The end of
the number is returned as the unread rest of the text; text without a number gives zero and is
returned whole.
-/

namespace Library

/-- `isspace` in the C locale. -/
def isSpace (c : Char) : Bool :=
  c = ' ' || c = '\t' || c = '\n' || c = '\x0b' || c = '\x0c' || c = '\r'

/-- Keep a value within the range of a 64-bit `long`. -/
def clampLong (v : ℤ) : ℤ :=
  max (-2 ^ 63) (min (2 ^ 63 - 1) v)

/-- Skip an optional sign and tell whether it was a minus. -/
def readSign : List Char → Bool × List Char
  | '-' :: rest => (true, rest)
  | '+' :: rest => (false, rest)
  | text => (false, text)

/-- `strtol(text, &end, 10)`: the value and the text from `end` on. -/
def strtol (text : List Char) : ℤ × List Char :=
  let signed := readSign (text.dropWhile isSpace)
  let digits := signed.2.takeWhile Char.isDigit
  let value : ℤ := Nat.ofDigitChars 10 digits 0
  if digits = [] then (0, text)
  else (clampLong (if signed.1 then -value else value), signed.2.dropWhile Char.isDigit)

/-- A digit is neither white space nor a sign. -/
theorem isSpace_eq_false_of_isDigit {c : Char} (hc : c.isDigit = true) : isSpace c = false := by
  have hlow : '0'.val ≤ c.val := by
    simp only [Char.isDigit, Bool.and_eq_true, decide_eq_true_eq] at hc
    exact hc.1
  have hne : ∀ d : Char, d.val < '0'.val → c ≠ d := by
    rintro d hd rfl
    exact absurd hlow (UInt32.not_le.mpr hd)
  simp [isSpace, hne ' ' (by decide), hne '\t' (by decide), hne '\n' (by decide),
    hne '\x0b' (by decide), hne '\x0c' (by decide), hne '\r' (by decide)]

/-- Text that starts with a digit has no sign. -/
theorem readSign_of_isDigit {c : Char} {text : List Char} (hc : c.isDigit = true) :
    readSign (c :: text) = (false, c :: text) := by
  have hplus : c ≠ '+' := by rintro rfl; exact absurd hc (by decide)
  have hminus : c ≠ '-' := by rintro rfl; exact absurd hc (by decide)
  unfold readSign
  split
  · exact absurd (List.cons.inj ‹_›).1 hminus
  · exact absurd (List.cons.inj ‹_›).1 hplus
  · rfl

/-- A text of optional white space, an optional sign and at least one digit, with the number that it
denotes. -/
inductive IsDecimal : List Char → ℤ → Prop
  | unsigned {spaces digits : List Char} (hspaces : ∀ c ∈ spaces, isSpace c = true)
      (hdigits : ∀ c ∈ digits, c.isDigit = true) (hne : digits ≠ []) :
      IsDecimal (spaces ++ digits) (Nat.ofDigitChars 10 digits 0)
  | plus {spaces digits : List Char} (hspaces : ∀ c ∈ spaces, isSpace c = true)
      (hdigits : ∀ c ∈ digits, c.isDigit = true) (hne : digits ≠ []) :
      IsDecimal (spaces ++ '+' :: digits) (Nat.ofDigitChars 10 digits 0)
  | minus {spaces digits : List Char} (hspaces : ∀ c ∈ spaces, isSpace c = true)
      (hdigits : ∀ c ∈ digits, c.isDigit = true) (hne : digits ≠ []) :
      IsDecimal (spaces ++ '-' :: digits) (-(Nat.ofDigitChars 10 digits 0 : ℤ))

/-- Nothing is left behind white space, a sign and digits. -/
lemma strtol_of_readSign {spaces rest digits : List Char} {negative : Bool}
    (hspaces : ∀ c ∈ spaces, isSpace c = true) (hrest : rest.dropWhile isSpace = rest)
    (hsign : readSign rest = (negative, digits)) (hdigits : ∀ c ∈ digits, c.isDigit = true)
    (hne : digits ≠ []) :
    strtol (spaces ++ rest) =
      (clampLong (if negative then -(Nat.ofDigitChars 10 digits 0 : ℤ)
        else Nat.ofDigitChars 10 digits 0), []) := by
  have hskip : (spaces ++ rest).dropWhile isSpace = rest := by
    rw [List.dropWhile_append_of_pos hspaces, hrest]
  have htake : digits.takeWhile Char.isDigit = digits := List.takeWhile_eq_self_iff.mpr hdigits
  have hdrop : digits.dropWhile Char.isDigit = [] := List.dropWhile_eq_nil_iff.mpr hdigits
  simp only [strtol, hskip, hsign, htake, hdrop, hne, if_false]

/-- `strtol` reads the number of such a text, as far as the type can hold it, and leaves nothing. -/
theorem strtol_of_isDecimal {text : List Char} {value : ℤ} (h : IsDecimal text value) :
    strtol text = (clampLong value, []) := by
  have hcons : ∀ {c : Char} {rest : List Char}, isSpace c = false →
      (c :: rest).dropWhile isSpace = c :: rest := by
    intro c rest hc
    exact List.dropWhile_cons_of_neg (by simp [hc])
  cases h with
  | @unsigned spaces digits hspaces hdigits hne =>
    obtain ⟨c, digits, rfl⟩ := List.exists_cons_of_ne_nil hne
    have hc : c.isDigit = true := hdigits c List.mem_cons_self
    exact strtol_of_readSign hspaces (hcons (isSpace_eq_false_of_isDigit hc))
      (readSign_of_isDigit hc) hdigits hne
  | plus hspaces hdigits hne => exact strtol_of_readSign hspaces (hcons rfl) rfl hdigits hne
  | minus hspaces hdigits hne => exact strtol_of_readSign hspaces (hcons rfl) rfl hdigits hne

/-- If `strtol` leaves nothing of a text, the text is empty or a number. -/
theorem isDecimal_of_strtol {text : List Char} (h : (strtol text).2 = []) :
    text = [] ∨ ∃ value, IsDecimal text value := by
  have hspaces : ∀ c ∈ text.takeWhile isSpace, isSpace c = true :=
    fun c hc => List.mem_takeWhile_imp hc
  have htext := List.takeWhile_append_dropWhile (p := isSpace) (l := text)
  simp only [strtol] at h
  split at h
  · exact Or.inl h
  · rename_i hsome
    have hdigits : ∀ c ∈ (readSign (text.dropWhile isSpace)).2, c.isDigit = true :=
      List.dropWhile_eq_nil_iff.mp h
    have hne : (readSign (text.dropWhile isSpace)).2 ≠ [] := by
      intro hnil
      rw [hnil] at hsome
      exact hsome rfl
    refine Or.inr ?_
    unfold readSign at hdigits hne
    split at hdigits
    · rename_i digits hminus
      rw [← htext, hminus]
      rw [hminus] at hne
      exact ⟨_, .minus hspaces hdigits hne⟩
    · rename_i digits hplus
      rw [← htext, hplus]
      rw [hplus] at hne
      exact ⟨_, .plus hspaces hdigits hne⟩
    · rename_i hnotMinus hnotPlus
      rw [← htext]
      refine ⟨_, .unsigned hspaces hdigits ?_⟩
      intro hnil
      rw [hnil] at hne
      exact hne rfl

/-- Reading back the decimal form of a number that fits gives the number and leaves nothing. -/
theorem strtol_toDigits {n : ℕ} (hn : n < 2 ^ 63) :
    strtol (Nat.toDigits 10 n) = ((n : ℤ), []) := by
  have hdigit : ∀ c ∈ Nat.toDigits 10 n, c.isDigit = true := fun c hc =>
    Nat.isDigit_of_mem_toDigits (by decide) (by decide) hc
  have hdecimal : IsDecimal (Nat.toDigits 10 n) (Nat.ofDigitChars 10 (Nat.toDigits 10 n) 0) :=
    @IsDecimal.unsigned [] _ (by simp) hdigit Nat.toDigits_ne_nil
  have hclamp : clampLong (n : ℤ) = n := by
    unfold clampLong
    omega
  rw [strtol_of_isDecimal hdecimal, Nat.ofDigitChars_ten_toDigits, hclamp]

end Library
