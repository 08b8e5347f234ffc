import Mathlib.Data.Nat.Bitwise
import Mathlib.Tactic.Ring

/-!
# Rows of digits

A number format writes a row of bits as a row of digits of a fixed width, the most significant bit
first.  Two rows have the same first `k` digits exactly if they have the same first `width * k` bits
(`take_eq_take_iff`), and cutting every digit in two halves does not change the bits
(`digitBit_halves`).
-/

namespace Library

/-- Bit `i` of a row of digits; behind the row all bits are zero. -/
def digitBit (width : ℕ) (digits : List ℕ) (i : ℕ) : Bool :=
  (digits.getD (i / width) 0).testBit (width - 1 - i % width)

/-- Every digit of the row fits its width. -/
def AreDigits (width : ℕ) (digits : List ℕ) : Prop :=
  ∀ d ∈ digits, d < 2 ^ width

/-- Each digit of twice the width cut in two, the upper half first. -/
def halves (width : ℕ) (digits : List ℕ) : List ℕ :=
  digits.flatMap fun d => [d / 2 ^ width, d % 2 ^ width]

variable {width : ℕ}

theorem digitBit_cons_of_lt {d i : ℕ} (ds : List ℕ) (hi : i < width) :
    digitBit width (d :: ds) i = d.testBit (width - 1 - i) := by
  rw [digitBit, Nat.div_eq_of_lt hi, Nat.mod_eq_of_lt hi, List.getD_cons_zero]

theorem digitBit_cons_add (hwidth : 0 < width) (d : ℕ) (ds : List ℕ) (i : ℕ) :
    digitBit width (d :: ds) (width + i) = digitBit width ds i := by
  rw [digitBit, digitBit, Nat.add_mod_left, Nat.add_div_left i hwidth, List.getD_cons_succ]

/-- A digit is known by its bits. -/
theorem digit_ext {d e : ℕ} (hd : d < 2 ^ width) (he : e < 2 ^ width)
    (h : ∀ i < width, d.testBit (width - 1 - i) = e.testBit (width - 1 - i)) : d = e := by
  apply Nat.eq_of_testBit_eq
  intro j
  rcases lt_or_ge j width with hj | hj
  · have hbit := h (width - 1 - j) (by omega)
    have hindex : width - 1 - (width - 1 - j) = j := by omega
    rwa [hindex] at hbit
  · have hpow : 2 ^ width ≤ 2 ^ j := Nat.pow_le_pow_right two_pos hj
    rw [Nat.testBit_lt_two_pow (hd.trans_le hpow), Nat.testBit_lt_two_pow (he.trans_le hpow)]

/-- Rows have the same first digits exactly if they have the same first bits. -/
theorem take_eq_take_iff (hwidth : 0 < width) {k : ℕ} {ds es : List ℕ} (hds : AreDigits width ds)
    (hes : AreDigits width es) (hk : k ≤ ds.length) (hk' : k ≤ es.length) :
    ds.take k = es.take k ↔ ∀ i < width * k, digitBit width ds i = digitBit width es i := by
  induction k generalizing ds es with
  | zero => simp
  | succ k ih =>
    obtain ⟨d, ds, rfl⟩ := List.exists_cons_of_length_pos (Nat.zero_lt_of_lt hk)
    obtain ⟨e, es, rfl⟩ := List.exists_cons_of_length_pos (Nat.zero_lt_of_lt hk')
    have hrest := ih (fun x hx => hds x (List.mem_cons_of_mem d hx))
      (fun x hx => hes x (List.mem_cons_of_mem e hx)) (Nat.le_of_succ_le_succ hk)
      (Nat.le_of_succ_le_succ hk')
    rw [List.take_succ_cons, List.take_succ_cons, List.cons.injEq, hrest]
    constructor
    · rintro ⟨rfl, htail⟩ i hi
      rcases lt_or_ge i width with hlt | hge
      · rw [digitBit_cons_of_lt ds hlt, digitBit_cons_of_lt es hlt]
      · obtain ⟨j, rfl⟩ := Nat.exists_eq_add_of_le hge
        rw [Nat.mul_succ] at hi
        rw [digitBit_cons_add hwidth, digitBit_cons_add hwidth]
        exact htail j (by omega)
    · intro h
      constructor
      · apply digit_ext (hds d List.mem_cons_self) (hes e List.mem_cons_self)
        intro i hi
        have hbit := h i (hi.trans_le (Nat.le_mul_of_pos_right width k.succ_pos))
        rwa [digitBit_cons_of_lt ds hi, digitBit_cons_of_lt es hi] at hbit
      · intro i hi
        have hbit := h (width + i) (by rw [Nat.mul_succ]; omega)
        rwa [digitBit_cons_add hwidth, digitBit_cons_add hwidth] at hbit

/-- The halves are digits of half the width. -/
theorem areDigits_halves {digits : List ℕ} (h : AreDigits (2 * width) digits) :
    AreDigits width (halves width digits) := by
  intro x hx
  obtain ⟨d, hd, hx⟩ := List.mem_flatMap.mp hx
  simp only [List.mem_cons, List.not_mem_nil, or_false] at hx
  rcases hx with rfl | rfl
  · apply Nat.div_lt_of_lt_mul
    rw [← pow_add, ← two_mul]
    exact h d hd
  · exact Nat.mod_lt d (Nat.two_pow_pos width)

theorem length_halves (digits : List ℕ) : (halves width digits).length = 2 * digits.length := by
  induction digits with
  | nil => rfl
  | cons d digits ih =>
    rw [halves, List.flatMap_cons, List.length_append, ← halves, ih, List.length_cons]
    simp only [List.length_cons, List.length_nil]
    ring

/-- Cutting the digits in halves leaves the bits as they are. -/
theorem digitBit_halves (hwidth : 0 < width) (digits : List ℕ) (i : ℕ) :
    digitBit width (halves width digits) i = digitBit (2 * width) digits i := by
  induction digits generalizing i with
  | nil => simp [digitBit, halves]
  | cons d digits ih =>
    have hcut : halves width (d :: digits) =
        d / 2 ^ width :: d % 2 ^ width :: halves width digits := rfl
    rw [hcut]
    rcases lt_or_ge i width with hupper | hge
    · rw [digitBit_cons_of_lt _ hupper, digitBit_cons_of_lt _ (by omega), Nat.testBit_div_two_pow]
      congr 1
      omega
    obtain ⟨j, rfl⟩ := Nat.exists_eq_add_of_le hge
    rw [digitBit_cons_add hwidth]
    rcases lt_or_ge j width with hlower | hge'
    · rw [digitBit_cons_of_lt _ hlower, digitBit_cons_of_lt _ (by omega), Nat.testBit_mod_two_pow,
        decide_eq_true (by omega), Bool.true_and]
      congr 1
      omega
    · obtain ⟨l, rfl⟩ := Nat.exists_eq_add_of_le hge'
      rw [digitBit_cons_add hwidth, ih, ← add_assoc, ← two_mul,
        digitBit_cons_add (Nat.mul_pos two_pos hwidth)]

end Library
