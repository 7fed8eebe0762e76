import Mathlib.Data.Nat.Digits.Defs

/-!
# C strings and the numbers in them

A C string is its bytes up to the terminating zero. `atoi` is what the C library makes of
one: blanks, a sign, and digits as far as they go.

1. `takeNumber_eq`: on digits alone, reading from the left gives their place value.
2. `atoi_of_isDecimal`: a decimal numeral that fits is read as the number it is.
-/

namespace Pdrad

/-- The bytes of a string, without the zero behind the last one. -/
structure CString where
  chars : List UInt8
  noNul : 0 ∉ chars
deriving DecidableEq

namespace CString

/-- The first byte that a pointer to the string leads to. -/
def first (s : CString) : UInt8 := s.chars.headD 0

end CString

/-! ## `atoi` -/

/-- `isspace` in the C locale. -/
def isSpace (c : UInt8) : Bool := c = 32 ∨ (9 ≤ c ∧ c ≤ 13)

def isDigit (c : UInt8) : Bool := 48 ≤ c ∧ c ≤ 57

/-- `c - '0'`. -/
def digitValue (c : UInt8) : Nat := c.toNat - 48

/-- Digits, as far as they go, behind digits that came to `v`. -/
def takeNumber : Nat → List UInt8 → Nat
  | v, [] => v
  | v, c :: cs => if isDigit c then takeNumber (10 * v + digitValue c) cs else v

/-- An optional sign, and what is behind it. -/
def takeSign (cs : List UInt8) : Bool × List UInt8 :=
  if cs.head? = some 45 then (true, cs.tail)
  else if cs.head? = some 43 then (false, cs.tail)
  else (false, cs)

/-- `strtol(s, NULL, 10)`, with a `long` of 64 bits. What is out of range is `LONG_MAX`
or `LONG_MIN`. -/
def strtol (s : CString) : Int :=
  let (negative, cs) := takeSign (s.chars.dropWhile isSpace)
  let v := takeNumber 0 cs
  if negative then max (-v) (-2 ^ 63) else min v (2 ^ 63 - 1)

/-- `(int) strtol(s, NULL, 10)`. -/
def atoi (s : CString) : Int :=
  (strtol s).bmod (2 ^ 32)

/-! ## Decimal numerals -/

/-- Digits and nothing else, with the value `n`. -/
structure CString.IsDecimal (s : CString) (n : Nat) : Prop where
  nonempty : s.chars ≠ []
  digits : ∀ c ∈ s.chars, isDigit c
  value : Nat.ofDigits 10 (s.chars.map digitValue).reverse = n

theorem takeNumber_eq {cs : List UInt8} (v : Nat) (h : ∀ c ∈ cs, isDigit c) :
    takeNumber v cs = 10 ^ cs.length * v + Nat.ofDigits 10 (cs.map digitValue).reverse := by
  induction cs generalizing v with
  | nil => simp [takeNumber, Nat.ofDigits_nil]
  | cons c cs ih =>
    obtain ⟨hc, hcs⟩ := List.forall_mem_cons.mp h
    rw [takeNumber, if_pos hc, ih _ hcs, List.map_cons, Nat.ofDigits_reverse_cons,
      List.length_map, List.length_cons, pow_succ]
    ring

/-- A digit is neither a blank nor a sign. -/
theorem not_isSpace_of_isDigit {c : UInt8} (h : isDigit c) :
    isSpace c = false ∧ c ≠ 45 ∧ c ≠ 43 := by
  simp only [isDigit, isSpace, decide_eq_true_eq, decide_eq_false_iff_not, UInt8.le_iff_toNat_le,
    ne_eq, ← UInt8.toNat_inj] at h ⊢
  simp only [UInt8.reduceToNat] at h ⊢
  omega

theorem atoi_of_isDecimal {s : CString} {n : Nat} (h : s.IsDecimal n) (hn : n < 2 ^ 31) :
    atoi s = n := by
  obtain ⟨c, cs, hchars⟩ := List.exists_cons_of_ne_nil h.nonempty
  obtain ⟨hspace, hminus, hplus⟩ := not_isSpace_of_isDigit (h.digits c (by simp [hchars]))
  have hdrop : s.chars.dropWhile isSpace = s.chars := by
    rw [hchars, List.dropWhile_cons_of_neg (by simp [hspace])]
  have hsign : takeSign s.chars = (false, s.chars) := by
    simp [takeSign, hchars, hminus, hplus]
  have hnumber : takeNumber 0 s.chars = n := by
    rw [takeNumber_eq 0 h.digits, h.value, Nat.mul_zero, Nat.zero_add]
  simp only [atoi, strtol, hdrop, hsign, hnumber]
  rw [if_neg (by decide), Int.min_eq_left (by omega)]
  exact Int.bmod_eq_of_le_mul_two (by omega) (by omega)

end Pdrad
