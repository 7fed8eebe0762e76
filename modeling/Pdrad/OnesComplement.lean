import Mathlib.Algebra.BigOperators.Group.List.Basic
import Pdrad.Bytes

/-!
# One's complement sums

Addition with an end-around carry on the numbers `0..M`, where `M` has all bits
set (65535 for 16 bit words). Both `0` and `M` stand for zero.

1. `sum_eq`: a sum is determined by the plain sum of its words: it is 0 when they
   all are, and otherwise the representative in `1..M`.
2. `fold_add`: the sum of a concatenation is the sum of the two sums.
3. `sum_eq_top_iff`: when a sum is all ones, which is what a receiver checks.
4. `dvd_beWords_iff`: whether it is does not depend on the byte order of the words.
-/

namespace Pdrad

namespace OnesComplement

/-- Addition with end-around carry. -/
def add (M a b : Nat) : Nat :=
  if a + b ≤ M then a + b else a + b - M

/-- The sum of a list of words. -/
def sum (M : Nat) (ws : List Nat) : Nat :=
  ws.foldl (add M) 0

/-- The number of `0..M` that `n` is folded to. Only 0 is folded to 0. -/
def fold (M n : Nat) : Nat :=
  if n = 0 then 0 else (n - 1) % M + 1

section

variable {M n : Nat}

@[simp] theorem fold_zero : fold M 0 = 0 := rfl

theorem fold_succ (k : Nat) : fold M (k + 1) = k % M + 1 := rfl

theorem fold_of_le (h : n ≤ M) : fold M n = n := by
  cases n with
  | zero => rfl
  | succ k => rw [fold_succ, Nat.mod_eq_of_lt h]

theorem fold_le (hM : 0 < M) : fold M n ≤ M := by
  cases n with
  | zero => exact Nat.zero_le M
  | succ k =>
    exact Nat.mod_lt k hM

theorem fold_eq_zero_iff : fold M n = 0 ↔ n = 0 := by
  cases n with
  | zero => simp
  | succ k => simp [fold_succ]

theorem fold_mod : fold M n % M = n % M := by
  cases n with
  | zero => rfl
  | succ k => rw [fold_succ, Nat.mod_add_mod]

theorem fold_eq_top_iff (hM : 0 < M) : fold M n = M ↔ n ≠ 0 ∧ M ∣ n := by
  constructor
  · intro h
    refine ⟨?_, ?_⟩
    · rintro rfl
      exact absurd h (Nat.ne_of_lt hM)
    · rw [Nat.dvd_iff_mod_eq_zero, ← fold_mod, h, Nat.mod_self]
  · rintro ⟨hn, k, rfl⟩
    cases k with
    | zero => exact absurd rfl hn
    | succ k =>
      have htop : M * (k + 1) = M * k + (M - 1) + 1 := by
        rw [Nat.mul_succ]
        omega
      rw [htop, fold_succ, Nat.mul_add_mod_self_left, Nat.mod_eq_of_lt (Nat.sub_lt hM Nat.one_pos)]
      exact Nat.sub_add_cancel hM

/-- One addition to a folded number. -/
theorem add_fold (hM : 0 < M) {b : Nat} (hb : b ≤ M) : add M (fold M n) b = fold M (n + b) := by
  cases n with
  | zero => rw [fold_zero, Nat.zero_add, fold_of_le hb, add, Nat.zero_add, if_pos hb]
  | succ k =>
    have hk : k % M < M := Nat.mod_lt k hM
    rw [Nat.succ_add, fold_succ, fold_succ, ← Nat.mod_add_mod k M b, add]
    split
    · have hsmall : (k % M + b) % M = k % M + b := Nat.mod_eq_of_lt (by omega)
      omega
    · have hwrap : (k % M + b) % M = k % M + b - M := by
        rw [Nat.mod_eq_sub_mod (by omega), Nat.mod_eq_of_lt (by omega)]
      omega

theorem foldl_add (hM : 0 < M) {ws : List Nat} (hws : ∀ w ∈ ws, w ≤ M) :
    ws.foldl (add M) (fold M n) = fold M (n + ws.sum) := by
  induction ws generalizing n with
  | nil => rfl
  | cons w ws ih =>
    rw [List.foldl_cons, add_fold hM (hws w List.mem_cons_self),
      ih fun v hv => hws v (List.mem_cons_of_mem w hv), List.sum_cons, Nat.add_assoc]

theorem add_le {a b : Nat} (ha : a ≤ M) (hb : b ≤ M) : add M a b ≤ M := by
  unfold add
  split
  · assumption
  · omega

theorem add_assoc {a b c : Nat} (ha : a ≤ M) (hb : b ≤ M) (hc : c ≤ M) :
    add M (add M a b) c = add M a (add M b c) := by
  by_cases hab : a + b ≤ M <;> by_cases hbc : b + c ≤ M <;>
    simp only [add, hab, hbc, if_true, if_false] <;> split <;> split <;> omega

/-- Two parts may be folded before they are added. -/
theorem fold_add (hM : 0 < M) (k : Nat) : fold M (n + k) = add M (fold M n) (fold M k) := by
  have hn := fold_le (n := n) hM
  induction k with
  | zero =>
    rw [Nat.add_zero, fold_zero, add, Nat.add_zero, if_pos hn]
  | succ k ih =>
    have hk := fold_le (n := k) hM
    calc fold M (n + (k + 1))
        = add M (fold M (n + k)) 1 := (add_fold hM hM).symm
      _ = add M (add M (fold M n) (fold M k)) 1 := by rw [ih]
      _ = add M (fold M n) (add M (fold M k) 1) := add_assoc hn hk hM
      _ = add M (fold M n) (fold M (k + 1)) := by rw [add_fold hM hM]

/-- The sum of words is the folded plain sum. -/
theorem sum_eq (hM : 0 < M) {ws : List Nat} (hws : ∀ w ∈ ws, w ≤ M) : sum M ws = fold M ws.sum := by
  have h := foldl_add (n := 0) hM hws
  rwa [fold_zero, Nat.zero_add] at h

/-- A sum is all ones when the plain sum is a multiple of `M`, but for the sum of
zeros. -/
theorem sum_eq_top_iff (hM : 0 < M) {ws : List Nat} (hws : ∀ w ∈ ws, w ≤ M) :
    sum M ws = M ↔ ws.sum ≠ 0 ∧ M ∣ ws.sum := by
  rw [sum_eq hM hws, fold_eq_top_iff hM]

/-- Two sums that add up to all ones are not both all ones themselves. -/
theorem fold_add_fold_eq_top_iff (hM : 0 < M) {k : Nat} (hn : 0 < n) (hk : 0 < k) :
    fold M n + fold M k = M ↔ M ∣ n + k ∧ ¬ M ∣ k := by
  have hnle := fold_le (n := n) hM
  have hkle := fold_le (n := k) hM
  have hnpos : fold M n ≠ 0 := fun h => Nat.ne_of_gt hn (fold_eq_zero_iff.mp h)
  have hsum : (fold M n + fold M k) % M = (n + k) % M := by
    rw [Nat.add_mod, fold_mod, fold_mod, ← Nat.add_mod]
  have htop := fold_eq_top_iff (n := k) hM
  rw [Nat.dvd_iff_mod_eq_zero, ← hsum]
  constructor
  · intro h
    rw [h, Nat.mod_self]
    refine ⟨rfl, fun hdvd => hnpos ?_⟩
    have hfull := htop.mpr ⟨Nat.pos_iff_ne_zero.mp hk, hdvd⟩
    omega
  · rintro ⟨hmod, hnot⟩
    have hfull : fold M k ≠ M := fun h => hnot (htop.mp h).2
    obtain ⟨q, hq⟩ := Nat.dvd_of_mod_eq_zero hmod
    -- the sum lies strictly between 0 and 2 * M
    cases q with
    | zero => omega
    | succ q =>
      cases q with
      | zero => simpa using hq
      | succ q =>
        have hge : M * 2 ≤ M * (q + 1 + 1) := Nat.mul_le_mul_left M (by omega)
        omega

end

/-! ## Words of byte strings -/

/-- The 16 bit words of a byte string, as a little-endian host loads them. A last
byte without a partner is left out. -/
def leWords : List UInt8 → List Nat
  | a :: b :: bs => (a.toNat + 256 * b.toNat) :: leWords bs
  | [_] => []
  | [] => []

/-- The same in network order. -/
def beWords : List UInt8 → List Nat
  | a :: b :: bs => (256 * a.toNat + b.toNat) :: beWords bs
  | [_] => []
  | [] => []

theorem leWords_le (bs : List UInt8) : ∀ w ∈ leWords bs, w ≤ 65535 := by
  fun_induction leWords bs with
  | case1 a b bs ih =>
    intro w hw
    rcases List.mem_cons.mp hw with rfl | hw
    · have ha := a.toNat_lt
      have hb := b.toNat_lt
      omega
    · exact ih w hw
  | case2 => simp
  | case3 => simp

theorem beWords_le (bs : List UInt8) : ∀ w ∈ beWords bs, w ≤ 65535 := by
  fun_induction beWords bs with
  | case1 a b bs ih =>
    intro w hw
    rcases List.mem_cons.mp hw with rfl | hw
    · have ha := a.toNat_lt
      have hb := b.toNat_lt
      omega
    · exact ih w hw
  | case2 => simp
  | case3 => simp

theorem length_leWords (bs : List UInt8) : (leWords bs).length = bs.length / 2 := by
  fun_induction leWords bs with
  | case1 a b bs ih =>
    simp only [List.length_cons, ih]
    omega
  | case2 => simp
  | case3 => rfl

theorem leWords_append {bs : List UInt8} (cs : List UInt8) (h : bs.length % 2 = 0) :
    leWords (bs ++ cs) = leWords bs ++ leWords cs := by
  fun_induction leWords bs with
  | case1 a b bs ih =>
    have hrest : bs.length % 2 = 0 := by
      simp only [List.length_cons] at h
      omega
    simp only [List.cons_append, leWords, ih hrest]
  | case2 => cases h
  | case3 => rfl

/-- Exchanging the two bytes of a word multiplies it by 256, modulo 65535. -/
theorem sum_beWords_mod (bs : List UInt8) :
    (beWords bs).sum % 65535 = 256 * (leWords bs).sum % 65535 := by
  fun_induction leWords bs with
  | case1 a b bs ih =>
    simp only [beWords, List.sum_cons]
    omega
  | case2 => rfl
  | case3 => rfl

theorem dvd_beWords_iff (bs : List UInt8) :
    65535 ∣ (beWords bs).sum ↔ 65535 ∣ (leWords bs).sum := by
  have h := sum_beWords_mod bs
  omega

/-- Both word sums are zero together. -/
theorem sum_beWords_eq_zero_iff (bs : List UInt8) :
    (beWords bs).sum = 0 ↔ (leWords bs).sum = 0 := by
  fun_induction leWords bs with
  | case1 a b bs ih =>
    simp only [beWords, List.sum_cons]
    omega
  | case2 => simp [beWords]
  | case3 => simp [beWords]

end OnesComplement

end Pdrad
