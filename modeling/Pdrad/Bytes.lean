import Mathlib.Algebra.Ring.Nat
import Mathlib.Data.List.Basic

/-!
# Bytes and byte order

Numbers as byte strings, in the two byte orders, and the byte swap between
them. Nothing here knows about any packet format.

* `leBytes n v` / `leValue bs`: the `n` low bytes of `v`, least significant
  first, and back. `leValue_leBytes` and `leBytes_leValue` make the pair a
  bijection between byte strings of length `n` and numbers below `256 ^ n`.
* `beBytes n v` / `beValue bs`: the same, most significant byte first.
* `sizeAdd`, `sizeSub`: the wrapping arithmetic of a 64 bit `size_t`.
* `bswap16`, `bswap32`: the byte swaps of 16 and 32 bit machine words. Each is
  its own inverse, and turns a little-endian image into a big-endian one.
-/

namespace Pdrad

/-! ## Byte strings of numbers -/

/-- The `n` low bytes of `v`, least significant first. -/
def leBytes : Nat → Nat → List UInt8
  | 0, _ => []
  | n + 1, v => UInt8.ofNat (v % 256) :: leBytes n (v / 256)

/-- The number whose little-endian bytes are `bs`. -/
def leValue : List UInt8 → Nat
  | [] => 0
  | b :: bs => b.toNat + 256 * leValue bs

/-- The `n` low bytes of `v`, most significant first. -/
def beBytes (n v : Nat) : List UInt8 :=
  (leBytes n v).reverse

/-- The number whose big-endian bytes are `bs`. -/
def beValue (bs : List UInt8) : Nat :=
  leValue bs.reverse

@[simp] theorem length_leBytes (n v : Nat) : (leBytes n v).length = n := by
  induction n generalizing v with
  | zero => rfl
  | succ n ih => simp [leBytes, ih]

@[simp] theorem length_beBytes (n v : Nat) : (beBytes n v).length = n := by
  simp [beBytes]

theorem leValue_lt (bs : List UInt8) : leValue bs < 256 ^ bs.length := by
  induction bs with
  | nil => simp [leValue]
  | cons b bs ih =>
    have hb := b.toNat_lt
    simp only [leValue, List.length_cons, Nat.pow_succ]
    omega

theorem beValue_lt (bs : List UInt8) : beValue bs < 256 ^ bs.length := by
  simpa [beValue] using leValue_lt bs.reverse

theorem leValue_leBytes (n v : Nat) : leValue (leBytes n v) = v % 256 ^ n := by
  induction n generalizing v with
  | zero => simp [leBytes, leValue, Nat.mod_one]
  | succ n ih =>
    have hbyte : (UInt8.ofNat (v % 256)).toNat = v % 256 := by simp
    rw [leBytes, leValue, ih, hbyte, Nat.pow_succ, Nat.mul_comm (256 ^ n) 256, Nat.mod_mul]

theorem leBytes_leValue (bs : List UInt8) : leBytes bs.length (leValue bs) = bs := by
  induction bs with
  | nil => rfl
  | cons b bs ih =>
    have hb := b.toNat_lt
    have hlow : (b.toNat + 256 * leValue bs) % 256 = b.toNat := by omega
    have hhigh : (b.toNat + 256 * leValue bs) / 256 = leValue bs := by omega
    simp [leValue, leBytes, hlow, hhigh, ih]

theorem beValue_beBytes (n v : Nat) : beValue (beBytes n v) = v % 256 ^ n := by
  simp [beValue, beBytes, leValue_leBytes]

theorem beBytes_beValue (bs : List UInt8) : beBytes bs.length (beValue bs) = bs := by
  have h := leBytes_leValue bs.reverse
  rw [List.length_reverse] at h
  simp [beBytes, beValue, h]

/-- `beBytes_beValue` with the width as a hypothesis. -/
theorem beBytes_beValue_of_length {bs : List UInt8} {n : Nat} (h : bs.length = n) :
    beBytes n (beValue bs) = bs := by
  subst h
  exact beBytes_beValue bs

/-! ## Sizes and addresses -/

/-- `a + b` in a 64 bit unsigned type. -/
def sizeAdd (a b : Nat) : Nat := (a + b) % 2 ^ 64

/-- `a - b` in a 64 bit unsigned type. -/
def sizeSub (a b : Nat) : Nat := (a + 2 ^ 64 - b % 2 ^ 64) % 2 ^ 64

theorem sizeAdd_of_lt {a b : Nat} (h : a + b < 2 ^ 64) : sizeAdd a b = a + b :=
  Nat.mod_eq_of_lt h

theorem sizeAdd_lt (a b : Nat) : sizeAdd a b < 2 ^ 64 :=
  Nat.mod_lt _ (by decide)

/-- Subtracting in two steps is subtracting the sum. -/
theorem sizeSub_sizeSub {a b c : Nat} (hbc : b + c < 2 ^ 64) :
    sizeSub (sizeSub a b) c = sizeSub a (b + c) := by
  unfold sizeSub
  omega

/-- A difference of two sizes is zero only when they are equal. -/
theorem sizeSub_eq_zero_iff {a b : Nat} (ha : a < 2 ^ 64) (hb : b < 2 ^ 64) :
    sizeSub a b = 0 ↔ a = b := by
  unfold sizeSub
  omega

/-- Wrapping subtraction does not see a common offset of the two sides. -/
theorem sizeSub_sizeAdd {a b c : Nat} (hab : a + b < 2 ^ 64) :
    sizeSub (sizeAdd a c) (a + b) = sizeSub c b := by
  unfold sizeSub sizeAdd
  omega

/-! ## Byte swaps

`be16toh` and `htobe16` are one function on a little-endian host, and so are
the 32 bit pair. -/

/-- Exchange the two bytes of a 16 bit word. -/
def bswap16 (v : UInt16) : UInt16 :=
  UInt16.ofNat (beValue (leBytes 2 v.toNat))

/-- Reverse the four bytes of a 32 bit word. -/
def bswap32 (v : UInt32) : UInt32 :=
  UInt32.ofNat (beValue (leBytes 4 v.toNat))

@[simp] theorem toNat_bswap16 (v : UInt16) : (bswap16 v).toNat = beValue (leBytes 2 v.toNat) := by
  have h := beValue_lt (leBytes 2 v.toNat)
  rw [length_leBytes] at h
  simp only [bswap16, UInt16.toNat_ofNat']
  exact Nat.mod_eq_of_lt h

@[simp] theorem toNat_bswap32 (v : UInt32) : (bswap32 v).toNat = beValue (leBytes 4 v.toNat) := by
  have h := beValue_lt (leBytes 4 v.toNat)
  rw [length_leBytes] at h
  simp only [bswap32, UInt32.toNat_ofNat']
  exact Nat.mod_eq_of_lt h

/-- The little-endian image of a swapped number is the big-endian image. -/
theorem leBytes_beValue_leBytes (n v : Nat) : leBytes n (beValue (leBytes n v)) = beBytes n v := by
  have h := leBytes_leValue (leBytes n v).reverse
  rwa [List.length_reverse, length_leBytes] at h

theorem leBytes_bswap16 (v : UInt16) : leBytes 2 (bswap16 v).toNat = beBytes 2 v.toNat := by
  rw [toNat_bswap16, leBytes_beValue_leBytes]

theorem leBytes_bswap32 (v : UInt32) : leBytes 4 (bswap32 v).toNat = beBytes 4 v.toNat := by
  rw [toNat_bswap32, leBytes_beValue_leBytes]

/-- Four bytes of a 16 bit number, in the other order, are the number shifted. -/
theorem beValue_leBytes_short {n : Nat} (h : n < 2 ^ 16) :
    beValue (leBytes 4 n) = beValue (leBytes 2 n) * 2 ^ 16 := by
  have hhigh : n / 256 / 256 = 0 := by
    rw [Nat.div_div_eq_div_mul]
    exact Nat.div_eq_of_lt h
  have hpad : leBytes 4 n = leBytes 2 n ++ [0, 0] := by
    simp [leBytes, hhigh]
  rw [hpad, beValue, List.reverse_append]
  show 0 + 256 * (0 + 256 * beValue (leBytes 2 n)) = _
  omega

@[simp] theorem bswap16_bswap16 (v : UInt16) : bswap16 (bswap16 v) = v := by
  have hv := v.toNat_lt
  apply UInt16.toNat_inj.mp
  rw [toNat_bswap16, leBytes_bswap16, beValue_beBytes]
  exact Nat.mod_eq_of_lt hv

@[simp] theorem bswap32_bswap32 (v : UInt32) : bswap32 (bswap32 v) = v := by
  have hv := v.toNat_lt
  apply UInt32.toNat_inj.mp
  rw [toNat_bswap32, leBytes_bswap32, beValue_beBytes]
  exact Nat.mod_eq_of_lt hv

end Pdrad
