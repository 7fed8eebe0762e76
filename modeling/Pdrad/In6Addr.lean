import Pdrad.AddressPrefix
import Pdrad.Memory

/-!
# IPv6 addresses and delegated prefixes

`struct in6_addr` is sixteen bytes in network order, and `dh_opt_IA_Prefix` is
25 bytes, packed. Both are values here: what a `memcpy` takes from memory.

1. `changeable`: the bits of an address, from the first to the last, are digits
   that prefixes of addresses can be made of.
2. `bytes_read`: copying a `dh_opt_IA_Prefix` loses nothing of it.
-/

namespace Pdrad

/-- `struct in6_addr`, in network order. -/
structure In6Addr where
  bytes : List UInt8
  size : bytes.length = 16
deriving DecidableEq

/-- The address stored at `a`. -/
def In6Addr.read (m : Mem) (a : Nat) : In6Addr :=
  ⟨m.slice a 16, Mem.length_slice m a 16⟩

/-- `in6_addr` with all bytes zero. -/
def In6Addr.zero : In6Addr :=
  ⟨List.replicate 16 0, rfl⟩

/-- The address whose first bytes are `bs`. Bytes that are missing are zero. -/
def In6Addr.ofBytes (bs : List UInt8) : In6Addr :=
  ⟨(bs ++ List.replicate 16 0).take 16, by simp⟩

/-! ## Bits of an address -/

/-- The bit `i` of a byte string, counted from the most significant bit of its first
byte. -/
def bitAt (bs : List UInt8) (i : Nat) : Bool :=
  (bs.getD (i / 8) 0).toNat.testBit (7 - i % 8)

namespace In6Addr

def bit (a : In6Addr) (i : Nat) : Bool := bitAt a.bytes i

/-- The address with the bit `k` inverted. -/
def flip (a : In6Addr) (k : Nat) : In6Addr :=
  ⟨a.bytes.set (k / 8) (a.bytes.getD (k / 8) 0 ^^^ UInt8.ofNat (2 ^ (7 - k % 8))), by
    rw [List.length_set, a.size]⟩

theorem bit_flip (a : In6Addr) {k : Nat} (i : Nat) (hk : k < 128) :
    (a.flip k).bit i = Bool.xor (a.bit i) (decide (i = k)) := by
  have hlast : k / 8 < a.bytes.length := by
    rw [a.size]
    omega
  have hmask : (UInt8.ofNat (2 ^ (7 - k % 8))).toNat = 2 ^ (7 - k % 8) := by
    rw [UInt8.toNat_ofNat']
    exact Nat.mod_eq_of_lt (Nat.pow_lt_pow_right (by decide) (by omega))
  unfold bit bitAt flip
  by_cases hbyte : i / 8 = k / 8
  · have hsame : (7 - k % 8 = 7 - i % 8) ↔ i = k := by omega
    rw [hbyte, List.getD_eq_getElem?_getD, List.getElem?_set_self hlast, Option.getD_some,
      UInt8.toNat_xor, hmask, Nat.testBit_xor, Nat.testBit_two_pow]
    simp only [hsame]
  · have hne : i ≠ k := fun h => hbyte (by rw [h])
    rw [List.getD_eq_getElem?_getD, List.getElem?_set_ne (Ne.symm hbyte),
      ← List.getD_eq_getElem?_getD, decide_eq_false hne, Bool.xor_false]

theorem changeable : AddressPrefix.Changeable bit 128 := by
  intro a k hk
  refine ⟨a.flip k, fun i hi => ?_, ?_⟩
  · rw [bit_flip a i hk, decide_eq_false (Nat.ne_of_lt hi), Bool.xor_false]
  · rw [bit_flip a k hk, decide_eq_true rfl, Bool.xor_true]
    exact Bool.not_ne_self _

/-- The first bytes decide the first bits, and the others are zero. -/
theorem bit_ofBytes_take (a : In6Addr) {n : Nat} (i : Nat) (hn : n ≤ 16) :
    (ofBytes (a.bytes.take n)).bit i = (decide (i < 8 * n) && a.bit i) := by
  have hsize := a.size
  have htake : (a.bytes.take n).length = n := by
    rw [List.length_take, hsize, Nat.min_eq_left hn]
  unfold bit bitAt ofBytes
  by_cases hi : i < 8 * n
  · rw [List.getD_eq_getElem?_getD, List.getD_eq_getElem?_getD,
      List.getElem?_take_of_lt (by omega), List.getElem?_append_left (by omega),
      List.getElem?_take_of_lt (by omega), decide_eq_true hi, Bool.true_and]
  · have hzero : ((a.bytes.take n ++ List.replicate 16 0).take 16).getD (i / 8) 0 = 0 := by
      rw [List.getD_eq_getElem?_getD, List.getElem?_take]
      split
      · rw [List.getElem?_append_right (by omega), List.getElem?_replicate]
        split <;> rfl
      · rfl
    rw [hzero, decide_eq_false hi, Bool.false_and]
    exact Nat.zero_testBit _

theorem ofBytes_bytes (a : In6Addr) : ofBytes a.bytes = a := by
  obtain ⟨bs, hbs⟩ := a
  have htake : (bs ++ List.replicate 16 0).take 16 = bs := List.take_left' hbs
  simp only [ofBytes, htake]

/-! ## Addresses in memory -/

/-- The first bytes of a stored address. -/
theorem slice_put (m : Mem) (p : Nat) (a : In6Addr) {n : Nat} (hn : n ≤ 16) :
    (m.put p a.bytes).slice p n = a.bytes.take n := by
  rw [← Mem.take_slice (m.put p a.bytes) p hn, Mem.slice_put_of_length a.size]

theorem read_eq {m : Mem} {p : Nat} {a : In6Addr} (h : m.slice p 16 = a.bytes) : read m p = a := by
  obtain ⟨bs, hbs⟩ := a
  simp only [read, mk.injEq]
  exact h

theorem read_put (m : Mem) (p : Nat) (a : In6Addr) : read (m.put p a.bytes) p = a :=
  read_eq (Mem.slice_put_of_length a.size)

end In6Addr

/-- `dh_opt_IA_Prefix`. The lifetimes are the host's reading of the four bytes
each of them occupies, whatever order these are in. -/
structure DhOptIAPrefix where
  preferredLifetime : UInt32
  validLifetime : UInt32
  prefixLength : UInt8
  prefixAddr : In6Addr
deriving DecidableEq

namespace DhOptIAPrefix

/-- The packed bytes of the structure. -/
def bytes (p : DhOptIAPrefix) : List UInt8 :=
  leBytes 4 p.preferredLifetime.toNat ++ leBytes 4 p.validLifetime.toNat ++ [p.prefixLength] ++
    p.prefixAddr.bytes

/-- `memcpy(prefixResultPtr, prefix, sizeof(dh_opt_IA_Prefix))`. -/
def read (m : Mem) (a : Nat) : DhOptIAPrefix where
  preferredLifetime := m.load32 a
  validLifetime := m.load32 (a + 4)
  prefixLength := m (a + 8)
  prefixAddr := In6Addr.read m (a + 9)

/-- The copy has the 25 bytes of its source. -/
theorem bytes_read (m : Mem) (a : Nat) : (read m a).bytes = m.slice a 25 := by
  rw [show 25 = 4 + 4 + 1 + 16 from rfl, Mem.slice_add, Mem.slice_add, Mem.slice_add]
  simp only [bytes, read, Mem.leBytes_load32]
  rfl

/-- Whoever copies the bytes of a prefix has the prefix. -/
theorem read_of_slice {m : Mem} {a : Nat} {p : DhOptIAPrefix} (h : m.slice a 25 = p.bytes) :
    read m a = p := by
  obtain ⟨preferred, valid, length, addr⟩ := p
  simp only [bytes, List.append_assoc] at h
  obtain ⟨hpreferred, hrest⟩ := Mem.slice_eq_append h
  obtain ⟨hvalid, hrest⟩ := Mem.slice_eq_append hrest
  obtain ⟨hlength, haddr⟩ := Mem.slice_eq_append hrest
  simp only [length_leBytes, List.length_singleton, addr.size, Nat.add_assoc, Nat.reduceAdd]
    at hpreferred hvalid hlength haddr
  simp only [read, Mem.load32_of_slice hpreferred, Mem.load32_of_slice hvalid,
    In6Addr.read_eq haddr, mk.injEq, true_and, and_true]
  exact (List.cons.inj hlength).1

end DhOptIAPrefix

end Pdrad
