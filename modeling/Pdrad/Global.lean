import Pdrad.Daemon

/-!
# Multicast addresses in network order (`global.h`)

The three multicast addresses are written as four words each, in the order of the host.
`htobe_inet6` turns the variable that is initialised with one of them into network order,
on a 64 bit machine by two words of 64 bits.

1. `htobeInet6_words`: this is what the other branch of the macro does by four words of 32
   bits, at every address of every memory.
2. `read_multicast`: an initialised variable holds the address that the words spell.
-/

namespace Pdrad

/-! ## 64 bit words -/

def bswap64 (v : UInt64) : UInt64 :=
  UInt64.ofNat (beValue (leBytes 8 v.toNat))

/-- `htobe64` on a little-endian host. -/
abbrev htobe64 (v : UInt64) : UInt64 := bswap64 v

def Mem.store64 (m : Mem) (a : Nat) (v : UInt64) : Mem := m.put a (leBytes 8 v.toNat)

/-! ## The macros -/

/-- `htobe_inet6(addr)` on x86-64 and AArch64. -/
def htobeInet6 (m : Mem) (addr : Nat) : Mem :=
  let m := m.store64 addr
    (htobe64 ((m.load32 addr).toUInt64 <<< 32 ||| (m.load32 (addr + 4)).toUInt64))
  m.store64 (addr + 8)
    (htobe64 ((m.load32 (addr + 8)).toUInt64 <<< 32 ||| (m.load32 (addr + 12)).toUInt64))

/-- `htobe_inet6(addr)` elsewhere. It stores through a `ptr` that nothing declares. -/
def htobeInet6Words (m : Mem) (ptr addr : Nat) : Mem :=
  let m := m.store32 ptr (htobe32 (m.load32 addr))
  let m := m.store32 (ptr + 4) (htobe32 (m.load32 (addr + 4)))
  let m := m.store32 (ptr + 8) (htobe32 (m.load32 (addr + 8)))
  m.store32 (ptr + 12) (htobe32 (m.load32 (addr + 12)))

/-- `__u6_addr32` of the three addresses. -/
def addrAllNodesMulticastWords : List UInt32 := [0xff020000, 0, 0, 1]
def addrAllRoutersMulticastWords : List UInt32 := [0xff020000, 0, 0, 2]
def addrAllDhcpRelayAgentsAndServersWords : List UInt32 := [0xff020000, 0, 0, 0x10002]

/-- What is in a variable that is initialised with the words. -/
def wordsBytes (words : List UInt32) : List UInt8 :=
  words.flatMap fun w => leBytes 4 w.toNat

/-- The words in network order. -/
def networkBytes (words : List UInt32) : List UInt8 :=
  words.flatMap fun w => beBytes 4 w.toNat

/-! ## What is stored -/

/-- The bytes of a number that is put together of two. -/
theorem leBytes_add {n lo : Nat} (k hi : Nat) (hlo : lo < 256 ^ n) :
    leBytes (n + k) (lo + 256 ^ n * hi) = leBytes n lo ++ leBytes k hi := by
  induction n generalizing lo with
  | zero =>
    obtain rfl : lo = 0 := Nat.lt_one_iff.mp hlo
    rw [Nat.zero_add, Nat.zero_add, Nat.pow_zero, Nat.one_mul]
    rfl
  | succ n ih =>
    have hfirst : (lo + 256 ^ (n + 1) * hi) % 256 = lo % 256 := by
      rw [Nat.pow_succ', Nat.mul_assoc, Nat.add_mul_mod_self_left]
    have hrest : (lo + 256 ^ (n + 1) * hi) / 256 = lo / 256 + 256 ^ n * hi := by
      rw [Nat.pow_succ', Nat.mul_assoc, Nat.add_mul_div_left _ _ (by decide)]
    have hlow : lo / 256 < 256 ^ n := Nat.div_lt_of_lt_mul (by rwa [← Nat.pow_succ'])
    rw [Nat.succ_add, leBytes, hfirst, hrest, ih hlow, leBytes]
    rfl

theorem leBytes_bswap64 (v : UInt64) : leBytes 8 (bswap64 v).toNat = beBytes 8 v.toNat := by
  have hbytes := beValue_lt (leBytes 8 v.toNat)
  rw [length_leBytes] at hbytes
  rw [bswap64, UInt64.toNat_ofNat_of_lt' hbytes, leBytes_beValue_leBytes]

/-- A 64 bit word is stored as its two halves. -/
theorem beBytes_halves (hi lo : UInt32) :
    beBytes 8 (hi.toUInt64 <<< 32 ||| lo.toUInt64).toNat =
      beBytes 4 hi.toNat ++ beBytes 4 lo.toNat := by
  have hhi := hi.toNat_lt
  have hshift : hi.toNat <<< 32 % 2 ^ 64 = hi.toNat <<< 32 := by
    rw [Nat.shiftLeft_eq]
    exact Nat.mod_eq_of_lt (by omega)
  have hword : (hi.toUInt64 <<< 32 ||| lo.toUInt64).toNat = lo.toNat + 256 ^ 4 * hi.toNat := by
    rw [UInt64.toNat_or, UInt64.toNat_shiftLeft, UInt32.toNat_toUInt64, UInt32.toNat_toUInt64]
    show hi.toNat <<< 32 % 2 ^ 64 ||| lo.toNat = _
    rw [hshift, ← Nat.shiftLeft_add_eq_or_of_lt lo.toNat_lt, Nat.shiftLeft_eq, Nat.add_comm,
      Nat.mul_comm]
    rfl
  rw [hword, beBytes, leBytes_add (n := 4) 4 hi.toNat lo.toNat_lt, List.reverse_append]
  rfl

/-! ## The macro -/

theorem load32_put_of_apart {m : Mem} {a b : Nat} {bs : List UInt8} (h : Apart a bs.length b 4) :
    (m.put a bs).load32 b = m.load32 b := by
  rw [Mem.load32, Mem.slice_put_of_apart h, Mem.load32]

theorem length_networkBytes (a b c d : UInt32) : (networkBytes [a, b, c, d]).length = 16 := by
  simp [networkBytes]

/-- Both branches of the macro put the four words there in network order. -/
theorem htobeInet6_put (m : Mem) (addr : Nat) :
    htobeInet6 m addr = m.put addr (networkBytes [m.load32 addr, m.load32 (addr + 4),
      m.load32 (addr + 8), m.load32 (addr + 12)]) := by
  have hthird : Apart addr 8 (addr + 8) 4 := .inl (Nat.le_refl _)
  have hlast : Apart addr 8 (addr + 12) 4 := .inl (by omega)
  unfold htobeInet6
  simp only [Mem.store64, leBytes_bswap64, beBytes_halves]
  rw [load32_put_of_apart (by simpa using hthird), load32_put_of_apart (by simpa using hlast)]
  simp only [networkBytes, List.flatMap_cons, List.flatMap_nil, List.append_nil]
  rw [← List.append_assoc, Mem.put_append m addr (_ ++ _), List.length_append, length_beBytes,
    length_beBytes]

theorem load32_store32_of_le {m : Mem} {a b : Nat} {v : UInt32} (h : a + 4 ≤ b) :
    (m.store32 a v).load32 b = m.load32 b :=
  load32_put_of_apart (.inl (by rwa [length_leBytes]))

theorem htobeInet6Words_put (m : Mem) (addr : Nat) :
    htobeInet6Words m addr addr = m.put addr (networkBytes [m.load32 addr, m.load32 (addr + 4),
      m.load32 (addr + 8), m.load32 (addr + 12)]) := by
  unfold htobeInet6Words
  -- every word is loaded behind the ones that are stored
  simp (disch := omega) only [load32_store32_of_le]
  simp only [Mem.store32, leBytes_bswap32, networkBytes, List.flatMap_cons, List.flatMap_nil,
    List.append_nil, Mem.put_append, length_beBytes, Nat.add_assoc, Nat.reduceAdd]

/-- The branch for 64 bit machines does what the other one would do, if `ptr` were the
address: the four words of the address are in network order, and nothing else changes. -/
theorem htobeInet6_words (m : Mem) (addr : Nat) :
    htobeInet6 m addr = htobeInet6Words m addr addr ∧
    (htobeInet6 m addr).slice addr 16 = networkBytes [m.load32 addr, m.load32 (addr + 4),
      m.load32 (addr + 8), m.load32 (addr + 12)] ∧
    ∀ x, x < addr ∨ addr + 16 ≤ x → htobeInet6 m addr x = m x := by
  refine ⟨?_, ?_, fun x hx => ?_⟩
  · rw [htobeInet6_put, htobeInet6Words_put]
  · rw [htobeInet6_put]
    exact Mem.slice_put_of_length (length_networkBytes ..)
  · rw [htobeInet6_put]
    rcases hx with hbelow | habove
    · exact Mem.put_of_lt hbelow
    · exact Mem.put_of_ge (by rwa [length_networkBytes])

/-- A variable that is initialised with four words and converted holds them in network
order. -/
theorem read_htobeInet6 (m : Mem) (addr : Nat) (a b c d : UInt32) :
    (In6Addr.read (htobeInet6 (m.put addr (wordsBytes [a, b, c, d])) addr) addr).bytes =
      networkBytes [a, b, c, d] := by
  have hwords : (m.put addr (wordsBytes [a, b, c, d])).slice addr 16 = wordsBytes [a, b, c, d] :=
    Mem.slice_put_of_length (by simp [wordsBytes])
  simp only [wordsBytes, List.flatMap_cons, List.flatMap_nil, List.append_nil] at hwords ⊢
  obtain ⟨ha, hrest⟩ := Mem.slice_eq_append hwords
  obtain ⟨hb, hrest⟩ := Mem.slice_eq_append hrest
  obtain ⟨hc, hd⟩ := Mem.slice_eq_append hrest
  simp only [length_leBytes, Nat.add_assoc, Nat.reduceAdd] at ha hb hc hd
  refine (htobeInet6_words _ addr).2.1.trans ?_
  rw [Mem.load32_of_slice ha, Mem.load32_of_slice hb, Mem.load32_of_slice hc,
    Mem.load32_of_slice hd]

/-- The three addresses are ff02::1, ff02::2 and ff02::1:2, wherever the variable is. -/
theorem read_multicast (m : Mem) (addr : Nat) :
    let converted (words : List UInt32) :=
      In6Addr.read (htobeInet6 (m.put addr (wordsBytes words)) addr) addr
    converted addrAllNodesMulticastWords = addrAllNodesMulticast ∧
    (converted addrAllRoutersMulticastWords).bytes =
      [0xff, 0x02, 0, 0, 0, 0, 0, 0, 0, 0, 0, 0, 0, 0, 0, 2] ∧
    (converted addrAllDhcpRelayAgentsAndServersWords).bytes =
      [0xff, 0x02, 0, 0, 0, 0, 0, 0, 0, 0, 0, 0, 0, 1, 0, 2] := by
  refine ⟨?_, read_htobeInet6 .., read_htobeInet6 ..⟩
  exact In6Addr.read_eq (read_htobeInet6 ..)

end Pdrad
