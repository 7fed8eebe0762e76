import Pdrad.NdpWriter

/-!
# The checksum of a Router Advertisement

A receiver adds up, in one's complement, the words of the pseudo-header and of the
packet, and accepts when they come to all ones (`SumsToOnes`). The packet builder
computes a checksum and never stores it, counts the packet's length in host order
in the pseudo-header, and adds its two partial sums without a carry.

1. `carriesChecksum_iff`: the packet has the right checksum, and the value computed
   is that checksum, exactly when all of this happens not to matter: the field
   that stays zero is the one it ought to be.
2. `onePass_iff`: the value computed is that of a single pass over pseudo-header
   and packet exactly when the two partial sums add up without a carry.
-/

namespace Pdrad

open OnesComplement NdpWriterLemmas

/-! ## What a receiver checks -/

/-- The pseudo-header that a receiver puts before the packet. -/
def pseudoHeader (sourceAddr destAddr : In6Addr) (upperLayerPacketLength : Nat) : List UInt8 :=
  sourceAddr.bytes ++ destAddr.bytes ++ beBytes 4 upperLayerPacketLength ++ [0, 0, 0] ++
    [ipprotoIcmpv6]

/-- The one's complement sum over pseudo-header and packet, in network order. -/
def receiverSum (sourceAddr destAddr : In6Addr) (pkt : List UInt8) : Nat :=
  sum 65535 (beWords (pseudoHeader sourceAddr destAddr pkt.length ++ pkt))

def SumsToOnes (sourceAddr destAddr : In6Addr) (pkt : List UInt8) : Prop :=
  receiverSum sourceAddr destAddr pkt = 0xFFFF

/-- The packet with the value `v` stored in its checksum field. -/
def withChecksum (pkt : List UInt8) (v : UInt16) : List UInt8 :=
  pkt.take 2 ++ leBytes 2 v.toNat ++ pkt.drop 4

/-- A packet is built; the checksum computed for it is the one with which the
receiver's sum comes to all ones; and the packet's field holds that checksum. -/
def CarriesChecksum (m : Mem) (pkt : Nat) (sourceAddr destAddr : In6Addr) (curHopLimit : UInt8)
    (routerLifeTime : UInt16) (reachableTime reTransTimer : UInt32) (ptrs : List Nat) : Prop :=
  ∃ r, ndpCreateRAPacket m pkt sourceAddr destAddr curHopLimit routerLifeTime reachableTime
      reTransTimer ptrs = some r ∧
    ∃ v : UInt16, r.checksum = v.toNat ∧
      SumsToOnes sourceAddr destAddr (withChecksum (r.mem.slice pkt r.length) v) ∧
      r.mem.load16 (pkt + 2) = v

/-- Reversing the four bytes of a length does not matter to a one's complement sum:
its first and third byte come to as much as the other two, modulo 257. -/
def Balanced (length : Nat) : Prop :=
  (length % 256 + length / 65536 % 256) % 257 =
    (length / 256 % 256 + length / 16777216 % 256) % 257

instance (length : Nat) : Decidable (Balanced length) :=
  inferInstanceAs (Decidable (_ = _))

/-- With a checksum field of zero, the words of pseudo-header and packet are a
multiple of 65535 already, those of the packet alone are not, and the packet's
length is short and balanced. -/
structure ZeroIsChecksum (sourceAddr destAddr : In6Addr) (pkt : List UInt8) : Prop where
  short : pkt.length < 2 ^ 32
  balanced : Balanced pkt.length
  all : 65535 ∣ (beWords (pseudoHeader sourceAddr destAddr pkt.length ++ pkt)).sum
  body : ¬ 65535 ∣ (beWords pkt).sum

namespace NdpChecksumLemmas

/-- What both pseudo-headers add up to besides the length. -/
def addressSum (sourceAddr destAddr : In6Addr) : Nat :=
  (leWords sourceAddr.bytes).sum + (leWords destAddr.bytes).sum

/-- The words of a pseudo-header with the given length field. -/
theorem sum_pseudoHeader (sourceAddr destAddr : In6Addr) (a b c d : UInt8) :
    (leWords (sourceAddr.bytes ++ destAddr.bytes ++ [a, b, c, d] ++ [0, 0, 0] ++
      [ipprotoIcmpv6])).sum = addressSum sourceAddr destAddr + (a.toNat + 256 * b.toNat) +
        (c.toNat + 256 * d.toNat) + 256 * 58 := by
  have htail : ([a, b, c, d] ++ [0, 0, 0] ++ [ipprotoIcmpv6] : List UInt8) =
      [a, b, c, d, 0, 0, 0, ipprotoIcmpv6] := rfl
  rw [List.append_assoc, List.append_assoc, List.append_assoc, ← List.append_assoc [a, b, c, d],
    htail, leWords_append _ (by rw [sourceAddr.size]), leWords_append _ (by rw [destAddr.size]),
    List.sum_append, List.sum_append]
  have hlast : (leWords [a, b, c, d, 0, 0, 0, ipprotoIcmpv6]).sum =
      (a.toNat + 256 * b.toNat) + (c.toNat + 256 * d.toNat) + 256 * 58 := by
    simp [leWords, ipprotoIcmpv6, Nat.add_assoc]
  rw [hlast, addressSum]
  omega

/-- The four bytes of a length, the least significant one first. -/
theorem leBytes_four (n : Nat) : leBytes 4 n = [UInt8.ofNat (n % 256), UInt8.ofNat (n / 256 % 256),
    UInt8.ofNat (n / 65536 % 256), UInt8.ofNat (n / 16777216 % 256)] := by
  simp only [leBytes, Nat.div_div_eq_div_mul]

theorem toNat_byte (n : Nat) : (UInt8.ofNat (n % 256)).toNat = n % 256 := by
  rw [UInt8.toNat_ofNat', Nat.mod_mod]

/-- The host's pseudo-header has the length's bytes in the wrong order. -/
theorem sum_ndpPseudoHeader_length (sourceAddr destAddr : In6Addr) {n : Nat} (hn : n < 2 ^ 32) :
    (leWords (ndpPseudoHeader sourceAddr destAddr (UInt32.ofNat n))).sum =
      addressSum sourceAddr destAddr + (n % 256 + 256 * (n / 256 % 256)) +
        (n / 65536 % 256 + 256 * (n / 16777216 % 256)) + 256 * 58 := by
  have hword : (UInt32.ofNat n).toNat = n := by
    rw [UInt32.toNat_ofNat']
    exact Nat.mod_eq_of_lt hn
  rw [ndpPseudoHeader, hword, leBytes_four, sum_pseudoHeader]
  simp only [toNat_byte]

theorem sum_pseudoHeader_length (sourceAddr destAddr : In6Addr) (n : Nat) :
    (leWords (pseudoHeader sourceAddr destAddr n)).sum =
      addressSum sourceAddr destAddr + (n / 16777216 % 256 + 256 * (n / 65536 % 256)) +
        (n / 256 % 256 + 256 * (n % 256)) + 256 * 58 := by
  have hbytes : beBytes 4 n = [UInt8.ofNat (n / 16777216 % 256), UInt8.ofNat (n / 65536 % 256),
      UInt8.ofNat (n / 256 % 256), UInt8.ofNat (n % 256)] := by
    rw [beBytes, leBytes_four]
    rfl
  rw [pseudoHeader, hbytes, sum_pseudoHeader]
  simp only [toNat_byte]

theorem length_pseudoHeader (sourceAddr destAddr : In6Addr) (n : Nat) :
    (pseudoHeader sourceAddr destAddr n).length = 40 := by
  simp only [pseudoHeader, List.length_append, length_beBytes, sourceAddr.size, destAddr.size,
    List.length_cons, List.length_nil]

/-- What a receiver checks, in terms of the words as the host loads them. -/
theorem dvd_receiver_iff (sourceAddr destAddr : In6Addr) (pkt : List UInt8) :
    65535 ∣ (beWords (pseudoHeader sourceAddr destAddr pkt.length ++ pkt)).sum ↔
      65535 ∣ (leWords (pseudoHeader sourceAddr destAddr pkt.length)).sum + (leWords pkt).sum := by
  rw [dvd_beWords_iff, leWords_append _ (by rw [length_pseudoHeader]), List.sum_append]

/-- The next header alone keeps the sum from being zero. -/
theorem sumsToOnes_iff (sourceAddr destAddr : In6Addr) (pkt : List UInt8) :
    SumsToOnes sourceAddr destAddr pkt ↔
      65535 ∣ (beWords (pseudoHeader sourceAddr destAddr pkt.length ++ pkt)).sum := by
  have hpos : (beWords (pseudoHeader sourceAddr destAddr pkt.length ++ pkt)).sum ≠ 0 := by
    rw [ne_eq, sum_beWords_eq_zero_iff, leWords_append _ (by rw [length_pseudoHeader]),
      List.sum_append, sum_pseudoHeader_length]
    omega
  rw [SumsToOnes, receiverSum, sum_eq_top_iff (by decide) (beWords_le _)]
  exact and_iff_right hpos

/-- The computed checksum is zero when the two partial sums complete each other. -/
theorem checksumOf_eq_zero_iff (sourceAddr destAddr : In6Addr) {pkt : List UInt8}
    (hpkt : 0 < (leWords pkt).sum) (hshort : pkt.length < 2 ^ 32) :
    checksumOf sourceAddr destAddr pkt = 0 ↔
      65535 ∣ (leWords (ndpPseudoHeader sourceAddr destAddr (UInt32.ofNat pkt.length))).sum +
        (leWords pkt).sum ∧ ¬ 65535 ∣ (leWords pkt).sum := by
  have hheader : 0 < (leWords (ndpPseudoHeader sourceAddr destAddr
      (UInt32.ofNat pkt.length))).sum := by
    rw [sum_ndpPseudoHeader_length sourceAddr destAddr hshort]
    omega
  have hle (n : Nat) : fold 65535 n ≤ 65535 := fold_le (by decide)
  rw [← fold_add_fold_eq_top_iff (by decide) hheader hpkt, checksumOf]
  have hfirst := hle (leWords (ndpPseudoHeader sourceAddr destAddr (UInt32.ofNat pkt.length))).sum
  have hsecond := hle (leWords pkt).sum
  omega

/-- Given that the receiver's words are a multiple of 65535, the host's are when the
length is balanced. -/
theorem dvd_host_iff_balanced {a b n : Nat}
    (h : 65535 ∣ a + (n / 16777216 % 256 + 256 * (n / 65536 % 256)) +
      (n / 256 % 256 + 256 * (n % 256)) + 256 * 58 + b) :
    65535 ∣ a + (n % 256 + 256 * (n / 256 % 256)) +
      (n / 65536 % 256 + 256 * (n / 16777216 % 256)) + 256 * 58 + b ↔ Balanced n := by
  unfold Balanced
  generalize n % 256 = l₀ at *
  generalize n / 256 % 256 = l₁ at *
  generalize n / 65536 % 256 = l₂ at *
  generalize n / 16777216 % 256 = l₃ at *
  omega

section

variable (curHopLimit : UInt8) (routerLifeTime : UInt16) (reachableTime reTransTimer : UInt32)
  (opts : List NdpOption)

theorem raBytes_split : ∃ rest, raBytes curHopLimit routerLifeTime reachableTime reTransTimer opts =
    [ndRouterAdvert, 0] ++ ([0, 0] ++ rest) := by
  refine ⟨raFields curHopLimit routerLifeTime reachableTime reTransTimer ++
    opts.flatMap NdpOption.bytes, ?_⟩
  rw [raBytes, raHead, List.append_assoc, List.append_assoc]

theorem withChecksum_zero : withChecksum (raBytes curHopLimit routerLifeTime reachableTime
    reTransTimer opts) 0 = raBytes curHopLimit routerLifeTime reachableTime reTransTimer opts := by
  obtain ⟨rest, hsplit⟩ := raBytes_split curHopLimit routerLifeTime reachableTime reTransTimer opts
  rw [hsplit]
  rfl

/-- The field of the packet as it is put into memory. -/
theorem load16_checksum (m : Mem) (pkt : Nat) : (m.put pkt (raBytes curHopLimit routerLifeTime
    reachableTime reTransTimer opts)).load16 (pkt + 2) = 0 := by
  obtain ⟨rest, hsplit⟩ := raBytes_split curHopLimit routerLifeTime reachableTime reTransTimer opts
  rw [hsplit]
  have hbehind := (Mem.slice_eq_append (Mem.slice_put_same m pkt
    ([ndRouterAdvert, 0] ++ ([0, 0] ++ rest)))).2
  exact Mem.load16_of_slice (Mem.slice_eq_append hbehind).1

theorem sum_raBytes_pos : 0 < (leWords (raBytes curHopLimit routerLifeTime reachableTime
    reTransTimer opts)).sum := by
  obtain ⟨rest, hsplit⟩ := raBytes_split curHopLimit routerLifeTime reachableTime reTransTimer opts
  have hfirst : (leWords [ndRouterAdvert, 0]).sum = 134 := by decide
  rw [hsplit, leWords_append _ rfl, List.sum_append, hfirst]
  omega

end

end NdpChecksumLemmas

open NdpChecksumLemmas

section

variable {m : Mem} {pkt : Nat} {ptrs : List Nat} {opts : List NdpOption}
  (sourceAddr destAddr : In6Addr) (curHopLimit : UInt8) (routerLifeTime : UInt16)
  (reachableTime reTransTimer : UInt32)

/-- The field is zero, so the checksum has to be. -/
theorem carriesChecksum_iff_zero (hpkt : pkt ≠ 0) (h : NdpBeside m pkt (raBytes curHopLimit
      routerLifeTime reachableTime reTransTimer opts).length ptrs opts) :
    CarriesChecksum m pkt sourceAddr destAddr curHopLimit routerLifeTime reachableTime
        reTransTimer ptrs ↔
      let bytes := raBytes curHopLimit routerLifeTime reachableTime reTransTimer opts
      bytes.length < 2 ^ 32 ∧ checksumOf sourceAddr destAddr bytes = 0 ∧
        SumsToOnes sourceAddr destAddr bytes := by
  have hpacket := ndpCreateRAPacket_eq curHopLimit routerLifeTime reachableTime reTransTimer
    sourceAddr destAddr hpkt h
  have hfield := load16_checksum curHopLimit routerLifeTime reachableTime reTransTimer opts m pkt
  have hzero := withChecksum_zero curHopLimit routerLifeTime reachableTime reTransTimer opts
  unfold CarriesChecksum
  rw [hpacket]
  constructor
  · rintro ⟨r, hr, v, hv, hsum, hload⟩
    dsimp only at hr
    split at hr
    · next hshort =>
      cases hr
      obtain rfl : v = 0 := hload.symm.trans hfield
      rw [Mem.slice_put_same, hzero] at hsum
      exact ⟨hshort, Int.natCast_eq_zero.mp hv, hsum⟩
    · cases hr
  · rintro ⟨hshort, hchecksum, hsum⟩
    refine ⟨_, if_pos hshort, 0, ?_, ?_, hfield⟩
    · rw [hchecksum]
      rfl
    · rwa [Mem.slice_put_same, hzero]

/-- The packet carries the checksum that makes the receiver's sum come to all ones,
and this is the value computed for it, exactly when zero is that checksum. -/
theorem carriesChecksum_iff (hpkt : pkt ≠ 0) (h : NdpBeside m pkt (raBytes curHopLimit
      routerLifeTime reachableTime reTransTimer opts).length ptrs opts) :
    CarriesChecksum m pkt sourceAddr destAddr curHopLimit routerLifeTime reachableTime
        reTransTimer ptrs ↔
      ZeroIsChecksum sourceAddr destAddr (raBytes curHopLimit routerLifeTime reachableTime
        reTransTimer opts) := by
  rw [carriesChecksum_iff_zero sourceAddr destAddr curHopLimit routerLifeTime reachableTime
    reTransTimer hpkt h]
  have hpos := sum_raBytes_pos curHopLimit routerLifeTime reachableTime reTransTimer opts
  generalize raBytes curHopLimit routerLifeTime reachableTime reTransTimer opts = bytes at *
  have hbalanced (hshort : bytes.length < 2 ^ 32)
      (hall : 65535 ∣ (beWords (pseudoHeader sourceAddr destAddr bytes.length ++ bytes)).sum) :
      65535 ∣ (leWords (ndpPseudoHeader sourceAddr destAddr (UInt32.ofNat bytes.length))).sum +
        (leWords bytes).sum ↔ Balanced bytes.length := by
    rw [dvd_receiver_iff, sum_pseudoHeader_length] at hall
    rw [sum_ndpPseudoHeader_length sourceAddr destAddr hshort]
    exact dvd_host_iff_balanced hall
  constructor
  · rintro ⟨hshort, hchecksum, hsum⟩
    have hall := (sumsToOnes_iff sourceAddr destAddr bytes).mp hsum
    obtain ⟨hhost, hbody⟩ := (checksumOf_eq_zero_iff sourceAddr destAddr hpos hshort).mp hchecksum
    exact ⟨hshort, (hbalanced hshort hall).mp hhost, hall, by rwa [dvd_beWords_iff]⟩
  · rintro ⟨hshort, hlength, hall, hbody⟩
    rw [dvd_beWords_iff] at hbody
    exact ⟨hshort, (checksumOf_eq_zero_iff sourceAddr destAddr hpos hshort).mpr
      ⟨(hbalanced hshort hall).mpr hlength, hbody⟩, (sumsToOnes_iff sourceAddr destAddr bytes).mpr hall⟩

end

/-- `fe80::1` and `ff02::1`. -/
def exSource : In6Addr := ⟨[0xfe, 0x80, 0, 0, 0, 0, 0, 0, 0, 0, 0, 0, 0, 0, 0, 1], rfl⟩
def exAllNodes : In6Addr := In6Addr.ofBytes [0xff, 0x02, 0, 0, 0, 0, 0, 0, 0, 0, 0, 0, 0, 0, 0, 1]

/-- A memory with the option `o` at the address 0x1000. -/
def exHolds (o : NdpOption) : Mem := Mem.put (fun _ => 0) 0x1000 o.bytes

/-- A source link-layer address. -/
def exLinkLayer : NdpOption := ⟨[1, 1, 2, 0, 0, 0, 0, 1], by decide⟩

/-- An advertisement with one short option: the checksum computed is not stored. -/
theorem exLinkLayer_field_zero : ¬ CarriesChecksum (exHolds exLinkLayer) 0x2000 exSource exAllNodes
    64 1800 0 0 [0x1000] := by
  rintro ⟨r, hr, v, hv, _, hload⟩
  have hrun : (ndpCreateRAPacket (exHolds exLinkLayer) 0x2000 exSource exAllNodes 64 1800 0 0
      [0x1000]).map (fun r => (r.checksum, r.mem.load16 0x2002)) = some (60698, 0) := by
    decide +kernel
  rw [hr, Option.map_some, Option.some.injEq, Prod.mk.injEq] at hrun
  obtain rfl : v = 0 := hload.symm.trans hrun.2
  exact absurd (hv.symm.trans hrun.1) (by decide)

/-- An option of 2040 bytes, two of them chosen so that the checksum is zero. -/
def exLong : NdpOption := ⟨[5, 255, 38, 232] ++ List.replicate 2036 0, by decide +kernel⟩

theorem exLong_carries : CarriesChecksum (exHolds exLong) 0x4000 exSource exAllNodes 64 1800 0 0
    [0x1000] := by
  have hlength : exLong.bytes.length = 2040 := by decide +kernel
  have hpacket : (raBytes 64 1800 0 0 [exLong]).length = 2056 := by
    rw [length_raBytes, List.map_singleton, hlength]
    rfl
  have hbeside : NdpBeside (exHolds exLong) 0x4000 (raBytes 64 1800 0 0 [exLong]).length [0x1000]
      [exLong] := by
    refine .cons ⟨Mem.slice_put_same _ _ _, ?_⟩ .nil
    rw [hpacket, hlength]
    decide
  refine (carriesChecksum_iff exSource exAllNodes 64 1800 0 0 (by decide) hbeside).mpr
    ⟨?_, ?_, ?_, ?_⟩
  · rw [hpacket]
    decide
  · rw [hpacket]
    decide
  · decide +kernel
  · decide +kernel

/-! ## Two parts against one pass -/

/-- The value returned is the 16 bit complement of what one pass over the
pseudo-header and the packet computes. The call has cleared the checksum field. -/
def OnePass (m : Mem) (buf : Nat) (sourceAddr destAddr : In6Addr) (packet size : Nat) : Prop :=
  ∃ c total, ndpChecksum m buf sourceAddr destAddr packet size = some c ∧
    ndpChecksumCalCore 0 (ndpPseudoHeader sourceAddr destAddr (UInt32.ofNat size) ++
      c.mem.slice packet size) = some (total, 0) ∧
    c.ret = (~~~ (UInt16.ofNat total)).toNat

/-- The words of the pseudo-header and the words of the packet, each folded to a
word, add up to a word again. -/
def NoCarry (sourceAddr destAddr : In6Addr) (pkt : List UInt8) : Prop :=
  fold 65535 (leWords (ndpPseudoHeader sourceAddr destAddr (UInt32.ofNat pkt.length))).sum +
    fold 65535 (leWords pkt).sum ≤ 65535

instance (sourceAddr destAddr : In6Addr) (pkt : List UInt8) :
    Decidable (NoCarry sourceAddr destAddr pkt) :=
  inferInstanceAs (Decidable (_ ≤ _))

namespace NdpChecksumLemmas

/-- Leaving the carry away is seen in the complement. -/
theorem complement_eq_iff {a b : Nat} (ha : a ≤ 65535) (hb : b ≤ 65535) :
    65535 - (a + b) % 65536 = 65535 - add 65535 a b ↔ a + b ≤ 65535 := by
  unfold add
  split <;> omega

theorem toNat_not_ofNat {n : Nat} (h : n ≤ 65535) : (~~~ (UInt16.ofNat n)).toNat = 65535 - n := by
  rw [UInt16.toNat_not, UInt16.toNat_ofNat', Nat.mod_eq_of_lt (Nat.lt_succ_of_le h)]
  rfl

/-- The single pass adds the two folded sums with end-around carry. -/
theorem ndpChecksumCalCore_append (sourceAddr destAddr : In6Addr) {pkt : List UInt8}
    (heven : pkt.length % 2 = 0) (hmax : pkt.length ≤ 2 ^ 31) :
    ndpChecksumCalCore 0 (ndpPseudoHeader sourceAddr destAddr (UInt32.ofNat pkt.length) ++ pkt) =
      some (add 65535
        (fold 65535 (leWords (ndpPseudoHeader sourceAddr destAddr (UInt32.ofNat pkt.length))).sum)
        (fold 65535 (leWords pkt).sum), 0) := by
  have hheader := length_ndpPseudoHeader sourceAddr destAddr (UInt32.ofNat pkt.length)
  have hlength : (ndpPseudoHeader sourceAddr destAddr (UInt32.ofNat pkt.length) ++ pkt).length =
      40 + pkt.length := by
    rw [List.length_append, hheader]
  rw [ndpChecksumCalCore_eq 0 (by rw [hlength]; omega), hlength, if_pos (by omega),
    leWords_append pkt (by rw [hheader]), List.sum_append, fold_add (by decide)]

end NdpChecksumLemmas

/-- The two-part checksum is the one-pass checksum exactly when the two parts add up
without a carry. -/
theorem onePass_iff (m : Mem) (buf : Nat) (sourceAddr destAddr : In6Addr) {packet size : Nat}
    (hpacket : packet ≠ 0) (heven : size % 2 = 0) (hmin : 16 ≤ size) (hmax : size ≤ 2 ^ 31) :
    OnePass m buf sourceAddr destAddr packet size ↔
      NoCarry sourceAddr destAddr ((m.store16 (packet + 2) 0).slice packet size) := by
  obtain ⟨pkt, hpkt⟩ : ∃ pkt, (m.store16 (packet + 2) 0).slice packet size = pkt := ⟨_, rfl⟩
  obtain rfl : pkt.length = size := by rw [← hpkt, Mem.length_slice]
  have hchecksum := ndpChecksum_eq buf sourceAddr destAddr hpacket
    (List.ne_nil_of_length_pos (by omega)) heven hpkt
  rw [if_pos (by omega)] at hchecksum
  have hpass := ndpChecksumCalCore_append sourceAddr destAddr heven hmax
  have hheader : fold 65535 (leWords (ndpPseudoHeader sourceAddr destAddr
      (UInt32.ofNat pkt.length))).sum ≤ 65535 := fold_le (by decide)
  have hbody : fold 65535 (leWords pkt).sum ≤ 65535 := fold_le (by decide)
  have htotal := toNat_not_ofNat (add_le hheader hbody)
  rw [hpkt, NoCarry, ← complement_eq_iff hheader hbody, ← htotal]
  constructor
  · rintro ⟨c, total, hc, htotal, hret⟩
    obtain rfl := Option.some.inj (hchecksum.symm.trans hc)
    simp only [hpkt, hpass, Option.some.injEq, Prod.mk.injEq, and_true] at htotal
    rw [htotal]
    exact Int.ofNat.inj hret
  · intro hret
    refine ⟨_, _, hchecksum, ?_, congrArg Nat.cast hret⟩
    simp only [hpkt]
    exact hpass

/-- The advertisement with the short option, at the address 0x2000. -/
def exPacket : Mem := Mem.put (fun _ => 0) 0x2000 (raBytes 64 1800 0 0 [exLinkLayer])

/-- From `fe80::1` to `ff02::1` the parts come to 49173 and 21200: the value returned
is 60698, and the one-pass checksum 60697. -/
theorem exPacket_not_onePass : ¬ OnePass exPacket 0x2002 exSource exAllNodes 0x2000 24 := by
  rintro ⟨c, total, hc, htotal, hret⟩
  have hrun : (ndpChecksum exPacket 0x2002 exSource exAllNodes 0x2000 24).map (fun c => (c.ret,
      ndpChecksumCalCore 0 (ndpPseudoHeader exSource exAllNodes (UInt32.ofNat 24) ++
        c.mem.slice 0x2000 24))) = some (60698, some (4838, 0)) := by
    decide +kernel
  rw [hc, Option.map_some, htotal, Option.some.injEq, Prod.mk.injEq, Option.some.injEq,
    Prod.mk.injEq] at hrun
  obtain ⟨hvalue, rfl, _⟩ := hrun
  exact absurd (hvalue.symm.trans hret) (by decide)

/-- From `::` to `::` there is no carry. -/
theorem exPacket_onePass : OnePass exPacket 0x2002 In6Addr.zero In6Addr.zero 0x2000 24 :=
  (onePass_iff exPacket 0x2002 In6Addr.zero In6Addr.zero (by decide) (by decide) (by decide)
    (by decide)).mpr (by decide +kernel)

end Pdrad
