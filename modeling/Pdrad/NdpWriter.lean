import Pdrad.DhWriter
import Pdrad.NdpPackets

/-!
# What `ndp_createRAPacket` does

The builder stores the header, copies the options behind it, and leaves the
checksum field at zero. On options apart from the new block this comes to one
`put` of the packet's bytes.

1. `copyNdpOption_eq`, `copyNdpOptions_eq`: one pass of the copying loop, and all
   of it.
2. `addWord_eq`, `ndpChecksumCalCore_eq`: one pass of the summing loop is an
   addition with end-around carry, so the loop computes the one's complement sum.
3. `ndpChecksumCalCore_sums`: the bounds the loop's variable keeps on the way there.
4. `ndpCreateRAPacket_eq`: the block holds `raBytes`, nothing else changes.
-/

namespace Pdrad

open OnesComplement

/-! ## The packet -/

section

variable (curHopLimit : UInt8) (routerLifeTime : UInt16) (reachableTime reTransTimer : UInt32)

/-- The first four bytes: the type, the code, and the checksum field. -/
def raHead : List UInt8 := [ndRouterAdvert, 0] ++ [0, 0]

/-- The rest of the header. -/
def raFields : List UInt8 :=
  [curHopLimit, raFlags] ++ beBytes 2 routerLifeTime.toNat ++ beBytes 4 reachableTime.toNat ++
    beBytes 4 reTransTimer.toNat

/-- A Router Advertisement whose checksum field is zero. -/
def raBytes (options : List NdpOption) : List UInt8 :=
  raHead ++ raFields curHopLimit routerLifeTime reachableTime reTransTimer ++
    options.flatMap NdpOption.bytes

theorem length_raBytes (options : List NdpOption) :
    (raBytes curHopLimit routerLifeTime reachableTime reTransTimer options).length =
      16 + (options.map fun o => o.bytes.length).sum := by
  simp only [raBytes, raHead, raFields, List.length_append, List.length_flatMap, length_beBytes,
    List.length_cons, List.length_nil]

end

/-- The pointers `ptrs` lead to the options `opts`, all of them apart from the block
of `n` bytes at `pkt`. -/
def NdpBeside (m : Mem) (pkt n : Nat) (ptrs : List Nat) (opts : List NdpOption) : Prop :=
  List.Forall₂ (fun p (o : NdpOption) => o.At m p ∧ Apart pkt n p o.bytes.length) ptrs opts

/-- Writing inside the block leaves the options beside it. -/
theorem NdpBeside.put {m : Mem} {pkt n a : Nat} {bs : List UInt8} {ptrs : List Nat}
    {opts : List NdpOption} (h : NdpBeside m pkt n ptrs opts) (hlo : pkt ≤ a)
    (hhi : a + bs.length ≤ pkt + n) : NdpBeside (m.put a bs) pkt n ptrs opts := by
  refine List.Forall₂.imp (fun p o hpo => ⟨?_, hpo.2⟩) h
  exact (Mem.slice_put_of_apart (hpo.2.inside hlo hhi)).trans hpo.1

namespace NdpWriterLemmas

theorem raLength_eq {m : Mem} {pkt n : Nat} {ptrs : List Nat} {opts : List NdpOption}
    (h : NdpBeside m pkt n ptrs opts) :
    raLength m ptrs = 16 + (opts.map fun o => o.bytes.length).sum := by
  have hfold (k : Nat) : ptrs.foldl (fun length opt => length + NdpOptPayload.size m opt) k =
      k + (opts.map fun o => o.bytes.length).sum := by
    induction h generalizing k with
    | nil => rfl
    | cons hat _ ih =>
      rw [List.foldl_cons, ih, hat.1.size_eq, List.map_cons, List.sum_cons, Nat.add_assoc]
  exact hfold sizeofNdRouterAdvert

theorem copyNdpOption_eq {m : Mem} {a p : Nat} {o : NdpOption} (h : o.At m p) :
    copyNdpOption (m, a) p = (m.put a o.bytes, a + o.bytes.length) := by
  simp only [copyNdpOption, Mem.memcpy, h.size_eq, show m.slice p o.bytes.length = o.bytes from h]

/-- The copying loop, from any address inside the block on. -/
theorem copyNdpOptions_eq {m : Mem} {pkt n a : Nat} {ptrs : List Nat} {opts : List NdpOption}
    (h : NdpBeside m pkt n ptrs opts) (hlo : pkt ≤ a)
    (hhi : a + (opts.map fun o => o.bytes.length).sum ≤ pkt + n) :
    (ptrs.foldl copyNdpOption (m, a)).1 = m.put a (opts.flatMap NdpOption.bytes) := by
  induction opts generalizing m a ptrs with
  | nil =>
    cases h
    simp
  | cons o opts ih =>
    cases h with
    | @cons p _ ptrs _ hhead htail =>
    rw [List.map_cons, List.sum_cons] at hhi
    have htail' : NdpBeside (m.put a o.bytes) pkt n ptrs opts :=
      NdpBeside.put htail hlo (by omega)
    rw [List.foldl_cons, copyNdpOption_eq hhead.1, ih htail' (by omega) (by omega),
      ← Mem.put_append, List.flatMap_cons]

end NdpWriterLemmas

open NdpWriterLemmas

/-! ## The summing loop -/

namespace NdpWriterLemmas

/-- The bits above the sixteenth are tested and shifted down. -/
theorem and_high (n : Nat) : n &&& 0xFFFF0000 = 65536 * (n / 65536 % 65536) := by
  have hlow : (n &&& 0xFFFF0000) % 2 ^ 16 = 0 := by
    rw [Nat.and_mod_two_pow, show 0xFFFF0000 % 2 ^ 16 = 0 by decide, Nat.and_zero]
  have hhigh : (n &&& 0xFFFF0000) / 2 ^ 16 = n / 65536 % 65536 := by
    rw [Nat.and_div_two_pow, show 0xFFFF0000 / 2 ^ 16 = 2 ^ 16 - 1 by decide,
      Nat.and_two_pow_sub_one_eq_mod]
  have hsplit := Nat.div_add_mod (n &&& 0xFFFF0000) (2 ^ 16)
  rw [hlow, hhigh, Nat.add_zero] at hsplit
  exact hsplit.symm

/-- One pass of the loop adds the word with end-around carry. -/
theorem addWord_eq {sum word : Nat} (hsum : sum ≤ 65535) (hword : word ≤ 65535) :
    addWord sum word = add 65535 sum word := by
  have hlow : (sum + word) &&& 0xFFFF = (sum + word) % 65536 := by
    rw [show 0xFFFF = 2 ^ 16 - 1 by decide, Nat.and_two_pow_sub_one_eq_mod]
  simp only [addWord, add, and_high, hlow, Nat.shiftRight_eq_div_pow]
  split
  · rw [if_neg (by omega)]
    omega
  · rw [if_pos (by omega)]

theorem foldl_addWord_eq {sum : Nat} {ws : List Nat} (hsum : sum ≤ 65535)
    (hws : ∀ w ∈ ws, w ≤ 65535) : ws.foldl addWord sum = ws.foldl (add 65535) sum := by
  induction ws generalizing sum with
  | nil => rw [List.foldl_nil, List.foldl_nil]
  | cons w ws ih =>
    have hw : w ≤ 65535 := hws w List.mem_cons_self
    have hnext : add 65535 sum w ≤ 65535 := add_le hsum hw
    rw [List.foldl_cons, List.foldl_cons, addWord_eq hsum hw,
      ih hnext fun v hv => hws v (List.mem_cons_of_mem w hv)]

end NdpWriterLemmas

/-- On an even number of bytes the loop computes the one's complement sum of the
words, as far as its counter goes. -/
theorem ndpChecksumCalCore_eq (buf : Nat) {data : List UInt8} (heven : data.length % 2 = 0) :
    ndpChecksumCalCore buf data =
      if data.length < 2 ^ 32 then some (fold 65535 (leWords data).sum, 0) else none := by
  have hparity : data.length &&& 1 = 0 := by
    rw [Nat.and_one_is_mod, heven]
  have hsum : (leWords data).foldl addWord 0 = fold 65535 (leWords data).sum := by
    rw [foldl_addWord_eq (Nat.zero_le _) (leWords_le data)]
    exact sum_eq (by decide) (leWords_le data)
  simp only [ndpChecksumCalCore, hparity, hsum, ne_eq, not_true_eq_false, if_false]
  split
  · rw [if_pos (by omega)]
  · rw [if_neg (by omega)]

/-- The variable `sum` behind `k` passes of the loop. -/
def runningSum (data : List UInt8) (k : Nat) : Nat :=
  ((leWords data).take k).foldl addWord 0

/-- The loop returns `sum`. Its variable is a word behind every pass, has at most one
more bit inside a pass, before it is folded, and ends as a sum of the words in which
their order does not matter. -/
structure SumsWords (buf : Nat) (data : List UInt8) (sum : Nat) : Prop where
  returned : ndpChecksumCalCore buf data = some (sum, 0)
  pass : ∀ k, ∀ word ∈ (leWords data)[k]?,
    runningSum data (k + 1) = addWord (runningSum data k) word
  last : runningSum data (data.length / 2) = sum
  running : ∀ k, runningSum data k ≤ 0xFFFF
  inside : ∀ k, ∀ word ∈ (leWords data)[k]?, runningSum data k + word ≤ 0x1FFFE
  congruent : sum % 65535 = (leWords data).sum % 65535
  zero_iff : sum = 0 ↔ ∀ word ∈ leWords data, word = 0
  permuted : ∀ buf' data', data'.length % 2 = 0 → (leWords data').Perm (leWords data) →
    ndpChecksumCalCore buf' data' = some (sum, 0)

namespace NdpWriterLemmas

theorem runningSum_succ {data : List UInt8} {k word : Nat} (hword : (leWords data)[k]? = some word) :
    runningSum data (k + 1) = addWord (runningSum data k) word := by
  rw [runningSum, List.take_add_one, hword, List.foldl_append]
  rfl

/-- Behind every pass the words read so far have been added up. -/
theorem runningSum_eq (data : List UInt8) (k : Nat) :
    runningSum data k = fold 65535 ((leWords data).take k).sum := by
  have hwords : ∀ w ∈ (leWords data).take k, w ≤ 65535 := fun w hw =>
    leWords_le data w (List.mem_of_mem_take hw)
  rw [runningSum, foldl_addWord_eq (Nat.zero_le _) hwords]
  exact sum_eq (by decide) hwords

/-- The last byte of an odd number of them has no partner. -/
theorem ndpChecksumCalCore_odd (buf : Nat) {data : List UInt8} (hodd : data.length % 2 = 1) :
    ndpChecksumCalCore buf data = some (buf, -1) := by
  simp only [ndpChecksumCalCore, Nat.and_one_is_mod, hodd]
  exact if_pos (by decide)

end NdpWriterLemmas

/-- One fold in a pass is enough, and the loop computes the one's complement sum of
the words. A buffer with a byte too many is refused. -/
theorem ndpChecksumCalCore_sums (buf : Nat) (data : List UInt8) :
    (data.length % 2 = 0 → data.length / 2 < 2 ^ 31 → ∃ sum, SumsWords buf data sum) ∧
      (data.length % 2 = 1 → ndpChecksumCalCore buf data = some (buf, -1)) := by
  constructor
  · intro heven hcount
    have hreturned (buf' : Nat) {data' : List UInt8} (heven' : data'.length % 2 = 0)
        (hlength : data'.length = data.length) :
        ndpChecksumCalCore buf' data' = some (fold 65535 (leWords data').sum, 0) := by
      rw [ndpChecksumCalCore_eq buf' heven', hlength, if_pos (by omega)]
    have hrunning (k : Nat) : runningSum data k ≤ 65535 := by
      rw [runningSum_eq]
      exact fold_le (by decide)
    refine ⟨fold 65535 (leWords data).sum, hreturned buf heven rfl, fun k word hword => ?_, ?_,
      hrunning, fun k word hword => ?_, fold_mod, ?_, ?_⟩
    · exact runningSum_succ hword
    · rw [runningSum_eq, ← length_leWords, List.take_length]
    · have hle := leWords_le data word (List.mem_of_getElem? hword)
      exact Nat.add_le_add (hrunning k) hle
    · rw [fold_eq_zero_iff]
      exact List.sum_eq_zero_iff_forall_eq_nat
    · intro buf' data' heven' hperm
      have hwords := hperm.length_eq
      rw [length_leWords, length_leWords] at hwords
      rw [hreturned buf' heven' (by omega), hperm.sum_eq]
  · exact ndpChecksumCalCore_odd buf

/-- Two words that add up to more than 16 bits. -/
theorem exCarry_sums : ∃ sum, SumsWords 7 [0xff, 0xff, 0x02, 0x00] sum :=
  (ndpChecksumCalCore_sums 7 [0xff, 0xff, 0x02, 0x00]).1 (by decide) (by decide)

/-! ## The checksum -/

/-- The checksum that is computed for the packet `pkt`. The two partial sums are
added without a carry. -/
def checksumOf (sourceAddr destAddr : In6Addr) (pkt : List UInt8) : Nat :=
  let header := ndpPseudoHeader sourceAddr destAddr (UInt32.ofNat pkt.length)
  65535 - (fold 65535 (leWords header).sum + fold 65535 (leWords pkt).sum) % 65536

namespace NdpWriterLemmas

/-- The low sixteen bits of the complement. -/
theorem toNat_complement (n : Nat) :
    (~~~ (UInt32.ofNat n) &&& 0xFFFF).toNat = 65535 - n % 65536 := by
  have hnot : (~~~ (UInt32.ofNat n)).toNat = 4294967295 - n % 4294967296 := by
    rw [UInt32.toNat_not, UInt32.toNat_ofNat']
    rfl
  rw [UInt32.toNat_and, hnot, show (0xFFFF : UInt32).toNat = 2 ^ 16 - 1 by decide,
    Nat.and_two_pow_sub_one_eq_mod]
  omega

theorem length_ndpPseudoHeader (sourceAddr destAddr : In6Addr) (length : UInt32) :
    (ndpPseudoHeader sourceAddr destAddr length).length = 40 := by
  simp only [ndpPseudoHeader, List.length_append, length_leBytes, sourceAddr.size, destAddr.size,
    List.length_cons, List.length_nil]

end NdpWriterLemmas

theorem ndpChecksum_eq {m : Mem} (buf : Nat) (sourceAddr destAddr : In6Addr) {packet : Nat}
    {pkt : List UInt8} (hpacket : packet ≠ 0) (hlong : pkt ≠ []) (heven : pkt.length % 2 = 0)
    (hpkt : (m.store16 (packet + 2) 0).slice packet pkt.length = pkt) :
    ndpChecksum m buf sourceAddr destAddr packet pkt.length =
      if pkt.length < 2 ^ 32 then
        some ⟨m.store16 (packet + 2) 0, checksumOf sourceAddr destAddr pkt⟩
      else none := by
  have hnonzero : ¬ (packet = 0 ∨ pkt.length = 0) := by
    simp [hpacket, hlong]
  have hheader := length_ndpPseudoHeader sourceAddr destAddr (UInt32.ofNat pkt.length)
  have hsumHeader : ndpChecksumCalCore 0
      (ndpPseudoHeader sourceAddr destAddr (UInt32.ofNat pkt.length)) = some (fold 65535
        (leWords (ndpPseudoHeader sourceAddr destAddr (UInt32.ofNat pkt.length))).sum, 0) := by
    rw [ndpChecksumCalCore_eq 0 (by rw [hheader]), hheader, if_pos (by decide)]
  simp only [ndpChecksum, if_neg hnonzero, hpkt, hsumHeader, ndpChecksumCalCore_eq 0 heven]
  by_cases hshort : pkt.length < 2 ^ 32
  · simp only [if_pos hshort, toNat_complement, checksumOf]
  · simp only [if_neg hshort]

/-! ## The builder -/

section

variable (curHopLimit : UInt8) (routerLifeTime : UInt16) (reachableTime reTransTimer : UInt32)

namespace NdpWriterLemmas

/-- Options are a multiple of eight bytes long. -/
theorem length_bytes_mod (o : NdpOption) : o.bytes.length % 8 = 0 := by
  have hextent : (o.bytes[1]?.getD 0).toNat * 8 = o.bytes.length := o.record.2
  omega

/-- Packets are as well, and no shorter than eight bytes for each option. -/
theorem length_raBytes_bounds (opts : List NdpOption) :
    (raBytes curHopLimit routerLifeTime reachableTime reTransTimer opts).length % 8 = 0 ∧
      16 + 8 * opts.length ≤
        (raBytes curHopLimit routerLifeTime reachableTime reTransTimer opts).length := by
  rw [length_raBytes]
  induction opts with
  | nil => simp
  | cons o opts ih =>
    have ho := length_bytes_mod o
    have hpos := o.record.pos
    rw [List.map_cons, List.sum_cons, List.length_cons]
    omega

/-- The stores into the header, in the order in which they are made. -/
theorem storeFields_eq (m : Mem) (pkt : Nat) :
    (((((((m.put pkt [ndRouterAdvert]).put (pkt + 1) [0]).put (pkt + 4) [curHopLimit]).put (pkt + 5)
      [raFlags]).store16 (pkt + 6) (htobe16 routerLifeTime)).store32 (pkt + 8)
      (htobe32 reachableTime)).store32 (pkt + 12) (htobe32 reTransTimer)) =
    (m.put pkt [ndRouterAdvert, 0]).put (pkt + 4)
      (raFields curHopLimit routerLifeTime reachableTime reTransTimer) := by
  have hfront : m.put pkt [ndRouterAdvert, 0] = (m.put pkt [ndRouterAdvert]).put (pkt + 1) [0] :=
    Mem.put_append m pkt [ndRouterAdvert] [0]
  rw [hfront, raFields, show [curHopLimit, raFlags] = [curHopLimit] ++ [raFlags] from rfl]
  simp only [Mem.put_append, Mem.store16, Mem.store32, leBytes_bswap16, leBytes_bswap32,
    List.length_append, length_beBytes, List.length_singleton]

/-- Clearing the checksum field completes the front of the packet. -/
theorem clearChecksum_eq (m : Mem) (pkt : Nat) (rest : List UInt8) :
    ((m.put pkt [ndRouterAdvert, 0]).put (pkt + 4) rest).store16 (pkt + 2) 0 =
      m.put pkt (raHead ++ rest) := by
  have hzero : leBytes 2 (0 : UInt16).toNat = [0, 0] := by decide
  rw [Mem.store16, hzero, Mem.put_comm (.inr (by simp)), Mem.put_append, raHead, Mem.put_append]
  rfl

/-- The copying loop puts the options behind the header. -/
theorem copyRest_eq {m : Mem} {pkt : Nat} {ptrs : List Nat} {opts : List NdpOption}
    (h : NdpBeside m pkt (raBytes curHopLimit routerLifeTime reachableTime reTransTimer
      opts).length ptrs opts) :
    (ptrs.foldl copyNdpOption ((m.put pkt [ndRouterAdvert, 0]).put (pkt + 4)
      (raFields curHopLimit routerLifeTime reachableTime reTransTimer),
      pkt + sizeofNdRouterAdvert)).1 =
    (m.put pkt [ndRouterAdvert, 0]).put (pkt + 4)
      (raFields curHopLimit routerLifeTime reachableTime reTransTimer ++
        opts.flatMap NdpOption.bytes) := by
  have hlength := length_raBytes curHopLimit routerLifeTime reachableTime reTransTimer opts
  have hfields : (raFields curHopLimit routerLifeTime reachableTime reTransTimer).length = 12 := by
    simp only [raFields, List.length_append, length_beBytes, List.length_cons, List.length_nil]
  have hfront : NdpBeside (m.put pkt [ndRouterAdvert, 0]) pkt (raBytes curHopLimit routerLifeTime
      reachableTime reTransTimer opts).length ptrs opts := by
    refine h.put (Nat.le_refl pkt) ?_
    simp only [List.length_cons, List.length_nil]
    omega
  have hbeside : NdpBeside ((m.put pkt [ndRouterAdvert, 0]).put (pkt + 4)
      (raFields curHopLimit routerLifeTime reachableTime reTransTimer)) pkt (raBytes curHopLimit
      routerLifeTime reachableTime reTransTimer opts).length ptrs opts :=
    hfront.put (Nat.le_add_right pkt 4) (by omega)
  rw [copyNdpOptions_eq hbeside (Nat.le_add_right pkt sizeofNdRouterAdvert)
    (by rw [sizeofNdRouterAdvert]; omega), Mem.put_append _ (pkt + 4), hfields]
  rfl

end NdpWriterLemmas

/-- The block holds the packet, with a checksum field of zero. The checksum is
computed and goes nowhere. -/
theorem ndpCreateRAPacket_eq {m : Mem} {pkt : Nat} {ptrs : List Nat} {opts : List NdpOption}
    (sourceAddr destAddr : In6Addr) (hpkt : pkt ≠ 0)
    (h : NdpBeside m pkt (raBytes curHopLimit routerLifeTime reachableTime reTransTimer
      opts).length ptrs opts) :
    ndpCreateRAPacket m pkt sourceAddr destAddr curHopLimit routerLifeTime reachableTime
        reTransTimer ptrs =
      let bytes := raBytes curHopLimit routerLifeTime reachableTime reTransTimer opts
      if bytes.length < 2 ^ 32 then
        some ⟨m.put pkt bytes, bytes.length, checksumOf sourceAddr destAddr bytes⟩
      else none := by
  have hsize := raLength_eq h
  rw [← length_raBytes curHopLimit routerLifeTime reachableTime reTransTimer] at hsize
  obtain ⟨hmod, hmany⟩ := length_raBytes_bounds curHopLimit routerLifeTime reachableTime
    reTransTimer opts
  have hcount : ptrs.length = opts.length := List.Forall₂.length_eq h
  by_cases hfew : ptrs.length < 2 ^ 31
  · simp only [ndpCreateRAPacket, if_pos hfew, storeFields_eq, hsize,
      copyRest_eq curHopLimit routerLifeTime reachableTime reTransTimer h]
    rw [ndpChecksum_eq (pkt + 2) sourceAddr destAddr hpkt (List.ne_nil_of_length_pos (by omega))
      (by omega) (by rw [clearChecksum_eq, ← List.append_assoc]; exact Mem.slice_put_same m pkt _),
      clearChecksum_eq, ← List.append_assoc, ← raBytes]
    split
    · rfl
    · rfl
  · rw [ndpCreateRAPacket, if_neg hfew]
    exact (if_neg (by omega)).symm

end

end Pdrad
