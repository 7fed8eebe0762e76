import Pdrad.NdpChecksum
import Pdrad.RouterAdvert

/-!
# The layout of a Router Advertisement

The length that `ndp_createRAPacket` returns, the header fields, and what a
receiver finds that walks the options behind the header, each in terms of the
options in memory.

1. `exists_ndpBeside`: blocks that state a positive length are options.
2. `laidOut_put`: the bytes of a packet, put into its block, are laid out.
3. `createRAPacket_laidOut`: a packet that is built is laid out without loss, and one
   is built whenever it has fewer than `2 ^ 32` bytes.
-/

namespace Pdrad

open NdpOptPayload

/-- The option that `p` points to, as many bytes of it as it says. -/
def optionBytes (m : Mem) (p : Nat) : List UInt8 := m.slice p (size m p)

section

variable (m : Mem) (pkt : Nat) (curHopLimit : UInt8) (routerLifeTime : UInt16)
  (reachableTime reTransTimer : UInt32) (ptrs : List Nat)

/-- The packet `r` at `pkt` has the given header, and behind it the options that the
pointers lead to. -/
structure LaidOut (r : RaPacket) : Prop where
  length : r.length = 16 + (ptrs.map fun p => 8 * (NdpOptPayload.length m p).toNat).sum
  allocated : r.length = raLength m ptrs
  outside : ∀ x, x < pkt ∨ pkt + r.length ≤ x → r.mem x = m x
  type : r.mem.slice pkt 2 = [134, 0]
  fields : r.mem.slice (pkt + 4) 12 = [curHopLimit, raFlags] ++ beBytes 2 routerLifeTime.toNat ++
    beBytes 4 reachableTime.toNat ++ beBytes 4 reTransTimer.toNat
  options : ndOptions (r.mem.slice pkt r.length) = ptrs.map (optionBytes m)
  ends : ndpFormat.rest ((r.mem.slice pkt r.length).drop sizeofNdRouterAdvert) = []

end

namespace RaLayoutLemmas

open NdpWriterLemmas

/-- Blocks that state a positive length hold options. -/
theorem exists_ndpBeside {m : Mem} {pkt n : Nat} {ptrs : List Nat}
    (hlength : ∀ p ∈ ptrs, 1 ≤ (NdpOptPayload.length m p).toNat)
    (hapart : ∀ p ∈ ptrs, Apart pkt n p (size m p)) :
    ∃ opts, NdpBeside m pkt n ptrs opts ∧ opts.map NdpOption.bytes = ptrs.map (optionBytes m) := by
  induction ptrs with
  | nil => exact ⟨[], .nil, rfl⟩
  | cons p ptrs ih =>
    obtain ⟨opts, hbeside, hbytes⟩ := ih (fun q hq => hlength q (List.mem_cons_of_mem p hq))
      (fun q hq => hapart q (List.mem_cons_of_mem p hq))
    obtain ⟨o, hat, ho⟩ := NdpOption.exists_at (hlength p List.mem_cons_self)
    refine ⟨o :: opts, .cons ⟨hat, ?_⟩ hbeside, ?_⟩
    · rw [← hat.size_eq]
      exact hapart p List.mem_cons_self
    · rw [List.map_cons, List.map_cons, hbytes, ho]
      rfl

theorem raLength_eq_sum (m : Mem) (ptrs : List Nat) :
    raLength m ptrs = 16 + (ptrs.map fun p => 8 * (NdpOptPayload.length m p).toNat).sum := by
  have hfold (k : Nat) : ptrs.foldl (fun length opt => length + size m opt) k =
      k + (ptrs.map fun p => 8 * (NdpOptPayload.length m p).toNat).sum := by
    induction ptrs generalizing k with
    | nil => rfl
    | cons p ptrs ih =>
      rw [List.foldl_cons, ih, List.map_cons, List.sum_cons, size, Nat.mul_comm, Nat.add_assoc]
  exact hfold sizeofNdRouterAdvert

variable (curHopLimit : UInt8) (routerLifeTime : UInt16) (reachableTime reTransTimer : UInt32)

/-- The bytes of a packet, put into its block, are a packet laid out. -/
theorem laidOut_put {m : Mem} {pkt : Nat} {ptrs : List Nat} {opts : List NdpOption} (checksum : Int)
    (hbytes : opts.map NdpOption.bytes = ptrs.map (optionBytes m))
    (hsize : (raBytes curHopLimit routerLifeTime reachableTime reTransTimer opts).length =
      raLength m ptrs) :
    LaidOut m pkt curHopLimit routerLifeTime reachableTime reTransTimer ptrs
      ⟨m.put pkt (raBytes curHopLimit routerLifeTime reachableTime reTransTimer opts),
        (raBytes curHopLimit routerLifeTime reachableTime reTransTimer opts).length, checksum⟩ := by
  have hslice := Mem.slice_put_same m pkt
    (raBytes curHopLimit routerLifeTime reachableTime reTransTimer opts)
  have hsplit : raBytes curHopLimit routerLifeTime reachableTime reTransTimer opts =
      [134, 0] ++ ([0, 0] ++ (raFields curHopLimit routerLifeTime reachableTime reTransTimer ++
        opts.flatMap NdpOption.bytes)) := by
    simp only [raBytes, raHead, List.append_assoc]
    rfl
  obtain ⟨htype, hbehind⟩ := Mem.slice_eq_append (hslice.trans hsplit)
  obtain ⟨_, hbehind⟩ := Mem.slice_eq_append hbehind
  obtain ⟨hfields, _⟩ := Mem.slice_eq_append hbehind
  refine ⟨hsize.trans (raLength_eq_sum m ptrs), hsize, fun x hx => ?_, htype, ?_, ?_, ?_⟩
  · rcases hx with hx | hx
    · exact Mem.put_of_lt hx
    · exact Mem.put_of_ge hx
  · have hlength : (raFields curHopLimit routerLifeTime reachableTime reTransTimer).length = 12 := by
      simp only [raFields, List.length_append, length_beBytes, List.length_cons, List.length_nil]
    rw [hlength] at hfields
    exact hfields
  · rw [hslice, ndOptions_raBytes, hbytes]
  · rw [hslice]
    exact rest_raBytes curHopLimit routerLifeTime reachableTime reTransTimer opts

end RaLayoutLemmas

open RaLayoutLemmas NdpWriterLemmas

/-- **A Router Advertisement is laid out without loss.** From `2 ^ 32` bytes on the
`int` counter of the checksum overflows and there is no packet to speak of. -/
theorem createRAPacket_laidOut (curHopLimit : UInt8) (routerLifeTime : UInt16)
    (reachableTime reTransTimer : UInt32) {m : Mem} {pkt : Nat} {ptrs : List Nat}
    (sourceAddr destAddr : In6Addr) (hpkt : pkt ≠ 0)
    (hlength : ∀ p ∈ ptrs, 1 ≤ (NdpOptPayload.length m p).toNat)
    (hapart : ∀ p ∈ ptrs, Apart pkt (raLength m ptrs) p (size m p)) :
    (16 + (ptrs.map fun p => 8 * (NdpOptPayload.length m p).toNat).sum < 2 ^ 32 →
      (ndpCreateRAPacket m pkt sourceAddr destAddr curHopLimit routerLifeTime reachableTime
        reTransTimer ptrs).isSome) ∧
      ∀ r, ndpCreateRAPacket m pkt sourceAddr destAddr curHopLimit routerLifeTime reachableTime
          reTransTimer ptrs = some r →
        LaidOut m pkt curHopLimit routerLifeTime reachableTime reTransTimer ptrs r := by
  obtain ⟨opts, hbeside, hbytes⟩ := exists_ndpBeside hlength hapart
  have hsize := raLength_eq hbeside
  rw [← length_raBytes curHopLimit routerLifeTime reachableTime reTransTimer] at hsize
  rw [hsize] at hbeside
  have hpacket := ndpCreateRAPacket_eq curHopLimit routerLifeTime reachableTime reTransTimer
    sourceAddr destAddr hpkt hbeside
  constructor
  · intro hshort
    rw [← raLength_eq_sum, hsize] at hshort
    rw [hpacket, if_pos hshort]
    rfl
  · intro r hr
    rw [hpacket] at hr
    dsimp only at hr
    split at hr
    · obtain rfl := Option.some.inj hr
      exact laidOut_put curHopLimit routerLifeTime reachableTime reTransTimer _ hbytes hsize.symm
    · cases hr

/-- A prefix information option. -/
def exPrefixInformation : NdpOption :=
  ⟨[3, 4, 64, 192, 0, 0, 14, 16, 0, 0, 7, 8, 0, 0, 0, 0, 0x20, 1, 0x0d, 0xb8] ++
    List.replicate 12 0, by decide⟩

/-- A memory with a source link-layer address and a prefix information option. -/
def exHoldsTwo : Mem := (exHolds exLinkLayer).put 0x1100 exPrefixInformation.bytes

/-- An option of 8 bytes, one of 32, and the first again. -/
theorem exHoldsTwo_laidOut : ∃ r, ndpCreateRAPacket exHoldsTwo 0x2000 exSource exAllNodes 64 1800
      0 0 [0x1000, 0x1100, 0x1000] = some r ∧
    LaidOut exHoldsTwo 0x2000 64 1800 0 0 [0x1000, 0x1100, 0x1000] r ∧
    ndOptions (r.mem.slice 0x2000 r.length) =
      [exLinkLayer.bytes, exPrefixInformation.bytes, exLinkLayer.bytes] := by
  obtain ⟨hbuilt, hlaid⟩ := @createRAPacket_laidOut 64 1800 0 0 exHoldsTwo 0x2000
    [0x1000, 0x1100, 0x1000] exSource exAllNodes (by decide) (by decide) (by decide)
  obtain ⟨r, hr⟩ := Option.isSome_iff_exists.mp (hbuilt (by decide))
  exact ⟨r, hr, hlaid r hr, (hlaid r hr).options.trans (by decide)⟩

end Pdrad
