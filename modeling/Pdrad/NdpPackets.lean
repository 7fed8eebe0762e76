import Pdrad.NdpOptions
import Pdrad.OnesComplement

/-!
# Router Advertisements (`ndp_packets.h`, `ndp_packets.c`)

The packet builder and the checksum, statement by statement.

* `ndpChecksumCalCore` reads a byte string, the bytes behind its pointer, and is
  `none` where its `int` loop counter would overflow.
* `ndpChecksum` returns the checksum; the address it is given for it is not used.
* `ndpCreateRAPacket` drops what `ndpChecksum` returns. The model keeps it beside
  the packet.
-/

namespace Pdrad

open OnesComplement

/-! ## The checksum -/

/-- One pass of the summing loop: add the word, and fold what is over 16 bits. -/
def addWord (sum word : Nat) : Nat :=
  let sum := sum + word
  if sum &&& 0xFFFF0000 ≠ 0 then (sum &&& 0xFFFF) + (sum >>> 16) else sum

/-- The new value of `*buf`, its 32 bits read without a sign, and what is returned. -/
def ndpChecksumCalCore (buf : Nat) (data : List UInt8) : Option (Nat × Int) :=
  let size := data.length
  if size &&& 1 ≠ 0 then some (buf, -1)
  else if size / 2 < 2 ^ 31 then some ((leWords data).foldl addWord 0, 0)
  else none

/-- `IPPROTO_ICMPV6`. -/
def ipprotoIcmpv6 : UInt8 := 58

/-- The bytes of `struct ndp_pseudoHeader`. -/
def ndpPseudoHeader (sourceAddr destAddr : In6Addr) (upperLayerPacketLength : UInt32) :
    List UInt8 :=
  sourceAddr.bytes ++ destAddr.bytes ++ leBytes 4 upperLayerPacketLength.toNat ++ [0, 0, 0] ++
    [ipprotoIcmpv6]

/-- The memory and the returned `int`. -/
structure Checksum where
  mem : Mem
  ret : Int

/-- `packet = 0` is `NULL`. -/
def ndpChecksum (m : Mem) (_buf : Nat) (sourceAddr destAddr : In6Addr) (packet size : Nat) :
    Option Checksum :=
  if packet = 0 ∨ size = 0 then some ⟨m, -1⟩
  else
    let m := m.store16 (packet + 2) 0
    -- the length goes into the pseudo-header in host order
    let header := ndpPseudoHeader sourceAddr destAddr (UInt32.ofNat size)
    -- what the two calls return is not looked at
    match ndpChecksumCalCore 0 header, ndpChecksumCalCore 0 (m.slice packet size) with
    | some (sumHeader, _), some (sumBody, _) =>
      some ⟨m, (~~~ (UInt32.ofNat (sumHeader + sumBody)) &&& 0xFFFF).toNat⟩
    | _, _ => none

/-! ## Building packets -/

/-- `sizeof(struct nd_router_advert)`. -/
def sizeofNdRouterAdvert : Nat := 16

/-- `ND_ROUTER_ADVERT`. -/
def ndRouterAdvert : UInt8 := 134

/-- The members of `enum ndp_ra_flag` that the program refers to. -/
def ndpRaFlagO : UInt8 := 0b01000000
def ndpRaFlagPrfHigh : UInt8 := 0b00001000
def ndpRaFlagR : UInt8 := 0b11111100

def raFlags : UInt8 := ndpRaFlagO ||| (ndpRaFlagPrfHigh &&& ndpRaFlagR)

/-- The variable `length` behind the first loop. -/
def raLength (m : Mem) (optionsList : List Nat) : Nat :=
  optionsList.foldl (fun length opt => length + NdpOptPayload.size m opt) sizeofNdRouterAdvert

/-- One pass of the second loop. -/
def copyNdpOption (s : Mem × Nat) (opt : Nat) : Mem × Nat :=
  let (m, options) := s
  let optionLength := NdpOptPayload.size m opt
  (m.memcpy options opt optionLength, options + optionLength)

/-- A packet, its length, and the value its checksum field ought to get. -/
structure RaPacket where
  mem : Mem
  length : Nat
  checksum : Int

/-- `pkt` is the block `malloc(length)` returns. -/
def ndpCreateRAPacket (m : Mem) (pkt : Nat) (sourceAddr destAddr : In6Addr) (curHopLimit : UInt8)
    (routerLifeTime : UInt16) (reachableTime reTransTimer : UInt32) (optionsList : List Nat) :
    Option RaPacket :=
  if optionsList.length < 2 ^ 31 then
    let length := raLength m optionsList
    let m := m.put pkt [ndRouterAdvert]
    let m := m.put (pkt + 1) [0]
    let m := m.put (pkt + 4) [curHopLimit]
    let m := m.put (pkt + 5) [raFlags]
    let m := m.store16 (pkt + 6) (htobe16 routerLifeTime)
    let m := m.store32 (pkt + 8) (htobe32 reachableTime)
    let m := m.store32 (pkt + 12) (htobe32 reTransTimer)
    let m := (optionsList.foldl copyNdpOption (m, pkt + sizeofNdRouterAdvert)).1
    -- `ndp_checksum` is given the field to fill in, and only returns its value
    (ndpChecksum m (pkt + 2) sourceAddr destAddr pkt length).map fun c => ⟨c.mem, length, c.ret⟩
  else none

end Pdrad
