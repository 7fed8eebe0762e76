import Pdrad.DhOptions
import Pdrad.In6Addr

/-!
# Neighbor Discovery options (`ndp_options.h`, `ndp_options.c`)

The option block `ndp_optPayload` as it lies in memory, and the constructors. As
for DHCPv6 the block a constructor gets from `malloc` is its first address
argument, and the size it asked for is returned. An address argument that is
copied out of is given as where it lies: `memcpy` reads as much as it is told to.

Above the constructors: `NdpOption`, the bytes of an option that states its own
length, and `ndpFormat`, the record format of such options.
-/

namespace Pdrad

/-- `ndp_optOffset`: the size of an option's header. -/
def ndpOptOffset : Nat := 2

namespace NdpOptPayload

/-- `p->Length`, in units of eight bytes. -/
def length (m : Mem) (p : Nat) : UInt8 := m (p + 1)

/-- `p->OptionData`. -/
def optionData (p : Nat) : Nat := p + ndpOptOffset

/-- The bytes that `p->Length` stands for. -/
def size (m : Mem) (p : Nat) : Nat := (length m p).toNat * 8

/-- Store `p->Type` and `p->Length`. -/
def setHeader (m : Mem) (p : Nat) (type length : UInt8) : Mem :=
  (m.put p [type]).put (p + 1) [length]

end NdpOptPayload

open NdpOptPayload

/-! ## Constructors -/

/-- `none` is the `NULL` returned for another type. -/
def ndpCreateOptionLinkLayerAddressCore (m : Mem) (option : Nat) (type : UInt8) (etherAddr : Nat) :
    Option Built :=
  if type ≠ 1 ∧ type ≠ 2 then none
  else
    let m := setHeader m option type 1
    let m := m.memcpy (optionData option) etherAddr 6
    some ⟨m, ndpOptOffset + 6⟩

def ndpCreateOptionSourceLinkLayerAddress (m : Mem) (option etherAddr : Nat) : Option Built :=
  ndpCreateOptionLinkLayerAddressCore m option 1 etherAddr

def ndpCreateOptionTargetLinkLayerAddress (m : Mem) (option etherAddr : Nat) : Option Built :=
  ndpCreateOptionLinkLayerAddressCore m option 2 etherAddr

/-- `enum ndp_opt_PrefixInformationFlag`. -/
def ndpOptPrefixInformationFlagL : UInt8 := 0b10000000
def ndpOptPrefixInformationFlagA : UInt8 := 0b01000000
def ndpOptPrefixInformationFlagR : UInt8 := 0b11000000

/-- `sizeof(ndp_opt_PrefixInformation)`. -/
def sizeofNdpOptPrefixInformation : Nat := 30

def ndpCreateOptionPrefixInformation (m : Mem) (option : Nat) (prefixLength flags : UInt8)
    (validLifetime preferredLifetime : UInt32) (prefixAddr : Nat) : Built :=
  let m := setHeader m option 3 4
  let data := optionData option
  let m := m.put data [prefixLength]
  let m := m.put (data + 1) [flags &&& 0xC0]
  let m := m.store32 (data + 2) (htobe32 validLifetime)
  let m := m.store32 (data + 6) (htobe32 preferredLifetime)
  let m := m.store32 (data + 10) 0
  let m := m.memcpy (data + 14) prefixAddr 16
  ⟨m, ndpOptOffset + sizeofNdpOptPrefixInformation⟩

def ndpCreateOptionMtu (m : Mem) (option : Nat) (mtu : UInt32) : Built :=
  let m := setHeader m option 5 1
  let data := optionData option
  let m := m.store16 data 0
  let m := m.store32 (data + 2) (htobe32 mtu)
  ⟨m, ndpOptOffset + 6⟩

/-- `NDP_OPT_ADVERTISEMENT_INTERVAL_PROP_LEN`. -/
def ndpOptAdvertisementIntervalPropLen : Nat := 1

/-- Neither the header nor the reserved field is stored. -/
def ndpCreateOptionAdvertisementIntervalOption (m : Mem) (option : Nat) (interval : UInt32) :
    Built :=
  ⟨m.store32 (optionData option + 2) (htobe32 interval), ndpOptAdvertisementIntervalPropLen * 8⟩

/-- `NDP_OPT_ROUTE_INFORMATION_PROP_LEN`. -/
def ndpOptRouteInformationPropLen : Nat := 1

/-- The variable `propLen`, in units of eight bytes. -/
def routeInformationPropLen (prefixLength : UInt8) : Nat :=
  if prefixLength ≠ 0 then ndpOptRouteInformationPropLen + (prefixLength.toNat / 64 + 1)
  else ndpOptRouteInformationPropLen

def ndpCreateOptionRouteInformation (m : Mem) (option : Nat)
    (prefixLength routePreference : UInt8) (routeLifetime : UInt32) (prefixAddr : Nat) : Built :=
  let propLen := routeInformationPropLen prefixLength
  let m := setHeader m option 24 (UInt8.ofNat propLen)
  let subOption := optionData option
  let m := m.put subOption [prefixLength]
  let m := m.put (subOption + 1) [routePreference]
  let m := m.store32 (subOption + 2) (htobe32 routeLifetime)
  if prefixLength = 0 then ⟨m, propLen * 8⟩
  else
    -- a prefix length from 128 on makes this read past the sixteen bytes
    ⟨m.memcpy (subOption + 6) prefixAddr ((propLen - 1) * 8), propLen * 8⟩

/-! ## Options as values -/

/-- ND options: a two byte header, the second half of which counts the bytes of the
option in units of eight. -/
def ndpFormat : Format where
  header := ndpOptOffset
  extent := fun bs => (bs[1]?.getD 0).toNat * 8
  header_pos := by decide
  extent_append := by
    intro bs cs h
    rw [List.getElem?_append_left h]

/-- An ND option of a positive length. -/
structure NdpOption where
  bytes : List UInt8
  record : ndpFormat.IsRecord bytes

namespace NdpOption

/-- The block at `p` holds the option `o`. -/
def At (o : NdpOption) (m : Mem) (p : Nat) : Prop :=
  m.slice p o.bytes.length = o.bytes

/-- What an option says about its size is so. -/
theorem At.size_eq {o : NdpOption} {m : Mem} {p : Nat} (h : o.At m p) :
    NdpOptPayload.size m p = o.bytes.length := by
  have hlong : 1 < o.bytes.length := o.record.1
  have hbyte : o.bytes[1]? = some (m (p + 1)) := by
    rw [← h, List.getElem?_eq_getElem (by simpa using hlong), Mem.getElem_slice]
  have hextent : (o.bytes[1]?.getD 0).toNat * 8 = o.bytes.length := o.record.2
  rw [hbyte] at hextent
  exact hextent

/-- A block whose `Length` is positive holds an option. -/
theorem exists_at {m : Mem} {p : Nat} (h : 0 < (NdpOptPayload.length m p).toNat) :
    ∃ o : NdpOption, o.At m p ∧ o.bytes = m.slice p (NdpOptPayload.size m p) := by
  have hlong : 2 ≤ NdpOptPayload.size m p := by
    unfold NdpOptPayload.size
    omega
  have hbyte : (m.slice p (NdpOptPayload.size m p))[1]? = some (m (p + 1)) := by
    rw [List.getElem?_eq_getElem (by simp; omega), Mem.getElem_slice]
  refine ⟨⟨m.slice p (NdpOptPayload.size m p), ?_, ?_⟩, ?_, rfl⟩
  · rwa [Mem.length_slice]
  · show ((m.slice p (NdpOptPayload.size m p))[1]?.getD 0).toNat * 8 = _
    rw [hbyte, Mem.length_slice]
    rfl
  · simp only [At, Mem.length_slice]

end NdpOption

end Pdrad
