import Pdrad.NdpWriter

/-!
# The Router Advertisement that `sendRouterAdv` builds (`test.c`)

Four options are built in blocks of their own and then copied into a packet.

1. `ndpCreateOption*_eq`: each constructor is one `put` of an option, of the size
   it allocated.
2. `sendRouterAdv_eq`: what is sent is `advBytes`, a packet with these options.
3. `prefixInfos_advBytes`, `routes_advBytes`: what a host reads from it.
-/

namespace Pdrad

open NdpOptPayload

/-! ## The options -/

def linkLayerAddress (type : UInt8) (etherAddr : List UInt8) (size : etherAddr.length = 6) :
    NdpOption where
  bytes := [type, 1] ++ etherAddr
  record := by
    refine ⟨by simp [ndpFormat, ndpOptOffset], ?_⟩
    simp [ndpFormat, size]

def prefixInformation (prefixLength flags : UInt8) (validLifetime preferredLifetime : UInt32)
    (prefixAddr : In6Addr) : NdpOption where
  bytes := [3, 4, prefixLength, flags &&& 0xC0] ++ beBytes 4 validLifetime.toNat ++
    beBytes 4 preferredLifetime.toNat ++ [0, 0, 0, 0] ++ prefixAddr.bytes
  record := by
    refine ⟨by simp [ndpFormat, ndpOptOffset], ?_⟩
    simp [ndpFormat, prefixAddr.size]

def mtuOption (mtu : UInt32) : NdpOption where
  bytes := [5, 1, 0, 0] ++ beBytes 4 mtu.toNat
  record := by
    refine ⟨by simp [ndpFormat, ndpOptOffset], ?_⟩
    simp [ndpFormat]

theorem routeInformationPropLen_lt (prefixLength : UInt8) :
    routeInformationPropLen prefixLength < 256 := by
  have hlength := prefixLength.toNat_lt
  unfold routeInformationPropLen ndpOptRouteInformationPropLen
  split
  · omega
  · omega

/-- `field` is the variable-length field for the prefix. -/
def routeInformation (prefixLength routePreference : UInt8) (routeLifetime : UInt32)
    (field : List UInt8) (size : 8 + field.length = routeInformationPropLen prefixLength * 8) :
    NdpOption where
  bytes := [24, UInt8.ofNat (routeInformationPropLen prefixLength), prefixLength,
    routePreference] ++ beBytes 4 routeLifetime.toNat ++ field
  record := by
    refine ⟨by simp [ndpFormat, ndpOptOffset], ?_⟩
    simp only [ndpFormat, List.cons_append, List.getElem?_cons_succ, List.getElem?_cons_zero,
      Option.getD_some, UInt8.toNat_ofNat', Nat.mod_eq_of_lt (routeInformationPropLen_lt prefixLength),
      List.length_cons, List.length_append, length_beBytes, List.nil_append, ← size]
    omega

/-! ## The constructors -/

theorem setHeader_eq (m : Mem) (option : Nat) (type length : UInt8) :
    setHeader m option type length = m.put option [type, length] :=
  (Mem.put_append m option [type] [length]).symm

/-- A source or a target link-layer address. -/
theorem ndpCreateOptionLinkLayerAddressCore_eq {m : Mem} {option etherAddr : Nat} {type : UInt8}
    (htype : type = 1 ∨ type = 2) (hapart : Apart option 2 etherAddr 6) :
    ndpCreateOptionLinkLayerAddressCore m option type etherAddr =
      some ⟨m.put option (linkLayerAddress type (m.slice etherAddr 6)
        (Mem.length_slice m etherAddr 6)).bytes, 8⟩ := by
  have hknown : ¬ (type ≠ 1 ∧ type ≠ 2) := by
    rintro ⟨h1, h2⟩
    exact htype.elim h1 h2
  have hkeep : (m.put option [type, 1]).slice etherAddr 6 = m.slice etherAddr 6 :=
    Mem.slice_put_of_apart hapart
  simp only [ndpCreateOptionLinkLayerAddressCore, if_neg hknown, setHeader_eq, Mem.memcpy, hkeep,
    linkLayerAddress, Mem.put_append]
  rfl

theorem ndpCreateOptionSourceLinkLayerAddress_eq {m : Mem} {option etherAddr : Nat}
    (hapart : Apart option 2 etherAddr 6) :
    ndpCreateOptionSourceLinkLayerAddress m option etherAddr =
      some ⟨m.put option (linkLayerAddress 1 (m.slice etherAddr 6)
        (Mem.length_slice m etherAddr 6)).bytes, 8⟩ :=
  ndpCreateOptionLinkLayerAddressCore_eq (.inl rfl) hapart

theorem ndpCreateOptionMtu_eq (m : Mem) (option : Nat) (mtu : UInt32) :
    ndpCreateOptionMtu m option mtu = ⟨m.put option (mtuOption mtu).bytes, 8⟩ := by
  have hzero : leBytes 2 (0 : UInt16).toNat = [0, 0] := by decide
  have hbytes : (mtuOption mtu).bytes = [5, 1] ++ [0, 0] ++ beBytes 4 mtu.toNat := rfl
  simp only [ndpCreateOptionMtu, setHeader_eq, Mem.store16, Mem.store32, hzero, leBytes_bswap32,
    hbytes, Mem.put_append]
  rfl

theorem ndpCreateOptionPrefixInformation_eq {m : Mem} {option addr : Nat}
    (prefixLength flags : UInt8) (validLifetime preferredLifetime : UInt32)
    (hapart : Apart option 16 addr 16) :
    ndpCreateOptionPrefixInformation m option prefixLength flags validLifetime preferredLifetime
        addr =
      ⟨m.put option (prefixInformation prefixLength flags validLifetime preferredLifetime
        (In6Addr.read m addr)).bytes, 32⟩ := by
  have hzero : leBytes 4 (0 : UInt32).toNat = [0, 0, 0, 0] := by decide
  have hbytes : (prefixInformation prefixLength flags validLifetime preferredLifetime
      (In6Addr.read m addr)).bytes = [3, 4] ++ [prefixLength] ++ [flags &&& 0xC0] ++
        beBytes 4 validLifetime.toNat ++ beBytes 4 preferredLifetime.toNat ++ [0, 0, 0, 0] ++
        m.slice addr 16 := rfl
  have hkeep : (m.put option ([3, 4] ++ [prefixLength] ++ [flags &&& 0xC0] ++
      beBytes 4 validLifetime.toNat ++ beBytes 4 preferredLifetime.toNat ++
      [0, 0, 0, 0])).slice addr 16 = m.slice addr 16 :=
    Mem.slice_put_of_apart (by simpa using hapart)
  rw [hbytes, Mem.put_append, ← hkeep]
  simp only [ndpCreateOptionPrefixInformation, setHeader_eq, Mem.store32, hzero, leBytes_bswap32,
    Mem.memcpy, Mem.put_append, List.length_append, length_beBytes]
  rfl

theorem routeInformationPropLen_pos (prefixLength : UInt8) :
    8 + (routeInformationPropLen prefixLength - 1) * 8 = routeInformationPropLen prefixLength * 8 := by
  unfold routeInformationPropLen ndpOptRouteInformationPropLen
  split
  · omega
  · omega

/-- The field is as long as the prefix length makes it, and copied as it is. -/
theorem ndpCreateOptionRouteInformation_eq {m : Mem} {option addr : Nat}
    (prefixLength routePreference : UInt8) (routeLifetime : UInt32)
    (hapart : Apart option 8 addr ((routeInformationPropLen prefixLength - 1) * 8)) :
    ndpCreateOptionRouteInformation m option prefixLength routePreference routeLifetime addr =
      ⟨m.put option (routeInformation prefixLength routePreference routeLifetime
        (m.slice addr ((routeInformationPropLen prefixLength - 1) * 8))
        (by rw [Mem.length_slice, routeInformationPropLen_pos])).bytes,
        routeInformationPropLen prefixLength * 8⟩ := by
  have hbytes : (routeInformation prefixLength routePreference routeLifetime
      (m.slice addr ((routeInformationPropLen prefixLength - 1) * 8))
      (by rw [Mem.length_slice, routeInformationPropLen_pos])).bytes =
        [24, UInt8.ofNat (routeInformationPropLen prefixLength)] ++ [prefixLength] ++
        [routePreference] ++ beBytes 4 routeLifetime.toNat ++
        m.slice addr ((routeInformationPropLen prefixLength - 1) * 8) := rfl
  have hkeep : (m.put option ([24, UInt8.ofNat (routeInformationPropLen prefixLength)] ++
      [prefixLength] ++ [routePreference] ++ beBytes 4 routeLifetime.toNat)).slice addr
      ((routeInformationPropLen prefixLength - 1) * 8) =
      m.slice addr ((routeInformationPropLen prefixLength - 1) * 8) :=
    Mem.slice_put_of_apart (by simpa using hapart)
  rw [hbytes, Mem.put_append, ← hkeep]
  simp only [ndpCreateOptionRouteInformation, setHeader_eq, Mem.store32, leBytes_bswap32,
    Mem.memcpy, Mem.put_append, List.length_append, length_beBytes]
  split
  · next hzero =>
    subst hzero
    have hnone : (routeInformationPropLen 0 - 1) * 8 = 0 := by decide
    rw [hnone, Mem.slice_zero, Mem.put_nil]
    rfl
  · rfl

/-! ## The packet -/

/-- Where the caller's hardware address, the parameter `prefix`, the four options
and the packet lie. They are apart from each other. -/
structure RouterAdvBlocks where
  macAddr : Nat
  prefixAddr : Nat
  prefixInfo : Nat
  routeInfo : Nat
  mtu : Nat
  linkAddress : Nat
  raPacket : Nat
  apart : [(macAddr, 6), (prefixAddr, 16), (prefixInfo, 32), (routeInfo, 16), (mtu, 8),
    (linkAddress, 8), (raPacket, 80)].Pairwise fun x y => Apart x.1 x.2 y.1 y.2
  notNull : raPacket ≠ 0

/-- The message that `sendmsg` is given. `none` where the process does not get
that far. -/
def sendRouterAdv (b : RouterAdvBlocks) (m : Mem) (linkLocalAddr dstAddr prefixAddr : In6Addr)
    (prefixLength validTime preferTime : UInt32) : Option (List UInt8) :=
  let m := m.put b.prefixAddr prefixAddr.bytes
  let prefixInfo := ndpCreateOptionPrefixInformation m b.prefixInfo prefixLength.toUInt8
    ((ndpOptPrefixInformationFlagL ||| ndpOptPrefixInformationFlagA) &&&
      ndpOptPrefixInformationFlagR) validTime preferTime b.prefixAddr
  let routeInfo :=
    ndpCreateOptionRouteInformation prefixInfo.mem b.routeInfo 56 0x00 validTime b.prefixAddr
  let mtu := ndpCreateOptionMtu routeInfo.mem b.mtu 1500
  match ndpCreateOptionSourceLinkLayerAddress mtu.mem b.linkAddress b.macAddr with
  | none => none
  | some linkAddress =>
    (ndpCreateRAPacket linkAddress.mem b.raPacket linkLocalAddr dstAddr 64 1800 0x00 0x00
      [b.linkAddress, b.prefixInfo, b.routeInfo, b.mtu]).map fun r =>
        r.mem.slice b.raPacket r.length

section

variable (macAddr : List UInt8) (size : macAddr.length = 6) (prefixAddr : In6Addr)
  (prefixLength : UInt8) (validTime preferTime : UInt32)

/-- The options of the advertisement, in the order in which they are sent. -/
def advOptions : List NdpOption :=
  [linkLayerAddress 1 macAddr size,
    prefixInformation prefixLength 0xC0 validTime preferTime prefixAddr,
    routeInformation 56 0x00 validTime (prefixAddr.bytes.take 8)
      (by rw [List.length_take, prefixAddr.size]; rfl),
    mtuOption 1500]

def advBytes : List UInt8 :=
  raBytes 64 1800 0 0 (advOptions macAddr size prefixAddr prefixLength validTime preferTime)

namespace RouterAdvertLemmas

theorem length_linkLayerAddress (type : UInt8) :
    (linkLayerAddress type macAddr size).bytes.length = 8 := by
  simp only [linkLayerAddress, List.length_append, size, List.length_cons, List.length_nil]

theorem length_prefixInformation (flags : UInt8) : (prefixInformation prefixLength flags validTime
    preferTime prefixAddr).bytes.length = 32 := by
  simp only [prefixInformation, List.length_append, length_beBytes, prefixAddr.size,
    List.length_cons, List.length_nil]

theorem length_routeInformation (routePreference : UInt8) (field : List UInt8)
    (hfield : 8 + field.length = routeInformationPropLen prefixLength * 8) :
    (routeInformation prefixLength routePreference validTime field hfield).bytes.length =
      routeInformationPropLen prefixLength * 8 := by
  simp only [routeInformation, List.length_append, length_beBytes, List.length_cons,
    List.length_nil, ← hfield]

theorem length_mtuOption (mtu : UInt32) : (mtuOption mtu).bytes.length = 8 := by
  simp only [mtuOption, List.length_append, length_beBytes, List.length_cons, List.length_nil]

end RouterAdvertLemmas

open RouterAdvertLemmas

theorem length_advBytes :
    (advBytes macAddr size prefixAddr prefixLength validTime preferTime).length = 80 := by
  rw [advBytes, length_raBytes]
  simp only [advOptions, List.map_cons, List.map_nil, length_linkLayerAddress,
    length_prefixInformation, length_routeInformation, length_mtuOption]
  rfl

end

namespace RouterAdvertLemmas

/-- The packet builder can be given any list of options that have been put into blocks
apart from each other and from the packet. -/
theorem ndpBeside_putBlocks (m : Mem) {pkt n : Nat} {blocks : List (Nat × List UInt8)}
    {sent : List (Nat × NdpOption)}
    (hapart : AllApart (blocks.map (fun b => (b.1, b.2.length)) ++ [(pkt, n)]))
    (hsent : ∀ x ∈ sent, (x.1, x.2.bytes) ∈ blocks) :
    NdpBeside (m.putBlocks blocks) pkt n (sent.map Prod.fst) (sent.map Prod.snd) := by
  obtain ⟨hblocks, _, hpkt⟩ := List.pairwise_append.mp hapart
  unfold NdpBeside
  rw [List.forall₂_map_left_iff, List.forall₂_map_right_iff, List.forall₂_same]
  intro x hx
  have hmem := hsent x hx
  exact ⟨Mem.slice_putBlocks_of_mem hblocks _ hmem,
    (hpkt _ (List.mem_map_of_mem hmem) _ List.mem_cons_self).symm⟩

/-- The part of the parameter `prefix` that goes into a route, behind another put. -/
theorem slice_routeField (m : Mem) {addr option : Nat} (prefixAddr : In6Addr) {bs : List UInt8}
    (hapart : Apart option bs.length addr 16) :
    ((m.put addr prefixAddr.bytes).put option bs).slice addr ((routeInformationPropLen 56 - 1) * 8) =
      prefixAddr.bytes.take 8 := by
  have hkept : Apart option bs.length addr 8 := (hapart.symm.front (by decide)).symm
  exact (Mem.slice_put_of_apart hkept).trans (In6Addr.slice_put m addr prefixAddr (by decide))

end RouterAdvertLemmas

open RouterAdvertLemmas

/-- The options as they are built, one after the other. -/
theorem sendRouterAdv_options (b : RouterAdvBlocks) (m : Mem)
    (linkLocalAddr dstAddr prefixAddr : In6Addr) (prefixLength validTime preferTime : UInt32) :
    ∃ m', NdpBeside m' b.raPacket 80 [b.linkAddress, b.prefixInfo, b.routeInfo, b.mtu]
        (advOptions (m.slice b.macAddr 6) (Mem.length_slice m b.macAddr 6) prefixAddr
          prefixLength.toUInt8 validTime preferTime) ∧
      sendRouterAdv b m linkLocalAddr dstAddr prefixAddr prefixLength validTime preferTime =
        (ndpCreateRAPacket m' b.raPacket linkLocalAddr dstAddr 64 1800 0 0
          [b.linkAddress, b.prefixInfo, b.routeInfo, b.mtu]).map fun r =>
            r.mem.slice b.raPacket r.length := by
  have hapart := b.apart
  simp only [List.pairwise_cons, List.mem_cons, List.not_mem_nil, or_false, forall_eq_or_imp,
    forall_eq] at hapart
  obtain ⟨⟨hmp, hmi, hmr, hmm, hml, _⟩, ⟨hpi, hpr, _⟩, _⟩ := hapart
  -- Each constructor is called on what the calls before it have left.
  generalize hpi' : prefixInformation prefixLength.toUInt8 0xC0 validTime preferTime prefixAddr = pi
  have hpiLength : pi.bytes.length = 32 := by rw [← hpi', length_prefixInformation]
  have hinfoPut : Apart b.prefixInfo pi.bytes.length b.prefixAddr 16 := by
    rw [hpiLength]
    exact hpi.symm
  have hfield := slice_routeField m prefixAddr hinfoPut
  have hflags : (ndpOptPrefixInformationFlagL ||| ndpOptPrefixInformationFlagA) &&&
      ndpOptPrefixInformationFlagR = 0xC0 := by decide
  have hprefixInfo : Apart b.prefixInfo 16 b.prefixAddr 16 := hpi.symm.front (by decide)
  have hrouteInfo : Apart b.routeInfo 8 b.prefixAddr ((routeInformationPropLen 56 - 1) * 8) :=
    (hpr.front (by decide)).symm.front (by decide)
  have hlinkAddress : Apart b.linkAddress 2 b.macAddr 6 := hml.symm.front (by decide)
  simp only [sendRouterAdv, hflags, ndpCreateOptionPrefixInformation_eq _ _ _ _ hprefixInfo,
    In6Addr.read_put, hpi', ndpCreateOptionRouteInformation_eq _ _ _ hrouteInfo, hfield,
    ndpCreateOptionMtu_eq, ndpCreateOptionSourceLinkLayerAddress_eq hlinkAddress]
  unfold advOptions
  rw [hpi']
  generalize hri : routeInformation 56 0x00 validTime (prefixAddr.bytes.take 8) _ = ri
  have hriLength : ri.bytes.length = 16 := by
    rw [← hri, length_routeInformation]
    rfl
  have hmtuLength := length_mtuOption 1500
  generalize mtuOption 1500 = mtu at *
  -- nothing written so far touches the hardware address
  have hmac : ((((m.put b.prefixAddr prefixAddr.bytes).put b.prefixInfo pi.bytes).put b.routeInfo
      ri.bytes).put b.mtu mtu.bytes).slice b.macAddr 6 = m.slice b.macAddr 6 := by
    rw [Mem.slice_put_of_apart (by rw [hmtuLength]; exact hmm.symm),
      Mem.slice_put_of_apart (by rw [hriLength]; exact hmr.symm),
      Mem.slice_put_of_apart (by rw [hpiLength]; exact hmi.symm),
      Mem.slice_put_of_apart (by rw [prefixAddr.size]; exact hmp.symm)]
  simp only [hmac]
  have hlinkLength := length_linkLayerAddress (m.slice b.macAddr 6) (Mem.length_slice m b.macAddr 6) 1
  generalize linkLayerAddress 1 (m.slice b.macAddr 6) (Mem.length_slice m b.macAddr 6) = link at *
  have hblocks : AllApart (([(b.prefixAddr, prefixAddr.bytes), (b.prefixInfo, pi.bytes),
      (b.routeInfo, ri.bytes), (b.mtu, mtu.bytes), (b.linkAddress, link.bytes)].map
        fun x => (x.1, x.2.length)) ++ [(b.raPacket, 80)]) := by
    simp only [List.map_cons, prefixAddr.size, hpiLength, hriLength, hmtuLength, hlinkLength]
    exact (List.pairwise_cons.mp b.apart).2
  have hsent : ∀ x ∈ [(b.linkAddress, link), (b.prefixInfo, pi), (b.routeInfo, ri), (b.mtu, mtu)],
      (x.1, x.2.bytes) ∈ [(b.prefixAddr, prefixAddr.bytes), (b.prefixInfo, pi.bytes),
        (b.routeInfo, ri.bytes), (b.mtu, mtu.bytes), (b.linkAddress, link.bytes)] := by
    simp
  exact ⟨_, ndpBeside_putBlocks m hblocks hsent, rfl⟩

/-- The message is the advertisement it is meant to be, with a checksum of zero. -/
theorem sendRouterAdv_eq (b : RouterAdvBlocks) (m : Mem) (linkLocalAddr dstAddr prefixAddr : In6Addr)
    (prefixLength validTime preferTime : UInt32) :
    sendRouterAdv b m linkLocalAddr dstAddr prefixAddr prefixLength validTime preferTime =
      some (advBytes (m.slice b.macAddr 6) (Mem.length_slice m b.macAddr 6) prefixAddr
        prefixLength.toUInt8 validTime preferTime) := by
  obtain ⟨m', hbeside, hsend⟩ := sendRouterAdv_options b m linkLocalAddr dstAddr prefixAddr
    prefixLength validTime preferTime
  have hlength := length_advBytes (m.slice b.macAddr 6) (Mem.length_slice m b.macAddr 6) prefixAddr
    prefixLength.toUInt8 validTime preferTime
  rw [← hlength] at hbeside
  have hcreate := (ndpCreateRAPacket_eq 64 1800 0 0 linkLocalAddr dstAddr b.notNull hbeside).trans
    (if_pos (hlength ▸ by decide))
  rw [hsend, hcreate, Option.map_some, Mem.slice_put_same, advBytes]

/-- What both threads do with the mutex held: advertise `_prefix`. -/
def advertisePrefix (b : RouterAdvBlocks) (m : Mem) (linkLocalAddr dstAddr : In6Addr)
    (p : DhOptIAPrefix) : Option (List UInt8) :=
  sendRouterAdv b m linkLocalAddr dstAddr p.prefixAddr p.prefixLength.toUInt32 p.validLifetime
    p.preferredLifetime

theorem advertisePrefix_eq (b : RouterAdvBlocks) (m : Mem) (linkLocalAddr dstAddr : In6Addr)
    (p : DhOptIAPrefix) :
    advertisePrefix b m linkLocalAddr dstAddr p =
      some (advBytes (m.slice b.macAddr 6) (Mem.length_slice m b.macAddr 6) p.prefixAddr
        p.prefixLength p.validLifetime p.preferredLifetime) := by
  rw [advertisePrefix, sendRouterAdv_eq, UInt8.toUInt8_toUInt32]

/-! ## What a host reads -/

/-- The options of a received advertisement. -/
def ndOptions (pkt : List UInt8) : List (List UInt8) :=
  ndpFormat.records (pkt.drop sizeofNdRouterAdvert)

/-- A prefix to use on the link, with its two lifetimes. -/
structure PrefixInfo where
  range : AddressPrefix In6Addr
  validLifetime : Nat
  preferredLifetime : Nat
deriving DecidableEq

def readPrefixInformation (o : List UInt8) : Option PrefixInfo :=
  if o.head? = some 3 then
    some ⟨⟨In6Addr.ofBytes (o.drop 16), (o.getD 2 0).toNat⟩, beValue ((o.drop 4).take 4),
      beValue ((o.drop 8).take 4)⟩
  else none

/-- The prefix that a route leads to. Its field is zero where it is cut off. -/
def readRouteInformation (o : List UInt8) : Option (AddressPrefix In6Addr) :=
  if o.head? = some 24 then some ⟨In6Addr.ofBytes (o.drop 8), (o.getD 2 0).toNat⟩ else none

def prefixInfos (pkt : List UInt8) : List PrefixInfo :=
  (ndOptions pkt).filterMap readPrefixInformation

def routes (pkt : List UInt8) : List (AddressPrefix In6Addr) :=
  (ndOptions pkt).filterMap readRouteInformation

section

variable (curHopLimit : UInt8) (routerLifeTime : UInt16) (reachableTime reTransTimer : UInt32)
  (opts : List NdpOption)

/-- Behind the header of a packet there are its options. -/
theorem drop_raBytes :
    (raBytes curHopLimit routerLifeTime reachableTime reTransTimer opts).drop sizeofNdRouterAdvert =
      (opts.map NdpOption.bytes).flatten := by
  have hheader : (raHead ++ raFields curHopLimit routerLifeTime reachableTime
      reTransTimer).length = sizeofNdRouterAdvert := by
    simp only [raHead, raFields, List.length_append, length_beBytes, List.length_cons,
      List.length_nil, sizeofNdRouterAdvert]
  rw [raBytes, List.drop_left' hheader, List.flatMap_def]

theorem isRecord_bytes : ∀ r ∈ opts.map NdpOption.bytes, ndpFormat.IsRecord r := by
  intro r hr
  obtain ⟨o, _, rfl⟩ := List.mem_map.mp hr
  exact o.record

/-- A packet as it is built has the options it is built from. -/
theorem ndOptions_raBytes :
    ndOptions (raBytes curHopLimit routerLifeTime reachableTime reTransTimer opts) =
      opts.map NdpOption.bytes := by
  rw [ndOptions, drop_raBytes, Format.records_flatten (isRecord_bytes opts)]

/-- Nothing is left behind the last of them. -/
theorem rest_raBytes :
    ndpFormat.rest ((raBytes curHopLimit routerLifeTime reachableTime reTransTimer opts).drop
      sizeofNdRouterAdvert) = [] := by
  rw [drop_raBytes, Format.rest_flatten (isRecord_bytes opts)]

end

namespace RouterAdvertLemmas

theorem readPrefixInformation_bytes (prefixLength flags : UInt8) (validTime preferTime : UInt32)
    (prefixAddr : In6Addr) :
    readPrefixInformation (prefixInformation prefixLength flags validTime preferTime
      prefixAddr).bytes =
      some ⟨⟨prefixAddr, prefixLength.toNat⟩, validTime.toNat, preferTime.toNat⟩ := by
  have hvalue (v : UInt32) : beValue (beBytes 4 v.toNat) = v.toNat := by
    rw [beValue_beBytes]
    exact Nat.mod_eq_of_lt v.toNat_lt
  have hhead : [3, 4, prefixLength, flags &&& 0xC0].length = 4 := rfl
  have hbytes : (prefixInformation prefixLength flags validTime preferTime prefixAddr).bytes =
      [3, 4, prefixLength, flags &&& 0xC0] ++ (beBytes 4 validTime.toNat ++
        (beBytes 4 preferTime.toNat ++ ([0, 0, 0, 0] ++ prefixAddr.bytes))) := by
    simp only [prefixInformation, List.append_assoc]
  have hvalid : ((prefixInformation prefixLength flags validTime preferTime
      prefixAddr).bytes.drop 4).take 4 = beBytes 4 validTime.toNat := by
    rw [hbytes, List.drop_left' hhead, List.take_left' (length_beBytes 4 _)]
  have hpreferred : ((prefixInformation prefixLength flags validTime preferTime
      prefixAddr).bytes.drop 8).take 4 = beBytes 4 preferTime.toNat := by
    rw [hbytes, ← List.append_assoc, List.drop_left' (by rw [List.length_append, hhead,
      length_beBytes]), List.take_left' (length_beBytes 4 _)]
  have haddress : (prefixInformation prefixLength flags validTime preferTime
      prefixAddr).bytes.drop 16 = prefixAddr.bytes :=
    List.drop_left' (by simp)
  rw [readPrefixInformation, hvalid, hpreferred, haddress, hvalue, hvalue, In6Addr.ofBytes_bytes]
  rfl

theorem readRouteInformation_bytes (prefixLength routePreference : UInt8) (routeLifetime : UInt32)
    (field : List UInt8) (size : 8 + field.length = routeInformationPropLen prefixLength * 8) :
    readRouteInformation (routeInformation prefixLength routePreference routeLifetime field
      size).bytes = some ⟨In6Addr.ofBytes field, prefixLength.toNat⟩ := by
  have hfield : (routeInformation prefixLength routePreference routeLifetime field
      size).bytes.drop 8 = field :=
    List.drop_left' (by simp)
  rw [readRouteInformation, hfield]
  rfl

end RouterAdvertLemmas

section

variable (macAddr : List UInt8) (size : macAddr.length = 6) (prefixAddr : In6Addr)
  (prefixLength : UInt8) (validTime preferTime : UInt32)

theorem prefixInfos_advBytes :
    prefixInfos (advBytes macAddr size prefixAddr prefixLength validTime preferTime) =
      [⟨⟨prefixAddr, prefixLength.toNat⟩, validTime.toNat, preferTime.toNat⟩] := by
  rw [prefixInfos, advBytes, ndOptions_raBytes]
  simp only [advOptions, List.map_cons, List.map_nil, List.filterMap_cons, List.filterMap_nil,
    readPrefixInformation_bytes]
  rfl

/-- The route's field has the first eight bytes of the prefix. -/
theorem routes_advBytes :
    routes (advBytes macAddr size prefixAddr prefixLength validTime preferTime) =
      [⟨In6Addr.ofBytes (prefixAddr.bytes.take 8), 56⟩] := by
  rw [routes, advBytes, ndOptions_raBytes]
  simp only [advOptions, List.map_cons, List.map_nil, List.filterMap_cons, List.filterMap_nil,
    readRouteInformation_bytes]
  rfl

end

end Pdrad
