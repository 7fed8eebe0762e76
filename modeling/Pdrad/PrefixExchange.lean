import Pdrad.DhcpThread
import Pdrad.DhRoundTrip

/-!
# A prefix from server to client

`dh_createOption_IAPrefix` builds the option that delegates a prefix, and
`requestAndReceiveDhcp` with the conversions behind it is the one consumer of such
options. In between lie the `IA_PD` that the option is nested in and the reply.

1. `prefixReply_eq`: the reply carries the whole nested option.
2. `obtained_eq`: what the client has in the end. The constructor cuts a lifetime
   to 16 bits and swaps these, the client swaps all 32; and the option is a byte
   short, so the prefix ends with whatever lies behind the reply.
3. `obtained_eq_iff`: for which prefixes these are the values that were given.
4. `not_roundTrips`: for none of them are they taken from the nested option only.
-/

namespace Pdrad

open DhOptPayload

/-! ## The two ends -/

/-- The blocks that `malloc` returns to the server. What is written behind the first
two does not meet the others, so that nothing but the two ends themselves can go
wrong. -/
structure ServerBlocks where
  iaPrefix : Nat
  iaPd : Nat
  packet : Nat
  apart : [(iaPrefix, 29), (iaPd, 44), (packet, 48)].Pairwise fun x y => Apart x.1 x.2 y.1 y.2

/-- A reply, and how many of its bytes are the nested option. -/
structure PrefixReply where
  bytes : List UInt8
  nestedSize : Nat

/-- Build the option, nest it in an `IA_PD`, and send this in a `dh_REPLY`. -/
def prefixReply (b : ServerBlocks) (m : Mem) (given : DhOptIAPrefix) (iaId : UInt32)
    (t : DhPktTransactionId) : Option PrefixReply :=
  let iaPrefix := dhCreateOptionIAPrefix m b.iaPrefix given.preferredLifetime given.validLifetime
    given.prefixLength given.prefixAddr
  let nestedSize := optionSize iaPrefix.mem b.iaPrefix
  let iaPd := dhCreateOptionIAPD iaPrefix.mem b.iaPd iaId (some b.iaPrefix) nestedSize
  (dhCreatePacket iaPd.mem b.packet .reply t [b.iaPd]).map fun (m, length) =>
    ⟨m.slice b.packet length, nestedSize⟩

/-- The client's memory and receive buffer, in which the reply has room, and what
`receiveReply` takes besides. -/
structure PrefixClient where
  mem : Mem
  buffer : Nat
  bufferLength : Nat
  handler : Nat
  sent : SysCall
  before : DhOptIAPrefix
  bufferAt : BufferAt buffer bufferLength
  room : 48 ≤ bufferLength

/-- The call that receives the datagram `d`. -/
def PrefixClient.receive (c : PrefixClient) (d : List UInt8) : Nat → Option DhcpCall :=
  receiveReply (fun _ => true) (some d) c.handler c.sent c.mem c.buffer c.bufferLength c.before

/-- The conversions of `Thread_requestDhcpPrefix` behind a request. -/
def hostLifetimes (p : DhOptIAPrefix) : DhOptIAPrefix :=
  { p with
    preferredLifetime := be32toh p.preferredLifetime
    validLifetime := be32toh p.validLifetime }

theorem afterRequest_eq (p : DhOptIAPrefix) :
    afterRequest p = { hostLifetimes p with prefixLength := 64 } := rfl

/-- Where the first option of the first `IA_PD` begins in a reply. -/
def nestedOffset : Nat := dhPktOffset + dhOptPayloadOffset + sizeofDhOptIAPD

/-- The client obtains what the server was given, from the bytes of the option that
the server has nested. -/
def RoundTrips (b : ServerBlocks) (m : Mem) (c : PrefixClient) (given : DhOptIAPrefix)
    (iaId : UInt32) (t : DhPktTransactionId) : Prop :=
  ∃ reply call source, prefixReply b m given iaId t = some reply ∧
    Returns (c.receive reply.bytes) call ∧ hostLifetimes call.prefixResult = given ∧
    call.copiedFrom = some source ∧ c.buffer + nestedOffset ≤ source ∧
    source + sizeofDhOptIAPrefix ≤ c.buffer + nestedOffset + reply.nestedSize

/-! ## The server's end -/

/-- The lifetime that `dh_createOption_IAPrefix` stores. -/
def storedLifetime (time : UInt32) : UInt32 := (htobe16 time.toUInt16).toUInt32

/-- The option that `dh_createOption_IAPrefix` declares. -/
def declaredIAPrefix (given : DhOptIAPrefix) : DhOption where
  code := DhOptions.iaPrefix.code
  data := leBytes 4 (storedLifetime given.preferredLifetime).toNat ++
    leBytes 4 (storedLifetime given.validLifetime).toNat ++ [given.prefixLength] ++
    given.prefixAddr.bytes.take 15
  fits := by simp [given.prefixAddr.size]

namespace PrefixExchangeLemmas

theorem length_declaredIAPrefix (given : DhOptIAPrefix) :
    (declaredIAPrefix given).data.length = 24 := by
  simp [declaredIAPrefix, given.prefixAddr.size]

/-- The constructor writes the option it declares, and one byte more. -/
theorem dhCreateOptionIAPrefix_eq (m : Mem) (payload : Nat) (given : DhOptIAPrefix) :
    (dhCreateOptionIAPrefix m payload given.preferredLifetime given.validLifetime
      given.prefixLength given.prefixAddr).mem =
      m.put payload ((declaredIAPrefix given).host ++ given.prefixAddr.bytes.drop 15) := by
  have hbytes : (declaredIAPrefix given).host ++ given.prefixAddr.bytes.drop 15 =
      leBytes 2 DhOptions.iaPrefix.code.toNat ++ leBytes 2 (UInt16.ofNat 24).toNat ++
        leBytes 4 (storedLifetime given.preferredLifetime).toNat ++
        leBytes 4 (storedLifetime given.validLifetime).toNat ++ [given.prefixLength] ++
        given.prefixAddr.bytes := by
    rw [DhOption.host, length_declaredIAPrefix]
    simp only [declaredIAPrefix, List.append_assoc, List.take_append_drop]
    rfl
  rw [hbytes]
  simp only [Mem.put_append]
  rfl

/-- An option is where it was written, whatever was written behind it. -/
theorem at_put_append (m : Mem) (p : Nat) (o : DhOption) (rest : List UInt8) :
    o.At (m.put p (o.host ++ rest)) p := by
  rw [DhOption.at_iff, ← DhOption.length_host]
  exact (Mem.slice_eq_append (Mem.slice_put_same m p (o.host ++ rest))).1

end PrefixExchangeLemmas

open PrefixExchangeLemmas

/-- The option that the server sends. -/
def sentIAPD (given : DhOptIAPrefix) (iaId : UInt32) : DhOption :=
  nestingIAPD iaId (declaredIAPrefix given).host (by
    rw [DhOption.length_host, DhOption.size, length_declaredIAPrefix]
    decide)

namespace PrefixExchangeLemmas

open DhWriterLemmas DhSolicitLemmas

theorem size_sentIAPD (given : DhOptIAPrefix) (iaId : UInt32) :
    (sentIAPD given iaId).size = 44 := by
  simp [sentIAPD, nestingIAPD, DhOption.size, DhOption.length_host, length_declaredIAPrefix,
    dhOptPayloadOffset]

theorem length_reply (given : DhOptIAPrefix) (iaId : UInt32) (t : DhPktTransactionId) :
    (packetBytes .reply t [sentIAPD given iaId]).length = 48 := by
  rw [length_packetBytes, List.map_singleton, size_sentIAPD]
  rfl

/-- The server's two constructors, one after the other. -/
theorem nest_eq (m : Mem) {iaPrefix iaPd : Nat} (given : DhOptIAPrefix) (iaId : UInt32)
    (hapart : Apart iaPrefix 28 iaPd 16) :
    (dhCreateOptionIAPD (m.put iaPrefix ((declaredIAPrefix given).host ++
      given.prefixAddr.bytes.drop 15)) iaPd iaId (some iaPrefix) 28).mem =
      (m.put iaPrefix ((declaredIAPrefix given).host ++ given.prefixAddr.bytes.drop 15)).put iaPd
        (sentIAPD given iaId).host := by
  have hsize : (declaredIAPrefix given).size = 28 := by
    rw [DhOption.size, length_declaredIAPrefix]
    rfl
  have hhost := DhOption.at_iff.mp (at_put_append m iaPrefix (declaredIAPrefix given)
    (given.prefixAddr.bytes.drop 15))
  rw [hsize] at hhost
  rw [dhCreateOptionIAPD_nesting iaId (by decide) hapart.symm]
  simp only [hhost]
  rfl

end PrefixExchangeLemmas

open DhWriterLemmas DhSolicitLemmas

/-- The reply has one option, which nests 28 bytes. -/
theorem prefixReply_eq (b : ServerBlocks) (m : Mem) (given : DhOptIAPrefix) (iaId : UInt32)
    (t : DhPktTransactionId) :
    prefixReply b m given iaId t = some ⟨packetBytes .reply t [sentIAPD given iaId], 28⟩ := by
  have hapart := b.apart
  simp only [List.pairwise_cons, List.mem_cons, List.not_mem_nil, or_false, forall_eq_or_imp,
    forall_eq] at hapart
  obtain ⟨⟨hpi, _⟩, hip, _⟩ := hapart
  have hsize : optionSize (m.put b.iaPrefix ((declaredIAPrefix given).host ++
      given.prefixAddr.bytes.drop 15)) b.iaPrefix = 28 := by
    rw [optionSize_eq (at_put_append m b.iaPrefix (declaredIAPrefix given) _), DhOption.size,
      length_declaredIAPrefix]
    rfl
  have hnest := nest_eq m given iaId ((hpi.front (by decide)).symm.front (by decide)).symm
  have hbeside : Beside ((m.put b.iaPrefix ((declaredIAPrefix given).host ++
      given.prefixAddr.bytes.drop 15)).put b.iaPd (sentIAPD given iaId).host) b.packet
      (packetBytes .reply t [sentIAPD given iaId]).length [b.iaPd] [sentIAPD given iaId] := by
    refine .cons ⟨at_put_host _ b.iaPd _, ?_⟩ .nil
    rw [length_reply, size_sentIAPD]
    exact hip.symm
  simp only [prefixReply, dhCreateOptionIAPrefix_eq, hsize, hnest,
    dhCreatePacket_eq .reply t hbeside (by simp), Option.map_some, Mem.slice_put_same]

/-! ## The client's end -/

/-- What the client obtains: lifetimes shifted by 16 bits, and a prefix whose last byte
is the one behind the reply. -/
def obtained (given : DhOptIAPrefix) (behind : UInt8) : DhOptIAPrefix where
  preferredLifetime := given.preferredLifetime <<< 16
  validLifetime := given.validLifetime <<< 16
  prefixLength := given.prefixLength
  prefixAddr := ⟨given.prefixAddr.bytes.take 15 ++ [behind], by simp [given.prefixAddr.size]⟩

namespace PrefixExchangeLemmas

/-- The two ends do not mean the same bytes by a lifetime. -/
theorem be32toh_storedLifetime (time : UInt32) : be32toh (storedLifetime time) = time <<< 16 := by
  apply UInt32.toNat_inj.mp
  have hstored := (bswap16 time.toUInt16).toNat_lt
  have hlow : beValue (leBytes 2 (bswap16 time.toUInt16).toNat) = time.toNat % 2 ^ 16 := by
    rw [leBytes_bswap16, beValue_beBytes, UInt32.toNat_toUInt16]
    exact Nat.mod_mod _ _
  have hshift : (16 : UInt32).toNat % 32 = 16 := rfl
  rw [storedLifetime, toNat_bswap32, UInt16.toNat_toUInt32, beValue_leBytes_short hstored, hlow,
    UInt32.toNat_shiftLeft, hshift, Nat.shiftLeft_eq]
  omega

open RequestDhcpLemmas DhRoundTripLemmas DhReaderLemmas

/-- A reply with one option, an `IA_PD`, is received: the copy is made from behind the
header of what the option nests. -/
theorem receive_single (c : PrefixClient) (t : DhPktTransactionId) {o : DhOption}
    (hcode : o.code = DhOptions.iaPd.code)
    (hroom : (packetBytes .reply t [o]).length ≤ c.bufferLength) :
    ∃ call, Returns (c.receive (packetBytes .reply t [o])) call ∧
      call.copiedFrom = some (c.buffer + 24) ∧ call.prefixResult = DhOptIAPrefix.read
        ((c.mem.put c.buffer (packetBytes .reply t [o])).put (c.buffer + 4) o.host)
        (c.buffer + 24) := by
  have hstop := c.bufferAt.stop
  have hbytes : receivedBytes c.bufferLength (packetBytes .reply t [o]) =
      packetBytes .reply t [o] := List.take_of_length_le hroom
  have hslice := Mem.slice_put_same c.mem c.buffer (packetBytes .reply t [o])
  obtain ⟨_, hfirst, hopts⟩ := slice_packetBytes hslice
  obtain ⟨s, ⟨n, hrun⟩, _, hreading, hmem⟩ := parse_reply (fun _ => true) (by omega)
    (hfirst ▸ .inr rfl) (List.cons_ne_nil o []) hopts
  have hfollow : followPrefix s = some (c.buffer + 24) := by
    have hcodes : placedWith c.buffer .iaPd [o] = [c.buffer + 4] := by
      simp [placedWith, placed, layout, hcode, dhPktOffset]
    have hlist := Chain.head_value hreading.list
    rw [granted_all, withCode_placed hopts, hcodes] at hlist
    rw [followPrefix, hlist]
    rfl
  have hshown : printMemoryHex (some c.buffer) (packetBytes .reply t [o]).length = true :=
    printMemoryHex_some.mpr (by omega)
  refine ⟨⟨s.mem.mem, DhOptIAPrefix.read s.mem.mem (c.buffer + 24), some (c.buffer + 24),
    [c.sent, .recvfrom c.handler, .close c.handler], some 0⟩, ⟨n, fun k hk => ?_⟩, rfl, ?_⟩
  · simp [PrefixClient.receive, receiveReply, recvfrom, hbytes, hshown, hrun k hk, hfollow]
  · rw [hmem]
    simp

/-- What the client copies, before it converts anything. -/
theorem read_sentIAPD (m : Mem) (a : Nat) (given : DhOptIAPrefix) (iaId : UInt32) :
    DhOptIAPrefix.read (m.put a (sentIAPD given iaId).host) (a + 20) =
      ⟨storedLifetime given.preferredLifetime, storedLifetime given.validLifetime,
        given.prefixLength, (obtained given (m (a + 44))).prefixAddr⟩ := by
  -- twenty bytes of headers and fields, and the data of the nested option
  have hhost : (m.put a (sentIAPD given iaId).host).slice a (sentIAPD given iaId).host.length =
      (leBytes 2 25 ++ leBytes 2 40 ++ (beBytes 4 iaId.toNat ++ [0, 0, 0, 0] ++ [0, 0, 0, 0]) ++
        (leBytes 2 26 ++ leBytes 2 24)) ++ (declaredIAPrefix given).data := by
    rw [Mem.slice_put_same]
    simp only [sentIAPD, nestingIAPD, DhOption.host, List.length_append, length_beBytes,
      length_leBytes, List.length_cons, List.length_nil, length_declaredIAPrefix,
      List.append_assoc]
    rfl
  have hdata := (Mem.slice_eq_append hhost).2
  simp only [List.length_append, length_beBytes, length_leBytes, List.length_cons, List.length_nil,
    length_declaredIAPrefix, Nat.reduceAdd] at hdata
  have hbehind : m.put a (sentIAPD given iaId).host (a + 44) = m (a + 44) :=
    Mem.put_of_ge (by rw [DhOption.length_host, size_sentIAPD])
  have hlast : (m.put a (sentIAPD given iaId).host).slice (a + 20 + 24) 1 = [m (a + 44)] :=
    congrArg (fun x => [x]) hbehind
  refine DhOptIAPrefix.read_of_slice ?_
  rw [Mem.slice_add _ (a + 20) 24 1, hdata, hlast]
  simp only [declaredIAPrefix, DhOptIAPrefix.bytes, obtained, List.append_assoc]

end PrefixExchangeLemmas

/-- **What the client has in the end.** -/
theorem obtained_eq (c : PrefixClient) (given : DhOptIAPrefix) (iaId : UInt32)
    (t : DhPktTransactionId) :
    ∃ call, Returns (c.receive (packetBytes .reply t [sentIAPD given iaId])) call ∧
      call.copiedFrom = some (c.buffer + 24) ∧
      hostLifetimes call.prefixResult = obtained given (c.mem (c.buffer + 48)) := by
  have hlength := length_reply given iaId t
  obtain ⟨call, hret, hsource, hresult⟩ :=
    receive_single c t (o := sentIAPD given iaId) rfl (hlength.symm ▸ c.room)
  have hbehind : c.mem.put c.buffer (packetBytes .reply t [sentIAPD given iaId]) (c.buffer + 48) =
      c.mem (c.buffer + 48) := Mem.put_of_ge (by rw [hlength])
  have hread := read_sentIAPD (c.mem.put c.buffer (packetBytes .reply t [sentIAPD given iaId]))
    (c.buffer + 4) given iaId
  simp only [Nat.add_assoc, Nat.reduceAdd, hbehind] at hread
  refine ⟨call, hret, hsource, ?_⟩
  rw [hresult, hread]
  simp only [hostLifetimes, obtained, be32toh_storedLifetime]

namespace PrefixExchangeLemmas

theorem shifted_eq_iff (time : UInt32) : time <<< 16 = time ↔ time = 0 := by
  have hshift : (16 : UInt32).toNat % 32 = 16 := rfl
  rw [← UInt32.toNat_inj, ← UInt32.toNat_inj, UInt32.toNat_shiftLeft, hshift, Nat.shiftLeft_eq,
    UInt32.toNat_zero]
  constructor
  · intro h
    -- the low half is zero, and then so is what it is shifted to
    have hlow : 2 ^ 16 ∣ time.toNat := by
      rw [← h]
      exact (Nat.dvd_mod_iff (by decide)).mpr (Nat.dvd_mul_left _ _)
    obtain ⟨high, hhigh⟩ := hlow
    have hout : time.toNat * 2 ^ 16 = 2 ^ 32 * high := by
      rw [hhigh, Nat.mul_right_comm, ← Nat.pow_add]
    rw [hout, Nat.mul_mod_right] at h
    exact h.symm
  · intro h
    rw [h]

end PrefixExchangeLemmas

/-- The values alone survive for a prefix with zero lifetimes, if its last byte happens
to lie behind the reply as well. -/
theorem obtained_eq_iff (given : DhOptIAPrefix) (behind : UInt8) :
    obtained given behind = given ↔ given.preferredLifetime = 0 ∧ given.validLifetime = 0 ∧
      given.prefixAddr.bytes.drop 15 = [behind] := by
  obtain ⟨preferred, valid, length, ⟨bs, hbs⟩⟩ := given
  have hbytes : bs.take 15 ++ [behind] = bs ↔ bs.drop 15 = [behind] := by
    nth_rewrite 2 [← List.take_append_drop 15 bs]
    rw [List.append_cancel_left_eq, eq_comm]
  simp only [obtained, DhOptIAPrefix.mk.injEq, In6Addr.mk.injEq, shifted_eq_iff, hbytes, true_and]

/-! ## Never a round trip -/

/-- **No prefix makes the round trip.** The last of the 25 bytes that are copied lies
behind the 24 that the nested option has. -/
theorem not_roundTrips (b : ServerBlocks) (m : Mem) (c : PrefixClient) (given : DhOptIAPrefix)
    (iaId : UInt32) (t : DhPktTransactionId) : ¬ RoundTrips b m c given iaId t := by
  rintro ⟨reply, call, source, hreply, hret, _, hsource, _, hinside⟩
  rw [prefixReply_eq, Option.some.injEq] at hreply
  subst hreply
  obtain ⟨call', hret', hsource', _⟩ := obtained_eq c given iaId t
  obtain rfl := hret.unique hret'
  rw [hsource', Option.some.injEq] at hsource
  -- the copy ends at offset 24 + 25, the nested option at 20 + 28
  simp only [nestedOffset, dhPktOffset, dhOptPayloadOffset, sizeofDhOptIAPD,
    sizeofDhOptIAPrefix] at hinside
  omega

def exServer : ServerBlocks where
  iaPrefix := 0x1000
  iaPd := 0x1100
  packet := 0x1200
  apart := by decide

def exClient : PrefixClient where
  mem := fun _ => 0
  buffer := 0x8000
  bufferLength := 1500
  handler := 3
  sent := .sendto 3 []
  before := exNoPrefix
  bufferAt := ⟨by decide, by decide⟩
  room := by decide

/-- `2001:db8::/64`, preferred for one hour and valid for two. -/
def exGiven : DhOptIAPrefix :=
  ⟨3600, 7200, 64, ⟨[0x20, 0x01, 0x0d, 0xb8] ++ List.replicate 12 0, by decide⟩⟩

/-- The hour becomes 235929600 seconds. -/
theorem exGiven_not_roundTrips :
    ¬ RoundTrips exServer (fun _ => 0) exClient exGiven 1 ⟨1, 2, 3⟩ := by
  rintro ⟨reply, call, _, hreply, hret, hgiven, _⟩
  rw [prefixReply_eq, Option.some.injEq] at hreply
  subst hreply
  obtain ⟨call', hret', _, hobtained⟩ := obtained_eq exClient exGiven 1 ⟨1, 2, 3⟩
  obtain rfl := hret.unique hret'
  rw [hobtained, obtained_eq_iff] at hgiven
  exact absurd hgiven.1 (by decide)

end Pdrad
