import Pdrad.DhRoundTrip
import Pdrad.DhSolicit

/-!
# The three solicit builders (`dh_packets.c`)

`dh_createSolicitPacket` and `dh_createRapidSolicitPacket` build their options and
pass them on to `dh_CreateCustomizedSolicitPacket`, which gathers its variadic
arguments behind the three mandatory options.

1. `gatherOptions_eq`: the list of pointers is filled in argument order.
2. `createSolicitPacket_eq`, `createRapidSolicitPacket_eq`: the two messages.
3. `customizedSolicitPacket_null`: without a mandatory option nothing is built.
4. `builders_describe`: the builders do what they describe, whatever extra options the
   customized one is given.
-/

namespace Pdrad

/-! ## The builders -/

/-- The loop over the variadic arguments: option `i` goes into the slot `i + 3`. -/
def gatherExtras (slots : List Nat) (i : Nat) : List Nat → List Nat
  | [] => slots
  | option :: options => gatherExtras (slots.set (i + 3) option) (i + 1) options

/-- `optionsPtrList`. What `malloc` returns is not initialised; here it is zero. -/
def gatherOptions (clientId elapsedTime iaPd : Nat) (options : List Nat) : List Nat :=
  let optionsPtrList := gatherExtras (List.replicate (options.length + 3) 0) 0 options
  ((optionsPtrList.set 0 clientId).set 1 elapsedTime).set 2 iaPd

/-- The blocks that `malloc` returns to a builder. -/
structure BuilderBlocks where
  clientId : Nat
  elapsedTime : Nat
  iaPd : Nat
  rapid : Nat
  packet : Nat

section

variable (b : BuilderBlocks) (m : Mem) (pktPtr : Option Nat) (clientId clientSize : Nat)
  (elapsedTime : UInt16) (iaId : UInt32) (transId : Option DhPktTransactionId)

def dhCreateSolicitPacket : Option SolicitPacket :=
  let client := dhCreateCustomOptPayload m b.clientId DhOptions.clientId.code (some clientId)
    clientSize
  let time := dhCreateOptionElapsedTime client.mem b.elapsedTime elapsedTime
  let iaPd := dhCreateOptionIAPD time.mem b.iaPd iaId none 0
  dhCreateCustomizedSolicitPacket iaPd.mem b.packet pktPtr (some b.clientId) (some b.elapsedTime)
    (some b.iaPd) [] transId

def dhCreateRapidSolicitPacket : Option SolicitPacket :=
  let rapidOption := dhCreateOptionRapidCommit m b.rapid
  let client := dhCreateCustomOptPayload rapidOption.mem b.clientId DhOptions.clientId.code
    (some clientId) clientSize
  let time := dhCreateOptionElapsedTime client.mem b.elapsedTime elapsedTime
  let iaPd := dhCreateOptionIAPD time.mem b.iaPd iaId none 0
  dhCreateCustomizedSolicitPacket iaPd.mem b.packet pktPtr (some b.clientId) (some b.elapsedTime)
    (some b.iaPd) [b.rapid] transId

end

/-! ## What they describe -/

/-- A Solicit from the client `clientId`: a client identifier, the elapsed time, and
an `IA_PD` whose two times are zero. -/
def solicitMessage (t : DhPktTransactionId) (clientId : List UInt8) (elapsedTime : UInt16)
    (iaId : UInt32) : List UInt8 :=
  [1, t.transactionId0, t.transactionId1, t.transactionId2] ++
    ([0, 1] ++ beBytes 2 clientId.length ++ clientId) ++
    ([0, 8] ++ [0, 2] ++ beBytes 2 elapsedTime.toNat) ++
    ([0, 25] ++ [0, 12] ++ beBytes 4 iaId.toNat ++ [0, 0, 0, 0] ++ [0, 0, 0, 0])

/-- A `RAPID_COMMIT` on the wire. -/
def rapidCommitBytes : List UInt8 := [0, 14, 0, 0]

/-- The call leaves the packet `bytes` in its block, and returns its length. -/
def Yields (r : Option SolicitPacket) (packet : Nat) (bytes : List UInt8) : Prop :=
  ∃ m, r = some ⟨m, some packet, bytes.length⟩ ∧ m.slice packet bytes.length = bytes

/-- The builders produce the messages they describe, the last of them with `k` extra
options. From `2 ^ 31` options on the `int` counter of `dh_createPacket` overflows and
there is no packet to speak of. -/
structure Describe (k : Nat) : Prop where
  solicit : ∀ b m pktPtr clientId clientSize elapsedTime iaId t, clientSize < 2 ^ 16 →
    AllApart [(clientId, clientSize), (b.clientId, clientSize + 4), (b.elapsedTime, 6),
      (b.iaPd, 16), (b.packet, clientSize + 30)] →
    Yields (dhCreateSolicitPacket b m pktPtr clientId clientSize elapsedTime iaId (some t)) b.packet
      (solicitMessage t (m.slice clientId clientSize) elapsedTime iaId)
  rapid : ∀ b m pktPtr clientId clientSize elapsedTime iaId t, clientSize < 2 ^ 16 →
    AllApart [(clientId, clientSize), (b.clientId, clientSize + 4), (b.elapsedTime, 6),
      (b.iaPd, 16), (b.rapid, 4), (b.packet, clientSize + 34)] →
    Yields (dhCreateRapidSolicitPacket b m pktPtr clientId clientSize elapsedTime iaId (some t))
      b.packet (solicitMessage t (m.slice clientId clientSize) elapsedTime iaId ++ rapidCommitBytes)
  customized : ∀ m packet pktPtr clientId elapsedTime iaPd t options opts, options.length = k →
    Beside m packet (packetBytes .solicit t opts).length
      (clientId :: elapsedTime :: iaPd :: options) opts →
    (k + 3 < 2 ^ 31 → (dhCreateCustomizedSolicitPacket m packet pktPtr (some clientId)
      (some elapsedTime) (some iaPd) options (some t)).isSome) ∧
    ∀ r, dhCreateCustomizedSolicitPacket m packet pktPtr (some clientId) (some elapsedTime)
        (some iaPd) options (some t) = some r →
      Yields (some r) packet (packetBytes .solicit t opts)
  null : ∀ m packet pktPtr clientId elapsedTime iaPd t options, options.length = k →
    clientId = none ∨ elapsedTime = none ∨ iaPd = none →
    dhCreateCustomizedSolicitPacket m packet pktPtr clientId elapsedTime iaPd options t =
      some ⟨m, pktPtr, sizeMax⟩

namespace SolicitBuildersLemmas

/-- The slots from `i + 3` on get the options, and the ones before keep theirs. -/
theorem gatherExtras_eq (front back : List Nat) (options : List Nat) {i : Nat}
    (hfront : front.length = i + 3) (hback : back.length = options.length) :
    gatherExtras (front ++ back) i options = front ++ options := by
  induction options generalizing front back i with
  | nil =>
    obtain rfl := List.length_eq_zero_iff.mp hback
    rfl
  | cons option options ih =>
    cases back with
    | nil => simp at hback
    | cons slot back =>
      have hset : (front ++ slot :: back).set (i + 3) option = (front ++ [option]) ++ back := by
        rw [← hfront, List.set_append_right _ _ (Nat.le_refl _), Nat.sub_self, List.set_cons_zero,
          List.append_assoc, List.singleton_append]
      rw [gatherExtras, hset, ih (front ++ [option]) back (by simp [hfront]) (by simpa using hback),
        List.append_assoc, List.singleton_append]

end SolicitBuildersLemmas

open SolicitBuildersLemmas

/-- The pointers are the three mandatory ones and then the variadic ones. -/
theorem gatherOptions_eq (clientId elapsedTime iaPd : Nat) (options : List Nat) :
    gatherOptions clientId elapsedTime iaPd options =
      clientId :: elapsedTime :: iaPd :: options := by
  have hslots : List.replicate (options.length + 3) 0 =
      [0, 0, 0] ++ List.replicate options.length 0 := by
    rw [Nat.add_comm, List.replicate_add]
    rfl
  have hextras : gatherExtras ([0, 0, 0] ++ List.replicate options.length 0) 0 options =
      [0, 0, 0] ++ options :=
    gatherExtras_eq [0, 0, 0] _ options rfl List.length_replicate
  rw [gatherOptions, hslots, hextras]
  rfl

/-- What `dh_CreateCustomizedSolicitPacket` passes on is the list it has gathered. -/
theorem dhCreateCustomizedSolicitPacket_gather (m : Mem) (packet : Nat) (pktPtr : Option Nat)
    (clientId elapsedTime iaPd : Nat) (options : List Nat) (t : DhPktTransactionId) :
    dhCreateCustomizedSolicitPacket m packet pktPtr (some clientId) (some elapsedTime) (some iaPd)
        options (some t) =
      (dhCreatePacket m packet .solicit t (gatherOptions clientId elapsedTime iaPd options)).map
        fun r => ⟨r.1, some packet, r.2⟩ := by
  rw [gatherOptions_eq]
  rfl

/-! ## The messages -/

namespace SolicitBuildersLemmas

open DhSolicitLemmas

theorem yields_customized {m : Mem} {packet : Nat} (pktPtr : Option Nat)
    {clientId elapsedTime iaPd : Nat} {options : List Nat} {opts : List DhOption}
    (t : DhPktTransactionId)
    (hbeside : Beside m packet (packetBytes .solicit t opts).length
      (clientId :: elapsedTime :: iaPd :: options) opts) (hcount : opts.length < 2 ^ 31) :
    Yields (dhCreateCustomizedSolicitPacket m packet pktPtr (some clientId) (some elapsedTime)
      (some iaPd) options (some t)) packet (packetBytes .solicit t opts) := by
  refine ⟨_, ?_, Mem.slice_put_same m packet (packetBytes .solicit t opts)⟩
  simp only [dhCreateCustomizedSolicitPacket, dhCreatePacket_eq .solicit t hbeside hcount,
    Option.map_some]

variable (b : BuilderBlocks) (m : Mem) (clientId : Nat) (elapsedTime : UInt16) (iaId : UInt32)
  (t : DhPktTransactionId) {clientSize : Nat}

/-- The three mandatory options, each with its block. -/
def mandatoryBlocks (hfits : clientSize < 2 ^ 16) : List (Nat × DhOption) :=
  [(b.clientId, customOption m DhOptions.clientId.code clientId hfits),
    (b.elapsedTime, Pdrad.elapsedTime elapsedTime), (b.iaPd, emptyIAPD iaId)]

theorem packetBytes_mandatory (hfits : clientSize < 2 ^ 16) :
    packetBytes .solicit t ((mandatoryBlocks b m clientId elapsedTime iaId hfits).map Prod.snd) =
      solicitMessage t (m.slice clientId clientSize) elapsedTime iaId := by
  have hclient : beBytes 2 DhOptions.clientId.code.toNat = [0, 1] := by decide
  have htime : beBytes 2 DhOptions.elapsedTime.code.toNat = [0, 8] := by decide
  have hiaPd : beBytes 2 DhOptions.iaPd.code.toNat = [0, 25] := by decide
  have htwo : beBytes 2 2 = [0, 2] := by decide
  have htwelve : beBytes 2 12 = [0, 12] := by decide
  simp only [packetBytes, mandatoryBlocks, customOption, Pdrad.elapsedTime, emptyIAPD,
    DhOption.wire, List.map_cons, List.map_nil, List.flatMap_cons, List.flatMap_nil,
    List.length_append, length_beBytes, List.length_cons, List.length_nil, hclient, htime, hiaPd,
    htwo, htwelve, Nat.reduceAdd]
  simp only [solicitMessage, DhPktTransactionId.bytes, List.append_assoc, List.append_nil]
  rfl

theorem packetBytes_rapid (opts : List DhOption) :
    packetBytes .solicit t (opts ++ [rapidCommit]) =
      packetBytes .solicit t opts ++ rapidCommitBytes := by
  rw [packetBytes, packetBytes, List.flatMap_append, List.cons_append, List.append_assoc]
  rfl

theorem length_solicitMessage (data : List UInt8) :
    (solicitMessage t data elapsedTime iaId).length = data.length + 30 := by
  simp only [solicitMessage, List.length_append, List.length_cons, List.length_nil, length_beBytes]
  omega

theorem sizes_mandatory (hfits : clientSize < 2 ^ 16) :
    (mandatoryBlocks b m clientId elapsedTime iaId hfits).map (fun x => (x.1, x.2.size)) =
      [(b.clientId, clientSize + 4), (b.elapsedTime, 6), (b.iaPd, 16)] := by
  have hclient : (customOption m DhOptions.clientId.code clientId hfits).size = clientSize + 4 := by
    rw [DhOption.size, customOption, Mem.length_slice]
    rfl
  rw [mandatoryBlocks, List.map_cons, hclient]
  rfl

/-- Both builders put the three mandatory options into their blocks. -/
theorem putMandatory (hfits : clientSize < 2 ^ 16)
    (hapart : Apart b.clientId 4 clientId clientSize) :
    (dhCreateOptionIAPD (dhCreateOptionElapsedTime (dhCreateCustomOptPayload m b.clientId
      DhOptions.clientId.code (some clientId) clientSize).mem b.elapsedTime elapsedTime).mem
      b.iaPd iaId none 0).mem =
      putOptions m (mandatoryBlocks b m clientId elapsedTime iaId hfits) := by
  have hsrc : ∀ src ∈ some clientId, Apart b.clientId 4 src clientSize := by
    rintro _ ⟨⟩
    exact hapart
  rw [dhCreateCustomOptPayload_eq _ hfits hsrc, dhCreateOptionElapsedTime_eq,
    dhCreateOptionIAPD_eq]
  rfl

/-- A packet built from the mandatory options and `extras`, all of them just put into
`blocks`. -/
theorem yields_mandatory {pktPtr : Option Nat} {hfits : clientSize < 2 ^ 16}
    {bytes : List UInt8} (m' : Mem) (blocks extras : List (Nat × DhOption))
    (hbytes : packetBytes .solicit t
      ((mandatoryBlocks b m clientId elapsedTime iaId hfits ++ extras).map Prod.snd) = bytes)
    (hapart : AllApart (blocks.map (fun x => (x.1, x.2.size)) ++ [(b.packet, bytes.length)]))
    (hsent : mandatoryBlocks b m clientId elapsedTime iaId hfits ++ extras ⊆ blocks)
    (hcount : 3 + extras.length < 2 ^ 31) :
    Yields (dhCreateCustomizedSolicitPacket (putOptions m' blocks) b.packet pktPtr
      (some b.clientId) (some b.elapsedTime) (some b.iaPd) (extras.map Prod.fst) (some t)) b.packet
      bytes := by
  subst hbytes
  have hlength : ((mandatoryBlocks b m clientId elapsedTime iaId hfits ++ extras).map
      Prod.snd).length < 2 ^ 31 := by
    rwa [List.length_map, List.length_append]
  exact yields_customized pktPtr t (beside_putOptions hapart hsent) hlength

end SolicitBuildersLemmas

section

variable (b : BuilderBlocks) (m : Mem) (pktPtr : Option Nat) (clientId : Nat) {clientSize : Nat}
  (elapsedTime : UInt16) (iaId : UInt32) (t : DhPktTransactionId)

/-- `dh_createSolicitPacket` yields the message with the three mandatory options. -/
theorem createSolicitPacket_eq (hfits : clientSize < 2 ^ 16)
    (hapart : AllApart [(clientId, clientSize), (b.clientId, clientSize + 4), (b.elapsedTime, 6),
      (b.iaPd, 16), (b.packet, clientSize + 30)]) :
    Yields (dhCreateSolicitPacket b m pktPtr clientId clientSize elapsedTime iaId (some t)) b.packet
      (solicitMessage t (m.slice clientId clientSize) elapsedTime iaId) := by
  obtain ⟨hsrc, hblocks⟩ := List.pairwise_cons.mp hapart
  have hclient : Apart b.clientId 4 clientId clientSize :=
    (hsrc _ List.mem_cons_self).symm.front (Nat.le_add_left 4 clientSize)
  have hlength : (solicitMessage t (m.slice clientId clientSize) elapsedTime iaId).length =
      clientSize + 30 := by
    rw [length_solicitMessage, Mem.length_slice]
  have hbytes := packetBytes_mandatory b m clientId elapsedTime iaId t hfits
  simp only [dhCreateSolicitPacket, putMandatory b m clientId elapsedTime iaId hfits hclient]
  refine yields_mandatory b m clientId elapsedTime iaId t m _ [] hbytes ?_ (List.Subset.refl _)
    (by decide)
  rw [hlength, sizes_mandatory]
  exact hblocks

/-- `dh_createRapidSolicitPacket` on the same arguments yields the same message and an
empty `RAPID_COMMIT` behind it. -/
theorem createRapidSolicitPacket_eq (hfits : clientSize < 2 ^ 16)
    (hapart : AllApart [(clientId, clientSize), (b.clientId, clientSize + 4), (b.elapsedTime, 6),
      (b.iaPd, 16), (b.rapid, 4), (b.packet, clientSize + 34)]) :
    Yields (dhCreateRapidSolicitPacket b m pktPtr clientId clientSize elapsedTime iaId (some t))
      b.packet (solicitMessage t (m.slice clientId clientSize) elapsedTime iaId ++
        rapidCommitBytes) := by
  obtain ⟨hsrc, hblocks⟩ := List.pairwise_cons.mp hapart
  have hclient : Apart b.clientId 4 clientId clientSize :=
    (hsrc _ List.mem_cons_self).symm.front (Nat.le_add_left 4 clientSize)
  have hrapid : (m.put b.rapid rapidCommit.host).slice clientId clientSize =
      m.slice clientId clientSize := by
    refine Mem.slice_put_of_apart ?_
    rw [DhOption.length_host]
    exact (hsrc (b.rapid, 4) (by simp)).symm
  have hlength : (solicitMessage t (m.slice clientId clientSize) elapsedTime iaId ++
      rapidCommitBytes).length = clientSize + 34 := by
    rw [List.length_append, length_solicitMessage, Mem.length_slice]
    rfl
  have hbytes : packetBytes .solicit t ((mandatoryBlocks b (m.put b.rapid rapidCommit.host)
      clientId elapsedTime iaId hfits ++ [(b.rapid, rapidCommit)]).map Prod.snd) =
      solicitMessage t (m.slice clientId clientSize) elapsedTime iaId ++ rapidCommitBytes := by
    rw [List.map_append, List.map_cons, List.map_nil, packetBytes_rapid, packetBytes_mandatory,
      hrapid]
  simp only [dhCreateRapidSolicitPacket, dhCreateOptionRapidCommit_eq,
    putMandatory b _ clientId elapsedTime iaId hfits hclient]
  -- the rapid option is the first to be built and the last to be sent
  refine yields_mandatory b (m.put b.rapid rapidCommit.host) clientId elapsedTime iaId t m
    ([(b.rapid, rapidCommit)] ++ mandatoryBlocks b _ clientId elapsedTime iaId hfits)
    [(b.rapid, rapidCommit)] hbytes ?_ List.perm_append_comm.subset (by simp)
  have hmoved : ([(b.clientId, clientSize + 4), (b.elapsedTime, 6), (b.iaPd, 16)] ++
      [(b.rapid, 4)]).Perm ([(b.rapid, 4)] ++ [(b.clientId, clientSize + 4), (b.elapsedTime, 6),
        (b.iaPd, 16)]) := List.perm_append_comm
  rw [hlength, List.map_append, sizes_mandatory]
  exact AllApart.perm hblocks (hmoved.append_right [(b.packet, clientSize + 34)])

end

/-- Without one of the mandatory options nothing is built. -/
theorem customizedSolicitPacket_null (m : Mem) (packet : Nat) (pktPtr : Option Nat)
    {clientId elapsedTime iaPd : Option Nat} (options : List Nat) (t : Option DhPktTransactionId)
    (hnull : clientId = none ∨ elapsedTime = none ∨ iaPd = none) :
    dhCreateCustomizedSolicitPacket m packet pktPtr clientId elapsedTime iaPd options t =
      some ⟨m, pktPtr, sizeMax⟩ := by
  rcases hnull with rfl | rfl | rfl
  · rfl
  · cases clientId <;> rfl
  · cases clientId <;> cases elapsedTime <;> rfl

/-- The customized builder returns for fewer than `2 ^ 31` options. -/
theorem customizedSolicitPacket_isSome_iff (m : Mem) (packet : Nat) (pktPtr : Option Nat)
    (clientId elapsedTime iaPd : Nat) (options : List Nat) (t : DhPktTransactionId) :
    (dhCreateCustomizedSolicitPacket m packet pktPtr (some clientId) (some elapsedTime) (some iaPd)
      options (some t)).isSome ↔ options.length + 3 < 2 ^ 31 := by
  rw [dhCreateCustomizedSolicitPacket_gather, Option.isSome_map,
    DhRoundTripLemmas.dhCreatePacket_isSome_iff, gatherOptions_eq]
  rfl

/-- **The solicit builders do what they describe.** -/
theorem builders_describe (k : Nat) : Describe k := by
  refine ⟨?_, ?_, ?_, ?_⟩
  · intro b m pktPtr clientId clientSize elapsedTime iaId t hfits hapart
    exact createSolicitPacket_eq b m pktPtr clientId elapsedTime iaId t hfits hapart
  · intro b m pktPtr clientId clientSize elapsedTime iaId t hfits hapart
    exact createRapidSolicitPacket_eq b m pktPtr clientId elapsedTime iaId t hfits hapart
  · intro m packet pktPtr clientId elapsedTime iaPd t options opts hcount hbeside
    rw [← hcount, customizedSolicitPacket_isSome_iff]
    refine ⟨id, fun r hr => ?_⟩
    have hfew := (customizedSolicitPacket_isSome_iff m packet pktPtr clientId elapsedTime iaPd options
      t).mp (Option.isSome_of_eq_some hr)
    rw [← hr]
    refine yields_customized pktPtr t hbeside ?_
    rw [← List.Forall₂.length_eq hbeside]
    exact hfew
  · intro m packet pktPtr clientId elapsedTime iaPd t options _ hnull
    exact customizedSolicitPacket_null m packet pktPtr options t hnull

/-- A Solicit with two options more, of which the first asks for the option 23. -/
def exExtras : List (Nat × DhOption) :=
  [(0x1000, ⟨1, [0, 3, 1, 9], by decide⟩), (0x2000, elapsedTime 258), (0x3000, emptyIAPD 7),
    (0x4000, ⟨6, [0, 23], by decide⟩), (0x5000, rapidCommit)]

/-- The extras come in argument order behind the three mandatory options. -/
theorem exExtras_described : Yields (dhCreateCustomizedSolicitPacket
    (putOptions (fun _ => 0) exExtras) 0x6000 none (some 0x1000) (some 0x2000) (some 0x3000)
    [0x4000, 0x5000] (some ⟨1, 2, 3⟩)) 0x6000
    ([1, 1, 2, 3] ++ [0, 1, 0, 4, 0, 3, 1, 9] ++ [0, 8, 0, 2, 1, 2] ++
      [0, 25, 0, 12, 0, 0, 0, 7, 0, 0, 0, 0, 0, 0, 0, 0] ++ [0, 6, 0, 2, 0, 23] ++ [0, 14, 0, 0]) := by
  have hbeside : Beside (putOptions (fun _ => 0) exExtras) 0x6000
      (packetBytes .solicit ⟨1, 2, 3⟩ (exExtras.map Prod.snd)).length
      [0x1000, 0x2000, 0x3000, 0x4000, 0x5000] (exExtras.map Prod.snd) :=
    DhSolicitLemmas.beside_putOptions (by decide) (List.Subset.refl exExtras)
  obtain ⟨hbuilt, hmessage⟩ := (builders_describe 2).customized _ 0x6000 none 0x1000 0x2000 0x3000
    ⟨1, 2, 3⟩ [0x4000, 0x5000] _ rfl hbeside
  obtain ⟨r, hr⟩ := Option.isSome_iff_exists.mp (hbuilt (by decide))
  rw [hr]
  exact hmessage r hr

end Pdrad
