import Pdrad.DhWriter

/-!
# The Solicit that `requestAndReceiveDhcp` builds

Four options are built in blocks of their own and then copied into a packet.

1. `dhCreateOption*_eq`: each constructor is one `put` of an option in host
   order, of the size it allocated.
2. `beside_putOptions`: options put into blocks that are apart can be sent in any
   selection.
3. `createSolicit_eq`: the packet is a `SOLICIT` with the drawn transaction id
   and the four options; without a transaction id there is no packet.
-/

namespace Pdrad

/-! ## The options -/

/-- A client identifier with an enterprise number. -/
def clientIdentifierEn (enterpriseNumber : UInt32) (id : List UInt8)
    (fits : 2 + 4 + id.length < 2 ^ 16) : DhOption where
  code := DhOptions.clientId.code
  data := beBytes 2 duIdEn.toNat ++ beBytes 4 enterpriseNumber.toNat ++ id
  fits := by simpa only [List.length_append, length_beBytes] using fits

/-- An option whose data are the `n` bytes at `src`. -/
def customOption (m : Mem) (code : UInt16) (src : Nat) {n : Nat} (fits : n < 2 ^ 16) :
    DhOption where
  code := code
  data := m.slice src n
  fits := by rwa [Mem.length_slice]

def elapsedTime (time : UInt16) : DhOption where
  code := DhOptions.elapsedTime.code
  data := beBytes 2 time.toNat
  fits := by simp

/-- An `IA_PD` without options of its own. -/
def emptyIAPD (id : UInt32) : DhOption where
  code := DhOptions.iaPd.code
  data := beBytes 4 id.toNat ++ [0, 0, 0, 0] ++ [0, 0, 0, 0]
  fits := by simp

/-- An `IA_PD` with options of its own. -/
def nestingIAPD (id : UInt32) (options : List UInt8) (fits : 12 + options.length < 2 ^ 16) :
    DhOption where
  code := DhOptions.iaPd.code
  data := beBytes 4 id.toNat ++ [0, 0, 0, 0] ++ [0, 0, 0, 0] ++ options
  fits := by
    rw [List.length_append]
    simpa using fits

def rapidCommit : DhOption where
  code := DhOptions.rapidCommit.code
  data := []
  fits := Nat.two_pow_pos 16

/-! ## The constructors -/

theorem dhCreateOptionElapsedTime_eq (m : Mem) (payload : Nat) (time : UInt16) :
    dhCreateOptionElapsedTime m payload time =
      ⟨m.put payload (elapsedTime time).host, (elapsedTime time).size⟩ := by
  have hbytes : (elapsedTime time).host =
      leBytes 2 DhOptions.elapsedTime.code.toNat ++ leBytes 2 (2 : UInt16).toNat ++
        leBytes 2 (htobe16 time).toNat := by
    rw [leBytes_bswap16]
    rfl
  rw [hbytes, Mem.put_append, Mem.put_append]
  rfl

theorem dhCreateOptionRapidCommit_eq (m : Mem) (payload : Nat) :
    dhCreateOptionRapidCommit m payload = ⟨m.put payload rapidCommit.host, rapidCommit.size⟩ := by
  have hbytes : rapidCommit.host =
      leBytes 2 DhOptions.rapidCommit.code.toNat ++ leBytes 2 (0 : UInt16).toNat := by
    decide
  rw [hbytes, Mem.put_append]
  rfl

/-- A payload that the length field can count. Without data to copy, the data is
what the block happens to hold. -/
theorem dhCreateCustomOptPayload_eq {m : Mem} {payload n : Nat} (code : UInt16)
    {optionData : Option Nat} (hfits : n < 2 ^ 16)
    (hapart : ∀ src ∈ optionData, Apart payload 4 src n) :
    dhCreateCustomOptPayload m payload code optionData n =
      ⟨m.put payload (customOption m code
        (optionData.getD (DhOptPayload.optionData payload)) hfits).host, n + 4⟩ := by
  have hcount : (UInt16.ofNat n).toNat = n := by
    rw [UInt16.toNat_ofNat']
    exact Nat.mod_eq_of_lt hfits
  have hheader (m : Mem) : (m.store16 payload code).store16 (payload + 2) (UInt16.ofNat n) =
      m.put payload (leBytes 2 code.toNat ++ leBytes 2 n) := by
    rw [Mem.put_append, length_leBytes, ← hcount, UInt16.ofNat_toNat]
    rfl
  have hsize : sizeAdd n dhOptPayloadOffset = n + 4 :=
    sizeAdd_of_lt (Nat.lt_trans (Nat.add_lt_add_right hfits 4) (by decide))
  have hbytes (src : Nat) : m.put payload (customOption m code src hfits).host =
      (m.put payload (leBytes 2 code.toNat ++ leBytes 2 n)).put (payload + 4) (m.slice src n) := by
    rw [DhOption.host, customOption, Mem.length_slice, Mem.put_append]
    simp
  have hkeep (a : Nat) (ha : Apart payload 4 a n) :
      (m.put payload (leBytes 2 code.toNat ++ leBytes 2 n)).slice a n = m.slice a n :=
    Mem.slice_put_of_apart (by simpa using ha)
  simp only [dhCreateCustomOptPayload, hsize, hheader, hbytes]
  cases optionData with
  | none =>
    have hblock := Mem.put_slice_self (m.put payload (leBytes 2 code.toNat ++ leBytes 2 n))
      (payload + 4) n
    rw [hkeep (payload + 4) (.inl (Nat.le_refl _))] at hblock
    exact congrArg (fun m => Built.mk m (n + 4)) hblock.symm
  | some src =>
    have hcopy := hkeep src (hapart src rfl)
    exact congrArg (fun data => Built.mk ((m.put payload (leBytes 2 code.toNat ++
      leBytes 2 n)).put (payload + 4) data) (n + 4)) hcopy

namespace DhSolicitLemmas

/-- The three fields of an `IA_PD`. -/
theorem store_fields (m : Mem) (payload : Nat) (id : UInt32) :
    ((m.store32 (payload + 4) (htobe32 id)).store32 (payload + 4 + 4) 0).store32
      (payload + 4 + 8) 0 = m.put (payload + 4) (emptyIAPD id).data := by
  have hdata : (emptyIAPD id).data =
      leBytes 4 (htobe32 id).toNat ++ leBytes 4 (0 : UInt32).toNat ++
        leBytes 4 (0 : UInt32).toNat := by
    rw [leBytes_bswap32]
    rfl
  rw [hdata, Mem.put_append, Mem.put_append]
  rfl

/-- Storing the fields of an option first, then its code, what it nests, and its
length, is storing it from front to back. -/
theorem put_nesting (m : Mem) (p : Nat) {code length fields : List UInt8} (options : List UInt8)
    (hcode : code.length = 2) (hlength : length.length = 2) (hfields : fields.length = 12) :
    (((m.put (p + 4) fields).put p code).put (p + 4 + 12) options).put (p + 2) length =
      m.put p (code ++ length ++ (fields ++ options)) := by
  calc (((m.put (p + 4) fields).put p code).put (p + 4 + 12) options).put (p + 2) length
      = (((m.put p code).put (p + 4) fields).put (p + 4 + 12) options).put (p + 2) length := by
        rw [Mem.put_comm (m := m) (.inr (by omega))]
    _ = ((m.put p code).put (p + 4) (fields ++ options)).put (p + 2) length := by
        rw [Mem.put_append _ (p + 4), hfields]
    _ = ((m.put p code).put (p + 2) length).put (p + 4) (fields ++ options) :=
        Mem.put_comm (.inr (by omega))
    _ = m.put p (code ++ length ++ (fields ++ options)) := by
        rw [Mem.put_append _ p, Mem.put_append _ p, List.length_append, hcode, hlength]

end DhSolicitLemmas

open DhSolicitLemmas

/-- The data fields are stored first and the header after them. -/
theorem dhCreateOptionIAPD_eq (m : Mem) (payload : Nat) (id : UInt32) :
    dhCreateOptionIAPD m payload id none 0 =
      ⟨m.put payload (emptyIAPD id).host, (emptyIAPD id).size⟩ := by
  have hbytes : (emptyIAPD id).host = leBytes 2 DhOptions.iaPd.code.toNat ++
      leBytes 2 (UInt16.ofNat sizeofDhOptIAPD).toNat ++ ((emptyIAPD id).data ++ []) := by
    rw [List.append_nil]
    rfl
  rw [hbytes, ← put_nesting m payload [] (by simp) (by simp) (by simp [emptyIAPD]), Mem.put_nil,
    ← store_fields]
  rfl

/-- The same with options to nest, which are copied before the length is stored. -/
theorem dhCreateOptionIAPD_nesting {m : Mem} {payload src n : Nat} (id : UInt32)
    (hfits : 12 + n < 2 ^ 16) (hapart : Apart payload 16 src n) :
    (dhCreateOptionIAPD m payload id (some src) n).mem =
      m.put payload (nestingIAPD id (m.slice src n) (by rwa [Mem.length_slice])).host := by
  have hlength : (emptyIAPD id).data.length = 12 := by simp [emptyIAPD]
  have hcount : leBytes 2 (UInt16.ofNat (12 + n)).toNat = leBytes 2 (12 + n) := by
    rw [UInt16.toNat_ofNat']
    exact congrArg (leBytes 2) (Nat.mod_eq_of_lt hfits)
  have hkeep : ((m.put (payload + 4) (emptyIAPD id).data).put payload
      (leBytes 2 DhOptions.iaPd.code.toNat)).slice src n = m.slice src n := by
    rw [Mem.slice_put_of_apart (hapart.front (by simp)),
      Mem.slice_put_of_apart (hapart.inside (by simp) (by rw [hlength]))]
  have hbytes : (nestingIAPD id (m.slice src n) (by rwa [Mem.length_slice])).host =
      leBytes 2 DhOptions.iaPd.code.toNat ++ leBytes 2 (12 + n) ++
        ((emptyIAPD id).data ++ m.slice src n) := by
    simp only [nestingIAPD, emptyIAPD, DhOption.host, List.length_append, length_beBytes,
      Mem.length_slice, List.length_cons, List.length_nil]
  rw [hbytes, ← put_nesting m payload (m.slice src n) (by simp) (by simp) hlength, ← hkeep,
    ← store_fields, ← hcount]
  rfl

theorem dhCreateOptionClientIdentifierEn_eq {m : Mem} {payload id idLength : Nat}
    (enterpriseNumber : UInt32) (hpos : 0 < idLength) (hfits : 2 + 4 + idLength < 2 ^ 16)
    (hapart : Apart payload (4 + 2 + 4) id idLength) :
    dhCreateOptionClientIdentifierEn m payload enterpriseNumber id idLength =
      some ⟨m.put payload (clientIdentifierEn enterpriseNumber (m.slice id idLength)
        (by rwa [Mem.length_slice])).host, 4 + 2 + 4 + idLength⟩ := by
  have hbytes : (clientIdentifierEn enterpriseNumber (m.slice id idLength)
      (by rwa [Mem.length_slice])).host =
      leBytes 2 DhOptions.clientId.code.toNat ++
        leBytes 2 (UInt16.ofNat (2 + 4 + idLength)).toNat ++ leBytes 2 (htobe16 duIdEn).toNat ++
        leBytes 4 (htobe32 enterpriseNumber).toNat ++ m.slice id idLength := by
    have hcount : (UInt16.ofNat (2 + 4 + idLength)).toNat = 2 + 4 + idLength := by
      rw [UInt16.toNat_ofNat']
      exact Nat.mod_eq_of_lt hfits
    rw [hcount, leBytes_bswap16, leBytes_bswap32]
    simp only [clientIdentifierEn, DhOption.host, List.length_append, length_beBytes,
      Mem.length_slice, List.append_assoc, Nat.add_assoc]
  have hkeep : ∀ bs : List UInt8, bs.length = 4 + 2 + 4 →
      (m.put payload bs).slice id idLength = m.slice id idLength :=
    fun bs hbs => Mem.slice_put_of_apart (by rwa [hbs])
  have hheader := hkeep (leBytes 2 DhOptions.clientId.code.toNat ++
    leBytes 2 (UInt16.ofNat (2 + 4 + idLength)).toNat ++ leBytes 2 (htobe16 duIdEn).toNat ++
    leBytes 4 (htobe32 enterpriseNumber).toNat) (by simp)
  rw [hbytes, Mem.put_append, ← hheader]
  simp only [Mem.put_append, List.length_append, length_leBytes]
  have hsize : sizeAdd (dhOptPayloadOffset + 2 + 4) idLength = 4 + 2 + 4 + idLength := by
    refine sizeAdd_of_lt ?_
    rw [dhOptPayloadOffset]
    omega
  rw [dhCreateOptionClientIdentifierEn, if_neg (Nat.not_le.mpr hpos), hsize]
  rfl

/-! ## The packet -/

/-- `uint8_t id[]`. -/
def solicitId : List UInt8 := [0x0d, 0x00, 0x07, 0x21]

/-- Where the array `id`, the four option blocks and the packet lie. They are
apart from each other, and the packet lies inside the address space. -/
structure SolicitBlocks where
  id : Nat
  clientId : Nat
  esTime : Nat
  iaPd : Nat
  rapid : Nat
  packet : Nat
  apart : [(id, 4), (clientId, 14), (esTime, 6), (iaPd, 16), (rapid, 4), (packet, 44)].Pairwise
    fun x y => Apart x.1 x.2 y.1 y.2
  inside : packet + 44 < 2 ^ 64

/-- The first part of `requestAndReceiveDhcp`, up to the call of
`dh_CreateCustomizedSolicitPacket`. `none` where a constructor returns `NULL` and
the process exits. -/
def createSolicit (b : SolicitBlocks) (m : Mem) (transId : Option DhPktTransactionId) :
    Option SolicitPacket :=
  let m := m.put b.id solicitId
  match dhCreateOptionClientIdentifierEn m b.clientId 4107 b.id 4 with
  | none => none
  | some clientId =>
    let esTime := dhCreateOptionElapsedTime clientId.mem b.esTime 0
    let iaPd := dhCreateOptionIAPD esTime.mem b.iaPd 0xd0007021 none 0
    let rapid := dhCreateOptionRapidCommit iaPd.mem b.rapid
    dhCreateCustomizedSolicitPacket rapid.mem b.packet none (some b.clientId) (some b.esTime)
      (some b.iaPd) [b.rapid] transId

/-- The options of the Solicit, in the order in which they are sent. -/
def solicitOptions : List DhOption :=
  [clientIdentifierEn 4107 solicitId (by decide), elapsedTime 0, emptyIAPD 0xd0007021, rapidCommit]

/-- Put options, in host order, into blocks of their own. -/
def putOptions (m : Mem) (blocks : List (Nat × DhOption)) : Mem :=
  blocks.foldl (fun m b => m.put b.1 b.2.host) m

namespace DhSolicitLemmas

/-- An option just written is there. -/
theorem at_put_host (m : Mem) (p : Nat) (o : DhOption) : o.At (m.put p o.host) p := by
  rw [DhOption.at_iff, ← DhOption.length_host, Mem.slice_put_same]

theorem putOptions_eq (m : Mem) (blocks : List (Nat × DhOption)) :
    putOptions m blocks = m.putBlocks (blocks.map fun b => (b.1, b.2.host)) := by
  rw [putOptions, Mem.putBlocks, List.foldl_map]

/-- The packet builder can be given any list of options that have been put into blocks
apart from each other and from the packet. -/
theorem beside_putOptions {m : Mem} {packet n : Nat} {blocks sent : List (Nat × DhOption)}
    (hapart : AllApart (blocks.map (fun b => (b.1, b.2.size)) ++ [(packet, n)]))
    (hsent : sent ⊆ blocks) :
    Beside (putOptions m blocks) packet n (sent.map Prod.fst) (sent.map Prod.snd) := by
  obtain ⟨hblocks, _, hpacket⟩ := List.pairwise_append.mp hapart
  have hsizes : AllApart ((blocks.map fun b => (b.1, b.2.host)).map fun b => (b.1, b.2.length)) := by
    simp only [List.map_map, Function.comp_def, DhOption.length_host]
    exact hblocks
  unfold Beside
  rw [List.forall₂_map_left_iff, List.forall₂_map_right_iff, List.forall₂_same]
  intro b hb
  have hmem := List.mem_map_of_mem (f := fun b => (b.1, b.2.host)) (hsent hb)
  have hheld := Mem.slice_putBlocks_of_mem (m := m) hsizes _ hmem
  refine ⟨?_, (hpacket _ (List.mem_map_of_mem (hsent hb)) _ List.mem_cons_self).symm⟩
  rw [DhOption.at_iff, putOptions_eq, ← DhOption.length_host]
  exact hheld

end DhSolicitLemmas

open DhSolicitLemmas DhWriterLemmas

/-- The four options, each with its block. -/
def SolicitBlocks.options (b : SolicitBlocks) : List (Nat × DhOption) :=
  [(b.clientId, clientIdentifierEn 4107 solicitId (by decide)), (b.esTime, elapsedTime 0),
    (b.iaPd, emptyIAPD 0xd0007021), (b.rapid, rapidCommit)]

/-- The four blocks hold the four options when the packet is put together. -/
theorem solicitOptions_beside (b : SolicitBlocks) (m : Mem) :
    Beside (putOptions m b.options) b.packet 44 [b.clientId, b.esTime, b.iaPd, b.rapid]
      solicitOptions := by
  have hapart : AllApart (b.options.map (fun x => (x.1, x.2.size)) ++ [(b.packet, 44)]) :=
    (List.pairwise_cons.mp b.apart).2
  exact beside_putOptions hapart (List.Subset.refl b.options)

/-- The client identifier is built from the array `id`. -/
theorem clientId_eq (b : SolicitBlocks) (m : Mem) :
    dhCreateOptionClientIdentifierEn (m.put b.id solicitId) b.clientId 4107 b.id 4 =
      some ⟨(m.put b.id solicitId).put b.clientId
        (clientIdentifierEn 4107 solicitId (by decide)).host, 14⟩ := by
  have hid : (m.put b.id solicitId).slice b.id 4 = solicitId := Mem.slice_put_same m b.id solicitId
  have hblock : Apart b.id 4 b.clientId 14 :=
    (List.pairwise_cons.mp b.apart).1 (b.clientId, 14) (by simp)
  have hapart : Apart b.clientId (4 + 2 + 4) b.id 4 := hblock.symm.front (by decide)
  rw [dhCreateOptionClientIdentifierEn_eq 4107 (by decide) (by decide) hapart]
  simp only [hid]

/-- With a transaction id drawn, the packet is the Solicit it is meant to be. -/
theorem createSolicit_eq (b : SolicitBlocks) (m : Mem) (transId : DhPktTransactionId) :
    ∃ m', createSolicit b m (some transId) = some ⟨m', some b.packet, 44⟩ ∧
      m'.slice b.packet 44 = packetBytes .solicit transId solicitOptions := by
  have hlength : (packetBytes .solicit transId solicitOptions).length = 44 := by
    rw [length_packetBytes]
    decide
  have hbeside := solicitOptions_beside b (m.put b.id solicitId)
  simp only [putOptions, SolicitBlocks.options, List.foldl_cons, List.foldl_nil] at hbeside
  have hpacket := dhCreatePacket_eq .solicit transId (hlength.symm ▸ hbeside) (by decide)
  rw [hlength] at hpacket
  simp only [createSolicit, clientId_eq, dhCreateOptionElapsedTime_eq, dhCreateOptionIAPD_eq,
    dhCreateOptionRapidCommit_eq, dhCreateCustomizedSolicitPacket, hpacket, Option.map_some]
  exact ⟨_, rfl, Mem.slice_put_of_length hlength⟩

/-- Without one there is no packet, and the length is the error value. -/
theorem createSolicit_none (b : SolicitBlocks) (m : Mem) :
    ∃ m', createSolicit b m none = some ⟨m', none, sizeMax⟩ := by
  simp only [createSolicit, clientId_eq, dhCreateCustomizedSolicitPacket]
  exact ⟨_, rfl⟩

end Pdrad
