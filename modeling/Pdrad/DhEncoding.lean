import Pdrad.DhWriter
import Pdrad.WriteLog

/-!
# The packet builder against the DHCPv6 encoding

`encodedPacket` says what a DHCPv6 message looks like: the four byte header, then
each option as code, length and data, numbers in network order. `dh_createPacket`
is run on a memory that notes its stores, so that the bytes it writes can be
compared with the block it asked `malloc` for.

1. `Logged.mem_dhCreatePacket`: noting the stores does not change what is built.
2. `createPacket_encodes`: the block holds the encoding of the options, it is
   written from its first byte to its last and nowhere else, and the options
   stay as they were.
-/

namespace Pdrad

open DhOptPayload

/-! ## The encoding -/

/-- The option that the block at `p` holds, as it is sent. -/
def encodedOption (m : Mem) (p : Nat) : List UInt8 :=
  beBytes 2 (optionCode m p).toNat ++ beBytes 2 (optionLength m p).toNat ++
    m.slice (optionData p) (optionLength m p).toNat

/-- The message with the options that the pointers lead to. -/
def encodedPacket (m : Mem) (msgType : DhMsgType) (transId : DhPktTransactionId)
    (optPtrList : List Nat) : List UInt8 :=
  [msgType.code, transId.transactionId0, transId.transactionId1, transId.transactionId2] ++
    optPtrList.flatMap (encodedOption m)

/-! ## The builder, with its stores noted -/

namespace Logged

def swapHeader (t : WriteLog) (p : Nat) : WriteLog :=
  let t := t.store16 p (bswap16 (optionCode t.mem p))
  t.store16 (p + 2) (bswap16 (optionLength t.mem p))

def copyOption (packet : Nat) (s : WriteLog × Nat) (payload : Nat) : WriteLog × Nat :=
  let (t, optionOffset) := s
  let buffer := packet + dhPktOffset + optionOffset
  let t := t.memcpy buffer payload (optionSize t.mem payload)
  let optionOffset := optionOffset + optionSize t.mem payload
  (swapHeader t buffer, optionOffset)

/-- What `dh_createPacket` leaves behind: the stores, the size it asked `malloc`
for, and the returned `size_t`. -/
structure Packet where
  log : WriteLog
  allocated : Nat
  length : Nat

def dhCreatePacket (m : Mem) (packet : Nat) (msgType : DhMsgType) (transId : DhPktTransactionId)
    (optPtrList : List Nat) : Option Packet :=
  if optPtrList.length < 2 ^ 31 then
    let length := countPacketLength m optPtrList
    let t := (WriteLog.start m).put packet [msgType.code]
    let t := t.put (packet + 1) transId.bytes
    some ⟨(optPtrList.foldl (copyOption packet) (t, 0)).1, length, length⟩
  else none

theorem mem_copyOption (packet : Nat) (t : WriteLog) (offset p : Nat) :
    Pdrad.copyOption packet (t.mem, offset) p =
      ((copyOption packet (t, offset) p).1.mem, (copyOption packet (t, offset) p).2) := rfl

theorem mem_copyOptions (packet : Nat) (t : WriteLog) (offset : Nat) (ptrs : List Nat) :
    ptrs.foldl (Pdrad.copyOption packet) (t.mem, offset) =
      ((ptrs.foldl (copyOption packet) (t, offset)).1.mem,
        (ptrs.foldl (copyOption packet) (t, offset)).2) := by
  induction ptrs generalizing t offset with
  | nil => rfl
  | cons p ptrs ih =>
    exact ih (copyOption packet (t, offset) p).1 (copyOption packet (t, offset) p).2

/-- Noting the stores changes nothing else. -/
theorem mem_dhCreatePacket (m : Mem) (packet : Nat) (msgType : DhMsgType)
    (transId : DhPktTransactionId) (ptrs : List Nat) :
    (dhCreatePacket m packet msgType transId ptrs).map (fun b => (b.log.mem, b.length)) =
      Pdrad.dhCreatePacket m packet msgType transId ptrs := by
  have hcopy := mem_copyOptions packet
    (((WriteLog.start m).put packet [msgType.code]).put (packet + 1) transId.bytes) 0 ptrs
  simp only [WriteLog.mem_put, WriteLog.mem_start] at hcopy
  unfold dhCreatePacket Pdrad.dhCreatePacket
  split
  · show some _ = some (_, _)
    rw [hcopy]
  · rfl

end Logged

/-! ## What is written -/

open DhWriterLemmas

namespace DhEncodingLemmas

/-- Swapping a header writes its four bytes. -/
theorem written_swapHeader {t : WriteLog} {p x : Nat} :
    (Logged.swapHeader t p).Written x ↔ t.Written x ∨ (p ≤ x ∧ x < p + 4) := by
  rw [Logged.swapHeader, WriteLog.written_store16, WriteLog.written_store16, or_assoc,
    WriteLog.range_append]

/-- One pass of the copying loop writes the place of the option in the packet. -/
theorem copyOption_logged {t : WriteLog} {packet offset p : Nat} {o : DhOption}
    (h : o.At t.mem p) (hapart : Apart (packet + 4 + offset) o.size p o.size) :
    ∃ t', Logged.copyOption packet (t, offset) p = (t', offset + o.size) ∧
      t'.mem = t.mem.put (packet + 4 + offset) o.wire ∧
      ∀ x, t'.Written x ↔
        t.Written x ∨ (packet + 4 + offset ≤ x ∧ x < packet + 4 + offset + o.size) := by
  have hpass := copyOption_eq h hapart
  rw [Logged.mem_copyOption, Prod.mk.injEq] at hpass
  refine ⟨(Logged.copyOption packet (t, offset) p).1, Prod.ext rfl hpass.2, hpass.1, fun x => ?_⟩
  have hheader : 4 ≤ o.size := Nat.le_add_left 4 _
  simp only [Logged.copyOption, dhPktOffset, written_swapHeader, WriteLog.written_memcpy,
    optionSize_eq h, or_assoc]
  refine or_congr_right ⟨?_, .inl⟩
  rintro (h | ⟨hlo, hhi⟩)
  · exact h
  · exact ⟨hlo, Nat.lt_of_lt_of_le hhi (Nat.add_le_add_left hheader _)⟩

/-- The passes together write the places of all the options, without a gap. -/
theorem written_copyOptions {t : WriteLog} {packet n x : Nat} {ptrs : List Nat}
    {opts : List DhOption} (offset : Nat) (h : Beside t.mem packet n ptrs opts)
    (hfit : 4 + offset + (opts.map DhOption.size).sum ≤ n) :
    (ptrs.foldl (Logged.copyOption packet) (t, offset)).1.Written x ↔
      t.Written x ∨ (packet + 4 + offset ≤ x ∧
        x < packet + 4 + offset + (opts.map DhOption.size).sum) := by
  induction opts generalizing t offset ptrs with
  | nil =>
    cases h
    simp only [List.foldl_nil, List.map_nil, List.sum_nil, Nat.add_zero]
    refine ⟨.inl, ?_⟩
    rintro (h | ⟨hlo, hhi⟩)
    · exact h
    · exact absurd hhi (Nat.not_lt.mpr hlo)
  | cons o opts ih =>
    cases h with
    | @cons p _ ptrs _ hhead htail =>
    obtain ⟨hat, hapart⟩ := hhead
    rw [List.map_cons, List.sum_cons] at hfit ⊢
    have hinside : Apart (packet + 4 + offset) o.size p o.size :=
      hapart.inside (by omega) (by omega)
    obtain ⟨t', hpass, hmem, hwritten⟩ := copyOption_logged hat hinside
    have htail' : Beside t'.mem packet n ptrs opts := by
      rw [hmem]
      exact Beside.put htail (by omega) (by rw [DhOption.length_wire]; omega)
    rw [List.foldl_cons, hpass, ih (offset + o.size) htail' (by omega), hwritten, or_assoc,
      ← Nat.add_assoc (packet + 4), WriteLog.range_append]

/-- The option that the block at `p` holds. -/
def optionAt (m : Mem) (p : Nat) : DhOption where
  code := optionCode m p
  data := m.slice (optionData p) (optionLength m p).toNat
  fits := by
    rw [Mem.length_slice]
    exact (optionLength m p).toNat_lt

theorem at_optionAt (m : Mem) (p : Nat) : (optionAt m p).At m p := by
  refine ⟨rfl, ?_, ?_⟩
  · rw [DhOption.length, optionAt, Mem.length_slice, UInt16.ofNat_toNat]
  · rw [optionAt, Mem.length_slice]

theorem wire_optionAt (m : Mem) (p : Nat) : (optionAt m p).wire = encodedOption m p := by
  rw [DhOption.wire, encodedOption, optionAt, Mem.length_slice]

theorem packetBytes_optionAt (m : Mem) (msgType : DhMsgType) (transId : DhPktTransactionId)
    (ptrs : List Nat) :
    packetBytes msgType transId (ptrs.map (optionAt m)) = encodedPacket m msgType transId ptrs := by
  have hwire : (ptrs.map (optionAt m)).flatMap DhOption.wire = ptrs.flatMap (encodedOption m) := by
    rw [List.flatMap_map]
    exact congrArg (fun f => ptrs.flatMap f) (funext (wire_optionAt m))
  rw [packetBytes, hwire]
  rfl

/-- Blocks apart from the packet's are beside it. -/
theorem beside_optionAt {m : Mem} {packet n : Nat} {ptrs : List Nat}
    (h : ∀ p ∈ ptrs, Apart packet n p (optionSize m p)) :
    Beside m packet n ptrs (ptrs.map (optionAt m)) := by
  unfold Beside
  rw [List.forall₂_map_right_iff, List.forall₂_same]
  intro p hp
  rw [← optionSize_eq (at_optionAt m p)]
  exact ⟨at_optionAt m p, h p hp⟩

theorem length_encodedPacket {m : Mem} {packet : Nat} {ptrs : List Nat} (msgType : DhMsgType)
    (transId : DhPktTransactionId)
    (hbeside : Beside m packet (countPacketLength m ptrs) ptrs (ptrs.map (optionAt m))) :
    (encodedPacket m msgType transId ptrs).length = countPacketLength m ptrs := by
  rw [← packetBytes_optionAt, length_packetBytes, countPacketLength_eq hbeside.imp_at]

theorem written_header {m : Mem} {packet x : Nat} {code : UInt8} {transId : DhPktTransactionId} :
    (((WriteLog.start m).put packet [code]).put (packet + 1) transId.bytes).Written x ↔
      packet ≤ x ∧ x < packet + 4 := by
  rw [WriteLog.written_put, WriteLog.written_put]
  simp only [WriteLog.not_written_start, false_or]
  exact WriteLog.range_append

/-- The header, and behind it the options, fill the block. -/
theorem written_packet {m : Mem} {packet x : Nat} {code : UInt8} {transId : DhPktTransactionId}
    {ptrs : List Nat}
    (hbeside : Beside m packet (countPacketLength m ptrs) ptrs (ptrs.map (optionAt m))) :
    (ptrs.foldl (Logged.copyOption packet)
      (((WriteLog.start m).put packet [code]).put (packet + 1) transId.bytes, 0)).1.Written x ↔
      packet ≤ x ∧ x < packet + countPacketLength m ptrs := by
  have hsum := countPacketLength_eq hbeside.imp_at
  have hfour : 4 ≤ countPacketLength m ptrs := hsum ▸ Nat.le_add_right 4 _
  have hheader : Beside (((WriteLog.start m).put packet [code]).put (packet + 1)
      transId.bytes).mem packet (countPacketLength m ptrs) ptrs (ptrs.map (optionAt m)) := by
    refine Beside.put (Beside.put hbeside (Nat.le_refl packet) ?_) (Nat.le_add_right packet 1) ?_
    · exact Nat.add_le_add_left (Nat.le_trans (by simp) hfour) packet
    · rw [Nat.add_assoc]
      exact Nat.add_le_add_left hfour packet
  rw [written_copyOptions 0 hheader (Nat.le_of_eq hsum.symm), written_header, Nat.add_zero,
    WriteLog.range_append, ← hsum]

/-- `dhCreatePacket_eq` with the stores noted. -/
theorem dhCreatePacket_logged {m : Mem} {packet : Nat} (msgType : DhMsgType)
    (transId : DhPktTransactionId) {ptrs : List Nat} (hcount : ptrs.length < 2 ^ 31)
    (hbeside : Beside m packet (countPacketLength m ptrs) ptrs (ptrs.map (optionAt m))) :
    ∃ t : WriteLog, Logged.dhCreatePacket m packet msgType transId ptrs =
        some ⟨t, countPacketLength m ptrs, countPacketLength m ptrs⟩ ∧
      t.mem = m.put packet (encodedPacket m msgType transId ptrs) ∧
      ∀ x, t.Written x ↔ packet ≤ x ∧ x < packet + countPacketLength m ptrs := by
  have hlength := length_encodedPacket msgType transId hbeside
  have hbuilt : Logged.dhCreatePacket m packet msgType transId ptrs =
      some ⟨_, countPacketLength m ptrs, countPacketLength m ptrs⟩ := if_pos hcount
  have hblocks : Beside m packet (packetBytes msgType transId (ptrs.map (optionAt m))).length ptrs
      (ptrs.map (optionAt m)) := by
    rwa [packetBytes_optionAt, hlength]
  have hmem := dhCreatePacket_eq msgType transId hblocks (by rwa [List.length_map])
  rw [packetBytes_optionAt, ← Logged.mem_dhCreatePacket, hbuilt, Option.map_some,
    Option.some.injEq, Prod.mk.injEq] at hmem
  exact ⟨_, hbuilt, hmem.1, fun x => written_packet hbeside⟩

end DhEncodingLemmas

open DhEncodingLemmas

/-- A packet that can be built has a length that a `size_t` holds. -/
theorem countPacketLength_lt (m : Mem) {ptrs : List Nat} (hcount : ptrs.length < 2 ^ 31) :
    countPacketLength m ptrs < 2 ^ 64 := by
  have hsum (k : Nat) : ptrs.foldl (fun length payload => length + optionSize m payload) k ≤
      k + 65539 * ptrs.length := by
    clear hcount
    induction ptrs generalizing k with
    | nil => simp
    | cons p ptrs ih =>
      have hp : optionSize m p ≤ 65539 := by
        have hlt := (optionLength m p).toNat_lt
        rw [optionSize, dhOptPayloadOffset]
        omega
      have hrest := ih (k + optionSize m p)
      rw [List.foldl_cons, List.length_cons]
      omega
  have h4 := hsum dhPktOffset
  rw [dhPktOffset] at h4
  rw [countPacketLength, dhPktOffset]
  omega

/-- `dh_createPacket` produces the encoding of its arguments. Every byte of its
block is written, and no other byte is. -/
theorem createPacket_encodes {m : Mem} {packet : Nat} (msgType : DhMsgType)
    (transId : DhPktTransactionId) {ptrs : List Nat} (hcount : ptrs.length < 2 ^ 31)
    (hapart : ∀ p ∈ ptrs, Apart packet (countPacketLength m ptrs) p (optionSize m p)) :
    ∃ b : Logged.Packet, Logged.dhCreatePacket m packet msgType transId ptrs = some b ∧
      b.log.mem.slice packet b.length = encodedPacket m msgType transId ptrs ∧
      b.length = (encodedPacket m msgType transId ptrs).length ∧ b.length < 2 ^ 64 ∧
      b.allocated = b.length ∧
      (∀ x, b.log.Written x ↔ packet ≤ x ∧ x < packet + b.allocated) ∧
      ∀ p ∈ ptrs, b.log.mem.slice p (optionSize m p) = m.slice p (optionSize m p) := by
  have hbeside := beside_optionAt hapart
  have hlength := length_encodedPacket msgType transId hbeside
  obtain ⟨t, hbuilt, hmem, hwritten⟩ := dhCreatePacket_logged msgType transId hcount hbeside
  refine ⟨_, hbuilt, ?_, hlength.symm, countPacketLength_lt m hcount, rfl, hwritten,
    fun p hp => ?_⟩
  · show t.mem.slice packet (countPacketLength m ptrs) = _
    rw [hmem, ← hlength, Mem.slice_put_same]
  · show t.mem.slice p (optionSize m p) = _
    rw [hmem]
    exact Mem.slice_put_of_apart (by rw [hlength]; exact hapart p hp)

/-- A memory with one option of code 3 and two data bytes, at 4096. -/
def exBlock : Mem := Mem.put (fun _ => 0) 4096 [3, 0, 2, 0, 7, 9]

/-- The same option twice. -/
theorem exBlock_encoded : ∃ b : Logged.Packet,
    Logged.dhCreatePacket exBlock 8192 .request ⟨1, 2, 3⟩ [4096, 4096] = some b ∧
    b.log.mem.slice 8192 b.length =
      [3, 1, 2, 3, 0, 3, 0, 2, 7, 9, 0, 3, 0, 2, 7, 9] := by
  have hapart : ∀ p ∈ [4096, 4096], Apart 8192 (countPacketLength exBlock [4096, 4096]) p
      (optionSize exBlock p) := by
    decide
  obtain ⟨b, hb, hslice, _⟩ := createPacket_encodes .request ⟨1, 2, 3⟩ (by decide) hapart
  exact ⟨b, hb, hslice.trans (by decide)⟩

end Pdrad
