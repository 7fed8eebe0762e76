import Pdrad.DhPackets

/-!
# What `dh_createPacket` does

The packet builder copies every option behind the earlier ones and swaps the
header of the copy. On options that lie apart from the new block this comes to
one `put` of the packet's bytes.

1. `swapHeader_put`: swapping a header just written is writing it swapped.
2. `copyOption_eq`, `copyOptions_eq`: one pass of the copying loop, and all of it.
3. `dhCreatePacket_eq`: the block holds `packetBytes`, nothing else changes, and
   the returned length is their number.
-/

namespace Pdrad

open DhOptPayload

/-- A packet in network order. -/
def packetBytes (msgType : DhMsgType) (transId : DhPktTransactionId) (opts : List DhOption) :
    List UInt8 :=
  msgType.code :: (transId.bytes ++ opts.flatMap DhOption.wire)

/-- The pointers `ptrs` lead to the options `opts` in host order, all of them apart
from the block of `n` bytes at `packet`. -/
def Beside (m : Mem) (packet n : Nat) (ptrs : List Nat) (opts : List DhOption) : Prop :=
  List.Forall₂ (fun p (o : DhOption) => o.At m p ∧ Apart packet n p o.size) ptrs opts

theorem length_packetBytes (msgType : DhMsgType) (transId : DhPktTransactionId)
    (opts : List DhOption) :
    (packetBytes msgType transId opts).length = 4 + (opts.map DhOption.size).sum := by
  have hwire : (opts.flatMap DhOption.wire).length = (opts.map DhOption.size).sum := by
    simp [List.length_flatMap]
  simp only [packetBytes, DhPktTransactionId.bytes, List.length_cons, List.length_append, hwire,
    List.length_nil]
  omega

namespace DhWriterLemmas

/-- Overwriting the front of what was just written is writing the new front. -/
theorem put_put_front {m : Mem} {a : Nat} {xs ys ds : List UInt8} (h : ys.length = xs.length) :
    (m.put a (xs ++ ds)).put a ys = m.put a (ys ++ ds) := by
  funext x
  by_cases hlo : x < a
  · rw [Mem.put_of_lt hlo, Mem.put_of_lt hlo, Mem.put_of_lt hlo]
  obtain ⟨i, rfl⟩ := Nat.exists_eq_add_of_le (Nat.le_of_not_lt hlo)
  by_cases hi : i < ys.length
  · rw [Mem.put_at hi, Mem.put_at (by simp; omega), List.getElem_append_left hi]
  · rw [Mem.put_of_ge (by omega), Mem.put_append, Mem.put_append, h]
    by_cases hd : i < xs.length + ds.length
    · obtain ⟨j, rfl⟩ := Nat.exists_eq_add_of_le (Nat.le_of_not_lt (h ▸ hi))
      have hj : j < ds.length := by omega
      rw [← Nat.add_assoc, Mem.put_at hj, Mem.put_at hj]
    · rw [Mem.put_of_ge (by omega), Mem.put_of_ge (by omega), Mem.put_of_ge (by omega),
        Mem.put_of_ge (by omega)]

/-- Swapping the header of an option just written is writing it swapped. -/
theorem swapHeader_put {m : Mem} {a : Nat} {code length data : List UInt8}
    (hcode : code.length = 2) (hlength : length.length = 2) :
    swapHeader (m.put a (code ++ length ++ data)) a =
      m.put a (code.reverse ++ length.reverse ++ data) := by
  have hall : (m.put a (code ++ length ++ data)).slice a (code ++ length ++ data).length =
      code ++ (length ++ data) := by
    rw [Mem.slice_put_same, List.append_assoc]
  obtain ⟨hc, hrest⟩ := Mem.slice_eq_append hall
  obtain ⟨hl, _⟩ := Mem.slice_eq_append hrest
  rw [hcode] at hc hl
  rw [hlength] at hl
  rw [swapHeader_eq, hc, hl, put_put_front (by simp)]

theorem swapHeader_put_host (m : Mem) (a : Nat) (o : DhOption) :
    swapHeader (m.put a o.host) a = m.put a o.wire :=
  swapHeader_put (by simp) (by simp)

theorem swapHeader_put_wire (m : Mem) (a : Nat) (o : DhOption) :
    swapHeader (m.put a o.wire) a = m.put a o.host := by
  have h : swapHeader (m.put a o.wire) a = m.put a ((beBytes 2 o.code.toNat).reverse ++
      (beBytes 2 o.data.length).reverse ++ o.data) := swapHeader_put (by simp) (by simp)
  simp only [beBytes, List.reverse_reverse] at h
  exact h

theorem optionSize_eq {m : Mem} {p : Nat} {o : DhOption} (h : o.At m p) :
    optionSize m p = o.size := by
  rw [optionSize, h.2.1, DhOption.toNat_length]
  rfl

/-- An option stays where it is when something apart from it is written. -/
theorem at_put {m : Mem} {a p : Nat} {bs : List UInt8} {o : DhOption} (h : o.At m p)
    (hapart : Apart a bs.length p o.size) : o.At (m.put a bs) p := by
  rw [DhOption.at_iff] at h ⊢
  rw [Mem.slice_put_of_apart hapart, h]

end DhWriterLemmas

open DhWriterLemmas

theorem Beside.imp_at {m : Mem} {packet n : Nat} {ptrs : List Nat} {opts : List DhOption}
    (h : Beside m packet n ptrs opts) : List.Forall₂ (fun p (o : DhOption) => o.At m p) ptrs opts :=
  List.Forall₂.imp (fun _ _ hpo => hpo.1) h

/-- Writing inside the block leaves the options beside it. -/
theorem Beside.put {m : Mem} {packet n a : Nat} {bs : List UInt8} {ptrs : List Nat}
    {opts : List DhOption} (h : Beside m packet n ptrs opts) (hlo : packet ≤ a)
    (hhi : a + bs.length ≤ packet + n) : Beside (m.put a bs) packet n ptrs opts :=
  List.Forall₂.imp (fun _ _ hpo => ⟨at_put hpo.1 (hpo.2.inside hlo hhi), hpo.2⟩) h

/-- `count packet length` adds up the sizes of the options. -/
theorem countPacketLength_eq {m : Mem} {ptrs : List Nat} {opts : List DhOption}
    (h : List.Forall₂ (fun p (o : DhOption) => o.At m p) ptrs opts) :
    countPacketLength m ptrs = 4 + (opts.map DhOption.size).sum := by
  have hfold (k : Nat) : ptrs.foldl (fun length payload => length + optionSize m payload) k =
      k + (opts.map DhOption.size).sum := by
    induction h generalizing k with
    | nil => rfl
    | cons hat _ ih =>
      rw [List.foldl_cons, ih, optionSize_eq hat, List.map_cons, List.sum_cons, Nat.add_assoc]
  exact hfold dhPktOffset

/-- One pass of the copying loop appends the option's wire image. -/
theorem copyOption_eq {m : Mem} {packet offset p : Nat} {o : DhOption} (h : o.At m p)
    (hapart : Apart (packet + 4 + offset) o.size p o.size) :
    copyOption packet (m, offset) p = (m.put (packet + 4 + offset) o.wire, offset + o.size) := by
  have hcopy : m.memcpy (packet + 4 + offset) p (optionSize m p) =
      m.put (packet + 4 + offset) o.host := by
    rw [Mem.memcpy, optionSize_eq h, DhOption.at_iff.mp h]
  have hkeep : o.At (m.put (packet + 4 + offset) o.host) p :=
    at_put h (by rwa [DhOption.length_host])
  simp only [copyOption, dhPktOffset, hcopy, optionSize_eq hkeep, swapHeader_put_host]

/-- The copying loop, from any offset inside the block on. -/
theorem copyOptions_eq (offset : Nat) {m : Mem} {packet n : Nat} {ptrs : List Nat} {opts : List DhOption}
    (h : Beside m packet n ptrs opts) (hfit : 4 + offset + (opts.map DhOption.size).sum ≤ n) :
    ptrs.foldl (copyOption packet) (m, offset) =
      (m.put (packet + 4 + offset) (opts.flatMap DhOption.wire),
        offset + (opts.map DhOption.size).sum) := by
  induction opts generalizing m offset ptrs with
  | nil =>
    cases h
    simp
  | cons o opts ih =>
    cases h with
    | @cons p _ ptrs _ hhead htail =>
    obtain ⟨hat, hapart⟩ := hhead
    rw [List.map_cons, List.sum_cons] at hfit
    have hinside : Apart (packet + 4 + offset) o.size p o.size :=
      hapart.inside (by omega) (by omega)
    have hpass := copyOption_eq hat hinside
    have htail' : Beside (m.put (packet + 4 + offset) o.wire) packet n ptrs opts :=
      Beside.put htail (by omega) (by rw [DhOption.length_wire]; omega)
    have hnext : packet + 4 + (offset + o.size) = packet + 4 + offset + o.wire.length := by
      rw [DhOption.length_wire]
      omega
    rw [List.foldl_cons, hpass, ih _ htail' (by omega), hnext, ← Mem.put_append, List.flatMap_cons,
      List.map_cons, List.sum_cons, Nat.add_assoc offset]

/-- The packet builder puts the packet's bytes into its block. -/
theorem dhCreatePacket_eq (msgType : DhMsgType) (transId : DhPktTransactionId) {m : Mem}
    {packet : Nat} {ptrs : List Nat} {opts : List DhOption}
    (h : Beside m packet (packetBytes msgType transId opts).length ptrs opts)
    (hcount : opts.length < 2 ^ 31) :
    dhCreatePacket m packet msgType transId ptrs =
      some (m.put packet (packetBytes msgType transId opts),
        (packetBytes msgType transId opts).length) := by
  have hlen := length_packetBytes msgType transId opts
  have hcount' : ptrs.length < 2 ^ 31 := by rwa [List.Forall₂.length_eq h]
  have hheader : (m.put packet [msgType.code]).put (packet + 1) transId.bytes =
      m.put packet (msgType.code :: transId.bytes) :=
    (Mem.put_append m packet [msgType.code] transId.bytes).symm
  have hbeside : Beside (m.put packet (msgType.code :: transId.bytes)) packet
      (packetBytes msgType transId opts).length ptrs opts :=
    h.put (Nat.le_refl _) (by simp [DhPktTransactionId.bytes, hlen])
  have hcopy := copyOptions_eq 0 hbeside (by omega)
  simp only [dhCreatePacket, if_pos hcount']
  rw [countPacketLength_eq h.imp_at, hheader, hcopy, hlen, packetBytes, ← List.cons_append,
    Mem.put_append]
  rfl

end Pdrad
