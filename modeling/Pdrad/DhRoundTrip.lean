import Pdrad.DhGrammar
import Pdrad.DhWriter

/-!
# Encoding, parsing, and encoding again

What the parser makes of a well formed reply, and how the packet builder and the
parser fit together.

1. `swapAll_options`: swapping the headers of options stored back to back turns
   their wire images into their host images, and does nothing else.
2. `parse_reply`: the parser does exactly that to a well formed reply, and finds
   its options where they are (`Decoded`).
3. `parse_createPacket`: a packet that was built parses to the options it was
   built from.
4. `createPacket_parse`: a packet that was parsed, built again from the options
   now in its buffer, is the packet received.
5. `dropsNoIAPD_iff`: no `IA_PD` is lost behind a reported success exactly when
   every list node is granted. The flag that a refused node clears is set again.
-/

namespace Pdrad

open DhOptPayload DhReaderLemmas DhGrammarLemmas DhWriterLemmas

/-! ## Options in a packet -/

/-- The options of a packet at `pkt`, each with its address. -/
def placed (pkt : Nat) (opts : List DhOption) : List (Nat × DhOption) :=
  layout DhOption.size (pkt + dhPktOffset) opts

/-- The addresses of the options with the code `c`. -/
def placedWith (pkt : Nat) (c : DhOptions) (opts : List DhOption) : List Nat :=
  ((placed pkt opts).filter fun po => po.2.code = c.code).map Prod.fst

/-- The final state `s` of a parse has decoded the packet of `n` bytes at `pkt`,
whose options are `opts`: the result points to the options it is about, each of
them once and in order, and every option lies in the packet in host order. -/
structure Decoded (pkt n : Nat) (opts : List DhOption) (s : ReaderState) : Prop where
  success : s.result.success = true
  iaPds : s.iaPds = placedWith pkt .iaPd opts
  client : s.result.clientIdentifier = (placedWith pkt .clientId opts).getLast?
  server : s.result.serverIdentifier = (placedWith pkt .serverId opts).getLast?
  options : ∀ po ∈ placed pkt opts,
    pkt + 4 ≤ po.1 ∧ po.1 + po.2.size ≤ pkt + n ∧ po.2.At s.mem.mem po.1

namespace DhRoundTripLemmas

theorem layout_wire (a : Nat) (opts : List DhOption) :
    (layout List.length a (opts.map DhOption.wire)).map Prod.fst =
      (layout DhOption.size a opts).map Prod.fst := by
  rw [layout_map]
  simp only [DhOption.length_wire, List.map_map]
  rfl

/-- An option of a packet, found at its place in network order. -/
theorem wire_at {m : Mem} {a n p : Nat} {o : DhOption} {opts : List DhOption}
    (hm : m.slice a n = opts.flatMap DhOption.wire) (h : (p, o) ∈ layout DhOption.size a opts) :
    wireCode m p = o.code ∧ wireSize m p = o.size := by
  have hslice : m.slice p o.wire.length = o.wire := by
    refine slice_of_mem_layout DhOption.wire hm ?_
    simpa only [DhOption.length_wire] using h
  have hcode : m.slice p 2 = beBytes 2 o.code.toNat := by
    have hparts : m.slice p o.wire.length =
        beBytes 2 o.code.toNat ++ (beBytes 2 o.data.length ++ o.data) := by
      rw [hslice, DhOption.wire, List.append_assoc]
    have hfirst := (Mem.slice_eq_append hparts).1
    rwa [length_beBytes] at hfirst
  constructor
  · apply UInt16.toNat_inj.mp
    rw [wireCode, optionCode, be16toh, Mem.toNat_bswap16_load16, hcode, beValue_beBytes]
    exact Nat.mod_eq_of_lt o.code.toNat_lt
  · have hrec := o.isRecord_wire
    rw [← extent_slice m p hrec.1, hslice, hrec.2, DhOption.length_wire]

theorem withCode_placed {m : Mem} {pkt n : Nat} {opts : List DhOption}
    (hm : m.slice (pkt + 4) n = opts.flatMap DhOption.wire) (c : DhOptions) :
    withCode m c ((placed pkt opts).map Prod.fst) = placedWith pkt c opts := by
  rw [withCode, List.filter_map, placedWith]
  congr 1
  apply List.filter_congr
  rintro ⟨p, o⟩ hpo
  simp only [Function.comp_apply, (wire_at hm hpo).1]

/-- Swapping the headers of options stored back to back rewrites the stored
bytes from network to host order. -/
theorem swapAll_options {m : Mem} {a n : Nat} {opts : List DhOption}
    (hm : m.slice a n = opts.flatMap DhOption.wire) :
    swapAll m ((layout DhOption.size a opts).map Prod.fst) = m.put a (opts.flatMap DhOption.host) := by
  induction opts generalizing m a n with
  | nil => simp [swapAll, layout]
  | cons o opts ih =>
    rw [List.flatMap_cons] at hm
    obtain ⟨ho, hopts⟩ := Mem.slice_eq_append hm
    have hself : m.put a o.wire = m := by
      rw [← ho]
      exact Mem.put_slice_self m a o.wire.length
    have hswap := swapHeader_put_wire m a o
    rw [hself] at hswap
    have hrest : (m.put a o.host).slice (a + o.size) (opts.flatMap DhOption.wire).length =
        opts.flatMap DhOption.wire := by
      rw [Mem.slice_put_of_apart (.inl (by simp)), ← DhOption.length_wire, hopts]
    rw [layout, List.map_cons, swapAll, List.foldl_cons, hswap]
    have hih := ih hrest
    rw [swapAll] at hih
    rw [hih, List.flatMap_cons, Mem.put_append, DhOption.length_host]

end DhRoundTripLemmas

open DhRoundTripLemmas

/-! ## Parsing a well formed reply -/

/-- A reply made of whole options is read along them. -/
theorem parse_reply (alloc : Nat → Bool) {m : Mem} {pkt n : Nat} {opts : List DhOption}
    (hspace : pkt + n < 2 ^ 64) (htype : IsServerMessage (m pkt)) (hne : opts ≠ [])
    (hm : m.slice (pkt + 4) (n - 4) = opts.flatMap DhOption.wire) :
    ∃ s, Returns (dhParseOptions alloc m pkt n) s ∧ s.result.success = true ∧
      Reading alloc m pkt ((placed pkt opts).map Prod.fst) s ∧
      s.mem.mem = m.put (pkt + 4) (opts.flatMap DhOption.host) := by
  have hrecs : ∀ r ∈ opts.map DhOption.wire, dhFormat.IsRecord r := by
    intro r hr
    obtain ⟨o, _, rfl⟩ := List.mem_map.mp hr
    exact o.isRecord_wire
  have hflat : m.slice (pkt + 4) (n - 4) = (opts.map DhOption.wire).flatten ++ [] := by
    rw [hm, List.append_nil, List.flatMap_def]
  have hlen : n - 4 = (opts.map DhOption.size).sum := by
    have hl := congrArg List.length hm
    rw [Mem.length_slice, List.length_flatMap] at hl
    simpa using hl
  obtain ⟨o, rest, rfl⟩ := List.exists_cons_of_ne_nil hne
  have hpos : 4 ≤ o.size := Nat.le_add_left dhOptPayloadOffset _
  have hlong : 4 < n := by
    rw [List.map_cons, List.sum_cons] at hlen
    omega
  have hwalk := walk_pieces hrecs Format.not_starts_nil hflat (by omega)
  rw [if_pos rfl, List.append_nil, layout_wire] at hwalk
  have hstop : sizeAdd pkt n = pkt + 4 + (n - 4) := by
    rw [sizeAdd_of_lt hspace]
    omega
  have hfits : ∀ p ∈ (placed pkt (o :: rest)).map Prod.fst, p + wireSize m p < 2 ^ 64 := by
    intro p hp
    obtain ⟨⟨q, o'⟩, hmem, rfl⟩ := List.mem_map.mp hp
    have hb := (mem_layout_bounds hmem).2
    rw [← hlen] at hb
    rw [(wire_at hm hmem).2]
    simp only [dhPktOffset] at hb
    omega
  obtain ⟨s, hrun, hsuccess, hreading⟩ := dhParseOptions_eq alloc (by omega) (by omega)
    (by omega) htype rfl (hstop ▸ hwalk) hfits
  refine ⟨s, returns_dhParseOptions hrun, hsuccess, hreading, ?_⟩
  rw [hreading.mem]
  exact swapAll_options hm

/-- The host images a parse leaves behind are options in host order. -/
theorem at_of_placed {m : Mem} {pkt p : Nat} {o : DhOption} {opts : List DhOption}
    (h : (p, o) ∈ placed pkt opts) : o.At (m.put (pkt + 4) (opts.flatMap DhOption.host)) p := by
  rw [DhOption.at_iff, ← DhOption.length_host]
  refine slice_of_mem_layout DhOption.host (Mem.slice_put_same m (pkt + 4) _) ?_
  simp only [DhOption.length_host]
  exact h

theorem decoded_of_reading {m : Mem} {pkt n : Nat} {opts : List DhOption} {s : ReaderState}
    (hsize : 4 ≤ n) (hm : m.slice (pkt + 4) (n - 4) = opts.flatMap DhOption.wire)
    (hsuccess : s.result.success = true)
    (hreading : Reading (fun _ => true) m pkt ((placed pkt opts).map Prod.fst) s)
    (hmem : s.mem.mem = m.put (pkt + 4) (opts.flatMap DhOption.host)) : Decoded pkt n opts s := by
  have hlen : n - 4 = (opts.map DhOption.size).sum := by
    have hl := congrArg List.length hm
    rw [Mem.length_slice, List.length_flatMap] at hl
    simpa using hl
  refine ⟨hsuccess, ?_, ?_, ?_, ?_⟩
  · rw [hreading.iaPds, granted_all, withCode_placed hm]
  · rw [hreading.client, withCode_placed hm]
  · rw [hreading.server, withCode_placed hm]
  · rintro ⟨p, o⟩ hpo
    obtain ⟨hlo, hhi⟩ := mem_layout_bounds hpo
    simp only [dhPktOffset, ← hlen] at hlo hhi
    refine ⟨hlo, by simp only; omega, ?_⟩
    rw [hmem]
    exact at_of_placed hpo

/-! ## The two round trips -/

namespace DhRoundTripLemmas

/-- The parts of a packet in memory. -/
theorem slice_packetBytes {m : Mem} {pkt n : Nat} {msgType : DhMsgType}
    {transId : DhPktTransactionId} {opts : List DhOption}
    (h : m.slice pkt n = packetBytes msgType transId opts) :
    n = (packetBytes msgType transId opts).length ∧ m pkt = msgType.code ∧
      m.slice (pkt + 4) (n - 4) = opts.flatMap DhOption.wire := by
  have hn : n = (packetBytes msgType transId opts).length := by rw [← h, Mem.length_slice]
  have hparts : m.slice pkt n = (msgType.code :: transId.bytes) ++ opts.flatMap DhOption.wire := by
    rw [h, packetBytes, List.cons_append]
  obtain ⟨hheader, hopts⟩ := Mem.slice_eq_append hparts
  refine ⟨hn, ?_, ?_⟩
  · have hfirst : m.slice pkt (3 + 1) = msgType.code :: transId.bytes := hheader
    rw [Mem.slice_succ] at hfirst
    exact (List.cons.inj hfirst).1
  · have hrest : n - 4 = (opts.flatMap DhOption.wire).length := by
      rw [hn, length_packetBytes, List.length_flatMap]
      simp
    rw [hrest]
    exact hopts

theorem dhCreatePacket_isSome_iff {m : Mem} {packet : Nat} {msgType : DhMsgType}
    {transId : DhPktTransactionId} {ptrs : List Nat} :
    (dhCreatePacket m packet msgType transId ptrs).isSome ↔ ptrs.length < 2 ^ 31 := by
  unfold dhCreatePacket
  split
  · next hfew => exact iff_of_true rfl hfew
  · next hmany => exact iff_of_false Bool.false_ne_true hmany

end DhRoundTripLemmas

/-- **What is built parses back.** The options may have any code and any data,
and come in any number. Beyond `2 ^ 31` of them the builder's `int` counter
overflows and there is no packet to speak of. -/
theorem parse_createPacket {m : Mem} {packet : Nat} {msgType : DhMsgType}
    {transId : DhPktTransactionId} {ptrs : List Nat} {opts : List DhOption}
    (htype : msgType = .advertise ∨ msgType = .reply) (hne : opts ≠ [])
    (hbeside : Beside m packet (packetBytes msgType transId opts).length ptrs opts) :
    (opts.length < 2 ^ 31 → (dhCreatePacket m packet msgType transId ptrs).isSome) ∧
      ∀ m1 n, dhCreatePacket m packet msgType transId ptrs = some (m1, n) →
        packet + n < 2 ^ 64 →
        ∃ s, Returns (dhParseOptions (fun _ => true) m1 packet n) s ∧ Decoded packet n opts s := by
  have hcount := List.Forall₂.length_eq hbeside
  refine ⟨fun hlt => dhCreatePacket_isSome_iff.mpr (by omega), ?_⟩
  intro m1 n hrun hspace
  have hlt := dhCreatePacket_isSome_iff.mp (by rw [hrun]; rfl)
  rw [dhCreatePacket_eq msgType transId hbeside (by omega)] at hrun
  obtain ⟨rfl, rfl⟩ := Prod.mk.inj (Option.some.inj hrun)
  obtain ⟨_, hfirst, hopts⟩ := slice_packetBytes (Mem.slice_put_same m packet _)
  have hserver : IsServerMessage (m.put packet (packetBytes msgType transId opts) packet) := by
    rw [hfirst]
    rcases htype with rfl | rfl
    · exact .inl rfl
    · exact .inr rfl
  obtain ⟨s, hret, hsuccess, hreading, hmem⟩ :=
    parse_reply (fun _ => true) hspace hserver hne hopts
  have hlen := length_packetBytes msgType transId opts
  exact ⟨s, hret, decoded_of_reading (by omega) hopts hsuccess hreading hmem⟩

/-- A client identifier, and an `IA_PD` without a prefix. -/
def exOptions : List DhOption :=
  [⟨1, [0, 2, 5], by decide⟩, ⟨25, [0, 0, 112, 33, 0, 0, 0, 0, 0, 0, 0, 0], by decide⟩]

/-- Two option blocks, at 4096 and at 4112. -/
def exBlocks : Mem :=
  (memOf 4096 (DhOption.host ⟨1, [0, 2, 5], by decide⟩)).put 4112
    (DhOption.host ⟨25, [0, 0, 112, 33, 0, 0, 0, 0, 0, 0, 0, 0], by decide⟩)

theorem exOptions_beside : Beside exBlocks 8192 27 [4096, 4112] exOptions :=
  .cons ⟨by decide +kernel, by decide⟩ (.cons ⟨by decide +kernel, by decide⟩ .nil)

theorem exOptions_decoded :
    ∃ s, Returns (dhParseOptions (fun _ => true)
      (exBlocks.put 8192 (packetBytes .reply ⟨1, 2, 3⟩ exOptions)) 8192 27) s ∧
      Decoded 8192 27 exOptions s :=
  (parse_createPacket (.inr rfl) (by decide) exOptions_beside).2 _ _
    (dhCreatePacket_eq .reply ⟨1, 2, 3⟩ exOptions_beside (by decide)) (by decide)

/-- `m'` is `m` with the code and the length of every option swapped once, and no
other byte changed. -/
structure OnlySwapped (pkt : Nat) (opts : List DhOption) (m m' : Mem) : Prop where
  code : ∀ po ∈ placed pkt opts, m'.slice po.1 2 = (m.slice po.1 2).reverse
  length : ∀ po ∈ placed pkt opts, m'.slice (po.1 + 2) 2 = (m.slice (po.1 + 2) 2).reverse
  others : ∀ x, (∀ po ∈ placed pkt opts, ¬ (po.1 ≤ x ∧ x < po.1 + 4)) → m' x = m x

namespace DhRoundTripLemmas

theorem reverse_of_load16 {m m' : Mem} {a : Nat} (h : m'.load16 a = bswap16 (m.load16 a)) :
    m'.slice a 2 = (m.slice a 2).reverse := by
  rw [← Mem.leBytes_load16 m', h, leBytes_bswap16, beBytes, Mem.leBytes_load16]

/-- The headers in a packet do not overlap. -/
theorem placed_pairwise (pkt : Nat) (opts : List DhOption) :
    ((placed pkt opts).map Prod.fst).Pairwise fun p q => p + 4 ≤ q := by
  have hgen (a : Nat) : ((layout DhOption.size a opts).map Prod.fst).Pairwise
      fun p q => p + 4 ≤ q := by
    induction opts generalizing a with
    | nil => exact List.Pairwise.nil
    | cons o opts ih =>
      refine List.pairwise_cons.mpr ⟨?_, ih (a + o.size)⟩
      intro q hq
      obtain ⟨⟨q, o'⟩, hmem, rfl⟩ := List.mem_map.mp hq
      have hb := (mem_layout_bounds hmem).1
      have hsize : 4 ≤ o.size := Nat.le_add_left dhOptPayloadOffset _
      simp only
      omega
  exact hgen (pkt + dhPktOffset)

theorem onlySwapped_swapAll (m : Mem) (pkt : Nat) (opts : List DhOption) :
    OnlySwapped pkt opts m (swapAll m ((placed pkt opts).map Prod.fst)) := by
  have hsep := placed_pairwise pkt opts
  refine ⟨fun po hpo => ?_, fun po hpo => ?_, fun x hx => ?_⟩
  · exact reverse_of_load16 (header_swapAll hsep (List.mem_map_of_mem hpo)).1
  · exact reverse_of_load16 (header_swapAll hsep (List.mem_map_of_mem hpo)).2
  · have hapart : ∀ p ∈ (placed pkt opts).map Prod.fst, Apart p 4 x 1 := by
      intro p hp
      obtain ⟨po, hpo, rfl⟩ := List.mem_map.mp hp
      have hout := hx po hpo
      simp only [Apart]
      omega
    have hsame : (swapAll m ((placed pkt opts).map Prod.fst)).slice x 1 = m.slice x 1 :=
      slice_swapAll hapart
    exact (List.cons.inj hsame).1

/-- A well formed reply is a packet with a message type, an id and options. -/
theorem packetBytes_of_wellFormed {b : List UInt8} (h : WellFormedReply b) :
    ∃ msgType transId opts, IsServerMessage msgType.code ∧ opts ≠ [] ∧
      b = packetBytes msgType transId opts := by
  obtain ⟨hlong, ⟨first, hfirst, hserver⟩, opts, hne, hopts⟩ := h
  match b, hlong with
  | t :: i :: j :: k :: rest, _ =>
    obtain rfl : t = first := Option.some.inj hfirst
    have hbytes : t :: i :: j :: k :: rest = t :: ([i, j, k] ++ opts.flatMap DhOption.wire) := by
      rw [← hopts]
      rfl
    rcases hserver with rfl | rfl
    · exact ⟨.advertise, ⟨i, j, k⟩, opts, .inl rfl, hne, hbytes⟩
    · exact ⟨.reply, ⟨i, j, k⟩, opts, .inr rfl, hne, hbytes⟩

/-- The parsed options lie beside a block that is apart from the packet. -/
theorem beside_of_placed {m : Mem} {pkt n packet : Nat} {opts : List DhOption}
    (hn : n = 4 + (opts.map DhOption.size).sum) (hapart : Apart packet n pkt n) :
    Beside (m.put (pkt + 4) (opts.flatMap DhOption.host)) packet n ((placed pkt opts).map Prod.fst)
      opts := by
  have hat : ∀ po ∈ placed pkt opts,
      po.2.At (m.put (pkt + 4) (opts.flatMap DhOption.host)) po.1 ∧
        Apart packet n po.1 po.2.size := by
    rintro ⟨p, o⟩ hpo
    obtain ⟨hlo, hhi⟩ := mem_layout_bounds hpo
    refine ⟨at_of_placed hpo, ?_⟩
    simp only [dhPktOffset] at hlo hhi
    exact (hapart.symm.inside (by simp only; omega) (by simp only; omega)).symm
  have hopts : opts = (placed pkt opts).map Prod.snd := (layout_map_snd _ _).symm
  rw [Beside]
  nth_rewrite 3 [hopts]
  rw [List.forall₂_map_left_iff, List.forall₂_map_right_iff, List.forall₂_same]
  exact hat

end DhRoundTripLemmas

/-- In the buffer `m'` that a parse of the packet in `m` left behind, building a
packet from the options gives the bytes that were received. -/
def BuildsBack (m m' : Mem) (pkt n : Nat) (msgType : DhMsgType) (transId : DhPktTransactionId)
    (opts : List DhOption) : Prop :=
  ∀ packet, Apart packet n pkt n →
    (opts.length < 2 ^ 31 → (dhCreatePacket m' packet msgType transId
      ((placed pkt opts).map Prod.fst)).isSome) ∧
    ∀ m1 k, dhCreatePacket m' packet msgType transId ((placed pkt opts).map Prod.fst) =
      some (m1, k) → k = n ∧ m1.slice packet k = m.slice pkt n

/-- **What is parsed builds back.** Parsing a well formed packet swaps its option
headers and nothing else, and loses nothing. -/
theorem createPacket_parse (alloc : Nat → Bool) {m : Mem} {pkt n : Nat}
    (hwf : WellFormedReply (m.slice pkt n)) (hspace : pkt + n < 2 ^ 64) :
    ∃ msgType transId opts s, m.slice pkt n = packetBytes msgType transId opts ∧
      Returns (dhParseOptions alloc m pkt n) s ∧ OnlySwapped pkt opts m s.mem.mem ∧
      BuildsBack m s.mem.mem pkt n msgType transId opts := by
  obtain ⟨msgType, transId, opts, hserver, hne, hbytes⟩ := packetBytes_of_wellFormed hwf
  obtain ⟨hn, hfirst, hopts⟩ := slice_packetBytes hbytes
  obtain ⟨s, hret, _, hreading, hmem⟩ :=
    parse_reply alloc hspace (hfirst ▸ hserver) hne hopts
  refine ⟨msgType, transId, opts, s, hbytes, hret, ?_, fun packet hapart => ⟨fun hlt => ?_, ?_⟩⟩
  · rw [hreading.mem]
    exact onlySwapped_swapAll m pkt opts
  · exact dhCreatePacket_isSome_iff.mpr (by simpa [placed] using hlt)
  · intro m1 k hrun
    have hlt := dhCreatePacket_isSome_iff.mp (by rw [hrun]; rfl)
    have hbeside : Beside s.mem.mem packet (packetBytes msgType transId opts).length
        ((placed pkt opts).map Prod.fst) opts := by
      rw [hmem, ← hn]
      exact beside_of_placed (hn.trans (length_packetBytes _ _ _)) hapart
    rw [dhCreatePacket_eq msgType transId hbeside (by simpa [placed] using hlt)] at hrun
    obtain ⟨rfl, rfl⟩ := Prod.mk.inj (Option.some.inj hrun)
    exact ⟨hn.symm, by rw [Mem.slice_put_same, hbytes]⟩

theorem exWhole_buildsBack :
    ∃ msgType transId opts s,
      (memOf 4096 exWhole).slice 4096 17 = packetBytes msgType transId opts ∧
      Returns (dhParseOptions (fun _ => true) (memOf 4096 exWhole) 4096 17) s ∧
      OnlySwapped 4096 opts (memOf 4096 exWhole) s.mem.mem ∧
      BuildsBack (memOf 4096 exWhole) s.mem.mem 4096 17 msgType transId opts :=
  createPacket_parse (fun _ => true)
    ⟨by decide, ⟨2, by decide, .inl rfl⟩, [⟨1, [5, 5], by decide⟩, ⟨2, [7, 8, 9], by decide⟩],
      by decide, by decide⟩ (by decide)

/-! ## Nodes that are not granted -/

/-- The `n` bytes at `pkt` are a packet header and, up to their end, the options `opts`. -/
structure PacketOf (m : Mem) (pkt n : Nat) (opts : List DhOption) : Prop where
  header : 4 ≤ n
  options : m.slice (pkt + 4) (n - 4) = opts.flatMap DhOption.wire

/-- The parser returns. If it reports success, the list has all the `IA_PD` options of
the packet; if a node it asked for was not granted, it does not report success. -/
def DropsNoIAPD (alloc : Nat → Bool) (m : Mem) (pkt n : Nat) (opts : List DhOption) : Prop :=
  ∃ s, Returns (dhParseOptions alloc m pkt n) s ∧
    (s.result.success = true → s.iaPds = placedWith pkt .iaPd opts) ∧
    ((∃ k < s.allocs, alloc k = false) → s.result.success = false)

/-- All nodes are granted that the parser asks for: in a server message, one for each
`IA_PD`. -/
def NodesGranted (alloc : Nat → Bool) (m : Mem) (pkt : Nat) (opts : List DhOption) : Prop :=
  IsServerMessage (m pkt) → ∀ k < (placedWith pkt .iaPd opts).length, alloc k = true

/-- Only a bare header has no options behind it. -/
theorem PacketOf.opts_eq_nil_iff {m : Mem} {pkt n : Nat} {opts : List DhOption}
    (h : PacketOf m pkt n opts) : opts = [] ↔ n = 4 := by
  have hheader := h.header
  have hlen := congrArg List.length h.options
  rw [Mem.length_slice, List.length_flatMap] at hlen
  cases opts with
  | nil =>
    simp only [List.map_nil, List.sum_nil] at hlen
    exact iff_of_true rfl (by omega)
  | cons o opts =>
    have hpos : 4 ≤ o.size := Nat.le_add_left dhOptPayloadOffset _
    rw [List.map_cons, List.sum_cons, DhOption.length_wire] at hlen
    exact iff_of_false (List.cons_ne_nil o opts) (by omega)

/-- No `IA_PD` is dropped silently exactly when no node is refused. -/
theorem dropsNoIAPD_iff (alloc : Nat → Bool) {m : Mem} {pkt n : Nat} {opts : List DhOption}
    (h : PacketOf m pkt n opts) (hspace : pkt + n < 2 ^ 64) :
    DropsNoIAPD alloc m pkt n opts ↔ NodesGranted alloc m pkt opts := by
  have hheader := h.header
  by_cases hrefused : n = 4 ∨ ¬ IsServerMessage (m pkt)
  · obtain ⟨s, hret, hresult, _⟩ := dhParseOptions_refused alloc (by omega) (by omega) hrefused
    have hnone : NodesGranted alloc m pkt opts := by
      intro htype k hk
      obtain rfl := h.opts_eq_nil_iff.mpr (hrefused.resolve_right fun hn => hn htype)
      exact absurd hk (Nat.not_lt_zero k)
    refine iff_of_true ⟨s, returns_dhParseOptions (hret 0), ?_, ?_⟩ hnone
    · rw [hresult]
      exact fun hsuccess => nomatch hsuccess
    · rw [hresult]
      exact fun _ => rfl
  · simp only [not_or, not_not] at hrefused
    obtain ⟨h4, htype⟩ := hrefused
    obtain ⟨s, hret, hsuccess, hreading, _⟩ :=
      parse_reply alloc hspace htype (mt h.opts_eq_nil_iff.mp h4) h.options
    have hlist := hreading.iaPds
    have hallocs := hreading.allocs
    rw [withCode_placed h.options] at hlist hallocs
    rw [DropsNoIAPD, hret.exists_iff, hlist, hallocs, hsuccess, granted_eq_self_iff]
    simp only [Nat.zero_add, NodesGranted, htype, forall_const, Bool.true_eq_false, imp_false]
    constructor
    · exact fun hall => hall.1
    · rintro hall
      refine ⟨hall, ?_⟩
      rintro ⟨k, hk, hrefused⟩
      rw [hall k hk] at hrefused
      cases hrefused

/-- A reply with one `IA_PD`, without a prefix. -/
def exIAPD : List UInt8 :=
  [7, 1, 2, 3, 0, 25, 0, 12, 0, 0, 112, 33, 0, 0, 0, 0, 0, 0, 0, 0]

theorem exIAPD_packetOf : PacketOf (memOf 4096 exIAPD) 4096 20
    [⟨25, [0, 0, 112, 33, 0, 0, 0, 0, 0, 0, 0, 0], by decide⟩] :=
  ⟨by decide, by decide +kernel⟩

/-- Its node is not granted: the parser reports success, with an empty list. -/
theorem exIAPD_dropped :
    ¬ DropsNoIAPD (fun _ => false) (memOf 4096 exIAPD) 4096 20
      [⟨25, [0, 0, 112, 33, 0, 0, 0, 0, 0, 0, 0, 0], by decide⟩] := by
  rintro ⟨s, hret, hkept, _⟩
  have hrun : (dhParseOptions (fun _ => false) (memOf 4096 exIAPD) 4096 20 1).map
      (fun s => (s.result.success, s.iaPds)) = some (true, []) := by decide +kernel
  have hend := hret.map_eq returns_dhParseOptions hrun
  obtain ⟨hsuccess, hempty⟩ := Prod.mk.inj hend
  have hlist := hempty.symm.trans (hkept hsuccess)
  exact absurd hlist (by decide)

theorem exIAPD_kept :
    DropsNoIAPD (fun _ => true) (memOf 4096 exIAPD) 4096 20
      [⟨25, [0, 0, 112, 33, 0, 0, 0, 0, 0, 0, 0, 0], by decide⟩] :=
  (dropsNoIAPD_iff _ exIAPD_packetOf (by decide)).mpr fun _ _ _ => rfl

end Pdrad
