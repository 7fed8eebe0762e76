import Pdrad.DhReader

/-!
# The packets `dh_parseOptions` accepts, and the bytes it touches

A reply is well formed when its type is `ADVERTISE` or `REPLY` and whole options
fill it exactly, with at least one of them (`WellFormedReply`).

1. `accepts_exactly_iff`: the parser tells well-formed replies from all other
   packets exactly when the packet is not a truncated reply. A truncated reply
   is accepted: the out-of-bounds `break` falls through to `success = true`.
2. `stays_inside_iff`: every byte the parser touches and every option it stores
   lie inside the packet exactly when the packet is not empty and what its last
   option lacks, if it lacks anything, is data the parser does not look at.
-/

namespace Pdrad

open DhOptPayload DhReaderLemmas

/-! ## Grammar -/

/-- The grammar of a reply: a four byte header with a server's message type, and
one option or more up to the end. -/
structure WellFormedReply (b : List UInt8) : Prop where
  longer : 4 < b.length
  server : ∃ msgType ∈ b.head?, IsServerMessage msgType
  options : ∃ opts : List DhOption, opts ≠ [] ∧ b.drop 4 = opts.flatMap DhOption.wire

/-- For the buffer of `size` bytes at `pkt`, the parser returns, and its verdict
is that of the grammar. -/
def AcceptsExactly (m : Mem) (pkt size : Nat) : Prop :=
  ∃ s, Returns (dhParseOptions (fun _ => true) m pkt size) s ∧
    (s.result.success = true ↔ WellFormedReply (m.slice pkt size))

/-- What is left of the buffer after its packet header and its whole options. -/
def tailOf (m : Mem) (pkt size : Nat) : List UInt8 :=
  dhFormat.rest (m.slice (pkt + 4) (size - 4))

/-- A server message cut short: inside its header, or inside an option. -/
def TruncatedReply (m : Mem) (pkt size : Nat) : Prop :=
  IsServerMessage (m pkt) ∧ (size < 4 ∨ tailOf m pkt size ≠ [])

instance (m : Mem) (pkt size : Nat) : Decidable (TruncatedReply m pkt size) :=
  inferInstanceAs (Decidable (_ ∧ _))

namespace DhGrammarLemmas

theorem rest_eq_nil_iff_options {b : List UInt8} :
    dhFormat.rest b = [] ↔ ∃ opts : List DhOption, b = opts.flatMap DhOption.wire := by
  rw [Format.rest_eq_nil_iff]
  constructor
  · rintro ⟨rs, hrs, rfl⟩
    induction rs with
    | nil => exact ⟨[], rfl⟩
    | cons r rs ih =>
      obtain ⟨o, rfl⟩ := DhOption.isRecord_iff.mp (hrs r List.mem_cons_self)
      obtain ⟨opts, hopts⟩ := ih fun r' hr' => hrs r' (List.mem_cons_of_mem _ hr')
      exact ⟨o :: opts, by rw [List.flatten_cons, hopts, List.flatMap_cons]⟩
  · rintro ⟨opts, rfl⟩
    refine ⟨opts.map DhOption.wire, ?_, List.flatMap_def⟩
    intro r hr
    obtain ⟨o, _, rfl⟩ := List.mem_map.mp hr
    exact o.isRecord_wire

/-- Read off the buffer: enough bytes, a server's type, and nothing left over. -/
theorem wellFormedReply_iff {m : Mem} {pkt size : Nat} :
    WellFormedReply (m.slice pkt size) ↔
      4 < size ∧ IsServerMessage (m pkt) ∧ tailOf m pkt size = [] := by
  have hdrop (h : 4 < size) : (m.slice pkt size).drop 4 = m.slice (pkt + 4) (size - 4) :=
    Mem.drop_slice m pkt (by omega)
  have hhead (h : 4 < size) : (m.slice pkt size).head? = some (m pkt) :=
    Mem.head?_slice m pkt (by omega)
  constructor
  · rintro ⟨hlong, ⟨msgType, hmem, htype⟩, opts, _, hopts⟩
    rw [Mem.length_slice] at hlong
    rw [hhead hlong, Option.mem_def, Option.some.injEq] at hmem
    rw [hdrop hlong] at hopts
    exact ⟨hlong, hmem ▸ htype, rest_eq_nil_iff_options.mpr ⟨opts, hopts⟩⟩
  · rintro ⟨hlong, htype, htail⟩
    obtain ⟨opts, hopts⟩ := rest_eq_nil_iff_options.mp htail
    refine ⟨by rwa [Mem.length_slice], ⟨m pkt, hhead hlong, htype⟩, opts, ?_, ?_⟩
    · rintro rfl
      have hlen := congrArg List.length hopts
      rw [Mem.length_slice] at hlen
      simp at hlen
      omega
    · rw [hdrop hlong, hopts]

/-- The parser succeeds on every server message longer or shorter than a bare
header, whatever comes behind the header. -/
theorem success_iff (alloc : Nat → Bool) (m : Mem) {pkt size : Nat} (hplaced : Placed pkt size) :
    ∃ s, Returns (dhParseOptions alloc m pkt size) s ∧
      (s.result.success = true ↔ size ≠ 4 ∧ IsServerMessage (m pkt)) := by
  have hstart := hplaced.start
  by_cases h : size = 4 ∨ ¬ IsServerMessage (m pkt)
  · obtain ⟨s, hret, hresult, _⟩ := dhParseOptions_refused alloc (by omega) hplaced.size_lt h
    refine ⟨s, returns_dhParseOptions (hret 0), ?_⟩
    rw [hresult]
    simp only [Bool.false_eq_true, false_iff]
    rintro ⟨h4, htype⟩
    exact h.elim h4 (fun hn => hn htype)
  · simp only [not_or, not_not] at h
    obtain ⟨s, hrun, hsuccess, _⟩ := dhParseOptions_visited alloc hplaced h.1 h.2
    exact ⟨s, returns_dhParseOptions hrun, by simp [hsuccess, h]⟩

theorem tailOf_four (m : Mem) (pkt : Nat) : tailOf m pkt 4 = [] := by
  rw [tailOf, Mem.slice_zero]
  rfl

end DhGrammarLemmas

open DhGrammarLemmas

/-- The parser's verdict is that of the grammar exactly for the packets that are
not truncated replies. -/
theorem accepts_exactly_iff (m : Mem) {pkt size : Nat} (hplaced : Placed pkt size) :
    AcceptsExactly m pkt size ↔ ¬ TruncatedReply m pkt size := by
  obtain ⟨s, hret, hsuccess⟩ := success_iff (fun _ => true) m hplaced
  rw [AcceptsExactly, hret.exists_iff, hsuccess, wellFormedReply_iff, TruncatedReply]
  by_cases htype : IsServerMessage (m pkt)
  · by_cases h4 : size = 4
    · subst h4
      simp [tailOf_four]
    · simp only [htype, h4, ne_eq, not_false_eq_true, true_and, and_true, true_iff, not_or, not_not,
        and_congr_left_iff]
      omega
  · simp [htype]

/-- A buffer in an otherwise zero memory. -/
def memOf (pkt : Nat) (bs : List UInt8) : Mem :=
  Mem.put (fun _ => 0) pkt bs

/-- An `ADVERTISE` whose only option declares nine data bytes and has two. -/
def exOverlong : List UInt8 := [2, 0, 0, 0, 0, 3, 0, 9, 1, 1]

theorem exOverlong_not_exact : ¬ AcceptsExactly (memOf 4096 exOverlong) 4096 10 := by
  rintro ⟨s, hret, hiff⟩
  have hrun : (dhParseOptions (fun _ => true) (memOf 4096 exOverlong) 4096 10 1).map
      (fun s => s.result.success) = some true := by decide +kernel
  have hsuccess : s.result.success = true := hret.map_eq returns_dhParseOptions hrun
  have hwf := wellFormedReply_iff.mp (hiff.mp hsuccess)
  have htail : tailOf (memOf 4096 exOverlong) 4096 10 ≠ [] := by decide +kernel
  exact htail hwf.2.2

/-- An `ADVERTISE` with two whole options, of two data bytes and of three. -/
def exWhole : List UInt8 := [2, 0, 0, 0, 0, 1, 0, 2, 5, 5, 0, 2, 0, 3, 7, 8, 9]

theorem exWhole_exact : AcceptsExactly (memOf 4096 exWhole) 4096 17 :=
  (accepts_exactly_iff (memOf 4096 exWhole) ⟨by decide, by decide, by decide, .inr (by decide)⟩).mpr
    (by decide +kernel)

/-! ## Bytes touched, options stored -/

/-- For the buffer of `size` bytes at `pkt`, and whichever allocations are
granted, the parser returns, touches the bytes of the packet only, and hands out
pointers to options that lie wholly inside it. -/
def StaysInside (m : Mem) (pkt size : Nat) : Prop :=
  ∀ alloc, ∃ s, Returns (dhParseOptions alloc m pkt size) s ∧
    (∀ x ∈ s.mem.touched, pkt ≤ x ∧ x < pkt + size) ∧
    ∀ p, Stored s p → pkt ≤ p ∧ p + 4 + (optionLength s.mem.mem p).toNat ≤ pkt + size

/-- The code in an option header in network order. -/
def headerCode (bs : List UInt8) : UInt16 :=
  UInt16.ofNat (beValue (bs.take 2))

/-- The remainder lacks a part of its header, or is an option that the parser
would store. -/
def BadTail (tail : List UInt8) : Prop :=
  tail ≠ [] ∧ (tail.length < 4 ∨ StoredCode (headerCode tail))

instance (tail : List UInt8) : Decidable (BadTail tail) :=
  inferInstanceAs (Decidable (_ ∧ _))

/-- The packets the parser leaves: the empty one, and a server message that ends
inside its header or has a bad remainder. Every offset is below `(size_t) -1`. -/
def LeavesPacket (m : Mem) (pkt size : Nat) : Prop :=
  size = 0 ∨ (IsServerMessage (m pkt) ∧
    (size < 4 ∨ (size ≠ sizeMax ∧ BadTail (tailOf m pkt size))))

instance (m : Mem) (pkt size : Nat) : Decidable (LeavesPacket m pkt size) :=
  inferInstanceAs (Decidable (_ ∨ _))

/-- Where the remainder lies. -/
def tailPtr (m : Mem) (pkt size : Nat) : Nat :=
  pkt + size - (tailOf m pkt size).length

/-- The whole options of a packet, each with its address. -/
def wholeOptions (m : Mem) (pkt size : Nat) : List (Nat × List UInt8) :=
  layout List.length (pkt + 4) (dhFormat.records (m.slice (pkt + 4) (size - 4)))

namespace DhGrammarLemmas

theorem wireCode_eq_headerCode (m : Mem) (p : Nat) {n : Nat} (h : 2 ≤ n) :
    wireCode m p = headerCode (m.slice p n) := by
  apply UInt16.toNat_inj.mp
  have hlt := beValue_lt (m.slice p 2)
  rw [Mem.length_slice] at hlt
  have hmod : beValue (m.slice p 2) % 2 ^ 16 = beValue (m.slice p 2) := Nat.mod_eq_of_lt hlt
  rw [headerCode, Mem.take_slice m p h, UInt16.toNat_ofNat', hmod]
  exact Mem.toNat_bswap16_load16 m p

/-- The remainder follows the whole options. -/
theorem tailPtr_eq (m : Mem) (pkt : Nat) {size : Nat} (hlong : 4 < size) :
    tailPtr m pkt size =
      pkt + 4 + (dhFormat.records (m.slice (pkt + 4) (size - 4))).flatten.length := by
  have hlen := congrArg List.length (Format.split_sound (F := dhFormat) (m.slice (pkt + 4) (size - 4)))
  rw [List.length_append, Mem.length_slice] at hlen
  simp only [tailPtr, tailOf]
  omega

/-- What the parser visits in a packet longer than its header: its whole options
and its remainder. -/
theorem visited_eq (m : Mem) (pkt : Nat) {size : Nat} (hlong : 4 < size) (hmax : size ≠ sizeMax) :
    visited m pkt size =
      (wholeOptions m pkt size).map Prod.fst ++
        (if tailOf m pkt size = [] then [] else [tailPtr m pkt size]) := by
  rw [visited, if_pos ⟨hlong, hmax⟩, Format.pieces, layout_append, List.map_append,
    tailPtr_eq m pkt hlong, List.length_flatten]
  congr 1
  by_cases hnil : dhFormat.rest (m.slice (pkt + 4) (size - 4)) = []
  · rw [if_pos hnil]
    exact (if_pos hnil).symm
  · rw [if_neg hnil]
    exact (if_neg hnil).symm

/-- A whole option is in memory at its place, between the packet's header and
its remainder, and its size is the declared one. -/
theorem wholeOptions_spec {m : Mem} {pkt size p : Nat} {r : List UInt8} (hlong : 4 < size)
    (h : (p, r) ∈ wholeOptions m pkt size) :
    m.slice p r.length = r ∧ dhFormat.IsRecord r ∧ wireSize m p = r.length ∧ pkt + 4 ≤ p ∧
      p + wireSize m p ≤ tailPtr m pkt size := by
  have hsplit := (Format.split_sound (F := dhFormat) (m.slice (pkt + 4) (size - 4))).symm
  obtain ⟨hrecs, _⟩ := Mem.slice_eq_append hsplit
  have hslice : m.slice p r.length = r :=
    slice_of_mem_layout id (by rw [hrecs, List.flatMap_id]) h
  have hr : dhFormat.IsRecord r := Format.isRecord_of_mem_records (mem_layout_snd h)
  have hsize : wireSize m p = r.length := by
    rw [← extent_slice m p hr.1, hslice, hr.2]
  obtain ⟨hlo, hhi⟩ := mem_layout_bounds h
  refine ⟨hslice, hr, hsize, hlo, ?_⟩
  rw [hsize, tailPtr_eq m pkt hlong, List.length_flatten]
  exact hhi

/-- The same bounds for the address alone. -/
theorem wholeOption_bounds {m : Mem} {pkt size p : Nat} (hlong : 4 < size)
    (h : p ∈ (wholeOptions m pkt size).map Prod.fst) :
    pkt + 4 ≤ p ∧ p + wireSize m p ≤ tailPtr m pkt size := by
  obtain ⟨⟨q, r⟩, hmem, rfl⟩ := List.mem_map.mp h
  exact (wholeOptions_spec hlong hmem).2.2.2

theorem mem_visited {m : Mem} {pkt size p : Nat} (hlong : 4 < size) (hmax : size ≠ sizeMax) :
    p ∈ visited m pkt size ↔
      p ∈ (wholeOptions m pkt size).map Prod.fst ∨
        (tailOf m pkt size ≠ [] ∧ p = tailPtr m pkt size) := by
  rw [visited_eq m pkt hlong hmax, List.mem_append]
  split
  · next hnil => simp [hnil]
  · next hne => simp [hne]

/-- The remainder in memory, when there is one. -/
theorem slice_tailPtr (m : Mem) (pkt : Nat) {size : Nat} (hlong : 4 < size) :
    pkt + 4 ≤ tailPtr m pkt size ∧
      tailPtr m pkt size + (tailOf m pkt size).length = pkt + size ∧
      m.slice (tailPtr m pkt size) (tailOf m pkt size).length = tailOf m pkt size := by
  have hsplit := Format.split_sound (F := dhFormat) (m.slice (pkt + 4) (size - 4))
  have hlen := congrArg List.length hsplit
  rw [List.length_append, Mem.length_slice] at hlen
  have hptr := tailPtr_eq m pkt hlong
  have htail := (Mem.slice_eq_append hsplit.symm).2
  refine ⟨by omega, ?_, ?_⟩
  · simp only [tailPtr, tailOf]
    omega
  · rw [hptr]
    exact htail

/-- The remainder's declared size passes the end of the packet. -/
theorem tail_overlong (m : Mem) (pkt : Nat) {size : Nat} (hlong : 4 < size) :
    pkt + size < tailPtr m pkt size + wireSize m (tailPtr m pkt size) := by
  obtain ⟨_, hend, hslice⟩ := slice_tailPtr m pkt hlong
  have hstarts : ¬ dhFormat.Starts (tailOf m pkt size) := Format.not_starts_rest _
  rw [← hslice] at hstarts
  have hover := lt_wireSize_of_not_starts hstarts
  omega

end DhGrammarLemmas

/-- A parser that stays inside a long server message finds no bad remainder in it. -/
theorem not_badTail_of_staysInside {m : Mem} {pkt size : Nat} (hplaced : Placed pkt size)
    (hlong : 4 < size) (hmax : size ≠ sizeMax) (htype : IsServerMessage (m pkt))
    (hstays : StaysInside m pkt size) : ¬ BadTail (tailOf m pkt size) := by
  rintro ⟨hne, hbad⟩
  obtain ⟨_, hend, hslice⟩ := slice_tailPtr m pkt hlong
  obtain ⟨_, hwalk, _⟩ := visited_walk m hplaced
  obtain ⟨s, hret, htouched, hstored⟩ := hstays fun _ => true
  obtain ⟨s', hrun, _, hreading⟩ :=
    dhParseOptions_visited (fun _ => true) hplaced (by omega) htype
  obtain rfl := hret.unique (returns_dhParseOptions hrun)
  -- the last byte of the remainder's header is touched, so it is in the packet
  have hlen : 4 ≤ (tailOf m pkt size).length := by
    have hmem := (mem_visited hlong hmax).mpr (.inr ⟨hne, rfl⟩)
    have hlast := (hreading.touched (tailPtr m pkt size + 3)).mpr
      (.inr ⟨tailPtr m pkt size, hmem, by omega, by omega⟩)
    have hin := (htouched _ hlast).2
    omega
  have hcode : StoredCode (headerCode (tailOf m pkt size)) := hbad.resolve_left (by omega)
  rw [← hslice, ← wireCode_eq_headerCode m (tailPtr m pkt size) (by omega)] at hcode
  rw [visited_eq m pkt hlong hmax, if_neg hne] at hreading hwalk
  have hin := (hstored _ (hreading.stored_last hcode)).2
  rw [hreading.mem, (header_swapAll hwalk.pairwise (by simp)).2] at hin
  have hover := tail_overlong m pkt hlong
  simp only [wireSize, dhOptPayloadOffset] at hover
  omega

/-- A long server message without a bad remainder keeps the parser inside. -/
theorem staysInside_of_not_badTail {m : Mem} {pkt size : Nat} (hplaced : Placed pkt size)
    (hlong : 4 < size) (hmax : size ≠ sizeMax) (htype : IsServerMessage (m pkt))
    (hgood : ¬ BadTail (tailOf m pkt size)) : StaysInside m pkt size := by
  obtain ⟨hstart, hend, hslice⟩ := slice_tailPtr m pkt hlong
  obtain ⟨_, hwalk, _⟩ := visited_walk m hplaced
  have hlen (hne : tailOf m pkt size ≠ []) : 4 ≤ (tailOf m pkt size).length :=
    Nat.le_of_not_lt fun hlt => hgood ⟨hne, .inl hlt⟩
  intro alloc
  obtain ⟨s, hrun, _, hreading⟩ := dhParseOptions_visited alloc hplaced (by omega) htype
  refine ⟨s, returns_dhParseOptions hrun, ?_, ?_⟩
  · intro x hx
    rcases (hreading.touched x).mp hx with rfl | ⟨p, hp, hlo, hhi⟩
    · omega
    · rcases (mem_visited hlong hmax).mp hp with hp | ⟨hne, rfl⟩
      · obtain ⟨hp1, hp2⟩ := wholeOption_bounds hlong hp
        have h4 := four_le_wireSize m p
        omega
      · have h4 := hlen hne
        omega
  · intro p hp
    obtain ⟨hmem, hcode⟩ := hreading.stored hp
    rw [hreading.mem, (header_swapAll hwalk.pairwise hmem).2]
    rcases (mem_visited hlong hmax).mp hmem with hmem | ⟨hne, rfl⟩
    · obtain ⟨hp1, hp2⟩ := wholeOption_bounds hlong hmem
      simp only [wireSize, dhOptPayloadOffset] at hp2
      omega
    · have h4 := hlen hne
      rw [wireCode_eq_headerCode m _ (n := (tailOf m pkt size).length) (by omega), hslice] at hcode
      exact absurd ⟨hne, .inr hcode⟩ hgood

/-- The parser stays inside a long server message exactly when its remainder is
not a bad one. -/
theorem staysInside_long_iff {m : Mem} {pkt size : Nat} (hplaced : Placed pkt size)
    (hlong : 4 < size) (hmax : size ≠ sizeMax) (htype : IsServerMessage (m pkt)) :
    StaysInside m pkt size ↔ ¬ BadTail (tailOf m pkt size) :=
  ⟨not_badTail_of_staysInside hplaced hlong hmax htype,
    staysInside_of_not_badTail hplaced hlong hmax htype⟩

/-- A refused packet is looked at in its first byte, if at all. -/
theorem staysInside_refused_iff {m : Mem} {pkt size : Nat} (hplaced : Placed pkt size)
    (h : size = 4 ∨ ¬ IsServerMessage (m pkt)) : StaysInside m pkt size ↔ size ≠ 0 := by
  have hstart := hplaced.start
  constructor
  · rintro hstays rfl
    obtain ⟨s, hret, htouched, _⟩ := hstays fun _ => true
    obtain ⟨s', hret', _, _, _, htouched'⟩ :=
      dhParseOptions_refused (fun _ => true) (by omega) hplaced.size_lt h
    obtain rfl := hret.unique (returns_dhParseOptions (hret' 0))
    have hin := htouched pkt ((htouched' pkt).mpr ⟨rfl, by decide⟩)
    omega
  · intro hsize alloc
    obtain ⟨s, hret, hresult, hheap, _, htouched⟩ :=
      dhParseOptions_refused alloc (by omega) hplaced.size_lt h
    refine ⟨s, returns_dhParseOptions (hret 0), ?_, ?_⟩
    · intro x hx
      obtain ⟨rfl, _⟩ := (htouched x).mp hx
      omega
    · intro p hp
      simp [Stored, ReaderState.iaPds, hresult, hheap, Chain.toList, Chain.toListFrom] at hp

/-- In a server message shorter than a header, and for the error size, the
parser reads one header behind the packet's. -/
theorem visited_short {m : Mem} {pkt size : Nat} (h : ¬ (4 < size ∧ size ≠ sizeMax)) :
    visited m pkt size = [pkt + 4] :=
  if_neg h

/-- A server message cut inside its own header sends the parser past its end. -/
theorem not_staysInside_short {m : Mem} {pkt size : Nat} (hplaced : Placed pkt size)
    (hshort : size < 4) (htype : IsServerMessage (m pkt)) : ¬ StaysInside m pkt size := by
  intro hstays
  obtain ⟨s, hret, htouched, _⟩ := hstays fun _ => true
  obtain ⟨s', hrun, _, hreading⟩ :=
    dhParseOptions_visited (fun _ => true) hplaced (by omega) htype
  obtain rfl := hret.unique (returns_dhParseOptions hrun)
  rw [visited_short (by omega)] at hreading
  have hin := htouched (pkt + 4) ((hreading.touched _).mpr (.inr ⟨pkt + 4, by simp⟩))
  omega

/-- No offset is past the end of a packet of `(size_t) -1` bytes. -/
theorem staysInside_sizeMax {m : Mem} {pkt : Nat} (hplaced : Placed pkt sizeMax)
    (htype : IsServerMessage (m pkt)) : StaysInside m pkt sizeMax := by
  intro alloc
  obtain ⟨s, hrun, _, hreading⟩ :=
    dhParseOptions_visited alloc hplaced (by decide) htype
  rw [visited_short (by simp)] at hreading
  refine ⟨s, returns_dhParseOptions hrun, ?_, ?_⟩
  · intro x hx
    rw [hreading.touched] at hx
    simp only [List.mem_singleton, exists_eq_left, sizeMax] at hx ⊢
    omega
  · intro p hp
    obtain rfl := List.mem_singleton.mp (hreading.stored hp).1
    have hlt := (optionLength s.mem.mem (pkt + 4)).toNat_lt
    simp only [sizeMax]
    omega

/-- The parser stays inside the packet exactly when it is none of those it leaves. -/
theorem stays_inside_iff (m : Mem) {pkt size : Nat} (hplaced : Placed pkt size) :
    StaysInside m pkt size ↔ ¬ LeavesPacket m pkt size := by
  rw [LeavesPacket]
  by_cases htype : IsServerMessage (m pkt)
  · by_cases h4 : size = 4
    · rw [staysInside_refused_iff hplaced (.inl h4), h4]
      simp [BadTail, tailOf_four]
    by_cases hlong : 4 < size
    · by_cases hmax : size = sizeMax
      · subst hmax
        exact iff_of_true (staysInside_sizeMax hplaced htype) (by simp [sizeMax])
      · rw [staysInside_long_iff hplaced hlong hmax htype]
        have hnot : ¬ size < 4 := by omega
        have hpos : size ≠ 0 := by omega
        simp [htype, hmax, hnot, hpos]
    · have hshort : size < 4 := by omega
      exact iff_of_false (not_staysInside_short hplaced hshort htype) (by simp [htype, hshort])
  · rw [staysInside_refused_iff hplaced (.inr htype)]
    simp [htype]

/-- An `ADVERTISE` whose client identifier declares nine data bytes and has two. -/
def exOverlongId : List UInt8 := [2, 0, 0, 0, 0, 1, 0, 9, 0, 2]

theorem exOverlongId_leaves : ¬ StaysInside (memOf 4096 exOverlongId) 4096 10 := by
  intro hstays
  obtain ⟨s, hret, _, hstored⟩ := hstays fun _ => true
  have hrun : (dhParseOptions (fun _ => true) (memOf 4096 exOverlongId) 4096 10 1).map
      (fun s => (s.result.clientIdentifier, optionLength s.mem.mem 4100)) =
        some (some 4100, 9) := by decide +kernel
  have hend := hret.map_eq returns_dhParseOptions hrun
  obtain ⟨hclient, hlength⟩ := Prod.mk.inj hend
  have hin := (hstored 4100 (.inl hclient)).2
  rw [hlength] at hin
  exact absurd hin (by decide)

theorem exWhole_staysInside : StaysInside (memOf 4096 exWhole) 4096 17 :=
  (stays_inside_iff (memOf 4096 exWhole) ⟨by decide, by decide, by decide, .inr (by decide)⟩).mpr
    (by decide +kernel)

end Pdrad
