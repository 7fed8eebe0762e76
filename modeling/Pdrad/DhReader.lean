import Pdrad.DhPackets

/-!
# What `dh_parseOptions` does

The parser is described by the list of addresses at which it reads option
headers (`Walk`), found by adding up the declared sizes in the packet as it was
received. Everything else follows from that list.

1. `Reading`: the parser's state after the options at the addresses `ps`; the
   loop invariant. `parseOption_reading` is one pass of the loop.
2. `parseLoop_spec`: the loop visits the walk, in one pass for each address.
3. `dhParseOptions_eq`: so does the parser, and it then reports success.
4. `walk_pieces`, `walk_past`: the walk of every packet.
5. `parseOptions_terminates`: how many passes are enough.
-/

namespace Pdrad

open DhOptPayload

/-! ## Headers as received -/

/-- The code of the option at `p`, read from a packet in network order. -/
def wireCode (m : Mem) (p : Nat) : UInt16 := be16toh (optionCode m p)

/-- The declared size of the option at `p`, header included. -/
def wireSize (m : Mem) (p : Nat) : Nat := (be16toh (optionLength m p)).toNat + dhOptPayloadOffset

/-- Swap the headers at all the given addresses. -/
def swapAll (m : Mem) (ps : List Nat) : Mem := ps.foldl swapHeader m

/-- The items whose allocation is granted, the first of them being the `k`-th asked for. -/
def granted {α : Type} (alloc : Nat → Bool) : Nat → List α → List α
  | _, [] => []
  | k, p :: ps => if alloc k then p :: granted alloc (k + 1) ps else granted alloc (k + 1) ps

/-- The addresses among `ps` that hold an option with the code `c`. -/
def withCode (m : Mem) (c : DhOptions) (ps : List Nat) : List Nat :=
  ps.filter fun p => wireCode m p = c.code

/-- `ps` are the addresses of the headers met from the first one on: each option
ends where the next one starts, before `stop`, and the last one reaches `stop`. -/
def Walk (m : Mem) (stop : Nat) : List Nat → Prop
  | [] => False
  | [p] => stop ≤ p + wireSize m p
  | p :: q :: ps => q = p + wireSize m p ∧ q < stop ∧ Walk m stop (q :: ps)

/-- The state after the options at `ps`, for a parser that started on `m`. -/
structure Reading (alloc : Nat → Bool) (m : Mem) (pkt : Nat) (ps : List Nat) (s : ReaderState) :
    Prop where
  mem : s.mem.mem = swapAll m ps
  touched : ∀ x, x ∈ s.mem.touched ↔ x = pkt ∨ ∃ p ∈ ps, p ≤ x ∧ x < p + 4
  client : s.result.clientIdentifier = (withCode m .clientId ps).getLast?
  server : s.result.serverIdentifier = (withCode m .serverId ps).getLast?
  elapsed : s.result.elapsedTime = none
  list : Chain.Holds s.heap s.result.iaPdList (granted alloc 0 (withCode m .iaPd ps))
  allocs : s.allocs = (withCode m .iaPd ps).length

namespace DhReaderLemmas

@[simp] theorem swapAll_append (m : Mem) (ps qs : List Nat) :
    swapAll m (ps ++ qs) = swapAll (swapAll m ps) qs := by
  simp [swapAll]

/-- Swapping headers leaves what lies apart from all of them alone. -/
theorem slice_swapAll {m : Mem} {ps : List Nat} {a n : Nat} (h : ∀ p ∈ ps, Apart p 4 a n) :
    (swapAll m ps).slice a n = m.slice a n := by
  induction ps generalizing m with
  | nil => rfl
  | cons p ps ih =>
    have hp := swapHeader_of_apart (m := m) (h p List.mem_cons_self)
    have hrest := ih (m := swapHeader m p) fun q hq => h q (List.mem_cons_of_mem p hq)
    exact hrest.trans hp

section

variable {α β : Type}

theorem granted_append (alloc : Nat → Bool) (k : Nat) (ps qs : List α) :
    granted alloc k (ps ++ qs) = granted alloc k ps ++ granted alloc (k + ps.length) qs := by
  induction ps generalizing k with
  | nil => rfl
  | cons q ps ih =>
    have hk : k + 1 + ps.length = k + (ps.length + 1) := by omega
    simp only [List.cons_append, granted, ih, List.length_cons, hk]
    split <;> rfl

theorem granted_all (k : Nat) (ps : List α) : granted (fun _ => true) k ps = ps := by
  induction ps generalizing k with
  | nil => rfl
  | cons p ps ih => simp [granted, ih]

theorem granted_map (alloc : Nat → Bool) (k : Nat) (f : α → β) (ps : List α) :
    granted alloc k (ps.map f) = (granted alloc k ps).map f := by
  induction ps generalizing k with
  | nil => rfl
  | cons p ps ih =>
    simp only [List.map_cons, granted, ih]
    split <;> rfl

theorem granted_sublist (alloc : Nat → Bool) (k : Nat) (ps : List α) :
    (granted alloc k ps).Sublist ps := by
  induction ps generalizing k with
  | nil => exact List.Sublist.refl []
  | cons p ps ih =>
    rw [granted]
    split
    · exact (ih (k + 1)).cons_cons p
    · exact (ih (k + 1)).cons p

theorem granted_eq_self_iff (alloc : Nat → Bool) (k : Nat) (ps : List α) :
    granted alloc k ps = ps ↔ ∀ i < ps.length, alloc (k + i) = true := by
  induction ps generalizing k with
  | nil => simp [granted]
  | cons p ps ih =>
    rw [granted, List.length_cons, Nat.forall_lt_succ_left']
    by_cases hfirst : alloc k = true
    · rw [if_pos hfirst, List.cons_inj_right, ih]
      simp only [Nat.add_zero, hfirst, true_and, Nat.add_assoc, Nat.add_comm 1]
    -- without the first item too little is left
    · have hshort := (granted_sublist alloc (k + 1) ps).length_le
      rw [if_neg hfirst]
      refine iff_of_false (fun heq => ?_) fun hall => hfirst hall.1
      rw [heq, List.length_cons] at hshort
      exact Nat.not_succ_le_self _ hshort

end

theorem withCode_append (m : Mem) (c : DhOptions) (ps : List Nat) (p : Nat) :
    withCode m c (ps ++ [p]) = withCode m c ps ++ if wireCode m p = c.code then [p] else [] := by
  simp [withCode, List.filter_cons]

theorem decodeHeader_spec (t : Tracked) (p : Nat) :
    ∃ t', decodeHeader t p = (wireCode t.mem p, be16toh (optionLength t.mem p), t') ∧
      t'.mem = swapHeader t.mem p ∧
      ∀ x, x ∈ t'.touched ↔ (p ≤ x ∧ x < p + 4) ∨ x ∈ t.touched := by
  refine ⟨(decodeHeader t p).2.2, ?_, rfl, ?_⟩
  · rw [wireCode, be16toh, be16toh, ← optionCode_swapHeader, ← optionLength_swapHeader]
    rfl
  · intro x
    simp only [decodeHeader, Tracked.read16, Tracked.write16, Tracked.mem_touched_touch]
    by_cases hx : x ∈ t.touched
    · simp [hx]
    · simp only [hx, or_false]
      omega

/-- Two memories with the same header bytes at `p` have the same header there. -/
theorem wire_congr {m m' : Mem} {p : Nat} (h : m'.slice p 4 = m.slice p 4) :
    wireCode m' p = wireCode m p ∧ optionLength m' p = optionLength m p := by
  rw [show 4 = 2 + 2 from rfl, Mem.slice_add, Mem.slice_add] at h
  obtain ⟨hcode, hlength⟩ := List.append_inj h (by simp)
  have hc : optionCode m' p = optionCode m p := Mem.load16_eq_of_slice hcode
  have hl : optionLength m' p = optionLength m p := Mem.load16_eq_of_slice hlength
  exact ⟨by rw [wireCode, wireCode, hc], hl⟩

theorem four_le_wireSize (m : Mem) (p : Nat) : 4 ≤ wireSize m p :=
  Nat.le_add_left dhOptPayloadOffset _

theorem wireSize_le (m : Mem) (p : Nat) : wireSize m p ≤ 65539 := by
  have h := (be16toh (optionLength m p)).toNat_lt
  simp only [wireSize, dhOptPayloadOffset]
  omega

end DhReaderLemmas

open DhReaderLemmas

/-! ## One pass -/

/-- The option is appended when its node is granted, and the rest stays. -/
theorem appendIAPD_spec (alloc : Nat → Bool) {xs : List Nat} (s : ReaderState) (p : Nat)
    (h : Chain.Holds s.heap s.result.iaPdList xs) :
    ∃ heap list, appendIAPD alloc p s =
        some { s with
          heap := heap
          result := { s.result with success := false, iaPdList := list }
          allocs := s.allocs + 1 } ∧
      Chain.Holds heap list (xs ++ granted alloc s.allocs [p]) := by
  unfold appendIAPD
  cases ha : alloc s.allocs with
  | false =>
    refine ⟨s.heap, s.result.iaPdList, rfl, ?_⟩
    simpa [granted, ha] using h
  | true =>
    obtain ⟨heap, list, happ, hholds⟩ := Chain.append_spec h p
    refine ⟨heap, list, ?_, ?_⟩
    · simp only [if_true, happ, Option.map_some]
    · simpa [granted, ha] using hholds

/-- The switch records the option at `p` in the result. -/
theorem dispatch_reading {alloc : Nat → Bool} {m : Mem} {pkt p : Nat} {ps : List Nat}
    {s : ReaderState} {t : Tracked} (h : Reading alloc m pkt ps s)
    (hmem : t.mem = swapAll m (ps ++ [p]))
    (htouched : ∀ x, x ∈ t.touched ↔ (p ≤ x ∧ x < p + 4) ∨ x ∈ s.mem.touched) :
    ∃ s', dispatch alloc (wireCode m p) p { s with mem := t } = some s' ∧
      Reading alloc m pkt (ps ++ [p]) s' ∧ s'.readerPtr = s.readerPtr ∧
      s'.unreadDataLength = s.unreadDataLength := by
  have htouched' : ∀ x, x ∈ t.touched ↔ x = pkt ∨ ∃ q ∈ ps ++ [p], q ≤ x ∧ x < q + 4 := by
    intro x
    rw [htouched, h.touched]
    simp only [List.mem_append, List.mem_singleton, or_and_right, exists_or, exists_eq_left]
    exact or_rotate
  unfold dispatch
  by_cases hc : wireCode m p = DhOptions.clientId.code
  · rw [if_pos hc]
    refine ⟨_, rfl, ⟨hmem, htouched', ?_, ?_, h.elapsed, ?_, ?_⟩, rfl, rfl⟩
    all_goals simp [withCode_append, hc, DhOptions.code, h.server, h.allocs, h.list]
  by_cases hs : wireCode m p = DhOptions.serverId.code
  · rw [if_neg hc, if_pos hs]
    refine ⟨_, rfl, ⟨hmem, htouched', ?_, ?_, h.elapsed, ?_, ?_⟩, rfl, rfl⟩
    all_goals simp [withCode_append, hs, DhOptions.code, h.client, h.allocs, h.list]
  by_cases hi : wireCode m p = DhOptions.iaPd.code
  · rw [if_neg hc, if_neg hs, if_pos hi]
    have hclient : withCode m .clientId (ps ++ [p]) = withCode m .clientId ps := by
      rw [withCode_append, if_neg hc, List.append_nil]
    have hserver : withCode m .serverId (ps ++ [p]) = withCode m .serverId ps := by
      rw [withCode_append, if_neg hs, List.append_nil]
    have hiapd : withCode m .iaPd (ps ++ [p]) = withCode m .iaPd ps ++ [p] := by
      rw [withCode_append, if_pos hi]
    have hgranted := granted_append alloc 0 (withCode m .iaPd ps) [p]
    rw [Nat.zero_add, ← h.allocs] at hgranted
    obtain ⟨heap, list, happ, hholds⟩ := appendIAPD_spec alloc { s with mem := t } p h.list
    refine ⟨_, happ, ⟨hmem, htouched', ?_, ?_, h.elapsed, ?_, ?_⟩, rfl, rfl⟩
    · rw [hclient]
      exact h.client
    · rw [hserver]
      exact h.server
    · rw [hiapd, hgranted]
      exact hholds
    · simp [hiapd, h.allocs]
  · rw [if_neg hc, if_neg hs, if_neg hi]
    refine ⟨_, rfl, ⟨hmem, htouched', ?_, ?_, h.elapsed, ?_, ?_⟩, rfl, rfl⟩
    all_goals simp [withCode_append, hc, hs, hi, h.client, h.server, h.allocs, h.list]

/-- One pass of the loop handles the option at the reader and then moves on. -/
theorem parseOption_reading (size : Nat) {alloc : Nat → Bool} {m : Mem} {pkt p : Nat} {ps : List Nat}
    {s : ReaderState} (h : Reading alloc m pkt ps s) (hp : s.readerPtr = p)
    (hsep : ∀ q ∈ ps, q + 4 ≤ p) :
    ∃ s', parseOption alloc pkt size s = some (moveOn pkt size (wireSize m p) s') ∧
      Reading alloc m pkt (ps ++ [p]) s' ∧ s'.readerPtr = p ∧
      s'.unreadDataLength = s.unreadDataLength := by
  subst hp
  obtain ⟨t, hdecode, hmem, htouched⟩ := decodeHeader_spec s.mem s.readerPtr
  -- the headers swapped so far end before this one starts
  have hsame : s.mem.mem.slice s.readerPtr 4 = m.slice s.readerPtr 4 := by
    rw [h.mem]
    exact slice_swapAll fun q hq => .inl (hsep q hq)
  obtain ⟨hcode, hlength⟩ := wire_congr hsame
  rw [hcode, hlength] at hdecode
  have hmem' : t.mem = swapAll m (ps ++ [s.readerPtr]) := by
    rw [hmem, h.mem, swapAll_append]
    rfl
  obtain ⟨s', hdispatch, hreading, hptr, hunread⟩ := dispatch_reading h hmem' htouched
  refine ⟨s', ?_, hreading, hptr, hunread⟩
  simp only [parseOption, hdecode, hdispatch, Option.map_some]
  rfl

/-- `moveOn` does not touch what `Reading` speaks of. -/
theorem Reading.moved {alloc : Nat → Bool} {m : Mem} {pkt : Nat} {ps : List Nat} {s : ReaderState}
    (h : Reading alloc m pkt ps s) (unread ptr : Nat) :
    Reading alloc m pkt ps { s with unreadDataLength := unread, readerPtr := ptr } :=
  ⟨h.mem, h.touched, h.client, h.server, h.elapsed, h.list, h.allocs⟩

/-- The unread count and the pointer check together let the loop go on exactly
while the next option starts before the end of the packet. -/
theorem moveOn_eq {pkt size stop n : Nat} {s : ReaderState} (hstop : stop = sizeAdd pkt size)
    (hunread : s.unreadDataLength = sizeSub stop s.readerPtr) (hfit : s.readerPtr + n < 2 ^ 64) :
    (s.readerPtr + n < stop → moveOn pkt size n s = .again { s with
      unreadDataLength := sizeSub stop (s.readerPtr + n), readerPtr := s.readerPtr + n }) ∧
    (stop ≤ s.readerPtr + n → ∃ ptr, moveOn pkt size n s = .stop { s with
      unreadDataLength := sizeSub stop (s.readerPtr + n), readerPtr := ptr }) := by
  have hlt : stop < 2 ^ 64 := hstop ▸ sizeAdd_lt pkt size
  have hzero : sizeSub stop (s.readerPtr + n) = 0 ↔ stop = s.readerPtr + n :=
    sizeSub_eq_zero_iff hlt hfit
  simp only [moveOn, hunread, ← hstop, sizeSub_sizeSub hfit, sizeAdd_of_lt hfit, Nat.le_zero, hzero]
  constructor
  · intro h
    rw [if_neg (by omega), if_neg (by omega)]
  · intro h
    by_cases heq : stop = s.readerPtr + n
    · exact ⟨s.readerPtr, by rw [if_pos heq]⟩
    · exact ⟨s.readerPtr + n, by rw [if_neg heq, if_pos (by omega)]⟩

/-! ## The loop -/

/-- Before the option at the head of `qs`, with those at `ps` done. -/
structure ParserAt (alloc : Nat → Bool) (m : Mem) (pkt stop : Nat) (ps qs : List Nat)
    (s : ReaderState) : Prop where
  reading : Reading alloc m pkt ps s
  walk : Walk m stop qs
  fits : ∀ q ∈ qs, q + wireSize m q < 2 ^ 64
  reader : qs.head? = some s.readerPtr
  unread : s.unreadDataLength = sizeSub stop s.readerPtr
  behind : ∀ p ∈ ps, p + 4 ≤ s.readerPtr

/-- The loop visits the addresses of its walk, one in each pass. -/
theorem parseLoop_spec {alloc : Nat → Bool} {m : Mem} {pkt size stop : Nat} {qs : List Nat}
    {s : ReaderState} (hstop : stop = sizeAdd pkt size)
    (h : ParserAt alloc m pkt stop [] qs s) :
    ∃ s', loop (parseOption alloc pkt size) qs.length s = some s' ∧
      Reading alloc m pkt qs s' := by
  have hne : qs ≠ [] := by
    rintro rfl
    exact h.walk
  refine loop_over (ParserAt alloc m pkt stop) (Reading alloc m pkt) ?_ ?_ qs [] s hne h
  · intro ps p q qs s h
    obtain rfl : p = s.readerPtr := Option.some.inj h.reader
    obtain ⟨hq, hlt, hwalk⟩ := h.walk
    obtain ⟨s', hpass, hreading, hptr, hunread⟩ := parseOption_reading size h.reading rfl h.behind
    have hfit := h.fits s.readerPtr List.mem_cons_self
    have hmove := (moveOn_eq (s := s') hstop (by rw [hunread, h.unread, hptr])
      (by rw [hptr]; exact hfit)).1 (by rw [hptr, ← hq]; exact hlt)
    refine ⟨_, by rw [hpass, hmove], ?_⟩
    have h4 := four_le_wireSize m s.readerPtr
    refine ⟨hreading.moved _ _, hwalk, fun q' hq' => h.fits q' (List.mem_cons_of_mem _ hq'), ?_, rfl, ?_⟩
    · simp [hptr, hq]
    · intro p' hp'
      simp only [hptr]
      rcases List.mem_append.mp hp' with hp' | hp'
      · have hb := h.behind p' hp'
        omega
      · obtain rfl := List.mem_singleton.mp hp'
        omega
  · intro ps p s h
    obtain rfl : p = s.readerPtr := Option.some.inj h.reader
    have hend : stop ≤ s.readerPtr + wireSize m s.readerPtr := h.walk
    obtain ⟨s', hpass, hreading, hptr, hunread⟩ := parseOption_reading size h.reading rfl h.behind
    have hfit := h.fits s.readerPtr List.mem_cons_self
    obtain ⟨ptr, hmove⟩ := (moveOn_eq (s := s') hstop (by rw [hunread, h.unread, hptr])
      (by rw [hptr]; exact hfit)).2 (by rw [hptr]; exact hend)
    exact ⟨_, by rw [hpass, hmove], hreading.moved _ _⟩

/-! ## The parser -/

/-- The message types the parser goes on with. -/
def IsServerMessage (msgType : UInt8) : Prop :=
  msgType = DhMsgType.advertise.code ∨ msgType = DhMsgType.reply.code

instance (msgType : UInt8) : Decidable (IsServerMessage msgType) :=
  inferInstanceAs (Decidable (_ ∨ _))

/-- An object of `size` bytes at `pkt` lies inside the address space, and so do
the `2 ^ 17` bytes behind it. A size of `(size_t) -1` is an error code, not the
size of an object. -/
structure Placed (pkt size : Nat) : Prop where
  notNull : 0 < pkt
  size_lt : size < 2 ^ 64
  start : pkt + 2 ^ 17 < 2 ^ 64
  stop : size = sizeMax ∨ pkt + size + 2 ^ 17 < 2 ^ 64

theorem dhParseOptions_mono {alloc : Nat → Bool} {m : Mem} {pkt size n k : Nat} {s : ReaderState}
    (hnk : n ≤ k) (h : dhParseOptions alloc m pkt size n = some s) :
    dhParseOptions alloc m pkt size k = some s := by
  simp only [dhParseOptions] at h ⊢
  split
  · next hempty => rwa [if_pos hempty] at h
  · next hempty =>
    rw [if_neg hempty] at h
    split
    · next htype => rwa [if_pos htype] at h
    · next htype =>
      rw [if_neg htype] at h
      obtain ⟨t, hloop, ht⟩ := Option.map_eq_some_iff.mp h
      rw [loop_mono hnk hloop, Option.map_some, ht]

theorem returns_dhParseOptions {alloc : Nat → Bool} {m : Mem} {pkt size n : Nat} {s : ReaderState}
    (h : dhParseOptions alloc m pkt size n = some s) :
    Returns (dhParseOptions alloc m pkt size) s :=
  ⟨n, fun _ hk => dhParseOptions_mono hk h⟩

/-- The first test: nothing is unread exactly in a packet of four bytes. -/
theorem readerInit_spec (m : Mem) {pkt size : Nat} (hpkt : pkt + 4 < 2 ^ 64)
    (hsize : size < 2 ^ 64) :
    ((readerInit m pkt size).unreadDataLength ≤ 0 ↔ size = 4) ∧
      (readerInit m pkt size).readerPtr ≠ 0 := by
  constructor
  · rw [Nat.le_zero]
    exact sizeSub_eq_zero_iff hsize (by decide)
  · show sizeAdd pkt 4 ≠ 0
    rw [sizeAdd_of_lt hpkt]
    omega

/-- A packet that ends with its header, or is no server message, is refused
before any option is looked at. -/
theorem dhParseOptions_refused (alloc : Nat → Bool) {m : Mem} {pkt size : Nat}
    (hpkt : pkt + 4 < 2 ^ 64) (hsize : size < 2 ^ 64)
    (h : size = 4 ∨ ¬ IsServerMessage (m pkt)) :
    ∃ s, (∀ fuel, dhParseOptions alloc m pkt size fuel = some s) ∧
      s.result = ⟨false, none, none, none, none⟩ ∧ s.heap = [] ∧ s.mem.mem = m ∧
      ∀ x, x ∈ s.mem.touched ↔ x = pkt ∧ size ≠ 4 := by
  obtain ⟨hunread, hreader⟩ := readerInit_spec m hpkt hsize
  by_cases h4 : size = 4
  · refine ⟨readerInit m pkt size, fun fuel => ?_, rfl, rfl, rfl, fun x => ?_⟩
    · simp only [dhParseOptions]
      rw [if_pos (.inl (hunread.mpr h4))]
    · simp [readerInit, h4]
  · have htype := h.resolve_left h4
    simp only [IsServerMessage, not_or] at htype
    refine ⟨{ readerInit m pkt size with mem := (Tracked.mk m []).touch pkt 1 },
      fun fuel => ?_, rfl, rfl, rfl, fun x => ?_⟩
    · simp only [dhParseOptions]
      rw [if_neg (not_or.mpr ⟨mt hunread.mp h4, hreader⟩)]
      exact if_pos htype
    · simp [Tracked.touch, h4]

/-- A server message of any other size is read along its walk, whatever the
packet holds, and the parse succeeds. -/
theorem dhParseOptions_eq (alloc : Nat → Bool) {m : Mem} {pkt size : Nat} {ps : List Nat}
    (hpkt : pkt + 4 < 2 ^ 64) (hsize : size < 2 ^ 64) (h4 : size ≠ 4)
    (htype : IsServerMessage (m pkt)) (hhead : ps.head? = some (pkt + 4))
    (hwalk : Walk m (sizeAdd pkt size) ps) (hfits : ∀ p ∈ ps, p + wireSize m p < 2 ^ 64) :
    ∃ s, dhParseOptions alloc m pkt size ps.length = some s ∧ s.result.success = true ∧
      Reading alloc m pkt ps s := by
  obtain ⟨hunread, hreader⟩ := readerInit_spec m hpkt hsize
  have hstart : ParserAt alloc m pkt (sizeAdd pkt size) [] ps
      { readerInit m pkt size with mem := (Tracked.mk m []).touch pkt 1 } := by
    have hptr : sizeAdd pkt dhPktOffset = pkt + 4 := sizeAdd_of_lt hpkt
    refine ⟨⟨rfl, ?_, rfl, rfl, rfl, Chain.holds_nil [], rfl⟩, hwalk, hfits, ?_, ?_, by simp⟩
    · intro x
      simp [Tracked.touch]
    · rw [hhead, ← hptr]
      rfl
    · show sizeSub size dhPktOffset = sizeSub (sizeAdd pkt size) (sizeAdd pkt dhPktOffset)
      rw [hptr]
      exact (sizeSub_sizeAdd hpkt).symm
  obtain ⟨s, hloop, hreading⟩ := parseLoop_spec rfl hstart
  refine ⟨{ s with result := { s.result with success := true } }, ?_, rfl,
    ⟨hreading.mem, hreading.touched, hreading.client, hreading.server, hreading.elapsed,
      hreading.list, hreading.allocs⟩⟩
  have htype' : ¬ (m pkt ≠ DhMsgType.advertise.code ∧ m pkt ≠ DhMsgType.reply.code) := by
    rintro ⟨ha, hr⟩
    exact htype.elim ha hr
  simp only [dhParseOptions]
  rw [if_neg (not_or.mpr ⟨mt hunread.mp h4, hreader⟩)]
  refine (if_neg htype').trans ?_
  rw [show (readerInit m pkt size).mem.read8 pkt = (m pkt, (Tracked.mk m []).touch pkt 1) from rfl,
    hloop, Option.map_some]

/-! ## The walk of a packet -/

/-- With its header inside, an option's declared size is the extent of its record. -/
theorem extent_slice (m : Mem) (a : Nat) {n : Nat} (h : 4 ≤ n) :
    dhFormat.extent (m.slice a n) = wireSize m a := by
  show beValue (((m.slice a n).drop 2).take 2) + _ = _
  rw [Mem.drop_slice m a (by omega), Mem.take_slice m (a + 2) (by omega)]
  rw [wireSize, optionLength, be16toh, Mem.toNat_bswap16_load16]

/-- Bytes that no whole option starts end before the size declared there. -/
theorem lt_wireSize_of_not_starts {m : Mem} {a n : Nat} (h : ¬ dhFormat.Starts (m.slice a n)) :
    n < wireSize m a := by
  have h4 := four_le_wireSize m a
  by_contra hle
  have hext := extent_slice m a (n := n) (by omega)
  refine h ⟨?_, ?_, ?_⟩
  · rw [Mem.length_slice]
    exact Nat.le_trans h4 (Nat.le_of_not_lt hle)
  · rw [hext]
    exact h4
  · rw [hext, Mem.length_slice]
    exact Nat.le_of_not_lt hle

/-- An option that starts a slice has the size declared there. -/
theorem wireSize_of_isRecord {m : Mem} {a n : Nat} {r rest : List UInt8} (hr : dhFormat.IsRecord r)
    (hm : m.slice a n = r ++ rest) : wireSize m a = r.length := by
  have h4 : 4 ≤ r.length := hr.1
  have hlen := congrArg List.length hm
  rw [Mem.length_slice, List.length_append] at hlen
  rw [← extent_slice m a (n := n) (by omega), hm, hr.extent_append]

/-- The walk ends with an option that reaches the end. -/
theorem walk_last {m : Mem} {stop p : Nat} (h : stop ≤ p + wireSize m p) : Walk m stop [p] := h

/-- Past the end, the walk is one header long. -/
theorem walk_past {m : Mem} {stop p : Nat} (h : stop ≤ p + 4) : Walk m stop [p] := by
  have h4 := four_le_wireSize m p
  exact walk_last (by omega)

/-- Through whole options and a remainder, the walk visits the start of each. -/
theorem walk_pieces {m : Mem} {a n : Nat} {rs : List (List UInt8)} {tail : List UInt8}
    (hrs : ∀ r ∈ rs, dhFormat.IsRecord r) (htail : ¬ dhFormat.Starts tail)
    (hm : m.slice a n = rs.flatten ++ tail) (hn : 0 < n) :
    Walk m (a + n) ((layout List.length a (rs ++ if tail = [] then [] else [tail])).map Prod.fst) := by
  have hlen : n = (rs.flatten ++ tail).length := by
    rw [← hm, Mem.length_slice]
  induction rs generalizing a n with
  | nil =>
    have hne : tail ≠ [] := by
      rintro rfl
      simp at hlen
      omega
    have htl : m.slice a n = tail := by simpa using hm
    rw [← htl] at htail
    have hover := lt_wireSize_of_not_starts htail
    simp only [hne, if_false, List.nil_append, layout, List.map_cons, List.map_nil]
    exact walk_last (by omega)
  | cons r rs ih =>
    have hrest : ∀ r ∈ rs, dhFormat.IsRecord r := fun r' hr' => hrs r' (List.mem_cons_of_mem r hr')
    rw [List.flatten_cons, List.append_assoc] at hm hlen
    have hsize := wireSize_of_isRecord (hrs r List.mem_cons_self) hm
    obtain ⟨_, htl⟩ := Mem.slice_eq_append hm
    rw [List.length_append] at hlen
    cases hps : rs ++ (if tail = [] then [] else [tail]) with
    | nil =>
      obtain ⟨rfl, htnil⟩ := List.append_eq_nil_iff.mp hps
      have htail0 : tail = [] := by
        by_contra hne
        rw [if_neg hne] at htnil
        exact List.cons_ne_nil _ _ htnil
      subst htail0
      simp only [List.flatten_nil, List.append_nil, List.length_nil] at hlen
      simp only [List.cons_append, List.nil_append, if_true, layout, List.map_cons, List.map_nil]
      exact walk_last (by omega)
    | cons q qs =>
      have hpos : 0 < (rs.flatten ++ tail).length :=
        Format.length_pos_of_pieces hrest (by rw [hps]; exact List.cons_ne_nil q qs)
      have hwalk := ih hrest htl hpos rfl
      have hstop : a + r.length + (rs.flatten ++ tail).length = a + n := by omega
      rw [hps, hstop] at hwalk
      simp only [List.cons_append, hps, layout, List.map_cons] at hwalk ⊢
      exact ⟨by rw [hsize], by omega, hwalk⟩

/-- The addresses of the option headers the parser reads in a packet it goes on
with. In a packet shorter than its header, and for the error size, that is the
one header behind the packet header; both lie past what the size allows. -/
def visited (m : Mem) (pkt size : Nat) : List Nat :=
  if 4 < size ∧ size ≠ sizeMax then
    (layout List.length (pkt + 4) (dhFormat.pieces (m.slice (pkt + 4) (size - 4)))).map Prod.fst
  else [pkt + 4]

/-- The pieces of a packet that has data behind its header are walked to their end. -/
theorem walk_of_data (m : Mem) {pkt size : Nat} (hplaced : Placed pkt size) (hlong : 4 < size)
    (hmax : size ≠ sizeMax) : Walk m (sizeAdd pkt size) ((layout List.length (pkt + 4)
      (dhFormat.pieces (m.slice (pkt + 4) (size - 4)))).map Prod.fst) := by
  have hspace := hplaced.stop.resolve_left hmax
  have hstop : sizeAdd pkt size = pkt + 4 + (size - 4) := by
    rw [sizeAdd_of_lt (by omega)]
    omega
  have hwalk := walk_pieces (m := m) (a := pkt + 4) (n := size - 4)
    (fun r hr => Format.isRecord_of_mem_records hr) (Format.not_starts_rest _)
    (Format.split_sound (F := dhFormat) _).symm (by omega)
  rw [hstop]
  exact hwalk

/-- A piece of such a packet, as long as it says it is, lies in the address space. -/
theorem fits_of_data (m : Mem) {pkt size p : Nat} (hplaced : Placed pkt size)
    (hmax : size ≠ sizeMax) (hp : p ∈ (layout List.length (pkt + 4)
      (dhFormat.pieces (m.slice (pkt + 4) (size - 4)))).map Prod.fst) :
    p + wireSize m p < 2 ^ 64 := by
  have hspace := hplaced.stop.resolve_left hmax
  obtain ⟨⟨q, r⟩, hmem, rfl⟩ := List.mem_map.mp hp
  have hb := (mem_layout_bounds hmem).2
  have hsum : ((dhFormat.pieces (m.slice (pkt + 4) (size - 4))).map List.length).sum =
      size - 4 := by
    rw [← List.length_flatten, Format.flatten_pieces, Mem.length_slice]
  have hle := wireSize_le m q
  simp only
  omega

/-- Without data, the one header behind the packet's own is past the stop already. -/
theorem walk_of_no_data (m : Mem) {pkt size : Nat} (hplaced : Placed pkt size)
    (hshort : ¬ (4 < size ∧ size ≠ sizeMax)) : Walk m (sizeAdd pkt size) [pkt + 4] := by
  have hnull := hplaced.notNull
  have hstop : sizeAdd pkt size ≤ pkt + 4 + 4 := by
    by_cases hmax : size = sizeMax
    · simp only [hmax, sizeAdd, sizeMax]
      omega
    · have hspace := hplaced.stop.resolve_left hmax
      rw [sizeAdd_of_lt (by omega)]
      omega
  exact walk_past hstop

theorem visited_walk (m : Mem) {pkt size : Nat} (hplaced : Placed pkt size) :
    (visited m pkt size).head? = some (pkt + 4) ∧
      Walk m (sizeAdd pkt size) (visited m pkt size) ∧
      ∀ p ∈ visited m pkt size, p + wireSize m p < 2 ^ 64 := by
  unfold visited
  split
  · next hlong =>
    refine ⟨?_, walk_of_data m hplaced hlong.1 hlong.2, fun p hp =>
      fits_of_data m hplaced hlong.2 hp⟩
    have hne : m.slice (pkt + 4) (size - 4) ≠ [] := by
      refine List.ne_nil_of_length_pos ?_
      rw [Mem.length_slice]
      exact Nat.sub_pos_of_lt hlong.1
    cases hp : dhFormat.pieces (m.slice (pkt + 4) (size - 4)) with
    | nil => exact absurd hp (Format.pieces_ne_nil hne)
    | cons r rs => rfl
  · next hshort =>
    refine ⟨rfl, walk_of_no_data m hplaced hshort, fun p hp => ?_⟩
    obtain rfl := List.mem_singleton.mp hp
    have hstart := hplaced.start
    have hle := wireSize_le m (pkt + 4)
    omega

/-- The parser reads a server message at the addresses `visited`, one in each
pass of its loop, and reports success. -/
theorem dhParseOptions_visited (alloc : Nat → Bool) {m : Mem} {pkt size : Nat}
    (hplaced : Placed pkt size) (h4 : size ≠ 4) (htype : IsServerMessage (m pkt)) :
    ∃ s, dhParseOptions alloc m pkt size (visited m pkt size).length = some s ∧
      s.result.success = true ∧ Reading alloc m pkt (visited m pkt size) s := by
  obtain ⟨hhead, hwalk, hfits⟩ := visited_walk m hplaced
  have hstart := hplaced.start
  exact dhParseOptions_eq alloc (by omega) hplaced.size_lt h4 htype hhead hwalk hfits

/-! ## The number of passes -/

/-- Every option visited but the last takes up at least its header. -/
theorem length_visited_le (m : Mem) (pkt size : Nat) : (visited m pkt size).length ≤ 1 + size / 4 := by
  unfold visited
  split
  -- every piece but the last has a whole header
  · have hpieces := Format.length_pieces_le (F := dhFormat) (m.slice (pkt + 4) (size - 4))
    rw [Mem.length_slice] at hpieces
    rw [List.length_map, length_layout]
    exact Nat.le_trans hpieces (Nat.add_le_add_left (Nat.div_le_div_right (Nat.sub_le size 4)) 1)
  · exact Nat.le_add_right 1 _

/-- The parser ends, whatever it is given, and so does every walk to the end of
the list it builds. -/
theorem parseOptions_terminates (alloc : Nat → Bool) (m : Mem) {pkt size : Nat}
    (hplaced : Placed pkt size) : ∃ s, dhParseOptions alloc m pkt size (1 + size / 4) = some s := by
  have hstart := hplaced.start
  by_cases h : size = 4 ∨ ¬ IsServerMessage (m pkt)
  · obtain ⟨s, hrun, _⟩ := dhParseOptions_refused alloc (by omega) hplaced.size_lt h
    exact ⟨s, hrun _⟩
  · simp only [not_or, not_not] at h
    obtain ⟨s, hrun, _⟩ := dhParseOptions_visited alloc hplaced h.1 h.2
    exact ⟨s, dhParseOptions_mono (length_visited_le m pkt size) hrun⟩

/-- What is done after a failed receive: every byte is 2, and the size is
`(size_t) -1`. -/
theorem failedReceive_terminates :
    ∃ s, dhParseOptions (fun _ => true) (fun _ => 2) 4096 sizeMax (1 + sizeMax / 4) = some s :=
  parseOptions_terminates _ _ ⟨by decide, by decide, by decide, .inl rfl⟩

/-! ## What the result points to -/

/-- The options on a walk do not overlap. -/
theorem Walk.separated {m : Mem} {stop : Nat} {ps : List Nat} (h : Walk m stop ps) :
    ps.Pairwise fun p q => p + wireSize m p ≤ q := by
  induction ps with
  | nil => exact List.Pairwise.nil
  | cons p ps ih =>
    cases ps with
    | nil => exact List.pairwise_singleton _ p
    | cons q ps =>
      obtain ⟨hq, _, hwalk⟩ := h
      have hpair := ih hwalk
      refine List.pairwise_cons.mpr ⟨?_, hpair⟩
      intro r hr
      rcases List.mem_cons.mp hr with rfl | hr
      · omega
      · have hqr := (List.pairwise_cons.mp hpair).1 r hr
        omega

theorem Walk.apart {m : Mem} {stop p q : Nat} {ps : List Nat} (h : Walk m stop ps) (hp : p ∈ ps)
    (hq : q ∈ ps) : p = q ∨ p + wireSize m p ≤ q ∨ q + wireSize m q ≤ p := by
  refine List.Pairwise.forall_of_forall_of_flip (l := ps)
    (R := fun p q => p = q ∨ p + wireSize m p ≤ q ∨ q + wireSize m q ≤ p) (fun _ _ => .inl rfl)
    (h.separated.imp fun hpq => .inr (.inl hpq)) (h.separated.imp fun hpq => .inr (.inr hpq)) hp hq

theorem Walk.pairwise {m : Mem} {stop : Nat} {ps : List Nat} (h : Walk m stop ps) :
    ps.Pairwise fun p q => p + 4 ≤ q := by
  refine h.separated.imp fun {p q} hpq => ?_
  have h4 := four_le_wireSize m p
  omega

/-- After the parse every header that was read is in host order. -/
theorem header_swapAll {m : Mem} {ps : List Nat} {p : Nat}
    (hsep : ps.Pairwise fun p q => p + 4 ≤ q) (hp : p ∈ ps) :
    optionCode (swapAll m ps) p = wireCode m p ∧
      optionLength (swapAll m ps) p = be16toh (optionLength m p) := by
  obtain ⟨before, after, rfl⟩ := List.append_of_mem hp
  obtain ⟨_, hafter, hbefore⟩ := List.pairwise_append.mp hsep
  have hkeep : (swapAll m before).slice p 4 = m.slice p 4 :=
    slice_swapAll fun q hq => .inl (hbefore q hq p List.mem_cons_self)
  have hkeep' : (swapAll (swapHeader (swapAll m before) p) after).slice p 4 =
      (swapHeader (swapAll m before) p).slice p 4 :=
    slice_swapAll fun q hq => .inr ((List.pairwise_cons.mp hafter).1 q hq)
  have hsplit : swapAll m (before ++ p :: after) =
      swapAll (swapHeader (swapAll m before) p) after := by
    simp [swapAll]
  obtain ⟨hcode, hlength⟩ := wire_congr hkeep
  obtain ⟨hcode', hlength'⟩ := wire_congr hkeep'
  rw [hsplit]
  constructor
  · have hinv := congrArg bswap16 hcode'
    simp only [wireCode, be16toh, bswap16_bswap16] at hinv
    rw [hinv, optionCode_swapHeader, ← hcode]
    rfl
  · rw [hlength', optionLength_swapHeader, hlength]

/-- `p` is one of the pointers handed out with the result. -/
def Stored (s : ReaderState) (p : Nat) : Prop :=
  s.result.clientIdentifier = some p ∨ s.result.serverIdentifier = some p ∨ p ∈ s.iaPds

/-- The codes of the options the parser keeps. -/
def StoredCode (c : UInt16) : Prop :=
  c = DhOptions.clientId.code ∨ c = DhOptions.serverId.code ∨ c = DhOptions.iaPd.code

instance (c : UInt16) : Decidable (StoredCode c) :=
  inferInstanceAs (Decidable (_ ∨ _))

theorem Reading.iaPds {alloc : Nat → Bool} {m : Mem} {pkt : Nat} {ps : List Nat} {s : ReaderState}
    (h : Reading alloc m pkt ps s) : s.iaPds = granted alloc 0 (withCode m .iaPd ps) :=
  Chain.toList_eq h.list

theorem Reading.stored {alloc : Nat → Bool} {m : Mem} {pkt p : Nat} {ps : List Nat}
    {s : ReaderState} (h : Reading alloc m pkt ps s) (hp : Stored s p) :
    p ∈ ps ∧ StoredCode (wireCode m p) := by
  have hmem {c : DhOptions} (hc : p ∈ withCode m c ps) : p ∈ ps ∧ wireCode m p = c.code := by
    simpa [withCode] using hc
  rcases hp with hp | hp | hp
  · rw [h.client] at hp
    obtain ⟨hin, hcode⟩ := hmem (List.mem_of_getLast? hp)
    exact ⟨hin, .inl hcode⟩
  · rw [h.server] at hp
    obtain ⟨hin, hcode⟩ := hmem (List.mem_of_getLast? hp)
    exact ⟨hin, .inr (.inl hcode)⟩
  · rw [h.iaPds] at hp
    obtain ⟨hin, hcode⟩ := hmem ((granted_sublist alloc 0 _).subset hp)
    exact ⟨hin, .inr (.inr hcode)⟩

/-- With every allocation granted, a kept option that comes last is in the result. -/
theorem Reading.stored_last {m : Mem} {pkt p : Nat} {ps : List Nat} {s : ReaderState}
    (h : Reading (fun _ => true) m pkt (ps ++ [p]) s) (hp : StoredCode (wireCode m p)) :
    Stored s p := by
  rcases hp with hp | hp | hp
  · refine .inl ?_
    rw [h.client, withCode_append, if_pos hp, List.getLast?_append]
    rfl
  · refine .inr (.inl ?_)
    rw [h.server, withCode_append, if_pos hp, List.getLast?_append]
    rfl
  · refine .inr (.inr ?_)
    rw [h.iaPds, granted_all, withCode_append, if_pos hp]
    simp

end Pdrad
