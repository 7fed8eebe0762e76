import Pdrad.ValidReply

/-!
# Where the bytes of an installed prefix come from

`requestAndReceiveDhcp` copies 25 bytes from its receive buffer, wherever the first
`IA_PD` leads. The parser has swapped the two fields of every option header by then,
and the buffer may be longer than what was received.

1. `swapAll_apply`: after the parse, a byte of the buffer is the one that lay at
   `sourceOf` before.
2. `copied_of_installed`: the 25 bytes one by one, each of the received data or of
   what the buffer held before (`CopiedBytes`).
3. `stale_iff`: some of them are not of the received data exactly when they reach
   behind its `settled` part.
-/

namespace Pdrad

open DhOptPayload DhReaderLemmas DhGrammarLemmas ValidReplyLemmas

/-! ## Swapped headers -/

/-- Where the byte at `x` lay before the two fields of the header at `p` were
byte-swapped. -/
def pairSwap (p x : Nat) : Nat :=
  if x = p ∨ x = p + 2 then x + 1 else if x = p + 1 ∨ x = p + 3 then x - 1 else x

/-- The same for all the headers at `ps`. -/
def swappedFrom (ps : List Nat) (x : Nat) : Nat := ps.foldr pairSwap x

/-- Where the whole options of a datagram end. -/
def optionsEnd (r : List UInt8) : Nat :=
  4 + (dhFormat.records (r.drop 4)).flatten.length

/-- The headers that the parser swaps: those of the whole options, and one where
these end if the datagram does not end there. -/
def headerOffsets (r : List UInt8) : List Nat :=
  (layout List.length 4 (dhFormat.records (r.drop 4))).map Prod.fst ++
    if r.length = optionsEnd r then [] else [optionsEnd r]

/-- The offset at which byte `j` of the buffer was received. From `r.length` on
nothing was received. -/
def sourceOf (r : List UInt8) (j : Nat) : Nat := swappedFrom (headerOffsets r) j

/-- How much of the datagram the parser leaves within its length: all of it, or, when
it is cut off inside a field of a header, all but the last byte, which is swapped with
the one behind it. -/
def settled (r : List UInt8) : Nat :=
  if r.length = optionsEnd r + 1 ∨ r.length = optionsEnd r + 3 then r.length - 1 else r.length

/-- The bytes at `off` are what the call copies: 20 bytes into the first whole `IA_PD`
that got a node, or 20 bytes behind the whole options when none did. -/
def CopiesAt (alloc : Nat → Bool) (r : List UInt8) (off : Nat) : Prop :=
  (∃ pd ∈ (granted alloc 0 (wholeIAPDs r)).head?, off = pd.1 + 20) ∨
    (granted alloc 0 (wholeIAPDs r) = [] ∧ r.length ≠ optionsEnd r ∧ off = optionsEnd r + 20)

/-- What the 25 bytes `bs` are that a call copies from the offset `off` of its buffer,
when it received `r` in the memory `m`. -/
structure CopiedBytes (alloc : Nat → Bool) (m : Mem) (buffer : Nat) (r : List UInt8) (off : Nat)
    (bs : List UInt8) : Prop where
  place : CopiesAt alloc r off
  bytes : bs = (List.range 25).map fun i =>
    r[sourceOf r (off + i)]?.getD (m (buffer + sourceOf r (off + i)))
  stale : (∃ i < 25, r.length ≤ sourceOf r (off + i)) ↔ settled r < off + 25
  valid : ValidReply alloc r ↔ BodyOfIAPrefix r off ∧ bs = (r.drop off).take 25

namespace PrefixBytesLemmas

theorem pairSwap_cases (p x : Nat) :
    ((x = p ∨ x = p + 2) ∧ pairSwap p x = x + 1) ∨
      ((x = p + 1 ∨ x = p + 3) ∧ pairSwap p x = x - 1) ∨
      ((x < p ∨ p + 4 ≤ x) ∧ pairSwap p x = x) := by
  unfold pairSwap
  split
  · next h => exact .inl ⟨h, rfl⟩
  split
  · next h => exact .inr (.inl ⟨h, rfl⟩)
  · next hfirst hsecond => exact .inr (.inr ⟨by omega, rfl⟩)

/-- A header that `n` cuts inside a field moves one byte across `n`, and one back. -/
theorem cut_le_pairSwap_iff {p n : Nat} (x : Nat) (h : n = p + 1 ∨ n = p + 3) :
    n ≤ pairSwap p x ↔ x = n - 1 ∨ n < x := by
  rcases pairSwap_cases p x with ⟨hx, heq⟩ | ⟨hx, heq⟩ | ⟨hx, heq⟩
  all_goals
    rw [heq]
    omega

/-- Any other header moves none. -/
theorem uncut_le_pairSwap_iff {p n : Nat} (x : Nat) (h : ¬ (n = p + 1 ∨ n = p + 3)) :
    n ≤ pairSwap p x ↔ n ≤ x := by
  rcases pairSwap_cases p x with ⟨hx, heq⟩ | ⟨hx, heq⟩ | ⟨hx, heq⟩
  · rw [heq]
    omega
  · rw [heq]
    omega
  · rw [heq]

theorem le_swappedFrom_iff {ps : List Nat} {n : Nat} (x : Nat) (h : ∀ p ∈ ps, p + 4 ≤ n) :
    n ≤ swappedFrom ps x ↔ n ≤ x := by
  induction ps with
  | nil => exact Iff.rfl
  | cons p ps ih =>
    have hrest := ih fun q hq => h q (List.mem_cons_of_mem p hq)
    have hp := h p List.mem_cons_self
    exact (uncut_le_pairSwap_iff _ (by omega)).trans hrest

theorem pairSwap_shift (a p x : Nat) : pairSwap (a + p) (a + x) = a + pairSwap p x := by
  unfold pairSwap
  simp only [Nat.add_assoc, Nat.add_left_cancel_iff]
  split
  · rfl
  split
  · omega
  · rfl

theorem swappedFrom_shift (a : Nat) (ps : List Nat) (x : Nat) :
    swappedFrom (ps.map (a + ·)) (a + x) = a + swappedFrom ps x := by
  induction ps with
  | nil => rfl
  | cons p ps ih =>
    simp only [swappedFrom, List.map_cons, List.foldr_cons] at ih ⊢
    rw [ih, pairSwap_shift]

theorem swapHeader_apply (m : Mem) (p x : Nat) : swapHeader m p x = m (pairSwap p x) := by
  have hbytes : (m.slice p 2).reverse ++ (m.slice (p + 2) 2).reverse =
      [m (p + 1), m p, m (p + 3), m (p + 2)] := rfl
  rw [swapHeader_eq, hbytes]
  rcases pairSwap_cases p x with ⟨rfl | rfl, heq⟩ | ⟨rfl | rfl, heq⟩ | ⟨hx, heq⟩
  all_goals rw [heq]
  · simp [Mem.put]
  · simp [Mem.put]
  · simp [Mem.put]
  · simp [Mem.put]
  · rcases hx with hx | hx
    · exact Mem.put_of_lt hx
    · exact Mem.put_of_ge hx

end PrefixBytesLemmas

open PrefixBytesLemmas

/-- After all headers are swapped, the byte at `x` is the one that was at
`swappedFrom ps x`. -/
theorem swapAll_apply (m : Mem) (ps : List Nat) (x : Nat) :
    swapAll m ps x = m (swappedFrom ps x) := by
  induction ps generalizing m with
  | nil => rfl
  | cons p ps ih =>
    have hrest : swapAll m (p :: ps) x = swapAll (swapHeader m p) ps x := rfl
    rw [hrest, ih, swapHeader_apply]
    rfl

/-! ## What is behind the received data -/

namespace PrefixBytesLemmas

/-- The header of a whole option is received whole. -/
theorem wholeHeader_le {r : List UInt8} {p : Nat}
    (h : p ∈ (layout List.length 4 (dhFormat.records (r.drop 4))).map Prod.fst) :
    p + 4 ≤ r.length := by
  obtain ⟨⟨q, o⟩, hmem, rfl⟩ := List.mem_map.mp h
  have hheader : 4 ≤ o.length := (Format.isRecord_of_mem_records (mem_layout_snd hmem)).1
  have hsplit := congrArg List.length (Format.split_sound (F := dhFormat) (r.drop 4))
  rw [List.length_append, List.length_flatten, List.length_drop] at hsplit
  obtain ⟨hlo, hhi⟩ := mem_layout_bounds hmem
  simp only
  omega

/-- Only the header where the options end can move bytes out of the received data. -/
theorem le_sourceOf_iff (r : List UInt8) (j : Nat) : r.length ≤ sourceOf r j ↔
    r.length ≤ swappedFrom (if r.length = optionsEnd r then [] else [optionsEnd r]) j := by
  rw [sourceOf, headerOffsets, swappedFrom, List.foldr_append]
  exact le_swappedFrom_iff _ fun p hp => wholeHeader_le hp

theorem le_sourceOf_of_cut {r : List UInt8} (j : Nat)
    (h : r.length = optionsEnd r + 1 ∨ r.length = optionsEnd r + 3) :
    r.length ≤ sourceOf r j ↔ j = r.length - 1 ∨ r.length < j := by
  rw [le_sourceOf_iff, if_neg (by omega)]
  exact cut_le_pairSwap_iff j h

theorem le_sourceOf_of_uncut {r : List UInt8} (j : Nat)
    (h : ¬ (r.length = optionsEnd r + 1 ∨ r.length = optionsEnd r + 3)) :
    r.length ≤ sourceOf r j ↔ r.length ≤ j := by
  rw [le_sourceOf_iff]
  split
  · exact Iff.rfl
  · exact uncut_le_pairSwap_iff j h

end PrefixBytesLemmas

/-- Of the 25 bytes from `off` on, one was not received exactly when they reach behind
the settled part. -/
theorem stale_iff (r : List UInt8) (off : Nat) :
    (∃ i < 25, r.length ≤ sourceOf r (off + i)) ↔ settled r < off + 25 := by
  unfold settled
  split
  · next hcut =>
    simp only [le_sourceOf_of_cut _ hcut]
    constructor
    · rintro ⟨i, hi, hlast | hbehind⟩ <;> omega
    · intro hlt
      -- the last of the 25, unless that is the byte swapped into the received data
      rcases Nat.lt_trichotomy (off + 24) r.length with hlow | heq | hhigh
      · exact ⟨24, by decide, .inl (by omega)⟩
      · exact ⟨23, by decide, .inl (by omega)⟩
      · exact ⟨24, by decide, .inr hhigh⟩
  · next huncut =>
    simp only [le_sourceOf_of_uncut _ huncut]
    constructor
    · rintro ⟨i, hi, hle⟩
      omega
    · exact fun hlt => ⟨24, by decide, by omega⟩

/-- Of a reply that is cut off behind the header of its `IA_PD`, no byte is copied. -/
example : ∀ i < 25, 8 ≤ sourceOf [7, 1, 2, 3, 0, 25, 0, 41] (24 + i) := by decide

/-! ## The bytes copied -/

section

variable {alloc : Nat → Bool} {m : Mem} {buffer : Nat} {r : List UInt8}

namespace PrefixBytesLemmas

theorem tailOf_eq_nil_iff (hm : m.slice buffer r.length = r) (hlong : 4 < r.length) :
    tailOf m buffer r.length = [] ↔ r.length = optionsEnd r := by
  have hsplit := congrArg List.length (Format.split_sound (F := dhFormat) (r.drop 4))
  rw [List.length_append, List.length_drop] at hsplit
  rw [tailOf, slice_options hm hlong, ← List.length_eq_zero_iff, optionsEnd]
  omega

/-- What does not fill the packet header has no whole option. -/
theorem optionsEnd_short (hshort : r.length ≤ 4) :
    dhFormat.records (r.drop 4) = [] ∧ optionsEnd r = 4 := by
  have hnil : dhFormat.records (r.drop 4) = [] := by
    rw [List.drop_eq_nil_of_le hshort]
    rfl
  exact ⟨hnil, by rw [optionsEnd, hnil]; rfl⟩

/-- The headers the parser visits are those of `headerOffsets`. -/
theorem visited_headers (hm : m.slice buffer r.length = r) (h4 : r.length ≠ 4)
    (hmax : r.length ≠ sizeMax) :
    visited m buffer r.length = (headerOffsets r).map (buffer + ·) := by
  rcases Nat.lt_or_ge 4 r.length with hlong | hshort
  · rw [visited_eq m buffer hlong hmax, wholeOptions_eq hm hlong, tailPtr_offset hm hlong,
      headerOffsets, List.map_append, List.map_map, List.map_map]
    simp only [tailOf_eq_nil_iff hm hlong]
    congr 1
    split
    · rfl
    · rfl
  · obtain ⟨hrecords, hend⟩ := optionsEnd_short hshort
    rw [visited_short (by omega), headerOffsets, hrecords, hend, if_neg h4]
    rfl

/-- Where the parser finds the first `IA_PD`. -/
theorem firstIAPD_place (hm : m.slice buffer r.length = r) (hmax : r.length ≠ sizeMax) {pd : Nat}
    (h : firstIAPD alloc m buffer r.length = some pd) :
    ∃ off, pd + 20 = buffer + off ∧ CopiesAt alloc r off := by
  have hgo : ¬ (r.length = 4 ∨ ¬ IsServerMessage (m buffer)) := by
    intro hstop
    rw [firstIAPD, if_pos hstop] at h
    cases h
  rcases Nat.lt_or_ge 4 r.length with hlong | hshort
  · rcases firstIAPD_cases hm hlong hmax h with ⟨o, hhead, rfl⟩ | ⟨hnone, htail, rfl⟩
    · exact ⟨o.1 + 20, Nat.add_assoc .., .inl ⟨o, hhead, rfl⟩⟩
    · refine ⟨optionsEnd r + 20, ?_, .inr ⟨hnone, mt (tailOf_eq_nil_iff hm hlong).mpr htail, rfl⟩⟩
      rw [tailPtr_offset hm hlong, optionsEnd, Nat.add_assoc]
  · obtain ⟨hrecords, hend⟩ := optionsEnd_short hshort
    have hnone : wholeIAPDs r = [] := by
      rw [wholeIAPDs, hrecords]
      rfl
    rw [firstIAPD, if_neg hgo] at h
    have hmem := List.mem_of_mem_filter
      ((granted_sublist alloc 0 _).subset (List.mem_of_head? h))
    rw [visited_short (by omega)] at hmem
    obtain rfl := List.mem_singleton.mp hmem
    refine ⟨24, rfl, .inr ⟨by rw [hnone]; rfl, ?_, by rw [hend]⟩⟩
    rw [hend]
    exact fun h4 => hgo (.inl h4)

/-- A byte of the buffer, received or not. -/
theorem put_apply (m : Mem) (buffer : Nat) (r : List UInt8) (j : Nat) :
    m.put buffer r (buffer + j) = r[j]?.getD (m (buffer + j)) := by
  simp [Mem.put]

end PrefixBytesLemmas

/-- What the call copies, byte by byte. -/
theorem read_sources (hslice : (m.put buffer r).slice buffer r.length = r) (h4 : r.length ≠ 4)
    (hmax : r.length ≠ sizeMax) (off : Nat) :
    (DhOptIAPrefix.read (swapAll (m.put buffer r) (visited (m.put buffer r) buffer r.length))
      (buffer + off)).bytes = (List.range 25).map fun i =>
        r[sourceOf r (off + i)]?.getD (m (buffer + sourceOf r (off + i))) := by
  rw [DhOptIAPrefix.bytes_read, Mem.slice, visited_headers hslice h4 hmax]
  apply List.map_congr_left
  intro i _
  rw [swapAll_apply, Nat.add_assoc, swappedFrom_shift, put_apply]
  rfl

/-- A call that found an `IA_PD` in what it received has copied 25 bytes of its buffer. -/
theorem copied_of_installed {bufferLength : Nat} (hbuffer : BufferAt buffer bufferLength)
    {d : List UInt8} (hr : r = receivedBytes bufferLength d) {pd : Nat} {c : DhcpCall}
    (hfirst : firstIAPD alloc (m.put buffer r) buffer r.length = some pd)
    (hread : c.prefixResult = DhOptIAPrefix.read
      (swapAll (m.put buffer r) (visited (m.put buffer r) buffer r.length)) (pd + 20))
    (hfrom : c.copiedFrom = some (pd + 20)) :
    ∃ off, c.copiedFrom = some (buffer + off) ∧
      CopiedBytes alloc m buffer r off c.prefixResult.bytes := by
  have hle : r.length ≤ bufferLength := hr ▸ List.length_take_le _ _
  have hmax := hbuffer.ne_sizeMax hle
  have hslice := Mem.slice_put_same m buffer r
  have h4 : r.length ≠ 4 := by
    intro h4
    rw [firstIAPD, if_pos (.inl h4)] at hfirst
    cases hfirst
  obtain ⟨off, hoff, hplace⟩ := firstIAPD_place hslice hmax hfirst
  refine ⟨off, hoff ▸ hfrom, hplace, ?_, stale_iff r off, ?_⟩
  · rw [hread, hoff]
    exact read_sources hslice h4 hmax off
  · rw [hread]
    exact (body_iff (hbuffer.placed hle) hmax hslice hfirst hoff).symm

end

end Pdrad
