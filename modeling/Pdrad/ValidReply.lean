import Mathlib.Logic.Basic
import Pdrad.RequestDhcp

/-!
# When `requestAndReceiveDhcp` installs a prefix that is one

A call ought to end in one of two ways: it returns 0 and has copied the body of
an `IAPREFIX` option inside an `IA_PD` of the datagram, or it returns an error and
has changed nothing (`InstallsOnlyValid`).

1. `firstIAPD_cases`: the `IA_PD` the call follows is the first whole one that got
   a list node, or the cut-off end of the datagram.
2. `installsOnlyValid_iff`: a call ends as it ought to exactly when its Solicit
   could not be sent, or the reply is a valid one.
-/

namespace Pdrad

open DhOptPayload DhReaderLemmas DhGrammarLemmas RequestDhcpLemmas

/-! ## Replies as byte strings -/

/-- The whole `IA_PD` options of a datagram, with their offsets. -/
def wholeIAPDs (r : List UInt8) : List (Nat × List UInt8) :=
  (layout List.length 4 (dhFormat.records (r.drop 4))).filter fun o =>
    headerCode o.2 = DhOptions.iaPd.code

/-- The whole options inside an `IA_PD`, with their offsets. -/
def subOptions (pd : Nat × List UInt8) : List (Nat × List UInt8) :=
  layout List.length (pd.1 + 16) (dhFormat.records (pd.2.drop 16))

/-- An option that can hold a prefix. -/
def IsIAPrefix (o : List UInt8) : Prop :=
  headerCode o = DhOptions.iaPrefix.code ∧ dhOptPayloadOffset + sizeofDhOptIAPrefix ≤ o.length

instance (o : List UInt8) : Decidable (IsIAPrefix o) :=
  inferInstanceAs (Decidable (_ ∧ _))

/-- At the offset `off` of the datagram starts the body of an `IAPREFIX` option that
lies inside an `IA_PD` option. -/
def BodyOfIAPrefix (r : List UInt8) (off : Nat) : Prop :=
  ∃ pd ∈ wholeIAPDs r, ∃ sub ∈ subOptions pd, IsIAPrefix sub.2 ∧ off = sub.1 + dhOptPayloadOffset

instance (r : List UInt8) (off : Nat) : Decidable (BodyOfIAPrefix r off) :=
  inferInstanceAs (Decidable (∃ pd ∈ wholeIAPDs r, ∃ sub ∈ subOptions pd, _ ∧ _))

/-- A server message whose first `IA_PD`, among the whole ones that get a list
node, starts with an option that can hold a prefix. -/
def ValidReply (alloc : Nat → Bool) (r : List UInt8) : Prop :=
  (∃ msgType ∈ r.head?, IsServerMessage msgType) ∧
    ∃ pd ∈ (granted alloc 0 (wholeIAPDs r)).head?, ∃ sub ∈ (subOptions pd).head?, IsIAPrefix sub.2

instance (alloc : Nat → Bool) (r : List UInt8) : Decidable (ValidReply alloc r) :=
  inferInstanceAs (Decidable (_ ∧ _))

namespace ValidReplyLemmas

theorem records_pos {bs : List UInt8} : ∀ r ∈ dhFormat.records bs, 0 < r.length :=
  fun _ hr => (Format.isRecord_of_mem_records hr).pos

/-- A sub-option lies inside its `IA_PD`, behind the fixed fields. -/
theorem subOptions_bounds {pd sub : Nat × List UInt8} (h : sub ∈ subOptions pd) :
    pd.1 + 16 ≤ sub.1 ∧ sub.1 + sub.2.length ≤ pd.1 + pd.2.length := by
  have hflat := congrArg List.length (Format.split_sound (F := dhFormat) (pd.2.drop 16))
  rw [List.length_append, List.length_drop, List.length_flatten] at hflat
  have hpos := records_pos sub.2 (mem_layout_snd h)
  obtain ⟨hlo, hhi⟩ := mem_layout_bounds h
  exact ⟨hlo, by omega⟩

theorem subOptions_head {pd sub : Nat × List UInt8} (h : sub ∈ (subOptions pd).head?) :
    sub.1 = pd.1 + 16 := by
  unfold subOptions at h
  cases hrecords : dhFormat.records (pd.2.drop 16) with
  | nil =>
    rw [hrecords] at h
    cases h
  | cons y ys =>
    rw [hrecords] at h
    exact (congrArg Prod.fst (Option.some.inj h)).symm

/-- A whole `IA_PD` lies behind the header, before the remainder. -/
theorem wholeIAPDs_bounds {r : List UInt8} {pd : Nat × List UInt8} (h : pd ∈ wholeIAPDs r) :
    4 ≤ pd.1 ∧ pd.1 + pd.2.length ≤ 4 + (dhFormat.records (r.drop 4)).flatten.length := by
  have hb := mem_layout_bounds (List.mem_of_mem_filter h)
  rwa [List.length_flatten]

theorem lt_of_mem_wholeIAPDs {r : List UInt8} {pd : Nat × List UInt8} (h : pd ∈ wholeIAPDs r) :
    4 < r.length := by
  have hpos := records_pos pd.2 (mem_layout_snd (List.mem_of_mem_filter h))
  have hlength := congrArg List.length (Format.split_sound (F := dhFormat) (r.drop 4))
  rw [List.length_append, List.length_drop] at hlength
  have hb := wholeIAPDs_bounds h
  omega

/-- An `IAPREFIX` body 20 bytes into an `IA_PD` belongs to its first sub-option. -/
theorem head_of_body {r : List UInt8} {pd : Nat × List UInt8} (hpd : pd ∈ wholeIAPDs r)
    (hbody : BodyOfIAPrefix r (pd.1 + 20)) : ∃ sub ∈ (subOptions pd).head?, IsIAPrefix sub.2 := by
  obtain ⟨pd', hpd', sub, hsub, hisPrefix, hoff⟩ := hbody
  obtain ⟨hlo, hhi⟩ := subOptions_bounds hsub
  simp only [dhOptPayloadOffset] at hoff
  have hlen : 4 + 25 ≤ sub.2.length := hisPrefix.2
  -- both `IA_PD` options contain the body, so they are the same one
  obtain ⟨hstart, hsame⟩ := layout_unique records_pos (List.mem_of_mem_filter hpd')
    (List.mem_of_mem_filter hpd) (by omega) (by omega)
  obtain rfl : pd' = pd := Prod.ext hstart hsame
  have hfirst : sub.1 = pd'.1 + 16 := by omega
  refine ⟨sub, ?_, hisPrefix⟩
  rw [Option.mem_def]
  obtain ⟨a, o⟩ := sub
  subst hfirst
  exact layout_head records_pos hsub

/-- No `IAPREFIX` body lies in what remains after the whole options. -/
theorem not_body_tail {r : List UInt8} {off : Nat}
    (hoff : 4 + (dhFormat.records (r.drop 4)).flatten.length ≤ off) : ¬ BodyOfIAPrefix r off := by
  rintro ⟨pd, hpd, sub, hsub, hisPrefix, rfl⟩
  have hlen : 4 + 25 ≤ sub.2.length := hisPrefix.2
  have hb := wholeIAPDs_bounds hpd
  have hs := subOptions_bounds hsub
  simp only [dhOptPayloadOffset] at hoff
  omega

end ValidReplyLemmas

open ValidReplyLemmas

/-! ## Replies in the buffer -/

section

variable {alloc : Nat → Bool} {m : Mem} {buffer : Nat} {r : List UInt8}

namespace ValidReplyLemmas

theorem slice_options (hm : m.slice buffer r.length = r) (hlong : 4 < r.length) :
    m.slice (buffer + 4) (r.length - 4) = r.drop 4 := by
  have h := Mem.drop_slice m buffer (k := 4) (n := r.length) (by omega)
  rw [hm] at h
  exact h.symm

theorem wholeOptions_eq (hm : m.slice buffer r.length = r) (hlong : 4 < r.length) :
    wholeOptions m buffer r.length =
      (layout List.length 4 (dhFormat.records (r.drop 4))).map fun o => (buffer + o.1, o.2) := by
  rw [wholeOptions, slice_options hm hlong, layout_shift]

/-- The addresses of the whole `IA_PD` options. -/
theorem withCode_wholeOptions (hm : m.slice buffer r.length = r) (hlong : 4 < r.length) :
    withCode m .iaPd ((wholeOptions m buffer r.length).map Prod.fst) =
      (wholeIAPDs r).map fun o => buffer + o.1 := by
  have hwhole := wholeOptions_eq hm hlong
  rw [withCode, hwhole, List.map_map, List.filter_map, wholeIAPDs]
  congr 1
  apply List.filter_congr
  rintro ⟨off, o⟩ ho
  have hmem : (buffer + off, o) ∈ wholeOptions m buffer r.length := by
    rw [hwhole]
    exact List.mem_map_of_mem (f := fun o : Nat × List UInt8 => (buffer + o.1, o.2)) ho
  obtain ⟨hslice, hrecord, _⟩ := wholeOptions_spec hlong hmem
  have hcode := wireCode_eq_headerCode m (buffer + off) (n := o.length)
    (Nat.le_trans (by decide) hrecord.1)
  simp only [Function.comp_apply, hcode, hslice]

theorem tailPtr_offset (hm : m.slice buffer r.length = r) (hlong : 4 < r.length) :
    tailPtr m buffer r.length =
      buffer + (4 + (dhFormat.records (r.drop 4)).flatten.length) := by
  rw [tailPtr_eq m buffer hlong, slice_options hm hlong, Nat.add_assoc]

theorem withCode_visited (hm : m.slice buffer r.length = r) (hlong : 4 < r.length)
    (hmax : r.length ≠ sizeMax) :
    withCode m .iaPd (visited m buffer r.length) = ((wholeIAPDs r).map fun o => buffer + o.1) ++
      withCode m .iaPd
        (if tailOf m buffer r.length = [] then [] else [tailPtr m buffer r.length]) := by
  rw [visited_eq m buffer hlong hmax, ← withCode_wholeOptions hm hlong]
  exact List.filter_append ..

end ValidReplyLemmas

/-- The `IA_PD` that the call follows. -/
theorem firstIAPD_cases (hm : m.slice buffer r.length = r) (hlong : 4 < r.length)
    (hmax : r.length ≠ sizeMax) {pd : Nat} (h : firstIAPD alloc m buffer r.length = some pd) :
    (∃ o, (granted alloc 0 (wholeIAPDs r)).head? = some o ∧ pd = buffer + o.1) ∨
      (granted alloc 0 (wholeIAPDs r) = [] ∧ tailOf m buffer r.length ≠ [] ∧
        pd = tailPtr m buffer r.length) := by
  rw [firstIAPD] at h
  split at h
  · cases h
  rw [withCode_visited hm hlong hmax, granted_append, List.head?_append, granted_map,
    List.head?_map] at h
  cases hhead : (granted alloc 0 (wholeIAPDs r)).head? with
  | some o =>
    rw [hhead] at h
    exact .inl ⟨o, rfl, (Option.some.inj h).symm⟩
  | none =>
    rw [hhead, Option.map_none, Option.none_or] at h
    have hmem := (granted_sublist alloc _ _).subset (List.mem_of_head? h)
    have htail := List.mem_of_mem_filter hmem
    split at htail
    · simp at htail
    · next hne =>
      exact .inr ⟨List.head?_eq_none_iff.mp hhead, hne, List.mem_singleton.mp htail⟩

theorem firstIAPD_of_granted (hm : m.slice buffer r.length = r) (hlong : 4 < r.length)
    (hmax : r.length ≠ sizeMax) (hserver : IsServerMessage (m buffer)) {o : Nat × List UInt8}
    (h : (granted alloc 0 (wholeIAPDs r)).head? = some o) :
    firstIAPD alloc m buffer r.length = some (buffer + o.1) := by
  have hgo : ¬ (r.length = 4 ∨ ¬ IsServerMessage (m buffer)) := by
    rintro (h4 | hn)
    · omega
    · exact hn hserver
  rw [firstIAPD, if_neg hgo, withCode_visited hm hlong hmax, granted_append, List.head?_append,
    granted_map, List.head?_map, h]
  rfl

/-- What the call copies is the body of the first sub-option, as received. -/
theorem read_body (hplaced : Placed buffer r.length) (hm : m.slice buffer r.length = r)
    (hlong : 4 < r.length) (hmax : r.length ≠ sizeMax) {pd sub : Nat × List UInt8}
    (hpd : pd ∈ wholeIAPDs r) (hsub : sub ∈ (subOptions pd).head?) (hisPrefix : IsIAPrefix sub.2) :
    (DhOptIAPrefix.read (swapAll m (visited m buffer r.length)) (buffer + pd.1 + 20)).bytes =
      (r.drop (pd.1 + 20)).take 25 := by
  have hlen : 4 + 25 ≤ sub.2.length := hisPrefix.2
  have hbounds := subOptions_bounds (List.mem_of_head? hsub)
  have hend := (wholeIAPDs_bounds hpd).2
  have hmem : (buffer + pd.1, pd.2) ∈ wholeOptions m buffer r.length := by
    rw [wholeOptions_eq hm hlong]
    exact List.mem_map_of_mem (f := fun o : Nat × List UInt8 => (buffer + o.1, o.2))
      (List.mem_of_mem_filter hpd)
  obtain ⟨_, _, hsize, _, _⟩ := wholeOptions_spec hlong hmem
  have hvisited : buffer + pd.1 ∈ visited m buffer r.length := by
    rw [visited_eq m buffer hlong hmax]
    exact List.mem_append_left _ (List.mem_map_of_mem hmem)
  -- every other header lies before this `IA_PD` or behind it
  have hapart : ∀ p ∈ visited m buffer r.length, Apart p 4 (buffer + pd.1 + 20) 25 := by
    intro p hp
    have h4 := four_le_wireSize m p
    have hsep := (visited_walk m hplaced).2.1.apart hp hvisited
    simp only [Apart]
    omega
  have hlength := congrArg List.length (Format.split_sound (F := dhFormat) (r.drop 4))
  rw [List.length_append, List.length_drop] at hlength
  have hdrop := Mem.drop_slice m buffer (k := pd.1 + 20) (n := r.length) (by omega)
  rw [hm] at hdrop
  rw [DhOptIAPrefix.bytes_read, slice_swapAll hapart, hdrop, Mem.take_slice _ _ (by omega),
    Nat.add_assoc]

end

/-! ## The call -/

/-- The call returns 0, and what it copied to `*prefixResultPtr` is the body of an
`IAPREFIX` option of the received datagram. -/
def Installed (env : DhcpEnv) (buffer bufferLength : Nat) (c : DhcpCall) : Prop :=
  c.ret = some 0 ∧ ∃ d off, env.received = some d ∧ c.copiedFrom = some (buffer + off) ∧
    BodyOfIAPrefix (receivedBytes bufferLength d) off ∧
    c.prefixResult.bytes = ((receivedBytes bufferLength d).drop off).take 25

/-- The call returns an error and leaves `*prefixResultPtr` as it was. -/
def Refused (before : DhOptIAPrefix) (c : DhcpCall) : Prop :=
  ∃ r, c.ret = some r ∧ r ≠ 0 ∧ c.prefixResult = before

/-- The call comes back in exactly one of the two ways it ought to. -/
def InstallsOnlyValid (env : DhcpEnv) (handler : Nat) (m : Mem) (buffer bufferLength : Nat)
    (before : DhOptIAPrefix) : Prop :=
  ∃ c, Returns (requestAndReceiveDhcp env handler m buffer bufferLength before) c ∧
    Xor (Installed env buffer bufferLength c) (Refused before c)

/-- The Solicit could be built, and then either it could not be sent or a valid
reply was received. -/
def SendFailsOrValidReply (env : DhcpEnv) (bufferLength : Nat) : Prop :=
  env.transId.isSome ∧ (env.sendFails = true ∨
    ∃ d ∈ env.received, ValidReply env.alloc (receivedBytes bufferLength d))

instance (env : DhcpEnv) (bufferLength : Nat) : Decidable (SendFailsOrValidReply env bufferLength) :=
  inferInstanceAs (Decidable (_ ∧ _))

namespace ValidReplyLemmas

theorem installed_or_refused {env : DhcpEnv} {buffer bufferLength : Nat} {before : DhOptIAPrefix}
    {c : DhcpCall} : Xor (Installed env buffer bufferLength c) (Refused before c) ↔
      Installed env buffer bufferLength c ∨ Refused before c := by
  constructor
  · rintro (⟨h, _⟩ | ⟨h, _⟩)
    · exact .inl h
    · exact .inr h
  · have hexcl : Installed env buffer bufferLength c → ¬ Refused before c := by
      rintro ⟨hzero, _⟩ ⟨r, hret, hne, _⟩
      rw [hzero] at hret
      exact hne (Option.some.inj hret).symm
    rintro (h | h)
    · exact .inl ⟨h, hexcl h⟩
    · exact .inr ⟨h, fun hi => hexcl hi h⟩

/-- The options of a packet start behind its header. -/
theorem visited_ge {m : Mem} {pkt size p : Nat} (h : p ∈ visited m pkt size) : pkt + 4 ≤ p := by
  unfold visited at h
  split at h
  · obtain ⟨⟨q, r⟩, hmem, rfl⟩ := List.mem_map.mp h
    exact (mem_layout_bounds hmem).1
  · exact Nat.le_of_eq (List.mem_singleton.mp h).symm

/-- The `IA_PD` that is followed lies behind the packet's header. -/
theorem firstIAPD_ge {alloc : Nat → Bool} {m : Mem} {pkt size pd : Nat}
    (h : firstIAPD alloc m pkt size = some pd) : pkt + 4 ≤ pd := by
  unfold firstIAPD at h
  split at h
  · cases h
  · have hmem := (granted_sublist alloc 0 _).subset (List.mem_of_head? h)
    exact visited_ge (List.mem_of_mem_filter hmem)

/-- What is copied is the body of an `IAPREFIX` option exactly when the datagram is a
valid reply. -/
theorem body_iff {alloc : Nat → Bool} {m : Mem} {buffer pd off : Nat} {r : List UInt8}
    (hplaced : Placed buffer r.length) (hmax : r.length ≠ sizeMax) (hm : m.slice buffer r.length = r)
    (hfirst : firstIAPD alloc m buffer r.length = some pd) (hoff : pd + 20 = buffer + off) :
    (BodyOfIAPrefix r off ∧
      (DhOptIAPrefix.read (swapAll m (visited m buffer r.length)) (pd + 20)).bytes =
        (r.drop off).take 25) ↔ ValidReply alloc r := by
  have hserver : IsServerMessage (m buffer) := by
    by_contra hn
    rw [firstIAPD, if_pos (.inr hn)] at hfirst
    cases hfirst
  constructor
  · rintro ⟨hbody, _⟩
    have hlong : 4 < r.length := by
      obtain ⟨o, ho, _⟩ := hbody
      exact lt_of_mem_wholeIAPDs ho
    rcases firstIAPD_cases hm hlong hmax hfirst with ⟨o, hhead, rfl⟩ | ⟨_, _, rfl⟩
    · have ho := (granted_sublist alloc 0 _).subset (List.mem_of_head? hhead)
      obtain rfl : off = o.1 + 20 := by omega
      refine ⟨⟨m buffer, ?_, hserver⟩, o, hhead, head_of_body ho hbody⟩
      rw [← hm]
      exact Mem.head?_slice m buffer (by omega)
    · rw [tailPtr_offset hm hlong] at hoff
      exact absurd hbody (not_body_tail (by omega))
  · rintro ⟨_, o, hhead, sub, hsub, hisPrefix⟩
    have ho := (granted_sublist alloc 0 _).subset (List.mem_of_head? hhead)
    have hlong := lt_of_mem_wholeIAPDs ho
    have hpd := firstIAPD_of_granted hm hlong hmax hserver hhead
    obtain rfl : pd = buffer + o.1 := Option.some.inj (hfirst.symm.trans hpd)
    obtain rfl : off = o.1 + 20 := by omega
    refine ⟨⟨o, ho, sub, List.mem_of_head? hsub, hisPrefix, ?_⟩, ?_⟩
    · rw [subOptions_head hsub, dhOptPayloadOffset]
    · exact read_body hplaced hm hlong hmax ho hsub hisPrefix

/-- A call whose datagram led to a prefix ends as it ought to exactly when the
datagram is a valid reply. -/
theorem installed_iff {env : DhcpEnv} {buffer bufferLength pd : Nat} {c : DhcpCall} {m : Mem}
    {d r : List UInt8} (hplaced : Placed buffer r.length) (hrecv : env.received = some d)
    (hr : r = receivedBytes bufferLength d) (hmax : r.length ≠ sizeMax)
    (hm : m.slice buffer r.length = r) (hfirst : firstIAPD env.alloc m buffer r.length = some pd)
    (hread : c.prefixResult = DhOptIAPrefix.read (swapAll m (visited m buffer r.length)) (pd + 20))
    (hfrom : c.copiedFrom = some (pd + 20)) (hret : c.ret = some 0) :
    Installed env buffer bufferLength c ↔ ValidReply env.alloc r := by
  constructor
  · rintro ⟨_, d', off, hd', hfrom', hbody, hbytes⟩
    obtain rfl : d = d' := Option.some.inj (hrecv.symm.trans hd')
    rw [← hr] at hbody hbytes
    have hoff : pd + 20 = buffer + off := Option.some.inj (hfrom.symm.trans hfrom')
    exact (body_iff hplaced hmax hm hfirst hoff).mp ⟨hbody, hread ▸ hbytes⟩
  · intro hvalid
    obtain ⟨_, o, hhead, sub, hsub, hisPrefix⟩ := id hvalid
    have ho := (granted_sublist env.alloc 0 _).subset (List.mem_of_head? hhead)
    have hge := firstIAPD_ge hfirst
    have hoff : pd + 20 = buffer + (pd - buffer + 20) := by omega
    obtain ⟨hbody, hbytes⟩ := (body_iff hplaced hmax hm hfirst hoff).mpr hvalid
    refine ⟨hret, d, _, hrecv, by rw [hfrom, hoff], ?_, ?_⟩
    · rwa [← hr]
    · rw [hread, ← hr]
      exact hbytes

/-- A reply that leads nowhere is not a valid one. -/
theorem not_validReply_of_none {alloc : Nat → Bool} {m : Mem} {buffer : Nat} {r : List UInt8}
    (hmax : r.length ≠ sizeMax) (hm : m.slice buffer r.length = r)
    (hfirst : firstIAPD alloc m buffer r.length = none) : ¬ ValidReply alloc r := by
  rintro ⟨⟨msgType, hmem, hserver⟩, o, hhead, _⟩
  have ho := (granted_sublist alloc 0 _).subset (List.mem_of_head? hhead)
  have hlong := lt_of_mem_wholeIAPDs ho
  have hfirstByte : m buffer = msgType := by
    rw [← hm, Mem.head?_slice m buffer (by omega)] at hmem
    exact Option.some.inj hmem
  rw [firstIAPD_of_granted hm hlong hmax (hfirstByte ▸ hserver) hhead] at hfirst
  cases hfirst

end ValidReplyLemmas

open ValidReplyLemmas

/-- The call ends as it ought to exactly when the Solicit was built and either
was not sent or was answered by a valid reply. -/
theorem installsOnlyValid_iff (env : DhcpEnv) (handler : Nat) (m : Mem) {buffer bufferLength : Nat}
    (before : DhOptIAPrefix) (hbuffer : BufferAt buffer bufferLength) :
    InstallsOnlyValid env handler m buffer bufferLength before ↔
      SendFailsOrValidReply env bufferLength := by
  obtain ⟨c, hret, hresult⟩ := request_cases env handler m before hbuffer
  rw [InstallsOnlyValid, hret.exists_iff, installed_or_refused, SendFailsOrValidReply]
  have hdied (hnone : c.ret = none) : ¬ (Installed env buffer bufferLength c ∨ Refused before c) := by
    rintro (⟨hzero, _⟩ | ⟨r, hr, _⟩)
    · rw [hnone] at hzero
      cases hzero
    · rw [hnone] at hr
      cases hr
  cases hresult with
  | noTransId htrans _ _ _ hnone => exact iff_of_false (hdied hnone) (by simp [htrans])
  | sendFailed transId htrans hsend hkeep _ _ hone =>
    exact iff_of_true (.inr ⟨1, hone, by decide, hkeep⟩) (by simp [htrans, hsend])
  | sent transId m' htrans hsend hreply =>
    simp only [htrans, hsend, Option.isSome_some, true_and, Bool.false_eq_true, false_or]
    cases hreply with
    | receiveFailed hrecv _ _ _ hnone => exact iff_of_false (hdied hnone) (by simp [hrecv])
    | nullFollowed d r hrecv hr hfirst _ _ _ hnone =>
      have hle : r.length ≤ bufferLength := hr ▸ List.length_take_le _ _
      have hnot := not_validReply_of_none (hbuffer.ne_sizeMax hle)
        (Mem.slice_put_same m' buffer r) hfirst
      rw [hr] at hnot
      exact iff_of_false (hdied hnone) (by simpa [hrecv] using hnot)
    | installed d r pd hrecv hr hfirst hread hfrom _ hzero =>
      have hle : r.length ≤ bufferLength := hr ▸ List.length_take_le _ _
      have hiff := installed_iff (hbuffer.placed hle) hrecv hr (hbuffer.ne_sizeMax hle)
        (Mem.slice_put_same m' buffer r) hfirst hread hfrom hzero
      have hnot : ¬ Refused before c := by
        rintro ⟨r', hr', hne, _⟩
        rw [hzero] at hr'
        exact hne (Option.some.inj hr').symm
      rw [or_iff_left hnot, hiff, hrecv, hr]
      simp

/-- The blocks of a Solicit, one page each. -/
def exSolicitBlocks : SolicitBlocks where
  id := 0x1000
  clientId := 0x2000
  esTime := 0x3000
  iaPd := 0x4000
  rapid := 0x5000
  packet := 0x6000
  apart := by decide
  inside := by decide

/-- A call that receives `d`. -/
def exReceives (d : List UInt8) : DhcpEnv where
  blocks := exSolicitBlocks
  transId := some ⟨1, 2, 3⟩
  sendFails := false
  received := some d
  alloc := fun _ => true

/-- A `REPLY` whose `IA_PD` holds a Status Code option of 25 bytes, no prefix. -/
def exStatusCode : List UInt8 :=
  [7, 1, 2, 3, 0, 25, 0, 41] ++ List.replicate 12 0 ++ [0, 13, 0, 25] ++ List.replicate 25 6

/-- The same with a prefix. -/
def exPrefixReply : List UInt8 :=
  [7, 1, 2, 3, 0, 25, 0, 41] ++ List.replicate 12 0 ++ [0, 26, 0, 25] ++ List.replicate 25 6

def exNoPrefix : DhOptIAPrefix := ⟨0, 0, 0, In6Addr.zero⟩

/-- The Status Code is installed as a prefix. -/
theorem exStatusCode_installed :
    ¬ InstallsOnlyValid (exReceives exStatusCode) 3 (fun _ => 0) 0x8000 1500 exNoPrefix := by
  rintro ⟨c, hret, hxor⟩
  have hrun : (requestAndReceiveDhcp (exReceives exStatusCode) 3 (fun _ => 0) 0x8000 1500
      exNoPrefix 1).map DhcpCall.ret = some (some 0) := by decide +kernel
  have hzero : c.ret = some 0 := hret.map_eq returns_request hrun
  rcases installed_or_refused.mp hxor with ⟨_, d, off, hd, _, hbody, _⟩ | ⟨r, hr, hne, _⟩
  · obtain rfl : exStatusCode = d := Option.some.inj hd
    obtain ⟨pd, hpd, sub, hsub, hisPrefix, _⟩ := hbody
    have hnone : ∀ pd ∈ wholeIAPDs (receivedBytes 1500 exStatusCode), ∀ sub ∈ subOptions pd,
        ¬ IsIAPrefix sub.2 := by decide +kernel
    exact hnone pd hpd sub hsub hisPrefix
  · rw [hzero] at hr
    exact hne (Option.some.inj hr).symm

theorem exPrefixReply_installed :
    InstallsOnlyValid (exReceives exPrefixReply) 3 (fun _ => 0) 0x8000 1500 exNoPrefix :=
  (installsOnlyValid_iff (exReceives exPrefixReply) 3 (fun _ => 0) exNoPrefix
    ⟨by decide, by decide⟩).mpr (by decide +kernel)

end Pdrad
