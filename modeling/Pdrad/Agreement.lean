import Pdrad.PrefixBytes
import Pdrad.Runs

/-!
# Which datagram a prefix comes from

The client socket and everyone who can send to it. Datagrams are sent by servers
and by others, may be lost, and are delivered in any order; a call of
`requestAndReceiveDhcp` sends a Solicit and takes the next datagram delivered.

1. `provenance_run`: whenever a call writes `*prefixResultPtr`, it took the datagram
   itself, behind its own Solicit, and the 25 bytes written are the bytes of its buffer
   behind the first `IA_PD` of that datagram (`CopiedBytes`).
2. `recordsWrites_step`: no write is left out.
3. `receiveReply_sameButId`: the transaction id of the datagram plays no part; it
   is never compared with the one sent.
4. `exNines_run`: so a reply to another Solicit is installed.
-/

namespace Pdrad

open DhOptPayload DhReaderLemmas RequestDhcpLemmas ValidReplyLemmas

/-! ## The system -/

/-- Where the client is: between two calls, in a call whose Solicit is sent, or
gone. -/
inductive Phase where
  | idle
  | waiting (transId : DhPktTransactionId) (sent : SysCall)
  | dead

/-- A write to `*prefixResultPtr`: the 25 bytes written and the address they were
copied from; of the call that made it the id it had drawn, the datagram it took, the
memory at that time and the list nodes its parser got; and the numbers of its Solicit
and of the datagram. -/
structure Write where
  bytes : List UInt8
  copiedFrom : Nat
  transId : DhPktTransactionId
  datagram : List UInt8
  mem : Mem
  alloc : Nat → Bool
  solicitNo : Nat
  datagramNo : Nat

/-- `inFlight` are the datagrams on their way to the client. Of the datagrams
`delivered` to its socket the first `taken` have been received. -/
structure World where
  mem : Mem
  prefixResult : DhOptIAPrefix
  phase : Phase
  solicits : List SysCall
  inFlight : List (List UInt8)
  delivered : List (List UInt8)
  taken : Nat
  writes : List Write

inductive Event where
  | send (d : List UInt8)
  | deliver (d : List UInt8)
  | lose (d : List UInt8)
  | callEnds (env : DhcpEnv)
  | callSends (env : DhcpEnv)
  | receive (alloc : Nat → Bool) (d : List UInt8)
  | receiveFails (alloc : Nat → Bool)
  | between (m : Mem) (prefixResult : DhOptIAPrefix)

/-- The phase after a call that came to the end `c`. -/
def phaseAfter (c : DhcpCall) : Phase :=
  if c.ret.isSome then .idle else .dead

/-- What a call wrote that took the datagram `d` in the world `w` and ended as `c`. -/
def World.written (w : World) (transId : DhPktTransactionId) (alloc : Nat → Bool) (d : List UInt8)
    (c : DhcpCall) : List Write :=
  (c.copiedFrom.map fun p =>
    { bytes := c.prefixResult.bytes
      copiedFrom := p
      transId := transId
      datagram := d
      mem := w.mem
      alloc := alloc
      solicitNo := w.solicits.length - 1
      datagramNo := w.taken }).toList

section

variable (handler buffer bufferLength : Nat)

/-- The steps of the system. The calls are the two halves of
`requestAndReceiveDhcp`; `between` is what the caller does between two of them. -/
inductive World.Step (w : World) : Event → World → Prop where
  | send (d : List UInt8) : Step w (.send d) { w with inFlight := w.inFlight ++ [d] }
  | deliver (before after : List (List UInt8)) (d : List UInt8) :
      w.inFlight = before ++ d :: after →
      Step w (.deliver d)
        { w with inFlight := before ++ after, delivered := w.delivered ++ [d] }
  | lose (before after : List (List UInt8)) (d : List UInt8) :
      w.inFlight = before ++ d :: after → Step w (.lose d) { w with inFlight := before ++ after }
  | callEnds (env : DhcpEnv) (c : DhcpCall) : w.phase = .idle →
      sendRequest env handler w.mem w.prefixResult = .ended c →
      Step w (.callEnds env)
        { w with mem := c.mem, prefixResult := c.prefixResult, phase := phaseAfter c }
  | callSends (env : DhcpEnv) (transId : DhPktTransactionId) (sent : SysCall) (m : Mem) :
      w.phase = .idle → env.transId = some transId →
      sendRequest env handler w.mem w.prefixResult = .sent sent m →
      Step w (.callSends env)
        { w with mem := m, phase := .waiting transId sent, solicits := w.solicits ++ [sent] }
  | receive (alloc : Nat → Bool) (transId : DhPktTransactionId) (sent : SysCall) (d : List UInt8)
      (c : DhcpCall) : w.phase = .waiting transId sent → w.delivered[w.taken]? = some d →
      Returns (receiveReply alloc (some d) handler sent w.mem buffer bufferLength w.prefixResult) c →
      Step w (.receive alloc d)
        { w with mem := c.mem, prefixResult := c.prefixResult, phase := phaseAfter c
                 taken := w.taken + 1
                 writes := w.writes ++ w.written transId alloc d c }
  | receiveFails (alloc : Nat → Bool) (transId : DhPktTransactionId) (sent : SysCall)
      (c : DhcpCall) : w.phase = .waiting transId sent →
      Returns (receiveReply alloc none handler sent w.mem buffer bufferLength w.prefixResult) c →
      Step w (.receiveFails alloc)
        { w with mem := c.mem, prefixResult := c.prefixResult, phase := phaseAfter c }
  | between (m : Mem) (prefixResult : DhOptIAPrefix) : w.phase = .idle →
      Step w (.between m prefixResult) { w with mem := m, prefixResult := prefixResult }

end

/-- Nothing sent, nothing received. -/
def World.start (m : Mem) (prefixResult : DhOptIAPrefix) : World where
  mem := m
  prefixResult := prefixResult
  phase := .idle
  solicits := []
  inFlight := []
  delivered := []
  taken := 0
  writes := []

/-- The three bytes of a datagram's transaction id. -/
def datagramId (d : List UInt8) : List UInt8 := (d.drop 1).take 3

/-- Every write comes from a datagram with the id of the Solicit. -/
def World.Agrees (w : World) : Prop :=
  ∀ x ∈ w.writes, datagramId x.datagram = x.transId.bytes

/-! ## Where a written prefix comes from -/

/-- The write is that of a call of `requestAndReceiveDhcp` that drew the id, sent its
Solicit and received the datagram. -/
def Write.OfCall (handler buffer bufferLength : Nat) (x : Write) : Prop :=
  ∃ (env : DhcpEnv) (m : Mem) (before : DhOptIAPrefix) (c : DhcpCall),
    env.transId = some x.transId ∧ env.received = some x.datagram ∧ env.alloc = x.alloc ∧
    sendRequest env handler m before = .sent (sendSolicit handler x.transId) x.mem ∧
    Returns (requestAndReceiveDhcp env handler m buffer bufferLength before) c ∧
    c.copiedFrom = some x.copiedFrom ∧ c.prefixResult.bytes = x.bytes

/-- The bytes written are those that the call's buffer holds behind the first `IA_PD`
of the datagram. -/
def Write.OfDatagram (buffer bufferLength : Nat) (x : Write) : Prop :=
  ∃ off, x.copiedFrom = buffer + off ∧
    CopiedBytes x.alloc x.mem buffer (receivedBytes bufferLength x.datagram) off x.bytes

/-- Every write was made by a call with a Solicit of its own, sent before the datagram
was taken, and its bytes come from that datagram. No two writes share a Solicit or a
datagram. -/
structure World.Provenance (handler buffer bufferLength : Nat) (w : World) : Prop where
  call : ∀ x ∈ w.writes, x.OfCall handler buffer bufferLength
  bytes : ∀ x ∈ w.writes, x.OfDatagram buffer bufferLength
  datagram : ∀ x ∈ w.writes, w.delivered[x.datagramNo]? = some x.datagram
  solicit : ∀ x ∈ w.writes, w.solicits[x.solicitNo]? = some (sendSolicit handler x.transId)
  inOrder : w.writes.Pairwise fun x y => x.solicitNo < y.solicitNo ∧ x.datagramNo < y.datagramNo

/-- A call that changes `*prefixResultPtr` has written, and what is in it then is what
was written. Between two calls it is the caller's. -/
def RecordsWrites (w : World) (e : Event) (w' : World) : Prop :=
  (∃ m prefixResult, e = .between m prefixResult) ∨
    (w'.writes = w.writes ∧ w'.prefixResult = w.prefixResult) ∨
    ∃ x, w'.writes = w.writes ++ [x] ∧ w'.prefixResult.bytes = x.bytes

/-- The first half of a call is over, and nothing has changed since. -/
def World.Sent (handler : Nat) (w : World) (transId : DhPktTransactionId) (sent : SysCall) : Prop :=
  sent = sendSolicit handler transId ∧ ∃ (env : DhcpEnv) (m : Mem),
    env.transId = some transId ∧ sendRequest env handler m w.prefixResult = .sent sent w.mem

/-- What the steps keep: besides the provenance, all datagrams written from are
among those taken, and a call that waits has sent its Solicit last, behind those
of all writes. -/
structure World.Invariant (handler buffer bufferLength : Nat) (w : World) : Prop where
  provenance : w.Provenance handler buffer bufferLength
  taken : ∀ x ∈ w.writes, x.datagramNo < w.taken
  solicited : ∀ x ∈ w.writes, x.solicitNo < w.solicits.length
  sent : ∀ transId sent, w.phase = .waiting transId sent → w.Sent handler transId sent
  waiting : ∀ transId sent, w.phase = .waiting transId sent →
    ∃ earlier, w.solicits = earlier ++ [sent] ∧ ∀ x ∈ w.writes, x.solicitNo < earlier.length

namespace AgreementLemmas

variable {handler buffer bufferLength : Nat} {w : World}

theorem phaseAfter_ne_waiting (c : DhcpCall) (transId : DhPktTransactionId) (sent : SysCall) :
    phaseAfter c ≠ .waiting transId sent := by
  unfold phaseAfter
  split <;> simp

/-- A list keeps its elements when it grows at the end. -/
theorem getElem?_snoc {α : Type} {xs : List α} {i : Nat} {x y : α} (h : xs[i]? = some x) :
    (xs ++ [y])[i]? = some x := by
  have hi := (List.getElem?_eq_some_iff.mp h).1
  rw [List.getElem?_append_left hi, h]

theorem forall_mem_snoc {α : Type} {P : α → Prop} {xs : List α} {y : α} (hold : ∀ x ∈ xs, P x)
    (hnew : P y) : ∀ x ∈ xs ++ [y], P x :=
  List.forall_mem_append.mpr ⟨hold, List.forall_mem_singleton.mpr hnew⟩

theorem sendRequest_sent {env : DhcpEnv} {m m' : Mem} {before : DhOptIAPrefix} {sent : SysCall}
    {transId : DhPktTransactionId} (htrans : env.transId = some transId)
    (h : sendRequest env handler m before = .sent sent m') : sent = sendSolicit handler transId := by
  rcases sendRequest_cases env handler m before with ⟨_, _, heq⟩ | ⟨_, _, _, _, heq⟩ |
    ⟨t, _, ht, _, heq⟩
  · rw [heq] at h
    cases h
  · rw [heq] at h
    cases h
  · rw [heq] at h
    cases h
    rw [Option.some.inj (ht.symm.trans htrans)]

/-- The second half of a call, behind a first one that sent the Solicit, makes a call. -/
theorem returns_of_halves {env : DhcpEnv} {m m' : Mem} {before : DhOptIAPrefix} {sent : SysCall}
    {c : DhcpCall} (hsend : sendRequest env handler m before = .sent sent m')
    (hreply : Returns
      (receiveReply env.alloc env.received handler sent m' buffer bufferLength before) c) :
    Returns (requestAndReceiveDhcp env handler m buffer bufferLength before) c := by
  obtain ⟨n, hn⟩ := hreply
  refine ⟨n, fun k hk => ?_⟩
  unfold requestAndReceiveDhcp
  rw [hsend]
  exact hn k hk

theorem written_of_none {transId : DhPktTransactionId} {alloc : Nat → Bool} {d : List UInt8}
    {c : DhcpCall} (h : c.copiedFrom = none) : w.written transId alloc d c = [] := by
  rw [World.written, h]
  rfl

theorem written_of_some {transId : DhPktTransactionId} {alloc : Nat → Bool} {d : List UInt8}
    {c : DhcpCall} {p : Nat} (h : c.copiedFrom = some p) : w.written transId alloc d c =
      [⟨c.prefixResult.bytes, p, transId, d, w.mem, alloc, w.solicits.length - 1, w.taken⟩] := by
  rw [World.written, h]
  rfl

/-- A receive writes nothing, or 25 bytes of the datagram. -/
theorem receive_cases (hbuffer : BufferAt buffer bufferLength) {alloc : Nat → Bool} {sent : SysCall}
    {d : List UInt8} {c : DhcpCall} {m : Mem} {before : DhOptIAPrefix}
    (hret : Returns (receiveReply alloc (some d) handler sent m buffer bufferLength before) c) :
    (c.copiedFrom = none ∧ c.prefixResult = before) ∨
      ∃ off, c.copiedFrom = some (buffer + off) ∧
        CopiedBytes alloc m buffer (receivedBytes bufferLength d) off c.prefixResult.bytes := by
  obtain ⟨c', hret', hresult⟩ := receiveReply_cases alloc (some d) handler sent m before hbuffer
  obtain rfl := hret.unique hret'
  cases hresult with
  | receiveFailed hnone => cases hnone
  | nullFollowed d' r hd hr hfirst hkeep hfrom => exact .inl ⟨hfrom, hkeep⟩
  | installed d' r pd hd hr hfirst hread hfrom =>
    cases hd
    subst hr
    exact .inr (copied_of_installed hbuffer rfl hfirst hread hfrom)

/-- What a step does to the invariant that neither writes nor sends. -/
theorem invariant_of_same {w' : World} (h : w.Invariant handler buffer bufferLength)
    (hwrites : w'.writes = w.writes) (hsolicits : w'.solicits = w.solicits)
    (hdelivered : ∀ (i : Nat) (d : List UInt8), w.delivered[i]? = some d → w'.delivered[i]? = some d)
    (htaken : w.taken ≤ w'.taken)
    (hphase : ∀ transId sent, w'.phase = .waiting transId sent →
      w.phase = .waiting transId sent ∧ w'.mem = w.mem ∧ w'.prefixResult = w.prefixResult) :
    w'.Invariant handler buffer bufferLength := by
  obtain ⟨⟨hcall, hbytes, hdatagram, hsolicit, horder⟩, htake, hsolicited, hsent, hwait⟩ := h
  rw [← hwrites] at hcall hbytes hdatagram hsolicit horder htake hsolicited hwait
  rw [← hsolicits] at hsolicit hsolicited hwait
  refine ⟨⟨hcall, hbytes, ?_, hsolicit, horder⟩, ?_, hsolicited, ?_, ?_⟩
  · intro x hx
    exact hdelivered _ _ (hdatagram x hx)
  · intro x hx
    exact Nat.lt_of_lt_of_le (htake x hx) htaken
  · intro transId sent hw'
    obtain ⟨hw, hmem, hresult⟩ := hphase transId sent hw'
    rw [World.Sent, hmem, hresult]
    exact hsent transId sent hw
  · intro transId sent hw'
    exact hwait transId sent (hphase transId sent hw').1

/-- The write of a call that waited: its Solicit and its datagram are new. -/
theorem invariant_write {transId : DhPktTransactionId} {sent : SysCall} {d : List UInt8}
    {alloc : Nat → Bool} {c : DhcpCall} {off : Nat} (h : w.Invariant handler buffer bufferLength)
    (hphase : w.phase = .waiting transId sent) (hd : w.delivered[w.taken]? = some d)
    (hret : Returns
      (receiveReply alloc (some d) handler sent w.mem buffer bufferLength w.prefixResult) c)
    (hfrom : c.copiedFrom = some (buffer + off))
    (hcopied : CopiedBytes alloc w.mem buffer (receivedBytes bufferLength d) off c.prefixResult.bytes) :
    ({ w with mem := c.mem, prefixResult := c.prefixResult, phase := phaseAfter c
              taken := w.taken + 1
              writes := w.writes ++ w.written transId alloc d c } :
      World).Invariant handler buffer bufferLength := by
  obtain ⟨⟨hcall, hbytes, hdatagram, hsolicit, horder⟩, htake, hsolicited, hsent, hwait⟩ := h
  obtain ⟨rfl, env, m, htrans, hsend⟩ := hsent transId sent hphase
  obtain ⟨earlier, hsolicits, hearlier⟩ := hwait transId _ hphase
  have hlast : w.solicits.length - 1 = earlier.length := by simp [hsolicits]
  rw [written_of_some hfrom, hlast]
  refine ⟨⟨?_, ?_, ?_, ?_, ?_⟩, ?_, ?_, ?_, ?_⟩
  · exact forall_mem_snoc hcall ⟨{ env with received := some d, alloc := alloc }, m, w.prefixResult,
      c, htrans, rfl, rfl, hsend, returns_of_halves hsend hret, hfrom, rfl⟩
  · exact forall_mem_snoc hbytes ⟨off, rfl, hcopied⟩
  · exact forall_mem_snoc hdatagram hd
  · exact forall_mem_snoc hsolicit (by simp [hsolicits])
  · refine List.pairwise_append.mpr ⟨horder, List.pairwise_singleton _ _, ?_⟩
    intro x hx y hy
    obtain rfl := List.mem_singleton.mp hy
    exact ⟨hearlier x hx, htake x hx⟩
  · exact forall_mem_snoc (fun x hx => Nat.lt_succ_of_lt (htake x hx)) (Nat.lt_succ_self _)
  · exact forall_mem_snoc hsolicited (by simp [hsolicits])
  · intro transId' sent' hw'
    exact absurd hw' (phaseAfter_ne_waiting c transId' sent')
  · intro transId' sent' hw'
    exact absurd hw' (phaseAfter_ne_waiting c transId' sent')

end AgreementLemmas

open AgreementLemmas

/-- Every step keeps the invariant. -/
theorem invariant_step {handler buffer bufferLength : Nat} (hbuffer : BufferAt buffer bufferLength)
    {w w' : World} {e : Event} (h : w.Invariant handler buffer bufferLength)
    (hstep : World.Step handler buffer bufferLength w e w') :
    w'.Invariant handler buffer bufferLength := by
  have hended {t : World} {c : DhcpCall} (ht : t.phase = phaseAfter c)
      (transId : DhPktTransactionId) (sent : SysCall) (hw : t.phase = .waiting transId sent) :
      w.phase = .waiting transId sent ∧ t.mem = w.mem ∧ t.prefixResult = w.prefixResult :=
    absurd (ht.symm.trans hw) (phaseAfter_ne_waiting c transId sent)
  cases hstep with
  | send d =>
    exact invariant_of_same h rfl rfl (fun _ _ hi => hi) (Nat.le_refl _) fun _ _ hp => ⟨hp, rfl, rfl⟩
  | deliver before after d hflight =>
    exact invariant_of_same h rfl rfl (fun _ _ hi => getElem?_snoc hi) (Nat.le_refl _)
      fun _ _ hp => ⟨hp, rfl, rfl⟩
  | lose before after d hflight =>
    exact invariant_of_same h rfl rfl (fun _ _ hi => hi) (Nat.le_refl _) fun _ _ hp => ⟨hp, rfl, rfl⟩
  | callEnds env c hphase hsend =>
    exact invariant_of_same h rfl rfl (fun _ _ hi => hi) (Nat.le_refl _) (hended rfl)
  | callSends env transId sent m hphase htrans hsend =>
    obtain ⟨⟨hcall, hbytes, hdatagram, hsolicit, horder⟩, htake, hsolicited, _, _⟩ := h
    refine ⟨⟨hcall, hbytes, hdatagram, fun x hx => getElem?_snoc (hsolicit x hx), horder⟩, htake,
      ?_, ?_, ?_⟩
    · intro x hx
      have hlt := hsolicited x hx
      simp only [List.length_append, List.length_singleton]
      omega
    · intro transId' sent' hw
      cases hw
      exact ⟨sendRequest_sent htrans hsend, env, w.mem, htrans, hsend⟩
    · intro transId' sent' hw
      cases hw
      exact ⟨w.solicits, rfl, hsolicited⟩
  | receive alloc transId sent d c hphase hd hret =>
    rcases receive_cases hbuffer hret with ⟨hfrom, _⟩ | ⟨off, hfrom, hcopied⟩
    · rw [written_of_none hfrom, List.append_nil]
      exact invariant_of_same h rfl rfl (fun _ _ hi => hi) (Nat.le_succ _) (hended rfl)
    · exact invariant_write h hphase hd hret hfrom hcopied
  | receiveFails alloc transId sent c hphase hret =>
    exact invariant_of_same h rfl rfl (fun _ _ hi => hi) (Nat.le_refl _) (hended rfl)
  | between m prefixResult hphase =>
    refine invariant_of_same h rfl rfl (fun _ _ hi => hi) (Nat.le_refl _) fun transId sent hw => ?_
    exact absurd (hphase.symm.trans hw) Phase.noConfusion

theorem invariant_start (handler buffer bufferLength : Nat) (m : Mem) (prefixResult : DhOptIAPrefix) :
    (World.start m prefixResult).Invariant handler buffer bufferLength := by
  refine ⟨⟨?_, ?_, ?_, ?_, List.Pairwise.nil⟩, ?_, ?_, ?_, ?_⟩
  all_goals
    intros
    contradiction

/-- A call that does not write leaves `*prefixResultPtr` as it was. -/
theorem recordsWrites_step {handler buffer bufferLength : Nat}
    (hbuffer : BufferAt buffer bufferLength) {w w' : World} {e : Event}
    (hstep : World.Step handler buffer bufferLength w e w') : RecordsWrites w e w' := by
  cases hstep with
  | send d => exact .inr (.inl ⟨rfl, rfl⟩)
  | deliver before after d hflight => exact .inr (.inl ⟨rfl, rfl⟩)
  | lose before after d hflight => exact .inr (.inl ⟨rfl, rfl⟩)
  | callEnds env c hphase hsend =>
    refine .inr (.inl ⟨rfl, ?_⟩)
    rcases sendRequest_cases env handler w.mem w.prefixResult with ⟨_, _, heq⟩ |
      ⟨_, _, _, _, heq⟩ | ⟨_, _, _, _, heq⟩
    all_goals
      rw [heq] at hsend
      cases hsend
    · rfl
    · rfl
  | callSends env transId sent m hphase htrans hsend => exact .inr (.inl ⟨rfl, rfl⟩)
  | receive alloc transId sent d c hphase hd hret =>
    rcases receive_cases hbuffer hret with ⟨hfrom, hkeep⟩ | ⟨off, hfrom, _⟩
    · refine .inr (.inl ⟨?_, hkeep⟩)
      rw [written_of_none hfrom, List.append_nil]
    · exact .inr (.inr ⟨_, by rw [written_of_some hfrom], rfl⟩)
  | receiveFails alloc transId sent c hphase hret =>
    obtain ⟨c', hret', hresult⟩ :=
      receiveReply_cases alloc none handler sent w.mem w.prefixResult hbuffer
    obtain rfl := hret.unique hret'
    refine .inr (.inl ⟨rfl, ?_⟩)
    cases hresult with
    | receiveFailed _ hkeep => exact hkeep
    | nullFollowed d r hd => cases hd
    | installed d r pd hd => cases hd
  | between m prefixResult hphase => exact .inl ⟨m, prefixResult, rfl⟩

/-! ## The id of the datagram plays no part -/

/-- The same datagram but for the three bytes of the transaction id. -/
def SameButId (d d' : List UInt8) : Prop :=
  d'.length = d.length ∧ ∀ i, ¬ (1 ≤ i ∧ i ≤ 3) → d'[i]? = d[i]?

/-- Two calls that differ in nothing the caller can see. -/
structure SameOutcome (c c' : DhcpCall) : Prop where
  prefixResult : c'.prefixResult = c.prefixResult
  copiedFrom : c'.copiedFrom = c.copiedFrom
  calls : c'.calls = c.calls
  ret : c'.ret = c.ret

namespace AgreementLemmas

/-- Two memories that agree from `a` on. -/
def SameFrom (a : Nat) (m m' : Mem) : Prop := ∀ x, a ≤ x → m' x = m x

theorem SameFrom.slice {a p n : Nat} {m m' : Mem} (h : SameFrom a m m') (hp : a ≤ p) :
    m'.slice p n = m.slice p n :=
  Mem.slice_congr fun x hx _ => h x (by omega)

theorem SameFrom.swapHeader {a p : Nat} {m m' : Mem} (h : SameFrom a m m') (hp : a ≤ p) :
    SameFrom a (swapHeader m p) (swapHeader m' p) := by
  intro x hx
  rw [swapHeader_eq, swapHeader_eq, h.slice hp, h.slice (Nat.le_add_right_of_le hp)]
  simp only [Mem.put, h x hx]

theorem SameFrom.swapAll {a : Nat} {m m' : Mem} {ps : List Nat} (h : SameFrom a m m')
    (hps : ∀ p ∈ ps, a ≤ p) : SameFrom a (swapAll m ps) (swapAll m' ps) := by
  induction ps generalizing m m' with
  | nil => exact h
  | cons p ps ih =>
    exact ih (h.swapHeader (hps p List.mem_cons_self)) fun q hq => hps q (List.mem_cons_of_mem p hq)

theorem SameFrom.read {a p : Nat} {m m' : Mem} (h : SameFrom a m m') (hp : a ≤ p) :
    DhOptIAPrefix.read m' p = DhOptIAPrefix.read m p := by
  simp only [DhOptIAPrefix.read, In6Addr.read, Mem.load32, h.slice hp,
    h.slice (Nat.le_add_right_of_le hp), h (p + 8) (by omega)]

theorem SameFrom.wireCode {a p : Nat} {m m' : Mem} (h : SameFrom a m m') (hp : a ≤ p) :
    wireCode m' p = wireCode m p :=
  (wire_congr (h.slice hp)).1

theorem SameFrom.visited {pkt size : Nat} {m m' : Mem} (h : SameFrom (pkt + 4) m m') :
    visited m' pkt size = visited m pkt size := by
  rw [Pdrad.visited, Pdrad.visited, h.slice (Nat.le_refl _)]

theorem SameFrom.firstIAPD {pkt : Nat} {m m' : Mem} (h : SameFrom (pkt + 4) m m')
    (alloc : Nat → Bool) (size : Nat) (htype : m' pkt = m pkt) :
    firstIAPD alloc m' pkt size = firstIAPD alloc m pkt size := by
  have hcode : withCode m' .iaPd (Pdrad.visited m pkt size) =
      withCode m .iaPd (Pdrad.visited m pkt size) := by
    apply List.filter_congr
    intro p hp
    rw [h.wireCode (visited_ge hp)]
  rw [Pdrad.firstIAPD, Pdrad.firstIAPD, htype, h.visited, hcode]

/-- Datagrams that differ in the id put the same bytes behind the header. -/
theorem sameFrom_put (m : Mem) (buffer : Nat) {r r' : List UInt8} (h : SameButId r r') :
    SameFrom (buffer + 4) (m.put buffer r) (m.put buffer r') ∧
      m.put buffer r' buffer = m.put buffer r buffer := by
  constructor
  · intro x hx
    have hi := h.2 (x - buffer) (by omega)
    simp only [Mem.put, hi]
  · have hi := h.2 (buffer - buffer) (by omega)
    simp only [Mem.put, hi]

theorem sameButId_received {d d' : List UInt8} (n : Nat) (h : SameButId d d') :
    SameButId (receivedBytes n d) (receivedBytes n d') := by
  refine ⟨by simp [receivedBytes, h.1], fun i hi => ?_⟩
  simp only [receivedBytes, List.getElem?_take]
  split
  · exact h.2 i hi
  · rfl

end AgreementLemmas

/-- A datagram with another id has the same effect. -/
theorem receiveReply_sameButId (alloc : Nat → Bool) (handler : Nat) (sent : SysCall) (m : Mem)
    {buffer bufferLength : Nat} (before : DhOptIAPrefix) (hbuffer : BufferAt buffer bufferLength)
    {d d' : List UInt8} (hid : SameButId d d') :
    ∃ c c', Returns (receiveReply alloc (some d) handler sent m buffer bufferLength before) c ∧
      Returns (receiveReply alloc (some d') handler sent m buffer bufferLength before) c' ∧
      SameOutcome c c' := by
  obtain ⟨c, hret, hresult⟩ := receiveReply_cases alloc (some d) handler sent m before hbuffer
  obtain ⟨c', hret', hresult'⟩ := receiveReply_cases alloc (some d') handler sent m before hbuffer
  refine ⟨c, c', hret, hret', ?_⟩
  have hid' := sameButId_received bufferLength hid
  obtain ⟨hsame, htype⟩ := sameFrom_put m buffer hid'
  have hsameFirst := hsame.firstIAPD alloc (receivedBytes bufferLength d).length htype
  cases hfirst : firstIAPD alloc (m.put buffer (receivedBytes bufferLength d)) buffer
      (receivedBytes bufferLength d).length with
  | none =>
    obtain ⟨hkeep, hfrom, hcalls, hnone⟩ := hresult.of_none hfirst
    obtain ⟨hkeep', hfrom', hcalls', hnone'⟩ :=
      hresult'.of_none (by rw [hid'.1, hsameFirst, hfirst])
    exact ⟨hkeep'.trans hkeep.symm, hfrom'.trans hfrom.symm, hcalls'.trans hcalls.symm,
      hnone'.trans hnone.symm⟩
  | some pd =>
    obtain ⟨hread, hfrom, hcalls, hzero⟩ := hresult.of_some hfirst
    obtain ⟨hread', hfrom', hcalls', hzero'⟩ :=
      hresult'.of_some (by rw [hid'.1, hsameFirst, hfirst])
    refine ⟨?_, hfrom'.trans hfrom.symm, hcalls'.trans hcalls.symm, hzero'.trans hzero.symm⟩
    have hge := firstIAPD_ge hfirst
    rw [hread', hread, hid'.1, hsame.visited]
    exact (hsame.swapAll fun p hp => visited_ge hp).read (by omega)

/-- The part of a call behind `sendto` does not see the id of the datagram. -/
def IgnoresId (handler buffer bufferLength : Nat) : Prop :=
  ∀ (alloc : Nat → Bool) (sent : SysCall) (m : Mem) (before : DhOptIAPrefix) (d d' : List UInt8),
    SameButId d d' →
    ∃ c c', Returns (receiveReply alloc (some d) handler sent m buffer bufferLength before) c ∧
      Returns (receiveReply alloc (some d') handler sent m buffer bufferLength before) c' ∧
      SameOutcome c c'

/-- In every run, whenever a call writes `*prefixResultPtr`, it took the datagram
itself, behind its own Solicit, no other write comes from that datagram, and the bytes
written are those behind the first `IA_PD` of it. No write is left out. Which id the
datagram bears plays no part. -/
theorem provenance_run {handler buffer bufferLength : Nat} (hbuffer : BufferAt buffer bufferLength)
    {m : Mem} {before : DhOptIAPrefix} {es : List Event} {w : World}
    (hrun : Run (World.Step handler buffer bufferLength) (World.start m before) es w) :
    w.Provenance handler buffer bufferLength ∧
      (∀ e w', World.Step handler buffer bufferLength w e w' → RecordsWrites w e w') ∧
      IgnoresId handler buffer bufferLength := by
  refine ⟨?_, fun _ _ => recordsWrites_step hbuffer, ?_⟩
  · have hinvariant := Run.invariant (I := World.Invariant handler buffer bufferLength)
      (fun _ _ _ => invariant_step hbuffer) (invariant_start handler buffer bufferLength m before) hrun
    exact hinvariant.provenance
  · exact fun alloc sent m before _ _ hid =>
      receiveReply_sameButId alloc handler sent m before hbuffer hid

/-- A call whose Solicit bears the id 9, 9, 9. -/
def exNines : DhcpEnv :=
  { exReceives exPrefixReply with transId := some ⟨9, 9, 9⟩ }

/-- The call with the id 9, 9, 9 installs the prefix of a reply to 1, 2, 3. -/
theorem exNines_run : ∃ es w, Run (World.Step 3 0x8000 1500) (World.start (fun _ => 0) exNoPrefix)
    es w ∧ ∃ x ∈ w.writes, x.transId = ⟨9, 9, 9⟩ ∧ x.datagram = exPrefixReply ∧
      x.alloc = exNines.alloc := by
  rcases sendRequest_cases exNines 3 (fun _ => 0) exNoPrefix with ⟨hnone, _⟩ | ⟨_, _, _, hfails, _⟩ |
    ⟨transId, m, htrans, _, hsend⟩
  · cases hnone
  · cases hfails
  obtain rfl : ⟨9, 9, 9⟩ = transId := Option.some.inj htrans
  have hbuffer : BufferAt 0x8000 1500 := ⟨by decide, by decide⟩
  obtain ⟨c, hret, hresult⟩ := receiveReply_cases exNines.alloc (some exPrefixReply) 3
    (sendSolicit 3 ⟨9, 9, 9⟩) m exNoPrefix hbuffer
  have hvalid : ValidReply exNines.alloc (receivedBytes 1500 exPrefixReply) := by decide +kernel
  obtain ⟨pd, hfirst⟩ := Option.ne_none_iff_exists'.mp fun hnone =>
    not_validReply_of_none (by decide +kernel) (Mem.slice_put_same m 0x8000 _) hnone hvalid
  obtain ⟨_, hfrom, _⟩ := hresult.of_some hfirst
  refine ⟨_, _, Run.cons (.send exPrefixReply) (Run.cons (.deliver [] [] exPrefixReply rfl)
    (Run.cons (.callSends exNines ⟨9, 9, 9⟩ _ m rfl rfl hsend)
      (Run.single (.receive exNines.alloc ⟨9, 9, 9⟩ _ exPrefixReply c rfl rfl hret)))), ?_⟩
  rw [written_of_some hfrom]
  exact ⟨_, List.mem_append_right _ List.mem_cons_self, rfl, rfl, rfl⟩

/-- So the ids need not agree. -/
theorem exNines_disagree : ¬ ∀ es w,
    Run (World.Step 3 0x8000 1500) (World.start (fun _ => 0) exNoPrefix) es w → w.Agrees := by
  intro hall
  obtain ⟨es, w, hrun, x, hx, hid, hdatagram, _⟩ := exNines_run
  have hagree := hall es w hrun x hx
  rw [hid, hdatagram] at hagree
  exact absurd hagree (by decide)

/-- The bytes that call writes are those of the reply's prefix. -/
theorem exNines_provenance : ∃ es w,
    Run (World.Step 3 0x8000 1500) (World.start (fun _ => 0) exNoPrefix) es w ∧
      w.Provenance 3 0x8000 1500 ∧
      ∃ x ∈ w.writes, x.datagram = exPrefixReply ∧ x.bytes = List.replicate 25 6 := by
  obtain ⟨es, w, hrun, x, hx, _, hdatagram, halloc⟩ := exNines_run
  obtain ⟨hprovenance, _⟩ := provenance_run ⟨by decide, by decide⟩ hrun
  obtain ⟨off, _, hcopied⟩ := hprovenance.bytes x hx
  rw [hdatagram, halloc] at hcopied
  obtain ⟨⟨pd, hpd, sub, hsub, _, rfl⟩, hbytes⟩ := hcopied.valid.mp (by decide +kernel)
  have hbody : ∀ pd ∈ wholeIAPDs (receivedBytes 1500 exPrefixReply), ∀ sub ∈ subOptions pd,
      ((receivedBytes 1500 exPrefixReply).drop (sub.1 + dhOptPayloadOffset)).take 25 =
        List.replicate 25 6 := by decide +kernel
  exact ⟨es, w, hrun, hprovenance, x, hx, hdatagram, hbytes.trans (hbody pd hpd sub hsub)⟩

end Pdrad
