import Pdrad.DhGrammar
import Pdrad.DhSolicit
import Pdrad.In6Addr

/-!
# `requestAndReceiveDhcp` (`test.c`)

One exchange with the server: build a Solicit, send it, receive a datagram,
parse it, and copy the prefix of the first `IA_PD` to `*prefixResultPtr`.

1. `parse_firstIAPD`: what the parser puts at the head of `IA_PDList`.
2. `request_cases`: a call always comes to an end, in one of five ways
   (`RequestResult`): no transaction id, a failed send, a failed receive, an empty
   list, or a prefix copied from wherever the first `IA_PD` leads.
3. `comesBack_iff`: which of them come back can be told from what the call meets.
-/

namespace Pdrad

open DhOptPayload DhReaderLemmas DhGrammarLemmas

/-! ## The call -/

/-- System calls on a descriptor. -/
inductive SysCall where
  | socket (fd : Nat)
  | setsockopt (fd : Nat)
  | ioctl (fd : Nat)
  | bind (fd : Nat)
  | sendto (fd : Nat) (pkt : List UInt8)
  | recvfrom (fd : Nat)
  | close (fd : Nat)
deriving DecidableEq

/-- What a call meets: the addresses `malloc` returns, the transaction id drawn
(`none` when `timespec_get` fails), whether `sendto` fails, the datagram that
`recvfrom` takes (`none` when it fails), and which list nodes are granted. -/
structure DhcpEnv where
  blocks : SolicitBlocks
  transId : Option DhPktTransactionId
  sendFails : Bool
  received : Option (List UInt8)
  alloc : Nat → Bool

/-- What a call leaves behind. `copiedFrom` is the source of the copy to
`*prefixResultPtr`, when there was one; `ret` is `none` when the process died. -/
structure DhcpCall where
  mem : Mem
  prefixResult : DhOptIAPrefix
  copiedFrom : Option Nat
  calls : List SysCall
  ret : Option Int

/-- Does `print_memory_hex(mem, size)` come back? It reads every byte. From
`NULL`, or past the end of the address space, it does not. -/
def printMemoryHex (mem : Option Nat) (size : Nat) : Bool :=
  match mem with
  | none => size = 0
  | some a => a + size < 2 ^ 64

/-- The datagram as the call sees it: cut to the length of the buffer. -/
def receivedBytes (bufferLength : Nat) (d : List UInt8) : List UInt8 :=
  d.take bufferLength

/-- `recvfrom` into the buffer. The second component is `recLen` as the `size_t`
it is passed on as, `(size_t) -1` after an error. -/
def recvfrom (m : Mem) (buffer bufferLength : Nat) : Option (List UInt8) → Mem × Nat
  | none => (m, sizeMax)
  | some d =>
    let bytes := receivedBytes bufferLength d
    (m.put buffer bytes, bytes.length)

/-- `parsed.IA_PDList->value` and the three casts after it: the address of the
presumed prefix. `none` where `NULL` is followed. -/
def followPrefix (s : ReaderState) : Option Nat :=
  (s.result.iaPdList.bind fun i => s.heap[i]?.map Node.value).map fun pd =>
    let pdData := optionData pd
    let pdOption := pdData + sizeofDhOptIAPD
    optionData pdOption

/-- How far a call gets up to its `sendto`: it has ended, or the Solicit is sent
and the memory is as given. -/
inductive SendResult where
  | ended (c : DhcpCall)
  | sent (call : SysCall) (m : Mem)

/-- `requestAndReceiveDhcp` up to its `sendto`. -/
def sendRequest (env : DhcpEnv) (handler : Nat) (m : Mem) (prefixResult : DhOptIAPrefix) :
    SendResult :=
  match createSolicit env.blocks m env.transId with
  | none => .ended ⟨m, prefixResult, none, [], none⟩
  | some pkt =>
    if !printMemoryHex pkt.pktPtr pkt.length then .ended ⟨pkt.mem, prefixResult, none, [], none⟩
    else
      let call := SysCall.sendto handler (pkt.mem.slice (pkt.pktPtr.getD 0) pkt.length)
      if env.sendFails then .ended ⟨pkt.mem, prefixResult, none, [call, .close handler], some 1⟩
      else .sent call pkt.mem

/-- `requestAndReceiveDhcp` behind a successful `sendto`. -/
def receiveReply (alloc : Nat → Bool) (received : Option (List UInt8)) (handler : Nat)
    (sent : SysCall) (m : Mem) (buffer bufferLength : Nat) (prefixResult : DhOptIAPrefix)
    (fuel : Nat) : Option DhcpCall :=
  let (m, recLen) := recvfrom m buffer bufferLength received
  let calls := [sent, .recvfrom handler]
  -- a failed receive is logged, and the call goes on
  if !printMemoryHex (some buffer) recLen then some ⟨m, prefixResult, none, calls, none⟩
  else
    (dhParseOptions alloc m buffer recLen fuel).map fun s =>
      -- so is a failed parse, and the list is followed all the same
      match followPrefix s with
      | none => ⟨s.mem.mem, prefixResult, none, calls, none⟩
      | some p =>
        ⟨s.mem.mem, DhOptIAPrefix.read s.mem.mem p, some p, calls ++ [.close handler], some 0⟩

def requestAndReceiveDhcp (env : DhcpEnv) (handler : Nat) (m : Mem) (buffer bufferLength : Nat)
    (prefixResult : DhOptIAPrefix) (fuel : Nat) : Option DhcpCall :=
  match sendRequest env handler m prefixResult with
  | .ended c => some c
  | .sent call m =>
    receiveReply env.alloc env.received handler call m buffer bufferLength prefixResult fuel

/-! ## How a call can go -/

/-- The receive buffer is an object of its length, and there are `2 ^ 17` more
addresses behind it. -/
structure BufferAt (buffer bufferLength : Nat) : Prop where
  notNull : 0 < buffer
  stop : buffer + bufferLength + 2 ^ 17 < 2 ^ 64

theorem BufferAt.placed {buffer bufferLength n : Nat} (h : BufferAt buffer bufferLength)
    (hn : n ≤ bufferLength) : Placed buffer n := by
  have hstop := h.stop
  exact ⟨h.notNull, by omega, by omega, .inr (by omega)⟩

/-- What fits in the buffer is not as long as the error size. -/
theorem BufferAt.ne_sizeMax {buffer bufferLength n : Nat} (h : BufferAt buffer bufferLength)
    (hn : n ≤ bufferLength) : n ≠ sizeMax := by
  have hstop := h.stop
  simp only [sizeMax]
  omega

/-- The option at the head of `IA_PDList` after the parse, if there is one. -/
def firstIAPD (alloc : Nat → Bool) (m : Mem) (pkt size : Nat) : Option Nat :=
  if size = 4 ∨ ¬ IsServerMessage (m pkt) then none
  else (granted alloc 0 (withCode m .iaPd (visited m pkt size))).head?

/-- The system call that sends the Solicit with the given transaction id. -/
def sendSolicit (handler : Nat) (transId : DhPktTransactionId) : SysCall :=
  .sendto handler (packetBytes .solicit transId solicitOptions)

/-- The memory when the Solicit has been built. -/
def DhcpEnv.solicitMem (env : DhcpEnv) (m : Mem) : Mem :=
  ((createSolicit env.blocks m env.transId).map SolicitPacket.mem).getD m

/-- The id is drawn, and either the Solicit cannot be sent, or in what is received there
is a first `IA_PD` that gets a list node. -/
def DhcpEnv.ComesBack (env : DhcpEnv) (m : Mem) (buffer bufferLength : Nat) : Prop :=
  env.transId.isSome ∧ (env.sendFails = true ∨ ∃ d ∈ env.received,
    (firstIAPD env.alloc ((env.solicitMem m).put buffer (receivedBytes bufferLength d)) buffer
      (receivedBytes bufferLength d).length).isSome)

instance (env : DhcpEnv) (m : Mem) (buffer bufferLength : Nat) :
    Decidable (env.ComesBack m buffer bufferLength) :=
  inferInstanceAs (Decidable (_ ∧ _))

/-- The ways the part behind `sendto` can go, from the memory `m`. The parse of the
received bytes `r` happens in `m` with `r` at `buffer`. -/
inductive ReplyResult (alloc : Nat → Bool) (received : Option (List UInt8)) (handler : Nat)
    (sent : SysCall) (m : Mem) (buffer bufferLength : Nat) (before : DhOptIAPrefix) (c : DhcpCall) :
    Prop where
  | receiveFailed : received = none → c.prefixResult = before → c.copiedFrom = none →
      c.calls = [sent, .recvfrom handler] → c.ret = none →
      ReplyResult alloc received handler sent m buffer bufferLength before c
  | nullFollowed (d r : List UInt8) : received = some d → r = receivedBytes bufferLength d →
      firstIAPD alloc (m.put buffer r) buffer r.length = none → c.prefixResult = before →
      c.copiedFrom = none → c.calls = [sent, .recvfrom handler] → c.ret = none →
      ReplyResult alloc received handler sent m buffer bufferLength before c
  | installed (d r : List UInt8) (pd : Nat) : received = some d →
      r = receivedBytes bufferLength d →
      firstIAPD alloc (m.put buffer r) buffer r.length = some pd →
      c.prefixResult = DhOptIAPrefix.read
        (swapAll (m.put buffer r) (visited (m.put buffer r) buffer r.length)) (pd + 20) →
      c.copiedFrom = some (pd + 20) → c.calls = [sent, .recvfrom handler, .close handler] →
      c.ret = some 0 → ReplyResult alloc received handler sent m buffer bufferLength before c

/-- The ways a whole call can go. -/
inductive RequestResult (env : DhcpEnv) (handler buffer bufferLength : Nat) (before : DhOptIAPrefix)
    (c : DhcpCall) : Prop where
  | noTransId : env.transId = none → c.prefixResult = before → c.copiedFrom = none → c.calls = [] →
      c.ret = none → RequestResult env handler buffer bufferLength before c
  | sendFailed (transId : DhPktTransactionId) : env.transId = some transId → env.sendFails = true →
      c.prefixResult = before → c.copiedFrom = none →
      c.calls = [sendSolicit handler transId, .close handler] → c.ret = some 1 →
      RequestResult env handler buffer bufferLength before c
  | sent (transId : DhPktTransactionId) (m : Mem) : env.transId = some transId →
      env.sendFails = false →
      ReplyResult env.alloc env.received handler (sendSolicit handler transId) m buffer bufferLength
        before c → RequestResult env handler buffer bufferLength before c

namespace RequestDhcpLemmas

/-- The parse in terms of the option it puts at the head of the list. -/
theorem parse_firstIAPD (alloc : Nat → Bool) (m : Mem) {pkt size : Nat} (hplaced : Placed pkt size) :
    ∃ s, Returns (dhParseOptions alloc m pkt size) s ∧
      followPrefix s = (firstIAPD alloc m pkt size).map (· + 20) ∧
      ∀ pd, firstIAPD alloc m pkt size = some pd → s.mem.mem = swapAll m (visited m pkt size) := by
  have hstart := hplaced.start
  by_cases h : size = 4 ∨ ¬ IsServerMessage (m pkt)
  · obtain ⟨s, hret, hresult, hheap, _, _⟩ :=
      dhParseOptions_refused alloc (by omega) hplaced.size_lt h
    have hnone : firstIAPD alloc m pkt size = none := if_pos h
    exact ⟨s, returns_dhParseOptions (hret 0), by simp [followPrefix, hresult, hnone], by simp [hnone]⟩
  · have hsome : firstIAPD alloc m pkt size =
        (granted alloc 0 (withCode m .iaPd (visited m pkt size))).head? := if_neg h
    simp only [not_or, not_not] at h
    obtain ⟨s, hrun, _, hreading⟩ := dhParseOptions_visited alloc hplaced h.1 h.2
    refine ⟨s, returns_dhParseOptions hrun, ?_, fun _ _ => hreading.mem⟩
    rw [followPrefix, Chain.head_value hreading.list, hsome]
    rfl

theorem returns_of_eq {α : Type} {f : Nat → Option α} {a : α} (h : ∀ k, f k = some a) :
    Returns f a :=
  ⟨0, fun k _ => h k⟩

theorem receiveReply_mono {alloc : Nat → Bool} {received : Option (List UInt8)}
    {handler buffer bufferLength n k : Nat} {sent : SysCall} {m : Mem} {before : DhOptIAPrefix}
    {c : DhcpCall} (hnk : n ≤ k)
    (h : receiveReply alloc received handler sent m buffer bufferLength before n = some c) :
    receiveReply alloc received handler sent m buffer bufferLength before k = some c := by
  simp only [receiveReply] at h ⊢
  split
  · next hdies => rwa [if_pos hdies] at h
  · next hlives =>
    rw [if_neg hlives] at h
    obtain ⟨s, hs, hc⟩ := Option.map_eq_some_iff.mp h
    rw [dhParseOptions_mono hnk hs, Option.map_some, hc]

theorem returns_request {env : DhcpEnv} {handler buffer bufferLength n : Nat} {m : Mem}
    {before : DhOptIAPrefix} {c : DhcpCall}
    (h : requestAndReceiveDhcp env handler m buffer bufferLength before n = some c) :
    Returns (requestAndReceiveDhcp env handler m buffer bufferLength before) c := by
  refine ⟨n, fun k hk => ?_⟩
  unfold requestAndReceiveDhcp at h ⊢
  cases hsend : sendRequest env handler m before with
  | ended c' =>
    rw [hsend] at h
    exact h
  | sent call m' =>
    rw [hsend] at h
    exact receiveReply_mono hk h

/-- What is received goes to the memory that the Solicit was built in. -/
theorem solicitMem_of_sent {env : DhcpEnv} {handler : Nat} {m m' : Mem} {before : DhOptIAPrefix}
    {sent : SysCall} (h : sendRequest env handler m before = .sent sent m') :
    env.solicitMem m = m' := by
  unfold sendRequest at h
  unfold DhcpEnv.solicitMem
  cases hsolicit : createSolicit env.blocks m env.transId with
  | none =>
    rw [hsolicit] at h
    cases h
  | some pkt =>
    simp only [hsolicit] at h
    split at h
    · cases h
    split at h
    · cases h
    · cases h
      rfl

theorem printMemoryHex_some {a n : Nat} : printMemoryHex (some a) n = true ↔ a + n < 2 ^ 64 := by
  simp only [printMemoryHex, decide_eq_true_eq]

end RequestDhcpLemmas

open RequestDhcpLemmas

/-- Up to `sendto`: the three ways this can go. -/
theorem sendRequest_cases (env : DhcpEnv) (handler : Nat) (m : Mem) (before : DhOptIAPrefix) :
    (env.transId = none ∧ ∃ m', sendRequest env handler m before =
      .ended ⟨m', before, none, [], none⟩) ∨
    (∃ transId m', env.transId = some transId ∧ env.sendFails = true ∧
      sendRequest env handler m before =
        .ended ⟨m', before, none, [sendSolicit handler transId, .close handler], some 1⟩) ∨
    (∃ transId m', env.transId = some transId ∧ env.sendFails = false ∧
      sendRequest env handler m before = .sent (sendSolicit handler transId) m') := by
  unfold sendRequest
  cases htrans : env.transId with
  | none =>
    obtain ⟨m', hsolicit⟩ := createSolicit_none env.blocks m
    have hdies : printMemoryHex none sizeMax = false := by simp [printMemoryHex, sizeMax]
    exact .inl ⟨rfl, m', by simp [hsolicit, hdies]⟩
  | some transId =>
    obtain ⟨m', hsolicit, hpacket⟩ := createSolicit_eq env.blocks m transId
    have hprint : printMemoryHex (some env.blocks.packet) 44 = true :=
      printMemoryHex_some.mpr env.blocks.inside
    cases hsend : env.sendFails with
    | true =>
      exact .inr (.inl ⟨transId, m', rfl, rfl, by simp [hsolicit, hprint, hpacket, sendSolicit]⟩)
    | false =>
      exact .inr (.inr ⟨transId, m', rfl, rfl, by simp [hsolicit, hprint, hpacket, sendSolicit]⟩)

/-- Behind `sendto`: the receive fails, the list is empty, or a prefix is copied. -/
theorem receiveReply_cases (alloc : Nat → Bool) (received : Option (List UInt8)) (handler : Nat)
    (sent : SysCall) (m : Mem) {buffer bufferLength : Nat} (before : DhOptIAPrefix)
    (hbuffer : BufferAt buffer bufferLength) :
    ∃ c, Returns (receiveReply alloc received handler sent m buffer bufferLength before) c ∧
      ReplyResult alloc received handler sent m buffer bufferLength before c := by
  have hstop := hbuffer.stop
  have hnull := hbuffer.notNull
  unfold receiveReply
  cases received with
  | none =>
    have hdies : ¬ printMemoryHex (some buffer) sizeMax = true := by
      rw [printMemoryHex_some, sizeMax]
      omega
    refine ⟨⟨m, before, none, [sent, .recvfrom handler], none⟩, returns_of_eq fun k => ?_,
      .receiveFailed rfl rfl rfl rfl rfl⟩
    simp [recvfrom, hdies]
  | some d =>
    have hle : (receivedBytes bufferLength d).length ≤ bufferLength := List.length_take_le _ _
    have hshown : printMemoryHex (some buffer) (receivedBytes bufferLength d).length = true := by
      rw [printMemoryHex_some]
      omega
    obtain ⟨s, ⟨n, hn⟩, hfollow, hswapped⟩ := parse_firstIAPD alloc
      (m.put buffer (receivedBytes bufferLength d)) (hbuffer.placed hle)
    simp only [recvfrom, hshown]
    cases hfirst : firstIAPD alloc (m.put buffer (receivedBytes bufferLength d)) buffer
        (receivedBytes bufferLength d).length with
    | none =>
      rw [hfirst] at hfollow
      refine ⟨⟨s.mem.mem, before, none, [sent, .recvfrom handler], none⟩, ⟨n, fun k hk => ?_⟩,
        .nullFollowed d _ rfl rfl hfirst rfl rfl rfl rfl⟩
      simp [hn k hk, hfollow]
    | some pd =>
      rw [hfirst] at hfollow
      refine ⟨⟨s.mem.mem, DhOptIAPrefix.read s.mem.mem (pd + 20), some (pd + 20),
        [sent, .recvfrom handler, .close handler], some 0⟩, ⟨n, fun k hk => ?_⟩,
        .installed d _ pd rfl rfl hfirst (by rw [hswapped pd hfirst]) rfl rfl rfl⟩
      simp [hn k hk, hfollow]

/-- Every call comes to one of the ends of `RequestResult`. -/
theorem request_cases (env : DhcpEnv) (handler : Nat) (m : Mem) {buffer bufferLength : Nat}
    (before : DhOptIAPrefix) (hbuffer : BufferAt buffer bufferLength) :
    ∃ c, Returns (requestAndReceiveDhcp env handler m buffer bufferLength before) c ∧
      RequestResult env handler buffer bufferLength before c := by
  unfold requestAndReceiveDhcp
  rcases sendRequest_cases env handler m before with ⟨htrans, m', hsend⟩ |
    ⟨transId, m', htrans, hfails, hsend⟩ | ⟨transId, m', htrans, hworks, hsend⟩
  · rw [hsend]
    exact ⟨_, returns_of_eq fun _ => rfl, .noTransId htrans rfl rfl rfl rfl⟩
  · rw [hsend]
    exact ⟨_, returns_of_eq fun _ => rfl, .sendFailed transId htrans hfails rfl rfl rfl rfl⟩
  · rw [hsend]
    obtain ⟨c, hret, hresult⟩ := receiveReply_cases env.alloc env.received handler
      (sendSolicit handler transId) m' before hbuffer
    exact ⟨c, hret, .sent transId m' htrans hworks hresult⟩

/-- Without a first `IA_PD` the call dies. -/
theorem ReplyResult.of_none {alloc : Nat → Bool} {d : List UInt8} {handler buffer bufferLength : Nat}
    {sent : SysCall} {m : Mem} {before : DhOptIAPrefix} {c : DhcpCall}
    (h : ReplyResult alloc (some d) handler sent m buffer bufferLength before c)
    (hfirst : firstIAPD alloc (m.put buffer (receivedBytes bufferLength d)) buffer
      (receivedBytes bufferLength d).length = none) :
    c.prefixResult = before ∧ c.copiedFrom = none ∧ c.calls = [sent, .recvfrom handler] ∧
      c.ret = none := by
  cases h with
  | receiveFailed hrecv => cases hrecv
  | nullFollowed d' r _ _ _ hkeep hfrom hcalls hnone => exact ⟨hkeep, hfrom, hcalls, hnone⟩
  | installed d' r pd hrecv hr hfirst' =>
    cases hrecv
    subst hr
    rw [hfirst] at hfirst'
    cases hfirst'

/-- With one, 25 bytes are copied. -/
theorem ReplyResult.of_some {alloc : Nat → Bool} {d : List UInt8}
    {handler buffer bufferLength pd : Nat} {sent : SysCall} {m : Mem} {before : DhOptIAPrefix}
    {c : DhcpCall} (h : ReplyResult alloc (some d) handler sent m buffer bufferLength before c)
    (hfirst : firstIAPD alloc (m.put buffer (receivedBytes bufferLength d)) buffer
      (receivedBytes bufferLength d).length = some pd) :
    c.prefixResult = DhOptIAPrefix.read (swapAll (m.put buffer (receivedBytes bufferLength d))
        (visited (m.put buffer (receivedBytes bufferLength d)) buffer
          (receivedBytes bufferLength d).length)) (pd + 20) ∧
      c.copiedFrom = some (pd + 20) ∧ c.calls = [sent, .recvfrom handler, .close handler] ∧
      c.ret = some 0 := by
  cases h with
  | receiveFailed hrecv => cases hrecv
  | nullFollowed d' r hrecv hr hfirst' =>
    cases hrecv
    subst hr
    rw [hfirst] at hfirst'
    cases hfirst'
  | installed d' r pd' hrecv hr hfirst' hread hfrom hcalls hzero =>
    cases hrecv
    subst hr
    obtain rfl : pd = pd' := Option.some.inj (hfirst.symm.trans hfirst')
    exact ⟨hread, hfrom, hcalls, hzero⟩

/-- A Solicit that cannot be sent ends the call. -/
theorem request_unsent (env : DhcpEnv) {transId : DhPktTransactionId} (handler : Nat) (m : Mem)
    {buffer bufferLength : Nat} (before : DhOptIAPrefix) (htrans : env.transId = some transId)
    (hfails : env.sendFails = true) :
    ∃ c, Returns (requestAndReceiveDhcp env handler m buffer bufferLength before) c ∧
      c.calls = [sendSolicit handler transId, .close handler] ∧ c.ret = some 1 := by
  unfold requestAndReceiveDhcp
  rcases sendRequest_cases env handler m before with ⟨hnone, _⟩ | ⟨t, m', ht, _, hsend⟩ |
    ⟨_, _, _, hworks, _⟩
  · rw [hnone] at htrans
    cases htrans
  · obtain rfl : t = transId := Option.some.inj (ht.symm.trans htrans)
    rw [hsend]
    exact ⟨_, returns_of_eq fun _ => rfl, rfl, rfl⟩
  · rw [hworks] at hfails
    cases hfails

/-- Whether a call comes back. -/
theorem comesBack_iff {env : DhcpEnv} {handler buffer bufferLength : Nat} {m : Mem}
    {before : DhOptIAPrefix} {c : DhcpCall} (hbuffer : BufferAt buffer bufferLength)
    (h : Returns (requestAndReceiveDhcp env handler m buffer bufferLength before) c) :
    c.ret.isSome ↔ env.ComesBack m buffer bufferLength := by
  unfold requestAndReceiveDhcp at h
  rcases sendRequest_cases env handler m before with ⟨htrans, m', hsend⟩ |
    ⟨transId, m', htrans, hfails, hsend⟩ | ⟨transId, m', htrans, hworks, hsend⟩
  · rw [hsend] at h
    obtain rfl := h.unique (returns_of_eq fun _ => rfl)
    exact iff_of_false (by simp) (by simp [DhcpEnv.ComesBack, htrans])
  · rw [hsend] at h
    obtain rfl := h.unique (returns_of_eq fun _ => rfl)
    exact iff_of_true rfl (by simp [DhcpEnv.ComesBack, htrans, hfails])
  · rw [hsend] at h
    obtain ⟨c', hret, hresult⟩ := receiveReply_cases env.alloc env.received handler
      (sendSolicit handler transId) m' before hbuffer
    obtain rfl := h.unique hret
    simp only [DhcpEnv.ComesBack, htrans, hworks, solicitMem_of_sent hsend, Option.isSome_some,
      true_and, Bool.false_eq_true, false_or]
    cases hresult with
    | receiveFailed hrecv _ _ _ hnone => exact iff_of_false (by simp [hnone]) (by simp [hrecv])
    | nullFollowed d r hrecv hr hfirst _ _ _ hnone =>
      subst hr
      exact iff_of_false (by simp [hnone]) (by simp [hrecv, hfirst])
    | installed d r pd hrecv hr hfirst _ _ _ hzero =>
      subst hr
      exact iff_of_true (by simp [hzero]) ⟨d, hrecv, by simp [hfirst]⟩

end Pdrad
