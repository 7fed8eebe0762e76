import Pdrad.Atomicity

/-!
# A delegated prefix on its way to the hosts

A server delegates a prefix in a reply, the DHCP thread copies it to `_prefix` while the
other threads go on, and whichever of these comes next advertises it. Requests that fail
may come in between.

1. `delegated_installed`: what a request copies from a reply that delegates a prefix.
2. `underWay_run`: the passes behind it, as long as no other request is successful.
3. `delegated_advertised`: what is then sent, in every run.
-/

namespace Pdrad

open In6Addr ProcessLemmas AtomicityLemmas

/-! ## The reply -/

/-- The body of the option that delegates the prefix `given`, its lifetimes being numbers
of seconds, up to the options inside. -/
def delegatingBytes (given : DhOptIAPrefix) : List UInt8 :=
  beBytes 4 given.preferredLifetime.toNat ++ beBytes 4 given.validLifetime.toNat ++
    [given.prefixLength] ++ given.prefixAddr.bytes

/-- A server message that delegates the prefix `given`: its first `IA_PD`, among the whole
ones that get a list node, starts with an `IAPREFIX` that says so. -/
def Delegates (alloc : Nat → Bool) (r : List UInt8) (given : DhOptIAPrefix) : Prop :=
  (∃ msgType ∈ r.head?, IsServerMessage msgType) ∧
    ∃ pd ∈ (granted alloc 0 (wholeIAPDs r)).head?, ∃ sub ∈ (subOptions pd).head?,
      headerCode sub.2 = DhOptions.iaPrefix.code ∧
        ∃ options, sub.2.drop dhOptPayloadOffset = delegatingBytes given ++ options

/-- `given` with its lifetimes as they are stored from the wire. -/
def wireLifetimes (given : DhOptIAPrefix) : DhOptIAPrefix :=
  { given with
    preferredLifetime := htobe32 given.preferredLifetime
    validLifetime := htobe32 given.validLifetime }

namespace DeliveryLemmas

open DhReaderLemmas DhGrammarLemmas RequestDhcpLemmas ValidReplyLemmas DhOptPayload

variable {alloc : Nat → Bool} {r : List UInt8} {given : DhOptIAPrefix}

theorem bytes_wireLifetimes (given : DhOptIAPrefix) :
    (wireLifetimes given).bytes = delegatingBytes given := by
  rw [DhOptIAPrefix.bytes, wireLifetimes, leBytes_bswap32, leBytes_bswap32, delegatingBytes]

theorem length_delegatingBytes (given : DhOptIAPrefix) : (delegatingBytes given).length = 25 := by
  simp only [delegatingBytes, List.length_append, length_beBytes, List.length_singleton,
    given.prefixAddr.size]

theorem delegates_isIAPrefix {o : List UInt8} (hcode : headerCode o = DhOptions.iaPrefix.code)
    {options : List UInt8} (h : o.drop dhOptPayloadOffset = delegatingBytes given ++ options) :
    IsIAPrefix o := by
  have hlength := congrArg List.length h
  rw [List.length_drop, List.length_append, length_delegatingBytes] at hlength
  refine ⟨hcode, ?_⟩
  show dhOptPayloadOffset + 25 ≤ o.length
  omega

/-- The body of the first option of an `IA_PD`, in the reply as a whole. -/
theorem drop_first {pd sub : Nat × List UInt8} (hpd : pd ∈ wholeIAPDs r)
    (hsub : sub ∈ (subOptions pd).head?) (hlength : dhOptPayloadOffset ≤ sub.2.length) :
    ∃ cs, r.drop (pd.1 + 20) = sub.2.drop dhOptPayloadOffset ++ cs := by
  have hlayout := List.mem_of_mem_filter hpd
  obtain ⟨hlo, hhi⟩ := mem_layout_bounds hlayout
  obtain ⟨cs, hcs⟩ := drop_of_mem_layout hlayout
  have hfirst := subOptions_head hsub
  have hnested := List.mem_of_head? hsub
  obtain ⟨ds, hds⟩ := drop_of_mem_layout hnested
  rw [hfirst, Nat.sub_self, List.drop_zero] at hds
  -- the `IA_PD` in the reply, and the first option in it
  have houter : r.drop pd.1 = pd.2 ++ (cs ++ dhFormat.rest (r.drop 4)) := by
    have hsplit := Format.split_sound (F := dhFormat) (r.drop 4)
    rw [← List.append_assoc, ← hcs, ← List.drop_append_of_le_length
      (by rw [List.length_flatten]; omega), hsplit, List.drop_drop]
    congr 1
    omega
  obtain ⟨es, hes⟩ : ∃ es, pd.2.drop 16 = sub.2 ++ es := by
    refine ⟨ds ++ dhFormat.rest (pd.2.drop 16), ?_⟩
    rw [← List.append_assoc, ← hds, Format.split_sound]
  have hfits : 16 ≤ pd.2.length := by
    by_contra hshort
    rw [List.drop_eq_nil_of_le (Nat.le_of_not_le hshort)] at hes
    exact List.ne_nil_of_length_pos (records_pos sub.2 (mem_layout_snd hnested))
      (List.append_eq_nil_iff.mp hes.symm).1
  refine ⟨es ++ (cs ++ dhFormat.rest (r.drop 4)), ?_⟩
  rw [show pd.1 + 20 = pd.1 + 16 + dhOptPayloadOffset from rfl, ← List.drop_drop,
    ← List.drop_drop, houter, List.drop_append_of_le_length hfits, hes, List.append_assoc,
    List.drop_append_of_le_length hlength]

theorem delegates_bytes {pd sub : Nat × List UInt8} (hpd : pd ∈ wholeIAPDs r)
    (hsub : sub ∈ (subOptions pd).head?) {options : List UInt8}
    (h : sub.2.drop dhOptPayloadOffset = delegatingBytes given ++ options) :
    (r.drop (pd.1 + 20)).take 25 = delegatingBytes given := by
  have hlength : dhOptPayloadOffset ≤ sub.2.length := by
    have hlen := congrArg List.length h
    rw [List.length_drop, List.length_append, length_delegatingBytes] at hlen
    omega
  obtain ⟨cs, hcs⟩ := drop_first hpd hsub hlength
  rw [hcs, h, List.append_assoc, List.take_left' (length_delegatingBytes given)]

/-- The call follows the `IA_PD` that delegates. -/
theorem firstIAPD_of_delegates {m : Mem} {buffer : Nat} (hm : m.slice buffer r.length = r)
    (hmax : r.length ≠ sizeMax) (hserver : ∃ msgType ∈ r.head?, IsServerMessage msgType)
    {pd : Nat × List UInt8} (hhead : (granted alloc 0 (wholeIAPDs r)).head? = some pd) :
    firstIAPD alloc m buffer r.length = some (buffer + pd.1) := by
  have hpd := (granted_sublist alloc 0 _).subset (List.mem_of_head? hhead)
  have hlong := lt_of_mem_wholeIAPDs hpd
  obtain ⟨msgType, hmem, hmsgType⟩ := hserver
  rw [← hm, Mem.head?_slice m buffer (by omega)] at hmem
  obtain rfl : m buffer = msgType := Option.some.inj hmem
  exact firstIAPD_of_granted hm hlong hmax hmsgType hhead

end DeliveryLemmas

open DeliveryLemmas DhReaderLemmas RequestDhcpLemmas ValidReplyLemmas

/-- **What is installed.** A request that is answered by a reply that delegates a prefix
copies this prefix. -/
theorem delegated_installed {env : DhcpEnv} {handler buffer bufferLength : Nat} {m : Mem}
    {before given : DhOptIAPrefix} {c : DhcpCall} {d : List UInt8}
    (hbuffer : BufferAt buffer bufferLength)
    (hret : Returns (requestAndReceiveDhcp env handler m buffer bufferLength before) c)
    (htrans : env.transId.isSome) (hsend : env.sendFails = false) (hrecv : env.received = some d)
    (hdelegates : Delegates env.alloc (receivedBytes bufferLength d) given) :
    c.ret = some 0 ∧ c.prefixResult = wireLifetimes given := by
  obtain ⟨hserver, pd, hhead, sub, hsub, hcode, options, hbody⟩ := hdelegates
  obtain ⟨c', hret', hresult⟩ := request_cases env handler m before hbuffer
  obtain rfl := hret.unique hret'
  cases hresult with
  | noTransId hnone =>
    rw [hnone] at htrans
    cases htrans
  | sendFailed _ _ hfails =>
    rw [hfails] at hsend
    cases hsend
  | sent transId m' _ _ hreply =>
    rw [hrecv] at hreply
    have hle : (receivedBytes bufferLength d).length ≤ bufferLength := List.length_take_le _ _
    have hslice := Mem.slice_put_same m' buffer (receivedBytes bufferLength d)
    have hpd := (granted_sublist env.alloc 0 _).subset (List.mem_of_head? hhead)
    obtain ⟨hread, _, _, hzero⟩ := hreply.of_some
      (firstIAPD_of_delegates hslice (hbuffer.ne_sizeMax hle) hserver hhead)
    refine ⟨hzero, ?_⟩
    have hbytes := read_body (hbuffer.placed hle) hslice (lt_of_mem_wholeIAPDs hpd)
      (hbuffer.ne_sizeMax hle) hpd hsub (delegates_isIAPrefix hcode hbody)
    rw [delegates_bytes hpd hsub hbody, DhOptIAPrefix.bytes_read, ← bytes_wireLifetimes] at hbytes
    rw [hread]
    exact DhOptIAPrefix.read_of_slice hbytes

/-! ## The passes behind it -/

/-- What the pass under way has to install. It is known once the request has come back. -/
def DhcpAt.underWay : DhcpAt → Option (Option DhOptIAPrefix)
  | .copying reply _ => some (some reply)
  | .convertPreferred reply | .convertValid reply | .setLength reply => some reply
  | _ => none

/-- A lifetime behind a number of passes that have found it in host order and installed
nothing: each of them converts it again. -/
def heldLifetime (failures : Nat) (time : UInt32) : UInt32 :=
  if failures % 2 = 0 then time else htobe32 time

namespace DeliveryLemmas

variable {useDhcp : Bool} {s t : Process}

theorem underWay_of_quiet {pc : DhcpAt} (h : ¬ pc.Writing) : pc.underWay = none := by
  cases pc with
  | absent | setUp | loopTop | locking | calling | unlocking | ended => rfl
  | copying | convertPreferred | convertValid | setLength => exact absurd trivial h

/-- The DHCP thread completes the pass under way, goes on with it, or begins one that
installs nothing. -/
theorem dhcp_underWay {e : DhcpEvent} (h : DhcpStep s e t) (hfails : e ≠ .call (some 0)) :
    passes [.dhcp e] ++ t.dhcp.underWay.toList = s.dhcp.underWay.toList ∨
      s.dhcp.underWay = none ∧ passes [.dhcp e] ++ t.dhcp.underWay.toList = [none] := by
  cases h with
  | setUp hpc | socketFails hpc | setUpFails hpc | enter hpc | leave hpc | lock hpc
  | copy _ _ _ hpc | copied _ hpc | convertPreferred _ hpc | convertValid _ hpc | setLength _ hpc
  | unlock hpc =>
    rw [hpc]
    exact .inl rfl
  | call env handler m buffer bufferLength c hpc =>
    rw [hpc]
    unfold Process.afterCall
    split
    · exact .inl (congrArg (fun pc => pc.underWay.toList) hpc)
    · next hret => exact absurd (congrArg DhcpEvent.call hret) hfails
    · exact .inr ⟨rfl, rfl⟩

theorem underWay_step {e : ProcessEvent} (hcreated : s.Created) (h : Process.Step useDhcp s e t)
    (hfails : e ≠ .dhcp (.call (some 0))) :
    passes [e] ++ t.dhcp.underWay.toList = s.dhcp.underWay.toList ∨
      s.dhcp.underWay = none ∧ passes [e] ++ t.dhcp.underWay.toList = [none] := by
  cases h with
  | signal => exact .inl rfl
  | dhcp _ h => exact dhcp_underWay h fun heq => hfails (congrArg ProcessEvent.dhcp heq)
  | adv _ _ h =>
    rw [(adv_frame h).dhcp]
    exact .inl rfl
  | main _ h =>
    cases h with
    | createDhcp hpc =>
      rw [dhcp_absent hcreated hpc id]
      exact .inl rfl
    | init | register | seePrefix | createRa | createRs | returns => exact .inl rfl

/-- **The passes behind a reply.** First there is the one that installs it, and then
there are only failed ones. -/
theorem underWay_run {es : List ProcessEvent} {reply : Option DhOptIAPrefix}
    (hrun : Run (Process.Step useDhcp) s es t) (hcreated : s.Created)
    (hreply : s.dhcp.underWay = some reply) (hfails : ∀ e ∈ es, e ≠ .dhcp (.call (some 0))) :
    ∃ failures, passes es ++ t.dhcp.underWay.toList =
      reply :: List.replicate failures none := by
  induction hrun with
  | nil =>
    rw [hreply]
    exact ⟨0, rfl⟩
  | @snoc es e t u hbefore hlast ih =>
    obtain ⟨hfailsBefore, hfailsLast⟩ := List.forall_mem_append.mp hfails
    obtain ⟨failures, hpasses⟩ := ih hfailsBefore
    have hcreated' : t.Created := hbefore.invariant (fun _ _ _ => created_step) hcreated
    have hsplit : passes (es ++ [e]) = passes es ++ passes [e] := List.filterMap_append
    rw [hsplit, List.append_assoc]
    rcases underWay_step hcreated' hlast (hfailsLast e List.mem_cons_self) with hsame | ⟨hnone, hnew⟩
    · rw [hsame]
      exact ⟨failures, hpasses⟩
    · rw [hnone, Option.toList_none, List.append_nil] at hpasses
      rw [hnew, hpasses]
      exact ⟨failures + 1, by rw [List.replicate_succ', List.cons_append]⟩

theorem afterPasses_replicate (p : DhOptIAPrefix) (failures : Nat) :
    afterPasses p (List.replicate failures none) = Nat.iterate afterRequest failures p := by
  induction failures generalizing p with
  | zero => rfl
  | succ failures ih => exact ih (afterRequest p)

/-- `_prefix` behind these passes. -/
theorem afterPasses_delegated (p given : DhOptIAPrefix) (failures : Nat) :
    afterPasses p (some (wireLifetimes given) :: List.replicate failures none) =
      { given with
        preferredLifetime := heldLifetime failures given.preferredLifetime
        validLifetime := heldLifetime failures given.validLifetime
        prefixLength := 64 } := by
  have hiterate : afterPasses p (some (wireLifetimes given) :: List.replicate failures none) =
      Nat.iterate afterRequest (failures + 1) (wireLifetimes given) :=
    afterPasses_replicate (afterRequest (wireLifetimes given)) failures
  have hback (time : UInt32) : be32toh (htobe32 time) = time := bswap32_bswap32 time
  obtain ⟨haddr, hlength⟩ := DelegationLemmas.iterate_afterRequest (wireLifetimes given) failures
  obtain ⟨hvalid, hpreferred⟩ := DaemonLemmas.iterate_lifetimes (wireLifetimes given) failures
  rw [← hiterate] at haddr hlength hvalid hpreferred
  rw [wireLifetimes, hback] at hvalid hpreferred
  apply prefixFields.ext
  rintro (_ | _ | _ | _)
  · exact hpreferred
  · exact hvalid
  · exact hlength
  · exact haddr

end DeliveryLemmas

open DeliveryLemmas

/-! ## What is sent -/

/-- The request that is being made in `s` comes back as `c`, and the reply to it delegates
the prefix `given`. -/
structure Process.Obtains (s : Process) (given : DhOptIAPrefix) (c : DhcpCall) : Prop where
  exited : s.exited = false
  calling : s.dhcp = .calling
  answered : ∃ env handler m buffer bufferLength d, BufferAt buffer bufferLength ∧
    Returns (requestAndReceiveDhcp env handler m buffer bufferLength s.sharedPrefix) c ∧
    env.transId.isSome ∧ env.sendFails = false ∧ env.received = some d ∧
    Delegates env.alloc (receivedBytes bufferLength d) given

section

variable {useDhcp : Bool} {xs es fs : List ProcessEvent} {s t : Process} {p given : DhOptIAPrefix}
  {c : DhcpCall} {th : AdvThread} {dstAddr : In6Addr} {pkt : List UInt8}

namespace DeliveryLemmas

theorem obtains_step (h : s.Obtains given c) :
    Process.Step useDhcp s (.dhcp (.call c.ret)) (s.afterCall c) ∧
      (s.afterCall c).dhcp.underWay = some (some (wireLifetimes given)) := by
  obtain ⟨env, handler, m, buffer, bufferLength, d, hbuffer, hret, htrans, hsend, hrecv,
    hdelegates⟩ := h.answered
  obtain ⟨hzero, hprefix⟩ := delegated_installed hbuffer hret htrans hsend hrecv hdelegates
  refine ⟨.dhcp h.exited (.call env handler m buffer bufferLength c h.calling hbuffer hret), ?_⟩
  rw [← hprefix, Process.afterCall, hzero]
  rfl

/-- The whole of an advertisement that is sent behind the reply. -/
theorem delegated_sent (hrun : Run (Process.Step useDhcp) (Process.init p) xs s)
    (hobtains : s.Obtains given c)
    (hafter : Run (Process.Step useDhcp) (s.afterCall c) (es ++ .adv th (.send dstAddr pkt) :: fs) t)
    (hfails : ∀ e ∈ es, e ≠ .dhcp (.call (some 0))) :
    ∃ failures macAddr size,
      passes es = some (wireLifetimes given) :: List.replicate failures none ∧
      pkt = advBytes macAddr size given.prefixAddr 64 (heldLifetime failures given.validLifetime)
        (heldLifetime failures given.preferredLifetime) := by
  obtain ⟨hstep, hunderWay⟩ := @obtains_step useDhcp _ _ _ hobtains
  obtain ⟨u, v, hbefore, hsends, _⟩ := hafter.split_cons
  have hcoherent : u.Coherent (afterPasses p (passes (xs ++ [.dhcp (.call c.ret)] ++ es))) :=
    coherent_run ((hrun.append (.single hstep)).append hbefore)
  obtain ⟨failures, hpasses⟩ := underWay_run hbefore (reached (hrun.snoc hstep)).1 hunderWay hfails
  cases hsends with
  | adv _ _ hsends =>
    obtain ⟨_, hquiet, b, m, srcAddr, hpkt⟩ := send_quiet hcoherent hsends
    rw [underWay_of_quiet hquiet, Option.toList_none, List.append_nil] at hpasses
    rw [afterPasses_append, hpasses, afterPasses_delegated, advertisePrefix_eq] at hpkt
    exact ⟨failures, _, _, hpasses, (Option.some.inj hpkt).symm⟩

end DeliveryLemmas

/-- **From the reply to the link.** At any time in any run, a request is answered by a reply
that delegates a prefix. Whatever is sent behind it, before another request is successful,
advertises the first 64 bits of the prefix and a route to the first 56. The lifetimes are
those delegated when an even number of requests have failed since; otherwise their bytes are
reversed. -/
theorem delegated_advertised (hrun : Run (Process.Step useDhcp) (Process.init p) xs s)
    (hobtains : s.Obtains given c)
    (hafter : Run (Process.Step useDhcp) (s.afterCall c) (es ++ .adv th (.send dstAddr pkt) :: fs) t)
    (hfails : ∀ e ∈ es, e ≠ .dhcp (.call (some 0))) :
    ∃ failures, passes es = some (wireLifetimes given) :: List.replicate failures none ∧
      prefixInfos pkt = [⟨⟨given.prefixAddr, 64⟩,
        (heldLifetime failures given.validLifetime).toNat,
        (heldLifetime failures given.preferredLifetime).toNat⟩] ∧
      routes pkt = [⟨ofBytes (given.prefixAddr.bytes.take 8), 56⟩] := by
  obtain ⟨failures, macAddr, size, hpasses, rfl⟩ := delegated_sent hrun hobtains hafter hfails
  refine ⟨failures, hpasses, ?_, routes_advBytes _ _ _ _ _ _⟩
  rw [prefixInfos_advBytes]
  rfl

end

/-- `2001:db8:0:10::/56`, preferred for one hour and valid for two. -/
def exDelegated : DhOptIAPrefix := ⟨3600, 7200, 56, exDelegatedAddr⟩

/-- A `REPLY` that delegates it. -/
def exDelegates : List UInt8 :=
  [7, 1, 2, 3, 0, 25, 0, 41] ++ List.replicate 12 0 ++ [0, 26, 0, 25] ++ delegatingBytes exDelegated

/-- The first request is made, -/
def exCalls : List ProcessEvent :=
  [.main (.init exInit), .main .register, .main .createDhcp, .dhcp .setUp, .dhcp .enter, .dhcp .lock]

/-- and its result is copied and converted, until `main` sees the length. -/
def exInstalls (reply : DhOptIAPrefix) : List ProcessEvent :=
  [.dhcp (.copy .prefixAddr), .dhcp (.copy .prefixLength), .dhcp (.copy .validLifetime),
    .dhcp (.copy .preferredLifetime), .dhcp .copied, .dhcp .convertPreferred, .dhcp .convertValid,
    .dhcp (.setLength (some reply)), .dhcp .unlock, .main .seePrefix]

theorem exDelegates_delegates :
    Delegates (fun _ => true) (receivedBytes 1500 exDelegates) exDelegated :=
  ⟨⟨7, rfl, .inr rfl⟩, (4, exDelegates.drop 4), by decide +kernel, (20, exDelegates.drop 20),
    by decide +kernel, by decide +kernel, [], by decide +kernel⟩

theorem exInstalls_run {s : Process} {c : DhcpCall} (hexited : s.exited = false)
    (hmain : s.main = .waitPrefix) (hcancel : s.cancel .sendRouterAdv = false)
    (hutils : s.utils = (utilsInit exInit Utils.init).utils) (hzero : c.ret = some 0) :
    ∃ t, Run (Process.Step true) (s.afterCall c) (exInstalls c.prefixResult) t ∧
      ReadyToSend t := by
  obtain ⟨p, mutex, utils, cancelDhcp, cancel, main, dhcp, adv, sent, exited⟩ := s
  dsimp only at hexited hmain hcancel hutils
  subst hexited hmain hutils
  rw [Process.afterCall, hzero]
  have hne : (64 : UInt8) ≠ 0 := by decide
  exact ⟨_, .cons (.dhcp rfl (.copy .prefixAddr _ _ rfl (by decide)))
    (.cons (.dhcp rfl (.copy .prefixLength _ _ rfl (by decide)))
      (.cons (.dhcp rfl (.copy .validLifetime _ _ rfl (by decide)))
        (.cons (.dhcp rfl (.copy .preferredLifetime _ _ rfl (by decide)))
          (.cons (.dhcp rfl (.copied _ rfl)) (.cons (.dhcp rfl (.convertPreferred _ rfl))
            (.cons (.dhcp rfl (.convertValid _ rfl)) (.cons (.dhcp rfl (.setLength _ rfl))
              (.cons (.dhcp rfl (.unlock rfl))
                (.single (.main rfl (.seePrefix rfl hne))))))))))), rfl, rfl, rfl, hcancel,
    rfl⟩

theorem exDelegates_run : ∃ s c, Run (Process.Step true) (Process.init blankPrefix) exCalls s ∧
    s.Obtains exDelegated c ∧
    ∃ t, Run (Process.Step true) (s.afterCall c) (exInstalls (wireLifetimes exDelegated)) t ∧
      ReadyToSend t := by
  have hbuffer : BufferAt 0x8000 1500 := ⟨by decide, by decide⟩
  obtain ⟨c, hreturns, _⟩ := request_cases (exReceives exDelegates) 3 (fun _ => 0) blankPrefix hbuffer
  obtain ⟨hzero, hprefix⟩ := delegated_installed hbuffer hreturns rfl rfl rfl exDelegates_delegates
  refine ⟨_, c, .cons (.main rfl (.init _ rfl)) (.cons (.main rfl (.register rfl))
    (.cons (.main rfl (.createDhcp rfl)) (.cons (.dhcp rfl (.setUp rfl))
      (.cons (.dhcp rfl (.enter rfl rfl)) (.single (.dhcp rfl (.lock rfl rfl))))))),
    ⟨rfl, rfl, _, _, _, _, _, _, hbuffer, hreturns, rfl, rfl, rfl, exDelegates_delegates⟩, ?_⟩
  rw [← hprefix]
  exact exInstalls_run rfl rfl rfl rfl hzero

theorem exDelegates_sends : ∃ (s : Process) (c : DhcpCall) (t : Process) (pkt : List UInt8),
    Run (Process.Step true) (Process.init blankPrefix) exCalls s ∧ s.Obtains exDelegated c ∧
    Run (Process.Step true) (s.afterCall c)
      (exInstalls (wireLifetimes exDelegated) ++ (exLocks ++ exReads .sendRouterAdv) ++
        [.adv .sendRouterAdv (.send addrAllNodesMulticast pkt)]) t := by
  obtain ⟨s, c, hcalls, hobtains, t, hinstalls, hready⟩ := exDelegates_run
  obtain ⟨pkt, u, hsends, _⟩ := exSends_run hready
  refine ⟨s, c, u, pkt, hcalls, hobtains, ?_⟩
  rw [List.append_assoc]
  exact hinstalls.append hsends

/-- Nothing fails in between. -/
theorem exDelegated_advertised : ∃ pkt, prefixInfos pkt = [⟨⟨exDelegatedAddr, 64⟩, 7200, 3600⟩] ∧
    routes pkt = [⟨ofBytes (exDelegatedAddr.bytes.take 8), 56⟩] := by
  obtain ⟨s, c, t, pkt, hcalls, hobtains, hafter⟩ := exDelegates_sends
  obtain ⟨failures, hpasses, hinfos, hroutes⟩ :=
    delegated_advertised hcalls hobtains hafter (by simp [exInstalls, exLocks, exReads])
  cases failures with
  | zero => exact ⟨pkt, hinfos, hroutes⟩
  | succ failures => cases hpasses

end Pdrad
