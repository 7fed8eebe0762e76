import Pdrad.Delegation
import Pdrad.Runs

/-!
# The daemon in DHCP mode (`test.c`)

The DHCP thread writes `_prefix`, two other threads advertise it, and all three
hold `_prefixMutex` while they do so. `main` starts the other two when it has seen
a prefix length that is not zero. The critical sections are the steps of a
transition system; they may come in any order.

1. `dhcp_step`: a pass of the DHCP thread is one of its steps.
2. `heldPrefix_step`, `heldPrefix_run`: `_prefix` comes from the last reply, and its
   lifetimes have been swapped once for that reply and once for each failure since.
3. `safe_iff_while`: in a run, every advertisement carries the last reply's prefix
   and lifetimes exactly when each of them is sent behind a reply, with an even
   number of failures since or with lifetimes that a swap does not change.
4. `mayAdvertise_of_first`: the first of these conditions is met once the first
   request that comes back has succeeded.
-/

namespace Pdrad

/-! ## The system -/

/-- An advertisement as it was sent, and the last reply at that time. -/
structure Advert where
  pkt : List UInt8
  lastReply : Option DhOptIAPrefix

/-- `lastReply` is what the last successful request installed, and `failures` counts
the failed ones since. `started` when `main` has created the other two threads. -/
structure Daemon where
  sharedPrefix : DhOptIAPrefix
  started : Bool
  lastReply : Option DhOptIAPrefix
  failures : Nat
  sent : List Advert

inductive DaemonEvent where
  | dhcp (reply : Option DhOptIAPrefix)
  | start
  | broadcast
  | reply (clientAddr : In6Addr)

/-- `ADDR_All_Nodes_Multicast` in network order. -/
def addrAllNodesMulticast : In6Addr :=
  ⟨[0xff, 0x02, 0, 0, 0, 0, 0, 0, 0, 0, 0, 0, 0, 0, 0, 1], rfl⟩

/-- The state after a pass of the DHCP thread. A failed request leaves `_prefix` to
the conversions that follow it. -/
def Daemon.afterPass (s : Daemon) : Option DhOptIAPrefix → Daemon
  | some reply => { s with sharedPrefix := afterRequest reply, lastReply := some reply, failures := 0 }
  | none => { s with sharedPrefix := afterRequest s.sharedPrefix, failures := s.failures + 1 }

/-- The steps. What an advertising thread finds in memory besides `_prefix`, its
addresses among it, is up to the step. -/
inductive Daemon.Step (s : Daemon) : DaemonEvent → Daemon → Prop where
  | dhcp (reply : Option DhOptIAPrefix) : Step s (.dhcp reply) (s.afterPass reply)
  | start : s.sharedPrefix.prefixLength ≠ 0 → Step s .start { s with started := true }
  | broadcast (b : RouterAdvBlocks) (m : Mem) (srcAddr : In6Addr) (pkt : List UInt8) :
      s.started = true →
      advertisePrefix b m srcAddr addrAllNodesMulticast s.sharedPrefix = some pkt →
      Step s .broadcast { s with sent := s.sent ++ [⟨pkt, s.lastReply⟩] }
  | reply (b : RouterAdvBlocks) (m : Mem) (srcAddr clientAddr : In6Addr) (pkt : List UInt8) :
      s.started = true → advertisePrefix b m srcAddr clientAddr s.sharedPrefix = some pkt →
      Step s (.reply clientAddr) { s with sent := s.sent ++ [⟨pkt, s.lastReply⟩] }

/-- `_prefix` is zero, and no thread has done anything. -/
def Daemon.init : Daemon where
  sharedPrefix := ⟨0, 0, 0, In6Addr.zero⟩
  started := false
  lastReply := none
  failures := 0
  sent := []

/-! ## What ought to hold -/

/-- The advertisement has one prefix, the one in the reply, with the reply's
lifetimes in host order. -/
def Carries (pkt : List UInt8) (reply : DhOptIAPrefix) : Prop :=
  ∃ info, prefixInfos pkt = [info] ∧ info.range.address = reply.prefixAddr ∧
    info.validLifetime = (be32toh reply.validLifetime).toNat ∧
    info.preferredLifetime = (be32toh reply.preferredLifetime).toNat

/-- Every advertisement was sent behind a reply and carries what the last one said. -/
def Daemon.Safe (s : Daemon) : Prop :=
  ∀ x ∈ s.sent, ∃ reply, x.lastReply = some reply ∧ Carries x.pkt reply

/-- The lifetimes of the reply read the same in both byte orders. -/
def SwapInvariant (reply : DhOptIAPrefix) : Prop :=
  be32toh reply.validLifetime = reply.validLifetime ∧
    be32toh reply.preferredLifetime = reply.preferredLifetime

/-- There has been a reply, and the failures since do not matter. -/
def Daemon.MayAdvertise (s : Daemon) : Prop :=
  ∃ reply, s.lastReply = some reply ∧ (s.failures % 2 = 0 ∨ SwapInvariant reply)

/-- The condition on a step: an advertisement is only sent in a state that allows it. -/
def StepOk (s : Daemon) : DaemonEvent → Prop
  | .dhcp _ | .start => True
  | .broadcast | .reply _ => s.MayAdvertise

/-- No request fails before one has succeeded. -/
def FirstSucceeds (es : List DaemonEvent) : Prop :=
  ∀ before after, es = before ++ .dhcp none :: after → ∃ reply, .dhcp (some reply) ∈ before

/-! ## The DHCP thread -/

/-- A call of `requestAndReceiveDhcp` that comes back, with the conversions behind
it, is a step. -/
theorem dhcp_step {env : DhcpEnv} {handler buffer bufferLength : Nat} {s : Daemon} {c : DhcpCall}
    (h : RequestResult env handler buffer bufferLength s.sharedPrefix c) (hret : c.ret.isSome) :
    ∃ reply, Daemon.Step s (.dhcp reply) (s.afterPass reply) ∧
      (s.afterPass reply).sharedPrefix = afterRequest c.prefixResult ∧
      (reply.isSome ↔ c.ret = some 0) := by
  cases h with
  | noTransId _ _ _ _ hnone => simp [hnone] at hret
  | sendFailed transId _ _ hkeep _ _ hone =>
    exact ⟨none, .dhcp none, by rw [hkeep]; rfl, by simp [hone]⟩
  | sent transId m _ _ hreply =>
    cases hreply with
    | receiveFailed _ _ _ _ hnone => simp [hnone] at hret
    | nullFollowed d r _ _ _ _ _ _ hnone => simp [hnone] at hret
    | installed d r pd _ _ _ _ _ _ hzero =>
      exact ⟨some c.prefixResult, .dhcp _, rfl, by simp [hzero]⟩

namespace DaemonLemmas

/-- `_prefix` is the last reply after one pass that installed it and the failed
passes since. -/
def HeldPrefix (s : Daemon) : Prop :=
  ∀ reply, s.lastReply = some reply → s.sharedPrefix = Nat.iterate afterRequest (s.failures + 1) reply

theorem heldPrefix_init : HeldPrefix Daemon.init := by
  intro reply hreply
  cases hreply

theorem heldPrefix_step {s t : Daemon} {e : DaemonEvent} (h : HeldPrefix s)
    (hstep : Daemon.Step s e t) : HeldPrefix t := by
  cases hstep with
  | dhcp reply =>
    cases reply with
    | some reply =>
      intro reply' hreply'
      obtain rfl : reply = reply' := Option.some.inj hreply'
      rfl
    | none =>
      intro reply hreply
      have hshared := h reply hreply
      simp only [Daemon.afterPass, hshared]
      rw [← Function.iterate_succ_apply' afterRequest (s.failures + 1) reply]
  | start => exact h
  | broadcast => exact h
  | reply => exact h

theorem heldPrefix_run {s : Daemon} {es : List DaemonEvent} (h : Run Daemon.Step Daemon.init es s) :
    HeldPrefix s :=
  h.invariant (fun _ _ _ => heldPrefix_step) heldPrefix_init

/-- An even number of swaps is none. -/
theorem iterate_lifetimes (reply : DhOptIAPrefix) (n : Nat) :
    let p := Nat.iterate afterRequest (n + 1) reply
    p.validLifetime = (if n % 2 = 0 then be32toh reply.validLifetime else reply.validLifetime) ∧
      p.preferredLifetime =
        if n % 2 = 0 then be32toh reply.preferredLifetime else reply.preferredLifetime := by
  induction n with
  | zero => exact ⟨rfl, rfl⟩
  | succ n ih =>
    obtain ⟨hvalid, hpreferred⟩ := ih
    have hstep : Nat.iterate afterRequest (n + 1 + 1) reply =
        afterRequest (Nat.iterate afterRequest (n + 1) reply) :=
      Function.iterate_succ_apply' afterRequest (n + 1) reply
    simp only [hstep, afterRequest, hvalid, hpreferred]
    by_cases heven : n % 2 = 0
    · have hodd : (n + 1) % 2 ≠ 0 := by omega
      simp only [if_pos heven, if_neg hodd, bswap32_bswap32, and_self]
    · have hnext : (n + 1) % 2 = 0 := by omega
      simp only [if_neg heven, if_pos hnext, and_self]

/-- An advertisement sent now carries what the last reply says, or has its lifetimes
swapped once too often. -/
theorem carries_iff {s : Daemon} {b : RouterAdvBlocks} {m : Mem} {srcAddr dstAddr : In6Addr}
    {pkt : List UInt8} {reply : DhOptIAPrefix} (h : HeldPrefix s) (hreply : s.lastReply = some reply)
    (hpkt : advertisePrefix b m srcAddr dstAddr s.sharedPrefix = some pkt) :
    Carries pkt reply ↔ s.failures % 2 = 0 ∨ SwapInvariant reply := by
  obtain rfl := Option.some.inj ((advertisePrefix_eq b m srcAddr dstAddr s.sharedPrefix).symm.trans
    hpkt)
  have hshared := h reply hreply
  obtain ⟨haddr, _⟩ := DelegationLemmas.iterate_afterRequest reply s.failures
  obtain ⟨hvalid, hpreferred⟩ := iterate_lifetimes reply s.failures
  rw [← hshared] at haddr hvalid hpreferred
  simp only [Carries, prefixInfos_advBytes, List.cons.injEq, and_true, exists_eq_left', haddr,
    UInt32.toNat_inj, true_and]
  by_cases heven : s.failures % 2 = 0
  · rw [if_pos heven] at hvalid hpreferred
    exact iff_of_true ⟨hvalid, hpreferred⟩ (.inl heven)
  · rw [if_neg heven] at hvalid hpreferred
    rw [hvalid, hpreferred, or_iff_right heven, SwapInvariant, eq_comm,
      eq_comm (a := reply.preferredLifetime)]

/-- A state is safe when the one before was, and the step was allowed. -/
theorem safe_step_iff {s t : Daemon} {e : DaemonEvent} (h : HeldPrefix s)
    (hstep : Daemon.Step s e t) : t.Safe ↔ s.Safe ∧ StepOk s e := by
  -- the step that sends `pkt`
  have hsent {b : RouterAdvBlocks} {m : Mem} {srcAddr dstAddr : In6Addr} {pkt : List UInt8}
      (hpkt : advertisePrefix b m srcAddr dstAddr s.sharedPrefix = some pkt) :
      ({ s with sent := s.sent ++ [⟨pkt, s.lastReply⟩] } : Daemon).Safe ↔
        s.Safe ∧ s.MayAdvertise := by
    have hlast : (∃ reply, s.lastReply = some reply ∧ Carries pkt reply) ↔ s.MayAdvertise :=
      exists_congr fun reply => and_congr_right fun hreply => carries_iff h hreply hpkt
    simp only [Daemon.Safe, List.forall_mem_append, List.forall_mem_singleton, hlast]
  cases hstep with
  | dhcp reply =>
    cases reply with
    | some reply => exact (and_iff_left trivial).symm
    | none => exact (and_iff_left trivial).symm
  | start => exact (and_iff_left trivial).symm
  | broadcast b m srcAddr pkt _ hpkt => exact hsent hpkt
  | reply b m srcAddr clientAddr pkt _ hpkt => exact hsent hpkt

/-- An advertisement can always be built. -/
theorem broadcast_enabled (s : Daemon) (hstarted : s.started = true) :
    ∃ pkt, Daemon.Step s .broadcast { s with sent := s.sent ++ [⟨pkt, s.lastReply⟩] } :=
  ⟨_, .broadcast exAdvBlocks (fun _ => 0) In6Addr.zero _ hstarted (advertisePrefix_eq _ _ _ _ _)⟩

end DaemonLemmas

open DaemonLemmas

/-- In every run, no advertisement is sent before the first reply and all of them
carry what the last reply says, exactly when each is sent in a state that allows it. -/
theorem safe_iff_while {es : List DaemonEvent} {s : Daemon}
    (hrun : Run Daemon.Step Daemon.init es s) :
    s.Safe ↔ Run (Run.While StepOk Daemon.Step) Daemon.init es s := by
  constructor
  · induction hrun with
    | nil => exact fun _ => .nil
    | snoc hbefore hlast ih =>
      intro hsafe
      obtain ⟨hsafe', hok⟩ := (safe_step_iff (heldPrefix_run hbefore) hlast).mp hsafe
      exact .snoc (ih hsafe') ⟨hok, hlast⟩
  · intro hwhile
    have hinit : Daemon.init.Safe := by
      intro x hx
      cases hx
    have hkept (t : Daemon) (e : DaemonEvent) (u : Daemon) (ht : HeldPrefix t ∧ t.Safe)
        (hok : StepOk t e) (hstep : Daemon.Step t e u) : HeldPrefix u ∧ u.Safe :=
      ⟨heldPrefix_step ht.1 hstep, (safe_step_iff ht.1 hstep).mpr ⟨ht.2, hok⟩⟩
    exact (Run.invariant_while hkept ⟨heldPrefix_init, hinit⟩ hwhile).2

namespace DaemonLemmas

/-- A prefix length that is not zero comes from a request. -/
theorem replied_run {es : List DaemonEvent} {s : Daemon} (hrun : Run Daemon.Step Daemon.init es s) :
    ((∃ reply, .dhcp (some reply) ∈ es) → s.lastReply.isSome) ∧
      (FirstSucceeds es → s.started = true ∨ s.sharedPrefix.prefixLength ≠ 0 →
        s.lastReply.isSome) := by
  have hnever : ¬ (Daemon.init.started = true ∨ Daemon.init.sharedPrefix.prefixLength ≠ 0) := by
    decide
  refine hrun.trace_invariant (I := fun es s =>
    ((∃ reply, .dhcp (some reply) ∈ es) → s.lastReply.isSome) ∧
      (FirstSucceeds es → s.started = true ∨ s.sharedPrefix.prefixLength ≠ 0 → s.lastReply.isSome))
    ?_ ⟨fun ⟨_, hmem⟩ => absurd hmem List.not_mem_nil, fun _ h => absurd h hnever⟩
  rintro es s e t ⟨hseen, hgate⟩ hstep
  have hshorter (hfirst : FirstSucceeds (es ++ [e])) : FirstSucceeds es := by
    intro before after hes
    exact hfirst before (after ++ [e]) (by rw [hes, List.append_assoc, List.cons_append])
  have hsame (hne : ∀ reply, e ≠ .dhcp (some reply))
      (h : ∃ reply, .dhcp (some reply) ∈ es ++ [e]) : s.lastReply.isSome := by
    obtain ⟨reply, hmem⟩ := h
    rcases List.mem_append.mp hmem with hmem | hmem
    · exact hseen ⟨reply, hmem⟩
    · exact absurd (List.mem_singleton.mp hmem).symm (hne reply)
  cases hstep with
  | dhcp reply =>
    cases reply with
    | some reply => exact ⟨fun _ => rfl, fun _ _ => rfl⟩
    | none => exact ⟨hsame nofun, fun hfirst _ => hseen (hfirst es [] rfl)⟩
  | start hlength =>
    exact ⟨hsame nofun, fun hfirst _ => hgate (hshorter hfirst) (.inr hlength)⟩
  | broadcast | reply => exact ⟨hsame nofun, fun hfirst h => hgate (hshorter hfirst) h⟩

end DaemonLemmas

/-- When the first request that comes back succeeds, nothing is advertised before a
reply, and what is left of the condition is the one on its lifetimes. -/
theorem mayAdvertise_of_first {es : List DaemonEvent} {s : Daemon}
    (hrun : Run Daemon.Step Daemon.init es s) (hfirst : FirstSucceeds es)
    (hstarted : s.started = true) :
    s.MayAdvertise ↔
      ∀ reply, s.lastReply = some reply → s.failures % 2 = 0 ∨ SwapInvariant reply := by
  obtain ⟨reply, hreply⟩ :=
    Option.isSome_iff_exists.mp ((replied_run hrun).2 hfirst (.inl hstarted))
  simp only [Daemon.MayAdvertise, hreply, Option.some.injEq, exists_eq_left', forall_eq']

/-- A first request that fails makes the prefix length 64, and the zero prefix is
advertised. -/
theorem exFailure_advertised :
    ¬ ∀ es s, Run Daemon.Step Daemon.init es s → s.Safe := by
  intro hall
  obtain ⟨pkt, hsend⟩ := broadcast_enabled { Daemon.init.afterPass none with started := true } rfl
  have hrun := hall _ _ (.cons (.dhcp none) (.cons (.start (by decide)) (.single hsend)))
  obtain ⟨reply, hreply, _⟩ := hrun _ (List.mem_append_right _ List.mem_cons_self)
  cases hreply

/-- A reply, then an advertisement of what it says. -/
theorem exReply_advertised : ∃ es s, Run Daemon.Step Daemon.init es s ∧ s.sent ≠ [] ∧ s.Safe := by
  obtain ⟨pkt, hsend⟩ := broadcast_enabled
    { Daemon.init.afterPass (some ⟨24000, 48000, 56, exDelegatedAddr⟩) with started := true } rfl
  have hreply := Daemon.Step.dhcp (s := Daemon.init) (some ⟨24000, 48000, 56, exDelegatedAddr⟩)
  have hstart := Daemon.Step.start
    (s := Daemon.init.afterPass (some ⟨24000, 48000, 56, exDelegatedAddr⟩)) (by decide)
  refine ⟨_, _, .cons hreply (.cons hstart (.single hsend)), List.append_ne_nil_of_right_ne_nil _
    (List.cons_ne_nil _ _), ?_⟩
  refine (safe_iff_while (.cons hreply (.cons hstart (.single hsend)))).mpr ?_
  exact .cons ⟨trivial, hreply⟩ (.cons ⟨trivial, hstart⟩ (.single ⟨⟨_, rfl, .inl rfl⟩, hsend⟩))

end Pdrad
