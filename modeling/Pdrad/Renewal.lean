import Pdrad.Clocks
import Pdrad.Delivery

/-!
# How long the threads sleep (`test.c`)

Between two requests the DHCP thread sleeps for the preferred lifetime in `_prefix`, which
it reads behind its critical section. `Thread_sendRouterAdv` sleeps between two
advertisements. A signal interrupts them. `main`, which looks at the flags once a second,
is left without a clock.

1. `sleep_reads`: what the DHCP thread reads without the mutex is what its pass has left.
2. `renewal_waits`: the time to the next request, in every run, behind a reply that
   delegates a prefix and any number of failed requests.
3. `broadcast_rate`: how far apart the advertisements to all nodes are.
4. `clocked_iff`: the process with a clock has the runs of the process.
-/

namespace Pdrad

open ProcessLemmas AtomicityLemmas DeliveryLemmas

/-- `intervalSec` in the argument that `main` makes for `Thread_sendRouterAdv`. -/
def intervalSec : Nat := 200

/-- The calls of `sleep`. A thread is behind one when it looks at its flag again. -/
def processSleeps : Sleeps Process ProcessEvent Worker where
  falls
    | .dhcp .unlock, t => some (.requestDhcpPrefix, t.sharedPrefix.preferredLifetime.toNat)
    | .adv .sendRouterAdv .unlock, _ => some (.adv .sendRouterAdv, intervalSec)
    | _, _ => none
  wakes
    | .dhcp .enter | .dhcp .leave => some .requestDhcpPrefix
    | .adv .sendRouterAdv .enter | .adv .sendRouterAdv .leave => some (.adv .sendRouterAdv)
    | _ => none
  interrupts
    | .signal _ => true
    | _ => false

abbrev ClockedProcess := Clocked Process Worker

/-- The steps of the process, with the times they happen at. -/
abbrev ClockedStep (useDhcp : Bool) :=
  Clocked.Step processSleeps (Process.Step useDhcp)

/-- An advertisement to all nodes is sent. -/
def ProcessEvent.isBroadcast : ProcessEvent → Bool
  | .adv .sendRouterAdv (.send _ _) => true
  | _ => false

section

variable {useDhcp : Bool} {p given : DhOptIAPrefix} {s t : ClockedProcess}
  {xs es fs : List (Nat × ProcessEvent)} {due : Nat}

/-- The DHCP thread is still asleep, or it is `due`. -/
def RequestDue (due : Nat) (s : ClockedProcess) : Prop :=
  due ≤ s.now ∨ s.state.dhcp = .loopTop ∧ due ≤ s.ready .requestDhcpPrefix

/-- The last advertisement of `Thread_sendRouterAdv`, which is at the given place, was `due`.
The next one is not sent before `intervalSec` is over. -/
def AdvAt.BroadcastDue (due now ready : Nat) : AdvAt → Prop
  | .absent | .setUp => False
  | .loopTop => due + intervalSec ≤ ready
  | .unlocking => due ≤ now
  | .ended => True
  | _ => due + intervalSec ≤ now

def BroadcastDue (due : Nat) (s : ClockedProcess) : Prop :=
  (s.state.adv .sendRouterAdv).BroadcastDue due s.now (s.ready (.adv .sendRouterAdv))

/-- What is due behind the events. -/
def dueAfter (due : Nat) (es : List ProcessEvent) : Nat :=
  due + intervalSec * es.countP ProcessEvent.isBroadcast

namespace RenewalLemmas

/-! ## The DHCP thread -/

/-- Only the DHCP thread writes to `_prefix`. -/
theorem sharedPrefix_step {e : ProcessEvent} {s t : Process} (h : Process.Step useDhcp s e t)
    (hothers : ∀ d, e ≠ .dhcp d) : t.sharedPrefix = s.sharedPrefix := by
  cases h with
  | main _ h => cases h <;> rfl
  | signal => rfl
  | dhcp _ h => exact absurd rfl (hothers _)
  | adv _ _ h => exact (adv_frame h).sharedPrefix

theorem requestDue_step {e : Nat × ProcessEvent} (hcreated : s.state.Created)
    (hs : RequestDue due s) (h : ClockedStep useDhcp s e t)
    (hsleeps : processSleeps.interrupts e.2 = false) : RequestDue due t := by
  rcases hs with hnow | ⟨hpc, hready⟩
  · exact .inl (Nat.le_trans hnow (Clocked.now_mono h).1)
  · have hlater := Nat.le_trans hready (Clocked.ready_mono h hsleeps)
    have hwoken (hwakes : processSleeps.wakes e.2 = some .requestDhcpPrefix) : due ≤ e.1 :=
      Nat.le_trans hready (Clocked.ready_le h hwakes)
    cases h with
    | happens time hnow hwake hstep =>
      cases hstep with
      | signal => cases (show true = false from hsleeps)
      | adv _ _ h => exact .inr ⟨(adv_frame h).dhcp.trans hpc, hlater⟩
      | main _ h =>
        cases h with
        | createDhcp hmain =>
          have habsent := dhcp_absent hcreated hmain id
          rw [hpc] at habsent
          cases habsent
        | init | register | seePrefix | createRa | createRs | returns => exact .inr ⟨hpc, hlater⟩
      | dhcp _ h =>
        cases h with
        | enter | leave => exact .inl (hwoken rfl)
        | setUp hpc' | socketFails hpc' | setUpFails hpc' | lock hpc' | call _ _ _ _ _ _ hpc'
        | copy _ _ _ hpc' | copied _ hpc' | convertPreferred _ hpc' | convertValid _ hpc'
        | setLength _ hpc' | unlock hpc' =>
          rw [hpc] at hpc'
          cases hpc'

/-! ## `Thread_sendRouterAdv` -/

theorem broadcastDue_mono {pc : AdvAt} {now now' ready ready' : Nat} (hnow : now ≤ now')
    (hready : ready ≤ ready') (h : pc.BroadcastDue due now ready) :
    pc.BroadcastDue due now' ready' := by
  cases pc with
  | absent | setUp => exact h
  | ended => trivial
  | loopTop => exact Nat.le_trans h hready
  | link | receiving | hardware | locking | reading | unlocking => exact Nat.le_trans h hnow

theorem adv_broadcastDue {s t : Process} {e : AdvEvent} {now ready time ready' : Nat}
    (h : AdvStep .sendRouterAdv s e t) (hnow : now ≤ time) (hwake : e = .enter → ready ≤ time)
    (hasleep : e = .unlock → time + intervalSec ≤ ready')
    (hs : (s.adv .sendRouterAdv).BroadcastDue due now ready) :
    (t.adv .sendRouterAdv).BroadcastDue (dueAfter due [.adv .sendRouterAdv e]) time ready' := by
  have hgoto {pc : AdvAt} {due : Nat} (h : pc.BroadcastDue due time ready') :
      ((s.goto .sendRouterAdv pc).adv .sendRouterAdv).BroadcastDue due time ready' := by
    rwa [adv_goto_self]
  cases h with
  | setUp hpc | setUpFails hpc | exits hpc =>
    rw [hpc] at hs
    exact hs.elim
  | enter hpc =>
    rw [hpc] at hs
    exact hgoto (Nat.le_trans hs (hwake rfl))
  | leave hpc => exact hgoto trivial
  | getLinkLocalAddress _ _ hpc | receive _ _ _ _ _ _ hpc | getHardwareAddressByName _ _ _ _ hpc
  | lock _ hpc | read _ _ _ _ hpc =>
    rw [hpc] at hs
    exact hgoto (Nat.le_trans hs hnow)
  | dies _ _ _ hpc =>
    show (s.adv .sendRouterAdv).BroadcastDue _ _ _
    rw [hpc] at hs ⊢
    exact Nat.le_trans hs hnow
  | send _ _ _ _ _ hpc =>
    rw [hpc] at hs
    exact hgoto (Nat.le_trans hs hnow)
  | unlock hpc =>
    rw [hpc] at hs
    have hdue : due ≤ time := Nat.le_trans hs hnow
    exact hgoto (Nat.le_trans (Nat.add_le_add_right hdue _) (hasleep rfl))

theorem broadcastDue_step {e : Nat × ProcessEvent} (hcreated : s.state.Created)
    (hs : BroadcastDue due s) (h : ClockedStep useDhcp s e t)
    (hsleeps : processSleeps.interrupts e.2 = false) : BroadcastDue (dueAfter due [e.2]) t := by
  have hlater := Clocked.ready_mono (i := .adv .sendRouterAdv) h hsleeps
  have hsame (hadv : t.state.adv .sendRouterAdv = s.state.adv .sendRouterAdv) :
      BroadcastDue due t := by
    rw [BroadcastDue, hadv]
    exact broadcastDue_mono (Clocked.now_mono h).1 hlater hs
  have hwoken (hwakes : processSleeps.wakes e.2 = some (.adv .sendRouterAdv)) :
      s.ready (.adv .sendRouterAdv) ≤ e.1 := Clocked.ready_le h hwakes
  have hasleep (heq : e.2 = .adv .sendRouterAdv .unlock) :
      e.1 + intervalSec ≤ t.ready (.adv .sendRouterAdv) :=
    Clocked.asleep h hsleeps (by rw [heq]; rfl)
  cases h with
  | happens time hnow hwake hstep =>
    cases hstep with
    | signal => cases (show true = false from hsleeps)
    | dhcp _ h => exact hsame (congrFun (dhcp_frame h).adv _)
    | main _ h =>
      cases h with
      | createRa hmain =>
        have habsent : s.state.adv .sendRouterAdv = .absent := adv_absent hcreated hmain id
        rw [BroadcastDue, habsent] at hs
        exact hs.elim
      | createRs hmain =>
        have hother : AdvThread.sendRouterAdv ≠ .listenRouterSolicit := by decide
        exact hsame (adv_goto_of_ne s.state .setUp hother)
      | init | register | createDhcp | seePrefix | returns => exact hsame rfl
    | adv th _ h =>
      cases th with
      | listenRouterSolicit => exact hsame ((adv_frame h).others _ nofun)
      | sendRouterAdv =>
        refine adv_broadcastDue h hnow ?_ ?_ hs
        · rintro rfl
          exact hwoken rfl
        · rintro rfl
          exact hasleep rfl

theorem created_clocked {e : Nat × ProcessEvent} (hcreated : s.state.Created)
    (h : ClockedStep useDhcp s e t) : t.state.Created := by
  cases h with
  | happens _ _ _ hstep => exact created_step hcreated hstep

theorem requestDue_run (hcreated : s.state.Created) (hs : RequestDue due s)
    (hrun : Run (ClockedStep useDhcp) s es t)
    (hsleeps : ∀ e ∈ es, processSleeps.interrupts e.2 = false) : RequestDue due t := by
  have hkept (s : ClockedProcess) (e : Nat × ProcessEvent) (t : ClockedProcess)
      (hI : s.state.Created ∧ RequestDue due s) (hok : processSleeps.interrupts e.2 = false)
      (h : ClockedStep useDhcp s e t) : t.state.Created ∧ RequestDue due t :=
    ⟨created_clocked hI.1 h, requestDue_step hI.1 hI.2 h hok⟩
  exact (hrun.invariant_of_events hkept ⟨hcreated, hs⟩ hsleeps).2

theorem broadcastDue_run (hcreated : s.state.Created) (hs : BroadcastDue due s)
    (hrun : Run (ClockedStep useDhcp) s es t)
    (hsleeps : ∀ e ∈ es, processSleeps.interrupts e.2 = false) :
    BroadcastDue (dueAfter due (es.map Prod.snd)) t := by
  induction hrun with
  | nil => exact hs
  | @snoc es e t u hbefore hlast ih =>
    obtain ⟨hsleepsBefore, hsleepsLast⟩ := List.forall_mem_append.mp hsleeps
    have hcreated' : t.state.Created :=
      hbefore.invariant (I := fun u => u.state.Created) (fun _ _ _ => created_clocked) hcreated
    have hdue := broadcastDue_step hcreated' (ih hsleepsBefore) hlast
      (hsleepsLast e List.mem_cons_self)
    rw [List.map_append, dueAfter, List.countP_append, Nat.mul_add, ← Nat.add_assoc]
    exact hdue

theorem unlock_state {time : Nat} (h : ClockedStep useDhcp s (time, .dhcp .unlock) t) :
    s.state.dhcp = .unlocking ∧ t.state.dhcp = .loopTop ∧
      t.state.sharedPrefix = s.state.sharedPrefix := by
  cases h with
  | happens _ _ _ hstep =>
    cases hstep with
    | dhcp _ hstep =>
      cases hstep with
      | unlock hpc => exact ⟨hpc, rfl, rfl⟩

theorem shared_of_unlocking {s : Process} (h : s.Coherent p) (hpc : s.dhcp = .unlocking) :
    s.sharedPrefix = p := by
  have hheld := h.shared
  rw [hpc] at hheld
  exact hheld

/-- The DHCP thread is awake when it locks the mutex. -/
theorem lock_late {time : Nat} (hs : RequestDue due s)
    (h : ClockedStep useDhcp s (time, .dhcp .lock) t) : due ≤ time := by
  cases h with
  | happens _ hnow _ hstep =>
    cases hstep with
    | dhcp _ hstep =>
      cases hstep with
      | lock hpc =>
        rcases hs with hdue | ⟨hloop, _⟩
        · exact Nat.le_trans hdue hnow
        · rw [hpc] at hloop
          cases hloop

theorem sent_due {time : Nat} {dstAddr : In6Addr} {pkt : List UInt8}
    (h : ClockedStep useDhcp s (time, .adv .sendRouterAdv (.send dstAddr pkt)) t) :
    BroadcastDue time t := by
  cases h with
  | happens _ _ _ hstep =>
    cases hstep with
    | adv _ _ hstep =>
      cases hstep with
      | send =>
        have hpc := adv_goto_self s.state .sendRouterAdv .unlocking
        exact (congrArg (AdvAt.BroadcastDue time time _) hpc).mpr (Nat.le_refl time)

theorem send_late {time : Nat} {dstAddr : In6Addr} {pkt : List UInt8} (hs : BroadcastDue due s)
    (h : ClockedStep useDhcp s (time, .adv .sendRouterAdv (.send dstAddr pkt)) t) :
    due + intervalSec ≤ time := by
  cases h with
  | happens _ hnow _ hstep =>
    cases hstep with
    | adv _ _ hstep =>
      cases hstep with
      | send _ _ _ _ _ hpc =>
        rw [BroadcastDue, hpc] at hs
        exact Nat.le_trans hs hnow

end RenewalLemmas

open RenewalLemmas

/-! ## The process -/

/-- As long as the DHCP thread makes no step, `_prefix` is what it has left, whenever it is
read for `sleep`. -/
theorem sleep_reads {es : List ProcessEvent} {s t : Process}
    (hrun : Run (Process.Step useDhcp) s es t) (hothers : ∀ e ∈ es, ∀ d, e ≠ .dhcp d) :
    t.sharedPrefix = s.sharedPrefix :=
  hrun.invariant_of_events (I := fun u : Process => u.sharedPrefix = s.sharedPrefix)
    (fun _ e _ hI (hok : ∀ d, e ≠ .dhcp d) hstep => (sharedPrefix_step hstep hok).trans hI)
    rfl hothers

/-- **Until the next request.** At any time in any run, a request is answered by a reply
that delegates a prefix, and any number of requests fail behind it. When a pass is over, the
next one does not begin before the preferred lifetime of the advertisements in between is
over. Behind an odd number of failures, this is the lifetime that was delegated with its bytes
reversed. -/
theorem renewal_waits {c : DhcpCall} {answered asleep next : Nat}
    (hrun : Run (ClockedStep useDhcp) (.start (Process.init p)) xs s)
    (hobtains : s.state.Obtains given c)
    (hafter : Run (ClockedStep useDhcp) { s with state := s.state.afterCall c, now := answered }
      (es ++ (asleep, .dhcp .unlock) :: fs ++ [(next, .dhcp .lock)]) t)
    (hfails : ∀ e ∈ es, e.2 ≠ .dhcp (.call (some 0)))
    (hsleeps : ∀ e ∈ fs, processSleeps.interrupts e.2 = false) :
    ∃ failures, passes (es.map Prod.snd) =
        some (wireLifetimes given) :: List.replicate failures none ∧
      asleep + (heldLifetime failures given.preferredLifetime).toNat ≤ next := by
  obtain ⟨hstep, hunderWay⟩ := @obtains_step useDhcp _ _ _ hobtains
  obtain ⟨w, hall, hlock⟩ := hafter.unsnoc
  obtain ⟨u, v, hbefore, hunlock, hbehind⟩ := hall.split_cons
  have hcalled := (Clocked.erase hrun).snoc hstep
  have hbefore' := Clocked.erase hbefore
  have hcoherent := coherent_run (hcalled.append hbefore')
  obtain ⟨failures, hpasses⟩ := underWay_run hbefore' (reached hcalled).1 hunderWay
    (List.forall_mem_map.mpr hfails)
  have hcreated : v.state.Created := created_clocked hcoherent.created hunlock
  have hasleep := Clocked.asleep (i := .requestDhcpPrefix) hunlock rfl rfl
  obtain ⟨hpc, hloop, hkept⟩ := unlock_state hunlock
  have hlate := requestDue_run hcreated (.inr ⟨hloop, hasleep⟩) hbehind hsleeps
  -- the pass is over, and `_prefix` is what the passes since the reply have left
  have hquiet : ¬ u.state.dhcp.Writing := hpc ▸ id
  rw [underWay_of_quiet hquiet, Option.toList_none, List.append_nil] at hpasses
  rw [hkept, shared_of_unlocking hcoherent hpc, afterPasses_append, hpasses,
    afterPasses_delegated] at hlate
  exact ⟨failures, hpasses, lock_late hlate hlock⟩

/-- **Between two advertisements to all nodes** there are `intervalSec` seconds, and so in
every run the last of any number of them is as late as that many times `intervalSec`. -/
theorem broadcast_rate {time time' : Nat} {dstAddr dstAddr' : In6Addr} {pkt pkt' : List UInt8}
    (hrun : Run (ClockedStep useDhcp) (.start (Process.init p))
      (es ++ (time, .adv .sendRouterAdv (.send dstAddr pkt)) :: fs ++
        [(time', .adv .sendRouterAdv (.send dstAddr' pkt'))]) t)
    (hsleeps : ∀ e ∈ fs, processSleeps.interrupts e.2 = false) :
    time + intervalSec * ((fs.map Prod.snd).countP ProcessEvent.isBroadcast + 1) ≤ time' := by
  obtain ⟨w, hall, hlast⟩ := hrun.unsnoc
  obtain ⟨u, v, hbefore, hfirst, hbehind⟩ := hall.split_cons
  have hcreated : u.state.Created := (reached (Clocked.erase hbefore)).1
  have hdue := broadcastDue_run (created_clocked hcreated hfirst) (sent_due hfirst) hbehind hsleeps
  rw [Nat.mul_add, Nat.mul_one, ← Nat.add_assoc]
  exact send_late hdue hlast

/-- The clock leaves the process all of its runs, and adds none. -/
theorem clocked_iff {u : Process} {gs : List ProcessEvent} :
    Run (Process.Step useDhcp) (Process.init p) gs u ↔
      ∃ es t, Run (ClockedStep useDhcp) (.start (Process.init p)) es t ∧
        es.map Prod.snd = gs ∧ t.state = u := by
  constructor
  · exact fun h => Clocked.exists_clocked (s := .start (Process.init p)) h
  · rintro ⟨es, t, hrun, rfl, rfl⟩
    exact Clocked.erase hrun

end

/-- Behind one failure, an hour has become more than eight years. -/
example : (heldLifetime 1 3600).toNat = 269352960 := by decide

/-- What the DHCP thread does behind a successful request, up to the end of the pass. -/
def exCopies (reply : DhOptIAPrefix) : List ProcessEvent :=
  [.dhcp (.copy .prefixAddr), .dhcp (.copy .prefixLength), .dhcp (.copy .validLifetime),
    .dhcp (.copy .preferredLifetime), .dhcp .copied, .dhcp .convertPreferred, .dhcp .convertValid,
    .dhcp (.setLength (some reply))]

namespace RenewalLemmas

theorem exCopies_run {s : Process} {c : DhcpCall} (hexited : s.exited = false)
    (hzero : c.ret = some 0) :
    ∃ t, Run (Process.Step true) (s.afterCall c) (exCopies c.prefixResult) t ∧
      t.exited = false ∧ t.dhcp = .unlocking ∧ t.cancelDhcp = s.cancelDhcp ∧
      t.sharedPrefix.preferredLifetime = be32toh c.prefixResult.preferredLifetime := by
  rw [Process.afterCall, hzero]
  exact ⟨_, .cons (.dhcp hexited (.copy .prefixAddr _ _ rfl (by decide)))
    (.cons (.dhcp hexited (.copy .prefixLength _ _ rfl (by decide)))
      (.cons (.dhcp hexited (.copy .validLifetime _ _ rfl (by decide)))
        (.cons (.dhcp hexited (.copy .preferredLifetime _ _ rfl (by decide)))
          (.cons (.dhcp hexited (.copied _ rfl)) (.cons (.dhcp hexited (.convertPreferred _ rfl))
            (.cons (.dhcp hexited (.convertValid _ rfl))
              (.single (.dhcp hexited (.setLength _ rfl))))))))), hexited, rfl, rfl, rfl⟩

theorem exCalls_clocked : ∃ s c, Run (ClockedStep true) (.start (Process.init blankPrefix))
      (exCalls.map (0, ·)) s ∧ s.state.Obtains exDelegated c ∧ c.ret = some 0 ∧
    c.prefixResult = wireLifetimes exDelegated ∧ s.wake = (fun _ => 0) ∧
    s.state.cancelDhcp = false := by
  have hbuffer : BufferAt 0x8000 1500 := ⟨by decide, by decide⟩
  obtain ⟨c, hreturns, _⟩ :=
    request_cases (exReceives exDelegates) 3 (fun _ => 0) blankPrefix hbuffer
  obtain ⟨hzero, hreply⟩ := delegated_installed hbuffer hreturns rfl rfl rfl exDelegates_delegates
  obtain ⟨u, hcalls, hexited, hpc, hcancel, hshared⟩ :
      ∃ u, Run (Process.Step true) (Process.init blankPrefix) exCalls u ∧ u.exited = false ∧
        u.dhcp = .calling ∧ u.cancelDhcp = false ∧ u.sharedPrefix = blankPrefix :=
    ⟨_, .cons (.main rfl (.init _ rfl)) (.cons (.main rfl (.register rfl))
      (.cons (.main rfl (.createDhcp rfl)) (.cons (.dhcp rfl (.setUp rfl))
        (.cons (.dhcp rfl (.enter rfl rfl)) (.single (.dhcp rfl (.lock rfl rfl))))))),
      rfl, rfl, rfl, rfl⟩
  obtain ⟨s, hrun, rfl, _, hwake⟩ := Clocked.at_once (s := .start (Process.init blankPrefix))
    (z := processSleeps) hcalls (Nat.le_refl 0) (fun _ => Nat.le_refl 0)
    (by simp [exCalls, processSleeps])
  rw [← hshared] at hreturns
  exact ⟨s, c, hrun, ⟨hexited, hpc, _, _, _, _, _, _, hbuffer, hreturns, rfl, rfl, rfl,
    exDelegates_delegates⟩, hzero, hreply, hwake, hcancel⟩

/-- Behind the first pass the thread sleeps for an hour. -/
theorem exRenews_run : ∃ s c t, Run (ClockedStep true) (.start (Process.init blankPrefix))
      (exCalls.map (0, ·)) s ∧ s.state.Obtains exDelegated c ∧
    Run (ClockedStep true) { s with state := s.state.afterCall c, now := 0 }
      ((exCopies (wireLifetimes exDelegated)).map (0, ·) ++ (0, .dhcp .unlock) ::
        [(3600, .dhcp .enter)] ++ [(3600, .dhcp .lock)]) t := by
  obtain ⟨s, c, hcalls, hobtains, hzero, hreply, hawake, hcancel⟩ := exCalls_clocked
  obtain ⟨u, hcopies, hexited, hpc, hcancel', hpreferred⟩ := exCopies_run hobtains.exited hzero
  rw [hreply] at hcopies hpreferred
  obtain ⟨v, hfirst, rfl, hnow, hwake⟩ := Clocked.at_once (z := processSleeps)
    (s := { s with state := s.state.afterCall c, now := 0 }) hcopies (Nat.le_refl 0)
    (fun i => Nat.le_of_eq (congrFun hawake i)) (by simp [exCopies, processSleeps])
  have hwake' : v.wake = fun _ => 0 := hwake.trans hawake
  have hunlock : ClockedStep true v (0, .dhcp .unlock) _ :=
    .happens 0 hnow (fun i _ => Nat.le_of_eq (congrFun hwake' i)) (.dhcp hexited (.unlock hpc))
  have hready : Clocked.wakeAfter processSleeps v.wake 0 (.dhcp .unlock)
      { v.state with dhcp := .loopTop, mutex := none } .requestDhcpPrefix ≤ 3600 := by
    show Function.update v.wake .requestDhcpPrefix (max (v.wake .requestDhcpPrefix)
      (0 + v.state.sharedPrefix.preferredLifetime.toNat)) .requestDhcpPrefix ≤ 3600
    rw [Function.update_self, hwake', hpreferred]
    decide
  refine ⟨s, c, _, hcalls, hobtains, (hfirst.append (.cons hunlock (.single
    (.happens 3600 (Nat.zero_le _) ?_ (.dhcp hexited (.enter rfl (hcancel'.trans hcancel))))))).snoc
      (.happens 3600 (Nat.le_refl _) ?_ (.dhcp hexited (.lock rfl rfl)))⟩
  · rintro _ ⟨⟩
    exact hready
  · rintro _ ⟨⟩

end RenewalLemmas

open RenewalLemmas

/-- The pass is the one that installs the reply, and the next request is an hour later. -/
theorem exDelegated_waits : ∃ s c t failures,
    Run (ClockedStep true) (.start (Process.init blankPrefix)) (exCalls.map (0, ·)) s ∧
    Run (ClockedStep true) { s with state := s.state.afterCall c, now := 0 }
      ((exCopies (wireLifetimes exDelegated)).map (0, ·) ++ (0, .dhcp .unlock) ::
        [(3600, .dhcp .enter)] ++ [(3600, .dhcp .lock)]) t ∧
    passes (exCopies (wireLifetimes exDelegated)) =
      some (wireLifetimes exDelegated) :: List.replicate failures none ∧
    0 + (heldLifetime failures 3600).toNat ≤ 3600 := by
  obtain ⟨s, c, t, hcalls, hobtains, hafter⟩ := exRenews_run
  obtain ⟨failures, hpasses, hwaits⟩ :=
    renewal_waits hcalls hobtains hafter (by simp [exCopies]) (by simp [processSleeps])
  exact ⟨s, c, t, failures, hcalls, hafter, hpasses, hwaits⟩

/-- `Thread_sendRouterAdv` makes a pass, up to its `sendmsg`, -/
def exReady : List ProcessEvent :=
  exLocks.drop 2 ++ exReads .sendRouterAdv

/-- and sends. -/
def exSends (pkt : List UInt8) : ProcessEvent :=
  .adv .sendRouterAdv (.send addrAllNodesMulticast pkt)

namespace RenewalLemmas

/-- `Thread_sendRouterAdv` is at `pc`, and nothing hinders it. -/
structure Unhindered (pc : AdvAt) (s : Process) : Prop where
  exited : s.exited = false
  pc : s.adv .sendRouterAdv = pc
  cancel : s.cancel .sendRouterAdv = false
  utils : ∃ fds blocks, s.utils = ⟨3, some 0x1000, fds, blocks⟩

theorem exReady_run {s : Process} (h : Unhindered .loopTop s) (hmutex : s.mutex = none) :
    ∃ t a q, Run (Process.Step false) s exReady t ∧ a.dstAddr = addrAllNodesMulticast ∧
      Unhindered (.reading a q []) t := by
  obtain ⟨p, mutex, utils, cancelDhcp, cancel, main, dhcp, adv, sent, exited⟩ := s
  obtain ⟨hexited, hpc, hcancel, fds, blocks, hutils⟩ := h
  dsimp only at hexited hmutex hpc hcancel hutils
  subst hexited hmutex hutils
  exact ⟨_, ⟨In6Addr.zero, addrAllNodesMulticast, [2, 0, 0, 0, 0, 1], rfl⟩, _,
    .cons (.adv _ rfl (.enter hpc hcancel))
    (.cons (.adv _ rfl (.getLinkLocalAddress (.ok ()) (.ok In6Addr.zero) rfl))
      (.cons (.adv _ rfl (.getHardwareAddressByName (.ok [2, 0, 0, 0, 0, 1]) _ _ _ rfl rfl))
        (.cons (.adv _ rfl (.lock _ rfl rfl))
          (.cons (.adv _ rfl (.read .prefixAddr _ _ _ rfl (by decide) fun _ => rfl))
            (.cons (.adv _ rfl (.read .prefixLength _ _ _ rfl (by decide) (by decide)))
              (.cons (.adv _ rfl (.read .validLifetime _ _ _ rfl (by decide) (by decide)))
                (.single (.adv _ rfl
                  (.read .preferredLifetime _ _ _ rfl (by decide) (by decide)))))))))), rfl,
    rfl, rfl, hcancel, _, _, rfl⟩

theorem exSends_step {s : Process} {a : AdvAddrs} {q : DhOptIAPrefix}
    (h : Unhindered (.reading a q []) s) (hdst : a.dstAddr = addrAllNodesMulticast) :
    ∃ pkt t, Process.Step false s (exSends pkt) t ∧ Unhindered .unlocking t := by
  obtain ⟨pkt, hsend⟩ := send_enabled h.pc
  rw [hdst] at hsend
  exact ⟨pkt, _, .adv _ h.exited hsend, h.exited, adv_goto_self s .sendRouterAdv .unlocking, h.cancel,
    h.utils⟩

theorem exUnlock_step {s : Process} (h : Unhindered .unlocking s) :
    ∃ t, Process.Step false s (.adv .sendRouterAdv .unlock) t ∧ Unhindered .loopTop t ∧
      t.mutex = none :=
  ⟨_, .adv _ h.exited (.unlock h.pc),
    ⟨h.exited, adv_goto_self s .sendRouterAdv .loopTop, h.cancel, h.utils⟩, rfl⟩

theorem exStarts_run : ∃ s, Run (Process.Step false) (Process.init blankPrefix)
      [.main (.init exInit), .main .register, .main .createRa, .adv .sendRouterAdv .setUp] s ∧
    Unhindered .loopTop s ∧ s.mutex = none :=
  ⟨_, .cons (.main rfl (.init _ rfl)) (.cons (.main rfl (.register rfl))
    (.cons (.main rfl (.createRa rfl)) (.single (.adv _ rfl (.setUp rfl))))),
    ⟨rfl, rfl, rfl, _, _, rfl⟩, rfl⟩

/-- `Thread_sendRouterAdv` sends, sleeps, and sends again. -/
theorem exBroadcasts_run : ∃ es pkt pkt' t, Run (ClockedStep false) (.start (Process.init blankPrefix))
    (es ++ (0, exSends pkt) :: (0, .adv .sendRouterAdv .unlock) :: exReady.map (200, ·) ++
      [(200, exSends pkt')]) t := by
  obtain ⟨s₀, hstarts, hloop, hmutex⟩ := exStarts_run
  obtain ⟨s₁, a, q, hready, hdst, hreading⟩ := exReady_run hloop hmutex
  obtain ⟨pkt, s₂, hsends, hsent⟩ := exSends_step hreading hdst
  obtain ⟨s₃, hunlock, hloop', hmutex'⟩ := exUnlock_step hsent
  obtain ⟨s₄, a', q', hready', hdst', hreading'⟩ := exReady_run hloop' hmutex'
  obtain ⟨pkt', s₅, hsends', _⟩ := exSends_step hreading' hdst'
  obtain ⟨t, hfirst, rfl, hnow, hwake⟩ := Clocked.at_once (s := .start (Process.init blankPrefix))
    (z := processSleeps) (hstarts.append hready) (Nat.le_refl 0) (fun _ => Nat.le_refl 0)
    (by simp [exReady, exLocks, exReads, processSleeps])
  have hfirstSends : ClockedStep false t (0, exSends pkt) ⟨s₂, 0, t.wake⟩ :=
    .happens 0 hnow (fun i _ => Nat.le_of_eq (congrFun hwake i)) hsends
  have hsleeps : ClockedStep false ⟨s₂, 0, t.wake⟩ (0, .adv .sendRouterAdv .unlock)
      ⟨s₃, 0, Function.update t.wake (.adv .sendRouterAdv) (max (t.wake _) (0 + intervalSec))⟩ :=
    .happens 0 (Nat.le_refl 0) (fun i _ => Nat.le_of_eq (congrFun hwake i)) hunlock
  have hawake (i : Worker) : Function.update t.wake (.adv .sendRouterAdv)
      (max (t.wake (.adv .sendRouterAdv)) (0 + intervalSec)) i ≤ 200 := by
    rw [hwake]
    rcases eq_or_ne i (.adv .sendRouterAdv) with rfl | hne
    · rw [Function.update_self]
      decide
    · rw [Function.update_of_ne hne]
      exact Nat.zero_le _
  obtain ⟨u, hsecond, rfl, hnow', hwake'⟩ := Clocked.at_once (s := ⟨s₃, 0, _⟩)
    (z := processSleeps) hready' (Nat.zero_le 200) hawake
    (by simp [exReady, exLocks, exReads, processSleeps])
  refine ⟨_, pkt, pkt', _, (hfirst.append (.cons hfirstSends (.cons hsleeps hsecond))).snoc
    (.happens 200 hnow' (fun i _ => hwake' ▸ hawake i) hsends')⟩

end RenewalLemmas

open RenewalLemmas

/-- One advertisement is at the time 0, and another one 200 seconds later. -/
theorem exBroadcasts_rate : ∃ es pkt pkt' t,
    Run (ClockedStep false) (.start (Process.init blankPrefix))
      (es ++ (0, exSends pkt) :: (0, .adv .sendRouterAdv .unlock) :: exReady.map (200, ·) ++
        [(200, exSends pkt')]) t ∧
    0 + intervalSec * (exReady.countP ProcessEvent.isBroadcast + 1) ≤ 200 := by
  obtain ⟨es, pkt, pkt', t, hrun⟩ := exBroadcasts_run
  exact ⟨es, pkt, pkt', t, hrun,
    broadcast_rate hrun (by simp [exReady, exLocks, exReads, processSleeps])⟩

end Pdrad
