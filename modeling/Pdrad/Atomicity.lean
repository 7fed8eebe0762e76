import Pdrad.Arguments
import Pdrad.CriticalSections

/-!
# The critical sections are atomic (`test.c`)

The threads of the process work on `_prefix` step by step. What is sent is as if each
critical section were a single step.

1. `coherent_step`: what the fields of `_prefix`, and of the copies of it, are while the
   threads work on them.
2. `advert_eq`: every advertisement is that of the prefix which the passes completed
   before it have left, and of nothing in between.
3. `process_refines_daemon`: a run in DHCP mode is one of the transition system whose
   steps are the critical sections, although `main` looks at `_prefix` in between.
4. `static_adverts`: from the command line to what is sent, in static mode.
-/

namespace Pdrad

open ProcessLemmas

/-! ## Passes -/

/-- `_prefix` after a pass of the DHCP thread that has found it as `p`. -/
def afterPass (p : DhOptIAPrefix) (reply : Option DhOptIAPrefix) : DhOptIAPrefix :=
  afterRequest (reply.getD p)

def afterPasses (p : DhOptIAPrefix) (replies : List (Option DhOptIAPrefix)) : DhOptIAPrefix :=
  replies.foldl afterPass p

/-- The step that completes a pass, with the reply that it has installed, if any. -/
def ProcessEvent.pass : ProcessEvent → Option (Option DhOptIAPrefix)
  | .dhcp (.setLength reply) => some reply
  | _ => none

/-- The passes completed so far. -/
def passes (es : List ProcessEvent) : List (Option DhOptIAPrefix) :=
  es.filterMap ProcessEvent.pass

theorem afterPasses_append (p : DhOptIAPrefix) (es fs : List ProcessEvent) :
    afterPasses p (passes (es ++ fs)) = afterPasses (afterPasses p (passes es)) (passes fs) := by
  rw [passes, passes, passes, List.filterMap_append, afterPasses, List.foldl_append]
  rfl

/-! ## What the threads see -/

/-- `_prefix` is `q`, when the last pass has left `p` and the next one is under way. -/
def DhcpAt.Holds (p q : DhOptIAPrefix) : DhcpAt → Prop
  | .copying reply todo => prefixFields.Partly reply p todo q
  | .convertPreferred reply => q = reply.getD p
  | .convertValid reply => q = { reply.getD p with
      preferredLifetime := be32toh (reply.getD p).preferredLifetime }
  | .setLength reply => q = { reply.getD p with
      preferredLifetime := be32toh (reply.getD p).preferredLifetime
      validLifetime := be32toh (reply.getD p).validLifetime }
  | _ => q = p

/-- The DHCP thread is about to write to `_prefix`. -/
def DhcpAt.Writing : DhcpAt → Prop
  | .copying _ _ | .convertPreferred _ | .convertValid _ | .setLength _ => True
  | _ => False

def SendsTo (th : AdvThread) (dstAddr : In6Addr) : Prop :=
  th = .sendRouterAdv → dstAddr = addrAllNodesMulticast

/-- Whom an advertising thread sends to, and what it has read of `q`. -/
def AdvAt.Holds (th : AdvThread) (q : DhOptIAPrefix) : AdvAt → Prop
  | .receiving _ => th = .listenRouterSolicit
  | .hardware _ dstAddr => SendsTo th dstAddr
  | .locking a => SendsTo th a.dstAddr
  | .reading a p todo => SendsTo th a.dstAddr ∧ prefixFields.Partly q blankPrefix todo p
  | _ => True

/-- All is as it has to be when the last pass has left `p`. -/
structure Process.Coherent (s : Process) (p : DhOptIAPrefix) : Prop where
  created : s.Created
  guarded : Guarded s.mutex s.Inside
  shared : s.dhcp.Holds p s.sharedPrefix
  copies : ∀ th, (s.adv th).Holds th s.sharedPrefix

namespace AtomicityLemmas

variable {useDhcp : Bool} {s t : Process} {th : AdvThread} {p : DhOptIAPrefix}

theorem mem_allPrefixFields (f : PrefixField) : f ∈ allPrefixFields := by
  cases f <;> decide

/-- Outside the section, it does not matter what `_prefix` is. -/
theorem holds_of_outside {pc : AdvAt} {q : DhOptIAPrefix} (q' : DhOptIAPrefix)
    (houtside : ¬ pc.Inside) (h : pc.Holds th q) : pc.Holds th q' := by
  cases pc with
  | reading => exact absurd trivial houtside
  | absent | setUp | loopTop | link | receiving | hardware | locking | unlocking | ended => exact h

/-! ### The DHCP thread -/

theorem dhcp_holds {e : DhcpEvent} (h : DhcpStep s e t) (hs : s.dhcp.Holds p s.sharedPrefix) :
    t.dhcp.Holds (afterPasses p (passes [.dhcp e])) t.sharedPrefix := by
  cases h with
  | setUp hpc | socketFails hpc | setUpFails hpc | enter hpc | leave hpc | lock hpc
  | unlock hpc =>
    rw [hpc] at hs
    exact hs
  | call env handler m buffer bufferLength c hpc =>
    rcases afterCall_cases s c with ⟨_, heq⟩ | ⟨_, heq⟩ | ⟨_, heq⟩
    · rw [heq]
      exact hs
    · rw [hpc] at hs
      rw [heq]
      obtain rfl : s.sharedPrefix = p := hs
      exact Fields.Partly.start mem_allPrefixFields c.prefixResult s.sharedPrefix
    · rw [hpc] at hs
      rw [heq]
      exact hs
  | copy f reply todo hpc =>
    rw [hpc] at hs
    exact Fields.Partly.copy hs f
  | copied reply hpc =>
    rw [hpc] at hs
    exact Fields.Partly.done hs
  | convertPreferred reply hpc =>
    rw [hpc] at hs
    have hq : s.sharedPrefix = reply.getD p := hs
    show DhcpAt.Holds p _ (.convertValid reply)
    rw [DhcpAt.Holds, hq]
  | convertValid reply hpc =>
    rw [hpc] at hs
    show DhcpAt.Holds p _ (.setLength reply)
    rw [DhcpAt.Holds, hs]
  | setLength reply hpc =>
    rw [hpc] at hs
    show _ = afterRequest (reply.getD p)
    rw [hs]
    rfl

/-- It writes to `_prefix` in its section only. -/
theorem dhcp_writes {e : DhcpEvent} (h : DhcpStep s e t) :
    t.sharedPrefix = s.sharedPrefix ∨ s.dhcp.Inside := by
  cases h with
  | setUp | socketFails | setUpFails | enter | leave | lock | unlock | copied => exact .inl rfl
  | call env handler m buffer bufferLength c hpc => exact .inr (hpc ▸ trivial)
  | copy _ _ _ hpc | convertPreferred _ hpc | convertValid _ hpc | setLength _ hpc =>
    exact .inr (hpc ▸ trivial)

/-! ### The advertising threads -/

theorem adv_holds {e : AdvEvent} (h : AdvStep th s e t)
    (hs : (s.adv th).Holds th s.sharedPrefix) : (t.adv th).Holds th s.sharedPrefix := by
  have hgoto {pc : AdvAt} (hpc : pc.Holds th s.sharedPrefix) :
      ((s.goto th pc).adv th).Holds th s.sharedPrefix := by
    rwa [adv_goto_self]
  have hlink (srcAddr : In6Addr) : (afterLink srcAddr th).Holds th s.sharedPrefix := by
    cases th with
    | sendRouterAdv => exact fun _ => rfl
    | listenRouterSolicit => exact rfl
  cases h with
  | setUp | setUpFails | enter | leave | send | unlock => exact hgoto trivial
  | exits | dies => exact hs
  | getLinkLocalAddress => exact hgoto (hlink _)
  | receive _ _ _ _ srcAddr clientAddr hpc =>
    rw [hpc] at hs
    have hth : th = .listenRouterSolicit := hs
    exact hgoto (show SendsTo th clientAddr from fun hra => by rw [hth] at hra; cases hra)
  | getHardwareAddressByName ioctl srcAddr dstAddr call hpc =>
    rw [hpc] at hs
    exact hgoto (show SendsTo th dstAddr from hs)
  | lock a hpc =>
    rw [hpc] at hs
    exact hgoto ⟨hs, Fields.Partly.start mem_allPrefixFields _ _⟩
  | read f a q todo hpc =>
    rw [hpc] at hs
    exact hgoto ⟨hs.1, hs.2.copy f⟩

/-- What is sent is made of all of `_prefix`. -/
theorem adv_send {dstAddr : In6Addr} {pkt : List UInt8} (h : AdvStep th s (.send dstAddr pkt) t)
    (hs : (s.adv th).Holds th s.sharedPrefix) :
    (s.adv th).Inside ∧ SendsTo th dstAddr ∧
      ∃ b m srcAddr, advertisePrefix b m srcAddr dstAddr s.sharedPrefix = some pkt := by
  cases h with
  | send b m a q _ hpc _ hpkt =>
    rw [hpc] at hs ⊢
    rw [hs.2.done] at hpkt
    exact ⟨trivial, hs.1, b, m, a.srcAddr, hpkt⟩

theorem adv_sent {e : AdvEvent} (h : AdvStep th s e t) :
    t.sent = s.sent ∨ ∃ dstAddr pkt, e = .send dstAddr pkt ∧ t.sent = s.sent ++ [pkt] := by
  cases h with
  | send b m a q pkt => exact .inr ⟨a.dstAddr, pkt, rfl, rfl⟩
  | setUp | setUpFails | exits | enter | leave | getLinkLocalAddress | receive
  | getHardwareAddressByName | dies | lock | read | unlock => exact .inl rfl

/-! ### The process -/

/-- Between the writes of the passes, `_prefix` is what the last pass has left. -/
theorem coherent_quiet (h : s.Coherent p) (hquiet : ¬ s.dhcp.Writing) : s.sharedPrefix = p := by
  have hshared := h.shared
  cases hpc : s.dhcp with
  | absent | setUp | loopTop | locking | calling | unlocking | ended =>
    rw [hpc] at hshared
    exact hshared
  | copying | convertPreferred | convertValid | setLength =>
    rw [hpc] at hquiet
    exact absurd trivial hquiet

theorem inside_of_writing {pc : DhcpAt} (h : pc.Writing) : pc.Inside := by
  cases pc with
  | absent | setUp | loopTop | locking | calling | unlocking | ended => exact absurd h id
  | copying | convertPreferred | convertValid | setLength => trivial

theorem dhcp_outside (h : s.Coherent p) (hinside : (s.adv th).Inside) : ¬ s.dhcp.Inside := by
  have hadv : s.Inside (.adv th) := hinside
  exact h.guarded.outside (j := .requestDhcpPrefix) hadv nofun

theorem coherent_init (p : DhOptIAPrefix) : (Process.init p).Coherent p :=
  ⟨created_init p, guarded_init p, rfl, fun _ => trivial⟩

theorem coherent_step {e : ProcessEvent} (hs : s.Coherent p) (h : Process.Step useDhcp s e t) :
    t.Coherent (afterPasses p (passes [e])) := by
  refine ⟨created_step hs.created h, guarded_step hs.created hs.guarded h, ?_, ?_⟩
  · have hshared := hs.shared
    cases h with
    | signal => exact hshared
    | dhcp _ h => exact dhcp_holds h hshared
    | adv th _ h =>
      rw [(adv_frame h).dhcp, (adv_frame h).sharedPrefix]
      exact hshared
    | main _ h =>
      cases h with
      | init | register | seePrefix | createRa | createRs | returns => exact hshared
      | createDhcp hpc =>
        show s.sharedPrefix = p
        refine coherent_quiet hs ?_
        rw [dhcp_absent hs.created hpc id]
        exact id
  · intro j
    have hcopies := hs.copies j
    cases h with
    | signal => exact hcopies
    | dhcp _ h =>
      rw [(dhcp_frame h).adv]
      rcases dhcp_writes h with hsame | hinside
      · rwa [hsame]
      · exact holds_of_outside _ (fun hj => dhcp_outside hs hj hinside) hcopies
    | adv th _ h =>
      rw [(adv_frame h).sharedPrefix]
      by_cases hj : j = th
      · subst hj
        exact adv_holds h hcopies
      · rwa [(adv_frame h).others j hj]
    | main _ h =>
      have hgoto (th : AdvThread) : ((s.goto th .setUp).adv j).Holds j s.sharedPrefix := by
        by_cases hj : j = th
        · subst hj
          rw [adv_goto_self]
          trivial
        · rwa [adv_goto_of_ne s _ hj]
      cases h with
      | init | register | createDhcp | seePrefix | returns => exact hcopies
      | createRa => exact hgoto .sendRouterAdv
      | createRs => exact hgoto .listenRouterSolicit

theorem coherent_run {es : List ProcessEvent}
    (h : Run (Process.Step useDhcp) (Process.init p) es s) :
    s.Coherent (afterPasses p (passes es)) := by
  refine h.trace_invariant (I := fun es s => s.Coherent (afterPasses p (passes es)))
    (fun es s e t hI hstep => ?_) (coherent_init p)
  rw [afterPasses_append]
  exact coherent_step hI hstep

/-! ### The start-up gate -/

/-- A pass that writes goes on to, until it is completed. -/
theorem dhcp_writing {e : DhcpEvent} (h : DhcpStep s e t) (hs : s.dhcp.Writing) :
    t.dhcp.Writing ∨ passes [.dhcp e] ≠ [] := by
  cases h with
  | setUp hpc | socketFails hpc | setUpFails hpc | enter hpc | leave hpc | lock hpc | unlock hpc
  | call _ _ _ _ _ _ hpc =>
    rw [hpc] at hs
    exact absurd hs id
  | copy | copied | convertPreferred | convertValid => exact .inl trivial
  | setLength => exact .inr (List.cons_ne_nil _ _)

theorem main_writing {e : MainEvent} (hcreated : s.Created) (h : MainStep useDhcp s e t) :
    t.dhcp.Writing ↔ s.dhcp.Writing := by
  cases h with
  | createDhcp hpc =>
    rw [dhcp_absent hcreated hpc id]
    exact Iff.rfl
  | init | register | seePrefix | createRa | createRs | returns => exact Iff.rfl

/-- `main` has seen a prefix length that is not zero. -/
def SawPrefix : MainAt → Prop
  | .createRa | .createRs | .watch | .returned => True
  | _ => False

theorem sawPrefix_of_created {pc : MainAt} (h : pc.Created th) : SawPrefix pc := by
  cases pc with
  | init | register | createDhcp | waitPrefix | createRa =>
    cases th <;> exact absurd h id
  | createRs | watch | returned => trivial

/-- In DHCP mode, `main` comes to have seen one in its loop only. -/
theorem main_sawPrefix {e : MainEvent} (h : MainStep true s e t) (ht : SawPrefix t.main) :
    SawPrefix s.main ∨ s.sharedPrefix.prefixLength ≠ 0 := by
  cases h with
  | init | register | createDhcp => exact absurd ht id
  | seePrefix _ hne => exact .inr hne
  | createRa hpc | createRs hpc | returns hpc =>
    rw [hpc]
    exact .inl trivial

/-- A prefix length that is not zero is one that a pass has left or is about to. -/
theorem sawPrefix_step {e : ProcessEvent} {rs : List (Option DhOptIAPrefix)}
    (hs : s.Coherent (afterPasses blankPrefix rs))
    (hsaw : SawPrefix s.main → rs ≠ [] ∨ s.dhcp.Writing) (h : Process.Step true s e t)
    (ht : SawPrefix t.main) : rs ++ passes [e] ≠ [] ∨ t.dhcp.Writing := by
  cases h with
  | signal =>
    show rs ++ [] ≠ [] ∨ s.dhcp.Writing
    rw [List.append_nil]
    exact hsaw ht
  | main _ h =>
    show rs ++ [] ≠ [] ∨ _
    rw [List.append_nil, main_writing hs.created h]
    rcases main_sawPrefix h ht with hsaw' | hne
    · exact hsaw hsaw'
    · by_cases hwriting : s.dhcp.Writing
      · exact .inr hwriting
      · refine .inl fun hnil => hne ?_
        rw [coherent_quiet hs hwriting, hnil]
        rfl
  | dhcp _ h =>
    rw [(dhcp_frame h).main] at ht
    rcases hsaw ht with hne | hwriting
    · exact .inl (List.append_ne_nil_of_left_ne_nil hne _)
    · rcases dhcp_writing h hwriting with hwriting' | hne
      · exact .inr hwriting'
      · exact .inl (List.append_ne_nil_of_right_ne_nil _ hne)
  | adv th _ h =>
    rw [(adv_frame h).main] at ht
    show rs ++ [] ≠ [] ∨ _
    rw [List.append_nil, (adv_frame h).dhcp]
    exact hsaw ht

theorem sawPrefix_run {es : List ProcessEvent}
    (h : Run (Process.Step true) (Process.init blankPrefix) es s) (hsaw : SawPrefix s.main) :
    passes es ≠ [] ∨ s.dhcp.Writing := by
  have hall := h.trace_invariant (I := fun es s =>
      s.Coherent (afterPasses blankPrefix (passes es)) ∧
        (SawPrefix s.main → passes es ≠ [] ∨ s.dhcp.Writing))
    (fun es s e t hI hstep => ?_) ⟨coherent_init _, fun hno => absurd hno id⟩
  · exact hall.2 hsaw
  · refine ⟨?_, fun ht => ?_⟩
    · rw [afterPasses_append]
      exact coherent_step hI.1 hstep
    · rw [passes, List.filterMap_append]
      exact sawPrefix_step hI.1 hI.2 hstep ht

/-! ### What is sent -/

/-- Who sends is inside, so that no pass is under way. -/
theorem send_quiet {dstAddr : In6Addr} {pkt : List UInt8} (hs : s.Coherent p)
    (h : AdvStep th s (.send dstAddr pkt) t) : SendsTo th dstAddr ∧ ¬ s.dhcp.Writing ∧
      ∃ b m srcAddr, advertisePrefix b m srcAddr dstAddr p = some pkt := by
  obtain ⟨hinside, hdst, hpkt⟩ := adv_send h (hs.copies th)
  have hquiet := mt inside_of_writing (dhcp_outside hs hinside)
  rw [coherent_quiet hs hquiet] at hpkt
  exact ⟨hdst, hquiet, hpkt⟩

theorem sawPrefix_of_adv {e : AdvEvent} (hs : s.Coherent p) (h : AdvStep th s e t) :
    SawPrefix s.main :=
  sawPrefix_of_created (hs.created.adv th (adv_frame h).started)

theorem prefixLength_afterPasses (p : DhOptIAPrefix) {rs : List (Option DhOptIAPrefix)}
    (h : rs ≠ []) : (afterPasses p rs).prefixLength = 64 := by
  obtain ⟨rs, r, rfl⟩ := (List.eq_nil_or_concat rs).resolve_left h
  rw [afterPasses, List.concat_eq_append, List.foldl_append]
  rfl

end AtomicityLemmas

open AtomicityLemmas

/-- **Nothing of what is in between.** What is sent is made of the prefix that the passes
completed before have left. -/
theorem advert_eq {useDhcp : Bool} {p : DhOptIAPrefix} {es fs : List ProcessEvent} {s : Process}
    {th : AdvThread} {dstAddr : In6Addr} {pkt : List UInt8}
    (hrun : Run (Process.Step useDhcp) (Process.init p) (es ++ .adv th (.send dstAddr pkt) :: fs) s) :
    ∃ macAddr size, pkt = advBytes macAddr size (afterPasses p (passes es)).prefixAddr
      (afterPasses p (passes es)).prefixLength (afterPasses p (passes es)).validLifetime
      (afterPasses p (passes es)).preferredLifetime := by
  obtain ⟨u, v, hbefore, hstep, _⟩ := hrun.split_cons
  cases hstep with
  | adv _ _ hstep =>
    obtain ⟨_, _, b, m, srcAddr, hpkt⟩ := send_quiet (coherent_run hbefore) hstep
    rw [advertisePrefix_eq] at hpkt
    exact ⟨_, _, (Option.some.inj hpkt).symm⟩

/-- Behind a pass that has failed, that is what its conversions have made of `_prefix`. -/
theorem exFailedPass_advert : ∃ (s : Process) (pkt : List UInt8), s.sent = [pkt] ∧
    ∃ macAddr size, pkt = advBytes macAddr size In6Addr.zero 64 0 0 := by
  obtain ⟨s, hpass, hready, hnone⟩ := exFailedPass_run
  obtain ⟨pkt, t, hsends, hsent⟩ := exSends_run hready
  have hrun := hpass.append hsends
  rw [← List.append_assoc] at hrun
  obtain ⟨macAddr, size, hpkt⟩ := advert_eq hrun
  have hpasses : passes (exFailedPass ++ (exLocks ++ exReads .sendRouterAdv)) = [none] := rfl
  rw [hnone] at hsent
  rw [hpasses] at hpkt
  exact ⟨t, pkt, hsent, macAddr, size, hpkt⟩

/-- **The gate.** In DHCP mode nothing is sent before a pass has been completed, although
`main` may see the prefix length that a pass has only begun to copy. What is sent has the
length 64. -/
theorem advert_after_pass {es fs : List ProcessEvent} {s : Process} {th : AdvThread}
    {dstAddr : In6Addr} {pkt : List UInt8}
    (hrun : Run (Process.Step true) (Process.init blankPrefix)
      (es ++ .adv th (.send dstAddr pkt) :: fs) s) :
    passes es ≠ [] ∧ ∃ info, prefixInfos pkt = [info] ∧ info.range.length = 64 := by
  obtain ⟨u, v, hbefore, hstep, _⟩ := hrun.split_cons
  have hcoherent : u.Coherent (afterPasses blankPrefix (passes es)) := coherent_run hbefore
  cases hstep with
  | adv _ _ hstep =>
    obtain ⟨_, hquiet, b, m, srcAddr, hpkt⟩ := send_quiet hcoherent hstep
    have hne := (sawPrefix_run hbefore (sawPrefix_of_adv hcoherent hstep)).resolve_right hquiet
    rw [advertisePrefix_eq] at hpkt
    obtain rfl := Option.some.inj hpkt
    refine ⟨hne, _, prefixInfos_advBytes _ _ _ _ _ _, ?_⟩
    rw [prefixLength_afterPasses blankPrefix hne]
    rfl

/-- A pass that has failed is enough. -/
theorem exFailedPass_sent : ∃ (s : Process) (pkt : List UInt8), s.sent = [pkt] ∧
    ∃ info, prefixInfos pkt = [info] ∧ info.range.length = 64 := by
  obtain ⟨s, hpass, hready, hnone⟩ := exFailedPass_run
  obtain ⟨pkt, t, hsends, hsent⟩ := exSends_run hready
  have hrun := hpass.append hsends
  rw [← List.append_assoc] at hrun
  rw [hnone] at hsent
  exact ⟨t, pkt, hsent, (advert_after_pass hrun).2⟩

/-! ## Refinement -/

/-- The steps of the process that are seen from outside, as those of the daemon. -/
def ProcessEvent.observed : ProcessEvent → Option DaemonEvent
  | .dhcp (.setLength reply) => some (.dhcp reply)
  | .adv .sendRouterAdv (.send _ _) => some .broadcast
  | .adv .listenRouterSolicit (.send dstAddr _) => some (.reply dstAddr)
  | _ => none

/-- The creation of the threads is not seen. -/
def DaemonEvent.observed : DaemonEvent → Option DaemonEvent
  | .start => none
  | e => some e

/-- The daemon has done the sections that are completed. It has started the advertising
threads when `main` is about to, except that it waits for a pass that is under way. -/
structure Refines (s : Process) (d : Daemon) : Prop where
  coherent : s.Coherent d.sharedPrefix
  sent : d.sent.map Advert.pkt = s.sent
  started : SawPrefix s.main → ¬ s.dhcp.Writing → d.started = true

namespace AtomicityLemmas

variable {s t : Process} {th : AdvThread} {d : Daemon}

theorem refines_init : Refines (Process.init blankPrefix) Daemon.init :=
  ⟨coherent_init blankPrefix, rfl, fun hsaw => absurd hsaw id⟩

theorem afterPass_daemon (d : Daemon) (reply : Option DhOptIAPrefix) :
    (d.afterPass reply).sharedPrefix = afterPass d.sharedPrefix reply ∧
      (d.afterPass reply).sent = d.sent := by
  cases reply with
  | none => exact ⟨rfl, rfl⟩
  | some reply => exact ⟨rfl, rfl⟩

theorem dhcp_observed {e : DhcpEvent} (h : DhcpStep s e t) :
    (∃ reply, e = .setLength reply ∧ ¬ t.dhcp.Writing) ∨
      (passes [.dhcp e] = [] ∧ [ProcessEvent.dhcp e].filterMap ProcessEvent.observed = []) := by
  cases h with
  | setLength reply => exact .inl ⟨reply, rfl, id⟩
  | setUp | socketFails | setUpFails | enter | leave | lock | call | copy | copied
  | convertPreferred | convertValid | unlock => exact .inr ⟨rfl, rfl⟩

theorem adv_observed {e : AdvEvent} (h : AdvStep th s e t) :
    (∃ dstAddr pkt, e = .send dstAddr pkt ∧ t.sent = s.sent ++ [pkt]) ∨
      (t.sent = s.sent ∧ [ProcessEvent.adv th e].filterMap ProcessEvent.observed = []) := by
  cases h with
  | send b m a q pkt => exact .inl ⟨a.dstAddr, pkt, rfl, rfl⟩
  | setUp | setUpFails | exits | enter | leave | getLinkLocalAddress | receive
  | getHardwareAddressByName | dies | lock | read | unlock =>
    refine .inr ⟨rfl, ?_⟩
    cases th <;> rfl

/-- A pass is a step of the daemon. Behind it, `main` may see the length 64. -/
theorem refines_pass {reply : Option DhOptIAPrefix} (hs : Refines s d)
    (ht : t.Coherent (afterPass d.sharedPrefix reply)) (hsent : t.sent = s.sent) :
    ∃ fs d', Run Daemon.Step d fs d' ∧ Refines t d' ∧
      fs.filterMap DaemonEvent.observed = [.dhcp reply] := by
  obtain ⟨hheld, hkept⟩ := afterPass_daemon d reply
  have hlength : (d.afterPass reply).sharedPrefix.prefixLength ≠ 0 := by
    rw [hheld]
    exact (show (64 : UInt8) ≠ 0 by decide)
  refine ⟨[.dhcp reply, .start], { d.afterPass reply with started := true },
    .cons (.dhcp reply) (.single (.start hlength)), ⟨?_, ?_, fun _ _ => rfl⟩, rfl⟩
  · rw [hheld]
    exact ht
  · rw [hkept, hsent]
    exact hs.sent

/-- An advertisement is another. -/
theorem refines_send {dstAddr : In6Addr} {pkt : List UInt8} (hs : Refines s d)
    (h : AdvStep th s (.send dstAddr pkt) t) (ht : t.Coherent d.sharedPrefix)
    (hsent : t.sent = s.sent ++ [pkt]) :
    ∃ fs d', Run Daemon.Step d fs d' ∧ Refines t d' ∧ fs.filterMap DaemonEvent.observed =
      [ProcessEvent.adv th (.send dstAddr pkt)].filterMap ProcessEvent.observed := by
  obtain ⟨hdst, hquiet, b, m, srcAddr, hpkt⟩ := send_quiet hs.coherent h
  have hstarted := hs.started (sawPrefix_of_adv hs.coherent h) hquiet
  have hrefines : Refines t { d with sent := d.sent ++ [⟨pkt, d.lastReply⟩] } := by
    refine ⟨ht, ?_, fun _ _ => hstarted⟩
    rw [List.map_append, hs.sent, hsent]
    rfl
  cases th with
  | sendRouterAdv =>
    rw [hdst rfl] at hpkt
    exact ⟨[.broadcast], _, .single (.broadcast b m srcAddr pkt hstarted hpkt), hrefines, rfl⟩
  | listenRouterSolicit =>
    exact ⟨[.reply dstAddr], _, .single (.reply b m srcAddr dstAddr pkt hstarted hpkt), hrefines,
      rfl⟩

/-- When `main` sees a length, the threads are started, unless a pass is under way. -/
theorem refines_seePrefix (hs : Refines s d) (hne : s.sharedPrefix.prefixLength ≠ 0)
    (ht : t.Coherent d.sharedPrefix) (hsent : t.sent = s.sent) (hdhcp : t.dhcp = s.dhcp) :
    ∃ fs d', Run Daemon.Step d fs d' ∧ Refines t d' ∧
      fs.filterMap DaemonEvent.observed = [] := by
  by_cases hwriting : s.dhcp.Writing
  · refine ⟨[], d, .nil, ⟨ht, hsent ▸ hs.sent, fun _ hquiet => ?_⟩, rfl⟩
    rw [hdhcp] at hquiet
    exact absurd hwriting hquiet
  · rw [coherent_quiet hs.coherent hwriting] at hne
    exact ⟨[.start], _, .single (.start hne), ⟨ht, hsent ▸ hs.sent, fun _ _ => rfl⟩, rfl⟩

theorem refines_step {e : ProcessEvent} (hs : Refines s d) (h : Process.Step true s e t) :
    ∃ fs d', Run Daemon.Step d fs d' ∧ Refines t d' ∧
      fs.filterMap DaemonEvent.observed = [e].filterMap ProcessEvent.observed := by
  have ht := coherent_step hs.coherent h
  cases h with
  | signal => exact ⟨[], d, .nil, ⟨ht, hs.sent, hs.started⟩, rfl⟩
  | dhcp _ h =>
    have hsent := (dhcp_frame h).sent
    rcases dhcp_observed h with ⟨reply, rfl, _⟩ | ⟨hnone, hobs⟩
    · exact refines_pass hs ht hsent
    · rw [hnone] at ht
      refine ⟨[], d, .nil, ⟨ht, hsent ▸ hs.sent, fun hsaw hquiet => ?_⟩, hobs.symm⟩
      rw [(dhcp_frame h).main] at hsaw
      refine hs.started hsaw fun hwriting => ?_
      exact (dhcp_writing h hwriting).elim hquiet fun hne => hne hnone
  | adv th _ h =>
    rcases adv_observed h with ⟨dstAddr, pkt, rfl, hsent⟩ | ⟨hsent, hobs⟩
    · exact refines_send hs h ht hsent
    · refine ⟨[], d, .nil, ⟨ht, hsent ▸ hs.sent, fun hsaw hquiet => ?_⟩, hobs.symm⟩
      rw [(adv_frame h).main] at hsaw
      rw [(adv_frame h).dhcp] at hquiet
      exact hs.started hsaw hquiet
  | main _ h =>
    have hmain (hsent : t.sent = s.sent) (hdhcp : t.dhcp = s.dhcp)
        (hsaw : SawPrefix t.main → SawPrefix s.main) : Refines t d :=
      ⟨ht, hsent ▸ hs.sent, fun h hquiet => hs.started (hsaw h) (hdhcp ▸ hquiet)⟩
    cases h with
    | seePrefix _ hne => exact refines_seePrefix hs hne ht rfl rfl
    | createDhcp => exact ⟨[], d, .nil, ⟨ht, hs.sent, fun hsaw => absurd hsaw id⟩, rfl⟩
    | init | register => exact ⟨[], d, .nil, hmain rfl rfl fun hsaw => absurd hsaw id, rfl⟩
    | createRa hpc | createRs hpc | returns hpc =>
      exact ⟨[], d, .nil, hmain rfl rfl fun _ => hpc ▸ trivial, rfl⟩

end AtomicityLemmas

/-- **Refinement.** What a run in DHCP mode does is what the daemon does in one of its
own, section by section: the same passes and advertisements in the same order, with the
same packets, and the same `_prefix` whenever the DHCP thread does not hold the mutex. -/
theorem process_refines_daemon {es : List ProcessEvent} {s : Process}
    (hrun : Run (Process.Step true) (Process.init blankPrefix) es s) :
    ∃ fs d, Run Daemon.Step Daemon.init fs d ∧
      fs.filterMap DaemonEvent.observed = es.filterMap ProcessEvent.observed ∧
      d.sent.map Advert.pkt = s.sent ∧
      (s.mutex ≠ some .requestDhcpPrefix → d.sharedPrefix = s.sharedPrefix) := by
  obtain ⟨fs, d, hdaemon, hrefines, hobs⟩ := hrun.simulation (R := Refines)
    (fun _ _ _ _ => refines_step) refines_init
  refine ⟨fs, d, hdaemon, hobs, hrefines.sent, fun howner => ?_⟩
  have houtside : ¬ s.dhcp.Inside := fun hinside =>
    howner ((hrefines.coherent.guarded .requestDhcpPrefix).mp hinside)
  exact (coherent_quiet hrefines.coherent (mt inside_of_writing houtside)).symm

/-- The daemon sends the advertisement, too. -/
theorem exFailedPass_refined : ∃ fs d, Run Daemon.Step Daemon.init fs d ∧ d.sent.length = 1 ∧
    fs.filterMap DaemonEvent.observed = [.dhcp none, .broadcast] := by
  obtain ⟨s, hpass, hready, hnone⟩ := exFailedPass_run
  obtain ⟨pkt, t, hsends, hsent⟩ := exSends_run hready
  obtain ⟨fs, d, hdaemon, hobs, hpackets, _⟩ := process_refines_daemon (hpass.append hsends)
  refine ⟨fs, d, hdaemon, ?_, hobs⟩
  rw [← List.length_map Advert.pkt, hpackets, hsent, hnone]
  rfl

/-! ## Static mode -/

namespace AtomicityLemmas

variable {s t : Process} {p : DhOptIAPrefix}

/-- There is no DHCP thread. -/
theorem static_step {e : ProcessEvent} (hs : s.dhcp = .absent ∧ s.main ≠ .createDhcp)
    (h : Process.Step false s e t) : t.dhcp = .absent ∧ t.main ≠ .createDhcp := by
  obtain ⟨hdhcp, hmain⟩ := hs
  cases h with
  | signal => exact ⟨hdhcp, hmain⟩
  | dhcp _ h => exact absurd hdhcp (dhcp_frame h).started
  | adv _ _ h =>
    rw [(adv_frame h).dhcp, (adv_frame h).main]
    exact ⟨hdhcp, hmain⟩
  | main _ h =>
    cases h with
    | createDhcp hpc => exact absurd hpc hmain
    | init | register | seePrefix | createRa | createRs | returns => exact ⟨hdhcp, nofun⟩

/-- `_prefix` stays as it is, and so does all that is sent of it. -/
theorem static_sent_step {e : ProcessEvent} (hdhcp : s.dhcp = .absent)
    (hs : s.Coherent p) (hsent : ∀ pkt ∈ s.sent, ∃ macAddr size, pkt =
      advBytes macAddr size p.prefixAddr p.prefixLength p.validLifetime p.preferredLifetime)
    (h : Process.Step false s e t) : t.Coherent p ∧ ∀ pkt ∈ t.sent, ∃ macAddr size, pkt =
      advBytes macAddr size p.prefixAddr p.prefixLength p.validLifetime p.preferredLifetime := by
  have ht := coherent_step hs h
  cases h with
  | signal => exact ⟨ht, hsent⟩
  | dhcp _ h => exact absurd hdhcp (dhcp_frame h).started
  | main _ h =>
    have hsame : t.sent = s.sent := by
      cases h <;> rfl
    rw [hsame]
    exact ⟨ht, hsent⟩
  | adv th _ h =>
    refine ⟨ht, ?_⟩
    rcases adv_observed h with ⟨dstAddr, pkt, rfl, hpkt⟩ | ⟨hsame, _⟩
    · obtain ⟨_, _, b, m, srcAddr, hadv⟩ := send_quiet hs h
      rw [advertisePrefix_eq] at hadv
      rw [hpkt]
      exact List.forall_mem_append.mpr ⟨hsent, List.forall_mem_singleton.mpr
        ⟨_, _, (Option.some.inj hadv).symm⟩⟩
    · rw [hsame]
      exact hsent

theorem static_run {es : List ProcessEvent}
    (h : Run (Process.Step false) (Process.init p) es s) : ∀ pkt ∈ s.sent, ∃ macAddr size, pkt =
      advBytes macAddr size p.prefixAddr p.prefixLength p.validLifetime p.preferredLifetime := by
  have hall := h.invariant (I := fun s => (s.dhcp = .absent ∧ s.main ≠ .createDhcp) ∧ s.Coherent p ∧
      ∀ pkt ∈ s.sent, ∃ macAddr size, pkt =
        advBytes macAddr size p.prefixAddr p.prefixLength p.validLifetime p.preferredLifetime)
    (fun _ _ _ hI hstep => ⟨static_step hI.1 hstep,
      static_sent_step hI.1.1 hI.2.1 hI.2.2 hstep⟩)
    ⟨⟨rfl, show MainAt.init ≠ .createDhcp by decide⟩, coherent_init p, fun _ hmem => absurd hmem List.not_mem_nil⟩
  exact hall.2.2

end AtomicityLemmas

/-- **From the command line to what is sent.** With documented arguments, static mode
advertises the prefix they say with its length, 48000 and 24000, and a route to its
first 56 bits, in every run. -/
theorem static_adverts {inetPton : CString → Option In6Addr} {argv : List CString} {addr : In6Addr}
    {length : Nat} (hargs : StaticArguments inetPton argv addr length) :
    ∃ lan p, mainArguments inetPton argv blankPrefix = some ⟨.wentOn false (some lan) none, p⟩ ∧
      ∀ es s, Run (Process.Step false) (Process.init p) es s → ∀ pkt ∈ s.sent,
        prefixInfos pkt = [⟨⟨addr, length⟩, 48000, 24000⟩] ∧
        routes pkt = [⟨In6Addr.ofBytes (addr.bytes.take 8), 56⟩] := by
  obtain ⟨length', hread, hlength⟩ := ArgumentsLemmas.readStaticPrefix_eq hargs
  have hfive := ArgumentsLemmas.five_le_of_static hargs
  match argv with
  | [] | [_] | [_, _] => exact absurd hfive (by simp)
  | name :: mode :: lan :: rest =>
    have hmode : mode.first = 's'.toUInt8 := Option.some.inj hargs.mode
    refine ⟨lan, staticPrefix addr length', ?_, fun es s hrun pkt hpkt => ?_⟩
    · rw [mainArguments_long, hmode, if_neg (by decide), if_pos rfl, hread, Option.map_some]
    · obtain ⟨macAddr, size, rfl⟩ := static_run hrun pkt hpkt
      rw [prefixInfos_advBytes, routes_advBytes, ← hlength]
      exact ⟨rfl, rfl⟩

theorem exLength_isDecimal : exLength.IsDecimal 64 where
  nonempty := by decide
  digits := List.forall_mem_cons.mpr ⟨by decide, List.forall_mem_singleton.mpr (by decide)⟩
  value := rfl

theorem exStatic_arguments : StaticArguments exInetPton
    [exName, exStatic, exLan, exAddress, exLength] (In6Addr.ofBytes [0x20, 0x01, 0x0d, 0xb8]) 64 :=
  ⟨rfl, ⟨exLan, rfl⟩, ⟨exAddress, rfl, rfl⟩, ⟨exLength, rfl, exLength_isDecimal⟩, by decide⟩

/-- `pdrad s br0 2001:db8:: 64`. -/
theorem exStatic_adverts : ∃ lan p, mainArguments exInetPton
    [exName, exStatic, exLan, exAddress, exLength] blankPrefix =
      some ⟨.wentOn false (some lan) none, p⟩ ∧
    ∀ es s, Run (Process.Step false) (Process.init p) es s → ∀ pkt ∈ s.sent,
      prefixInfos pkt = [⟨⟨In6Addr.ofBytes [0x20, 0x01, 0x0d, 0xb8], 64⟩, 48000, 24000⟩] ∧
      routes pkt = [⟨In6Addr.ofBytes ((In6Addr.ofBytes [0x20, 0x01, 0x0d, 0xb8]).bytes.take 8),
        56⟩] :=
  static_adverts exStatic_arguments

end Pdrad
