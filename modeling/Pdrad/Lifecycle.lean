import Pdrad.Atomicity

/-!
# From start to end of the process (`test.c`)

1. `process_refines_utils`: in every run of the process, the globals of `utils` go
   through a run of their own transition system, and no thread finds `NULL` in them.
2. `gate_hangs`: when the DHCP thread has ended without a pass, `main` waits forever,
   and nothing but further signals can happen.
3. `after_cancel`: behind a signal, each thread sends at most once, and at most one pass
   is completed.
4. `answers_in_order`: the addresses that `ReceiveSrcAddrFromRouterSolicit` returns are
   answered one by one, in this order.
-/

namespace Pdrad

open ProcessLemmas AtomicityLemmas

/-! ## The module `utils` -/

/-- How far `main` has come, seen from `utils`. -/
def MainAt.utils : MainAt → MainPc
  | .init => .start
  | .register => .inited
  | .createDhcp | .waitPrefix | .createRa => .registered
  | .createRs | .watch => .watching
  | .returned => .returned

/-- How far an advertising thread has come, seen from `utils`. It does not matter to
`utils` that the second thread is created behind the first one. -/
def AdvAt.utils (main : MainAt) : AdvAt → ThreadPc
  | .absent =>
    match main with
    | .createRs | .watch | .returned => .setUp
    | _ => .absent
  | .setUp => .setUp
  | .loopTop | .locking _ | .reading _ _ _ | .unlocking => .loopTop
  | .link => .link
  | .receiving _ | .hardware _ _ => .hardware
  | .ended => .ended

/-- The steps of the process that concern `utils`. -/
def ProcessEvent.utils : ProcessEvent → Option UtilsEvent
  | .main (.init env) => some (.init env)
  | .main .register => some .register
  | .main .createRa => some .create
  | .main .returns => some .mainReturns
  | .signal close => some (.signal close)
  | .adv th .setUp => some (.setUp th true)
  | .adv th .setUpFails => some (.setUp th false)
  | .adv th .enter => some (.enter th)
  | .adv th .leave => some (.leave th)
  | .adv th (.getLinkLocalAddress connect getsockname) =>
    some (.getLinkLocalAddress th connect getsockname)
  | .adv th (.getHardwareAddressByName ioctl) => some (.getHardwareAddressByName th ioctl)
  | _ => none

/-- The process as `utils` and its users see it. -/
structure UtilsView (s : Process) (w : UtilsWorld) : Prop where
  created : s.Created
  exited : s.main = .returned → s.exited = true
  utils : w.utils = s.utils
  main : w.main = s.main.utils
  pc : ∀ th, w.pc th = (s.adv th).utils s.main
  cancel : w.cancel = s.cancel

namespace LifecycleLemmas

variable {useDhcp : Bool} {s t : Process} {th : AdvThread} {w : UtilsWorld}

theorem view_init (p : DhOptIAPrefix) : UtilsView (Process.init p) UtilsWorld.init :=
  ⟨created_init p, nofun, rfl, rfl, fun _ => rfl, rfl⟩

/-- A thread that is there runs while `main` is watching. -/
theorem view_watching (hs : UtilsView s w) (hover : s.exited = false) (hth : s.main.Created th) :
    w.main = .watching := by
  rw [hs.main]
  have hnot : s.main ≠ .returned := fun hmain => by
    have hend := hs.exited hmain
    rw [hover] at hend
    cases hend
  cases hmain : s.main with
  | init | register | createDhcp | waitPrefix | createRa =>
    rw [hmain] at hth
    cases th <;> exact absurd hth id
  | createRs | watch => rfl
  | returned => exact absurd hmain hnot

/-- Both go to the same place. -/
theorem view_goto (hs : UtilsView s w) {pc : AdvAt} {pc' : ThreadPc} (hpc : pc.utils s.main = pc')
    (j : AdvThread) : (w.goto th pc').pc j = ((s.goto th pc).adv j).utils s.main := by
  show Function.update w.pc th pc' j = _
  by_cases hj : j = th
  · subst hj
    rw [Function.update_self, adv_goto_self, hpc]
  · rw [Function.update_of_ne hj, adv_goto_of_ne s pc hj, hs.pc j]

theorem view_stay (hs : UtilsView s w) {pc : AdvAt} (hpc : pc.utils s.main = (s.adv th).utils s.main)
    (j : AdvThread) : w.pc j = ((s.goto th pc).adv j).utils s.main := by
  by_cases hj : j = th
  · subst hj
    rw [adv_goto_self, hpc, hs.pc j]
  · rw [adv_goto_of_ne s pc hj, hs.pc j]

theorem utils_afterLink (srcAddr : In6Addr) (th : AdvThread) (main : MainAt) :
    (afterLink srcAddr th).utils main = .hardware := by
  cases th <;> rfl

/-- The steps of an advertising thread that do not concern `utils`. -/
theorem view_adv_none {e : AdvEvent} (hs : UtilsView s w) (hover : s.exited = false)
    (h : AdvStep th s e t) (hnone : (ProcessEvent.adv th e).utils = none) : UtilsView t w := by
  have hstep : Process.Step false s (.adv th e) t := .adv th hover h
  have hcreated := created_step hs.created hstep
  have hreturned (hmain : s.main = .returned) : t.exited = true := by
    have hend := hs.exited hmain
    rw [hover] at hend
    cases hend
  cases h with
  | setUp | setUpFails | enter | leave | getLinkLocalAddress | getHardwareAddressByName =>
    cases hnone
  | exits | dies => exact ⟨hcreated, fun _ => rfl, hs.utils, hs.main, hs.pc, hs.cancel⟩
  | receive _ _ _ _ _ _ hpc | lock _ hpc | read _ _ _ _ hpc | send _ _ _ _ _ hpc | unlock hpc =>
    exact ⟨hcreated, hreturned, hs.utils, hs.main, view_stay hs (by rw [hpc]; rfl), hs.cancel⟩

/-- Those that do are steps of its users. -/
theorem view_adv_some {e : AdvEvent} {f : UtilsEvent} (hs : UtilsView s w) (hover : s.exited = false)
    (h : AdvStep th s e t) (hsome : (ProcessEvent.adv th e).utils = some f) :
    ∃ w', UtilsWorld.Step w f w' ∧ UtilsView t w' := by
  have hstep : Process.Step false s (.adv th e) t := .adv th hover h
  have hcreated := created_step hs.created hstep
  have hreturned (hmain : s.main = .returned) : s.exited = true := hs.exited hmain
  have hw := view_watching hs hover (hs.created.adv th (adv_frame h).started)
  have hpcs := hs.pc th
  cases h with
  | exits | dies | receive | lock | read | send | unlock => cases hsome
  | setUp hpc =>
    cases hsome
    rw [hpc] at hpcs
    exact ⟨_, .setUp th hw hpcs, hcreated, hreturned, hs.utils, hs.main, view_goto hs rfl, hs.cancel⟩
  | setUpFails hpc =>
    cases hsome
    rw [hpc] at hpcs
    refine ⟨_, .setUpFails th hw hpcs, hcreated, hreturned, hs.utils, hs.main, view_goto hs rfl, ?_⟩
    cases th with
    | sendRouterAdv => exact congrArg (Function.update · .sendRouterAdv true) hs.cancel
    | listenRouterSolicit => exact hs.cancel
  | enter hpc hcancel =>
    cases hsome
    rw [hpc] at hpcs
    exact ⟨_, .enter th hw hpcs (hs.cancel ▸ hcancel), hcreated, hreturned, hs.utils, hs.main,
      view_goto hs rfl, hs.cancel⟩
  | leave hpc hcancel =>
    cases hsome
    rw [hpc] at hpcs
    exact ⟨_, .leave th hw hpcs (hs.cancel ▸ hcancel), hcreated, hreturned, hs.utils, hs.main,
      view_goto hs rfl, hs.cancel⟩
  | getLinkLocalAddress connect getsockname hpc =>
    cases hsome
    rw [hpc] at hpcs
    refine ⟨_, .getLinkLocalAddress th connect getsockname hw hpcs, hcreated, hreturned, ?_, hs.main,
      view_goto hs (utils_afterLink _ th s.main), hs.cancel⟩
    rw [hs.utils]
  | getHardwareAddressByName ioctl srcAddr dstAddr call hpc hcall =>
    cases hsome
    rw [hpc] at hpcs
    rw [← hs.utils] at hcall
    exact ⟨_, .getHardwareAddressByName th ioctl call hw hpcs hcall, hcreated, hreturned, rfl,
      hs.main, view_goto hs rfl, hs.cancel⟩

theorem utils_eq {main main' : MainAt} (h : AdvAt.absent.utils main = AdvAt.absent.utils main')
    (pc : AdvAt) : pc.utils main = pc.utils main' := by
  cases pc with
  | absent => exact h
  | setUp | loopTop | link | receiving | hardware | locking | reading | unlocking | ended => rfl

/-- What `main` does, as far as it concerns `utils`. -/
theorem view_main {e : MainEvent} (hs : UtilsView s w) (hover : s.exited = false)
    (h : MainStep useDhcp s e t) :
    match (ProcessEvent.main e).utils with
    | some f => ∃ w', UtilsWorld.Step w f w' ∧ UtilsView t w'
    | none => UtilsView t w := by
  have hcreated := created_step hs.created (.main hover h)
  have hmain := hs.main
  have hpcs {main : MainAt} (hsame : AdvAt.absent.utils s.main = AdvAt.absent.utils main)
      (th : AdvThread) : w.pc th = (s.adv th).utils main :=
    (hs.pc th).trans (utils_eq hsame _)
  cases h with
  | init env hpc =>
    rw [hpc] at hmain hpcs
    refine ⟨_, .init env hmain, hcreated, nofun, ?_, rfl, hpcs rfl, hs.cancel⟩
    rw [hs.utils]
  | register hpc =>
    rw [hpc] at hmain hpcs
    refine ⟨_, .register hmain, hcreated, ?_, hs.utils, ?_, hpcs ?_, hs.cancel⟩
    all_goals cases useDhcp
    all_goals first | rfl | exact nofun
  | createDhcp hpc | seePrefix hpc =>
    rw [hpc] at hmain hpcs
    exact ⟨hcreated, nofun, hs.utils, hmain, hpcs rfl, hs.cancel⟩
  | createRa hpc =>
    rw [hpc] at hmain hpcs
    refine ⟨_, .create hmain, hcreated, nofun, hs.utils, rfl, fun j => ?_, hs.cancel⟩
    show ThreadPc.setUp = ((s.goto .sendRouterAdv .setUp).adv j).utils .createRs
    cases j with
    | sendRouterAdv => rw [adv_goto_self]; rfl
    | listenRouterSolicit =>
      rw [adv_goto_of_ne s _ (by decide), adv_absent hs.created hpc id]
      rfl
  | createRs hpc =>
    rw [hpc] at hmain hpcs
    refine ⟨hcreated, nofun, hs.utils, hmain, fun j => ?_, hs.cancel⟩
    show w.pc j = ((s.goto .listenRouterSolicit .setUp).adv j).utils .watch
    cases j with
    | sendRouterAdv =>
      rw [adv_goto_of_ne s _ (by decide)]
      exact hpcs rfl _
    | listenRouterSolicit =>
      rw [adv_goto_self, hpcs rfl, adv_absent hs.created hpc id]
      rfl
  | returns hpc hcancel =>
    rw [hpc] at hmain hpcs
    exact ⟨_, .mainReturns hmain (hs.cancel ▸ hcancel), hcreated, fun _ => rfl, hs.utils, rfl,
      hpcs rfl, hs.cancel⟩

theorem view_handled (hs : UtilsView s w) (h : s.main.Handled) :
    w.main = .registered ∨ w.main = .watching := by
  rw [hs.main]
  cases hpc : s.main with
  | init | register | returned =>
    rw [hpc] at h
    exact absurd h id
  | createDhcp | waitPrefix | createRa => exact .inl rfl
  | createRs | watch => exact .inr rfl

theorem view_some {e : ProcessEvent} {f : UtilsEvent} (hs : UtilsView s w)
    (h : Process.Step useDhcp s e t) (hsome : e.utils = some f) :
    ∃ w', UtilsWorld.Step w f w' ∧ UtilsView t w' := by
  have hcreated := created_step hs.created h
  cases h with
  | main hover h =>
    have hmain := view_main hs hover h
    rw [hsome] at hmain
    exact hmain
  | signal close _ hhandled =>
    cases hsome
    refine ⟨_, .signal close (view_handled hs hhandled), hcreated, hs.exited, ?_, hs.main, hs.pc, rfl⟩
    rw [hs.utils]
  | dhcp _ h => cases h <;> cases hsome
  | adv th hover h => exact view_adv_some hs hover h hsome

theorem view_none {e : ProcessEvent} (hs : UtilsView s w) (h : Process.Step useDhcp s e t)
    (hnone : e.utils = none) : UtilsView t w := by
  have hcreated := created_step hs.created h
  cases h with
  | main hover h =>
    have hmain := view_main hs hover h
    rw [hnone] at hmain
    exact hmain
  | signal => cases hnone
  | dhcp hover h =>
    have hframe := dhcp_frame h
    refine ⟨hcreated, fun hreturned => ?_, ?_, ?_, ?_, ?_⟩
    · rw [hframe.main] at hreturned
      rw [hs.exited hreturned] at hover
      cases hover
    · rw [hframe.utils, hs.utils]
    · rw [hframe.main, hs.main]
    · rw [hframe.adv, hframe.main]
      exact hs.pc
    · rw [hframe.cancel, hs.cancel]
  | adv th hover h => exact view_adv_none hs hover h hnone

/-! ### `utils_request` is not `NULL` -/

/-- `utils_Init` is the first call, and sets `utils_request` even when it fails. -/
structure Requested (w : UtilsWorld) : Prop where
  fresh : w.main = .start → w.utils = Utils.init
  request : w.main ≠ .start → w.utils.request ≠ none

theorem init_request (env : InitEnv) : (utilsInit env Utils.init).utils.request ≠ none := by
  by_cases hworks : env.socket.isSome ∧ env.setsockopt = .ok ()
  · obtain ⟨fd, hfd⟩ := Option.isSome_iff_exists.mp hworks.1
    rw [(init_ready hfd hworks.2).1.request]
    exact Option.some_ne_none _
  · rw [(init_dangling hworks).1]
    exact Option.some_ne_none _

theorem onRequest_request (u : Utils) (op : Nat → HandleOp Nat) :
    (u.onRequest op).request = u.request := by
  unfold Utils.onRequest
  split
  · rfl
  · rfl

theorem getLinkLocalAddress_request (connect : Except Errno Unit)
    (getsockname : Except Errno In6Addr) (u : Utils) :
    (utilsGetLinkLocalAddress connect getsockname u).utils.request = u.request := by
  unfold utilsGetLinkLocalAddress
  dsimp only
  split
  · simp only [UtilsLemmas.onHandler_request]
  · split
    · simp only [UtilsLemmas.onHandler_request]
    · simp only [UtilsLemmas.onHandler_request]

theorem getHardwareAddressByName_request {ioctl : Except Errno (List UInt8)} {u : Utils}
    {call : UtilsCall (List UInt8)} (h : utilsGetHardwareAddressByName ioctl u = some call) :
    call.utils.request = u.request := by
  unfold utilsGetHardwareAddressByName at h
  split at h
  · cases h
  · dsimp only at h
    split at h
    · obtain rfl := Option.some.inj h
      simp only [UtilsLemmas.onHandler_request, onRequest_request]
    · obtain rfl := Option.some.inj h
      simp only [UtilsLemmas.onHandler_request, onRequest_request]

theorem dispose_request (close : Except Errno Unit) (u : Utils) :
    (utilsDispose close u).utils.request = u.request := by
  unfold utilsDispose
  dsimp only
  split
  · exact UtilsLemmas.onHandler_request u _
  · exact UtilsLemmas.onHandler_request u _

theorem requested_step {w w' : UtilsWorld} {e : UtilsEvent} (hw : Requested w)
    (h : UtilsWorld.Step w e w') : Requested w' := by
  have hstarted {pc : MainPc} (hmain : w.main = pc) (hpc : pc ≠ .start) :
      w.utils.request ≠ none :=
    hw.request (hmain ▸ hpc)
  cases h with
  | init env hmain =>
    refine ⟨nofun, fun _ => ?_⟩
    rw [hw.fresh hmain]
    exact init_request env
  | register hmain | create hmain | mainReturns hmain =>
    exact ⟨nofun, fun _ => hstarted hmain nofun⟩
  | signal close hmain =>
    have hne : w.main ≠ .start := by
      rcases hmain with hmain | hmain <;> rw [hmain] <;> exact nofun
    refine ⟨fun hstart => absurd hstart hne, fun _ => ?_⟩
    rw [dispose_request]
    exact hw.request hne
  | setUp _ hmain | setUpFails _ hmain | enter _ hmain | leave _ hmain =>
    exact ⟨fun hstart => absurd (hmain.symm.trans hstart) nofun, fun _ => hstarted hmain nofun⟩
  | getLinkLocalAddress th connect getsockname hmain =>
    refine ⟨fun hstart => absurd (hmain.symm.trans hstart) nofun, fun _ => ?_⟩
    rw [getLinkLocalAddress_request]
    exact hstarted hmain nofun
  | getHardwareAddressByName th ioctl call hmain _ hcall =>
    refine ⟨fun hstart => absurd (hmain.symm.trans hstart) nofun, fun _ => ?_⟩
    rw [getHardwareAddressByName_request hcall]
    exact hstarted hmain nofun

theorem view_run {es : List ProcessEvent} {p : DhOptIAPrefix}
    (h : Run (Process.Step useDhcp) (Process.init p) es s) :
    ∃ w, Run UtilsWorld.Step UtilsWorld.init (es.filterMap ProcessEvent.utils) w ∧
      UtilsView s w ∧ Requested w := by
  refine h.simulation_of_events (R := fun s w => UtilsView s w ∧ Requested w) ?_ ?_
    ⟨view_init p, fun _ => rfl, fun hne => absurd rfl hne⟩
  · intro s e t w f hR hstep hsome
    obtain ⟨w', hmatch, hview⟩ := view_some hR.1 hstep hsome
    exact ⟨w', hmatch, hview, requested_step hR.2 hmatch⟩
  · exact fun s e t w hR hstep hnone => ⟨view_none hR.1 hstep hnone, hR.2⟩

end LifecycleLemmas

open LifecycleLemmas

/-- **Refinement.** The process, with all its threads, uses `utils` as the users of
`utils` do, in the same order and with the same globals. In no run does a thread find
`NULL` in `utils_request`, not even behind a `utils_Init` that has failed. -/
theorem process_refines_utils {useDhcp : Bool} {p : DhOptIAPrefix} {es : List ProcessEvent}
    {s : Process} (hrun : Run (Process.Step useDhcp) (Process.init p) es s) :
    (∃ w, Run UtilsWorld.Step UtilsWorld.init (es.filterMap ProcessEvent.utils) w ∧
      w.utils = s.utils ∧ w.cancel = s.cancel) ∧
    ∀ th ioctl, .adv th (.dies ioctl) ∉ es := by
  constructor
  · obtain ⟨w, hutils, hview, _⟩ := view_run hrun
    exact ⟨w, hutils, hview.utils, hview.cancel⟩
  · intro th ioctl hmem
    obtain ⟨fs, gs, rfl⟩ := List.append_of_mem hmem
    obtain ⟨u, v, hbefore, hstep, _⟩ := hrun.split_cons
    obtain ⟨w, _, hview, hrequested⟩ := view_run hbefore
    cases hstep with
    | adv _ hover hstep =>
      have hw := view_watching hview hover (hview.created.adv th (adv_frame hstep).started)
      have hne := hrequested.request (hw ▸ nofun)
      cases hstep with
      | dies _ _ _ _ hnull =>
        rw [← hview.utils] at hnull
        unfold utilsGetHardwareAddressByName at hnull
        split at hnull
        · next hnone => exact hne (Option.isNone_iff_eq_none.mp hnone)
        · dsimp only at hnull
          split at hnull <;> cases hnull

/-- What `utils` sees of a thread that comes to lock the mutex. -/
theorem exLocks_utils : ∃ w, Run UtilsWorld.Step UtilsWorld.init
    [.init exInit, .register, .create, .setUp .sendRouterAdv true, .enter .sendRouterAdv,
      .getLinkLocalAddress .sendRouterAdv (.ok ()) (.ok In6Addr.zero),
      .getHardwareAddressByName .sendRouterAdv (.ok [2, 0, 0, 0, 0, 1])] w := by
  obtain ⟨s, hstatic, hready, _⟩ := exStatic_run blankPrefix
  obtain ⟨t, hlocks, _⟩ := exLocks_run hready
  obtain ⟨⟨w, hutils, _⟩, _⟩ := process_refines_utils (hstatic.append hlocks)
  exact ⟨w, hutils⟩

/-! ## The start-up gate -/

/-- `main` waits for the DHCP thread, which has ended. -/
structure Stuck (s : Process) : Prop where
  dhcp : s.dhcp = .ended
  main : s.main = .waitPrefix
  length : s.sharedPrefix.prefixLength = 0
  adv : ∀ th, s.adv th = .absent
  sent : s.sent = []
  exited : s.exited = false

namespace LifecycleLemmas

variable {useDhcp : Bool} {s t : Process} {th : AdvThread}

theorem dhcp_over {e : DhcpEvent} (h : DhcpStep s e t) (hover : s.exited = false)
    (hend : t.exited = true) : t.dhcp = .calling := by
  cases h with
  | call env handler m buffer bufferLength c hpc =>
    rcases afterCall_cases s c with ⟨_, heq⟩ | ⟨_, heq⟩ | ⟨_, heq⟩
    · rw [heq]
      exact hpc
    · rw [heq] at hend
      exact absurd (hover.symm.trans hend) nofun
    · rw [heq] at hend
      exact absurd (hover.symm.trans hend) nofun
  | setUp | socketFails | setUpFails | enter | leave | lock | copy | copied | convertPreferred
  | convertValid | setLength | unlock => exact absurd (hover.symm.trans hend) nofun

/-- Before `main` has seen a prefix length, nothing is sent, and the process is over only
if a request has not come back. -/
theorem quiet_step {e : ProcessEvent} (hcreated : s.Created)
    (hs : ¬ SawPrefix s.main → s.sent = [] ∧ (s.exited = true → s.dhcp = .calling))
    (h : Process.Step useDhcp s e t) (ht : ¬ SawPrefix t.main) :
    t.sent = [] ∧ (t.exited = true → t.dhcp = .calling) := by
  cases h with
  | signal _ hover => exact ⟨(hs ht).1, fun hend => absurd (hover.symm.trans hend) nofun⟩
  | dhcp hover h =>
    rw [(dhcp_frame h).main] at ht
    rw [(dhcp_frame h).sent]
    exact ⟨(hs ht).1, dhcp_over h hover⟩
  | adv th _ h =>
    have hsaw := sawPrefix_of_created (hcreated.adv th (adv_frame h).started)
    rw [(adv_frame h).main] at ht
    exact absurd hsaw ht
  | main hover h =>
    cases h with
    | seePrefix | createRa | createRs | returns => exact absurd trivial ht
    | init _ hpc | register hpc | createDhcp hpc =>
      have hquiet := hs (hpc ▸ id)
      exact ⟨hquiet.1, fun hend => absurd (hover.symm.trans hend) nofun⟩

theorem quiet_run {es : List ProcessEvent} {p : DhOptIAPrefix}
    (h : Run (Process.Step useDhcp) (Process.init p) es s) (hs : ¬ SawPrefix s.main) :
    s.sent = [] ∧ (s.exited = true → s.dhcp = .calling) := by
  have hall := h.invariant (I := fun s => s.Created ∧
      (¬ SawPrefix s.main → s.sent = [] ∧ (s.exited = true → s.dhcp = .calling)))
    (fun _ _ _ hI hstep => ⟨created_step hI.1 hstep, quiet_step hI.1 hI.2 hstep⟩)
    ⟨created_init p, fun _ => ⟨rfl, fun hend => absurd hend Bool.false_ne_true⟩⟩
  exact hall.2 hs

theorem stuck_of_ended {es : List ProcessEvent}
    (h : Run (Process.Step true) (Process.init blankPrefix) es s) (hended : s.dhcp = .ended)
    (hnone : passes es = []) : Stuck s := by
  have hcoherent : s.Coherent (afterPasses blankPrefix (passes es)) := coherent_run h
  have hquiet : ¬ s.dhcp.Writing := by
    rw [hended]
    exact id
  have hnot : ¬ SawPrefix s.main := fun hsaw =>
    (sawPrefix_run h hsaw).elim (fun hne => hne hnone) hquiet
  have hcreated := hcoherent.created.dhcp (by rw [hended]; exact nofun)
  obtain ⟨hsent, hover⟩ := quiet_run h hnot
  refine ⟨hended, ?_, ?_, fun th => ?_, hsent, ?_⟩
  · cases hmain : s.main with
    | init | register | createDhcp =>
      rw [hmain] at hcreated
      exact absurd hcreated id
    | waitPrefix => rfl
    | createRa | createRs | watch | returned =>
      rw [hmain] at hnot
      exact absurd trivial hnot
  · rw [coherent_quiet hcoherent hquiet, hnone]
    rfl
  · by_contra hne
    exact hnot (sawPrefix_of_created (hcoherent.created.adv th hne))
  · rw [Bool.eq_false_iff]
    intro hend
    rw [hended] at hover
    exact absurd (hover hend) nofun

theorem stuck_step {e : ProcessEvent} (hs : Stuck s) (h : Process.Step useDhcp s e t) :
    Stuck t ∧ ∃ close, e = .signal close := by
  have hdhcp {pc : DhcpAt} (hpc : s.dhcp = pc) (hne : pc ≠ .ended) : False :=
    hne (hpc.symm.trans hs.dhcp)
  have hmain {pc : MainAt} (hpc : s.main = pc) (hne : pc ≠ .waitPrefix) : False :=
    hne (hpc.symm.trans hs.main)
  cases h with
  | signal close => exact ⟨⟨hs.dhcp, hs.main, hs.length, hs.adv, hs.sent, hs.exited⟩, close, rfl⟩
  | adv th _ h => exact absurd (hs.adv th) (adv_frame h).started
  | main _ h =>
    cases h with
    | seePrefix _ hne => exact absurd hs.length hne
    | init _ hpc | register hpc | createDhcp hpc | createRa hpc | createRs hpc | returns hpc =>
      exact (hmain hpc nofun).elim
  | dhcp _ h =>
    cases h with
    | setUp hpc | socketFails hpc | setUpFails hpc | enter hpc | leave hpc | lock hpc
    | call _ _ _ _ _ _ hpc | copy _ _ _ hpc | copied _ hpc | convertPreferred _ hpc
    | convertValid _ hpc | setLength _ hpc | unlock hpc => exact (hdhcp hpc nofun).elim

end LifecycleLemmas

/-- **The gate may hold for ever.** When the DHCP thread has ended and no pass has been
completed, nothing happens any more but signals, and those do not end the process. -/
theorem gate_hangs {es fs : List ProcessEvent} {s t : Process}
    (hrun : Run (Process.Step true) (Process.init blankPrefix) es s) (hended : s.dhcp = .ended)
    (hnone : passes es = []) (hmore : Run (Process.Step true) s fs t) :
    Stuck t ∧ (∀ e u, Process.Step true t e u → ∃ close, e = .signal close) ∧
      ∀ close, ∃ u, Process.Step true t (.signal close) u := by
  have hstuck := hmore.invariant (I := Stuck) (fun _ _ _ hI hstep => (stuck_step hI hstep).1)
    (stuck_of_ended hrun hended hnone)
  refine ⟨hstuck, fun e u hstep => (stuck_step hstuck hstep).2, fun close => ?_⟩
  have hhandled : t.main.Handled := by
    rw [hstuck.main]
    trivial
  exact ⟨_, .signal close hstuck.exited hhandled⟩

/-- No socket for DHCP, and then a signal. -/
theorem exNoSocket_hangs : ∃ t : Process, Stuck t ∧ t.cancel .sendRouterAdv = true := by
  have hrun : ∃ s, Run (Process.Step true) (Process.init blankPrefix)
      [.main (.init exInit), .main .register, .main .createDhcp, .dhcp .socketFails] s ∧
      s.dhcp = .ended ∧ s.exited = false ∧ s.main.Handled :=
    ⟨_, .cons (.main rfl (.init _ rfl)) (.cons (.main rfl (.register rfl))
      (.cons (.main rfl (.createDhcp rfl)) (.single (.dhcp rfl (.socketFails rfl))))), rfl, rfl,
      trivial⟩
  obtain ⟨s, hrun, hended, hover, hhandled⟩ := hrun
  have hsignal : Process.Step true s (.signal (.ok ())) _ := .signal (.ok ()) hover hhandled
  exact ⟨_, (gate_hangs hrun hended rfl (.single hsignal)).1, rfl⟩

/-! ## Cancellation -/

def ProcessEvent.sendsBy (th : AdvThread) : ProcessEvent → Bool
  | .adv j (.send _ _) => j = th
  | _ => false

/-- How many advertisements a thread can still send that does not enter its loop again. -/
def AdvAt.toSend : AdvAt → Nat
  | .link | .receiving _ | .hardware _ _ | .locking _ | .reading _ _ _ => 1
  | _ => 0

/-- How many passes the DHCP thread can still complete. -/
def DhcpAt.toPass : DhcpAt → Nat
  | .locking | .calling | .copying _ _ | .convertPreferred _ | .convertValid _ | .setLength _ => 1
  | _ => 0

namespace LifecycleLemmas

variable {useDhcp : Bool} {s t : Process} {th : AdvThread}

theorem toSend_le (pc : AdvAt) : pc.toSend ≤ 1 := by
  cases pc with
  | absent | setUp | loopTop | unlocking | ended => exact Nat.zero_le 1
  | link | receiving | hardware | locking | reading => exact Nat.le_refl 1

theorem toPass_le (pc : DhcpAt) : pc.toPass ≤ 1 := by
  cases pc with
  | absent | setUp | loopTop | unlocking | ended => exact Nat.zero_le 1
  | locking | calling | copying | convertPreferred | convertValid | setLength => exact Nat.le_refl 1

/-- The flags are never reset. -/
theorem cancelDhcp_kept {e : ProcessEvent} (h : Process.Step useDhcp s e t)
    (hcancel : s.cancelDhcp = true) : t.cancelDhcp = true := by
  cases h with
  | signal => rfl
  | main _ h => cases h <;> exact hcancel
  | adv _ _ h => rw [(adv_frame h).cancelDhcp, hcancel]
  | dhcp _ h =>
    cases h with
    | call env handler m buffer bufferLength c =>
      rcases afterCall_cases s c with ⟨_, heq⟩ | ⟨_, heq⟩ | ⟨_, heq⟩
      all_goals
        rw [heq]
        exact hcancel
    | socketFails => rfl
    | setUp | setUpFails | enter | leave | lock | copy | copied | convertPreferred | convertValid
    | setLength | unlock => exact hcancel

theorem cancel_kept {e : ProcessEvent} (h : Process.Step useDhcp s e t)
    (hcancel : s.cancel th = true) : t.cancel th = true := by
  cases h with
  | signal => rfl
  | main _ h => cases h <;> exact hcancel
  | dhcp _ h => rw [(dhcp_frame h).cancel, hcancel]
  | adv j _ h =>
    cases h with
    | setUpFails =>
      cases j with
      | listenRouterSolicit => exact hcancel
      | sendRouterAdv =>
        show Function.update s.cancel .sendRouterAdv true th = true
        cases th with
        | sendRouterAdv => rfl
        | listenRouterSolicit => exact hcancel
    | setUp | exits | enter | leave | getLinkLocalAddress | receive | getHardwareAddressByName
    | dies | lock | read | send | unlock => exact hcancel

/-- The thread itself goes on to its one send, if it has not sent. -/
theorem toSend_step {e : AdvEvent} (hcancel : s.cancel th = true) (h : AdvStep th s e t) :
    (t.adv th).toSend ≤ (s.adv th).toSend ∧
      (ProcessEvent.sendsBy th (.adv th e) = true → (t.adv th).toSend < (s.adv th).toSend) := by
  have hgoto {pc pc' : AdvAt} (hpc : s.adv th = pc) (hle : pc'.toSend ≤ pc.toSend) :
      ((s.goto th pc').adv th).toSend ≤ (s.adv th).toSend := by
    rwa [adv_goto_self, hpc]
  have hlink (srcAddr : In6Addr) : (afterLink srcAddr th).toSend ≤ 1 := toSend_le _
  cases h with
  | enter _ hnot => exact absurd (hcancel.symm.trans hnot) nofun
  | exits | dies => exact ⟨Nat.le_refl _, nofun⟩
  | getLinkLocalAddress _ _ hpc => exact ⟨hgoto hpc (hlink _), nofun⟩
  | setUp hpc | setUpFails hpc | leave hpc | receive _ _ _ _ _ _ hpc
  | getHardwareAddressByName _ _ _ _ hpc | lock _ hpc | read _ _ _ _ hpc | unlock hpc =>
    exact ⟨hgoto hpc (Nat.le_refl _), nofun⟩
  | send b m a p pkt hpc =>
    have hlt : ((s.goto th .unlocking).adv th).toSend < (s.adv th).toSend := by
      rw [adv_goto_self, hpc]
      exact Nat.zero_lt_one
    exact ⟨Nat.le_of_lt hlt, fun _ => hlt⟩

theorem toPass_step {e : DhcpEvent} (hcancel : s.cancelDhcp = true) (h : DhcpStep s e t) :
    t.dhcp.toPass ≤ s.dhcp.toPass ∧
      ((ProcessEvent.dhcp e).pass.isSome → t.dhcp.toPass < s.dhcp.toPass) := by
  cases h with
  | enter _ hnot => exact absurd (hcancel.symm.trans hnot) nofun
  | call env handler m buffer bufferLength c hpc =>
    rw [hpc]
    exact ⟨toPass_le _, nofun⟩
  | setUp hpc | socketFails hpc | setUpFails hpc | leave hpc | lock hpc | copy _ _ _ hpc
  | copied _ hpc | convertPreferred _ hpc | convertValid _ hpc | unlock hpc =>
    rw [hpc]
    exact ⟨Nat.le_refl _, nofun⟩
  | setLength reply hpc =>
    rw [hpc]
    exact ⟨Nat.zero_le 1, fun _ => Nat.zero_lt_one⟩

/-- No other step gives a thread more to do. -/
theorem toSend_process {e : ProcessEvent} (hcancel : s.cancel th = true)
    (h : Process.Step useDhcp s e t) : (t.adv th).toSend ≤ (s.adv th).toSend ∧
      (e.sendsBy th = true → (t.adv th).toSend < (s.adv th).toSend) := by
  have hgoto (j : AdvThread) : ((s.goto j .setUp).adv th).toSend ≤ (s.adv th).toSend := by
    by_cases hj : th = j
    · subst hj
      rw [adv_goto_self]
      exact Nat.zero_le _
    · rw [adv_goto_of_ne s _ hj]
  cases h with
  | signal => exact ⟨Nat.le_refl _, nofun⟩
  | dhcp _ h =>
    rw [(dhcp_frame h).adv]
    exact ⟨Nat.le_refl _, nofun⟩
  | main _ h =>
    cases h with
    | init | register | createDhcp | seePrefix | returns => exact ⟨Nat.le_refl _, nofun⟩
    | createRa => exact ⟨hgoto .sendRouterAdv, nofun⟩
    | createRs => exact ⟨hgoto .listenRouterSolicit, nofun⟩
  | @adv e _ j _ h =>
    by_cases hj : th = j
    · subst hj
      exact toSend_step hcancel h
    · rw [(adv_frame h).others th hj]
      refine ⟨Nat.le_refl _, fun hsends => ?_⟩
      cases e with
      | send => exact absurd (of_decide_eq_true hsends).symm hj
      | setUp | setUpFails | exits | enter | leave | getLinkLocalAddress | receive
      | getHardwareAddressByName | dies | lock | read | unlock => cases hsends

theorem toPass_process {e : ProcessEvent} (hcancel : s.cancelDhcp = true)
    (h : Process.Step useDhcp s e t) :
    t.dhcp.toPass ≤ s.dhcp.toPass ∧ (e.pass.isSome → t.dhcp.toPass < s.dhcp.toPass) := by
  cases h with
  | signal => exact ⟨Nat.le_refl _, nofun⟩
  | adv _ _ h =>
    rw [(adv_frame h).dhcp]
    exact ⟨Nat.le_refl _, nofun⟩
  | dhcp _ h => exact toPass_step hcancel h
  | main _ h =>
    cases h with
    | init | register | seePrefix | createRa | createRs | returns => exact ⟨Nat.le_refl _, nofun⟩
    | createDhcp => exact ⟨Nat.zero_le _, nofun⟩

end LifecycleLemmas

/-- **Cancellation.** Behind a signal, each thread sends at most one advertisement, and
at most one pass is completed. -/
theorem after_cancel {useDhcp : Bool} {p : DhOptIAPrefix} {close : Except Errno Unit}
    {es fs : List ProcessEvent} {s : Process}
    (hrun : Run (Process.Step useDhcp) (Process.init p) (es ++ .signal close :: fs) s) :
    (∀ th, fs.countP (ProcessEvent.sendsBy th) ≤ 1) ∧
      (fs.countP fun e => e.pass.isSome) ≤ 1 := by
  obtain ⟨u, v, _, hsignal, hafter⟩ := hrun.split_cons
  have hcancelled : v.cancelDhcp = true ∧ ∀ th, v.cancel th = true := by
    cases hsignal
    exact ⟨rfl, fun _ => rfl⟩
  constructor
  · intro th
    have hcount := hafter.count_add_le (I := fun s => s.cancel th = true)
      (p := ProcessEvent.sendsBy th) (f := fun s => (s.adv th).toSend)
      (fun _ _ _ hI hstep => cancel_kept hstep hI)
      (fun _ _ _ hI hstep => (toSend_process hI hstep).1)
      (fun _ _ _ hI hstep => (toSend_process hI hstep).2) (hcancelled.2 th)
    exact Nat.le_trans (Nat.le_of_add_right_le hcount) (toSend_le _)
  · have hcount := hafter.count_add_le (I := fun s => s.cancelDhcp = true)
      (p := fun e => e.pass.isSome) (f := fun s => s.dhcp.toPass)
      (fun _ _ _ hI hstep => cancelDhcp_kept hstep hI)
      (fun _ _ _ hI hstep => (toPass_process hI hstep).1)
      (fun _ _ _ hI hstep => (toPass_process hI hstep).2) hcancelled.1
    exact Nat.le_trans (Nat.le_of_add_right_le hcount) (toPass_le _)

/-- A signal while the mutex is locked: there is one advertisement more. -/
theorem exCancelled_sends : ∃ fs s, Run (Process.Step false) (Process.init blankPrefix)
    ([.main (.init exInit), .main .register] ++ exLocks ++ .signal (.ok ()) :: fs) s ∧
      s.sent.length = 1 ∧ fs.countP (ProcessEvent.sendsBy .sendRouterAdv) ≤ 1 := by
  obtain ⟨s, hstatic, hready, hnone⟩ := exStatic_run blankPrefix
  obtain ⟨t, hlocks, hover, hsent, hmain, _, a, hpc, _⟩ := exLocks_run hready
  have hhandled : t.main.Handled := by
    rw [hmain]
    trivial
  obtain ⟨v, hsignal, hpcSignal, hoverSignal, hsentSignal⟩ : ∃ v,
      Process.Step false t (.signal (.ok ())) v ∧
        v.adv .sendRouterAdv = .reading a blankPrefix allPrefixFields ∧ v.exited = false ∧
        v.sent = t.sent :=
    ⟨_, .signal (.ok ()) hover hhandled, hpc, hover, rfl⟩
  obtain ⟨q, u, hreads, hpc', hover', hsent'⟩ := @exReads_run false _ _ _ _ hpcSignal hoverSignal
  obtain ⟨pkt, hsend⟩ := send_enabled hpc'
  have hrun := (hstatic.append hlocks).append (.cons hsignal (hreads.append
    (.single (.adv _ hover' hsend))))
  refine ⟨_, _, hrun, ?_, (after_cancel hrun).1 .sendRouterAdv⟩
  show (u.sent ++ [pkt]).length = 1
  rw [hsent', hsentSignal, hsent, hnone]
  rfl

/-! ## Answers -/

/-- The address that `ReceiveSrcAddrFromRouterSolicit` returns. -/
def ProcessEvent.received : ProcessEvent → Option In6Addr
  | .adv .listenRouterSolicit (.receive clientAddr) => some clientAddr
  | _ => none

/-- Whom an answer is sent to. -/
def ProcessEvent.answered : ProcessEvent → Option In6Addr
  | .adv .listenRouterSolicit (.send dstAddr _) => some dstAddr
  | _ => none

/-- Who is still to be answered. -/
def AdvAt.pending : AdvAt → List In6Addr
  | .hardware _ dstAddr => [dstAddr]
  | .locking a | .reading a _ _ => [a.dstAddr]
  | _ => []

namespace LifecycleLemmas

variable {useDhcp : Bool} {s t : Process}

theorem pending_adv {e : AdvEvent} (h : AdvStep .listenRouterSolicit s e t) :
    (s.adv .listenRouterSolicit).pending ++
        [ProcessEvent.adv .listenRouterSolicit e].filterMap ProcessEvent.received =
      [ProcessEvent.adv .listenRouterSolicit e].filterMap ProcessEvent.answered ++
        (t.adv .listenRouterSolicit).pending := by
  have hgoto {pc pc' : AdvAt} (hpc : s.adv .listenRouterSolicit = pc)
      (hsame : pc.pending = pc'.pending) : (s.adv .listenRouterSolicit).pending ++ [] =
        [] ++ ((s.goto .listenRouterSolicit pc').adv .listenRouterSolicit).pending := by
    rw [List.append_nil, List.nil_append, adv_goto_self, hpc, hsame]
  cases h with
  | exits | dies => exact List.append_nil _
  | receive _ _ _ _ srcAddr clientAddr hpc =>
    rw [hpc, adv_goto_self]
    rfl
  | send b m a p pkt hpc =>
    show _ ++ [] = [a.dstAddr] ++
      ((s.goto .listenRouterSolicit .unlocking).adv .listenRouterSolicit).pending
    rw [hpc, adv_goto_self]
    rfl
  | getLinkLocalAddress _ _ hpc | setUp hpc | setUpFails hpc | enter hpc | leave hpc
  | getHardwareAddressByName _ _ _ _ hpc | lock _ hpc | read _ _ _ _ hpc | unlock hpc =>
    exact hgoto hpc rfl

theorem pending_step {e : ProcessEvent} (hcreated : s.Created) (h : Process.Step useDhcp s e t) :
    (s.adv .listenRouterSolicit).pending ++ [e].filterMap ProcessEvent.received =
      [e].filterMap ProcessEvent.answered ++ (t.adv .listenRouterSolicit).pending := by
  cases h with
  | signal => exact List.append_nil _
  | dhcp _ h =>
    rw [(dhcp_frame h).adv]
    exact List.append_nil _
  | adv th _ h =>
    cases th with
    | listenRouterSolicit => exact pending_adv h
    | sendRouterAdv =>
      rw [(adv_frame h).others .listenRouterSolicit (by decide)]
      exact List.append_nil _
  | main _ h =>
    cases h with
    | init | register | createDhcp | seePrefix | returns => exact List.append_nil _
    | createRa =>
      show _ ++ [] = [] ++ ((s.goto .sendRouterAdv .setUp).adv .listenRouterSolicit).pending
      rw [adv_goto_of_ne s _ (by decide)]
      exact List.append_nil _
    | createRs hpc =>
      show _ ++ [] = [] ++ ((s.goto .listenRouterSolicit .setUp).adv .listenRouterSolicit).pending
      rw [adv_goto_self, adv_absent hcreated hpc id]
      rfl

end LifecycleLemmas

/-- **Answers.** The addresses that `ReceiveSrcAddrFromRouterSolicit` has returned are those
answered, in the same order and as often, and the one still to be answered, if any. -/
theorem answers_in_order {useDhcp : Bool} {p : DhOptIAPrefix} {es : List ProcessEvent}
    {s : Process} (hrun : Run (Process.Step useDhcp) (Process.init p) es s) :
    es.filterMap ProcessEvent.received =
      es.filterMap ProcessEvent.answered ++ (s.adv .listenRouterSolicit).pending := by
  have hall := hrun.trace_invariant (I := fun es s => s.Created ∧
      es.filterMap ProcessEvent.received =
        es.filterMap ProcessEvent.answered ++ (s.adv .listenRouterSolicit).pending)
    (fun es s e t hI hstep => ⟨created_step hI.1 hstep, ?_⟩) ⟨created_init p, rfl⟩
  · exact hall.2
  · rw [List.filterMap_append, List.filterMap_append, hI.2, List.append_assoc,
      pending_step hI.1 hstep, List.append_assoc]

/-- The other thread receives a Router Solicitation. -/
def exSolicited : List ProcessEvent :=
  [.main (.init exInit), .main .register, .main .createRa, .main .createRs,
    .adv .listenRouterSolicit .setUp, .adv .listenRouterSolicit .enter,
    .adv .listenRouterSolicit (.getLinkLocalAddress (.ok ()) (.ok In6Addr.zero)),
    .adv .listenRouterSolicit (.receive exDelegatedAddr)]

theorem exSolicited_run : ∃ s, Run (Process.Step false) (Process.init blankPrefix) exSolicited s := by
  have hreceive : receiveSrcAddrFromRouterSolicit (fun _ => 0) 4096
      [some ⟨exDelegatedAddr, [133, 0, 0, 0, 0, 0, 0, 0]⟩] = some (exDelegatedAddr, []) := by decide
  exact ⟨_, .cons (.main rfl (.init _ rfl)) (.cons (.main rfl (.register rfl))
    (.cons (.main rfl (.createRa rfl)) (.cons (.main rfl (.createRs rfl))
      (.cons (.adv _ rfl (.setUp rfl)) (.cons (.adv _ rfl (.enter rfl rfl))
        (.cons (.adv _ rfl (.getLinkLocalAddress _ _ rfl))
          (.single (.adv _ rfl (.receive _ _ _ _ _ _ rfl hreceive)))))))))⟩

/-- It is still to be answered. -/
theorem exSolicited_pending : ∃ s, Run (Process.Step false) (Process.init blankPrefix) exSolicited s ∧
    [exDelegatedAddr] = [] ++ (s.adv .listenRouterSolicit).pending := by
  obtain ⟨s, hrun⟩ := exSolicited_run
  exact ⟨s, hrun, answers_in_order hrun⟩

end Pdrad
