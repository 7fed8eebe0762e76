import Pdrad.Delivery
import Pdrad.Lifecycle

/-!
# Who waits for whom (`test.c`)

The DHCP thread holds `_prefixMutex` while it waits for a reply, so the threads that
advertise wait with it. `main` waits for nobody, once it has seen a prefix.

1. `toBlock_step`: as long as the mutex is locked, a thread outside has only so many steps
   to make.
2. `silent_server`: what is left of the process while no reply arrives.
3. `shutdown`: behind a signal, `main` comes to an end.
-/

namespace Pdrad

open ProcessLemmas LifecycleLemmas

/-- The steps of a thread up to the lock, where it starts outside. -/
def AdvAt.toBlock : AdvAt → Nat
  | .absent | .setUp => 5
  | .loopTop => 4
  | .link => 3
  | .receiving _ => 2
  | .hardware _ _ => 1
  | .locking _ | .reading _ _ _ | .unlocking | .ended => 0

/-- The steps of `main` up to its end. -/
def MainAt.toEnd : MainAt → Nat
  | .init => 7
  | .register => 6
  | .createDhcp => 5
  | .waitPrefix => 4
  | .createRa => 3
  | .createRs => 2
  | .watch => 1
  | .returned => 0

/-- The steps that are left without the DHCP thread. -/
def Process.toBlock (s : Process) : Nat :=
  if s.exited then 0
  else s.main.toEnd + ((s.adv .sendRouterAdv).toBlock + (s.adv .listenRouterSolicit).toBlock)

def ProcessEvent.isSignal : ProcessEvent → Bool
  | .signal _ => true
  | _ => false

def ProcessEvent.isMain : ProcessEvent → Bool
  | .main _ => true
  | _ => false

namespace BlockingLemmas

variable {useDhcp : Bool} {s t : Process} {th : AdvThread}

theorem advToBlock_le (pc : AdvAt) : pc.toBlock ≤ 5 := by
  cases pc with
  | absent | setUp => exact Nat.le_refl 5
  | loopTop | link | receiving | hardware | locking | reading | unlocking | ended =>
    exact Nat.le_of_ble_eq_true rfl

theorem afterLink_toBlock (srcAddr : In6Addr) : (afterLink srcAddr th).toBlock < 3 := by
  cases th with
  | sendRouterAdv => exact Nat.lt_of_le_of_lt (Nat.le_refl 1) (by decide)
  | listenRouterSolicit => exact Nat.lt_succ_self 2

/-- A step of a thread that does not get the mutex takes it nearer to where it stops. -/
theorem adv_toBlock {e : AdvEvent} (h : AdvStep th s e t) (hmutex : s.mutex ≠ none)
    (houtside : ¬ (s.adv th).Inside) :
    0 < (s.adv th).toBlock ∧ (t.exited = true ∨ (t.adv th).toBlock < (s.adv th).toBlock) := by
  have hgoto {pc pc' : AdvAt} (hpc : s.adv th = pc) (hlt : pc'.toBlock < pc.toBlock) :
      0 < (s.adv th).toBlock ∧ ((s.goto th pc').adv th).toBlock < (s.adv th).toBlock := by
    rw [adv_goto_self, hpc]
    exact ⟨Nat.zero_lt_of_lt hlt, hlt⟩
  cases h with
  | exits hpc =>
    rw [hpc]
    exact ⟨Nat.succ_pos 4, .inl rfl⟩
  | dies _ _ _ hpc =>
    rw [hpc]
    exact ⟨Nat.succ_pos 0, .inl rfl⟩
  | setUp hpc | enter hpc | getHardwareAddressByName _ _ _ _ hpc | receive _ _ _ _ _ _ hpc =>
    exact (hgoto hpc (Nat.lt_succ_self _)).imp_right .inr
  | setUpFails hpc =>
    have hlt : AdvAt.ended.toBlock < AdvAt.setUp.toBlock := Nat.succ_pos 4
    exact (hgoto hpc hlt).imp_right .inr
  | leave hpc =>
    have hlt : AdvAt.ended.toBlock < AdvAt.loopTop.toBlock := Nat.succ_pos 3
    exact (hgoto hpc hlt).imp_right .inr
  | getLinkLocalAddress _ _ hpc => exact (hgoto hpc (afterLink_toBlock _)).imp_right .inr
  | lock _ _ hfree => exact absurd hfree hmutex
  | read _ _ _ _ hpc | send _ _ _ _ _ hpc | unlock hpc =>
    rw [hpc] at houtside
    exact absurd trivial houtside

theorem main_toEnd {e : MainEvent} (h : MainStep useDhcp s e t) : t.main.toEnd < s.main.toEnd := by
  cases h with
  | init _ hpc | createDhcp hpc | seePrefix hpc | createRa hpc | createRs hpc | returns hpc =>
    rw [hpc]
    exact Nat.lt_succ_self _
  | register hpc =>
    rw [hpc]
    cases useDhcp with
    | false => exact (by decide : 3 < 6)
    | true => exact Nat.lt_succ_self 5

/-- A thread that `main` creates has as many steps to make as before. -/
theorem main_toBlock {e : MainEvent} (hcreated : s.Created) (h : MainStep useDhcp s e t)
    (j : AdvThread) : (t.adv j).toBlock = (s.adv j).toBlock := by
  have hgoto {pc : MainAt} (hpc : s.main = pc) (th : AdvThread) (hnot : ¬ pc.Created th) :
      ((s.goto th .setUp).adv j).toBlock = (s.adv j).toBlock := by
    rcases eq_or_ne j th with rfl | hj
    · rw [adv_goto_self, adv_absent hcreated hpc hnot]
      rfl
    · rw [adv_goto_of_ne s _ hj]
  cases h with
  | init | register | createDhcp | seePrefix | returns => rfl
  | createRa hpc => exact hgoto hpc .sendRouterAdv id
  | createRs hpc => exact hgoto hpc .listenRouterSolicit id

/-- What is left falls when the part of one party does, or the process ends. -/
theorem toBlock_lt (hexited : s.exited = false) (hmain : t.main.toEnd ≤ s.main.toEnd)
    (hadv : ∀ j, (t.adv j).toBlock ≤ (s.adv j).toBlock)
    (hpos : 0 < s.main.toEnd ∨ ∃ j, 0 < (s.adv j).toBlock)
    (hlt : t.exited = true ∨ t.main.toEnd < s.main.toEnd ∨
      ∃ j, (t.adv j).toBlock < (s.adv j).toBlock) : t.toBlock < s.toBlock := by
  have hra := hadv .sendRouterAdv
  have hrs := hadv .listenRouterSolicit
  rw [Process.toBlock, Process.toBlock, hexited]
  split
  · rcases hpos with hpos | ⟨_ | _, hpos⟩
    all_goals
      show 0 < s.main.toEnd + _
      omega
  · next hgoesOn =>
    show _ < s.main.toEnd + _
    rcases hlt.resolve_left hgoesOn with hless | ⟨_ | _, hless⟩
    all_goals omega

/-- What a thread does that does not get the mutex. -/
theorem adv_blocked {e : AdvEvent} (h : AdvStep th s e t) (hmutex : s.mutex ≠ none)
    (houtside : ¬ (s.adv th).Inside) :
    t.mutex = s.mutex ∧ t.sent = s.sent ∧ (s.exited = false → t.toBlock < s.toBlock) := by
  refine ⟨?_, ?_, fun hexited => ?_⟩
  · cases adv_section h with
    | lock hfree => exact absurd hfree hmutex
    | unlock hinside => exact absurd hinside houtside
    | keep hsame => exact hsame
  · rcases AtomicityLemmas.adv_sent h with hsame | ⟨dstAddr, pkt, rfl, _⟩
    · exact hsame
    · cases h with
      | send _ _ _ _ _ hpc =>
        rw [hpc] at houtside
        exact absurd trivial houtside
  · obtain ⟨hpos, hless⟩ := adv_toBlock h hmutex houtside
    have hframe := adv_frame h
    refine toBlock_lt hexited (Nat.le_of_eq (congrArg _ hframe.main)) (fun j => ?_)
      (.inr ⟨th, hpos⟩) (hless.imp_right fun hlt => .inr ⟨th, hlt⟩)
    rcases eq_or_ne j th with rfl | hj
    · rcases hless with hover | hlt
      · have hsame : t.adv j = s.adv j := by
          cases h with
          | exits | dies => rfl
          | setUp | setUpFails | enter | leave | getLinkLocalAddress | receive
          | getHardwareAddressByName | lock | read | send | unlock =>
            exact absurd (hexited.symm.trans hover) nofun
        rw [hsame]
      · exact Nat.le_of_lt hlt
    · rw [hframe.others j hj]

theorem main_blocked {e : MainEvent} (hcreated : s.Created) (h : MainStep useDhcp s e t) :
    t.mutex = s.mutex ∧ t.sent = s.sent ∧ (s.exited = false → t.toBlock < s.toBlock) := by
  have hlt := main_toEnd h
  refine ⟨by cases h <;> rfl, by cases h <;> rfl, fun hexited => ?_⟩
  exact toBlock_lt hexited (Nat.le_of_lt hlt)
    (fun j => Nat.le_of_eq (main_toBlock hcreated h j)) (.inl (Nat.zero_lt_of_lt hlt))
    (.inr (.inl hlt))

/-- The DHCP thread has the mutex. -/
def Held (s : Process) : Prop :=
  (s.Created ∧ Guarded s.mutex s.Inside) ∧ s.mutex = some .requestDhcpPrefix

/-- As long as it does not go on, nobody sends, and only signals cost nothing. -/
theorem held_step {e : ProcessEvent} (hs : Held s) (hnot : e.worker ≠ some .requestDhcpPrefix)
    (h : Process.Step useDhcp s e t) :
    Held t ∧ t.sent = s.sent ∧ t.toBlock ≤ s.toBlock ∧
      (e.isSignal = false → t.toBlock < s.toBlock) := by
  obtain ⟨⟨hcreated, hguarded⟩, howner⟩ := hs
  have hreached := And.intro (created_step hcreated h) (guarded_step hcreated hguarded h)
  have hall (hexited : s.exited = false) (hblocked : t.mutex = s.mutex ∧ t.sent = s.sent ∧
      (s.exited = false → t.toBlock < s.toBlock)) : Held t ∧ t.sent = s.sent ∧
        t.toBlock ≤ s.toBlock ∧ (e.isSignal = false → t.toBlock < s.toBlock) := by
    obtain ⟨hmutex, hsent, hlt⟩ := hblocked
    exact ⟨⟨hreached, hmutex.trans howner⟩, hsent, Nat.le_of_lt (hlt hexited),
      fun _ => hlt hexited⟩
  cases h with
  | signal => exact ⟨⟨hreached, howner⟩, rfl, Nat.le_refl _, nofun⟩
  | dhcp => exact absurd rfl hnot
  | main hexited h => exact hall hexited (main_blocked hcreated h)
  | adv th hexited h =>
    have hmutex : s.mutex ≠ none := by
      rw [howner]
      exact nofun
    have houtside : ¬ (s.adv th).Inside := by
      intro hinside
      have hth := (hguarded (.adv th)).mp hinside
      rw [howner] at hth
      cases hth
    exact hall hexited (adv_blocked h hmutex houtside)

theorem toBlock_le (hcreated : s.Created) (hdhcp : s.dhcp ≠ .absent) : s.toBlock ≤ 14 := by
  have hmain : s.main.toEnd ≤ 4 := by
    have hthere := hcreated.dhcp hdhcp
    cases hpc : s.main with
    | init | register | createDhcp =>
      rw [hpc] at hthere
      exact absurd hthere id
    | waitPrefix | createRa | createRs | watch | returned => exact Nat.le_of_ble_eq_true rfl
  have hra := advToBlock_le (s.adv .sendRouterAdv)
  have hrs := advToBlock_le (s.adv .listenRouterSolicit)
  unfold Process.toBlock
  split
  · exact Nat.zero_le 14
  · exact Nat.add_le_add hmain (Nat.add_le_add hra hrs)

end BlockingLemmas

open BlockingLemmas

/-- **A silent server.** While the DHCP thread has the mutex and does not go on, as it does
in a request that is not answered, nothing is sent, and the rest of the process makes at
most 14 more steps, apart from signals. -/
theorem silent_server {useDhcp : Bool} {p : DhOptIAPrefix} {es fs : List ProcessEvent}
    {s t : Process} (hrun : Run (Process.Step useDhcp) (Process.init p) es s)
    (howner : s.mutex = some .requestDhcpPrefix)
    (hmore : Run (Run.While (fun _ e => e.worker ≠ some .requestDhcpPrefix)
      (Process.Step useDhcp)) s fs t) :
    t.mutex = some .requestDhcpPrefix ∧ t.sent = s.sent ∧
      (fs.countP fun e => !e.isSignal) ≤ 14 := by
  have hheld : Held s := ⟨reached hrun, howner⟩
  have hdhcp : s.dhcp ≠ .absent := by
    intro habsent
    have hinside : s.dhcp.Inside := (hheld.1.2 .requestDhcpPrefix).mpr howner
    rw [habsent] at hinside
    exact hinside
  have hcount := hmore.count_add_le (I := Held) (p := fun e => !e.isSignal) (f := Process.toBlock)
    (fun _ _ _ hI hstep => (held_step hI hstep.1 hstep.2).1)
    (fun _ _ _ hI hstep => (held_step hI hstep.1 hstep.2).2.2.1)
    (fun _ _ _ hI hstep hnot => (held_step hI hstep.1 hstep.2).2.2.2 (by simpa using hnot)) hheld
  obtain ⟨hend, hsent⟩ := hmore.invariant (I := fun u => Held u ∧ u.sent = s.sent)
    (fun _ _ _ hI hstep => ⟨(held_step hI.1 hstep.1 hstep.2).1,
      (held_step hI.1 hstep.1 hstep.2).2.1.trans hI.2⟩) ⟨hheld, rfl⟩
  exact ⟨hend.2, hsent, Nat.le_trans (Nat.le_of_add_right_le hcount)
    (toBlock_le hheld.1.1 hdhcp)⟩

/-- The first request is not answered. -/
theorem exCalls_silent : ∃ s : Process, s.mutex = some .requestDhcpPrefix ∧ ∀ fs t,
    Run (Run.While (fun _ e => e.worker ≠ some .requestDhcpPrefix) (Process.Step true)) s fs t →
      t.mutex = some .requestDhcpPrefix ∧ t.sent = s.sent ∧
        (fs.countP fun e => !e.isSignal) ≤ 14 := by
  obtain ⟨s, _, hcalls, hobtains, _⟩ := exDelegates_run
  have howner : s.mutex = some .requestDhcpPrefix := by
    refine ((reached hcalls).2 .requestDhcpPrefix).mp ?_
    rw [Process.Inside, hobtains.calling]
    trivial
  exact ⟨s, howner, fun fs t hmore => silent_server hcalls howner hmore⟩

/-! ## The end -/

namespace BlockingLemmas

variable {useDhcp : Bool} {s t : Process}

/-- The flags are set, and the process is over when `main` is. -/
def Ending (s : Process) : Prop :=
  (∀ th, s.cancel th = true) ∧ (s.main.Handled ∨ s.exited = true)

theorem ending_step {e : ProcessEvent} (hs : Ending s) (h : Process.Step useDhcp s e t) :
    Ending t ∧ t.main.toEnd ≤ s.main.toEnd ∧ (e.isMain = true → t.main.toEnd < s.main.toEnd) := by
  obtain ⟨hcancel, hmain⟩ := hs
  have hcancel' (th : AdvThread) : t.cancel th = true := cancel_kept h (hcancel th)
  have hsame (hframe : t.main = s.main) (hexited : s.exited = false) :
      (t.main.Handled ∨ t.exited = true) ∧ t.main.toEnd ≤ s.main.toEnd := by
    rw [hframe]
    exact ⟨.inl (hmain.resolve_right (hexited ▸ nofun)), Nat.le_refl _⟩
  cases h with
  | signal => exact ⟨⟨hcancel', hmain⟩, Nat.le_refl _, nofun⟩
  | dhcp hexited h =>
    obtain ⟨hgoesOn, hle⟩ := hsame (dhcp_frame h).main hexited
    exact ⟨⟨hcancel', hgoesOn⟩, hle, nofun⟩
  | adv _ hexited h =>
    obtain ⟨hgoesOn, hle⟩ := hsame (adv_frame h).main hexited
    exact ⟨⟨hcancel', hgoesOn⟩, hle, nofun⟩
  | main hexited h =>
    have hlt := main_toEnd h
    have hhandled := hmain.resolve_right (hexited ▸ nofun)
    refine ⟨⟨hcancel', ?_⟩, Nat.le_of_lt hlt, fun _ => hlt⟩
    cases h with
    | init _ hpc | register hpc =>
      rw [hpc] at hhandled
      exact absurd hhandled id
    | createDhcp | seePrefix | createRa | createRs => exact .inl trivial
    | returns => exact .inr rfl

/-- Nothing but the prefix that is still to come can keep `main` from going on. -/
theorem ending_enabled (hs : Ending s) (hexited : s.exited = false) :
    (∃ e t, Process.Step useDhcp s (.main e) t) ∨
      s.main = .waitPrefix ∧ s.sharedPrefix.prefixLength = 0 := by
  have hhandled := hs.2.resolve_right (hexited ▸ nofun)
  cases hpc : s.main with
  | init | register | returned =>
    rw [hpc] at hhandled
    exact absurd hhandled id
  | createDhcp => exact .inl ⟨_, _, .main hexited (.createDhcp hpc)⟩
  | waitPrefix =>
    by_cases hlength : s.sharedPrefix.prefixLength = 0
    · exact .inr ⟨rfl, hlength⟩
    · exact .inl ⟨_, _, .main hexited (.seePrefix hpc hlength)⟩
  | createRa => exact .inl ⟨_, _, .main hexited (.createRa hpc)⟩
  | createRs => exact .inl ⟨_, _, .main hexited (.createRs hpc)⟩
  | watch => exact .inl ⟨_, _, .main hexited (.returns hpc (.inl (hs.1 .sendRouterAdv)))⟩

end BlockingLemmas

/-- **Shutting down.** Behind a signal, `main` makes at most five more steps. Until the
process is over, it can always make the next one, whatever the threads do, unless it still
waits for a prefix length and there is none. -/
theorem shutdown {useDhcp : Bool} {p : DhOptIAPrefix} {close : Except Errno Unit}
    {es fs : List ProcessEvent} {s : Process}
    (hrun : Run (Process.Step useDhcp) (Process.init p) (es ++ .signal close :: fs) s) :
    fs.countP ProcessEvent.isMain ≤ 5 ∧
      (s.exited = false → (∃ e t, Process.Step useDhcp s (.main e) t) ∨
        s.main = .waitPrefix ∧ s.sharedPrefix.prefixLength = 0) := by
  obtain ⟨u, v, _, hsignal, hafter⟩ := hrun.split_cons
  have hending : Ending v ∧ v.main.toEnd ≤ 5 := by
    cases hsignal with
    | signal _ _ hhandled =>
      refine ⟨⟨fun _ => rfl, .inl hhandled⟩, ?_⟩
      show u.main.toEnd ≤ 5
      cases hpc : u.main with
      | init | register | returned =>
        rw [hpc] at hhandled
        exact absurd hhandled id
      | createDhcp | waitPrefix | createRa | createRs | watch => exact Nat.le_of_ble_eq_true rfl
  have hcount := hafter.count_add_le (I := Ending) (p := ProcessEvent.isMain)
    (f := fun s => s.main.toEnd) (fun _ _ _ hI hstep => (ending_step hI hstep).1)
    (fun _ _ _ hI hstep => (ending_step hI hstep).2.1)
    (fun _ _ _ hI hstep => (ending_step hI hstep).2.2) hending.1
  refine ⟨Nat.le_trans (Nat.le_of_add_right_le hcount) hending.2, fun hexited => ?_⟩
  exact ending_enabled (hafter.invariant (fun _ _ _ hI hstep => (ending_step hI hstep).1)
    hending.1) hexited

/-- A signal while `main` is about to create the threads. -/
theorem exStatic_shutdown : ∃ s e t, Process.Step false s (.main e) t ∧
    s.cancel .sendRouterAdv = true := by
  obtain ⟨s, hstatic, hready, _⟩ := exStatic_run blankPrefix
  have hhandled : s.main.Handled := by
    rw [hready.main]
    trivial
  have hsignal : Process.Step false s (.signal (.ok ())) _ := .signal (.ok ()) hready.exited hhandled
  rcases (shutdown (hstatic.append (.single hsignal))).2 hready.exited with ⟨e, t, hstep⟩ | hwaits
  · exact ⟨_, e, t, hstep, rfl⟩
  · exact absurd (hready.main.symm.trans hwaits.1) nofun

end Pdrad
