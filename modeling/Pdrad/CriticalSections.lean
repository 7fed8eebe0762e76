import Pdrad.Process

/-!
# The critical sections of the process (`test.c`)

1. `dhcp_frame`, `adv_frame`: what the steps of a thread leave alone.
2. `guarded_step`: the owner of the mutex is the thread in a critical section.
3. `section_progress`: whoever has locked the mutex can go on, and unlocks it after at
   most ten steps of its own.
-/

namespace Pdrad

/-! ## The mutex -/

def Process.Inside (s : Process) : Worker → Prop
  | .requestDhcpPrefix => s.dhcp.Inside
  | .adv th => (s.adv th).Inside

/-- `main` has created the thread, or the DHCP thread. -/
def MainAt.Created : MainAt → AdvThread → Prop
  | .createRs, .sendRouterAdv | .watch, _ | .returned, _ => True
  | _, _ => False

def MainAt.CreatedDhcp : MainAt → Prop
  | .init | .register | .createDhcp => False
  | _ => True

/-- There are no other threads than those that `main` has created. -/
structure Process.Created (s : Process) : Prop where
  dhcp : s.dhcp ≠ .absent → s.main.CreatedDhcp
  adv : ∀ th, s.adv th ≠ .absent → s.main.Created th

/-- What no step of the DHCP thread changes. -/
structure DhcpFrame (s t : Process) : Prop where
  utils : t.utils = s.utils
  cancel : t.cancel = s.cancel
  main : t.main = s.main
  adv : t.adv = s.adv
  sent : t.sent = s.sent
  started : s.dhcp ≠ .absent

/-- What no step of an advertising thread changes. -/
structure AdvFrame (th : AdvThread) (s t : Process) : Prop where
  sharedPrefix : t.sharedPrefix = s.sharedPrefix
  cancelDhcp : t.cancelDhcp = s.cancelDhcp
  main : t.main = s.main
  dhcp : t.dhcp = s.dhcp
  others : ∀ j, j ≠ th → t.adv j = s.adv j
  started : s.adv th ≠ .absent

namespace ProcessLemmas

variable {useDhcp : Bool} {s t : Process} {th : AdvThread}

theorem afterCall_cases (s : Process) (c : DhcpCall) :
    (c.ret = none ∧ s.afterCall c = { s with exited := true }) ∨
    (c.ret = some 0 ∧ s.afterCall c = { s with dhcp := .copying c.prefixResult allPrefixFields }) ∨
    (c.ret.isSome ∧ s.afterCall c = { s with dhcp := .convertPreferred none }) := by
  unfold Process.afterCall
  split
  · next hret => exact .inl ⟨hret, rfl⟩
  · next hret => exact .inr (.inl ⟨hret, rfl⟩)
  · next hret => exact .inr (.inr ⟨by rw [hret]; rfl, rfl⟩)

theorem dhcp_frame {e : DhcpEvent} (h : DhcpStep s e t) : DhcpFrame s t := by
  have hstarted {pc : DhcpAt} (hpc : s.dhcp = pc) (hne : pc ≠ .absent) : s.dhcp ≠ .absent :=
    hpc ▸ hne
  cases h with
  | call env handler m buffer bufferLength c hpc =>
    have hne := hstarted hpc nofun
    rcases afterCall_cases s c with ⟨_, heq⟩ | ⟨_, heq⟩ | ⟨_, heq⟩
    all_goals
      rw [heq]
      exact ⟨rfl, rfl, rfl, rfl, rfl, hne⟩
  | setUp hpc | socketFails hpc | setUpFails hpc | enter hpc | leave hpc | lock hpc
  | copy _ _ _ hpc | copied _ hpc | convertPreferred _ hpc | convertValid _ hpc | setLength _ hpc
  | unlock hpc => exact ⟨rfl, rfl, rfl, rfl, rfl, hstarted hpc nofun⟩

theorem adv_goto_of_ne (s : Process) {j : AdvThread} (pc : AdvAt) (hj : j ≠ th) :
    (s.goto th pc).adv j = s.adv j := by
  show Function.update s.adv th pc j = s.adv j
  rw [Function.update_of_ne hj]

theorem adv_goto_self (s : Process) (th : AdvThread) (pc : AdvAt) : (s.goto th pc).adv th = pc := by
  show Function.update s.adv th pc th = pc
  rw [Function.update_self]

theorem adv_frame {e : AdvEvent} (h : AdvStep th s e t) : AdvFrame th s t := by
  have hstarted {pc : AdvAt} (hpc : s.adv th = pc) (hne : pc ≠ .absent) : s.adv th ≠ .absent :=
    hpc ▸ hne
  cases h with
  | exits hpc | dies _ _ _ hpc => exact ⟨rfl, rfl, rfl, rfl, fun _ _ => rfl, hstarted hpc nofun⟩
  | setUp hpc | setUpFails hpc | enter hpc | leave hpc | getLinkLocalAddress _ _ hpc
  | receive _ _ _ _ _ _ hpc | getHardwareAddressByName _ _ _ _ hpc | lock _ hpc | read _ _ _ _ hpc
  | send _ _ _ _ _ hpc | unlock hpc =>
    exact ⟨rfl, rfl, rfl, rfl, fun j hj => adv_goto_of_ne s _ hj, hstarted hpc nofun⟩

/-! ### What a step does to the mutex -/

theorem dhcp_section {e : DhcpEvent} (h : DhcpStep s e t) :
    SectionStep s.mutex t.mutex .requestDhcpPrefix s.Inside t.Inside := by
  have hsame {pc : DhcpAt} (hpc : s.dhcp = pc) (hiff : t.dhcp.Inside ↔ pc.Inside) :
      t.Inside .requestDhcpPrefix ↔ s.Inside .requestDhcpPrefix := by
    rw [Process.Inside, Process.Inside, hpc]
    exact hiff
  cases h with
  | lock hpc hfree => exact .lock hfree rfl trivial
  | unlock hpc =>
    refine .unlock ?_ rfl id
    rw [Process.Inside, hpc]
    trivial
  | call env handler m buffer bufferLength c hpc =>
    rcases afterCall_cases s c with ⟨_, heq⟩ | ⟨_, heq⟩ | ⟨_, heq⟩
    · rw [heq]
      exact .keep rfl Iff.rfl
    · rw [heq] at hsame ⊢
      exact .keep rfl (hsame hpc Iff.rfl)
    · rw [heq] at hsame ⊢
      exact .keep rfl (hsame hpc Iff.rfl)
  | setUp hpc | socketFails hpc | setUpFails hpc | enter hpc | leave hpc | copy _ _ _ hpc
  | copied _ hpc | convertPreferred _ hpc | convertValid _ hpc | setLength _ hpc =>
    exact .keep rfl (hsame hpc Iff.rfl)

theorem adv_section {e : AdvEvent} (h : AdvStep th s e t) :
    SectionStep s.mutex t.mutex (.adv th) s.Inside t.Inside := by
  have hgoto {pc : AdvAt} (pc' : AdvAt) (hpc : s.adv th = pc) (hiff : pc'.Inside ↔ pc.Inside) :
      (s.goto th pc').Inside (.adv th) ↔ s.Inside (.adv th) := by
    rw [Process.Inside, Process.Inside, adv_goto_self, hpc]
    exact hiff
  have hlink (srcAddr : In6Addr) : ¬ (afterLink srcAddr th).Inside := by
    cases th <;> exact id
  cases h with
  | lock a hpc hfree =>
    refine .lock hfree rfl ?_
    show ((s.goto th _).adv th).Inside
    rw [adv_goto_self]
    trivial
  | unlock hpc =>
    refine .unlock ?_ rfl ?_
    · rw [Process.Inside, hpc]
      trivial
    · show ¬ ((s.goto th _).adv th).Inside
      rw [adv_goto_self]
      exact id
  | exits | dies => exact .keep rfl Iff.rfl
  | getLinkLocalAddress connect getsockname hpc =>
    exact .keep rfl (hgoto _ hpc (iff_of_false (hlink _) id))
  | setUp hpc | setUpFails hpc | enter hpc | leave hpc | receive _ _ _ _ _ _ hpc
  | getHardwareAddressByName _ _ _ _ hpc | read _ _ _ _ hpc | send _ _ _ _ _ hpc =>
    exact .keep rfl (hgoto _ hpc Iff.rfl)

theorem dhcp_absent {pc : MainAt} (hcreated : s.Created) (hpc : s.main = pc)
    (hnot : ¬ pc.CreatedDhcp) : s.dhcp = .absent := by
  by_contra hne
  exact hnot (hpc ▸ hcreated.dhcp hne)

theorem adv_absent {pc : MainAt} (hcreated : s.Created) (hpc : s.main = pc)
    (hnot : ¬ pc.Created th) : s.adv th = .absent := by
  by_contra hne
  exact hnot (hpc ▸ hcreated.adv th hne)

/-- `main` creates threads that are not yet there, and those are outside. -/
theorem main_inside {e : MainEvent} (hcreated : s.Created) (h : MainStep useDhcp s e t)
    (i : Worker) : t.Inside i ↔ s.Inside i := by
  have hgoto {pc : MainAt} (hpc : s.main = pc) (th : AdvThread) (hnot : ¬ pc.Created th)
      (j : AdvThread) : ((s.goto th .setUp).adv j).Inside ↔ (s.adv j).Inside := by
    by_cases hj : j = th
    · subst hj
      rw [adv_goto_self, adv_absent hcreated hpc hnot]
      exact Iff.rfl
    · rw [adv_goto_of_ne s _ hj]
  cases h with
  | init | register | seePrefix | returns => exact Iff.rfl
  | createDhcp hpc =>
    cases i with
    | requestDhcpPrefix =>
      rw [Process.Inside, Process.Inside, dhcp_absent hcreated hpc id]
      exact Iff.rfl
    | adv => exact Iff.rfl
  | createRa hpc =>
    cases i with
    | requestDhcpPrefix => exact Iff.rfl
    | adv j => exact hgoto hpc .sendRouterAdv id j
  | createRs hpc =>
    cases i with
    | requestDhcpPrefix => exact Iff.rfl
    | adv j => exact hgoto hpc .listenRouterSolicit id j

theorem created_init (p : DhOptIAPrefix) : (Process.init p).Created :=
  ⟨fun hne => absurd rfl hne, fun _ hne => absurd rfl hne⟩

theorem created_goto (hcreated : s.Created) {main : MainAt} (th : AdvThread) (pc : AdvAt)
    (hth : main.Created th) (hmono : ∀ j, s.main.Created j → main.Created j) (j : AdvThread)
    (hne : (s.goto th pc).adv j ≠ .absent) : main.Created j := by
  by_cases hj : j = th
  · rwa [hj]
  · rw [adv_goto_of_ne s pc hj] at hne
    exact hmono j (hcreated.adv j hne)

theorem created_step {e : ProcessEvent} (hcreated : s.Created) (h : Process.Step useDhcp s e t) :
    t.Created := by
  cases h with
  | signal => exact ⟨hcreated.dhcp, hcreated.adv⟩
  | dhcp _ h =>
    have hframe := dhcp_frame h
    refine ⟨fun _ => ?_, ?_⟩
    · rw [hframe.main]
      exact hcreated.dhcp hframe.started
    · rw [hframe.main, hframe.adv]
      exact hcreated.adv
  | adv th _ h =>
    have hframe := adv_frame h
    refine ⟨?_, fun j hne => ?_⟩
    · rw [hframe.main, hframe.dhcp]
      exact hcreated.dhcp
    · rw [hframe.main]
      by_cases hj : j = th
      · rw [hj]
        exact hcreated.adv th hframe.started
      · rw [hframe.others j hj] at hne
        exact hcreated.adv j hne
  | main _ h =>
    have hdhcp := hcreated.dhcp
    have hadv := hcreated.adv
    cases h with
    | init env hpc =>
      rw [hpc] at hdhcp hadv
      exact ⟨hdhcp, hadv⟩
    | register hpc =>
      rw [hpc] at hdhcp hadv
      exact ⟨fun hne => absurd (hdhcp hne) id, fun th hne => absurd (hadv th hne) id⟩
    | createDhcp hpc =>
      rw [hpc] at hadv
      exact ⟨fun _ => trivial, hadv⟩
    | seePrefix hpc =>
      rw [hpc] at hadv
      exact ⟨fun _ => trivial, hadv⟩
    | createRa hpc =>
      refine ⟨fun _ => trivial, created_goto hcreated .sendRouterAdv .setUp trivial fun j hj => ?_⟩
      rw [hpc] at hj
      exact absurd hj id
    | createRs hpc =>
      refine ⟨fun _ => trivial, created_goto hcreated .listenRouterSolicit .setUp trivial ?_⟩
      exact fun _ _ => trivial
    | returns => exact ⟨fun _ => trivial, fun _ _ => trivial⟩

theorem guarded_init (p : DhOptIAPrefix) :
    Guarded (Process.init p).mutex (Process.init p).Inside := by
  intro i
  cases i with
  | requestDhcpPrefix => exact iff_of_false id nofun
  | adv => exact iff_of_false id nofun

/-- **Mutual exclusion**: the owner of the mutex is the thread in the section. -/
theorem guarded_step {e : ProcessEvent} (hcreated : s.Created) (hguarded : Guarded s.mutex s.Inside)
    (h : Process.Step useDhcp s e t) : Guarded t.mutex t.Inside := by
  cases h with
  | signal => exact hguarded
  | main _ h =>
    have hmutex : t.mutex = s.mutex := by
      cases h <;> rfl
    rw [hmutex]
    exact fun i => (main_inside hcreated h i).trans (hguarded i)
  | dhcp _ h =>
    refine hguarded.step (dhcp_section h) fun i hi => ?_
    cases i with
    | requestDhcpPrefix => exact absurd rfl hi
    | adv => rw [Process.Inside, Process.Inside, (dhcp_frame h).adv]
  | adv th _ h =>
    refine hguarded.step (adv_section h) fun i hi => ?_
    cases i with
    | requestDhcpPrefix => rw [Process.Inside, Process.Inside, (adv_frame h).dhcp]
    | adv j =>
      have hj : j ≠ th := fun heq => hi (heq ▸ rfl)
      rw [Process.Inside, Process.Inside, (adv_frame h).others j hj]

/-- Which threads there are, and who has the mutex, in every state that is reached. -/
theorem reached {es : List ProcessEvent} {p : DhOptIAPrefix}
    (h : Run (Process.Step useDhcp) (Process.init p) es s) :
    s.Created ∧ Guarded s.mutex s.Inside :=
  h.invariant (I := fun s => s.Created ∧ Guarded s.mutex s.Inside)
    (fun _ _ _ hI hstep => ⟨created_step hI.1 hstep, guarded_step hI.1 hI.2 hstep⟩)
    ⟨created_init p, guarded_init p⟩

end ProcessLemmas

open ProcessLemmas

/-- The thread whose step it is. -/
def ProcessEvent.worker : ProcessEvent → Option Worker
  | .dhcp _ => some .requestDhcpPrefix
  | .adv th _ => some (.adv th)
  | .main _ | .signal _ => none

/-! ## Progress -/

/-- The steps to make up to the end of the section. -/
def DhcpAt.rank : DhcpAt → Nat
  | .calling => 10
  | .copying _ todo => todo.length + 5
  | .convertPreferred _ => 4
  | .convertValid _ => 3
  | .setLength _ => 2
  | .unlocking => 1
  | _ => 0

def AdvAt.rank : AdvAt → Nat
  | .reading _ _ todo => todo.length + 2
  | .unlocking => 1
  | _ => 0

def Process.rank (s : Process) : Worker → Nat
  | .requestDhcpPrefix => s.dhcp.rank
  | .adv th => (s.adv th).rank

theorem DhcpAt.rank_pos {pc : DhcpAt} (h : pc.Inside) : 0 < pc.rank := by
  cases pc with
  | absent | setUp | loopTop | locking | ended => exact absurd h id
  | calling | copying | convertPreferred | convertValid | setLength | unlocking =>
    exact Nat.succ_pos _

namespace ProcessLemmas

variable {useDhcp : Bool} {s t : Process} {th : AdvThread}

theorem dhcp_rank {e : DhcpEvent} (h : DhcpStep s e t) (hinside : s.dhcp.Inside) :
    t.dhcp.rank < s.dhcp.rank ∨ (t.exited = true ∧ t.dhcp = s.dhcp) := by
  cases h with
  | setUp hpc | socketFails hpc | setUpFails hpc | enter hpc | leave hpc | lock hpc =>
    rw [hpc] at hinside
    exact absurd hinside id
  | call env handler m buffer bufferLength c hpc =>
    rw [hpc]
    rcases afterCall_cases s c with ⟨_, heq⟩ | ⟨_, heq⟩ | ⟨_, heq⟩
    · rw [heq]
      exact .inr ⟨rfl, hpc⟩
    · rw [heq]
      exact .inl (Nat.lt_succ_self 9)
    · rw [heq]
      exact .inl (show 4 < 10 by decide)
  | copy f reply todo hpc hf =>
    rw [hpc]
    exact .inl (Nat.add_lt_add_right (Fields.length_without hf) 5)
  | copied reply hpc | convertPreferred reply hpc | convertValid reply hpc | setLength reply hpc
  | unlock hpc =>
    rw [hpc]
    exact .inl (Nat.lt_succ_self _)

theorem adv_rank {e : AdvEvent} (h : AdvStep th s e t) (hinside : (s.adv th).Inside) :
    (t.adv th).rank < (s.adv th).rank := by
  cases h with
  | setUp hpc | setUpFails hpc | exits hpc | enter hpc | leave hpc | getLinkLocalAddress _ _ hpc
  | receive _ _ _ _ _ _ hpc | getHardwareAddressByName _ _ _ _ hpc | dies _ _ _ hpc | lock _ hpc =>
    rw [hpc] at hinside
    exact absurd hinside id
  | read f a p todo hpc hf =>
    rw [hpc, adv_goto_self]
    exact Nat.add_lt_add_right (Fields.length_without hf) 2
  | send b m a p pkt hpc =>
    show ((s.goto th _).adv th).rank < _
    rw [hpc, adv_goto_self]
    exact Nat.lt_succ_self _
  | unlock hpc =>
    show ((s.goto th _).adv th).rank < _
    rw [hpc, adv_goto_self]
    exact Nat.lt_succ_self _

/-- Where a thread comes in, or is outside. -/
theorem dhcp_rank_outside {e : DhcpEvent} (h : DhcpStep s e t) (hinside : ¬ s.dhcp.Inside) :
    t.dhcp.rank ≤ 10 := by
  cases h with
  | setUp | socketFails | setUpFails | enter | leave => exact Nat.zero_le 10
  | lock => exact Nat.le_refl 10
  | call _ _ _ _ _ _ hpc | copy _ _ _ hpc | copied _ hpc | convertPreferred _ hpc
  | convertValid _ hpc | setLength _ hpc | unlock hpc =>
    rw [hpc] at hinside
    exact absurd trivial hinside

theorem adv_rank_outside {e : AdvEvent} (h : AdvStep th s e t) (hinside : ¬ (s.adv th).Inside) :
    (t.adv th).rank ≤ 10 := by
  have hgoto {pc : AdvAt} (hrank : pc.rank ≤ 10) : ((s.goto th pc).adv th).rank ≤ 10 := by
    rwa [adv_goto_self]
  have hlink (srcAddr : In6Addr) : (afterLink srcAddr th).rank ≤ 10 := by
    cases th <;> exact Nat.zero_le 10
  cases h with
  | setUp | setUpFails | enter | leave | receive | getHardwareAddressByName =>
    exact hgoto (Nat.zero_le 10)
  | getLinkLocalAddress => exact hgoto (hlink _)
  | lock => exact hgoto (show 6 ≤ 10 by decide)
  | exits hpc | dies _ _ _ hpc =>
    show (s.adv th).rank ≤ 10
    rw [hpc]
    exact Nat.zero_le 10
  | read _ _ _ _ hpc | send _ _ _ _ _ hpc | unlock hpc =>
    rw [hpc] at hinside
    exact absurd trivial hinside

theorem rank_main {e : MainEvent} (h : MainStep useDhcp s e t) (w : Worker) :
    t.rank w ≤ s.rank w := by
  have hgoto (th j : AdvThread) : ((s.goto th .setUp).adv j).rank ≤ (s.adv j).rank := by
    by_cases hj : j = th
    · subst hj
      rw [adv_goto_self]
      exact Nat.zero_le _
    · rw [adv_goto_of_ne s _ hj]
  cases h with
  | init | register | seePrefix | returns => exact Nat.le_refl _
  | createDhcp =>
    cases w with
    | requestDhcpPrefix => exact Nat.zero_le _
    | adv => exact Nat.le_refl _
  | createRa =>
    cases w with
    | requestDhcpPrefix => exact Nat.le_refl _
    | adv j => exact hgoto .sendRouterAdv j
  | createRs =>
    cases w with
    | requestDhcpPrefix => exact Nat.le_refl _
    | adv j => exact hgoto .listenRouterSolicit j

theorem rank_le_step {e : ProcessEvent} (hrank : ∀ w, s.rank w ≤ 10)
    (h : Process.Step useDhcp s e t) (w : Worker) : t.rank w ≤ 10 := by
  cases h with
  | signal => exact hrank w
  | main _ h => exact Nat.le_trans (rank_main h w) (hrank w)
  | dhcp _ h =>
    cases w with
    | adv j =>
      rw [Process.rank, (dhcp_frame h).adv]
      exact hrank (.adv j)
    | requestDhcpPrefix =>
      have hbefore := hrank .requestDhcpPrefix
      by_cases hinside : s.dhcp.Inside
      · rcases dhcp_rank h hinside with hlt | ⟨_, heq⟩
        · exact Nat.le_trans (Nat.le_of_lt hlt) hbefore
        · rw [Process.rank, heq]
          exact hbefore
      · exact dhcp_rank_outside h hinside
  | adv th _ h =>
    cases w with
    | requestDhcpPrefix =>
      rw [Process.rank, (adv_frame h).dhcp]
      exact hrank .requestDhcpPrefix
    | adv j =>
      by_cases hj : j = th
      · subst hj
        by_cases hinside : (s.adv j).Inside
        · exact Nat.le_trans (Nat.le_of_lt (adv_rank h hinside)) (hrank (.adv j))
        · exact adv_rank_outside h hinside
      · rw [Process.rank, (adv_frame h).others j hj]
        exact hrank (.adv j)

/-- The steps of `w` up to the end of the section, unless the process ends before. -/
def left (w : Worker) (s : Process) : Nat :=
  if s.exited then 0 else s.rank w

theorem left_le_rank (w : Worker) (s : Process) : left w s ≤ s.rank w := by
  unfold left
  split
  · exact Nat.zero_le _
  · exact Nat.le_refl _

/-- A step of the owner is one step less to make. -/
theorem left_step {e : ProcessEvent} {w : Worker} (hguarded : Guarded s.mutex s.Inside)
    (howner : s.mutex = some w) (h : Process.Step useDhcp s e t) :
    left w t ≤ left w s ∧ (e.worker = some w → left w t < left w s) := by
  have hinside := (hguarded w).mpr howner
  have hs (hover : s.exited = false) : left w s = s.rank w := by rw [left, hover]; rfl
  cases h with
  | signal => exact ⟨Nat.le_refl _, nofun⟩
  | main hover h =>
    rw [hs hover]
    exact ⟨Nat.le_trans (left_le_rank w t) (rank_main h w), nofun⟩
  | dhcp hover h =>
    rw [hs hover]
    cases w with
    | adv j =>
      rw [Process.rank, ← (dhcp_frame h).adv]
      exact ⟨left_le_rank (.adv j) t, nofun⟩
    | requestDhcpPrefix =>
      have hlt : left .requestDhcpPrefix t < s.rank .requestDhcpPrefix := by
        rcases dhcp_rank h hinside with hlt | ⟨hend, heq⟩
        · exact Nat.lt_of_le_of_lt (left_le_rank _ t) hlt
        · rw [left, hend]
          exact DhcpAt.rank_pos hinside
      exact ⟨Nat.le_of_lt hlt, fun _ => hlt⟩
  | adv th hover h =>
    rw [hs hover]
    cases w with
    | requestDhcpPrefix =>
      rw [Process.rank, ← (adv_frame h).dhcp]
      exact ⟨left_le_rank .requestDhcpPrefix t, nofun⟩
    | adv j =>
      by_cases hj : j = th
      · subst hj
        have hlt := Nat.lt_of_le_of_lt (left_le_rank (.adv j) t) (adv_rank h hinside)
        exact ⟨Nat.le_of_lt hlt, fun _ => hlt⟩
      · rw [Process.rank, ← (adv_frame h).others j hj]
        exact ⟨left_le_rank (.adv j) t, fun heq => absurd (Worker.adv.inj (Option.some.inj heq)).symm hj⟩

/-- Every call comes back, whatever it meets. -/
theorem call_enabled (env : DhcpEnv) (handler : Nat) (m : Mem) {buffer bufferLength : Nat}
    (hbuffer : BufferAt buffer bufferLength) (hpc : s.dhcp = .calling) :
    ∃ c, DhcpStep s (.call c.ret) (s.afterCall c) := by
  obtain ⟨c, hreturns, _⟩ := request_cases env handler m s.sharedPrefix hbuffer
  exact ⟨c, .call env handler m buffer bufferLength c hpc hbuffer hreturns⟩

theorem dhcp_enabled (hinside : s.dhcp.Inside) : ∃ e t, DhcpStep s e t := by
  cases hpc : s.dhcp with
  | absent | setUp | loopTop | locking | ended =>
    rw [hpc] at hinside
    exact absurd hinside id
  | calling =>
    have hbuffer : BufferAt 0x8000 1500 := ⟨by decide, by decide⟩
    obtain ⟨c, hstep⟩ := call_enabled (exReceives exPrefixReply) 3 (fun _ => 0) hbuffer hpc
    exact ⟨_, _, hstep⟩
  | copying reply todo =>
    cases todo with
    | nil => exact ⟨_, _, .copied reply hpc⟩
    | cons f todo => exact ⟨_, _, .copy f reply (f :: todo) hpc List.mem_cons_self⟩
  | convertPreferred reply => exact ⟨_, _, .convertPreferred reply hpc⟩
  | convertValid reply => exact ⟨_, _, .convertValid reply hpc⟩
  | setLength reply => exact ⟨_, _, .setLength reply hpc⟩
  | unlocking => exact ⟨_, _, .unlock hpc⟩

/-- With the arguments read, an advertisement can always be built. -/
theorem send_enabled {a : AdvAddrs} {p : DhOptIAPrefix} (hpc : s.adv th = .reading a p []) :
    ∃ pkt, AdvStep th s (.send a.dstAddr pkt)
      { s.goto th .unlocking with sent := s.sent ++ [pkt] } := by
  have hslice : (Mem.put (fun _ => 0) exAdvBlocks.macAddr a.hardwareAddr).slice exAdvBlocks.macAddr
      6 = a.hardwareAddr :=
    Mem.slice_put_of_length a.size
  exact ⟨_, .send exAdvBlocks _ a p _ hpc hslice (advertisePrefix_eq _ _ _ _ _)⟩

theorem adv_enabled (hinside : (s.adv th).Inside) : ∃ e t, AdvStep th s e t := by
  cases hpc : s.adv th with
  | absent | setUp | loopTop | link | receiving | hardware | locking | ended =>
    rw [hpc] at hinside
    exact absurd hinside id
  | unlocking => exact ⟨_, _, .unlock hpc⟩
  | reading a p todo =>
    cases todo with
    | nil =>
      obtain ⟨pkt, hstep⟩ := send_enabled hpc
      exact ⟨_, _, hstep⟩
    | cons f todo =>
      by_cases hfirst : .prefixAddr ∈ f :: todo
      · exact ⟨_, _, .read .prefixAddr a p (f :: todo) hpc hfirst fun _ => rfl⟩
      · exact ⟨_, _, .read f a p (f :: todo) hpc List.mem_cons_self fun h => absurd h hfirst⟩

end ProcessLemmas

/-! ## Sample runs -/

/-- What `utils_Init` has opened. -/
def exInit : InitEnv := ⟨some 3, 0x1000, .ok ()⟩

/-- The DHCP thread makes a pass whose `sendto` fails. `main` sees the length 64 that the
pass leaves all the same. -/
def exFailedPass : List ProcessEvent :=
  [.main (.init exInit), .main .register, .main .createDhcp, .dhcp .setUp,
    .dhcp .enter, .dhcp .lock, .dhcp (.call (some 1)), .dhcp .convertPreferred,
    .dhcp .convertValid, .dhcp (.setLength none), .dhcp .unlock, .main .seePrefix]

/-- The thread that sends to all nodes comes to lock the mutex. -/
def exLocks : List ProcessEvent :=
  [.main .createRa, .adv .sendRouterAdv .setUp, .adv .sendRouterAdv .enter,
    .adv .sendRouterAdv (.getLinkLocalAddress (.ok ()) (.ok In6Addr.zero)),
    .adv .sendRouterAdv (.getHardwareAddressByName (.ok [2, 0, 0, 0, 0, 1])),
    .adv .sendRouterAdv .lock]

/-- It reads `_prefix`. -/
def exReads (th : AdvThread) : List ProcessEvent :=
  [.adv th (.read .prefixAddr), .adv th (.read .prefixLength), .adv th (.read .validLifetime),
    .adv th (.read .preferredLifetime)]

namespace ProcessLemmas

theorem call_fails {s : Process} (hpc : s.dhcp = .calling) :
    DhcpStep s (.call (some 1)) { s with dhcp := .convertPreferred none } := by
  have hbuffer : BufferAt 0x8000 1500 := ⟨by decide, by decide⟩
  obtain ⟨c, hreturns, _, hone⟩ := request_unsent { exReceives [] with sendFails := true } 3
    (fun _ => 0) s.sharedPrefix rfl rfl
  have hstep := DhcpStep.call _ _ _ _ _ c hpc hbuffer hreturns
  rw [Process.afterCall, hone] at hstep
  exact hstep

/-- `main` is about to create the threads, and nothing hinders the first of them. -/
structure ReadyToSend (s : Process) : Prop where
  exited : s.exited = false
  main : s.main = .createRa
  mutex : s.mutex = none
  cancel : s.cancel .sendRouterAdv = false
  utils : s.utils = (utilsInit exInit Utils.init).utils

theorem exFailedPass_run : ∃ s, Run (Process.Step true) (Process.init blankPrefix) exFailedPass s ∧
    ReadyToSend s ∧ s.sent = [] :=
  ⟨_, .cons (.main rfl (.init _ rfl)) (.cons (.main rfl (.register rfl))
    (.cons (.main rfl (.createDhcp rfl)) (.cons (.dhcp rfl (.setUp rfl))
      (.cons (.dhcp rfl (.enter rfl rfl)) (.cons (.dhcp rfl (.lock rfl rfl))
        (.cons (.dhcp rfl (call_fails rfl)) (.cons (.dhcp rfl (.convertPreferred none rfl))
          (.cons (.dhcp rfl (.convertValid none rfl)) (.cons (.dhcp rfl (.setLength none rfl))
            (.cons (.dhcp rfl (.unlock rfl))
              (.single (.main rfl (.seePrefix rfl (by decide)))))))))))))),
    ⟨rfl, rfl, rfl, rfl, rfl⟩, rfl⟩

theorem exStatic_run (p : DhOptIAPrefix) : ∃ s, Run (Process.Step false) (Process.init p)
    [.main (.init exInit), .main .register] s ∧ ReadyToSend s ∧ s.sent = [] :=
  ⟨_, .cons (.main rfl (.init _ rfl)) (.single (.main rfl (.register rfl))),
    ⟨rfl, rfl, rfl, rfl, rfl⟩, rfl⟩

theorem exLocks_run {useDhcp : Bool} {s : Process} (h : ReadyToSend s) :
    ∃ t, Run (Process.Step useDhcp) s exLocks t ∧ t.exited = false ∧ t.sent = s.sent ∧
      t.main = .createRs ∧ t.mutex = some (.adv .sendRouterAdv) ∧
      ∃ a, t.adv .sendRouterAdv = .reading a blankPrefix allPrefixFields ∧
        a.dstAddr = addrAllNodesMulticast := by
  obtain ⟨p, mutex, utils, cancelDhcp, cancel, main, dhcp, adv, sent, exited⟩ := s
  obtain ⟨hover, hmain, hmutex, hcancel, hutils⟩ := h
  dsimp only at hover hmain hmutex hcancel hutils
  subst hover hmain hmutex hutils
  exact ⟨_, .cons (.main rfl (.createRa rfl)) (.cons (.adv _ rfl (.setUp rfl))
    (.cons (.adv _ rfl (.enter rfl hcancel)) (.cons (.adv _ rfl (.getLinkLocalAddress _ _ rfl))
      (.cons (.adv _ rfl (.getHardwareAddressByName _ _ _ _ rfl rfl))
        (.single (.adv _ rfl (.lock _ rfl rfl))))))), rfl, rfl, rfl, rfl, _, rfl, rfl⟩

theorem exReads_run {useDhcp : Bool} {s : Process} {th : AdvThread} {a : AdvAddrs}
    {p : DhOptIAPrefix} (hpc : s.adv th = .reading a p allPrefixFields) (hover : s.exited = false) :
    ∃ q t, Run (Process.Step useDhcp) s (exReads th) t ∧ t.adv th = .reading a q [] ∧
      t.exited = false ∧ t.sent = s.sent :=
  ⟨_, _, .cons (.adv th hover (.read .prefixAddr a p _ hpc (by decide) fun _ => rfl))
    (.cons (.adv th hover (.read .prefixLength a _ _ (adv_goto_self _ _ _) (by decide) (by decide)))
      (.cons (.adv th hover (.read .validLifetime a _ _ (adv_goto_self _ _ _) (by decide)
        (by decide)))
        (.single (.adv th hover (.read .preferredLifetime a _ _ (adv_goto_self _ _ _) (by decide)
          (by decide)))))), adv_goto_self _ _ _, hover, rfl⟩

/-- Then it sends. -/
theorem exSends_run {useDhcp : Bool} {s : Process} (h : ReadyToSend s) :
    ∃ pkt t, Run (Process.Step useDhcp) s (exLocks ++ exReads .sendRouterAdv ++
      [.adv .sendRouterAdv (.send addrAllNodesMulticast pkt)]) t ∧ t.sent = s.sent ++ [pkt] := by
  obtain ⟨t, hlocks, hover, hsent, _, _, a, hpc, hdst⟩ := @exLocks_run useDhcp s h
  obtain ⟨q, u, hreads, hpc', hover', hsent'⟩ := @exReads_run useDhcp t _ _ _ hpc hover
  obtain ⟨pkt, hsend⟩ := send_enabled hpc'
  rw [hdst] at hsend
  refine ⟨pkt, _, (hlocks.append hreads).append (.single (.adv _ hover' hsend)), ?_⟩
  rw [← hsent, ← hsent']

end ProcessLemmas

/-- **Progress.** Whoever has the mutex is the one thread in the section, can always make
a step, and makes at most ten of them before it is unlocked or the process is over. -/
theorem section_progress {useDhcp : Bool} {p : DhOptIAPrefix} {es : List ProcessEvent} {s : Process}
    {w : Worker} (hrun : Run (Process.Step useDhcp) (Process.init p) es s)
    (howner : s.mutex = some w) :
    (∀ i, s.Inside i ↔ i = w) ∧
    (s.exited = false → ∃ e t, e.worker = some w ∧ Process.Step useDhcp s e t) ∧
    ∀ fs t, Run (Run.While (fun s _ => s.mutex = some w) (Process.Step useDhcp)) s fs t →
      (fs.countP fun e => e.worker = some w) ≤ 10 := by
  obtain ⟨hcreated, hguarded⟩ := reached hrun
  have hinside := (hguarded w).mpr howner
  refine ⟨fun i => ⟨fun hi => hguarded.unique hi hinside, fun hi => hi ▸ hinside⟩, fun hover => ?_,
    fun fs t hmore => ?_⟩
  · cases w with
    | requestDhcpPrefix =>
      obtain ⟨e, t, hstep⟩ := dhcp_enabled hinside
      exact ⟨.dhcp e, t, rfl, .dhcp hover hstep⟩
    | adv th =>
      obtain ⟨e, t, hstep⟩ := adv_enabled hinside
      exact ⟨.adv th e, t, rfl, .adv th hover hstep⟩
  · have hrank : s.rank w ≤ 10 := hrun.invariant (I := fun s => ∀ w, s.rank w ≤ 10)
      (fun _ _ _ hI hstep => rank_le_step hI hstep) (fun w => by cases w <;> exact Nat.zero_le 10) w
    have hcount := hmore.count_add_le (I := fun s => s.Created ∧ Guarded s.mutex s.Inside)
      (p := fun e => e.worker = some w) (f := left w)
      (fun _ _ _ hI hstep => ⟨created_step hI.1 hstep.2, guarded_step hI.1 hI.2 hstep.2⟩)
      (fun _ _ _ hI hstep => (left_step hI.2 hstep.1 hstep.2).1)
      (fun _ _ _ hI hstep hw => (left_step hI.2 hstep.1 hstep.2).2 (of_decide_eq_true hw))
      ⟨hcreated, hguarded⟩
    have hleft := left_le_rank w s
    omega

/-- In static mode, the first thread to lock the mutex is alone in the section. -/
theorem exLocks_alone : ∃ s : Process, s.mutex = some (.adv .sendRouterAdv) ∧
    ∀ i, s.Inside i ↔ i = .adv .sendRouterAdv := by
  obtain ⟨s, hstatic, hready, _⟩ := exStatic_run (staticPrefix exDelegatedAddr 56)
  obtain ⟨t, hlocks, _, _, _, howner, _⟩ := exLocks_run hready
  exact ⟨t, howner, (section_progress (hstatic.append hlocks) howner).1⟩

end Pdrad
