import Pdrad.Sockets

/-!
# Whose socket is it (`test.c`, `utils.c`)

The advertising threads work on their own sockets. The DHCP thread closes its socket with
the first request that comes back, and `utils` closes its own wherever something fails;
both keep the number.

1. `dhcp_wellUsed_iff`, `utils_wellUsed_iff`: when each of the two uses its descriptor only
   while it is open.
2. `sockets_isolated_iff`: nobody works on a socket of someone else, in any interleaving
   of the system calls, exactly when both leave their descriptors alone once closed.
-/

namespace Pdrad

open HandleOp Descriptors ProcessLemmas SocketsLemmas

/-- The table that the process starts with. -/
def startTable (opened : List Nat) : Table SocketUser :=
  fun n => if n ∈ opened then some .outside else none

/-- Behind an event that meets `closes`, the user makes no system call any more. -/
def SilentBehind (i : SocketUser) (closes : ProcessEvent → Prop) (es : List SocketEvent) : Prop :=
  ∀ xs e ys, es = xs ++ e :: ys → closes e.1 → opsOf i (socketOps ys) = []

/-- A call of `requestAndReceiveDhcp` that comes back has closed its descriptor. -/
def ClosesHandler : ProcessEvent → Prop
  | .dhcp (.call ret) => ret.isSome
  | _ => False

/-- The calls of `utils` that close `utils_handler`. -/
def ClosesUtils : ProcessEvent → Prop
  | .main (.init env) => env.setsockopt ≠ .ok ()
  | .signal _ => True
  | .adv _ (.getLinkLocalAddress connect getsockname) =>
    ¬ (connect = .ok () ∧ ∃ addr, getsockname = .ok addr)
  | _ => False

/-! ## The DHCP thread -/

/-- What the DHCP thread holds, as long as no call has come back. -/
def DhcpAt.Opened (k : Handlers) (hs : List Nat) : DhcpAt → Prop
  | .absent | .setUp | .ended => hs = []
  | .loopTop | .locking | .calling => hs = [k.handler]
  | _ => False

/-- The thread has left its set-up. -/
def DhcpAt.Started : DhcpAt → Prop
  | .absent | .setUp => False
  | _ => True

namespace SocketsLemmas

/-- A user whose first event that `closes` leaves it with nothing to release, and which
opens nothing behind it. -/
theorem wellUsed_iff_silentBehind {i : SocketUser} {closes : ProcessEvent → Prop}
    {es : List SocketEvent}
    (hopen : (∀ e ∈ es, ¬ closes e.1) → WellUsed [] (opsOf i (socketOps es)))
    (hclosed : ∀ xs e ys, es = xs ++ e :: ys → (∀ x ∈ xs, ¬ closes x.1) → closes e.1 →
      WellUsed [] (opsOf i (socketOps (xs ++ [e]))) ∧
        held [] (opsOf i (socketOps (xs ++ [e]))) = [] ∧
        ∀ op ∈ opsOf i (socketOps ys), ¬ op.Acquires) :
    WellUsed [] (opsOf i (socketOps es)) ↔ SilentBehind i closes es := by
  refine wellUsed_iff_silent (f := fun es => opsOf i (socketOps es)) (fun xs ys => ?_) hopen hclosed
  rw [socketOps, List.flatMap_append, opsOf_append]
  rfl

open DhcpThreadLemmas

variable {useDhcp : Bool} {s t : Process} {k k' : Handlers}

theorem handler_other {e : ProcessEvent} {o : List (SocketUser × HandleOp Nat)}
    (h : SocketCalls s t k e o k') (he : e.worker ≠ some .requestDhcpPrefix) :
    k'.handler = k.handler := by
  cases h with
  | main | signal => rfl
  | dhcp => exact absurd rfl he
  | adv _ hcalls => cases hcalls <;> rfl

theorem requestDhcpPrefixSetUp_spec (env : ThreadEnv) :
    WellUsed [] ((requestDhcpPrefixSetUp env).2.map SysCall.op) ∧
      held [] ((requestDhcpPrefixSetUp env).2.map SysCall.op) =
        (requestDhcpPrefixSetUp env).1.toList := by
  unfold requestDhcpPrefixSetUp
  cases env.socket with
  | none => exact ⟨trivial, rfl⟩
  | some fd =>
    cases env.setsockoptWorks <;> cases env.bindWorks <;>
      simp [SysCall.op, WellUsed, Allowed, held, heldAfter]

/-- A call that comes back closes the descriptor, and one that does not only uses it. -/
theorem call_ops {env : DhcpEnv} {m : Mem} {handler buffer bufferLength : Nat}
    {p : DhOptIAPrefix} {c : DhcpCall} (hbuffer : BufferAt buffer bufferLength)
    (h : Returns (requestAndReceiveDhcp env handler m buffer bufferLength p) c) :
    (c.ret = none ∧ ∀ op ∈ c.calls.map SysCall.op, op = .use handler) ∨
      ∃ uses, c.ret.isSome ∧ c.calls.map SysCall.op = uses ++ [.release handler] ∧
        ∀ op ∈ uses, op = .use handler := by
  obtain ⟨c', h', hresult⟩ := request_cases env handler m p hbuffer
  obtain rfl := h.unique h'
  rcases request_trace hresult with ⟨_, hnone, hcalls⟩ | ⟨transId, _, hnone, hcalls⟩ |
    ⟨transId, middle, _, hsome, hmiddle, hcalls⟩
  · exact .inl ⟨hnone, by simp [hcalls]⟩
  · exact .inl ⟨hnone, by simp [hcalls, sendSolicit, SysCall.op]⟩
  · refine .inr ⟨(sendSolicit handler transId :: middle).map SysCall.op, hsome, ?_, ?_⟩
    · simp [hcalls, SysCall.op]
    · rcases hmiddle with rfl | rfl
      · simp [sendSolicit, SysCall.op]
      · simp [sendSolicit, SysCall.op]

theorem dhcpCalls_call {ret : Option Int} {ops : List (HandleOp Nat)}
    (h : DhcpCalls s t k (.call ret) ops k') : k' = k ∧
      ((ret = none ∧ t.dhcp = s.dhcp ∧ ∀ op ∈ ops, op = .use k.handler) ∨
        ∃ uses, ret.isSome ∧ ops = uses ++ [.release k.handler] ∧ ∀ op ∈ uses, op = .use k.handler) := by
  cases h with
  | @call env m buffer bufferLength c hbuffer hreturns heq =>
    refine ⟨rfl, ?_⟩
    rcases call_ops hbuffer hreturns with ⟨hnone, huses⟩ | hcloses
    · refine .inl ⟨hnone, ?_, huses⟩
      rw [heq, Process.afterCall, hnone]
    · exact .inr hcloses
  | silent he => exact absurd he id

/-- A step of the thread before any call has come back. -/
theorem dhcp_opened {e : DhcpEvent} {ops : List (HandleOp Nat)} {hs : List Nat}
    (hs' : s.dhcp.Opened k hs) (h : DhcpStep s e t) (hcalls : DhcpCalls s t k e ops k') :
    WellUsed hs ops ∧ (ClosesHandler (.dhcp e) → held hs ops = []) ∧
      (¬ ClosesHandler (.dhcp e) → t.dhcp.Opened k' (held hs ops)) := by
  cases h with
  | setUp hpc =>
    rw [hpc] at hs'
    obtain rfl : hs = [] := hs'
    cases hcalls with
    | @setUp env fd calls hsetUp =>
      have hspec := requestDhcpPrefixSetUp_spec env
      rw [hsetUp] at hspec
      exact ⟨hspec.1, fun hcloses => absurd hcloses id, fun _ => hspec.2⟩
    | silent he => exact absurd he id
  | socketFails hpc =>
    rw [hpc] at hs'
    obtain rfl : hs = [] := hs'
    cases hcalls with
    | @socketFails env calls _ hsetUp =>
      have hspec := requestDhcpPrefixSetUp_spec env
      rw [hsetUp] at hspec
      exact ⟨hspec.1, fun hcloses => absurd hcloses id, fun _ => hspec.2⟩
    | silent he => exact absurd he id
  | setUpFails hpc =>
    rw [hpc] at hs'
    obtain rfl : hs = [] := hs'
    cases hcalls with
    | @setUpFails env calls _ hsetUp =>
      have hspec := requestDhcpPrefixSetUp_spec env
      rw [hsetUp] at hspec
      exact ⟨hspec.1, fun hcloses => absurd hcloses id, fun _ => hspec.2⟩
    | silent he => exact absurd he id
  | leave hpc =>
    rw [hpc] at hs'
    obtain rfl : hs = [k.handler] := hs'
    cases hcalls with
    | leave =>
      exact ⟨⟨List.mem_cons_self, trivial⟩, fun hcloses => absurd hcloses id,
        fun _ => List.erase_cons_head _ _⟩
    | silent he => exact absurd he id
  | enter hpc | lock hpc =>
    rw [hpc] at hs'
    cases hcalls with
    | silent => exact ⟨trivial, fun hcloses => absurd hcloses id, fun _ => hs'⟩
  | copy f reply todo hpc | copied reply hpc | convertPreferred reply hpc | convertValid reply hpc
  | setLength reply hpc | unlock hpc =>
    rw [hpc] at hs'
    exact absurd hs' id
  | call env handler m buffer bufferLength c hpc =>
    rw [hpc] at hs'
    obtain rfl : hs = [k.handler] := hs'
    obtain ⟨rfl, ⟨hnone, hsame, huses⟩ | ⟨uses, hsome, rfl, huses⟩⟩ := dhcpCalls_call hcalls
    · obtain ⟨hused, hheld⟩ := wellUsed_uses fun op hop =>
        ⟨_, List.mem_singleton_self _, huses op hop⟩
      rw [hnone, hheld, hsame, hpc]
      exact ⟨hused, nofun, fun _ => rfl⟩
    · obtain ⟨hused, hheld⟩ := wellUsed_uses fun op hop =>
        ⟨_, List.mem_singleton_self _, huses op hop⟩
      rw [wellUsed_append, held_append, hheld]
      exact ⟨⟨hused, List.mem_singleton_self _, trivial⟩, fun _ => List.erase_cons_head _ _,
        fun hnot => absurd hsome hnot⟩

theorem opened_handler {pc : DhcpAt} {hs : List Nat} (h : k'.handler = k.handler) :
    pc.Opened k' hs ↔ pc.Opened k hs := by
  unfold DhcpAt.Opened
  rw [h]

theorem dhcp_created {e : MainEvent} (hcreated : s.Created) (h : MainStep useDhcp s e t) :
    t.dhcp = s.dhcp ∨ (s.dhcp = .absent ∧ t.dhcp = .setUp) := by
  cases h with
  | init | register | seePrefix | createRa | createRs | returns => exact .inl rfl
  | createDhcp hpc => exact .inr ⟨dhcp_absent hcreated hpc id, rfl⟩

/-- A step of the process before any call has come back. -/
theorem opened_step_dhcp {e : SocketEvent} {hs : List Nat} (hcreated : s.Created)
    (hs' : s.dhcp.Opened k hs) (h : SocketStep useDhcp (s, k) e (t, k')) :
    WellUsed hs (opsOf (.worker .requestDhcpPrefix) e.2) ∧
      (ClosesHandler e.1 → held hs (opsOf (.worker .requestDhcpPrefix) e.2) = []) ∧
      (¬ ClosesHandler e.1 →
        t.dhcp.Opened k' (held hs (opsOf (.worker .requestDhcpPrefix) e.2))) := by
  obtain ⟨e, o⟩ := e
  obtain ⟨hstep, hcalls⟩ := h
  have hother (he : e.worker ≠ some .requestDhcpPrefix) (hcloses : ¬ ClosesHandler e)
      (hpc : t.dhcp = s.dhcp ∨ (s.dhcp = .absent ∧ t.dhcp = .setUp)) :
      WellUsed hs (opsOf (.worker .requestDhcpPrefix) o) ∧
        (ClosesHandler e → held hs (opsOf (.worker .requestDhcpPrefix) o) = []) ∧
        (¬ ClosesHandler e →
          t.dhcp.Opened k' (held hs (opsOf (.worker .requestDhcpPrefix) o))) := by
    rw [opsOf_other hcalls he]
    refine ⟨trivial, fun h => absurd h hcloses, fun _ => ?_⟩
    rw [opened_handler (handler_other hcalls he)]
    rcases hpc with hsame | ⟨habsent, hsetUp⟩
    · rwa [hsame]
    · rw [habsent] at hs'
      rw [hsetUp]
      exact hs'
  cases hstep with
  | main _ h => exact hother nofun id (dhcp_created hcreated h)
  | signal => exact hother nofun id (.inl rfl)
  | dhcp _ h => exact dhcp_opened hs' h (dhcpCalls_of_step hcalls)
  | adv _ _ h => exact hother nofun id (.inl (adv_frame h).dhcp)

theorem dhcp_open {es : List SocketEvent} {p : DhOptIAPrefix} {y : Process × Handlers}
    (hrun : Run (SocketStep useDhcp) (Process.init p, k) es y)
    (hnone : ∀ e ∈ es, ¬ ClosesHandler e.1) :
    y.1.Created ∧ WellUsed [] (opsOf (.worker .requestDhcpPrefix) (socketOps es)) ∧
      y.1.dhcp.Opened y.2 (held [] (opsOf (.worker .requestDhcpPrefix) (socketOps es))) := by
  induction hrun with
  | nil => exact ⟨created_init p, trivial, rfl⟩
  | snoc _ hlast ih =>
    obtain ⟨hbefore, hnot⟩ := List.forall_mem_append.mp hnone
    obtain ⟨hcreated, hused, hopened⟩ := ih hbefore
    obtain ⟨hused', _, hopened'⟩ := opened_step_dhcp hcreated hopened hlast
    rw [socketOps_snoc, opsOf_append, wellUsed_append, held_append]
    exact ⟨created_step hcreated hlast.1, ⟨hused, hused'⟩, hopened' (hnot _ List.mem_cons_self)⟩

/-! ### Behind the first call -/

theorem started_dhcp {e : DhcpEvent} (h : DhcpStep s e t) : t.dhcp.Started := by
  cases h with
  | call _ _ _ _ _ c hpc =>
    rcases afterCall_cases s c with ⟨_, heq⟩ | ⟨_, heq⟩ | ⟨_, heq⟩
    · rw [heq]
      show s.dhcp.Started
      rw [hpc]
      trivial
    · rw [heq]
      trivial
    · rw [heq]
      trivial
  | setUp | socketFails | setUpFails | enter | leave | lock | copy | copied | convertPreferred
  | convertValid | setLength | unlock => trivial

theorem dhcp_acquires {e : DhcpEvent} {ops : List (HandleOp Nat)} (hstarted : s.dhcp.Started)
    (h : DhcpStep s e t) (hcalls : DhcpCalls s t k e ops k') : ∀ op ∈ ops, ¬ op.Acquires := by
  have hsetUp (hpc : s.dhcp = .setUp) : False := by rwa [hpc] at hstarted
  cases e with
  | setUp => cases h with | setUp hpc => exact (hsetUp hpc).elim
  | socketFails => cases h with | socketFails hpc => exact (hsetUp hpc).elim
  | setUpFails => cases h with | setUpFails hpc => exact (hsetUp hpc).elim
  | leave =>
    cases hcalls with
    | leave => simp [HandleOp.Acquires]
    | silent he => exact absurd he id
  | call ret =>
    obtain ⟨_, ⟨_, _, huses⟩ | ⟨uses, _, rfl, huses⟩⟩ := dhcpCalls_call hcalls
    · intro op hop
      rw [huses op hop]
      exact id
    · intro op hop
      rcases List.mem_append.mp hop with hop | hop
      · rw [huses op hop]
        exact id
      · rw [List.mem_singleton.mp hop]
        exact id
  | enter | lock | copy | copied | convertPreferred | convertValid | setLength | unlock =>
    cases hcalls with
    | silent => exact fun op hop => nomatch hop

/-- Once started, the thread opens nothing any more. -/
theorem dhcp_run_acquires {es : List SocketEvent} {y : Process × Handlers}
    (hcreated : s.Created) (hstarted : s.dhcp.Started)
    (hrun : Run (SocketStep useDhcp) (s, k) es y) :
    (y.1.Created ∧ y.1.dhcp.Started) ∧
      ∀ op ∈ opsOf (.worker .requestDhcpPrefix) (socketOps es), ¬ op.Acquires := by
  induction hrun with
  | nil => exact ⟨⟨hcreated, hstarted⟩, fun _ hop => nomatch hop⟩
  | @snoc es e y z _ hlast ih =>
    obtain ⟨⟨hcreated, hstarted⟩, hnone⟩ := ih
    obtain ⟨s, k⟩ := y
    obtain ⟨t, k'⟩ := z
    obtain ⟨e, o⟩ := e
    obtain ⟨hstep, hcalls⟩ := hlast
    rw [socketOps_snoc, opsOf_append, List.forall_mem_append]
    refine ⟨⟨created_step hcreated hstep, ?_⟩, hnone, ?_⟩
    · cases hstep with
      | main _ h =>
        rcases dhcp_created hcreated h with hsame | ⟨habsent, _⟩
        · rwa [hsame]
        · rw [habsent] at hstarted
          exact absurd hstarted id
      | signal => exact hstarted
      | dhcp _ h => exact started_dhcp h
      | adv _ _ h => rwa [(adv_frame h).dhcp]
    · have hother (he : e.worker ≠ some .requestDhcpPrefix) :
          ∀ op ∈ opsOf (.worker .requestDhcpPrefix) o, ¬ op.Acquires := by
        rw [opsOf_other hcalls he]
        exact fun op hop => nomatch hop
      cases hstep with
      | dhcp _ h => exact dhcp_acquires hstarted h (dhcpCalls_of_step hcalls)
      | main | signal | adv => exact hother nofun

/-- The first request that comes back leaves it with nothing. -/
theorem dhcp_closed {es fs : List SocketEvent} {e : SocketEvent} {p : DhOptIAPrefix}
    {y : Process × Handlers}
    (hrun : Run (SocketStep useDhcp) (Process.init p, k) (es ++ e :: fs) y)
    (hnone : ∀ x ∈ es, ¬ ClosesHandler x.1) (hcloses : ClosesHandler e.1) :
    WellUsed [] (opsOf (.worker .requestDhcpPrefix) (socketOps (es ++ [e]))) ∧
      held [] (opsOf (.worker .requestDhcpPrefix) (socketOps (es ++ [e]))) = [] ∧
      ∀ op ∈ opsOf (.worker .requestDhcpPrefix) (socketOps fs), ¬ op.Acquires := by
  obtain ⟨⟨s, k⟩, ⟨t, k'⟩, hfirst, hstep, hrest⟩ := hrun.split_cons
  obtain ⟨hcreated, hused, hopened⟩ := dhcp_open hfirst hnone
  obtain ⟨hused', hheld, _⟩ := opened_step_dhcp hcreated hopened hstep
  rw [socketOps_snoc, opsOf_append, wellUsed_append, held_append]
  have hstarted : t.dhcp.Started := by
    obtain ⟨e, o⟩ := e
    obtain ⟨hstep, _⟩ := hstep
    cases hstep with
    | dhcp _ h => exact started_dhcp h
    | main | signal | adv => exact absurd hcloses id
  exact ⟨⟨hused, hused'⟩, hheld hcloses,
    (dhcp_run_acquires (created_step hcreated hstep.1) hstarted hrest).2⟩

/-- **The DHCP thread** uses its descriptor while it is open exactly when it leaves it
alone behind the first call that comes back. -/
theorem dhcp_wellUsed_iff {es : List SocketEvent} {p : DhOptIAPrefix} {y : Process × Handlers}
    (hrun : Run (SocketStep useDhcp) (Process.init p, k) es y) :
    WellUsed [] (opsOf (.worker .requestDhcpPrefix) (socketOps es)) ↔
      SilentBehind (.worker .requestDhcpPrefix) ClosesHandler es := by
  refine wellUsed_iff_silentBehind (fun hnone => (dhcp_open hrun hnone).2.1) ?_
  rintro xs e ys rfl hnone hcloses
  exact dhcp_closed hrun hnone hcloses

end SocketsLemmas

/-! ## The module `utils` -/

/-- There is no descriptor. -/
structure Utils.Idle (u : Utils) : Prop where
  handler : u.handler = -1
  fds : u.fds = []

/-- What was opened has been closed. -/
structure Utils.Closed (u : Utils) : Prop where
  used : WellUsed [] u.fds
  held : held [] u.fds = []

/-- The module as `main` has left it or not yet touched it, as long as nothing has been
closed. -/
def UtilsOpen (s : Process) : Prop :=
  (s.main = .init ∧ s.utils = Utils.init) ∨
    (s.main ≠ .init ∧ (s.utils.Idle ∨ ∃ fd block, s.utils.Holding fd block))

/-- From `u` to `u'`, descriptors have been used and closed only. -/
def Utils.Extends (u u' : Utils) : Prop :=
  ∃ us : List (HandleOp Int), u'.fds = u.fds ++ us ∧ ∀ op ∈ us, ¬ op.Acquires

namespace Utils

variable {u : Utils}

theorem onRequest_fds (u : Utils) (op : Nat → HandleOp Nat) : (u.onRequest op).fds = u.fds := by
  unfold onRequest
  split <;> rfl

theorem onRequest_handler (u : Utils) (op : Nat → HandleOp Nat) :
    (u.onRequest op).handler = u.handler := by
  unfold onRequest
  split <;> rfl

theorem Idle.onRequest (h : u.Idle) (op : Nat → HandleOp Nat) : (u.onRequest op).Idle :=
  ⟨(onRequest_handler u op).trans h.handler, (onRequest_fds u op).trans h.fds⟩

theorem Idle.onHandler (h : u.Idle) (op : Int → HandleOp Int) : (u.onHandler op).Idle := by
  rwa [Utils.onHandler, if_pos h.handler]

theorem Idle.closed (h : u.Idle) : u.Closed := by
  refine ⟨?_, ?_⟩
  · rw [h.fds]
    trivial
  · rw [h.fds]
    rfl

theorem Closed.onRequest (h : u.Closed) (op : Nat → HandleOp Nat) : (u.onRequest op).Closed := by
  have hfds := onRequest_fds u op
  exact ⟨hfds ▸ h.used, hfds ▸ h.held⟩

theorem Holding.closed {fd : Int} {block : Nat} (h : u.Holding fd block) :
    (u.onHandler .release).Closed := by
  rw [h.onHandler]
  refine ⟨?_, ?_⟩
  · rw [wellUsed_append, h.fds]
    exact ⟨h.fdsUsed, List.mem_singleton_self fd, trivial⟩
  · rw [held_append, h.fds]
    exact List.erase_cons_head _ _

/-! ### Descriptors that are not opened -/

theorem Extends.refl (u : Utils) : u.Extends u :=
  ⟨[], (List.append_nil _).symm, fun _ hop => nomatch hop⟩

theorem Extends.trans {v w : Utils} (h : u.Extends v) (h' : v.Extends w) : u.Extends w := by
  obtain ⟨us, hus, hnone⟩ := h
  obtain ⟨vs, hvs, hnone'⟩ := h'
  refine ⟨us ++ vs, ?_, List.forall_mem_append.mpr ⟨hnone, hnone'⟩⟩
  rw [hvs, hus, List.append_assoc]

theorem Extends.onRequest (u : Utils) (op : Nat → HandleOp Nat) : u.Extends (u.onRequest op) :=
  ⟨[], by rw [onRequest_fds, List.append_nil], fun _ hop => nomatch hop⟩

theorem Extends.onHandler (u : Utils) {op : Int → HandleOp Int} (h : ∀ n, ¬ (op n).Acquires) :
    u.Extends (u.onHandler op) := by
  unfold Utils.onHandler
  split
  · exact Extends.refl u
  · refine ⟨[op u.handler], rfl, fun op' hop' => ?_⟩
    rw [List.mem_singleton.mp hop']
    exact h u.handler

end Utils

namespace SocketsLemmas

open UtilsLemmas

variable {useDhcp : Bool} {s t : Process} {k k' : Handlers} {u : Utils}

/-! ### The calls -/

theorem init_open (env : InitEnv) (hok : env.setsockopt = .ok ()) :
    (utilsInit env Utils.init).utils.Idle ∨
      ∃ fd block, (utilsInit env Utils.init).utils.Holding fd block := by
  cases hsocket : env.socket with
  | none =>
    left
    rw [utilsInit_eq, hsocket]
    have hidle : (acquired (-1) [] env.block).Idle := ⟨rfl, rfl⟩
    exact ((((hidle.onRequest _).onHandler _).onRequest _).onHandler _).onRequest _
  | some fd => exact .inr ⟨fd, env.block, (init_ready hsocket hok).1⟩

theorem init_closed (env : InitEnv) (hfails : env.setsockopt ≠ .ok ()) :
    (utilsInit env Utils.init).utils.Closed := by
  rw [utilsInit_eq]
  cases env.socket with
  | none =>
    have hidle : (acquired (-1) [] env.block).Idle := ⟨rfl, rfl⟩
    exact ((((hidle.onRequest _).onHandler _).onRequest _).onHandler _).onRequest _ |>.closed
  | some fd =>
    have h := holding_acquired fd env.block
    simp only [bindInterface, h.useRequest.attempt]
    cases hsetsockopt : env.setsockopt with
    | ok => exact absurd hsetsockopt hfails
    | error errno => exact h.useRequest.useHandler.useRequest.closed.onRequest _

theorem getHardwareAddressByName_open {ioctl : Except Errno (List UInt8)}
    {call : UtilsCall (List UInt8)} (hu : u.Idle ∨ ∃ fd block, u.Holding fd block)
    (h : utilsGetHardwareAddressByName ioctl u = some call) :
    call.utils.Idle ∨ ∃ fd block, call.utils.Holding fd block := by
  rcases hu with hidle | ⟨fd, block, hholding⟩
  · left
    unfold utilsGetHardwareAddressByName at h
    split at h
    · cases h
    have hused := ((hidle.onRequest .use).onHandler .use).onRequest .use
    simp only at h
    split at h
    · obtain rfl := Option.some.inj h
      exact hused
    · obtain rfl := Option.some.inj h
      exact hused.onRequest .use
  · obtain ⟨call', h', hholding'⟩ := getHardwareAddressByName_ready ioctl hholding
    obtain rfl := Option.some.inj (h.symm.trans h')
    exact .inr ⟨fd, block, hholding'⟩

theorem getLinkLocalAddress_open (addr : In6Addr) (hu : u.Idle ∨ ∃ fd block, u.Holding fd block) :
    (utilsGetLinkLocalAddress (.ok ()) (.ok addr) u).utils.Idle ∨
      ∃ fd block, (utilsGetLinkLocalAddress (.ok ()) (.ok addr) u).utils.Holding fd block := by
  rcases hu with hidle | ⟨fd, block, hholding⟩
  · left
    have hfails : u.attempt (Except.ok () : Except Errno Unit) = .error ebadf := if_pos hidle.handler
    simp only [utilsGetLinkLocalAddress, hfails]
    exact (hidle.onHandler .use).onHandler .release
  · exact .inr ⟨fd, block, getLinkLocalAddress_ready addr hholding⟩

theorem getLinkLocalAddress_close {connect : Except Errno Unit} {getsockname : Except Errno In6Addr}
    (hu : u.Idle ∨ ∃ fd block, u.Holding fd block)
    (hfails : ¬ (connect = .ok () ∧ ∃ addr, getsockname = .ok addr)) :
    (utilsGetLinkLocalAddress connect getsockname u).utils.Closed := by
  rcases hu with hidle | ⟨fd, block, hholding⟩
  · have hattempt : u.attempt connect = .error ebadf := if_pos hidle.handler
    simp only [utilsGetLinkLocalAddress, hattempt]
    exact ((hidle.onHandler .use).onHandler .release).closed
  · simp only [utilsGetLinkLocalAddress, hholding.attempt]
    cases connect with
    | error errno => exact hholding.useHandler.closed
    | ok =>
      simp only [hholding.useHandler.attempt]
      cases getsockname with
      | error errno => exact hholding.useHandler.useHandler.closed
      | ok addr => exact absurd ⟨rfl, addr, rfl⟩ hfails

theorem dispose_close (close : Except Errno Unit) (hu : u.Idle ∨ ∃ fd block, u.Holding fd block) :
    (utilsDispose close u).utils.Closed := by
  have hclosed : (u.onHandler .release).Closed := by
    rcases hu with hidle | ⟨fd, block, hholding⟩
    · exact (hidle.onHandler .release).closed
    · exact hholding.closed
  unfold utilsDispose
  cases u.attempt close with
  | error errno => exact hclosed
  | ok => exact hclosed

theorem main_ne_init {th : AdvThread} (hcreated : s.Created) (hstarted : s.adv th ≠ .absent) :
    s.main ≠ .init := by
  intro hmain
  have h := hcreated.adv th hstarted
  rw [hmain] at h
  cases th with
  | sendRouterAdv => exact h
  | listenRouterSolicit => exact h

/-- A step of the process before `utils` has closed anything. -/
theorem utilsOpen_step {e : ProcessEvent} (hcreated : s.Created) (hs : UtilsOpen s)
    (h : Process.Step useDhcp s e t) :
    (ClosesUtils e → t.utils.Closed) ∧ (¬ ClosesUtils e → UtilsOpen t) := by
  have hready (hne : s.main ≠ .init) : s.utils.Idle ∨ ∃ fd block, s.utils.Holding fd block :=
    (hs.resolve_left fun h => hne h.1).2
  -- `main` is past `utils_Init`, and the step leaves the module alone
  have hkept (hutils : t.utils = s.utils) (hne : s.main ≠ .init) (hne' : t.main ≠ .init) :
      UtilsOpen t := by
    refine .inr ⟨hne', ?_⟩
    rw [hutils]
    exact hready hne
  cases h with
  | main _ h =>
    cases h with
    | init env hpc =>
      obtain ⟨_, hutils⟩ := hs.resolve_right fun h => h.1 hpc
      rw [UtilsOpen, hutils]
      refine ⟨init_closed env, fun hnot => .inr ⟨nofun, init_open env ?_⟩⟩
      exact Decidable.not_not.mp hnot
    | register hpc =>
      exact ⟨fun h => absurd h id, fun _ => hkept rfl (by rw [hpc]; nofun) (by dsimp only; split <;> nofun)⟩
    | createDhcp hpc | seePrefix hpc | createRa hpc | createRs hpc | returns hpc =>
      exact ⟨fun h => absurd h id, fun _ => hkept rfl (by rw [hpc]; nofun) nofun⟩
  | signal close _ hhandled =>
    refine ⟨fun _ => dispose_close close (hready fun hmain => ?_), fun hnot => absurd trivial hnot⟩
    rw [hmain] at hhandled
    exact hhandled
  | dhcp _ h =>
    have hframe := dhcp_frame h
    refine ⟨fun h => absurd h id, fun _ => ?_⟩
    rwa [UtilsOpen, hframe.utils, hframe.main]
  | adv th _ h =>
    have hframe := adv_frame h
    have hne := main_ne_init hcreated hframe.started
    have hne' : t.main ≠ .init := hframe.main ▸ hne
    cases h with
    | getLinkLocalAddress connect getsockname =>
      refine ⟨getLinkLocalAddress_close (hready hne), fun hnot => .inr ⟨hne', ?_⟩⟩
      obtain ⟨rfl, addr, rfl⟩ := Classical.not_not.mp hnot
      exact getLinkLocalAddress_open addr (hready hne)
    | getHardwareAddressByName _ _ _ _ _ hcall =>
      refine ⟨fun h => absurd h id, fun _ => .inr ⟨hne', ?_⟩⟩
      exact getHardwareAddressByName_open (hready hne) hcall
    | setUp | setUpFails | exits | enter | leave | receive | dies | lock | read | send | unlock =>
      exact ⟨fun h => absurd h id, fun _ => hkept rfl hne hne'⟩

/-! ### Behind the first call that closes -/

theorem getHardwareAddressByName_extends {ioctl : Except Errno (List UInt8)}
    {call : UtilsCall (List UInt8)} (h : utilsGetHardwareAddressByName ioctl u = some call) :
    u.Extends call.utils := by
  unfold utilsGetHardwareAddressByName at h
  split at h
  · cases h
  have hused : u.Extends (((u.onRequest .use).onHandler .use).onRequest .use) :=
    ((Utils.Extends.onRequest u _).trans (Utils.Extends.onHandler _ fun _ => id)).trans
      (Utils.Extends.onRequest _ _)
  simp only at h
  split at h
  · obtain rfl := Option.some.inj h
    exact hused
  · obtain rfl := Option.some.inj h
    exact hused.trans (Utils.Extends.onRequest _ _)

theorem getLinkLocalAddress_extends (connect : Except Errno Unit)
    (getsockname : Except Errno In6Addr) (u : Utils) :
    u.Extends (utilsGetLinkLocalAddress connect getsockname u).utils := by
  have hused : u.Extends (u.onHandler .use) := Utils.Extends.onHandler u fun _ => id
  have hagain : (u.onHandler .use).Extends ((u.onHandler .use).onHandler .use) :=
    Utils.Extends.onHandler _ fun _ => id
  unfold utilsGetLinkLocalAddress
  cases u.attempt connect with
  | error errno => exact hused.trans (Utils.Extends.onHandler _ fun _ => id)
  | ok =>
    simp only
    cases (u.onHandler .use).attempt getsockname with
    | error errno => exact (hused.trans hagain).trans (Utils.Extends.onHandler _ fun _ => id)
    | ok addr => exact hused.trans hagain

theorem dispose_extends (close : Except Errno Unit) (u : Utils) :
    u.Extends (utilsDispose close u).utils := by
  have hclosed : u.Extends (u.onHandler .release) := Utils.Extends.onHandler u fun _ => id
  unfold utilsDispose
  cases u.attempt close with
  | error errno => exact hclosed
  | ok => exact hclosed

/-- Once `main` has called `utils_Init`, no step opens a descriptor for the module. -/
theorem extends_step {e : ProcessEvent} (hmain : s.main ≠ .init) (h : Process.Step useDhcp s e t) :
    t.main ≠ .init ∧ s.utils.Extends t.utils := by
  cases h with
  | main _ h =>
    cases h with
    | init env hpc => exact absurd hpc hmain
    | register => exact ⟨by dsimp only; split <;> nofun, Utils.Extends.refl _⟩
    | createDhcp | seePrefix | createRa | createRs | returns => exact ⟨nofun, Utils.Extends.refl _⟩
  | signal close => exact ⟨hmain, dispose_extends close _⟩
  | dhcp _ h =>
    have hframe := dhcp_frame h
    rw [hframe.main, hframe.utils]
    exact ⟨hmain, Utils.Extends.refl _⟩
  | adv th _ h =>
    refine ⟨(adv_frame h).main ▸ hmain, ?_⟩
    cases h with
    | getLinkLocalAddress connect getsockname => exact getLinkLocalAddress_extends _ _ _
    | getHardwareAddressByName _ _ _ _ _ hcall => exact getHardwareAddressByName_extends hcall
    | setUp | setUpFails | exits | enter | leave | receive | dies | lock | read | send | unlock =>
      exact Utils.Extends.refl _

/-! ### The module's operations -/

theorem utilsCalls_of_step {e : SocketEvent} (h : SocketStep useDhcp (s, k) e (t, k')) :
    UtilsCalls s t (opsOf .utils e.2) := by
  obtain ⟨e, o⟩ := e
  obtain ⟨hstep, hcalls⟩ := h
  have hnone (w : Worker) (ops : List (HandleOp Nat)) :
      opsOf .utils (ops.map (Prod.mk (SocketUser.worker w))) = [] := by
    have hne : SocketUser.utils ≠ .worker w := nofun
    exact opsOf_tagged_of_ne hne ops
  cases hcalls with
  | main hutils | signal hutils => rwa [opsOf_tagged_self]
  | dhcp =>
    rw [hnone]
    cases hstep with
    | dhcp _ h =>
      rw [UtilsCalls, (dhcp_frame h).utils]
      exact (List.append_nil _).symm
  | adv hutils =>
    show UtilsCalls s t (opsOf _ (_ ++ _))
    rwa [opsOf_append, opsOf_tagged_self, hnone, List.append_nil]

/-- They are those that the module itself has noted. -/
theorem fds_eq {es : List SocketEvent} {p : DhOptIAPrefix} {y : Process × Handlers}
    (hrun : Run (SocketStep useDhcp) (Process.init p, k) es y) :
    y.1.utils.fds = (opsOf .utils (socketOps es)).map (HandleOp.map Int.ofNat) := by
  refine hrun.trace_invariant (I := fun es y => y.1.utils.fds =
    (opsOf .utils (socketOps es)).map (HandleOp.map Int.ofNat)) (fun es y e z hI hstep => ?_) rfl
  rw [socketOps_snoc, opsOf_append, List.map_append, ← hI]
  exact utilsCalls_of_step hstep

theorem utils_open {es : List SocketEvent} {p : DhOptIAPrefix} {y : Process × Handlers}
    (hrun : Run (SocketStep useDhcp) (Process.init p, k) es y)
    (hnone : ∀ e ∈ es, ¬ ClosesUtils e.1) : y.1.Created ∧ UtilsOpen y.1 := by
  induction hrun with
  | nil => exact ⟨created_init p, .inl ⟨rfl, rfl⟩⟩
  | snoc _ hlast ih =>
    obtain ⟨hbefore, hnot⟩ := List.forall_mem_append.mp hnone
    obtain ⟨hcreated, hopen⟩ := ih hbefore
    exact ⟨created_step hcreated hlast.1,
      (utilsOpen_step hcreated hopen hlast.1).2 (hnot _ List.mem_cons_self)⟩

theorem utils_run_acquires {es : List SocketEvent} {y : Process × Handlers} (hmain : s.main ≠ .init)
    (hrun : Run (SocketStep useDhcp) (s, k) es y) :
    y.1.main ≠ .init ∧ ∀ op ∈ opsOf .utils (socketOps es), ¬ op.Acquires := by
  induction hrun with
  | nil => exact ⟨hmain, fun _ hop => nomatch hop⟩
  | snoc _ hlast ih =>
    obtain ⟨hmain, hnone⟩ := ih
    obtain ⟨hmain', us, hus, hnone'⟩ := extends_step hmain hlast.1
    refine ⟨hmain', ?_⟩
    rw [socketOps_snoc, opsOf_append, List.forall_mem_append]
    refine ⟨hnone, fun op hop hacquires => ?_⟩
    have hcalls := utilsCalls_of_step hlast
    rw [UtilsCalls, hus, List.append_cancel_left_eq] at hcalls
    refine hnone' (op.map Int.ofNat) ?_ ?_
    · rw [hcalls]
      exact List.mem_map_of_mem hop
    · cases op with
      | acquire => trivial
      | use => exact hacquires
      | release => exact hacquires

theorem closesUtils_main {e : ProcessEvent} (hcreated : s.Created) (h : Process.Step useDhcp s e t)
    (hcloses : ClosesUtils e) : t.main ≠ .init := by
  cases h with
  | main _ h =>
    cases h with
    | init => nofun
    | register | createDhcp | seePrefix | createRa | createRs | returns => exact absurd hcloses id
  | signal _ _ hhandled =>
    intro hmain
    rw [show s.main = .init from hmain] at hhandled
    exact hhandled
  | dhcp => exact absurd hcloses id
  | adv th _ h =>
    rw [(adv_frame h).main]
    exact main_ne_init hcreated (adv_frame h).started

/-- **The module `utils`** uses its descriptor while it is open exactly when no call of it
comes back to the descriptor behind the first that has closed it. -/
theorem utils_wellUsed_iff {es : List SocketEvent} {p : DhOptIAPrefix} {y : Process × Handlers}
    (hrun : Run (SocketStep useDhcp) (Process.init p, k) es y) :
    WellUsed [] (opsOf .utils (socketOps es)) ↔ SilentBehind .utils ClosesUtils es := by
  have hinj : Function.Injective Int.ofNat := fun _ _ h => Int.ofNat.inj h
  refine wellUsed_iff_silentBehind (fun hnone => ?_) ?_
  · obtain ⟨_, hopen⟩ := utils_open hrun hnone
    rw [← wellUsed_map hinj, ← fds_eq hrun]
    rcases hopen with ⟨_, hutils⟩ | ⟨_, hidle | ⟨fd, block, hholding⟩⟩
    · rw [hutils]
      trivial
    · exact hidle.closed.used
    · exact hholding.fdsUsed
  · rintro xs e ys rfl hnone hcloses
    obtain ⟨⟨s, k⟩, ⟨t, k'⟩, hfirst, hstep, hrest⟩ := hrun.split_cons
    obtain ⟨hcreated, hopen⟩ := utils_open hfirst hnone
    have hclosed : t.utils.Closed := (utilsOpen_step hcreated hopen hstep.1).1 hcloses
    have hfds := fds_eq (hfirst.snoc hstep)
    refine ⟨?_, ?_, (utils_run_acquires (closesUtils_main hcreated hstep.1 hcloses) hrest).2⟩
    · rw [← wellUsed_map hinj, ← hfds]
      exact hclosed.used
    · have hnil : (held [] (opsOf .utils (socketOps (xs ++ [e])))).map Int.ofNat = [] := by
        rw [← held_map hinj, List.map_nil, ← hfds]
        exact hclosed.held
      exact List.map_eq_nil_iff.mp hnil

theorem opsOf_outside {es : List SocketEvent} {p : DhOptIAPrefix} {y : Process × Handlers}
    (hrun : Run (SocketStep useDhcp) (Process.init p, k) es y) :
    opsOf .outside (socketOps es) = [] := by
  have hutils (ops : List (HandleOp Nat)) :
      opsOf .outside (ops.map (Prod.mk SocketUser.utils)) = [] := by
    have hne : SocketUser.outside ≠ .utils := nofun
    exact opsOf_tagged_of_ne hne ops
  have hworker (w : Worker) (ops : List (HandleOp Nat)) :
      opsOf .outside (ops.map (Prod.mk (SocketUser.worker w))) = [] := by
    have hne : SocketUser.outside ≠ .worker w := nofun
    exact opsOf_tagged_of_ne hne ops
  refine hrun.trace_invariant (I := fun es _ => opsOf .outside (socketOps es) = [])
    (fun es y e z hI hstep => ?_) rfl
  rw [socketOps_snoc, opsOf_append, hI, List.nil_append]
  obtain ⟨s, k⟩ := y
  obtain ⟨t, k'⟩ := z
  obtain ⟨e, o⟩ := e
  obtain ⟨_, hcalls⟩ := hstep
  cases hcalls with
  | main | signal => exact hutils _
  | dhcp => exact hworker _ _
  | adv =>
    show opsOf _ (_ ++ _) = _
    rw [opsOf_append, hutils, hworker]
    rfl

theorem agree_startTable {opened : List Nat} (h : opened.Nodup) :
    Agree (startTable opened) fun i => if i = .outside then opened else [] := by
  refine ⟨fun i n => ?_, fun i => ?_⟩
  · unfold startTable
    split
    · next hn =>
      split
      · next hi => simp [hi, hn]
      · next hi => simp [Ne.symm hi]
    · next hn =>
      split
      · simp [hn]
      · simp
  · split
    · exact h
    · exact List.nodup_nil

theorem exOpens_fresh : Along Fresh (startTable [0, 1, 2]) (socketOps (exOpens ++ [exCall])) := by
  refine ⟨rfl, trivial, rfl, trivial, trivial, trivial, trivial, trivial, trivial, rfl, trivial,
    trivial, trivial, trivial⟩

end SocketsLemmas

/-- **Isolation.** However the system calls of the threads come to be interleaved, every
thread, and the module `utils`, works on its own sockets only, exactly when the DHCP thread
makes no system call behind the first request that comes back, and no call of `utils`
comes back to a descriptor that an earlier one has closed. -/
theorem sockets_isolated_iff {useDhcp : Bool} {p : DhOptIAPrefix} {k : Handlers}
    {es : List SocketEvent} {y : Process × Handlers} {opened : List Nat}
    {ops : List (SocketUser × HandleOp Nat)}
    (hrun : Run (SocketStep useDhcp) (Process.init p, k) es y) (hopened : opened.Nodup)
    (hops : ∀ i, opsOf i ops = opsOf i (socketOps es))
    (hfresh : Along Fresh (startTable opened) ops) :
    Along Own (startTable opened) ops ↔
      SilentBehind (.worker .requestDhcpPrefix) ClosesHandler es ∧
        SilentBehind .utils ClosesUtils es := by
  rw [along_own_iff (agree_startTable hopened) hfresh, ← dhcp_wellUsed_iff hrun,
    ← utils_wellUsed_iff hrun]
  constructor
  · intro hused
    have hdhcp := hused (.worker .requestDhcpPrefix)
    have hutils := hused .utils
    rw [hops] at hdhcp hutils
    exact ⟨hdhcp, hutils⟩
  · rintro ⟨hdhcp, hutils⟩ i
    rw [hops]
    cases i with
    | outside =>
      rw [opsOf_outside hrun]
      trivial
    | utils => exact hutils
    | worker w =>
      cases w with
      | requestDhcpPrefix => exact hdhcp
      | adv th => exact (opened_run hrun th).1

/-- In the run with two requests, someone works on a socket that is not theirs. -/
theorem exOpens_shared :
    ¬ Along Own (startTable [0, 1, 2]) (socketOps (exOpens ++ [exCall])) := by
  obtain ⟨y, hrun⟩ := exOpens_run
  rw [sockets_isolated_iff hrun (by decide) (fun _ => rfl) exOpens_fresh]
  rintro ⟨hsilent, _⟩
  have hnone := hsilent (exGate.take 6) exCall _ rfl rfl
  cases hnone

end Pdrad
