import Pdrad.CriticalSections
import Pdrad.Descriptors

/-!
# The sockets of the process (`test.c`, `utils.c`)

The threads and the module `utils` have their sockets in one table of descriptors. Each
step of the process comes with the system calls it makes on descriptors, and with the
variables it keeps them in.

1. `SocketStep`: a step of the process and the system calls that belong to it.
2. `threadRequestDhcpPrefix_eq`: the set-up of the DHCP thread as a part of the thread.
3. `adv_discipline`: an advertising thread uses a socket between its own opening and
   closing of it, and when it has ended it has closed what it opened, but for one of two
   sockets when the set-up of `Thread_listenRouterSolicit` has failed.
-/

namespace Pdrad

open HandleOp Descriptors ProcessLemmas

/-! ## Up to the loops -/

/-- `Thread_requestDhcpPrefix` up to its loop, with the descriptor unless it returns. -/
def requestDhcpPrefixSetUp (env : ThreadEnv) : Option Nat × List SysCall :=
  match env.socket with
  | none => (none, [])
  | some handler =>
    let calls := [SysCall.socket handler, .setsockopt handler]
    if !env.setsockoptWorks then (none, calls ++ [.close handler])
    else
      let calls := calls ++ [.ioctl handler, .bind handler]
      if !env.bindWorks then (none, calls ++ [.close handler])
      else (some handler, calls ++ [.ioctl handler])

/-- `Thread_sendRouterAdv` up to its loop: the descriptor from `socket`, unless it fails,
and whether `setsockopt` works. -/
def sendRouterAdvSetUp (socket : Option Nat) (setsockoptWorks : Bool) :
    Option Nat × List (HandleOp Nat) :=
  match socket with
  | none => (none, [])
  | some ndpHandler =>
    let ops := [.acquire ndpHandler, .use ndpHandler]
    if !setsockoptWorks then (none, ops ++ [.release ndpHandler])
    else (some ndpHandler, ops)

/-- What `Thread_listenRouterSolicit` meets: the descriptors from the two calls of
`socket`, and whether those of `setsockopt` work, the last of which joins the group. -/
structure SolicitEnv where
  multicastSocket : Option Nat
  socket : Option Nat
  bindsMulticast : Bool
  bindsSocket : Bool
  joins : Bool

inductive SolicitSetUp where
  | exits
  | returns
  | loops (ndpMulticastHandler ndpHandler : Nat)
deriving DecidableEq

/-- `Thread_listenRouterSolicit` up to its loop. It goes on when `bind` fails. -/
def listenRouterSolicitSetUp (env : SolicitEnv) : SolicitSetUp × List (HandleOp Nat) :=
  match env.multicastSocket with
  | none => (.exits, [])
  | some ndpMulticastHandler =>
    match env.socket with
    | none => (.exits, [.acquire ndpMulticastHandler])
    | some ndpHandler =>
      let ops := [.acquire ndpMulticastHandler, .acquire ndpHandler, .use ndpMulticastHandler]
      -- each of the three failures closes one of the two sockets
      if !env.bindsMulticast then (.returns, ops ++ [.release ndpMulticastHandler])
      else
        let ops := ops ++ [.use ndpHandler]
        if !env.bindsSocket then (.returns, ops ++ [.release ndpHandler])
        else
          let ops := ops ++ [.use ndpMulticastHandler]
          if !env.joins then (.returns, ops ++ [.release ndpMulticastHandler])
          else (.loops ndpMulticastHandler ndpHandler, ops ++ [.use ndpMulticastHandler])

/-! ## The process and its sockets -/

/-- Who opens descriptors. `outside` has opened those that the process starts with. -/
inductive SocketUser where
  | outside
  | utils
  | worker (w : Worker)
deriving DecidableEq

/-- The descriptors in the variables of the threads. Both advertising threads have an
`ndpHandler`. -/
structure Handlers where
  handler : Nat
  ndpHandler : AdvThread → Nat
  ndpMulticastHandler : Nat

/-- The descriptor that an advertising thread passes to `sendRouterAdv`. -/
def Handlers.sends (k : Handlers) : AdvThread → Nat
  | .sendRouterAdv => k.ndpHandler .sendRouterAdv
  | .listenRouterSolicit => k.ndpMulticastHandler

/-- The steps of the DHCP thread that make no system call on its descriptor. -/
def DhcpEvent.Silent : DhcpEvent → Prop
  | .setUp | .socketFails | .setUpFails | .leave | .call _ => False
  | _ => True

/-- The same for the advertising threads. Those of `utils` are not theirs. -/
def AdvEvent.Silent : AdvEvent → Prop
  | .setUp | .setUpFails | .exits | .leave | .receive _ | .send _ _ => False
  | _ => True

/-- The operations of a step of the DHCP thread from `s` to `t`. -/
inductive DhcpCalls (s t : Process) (k : Handlers) :
    DhcpEvent → List (HandleOp Nat) → Handlers → Prop where
  | setUp {env : ThreadEnv} {handler : Nat} {calls : List SysCall} :
      requestDhcpPrefixSetUp env = (some handler, calls) →
      DhcpCalls s t k .setUp (calls.map SysCall.op) { k with handler := handler }
  | socketFails {env : ThreadEnv} {calls : List SysCall} : env.socket = none →
      requestDhcpPrefixSetUp env = (none, calls) →
      DhcpCalls s t k .socketFails (calls.map SysCall.op) k
  | setUpFails {env : ThreadEnv} {calls : List SysCall} : env.socket ≠ none →
      requestDhcpPrefixSetUp env = (none, calls) →
      DhcpCalls s t k .setUpFails (calls.map SysCall.op) k
  | call {env : DhcpEnv} {m : Mem} {buffer bufferLength : Nat} {c : DhcpCall} :
      BufferAt buffer bufferLength →
      Returns (requestAndReceiveDhcp env k.handler m buffer bufferLength s.sharedPrefix) c →
      t = s.afterCall c → DhcpCalls s t k (.call c.ret) (c.calls.map SysCall.op) k
  | leave : DhcpCalls s t k .leave [.release k.handler] k
  | silent {e : DhcpEvent} : e.Silent → DhcpCalls s t k e [] k

/-- The operations of a step of an advertising thread. -/
inductive AdvCalls (k : Handlers) :
    AdvThread → AdvEvent → List (HandleOp Nat) → Handlers → Prop where
  | raSetUp {socket : Option Nat} {works : Bool} {ndpHandler : Nat} {ops : List (HandleOp Nat)} :
      sendRouterAdvSetUp socket works = (some ndpHandler, ops) →
      AdvCalls k .sendRouterAdv .setUp ops
        { k with ndpHandler := Function.update k.ndpHandler .sendRouterAdv ndpHandler }
  | raSetUpFails {socket : Option Nat} {works : Bool} {ops : List (HandleOp Nat)} :
      sendRouterAdvSetUp socket works = (none, ops) → AdvCalls k .sendRouterAdv .setUpFails ops k
  | raLeave : AdvCalls k .sendRouterAdv .leave [.release (k.ndpHandler .sendRouterAdv)] k
  | rsSetUp {env : SolicitEnv} {ndpMulticastHandler ndpHandler : Nat} {ops : List (HandleOp Nat)} :
      listenRouterSolicitSetUp env = (.loops ndpMulticastHandler ndpHandler, ops) →
      AdvCalls k .listenRouterSolicit .setUp ops { k with
        ndpHandler := Function.update k.ndpHandler .listenRouterSolicit ndpHandler
        ndpMulticastHandler := ndpMulticastHandler }
  | rsSetUpFails {env : SolicitEnv} {ops : List (HandleOp Nat)} :
      listenRouterSolicitSetUp env = (.returns, ops) →
      AdvCalls k .listenRouterSolicit .setUpFails ops k
  | rsExits {env : SolicitEnv} {ops : List (HandleOp Nat)} :
      listenRouterSolicitSetUp env = (.exits, ops) → AdvCalls k .listenRouterSolicit .exits ops k
  | rsLeave : AdvCalls k .listenRouterSolicit .leave
      [.release k.ndpMulticastHandler, .release (k.ndpHandler .listenRouterSolicit)] k
  | receive (clientAddr : In6Addr) (dropped : Nat) :
      AdvCalls k .listenRouterSolicit (.receive clientAddr)
        (List.replicate (dropped + 1) (.use k.ndpMulticastHandler)) k
  | send (th : AdvThread) (dstAddr : In6Addr) (pkt : List UInt8) :
      AdvCalls k th (.send dstAddr pkt) [.use (k.sends th)] k
  | silent (th : AdvThread) {e : AdvEvent} : e.Silent → AdvCalls k th e [] k

/-- What `utils` has done between `s` and `t`. -/
def UtilsCalls (s t : Process) (ops : List (HandleOp Nat)) : Prop :=
  t.utils.fds = s.utils.fds ++ ops.map (HandleOp.map Int.ofNat)

/-- The operations of a step of the process, each with its user. -/
inductive SocketCalls (s t : Process) (k : Handlers) :
    ProcessEvent → List (SocketUser × HandleOp Nat) → Handlers → Prop where
  | main {e : MainEvent} {ops : List (HandleOp Nat)} : UtilsCalls s t ops →
      SocketCalls s t k (.main e) (ops.map (Prod.mk .utils)) k
  | signal {close : Except Errno Unit} {ops : List (HandleOp Nat)} : UtilsCalls s t ops →
      SocketCalls s t k (.signal close) (ops.map (Prod.mk .utils)) k
  | dhcp {e : DhcpEvent} {ops : List (HandleOp Nat)} {k' : Handlers} : DhcpCalls s t k e ops k' →
      SocketCalls s t k (.dhcp e) (ops.map (Prod.mk (.worker .requestDhcpPrefix))) k'
  | adv {th : AdvThread} {e : AdvEvent} {us ops : List (HandleOp Nat)} {k' : Handlers} :
      UtilsCalls s t us → AdvCalls k th e ops k' →
      SocketCalls s t k (.adv th e)
        (us.map (Prod.mk .utils) ++ ops.map (Prod.mk (.worker (.adv th)))) k'

abbrev SocketEvent := ProcessEvent × List (SocketUser × HandleOp Nat)

/-- A step of the process, with its operations on descriptors. -/
def SocketStep (useDhcp : Bool) (x : Process × Handlers) (e : SocketEvent)
    (y : Process × Handlers) : Prop :=
  Process.Step useDhcp x.1 e.1 y.1 ∧ SocketCalls x.1 y.1 x.2 e.1 e.2 y.2

/-- The operations so far. -/
def socketOps (es : List SocketEvent) : List (SocketUser × HandleOp Nat) :=
  es.flatMap Prod.snd

/-- The thread as its set-up, its loop, and what is behind it. -/
theorem threadRequestDhcpPrefix_eq (env : ThreadEnv) (m : Mem) (p : DhOptIAPrefix) (fuel : Nat) :
    threadRequestDhcpPrefix env m p fuel =
      match requestDhcpPrefixSetUp env with
      | (none, calls) => some ⟨m, p, calls, false⟩
      | (some handler, calls) =>
        (requestLoop handler env.buffer env.bufferLength env.passes
          (m.put env.buffer (List.replicate env.bufferLength 0)) p fuel).map fun run =>
          { run with
            calls := calls ++ run.calls ++ if run.died then [] else [.close handler] } := by
  unfold threadRequestDhcpPrefix requestDhcpPrefixSetUp
  cases env.socket with
  | none => rfl
  | some handler =>
    cases env.setsockoptWorks with
    | false => rfl
    | true =>
      cases env.bindWorks with
      | false => rfl
      | true => rfl

/-! ## The advertising threads -/

/-- What an advertising thread has open in its loop, the last one first. -/
def Handlers.opened (k : Handlers) : AdvThread → List Nat
  | .sendRouterAdv => [k.ndpHandler .sendRouterAdv]
  | .listenRouterSolicit => [k.ndpHandler .listenRouterSolicit, k.ndpMulticastHandler]

/-- The set-up of the thread has failed. -/
def SetUpFailed (th : AdvThread) (es : List SocketEvent) : Prop :=
  .adv th .setUpFails ∈ es.map Prod.fst

/-- What an advertising thread holds. A process that has ended may have done so in the
middle of a set-up. -/
def AdvAt.Opened (th : AdvThread) (k : Handlers) (failed : Prop) (exited : Bool) (hs : List Nat) :
    AdvAt → Prop
  | .absent => hs = [] ∧ ¬ failed
  | .setUp => (exited = false → hs = []) ∧ ¬ failed
  | .ended => (th = .listenRouterSolicit ∧ failed ∧ hs.length = 1) ∨
      (¬ (th = .listenRouterSolicit ∧ failed) ∧ hs = [])
  | _ => hs = k.opened th ∧ ¬ failed

/-- The thread is in its loop. -/
def AdvAt.Looping : AdvAt → Prop
  | .absent | .setUp | .ended => False
  | _ => True

def AdvEvent.InLoop : AdvEvent → Prop
  | .setUp | .setUpFails | .exits | .leave => False
  | _ => True

namespace SocketsLemmas

variable {useDhcp : Bool} {s t : Process} {k k' : Handlers} {th : AdvThread}

theorem socketOps_snoc (es : List SocketEvent) (e : SocketEvent) :
    socketOps (es ++ [e]) = socketOps es ++ e.2 := by
  rw [socketOps, List.flatMap_append, List.flatMap_singleton]
  rfl

theorem setUpFailed_snoc {es : List SocketEvent} {e : SocketEvent}
    (he : e.1 ≠ .adv th .setUpFails) : SetUpFailed th (es ++ [e]) ↔ SetUpFailed th es := by
  rw [SetUpFailed, List.map_append, List.mem_append, List.map_singleton, List.mem_singleton]
  exact or_iff_left he.symm

theorem opsOf_utils (w : Worker) (ops : List (HandleOp Nat)) :
    opsOf (.worker w) (ops.map (Prod.mk SocketUser.utils)) = [] := by
  have hne : SocketUser.worker w ≠ .utils := nofun
  exact opsOf_tagged_of_ne hne ops

/-- A thread's operations are those of its own steps. -/
theorem opsOf_other {e : ProcessEvent} {ops : List (SocketUser × HandleOp Nat)} {w : Worker}
    (h : SocketCalls s t k e ops k') (hw : e.worker ≠ some w) : opsOf (.worker w) ops = [] := by
  cases h with
  | main | signal => exact opsOf_utils w _
  | dhcp =>
    refine opsOf_tagged_of_ne (fun heq => hw ?_) _
    rw [SocketUser.worker.inj heq]
    rfl
  | adv =>
    rw [opsOf_append, opsOf_utils, List.nil_append]
    refine opsOf_tagged_of_ne (fun heq => hw ?_) _
    rw [SocketUser.worker.inj heq]
    rfl

/-- And those of its own steps are its own. -/
theorem advCalls_of_step {e : AdvEvent} {o : List (SocketUser × HandleOp Nat)}
    (h : SocketCalls s t k (.adv th e) o k') :
    AdvCalls k th e (opsOf (.worker (.adv th)) o) k' := by
  cases h with
  | adv _ hown =>
    show AdvCalls k th e (opsOf _ (_ ++ _)) k'
    rwa [opsOf_append, opsOf_utils, opsOf_tagged_self, List.nil_append]

theorem dhcpCalls_of_step {e : DhcpEvent} {o : List (SocketUser × HandleOp Nat)}
    (h : SocketCalls s t k (.dhcp e) o k') :
    DhcpCalls s t k e (opsOf (.worker .requestDhcpPrefix) o) k' := by
  cases h with
  | dhcp hown => rwa [opsOf_tagged_self]

/-- The steps of the others leave alone what an advertising thread holds. -/
theorem opened_other {e : ProcessEvent} {ops : List (SocketUser × HandleOp Nat)}
    (h : SocketCalls s t k e ops k') (hth : e.worker ≠ some (.adv th)) :
    k'.opened th = k.opened th := by
  cases h with
  | main | signal => rfl
  | dhcp hcalls => cases hcalls <;> cases th <;> rfl
  | adv _ hcalls =>
    cases hcalls with
    | raSetUp =>
      cases th with
      | sendRouterAdv => exact absurd rfl hth
      | listenRouterSolicit => simp [Handlers.opened]
    | rsSetUp =>
      cases th with
      | sendRouterAdv => simp [Handlers.opened]
      | listenRouterSolicit => exact absurd rfl hth
    | raSetUpFails | raLeave | rsSetUpFails | rsExits | rsLeave | receive | send | silent => rfl

/-! ### The set-ups -/

theorem sendRouterAdvSetUp_spec (socket : Option Nat) (works : Bool) :
    WellUsed [] (sendRouterAdvSetUp socket works).2 ∧
      held [] (sendRouterAdvSetUp socket works).2 = (sendRouterAdvSetUp socket works).1.toList := by
  cases socket with
  | none => exact ⟨trivial, rfl⟩
  | some fd =>
    cases works <;> simp [sendRouterAdvSetUp, WellUsed, Allowed, held, heldAfter]

/-- One of the two sockets stays open when the set-up fails behind the second. -/
theorem listenRouterSolicitSetUp_spec (env : SolicitEnv) :
    WellUsed [] (listenRouterSolicitSetUp env).2 ∧
      match (listenRouterSolicitSetUp env).1 with
      | .exits => True
      | .returns => (held [] (listenRouterSolicitSetUp env).2).length = 1
      | .loops m n => held [] (listenRouterSolicitSetUp env).2 = [n, m] := by
  obtain ⟨multicast, socket, bindsMulticast, bindsSocket, joins⟩ := env
  cases multicast with
  | none => exact ⟨trivial, trivial⟩
  | some m =>
    cases socket with
    | none => exact ⟨⟨trivial, trivial⟩, trivial⟩
    | some n =>
      cases bindsMulticast <;> cases bindsSocket <;> cases joins <;>
        simp [listenRouterSolicitSetUp, WellUsed, Allowed, held, heldAfter]

/-! ### What an advertising thread holds -/

/-- A step of another thread, of `main` or of the handler. -/
theorem opened_of_ne {es : List SocketEvent} {e : SocketEvent} {hs : List Nat}
    (hs' : (s.adv th).Opened th k (SetUpFailed th es) s.exited hs)
    (hcalls : SocketCalls s t k e.1 e.2 k') (he : e.1.worker ≠ some (.adv th))
    (hpc : t.adv th = s.adv th ∨ (s.adv th = .absent ∧ t.adv th = .setUp))
    (hexited : t.exited = false → s.exited = false) :
    (t.adv th).Opened th k' (SetUpFailed th (es ++ [e])) t.exited hs := by
  have hne : e.1 ≠ .adv th .setUpFails := fun heq => he (by rw [heq]; rfl)
  have hopened := opened_other hcalls he
  rcases hpc with hsame | ⟨habsent, hsetUp⟩
  · rw [hsame]
    simp only [AdvAt.Opened, setUpFailed_snoc hne, hopened] at hs' ⊢
    revert hs'
    cases s.adv th with
    | setUp => exact fun ⟨hnil, hfailed⟩ => ⟨fun ht => hnil (hexited ht), hfailed⟩
    | absent | loopTop | link | receiving | hardware | locking | reading | unlocking | ended =>
      exact id
  · rw [habsent] at hs'
    rw [hsetUp]
    exact ⟨fun _ => hs'.1, fun hfailed => hs'.2 ((setUpFailed_snoc hne).mp hfailed)⟩

theorem opened_looping {pc : AdvAt} {failed : Prop} {exited : Bool} {hs : List Nat}
    (hpc : pc.Looping) : pc.Opened th k failed exited hs ↔ hs = k.opened th ∧ ¬ failed := by
  cases pc with
  | absent | setUp | ended => exact absurd hpc id
  | loopTop | link | receiving | hardware | locking | reading | unlocking => exact Iff.rfl

theorem adv_looping {e : AdvEvent} (h : AdvStep th s e t) (he : e.InLoop) :
    (s.adv th).Looping ∧ (t.adv th).Looping := by
  have hgoto {pc : AdvAt} (pc' : AdvAt) (hpc : s.adv th = pc) (hloops : pc.Looping)
      (hloops' : pc'.Looping) : (s.adv th).Looping ∧ ((s.goto th pc').adv th).Looping := by
    rw [hpc, adv_goto_self]
    exact ⟨hloops, hloops'⟩
  cases h with
  | setUp | setUpFails | exits | leave => exact absurd he id
  | dies _ _ _ hpc =>
    show (s.adv th).Looping ∧ (s.adv th).Looping
    rw [hpc]
    exact ⟨trivial, trivial⟩
  | getLinkLocalAddress connect getsockname hpc =>
    refine hgoto _ hpc trivial ?_
    cases th with
    | sendRouterAdv => trivial
    | listenRouterSolicit => trivial
  | enter hpc | receive _ _ _ _ _ _ hpc | getHardwareAddressByName _ _ _ _ hpc | lock _ hpc
  | read _ _ _ _ hpc | send _ _ _ _ _ hpc | unlock hpc => exact hgoto _ hpc trivial trivial

/-- In its loop, a thread uses its sockets and no others. -/
theorem calls_looping {e : AdvEvent} {ops : List (HandleOp Nat)} (h : AdvCalls k th e ops k')
    (he : e.InLoop) : k' = k ∧ ∀ op ∈ ops, ∃ n ∈ k.opened th, op = .use n := by
  cases h with
  | raSetUp | raSetUpFails | raLeave | rsSetUp | rsSetUpFails | rsExits | rsLeave =>
    exact absurd he id
  | receive clientAddr dropped =>
    refine ⟨rfl, fun op hop => ⟨k.ndpMulticastHandler, ?_, List.eq_of_mem_replicate hop⟩⟩
    exact List.mem_cons_of_mem _ List.mem_cons_self
  | send th dstAddr pkt =>
    refine ⟨rfl, fun op hop => ⟨k.sends th, ?_, List.mem_singleton.mp hop⟩⟩
    cases th with
    | sendRouterAdv => exact List.mem_cons_self
    | listenRouterSolicit => exact List.mem_cons_of_mem _ List.mem_cons_self
  | silent => exact ⟨rfl, fun _ hop => nomatch hop⟩

theorem setUp_spec {ops : List (HandleOp Nat)} (h : AdvCalls k th .setUp ops k') :
    WellUsed [] ops ∧ held [] ops = k'.opened th := by
  cases h with
  | @raSetUp socket works fd ops hsetUp =>
    have hspec := sendRouterAdvSetUp_spec socket works
    rw [hsetUp] at hspec
    exact ⟨hspec.1, by simp [hspec.2, Handlers.opened]⟩
  | @rsSetUp env m n ops hsetUp =>
    have hspec := listenRouterSolicitSetUp_spec env
    rw [hsetUp] at hspec
    have hheld : held [] ops = [n, m] := hspec.2
    exact ⟨hspec.1, by simp [hheld, Handlers.opened]⟩
  | silent _ he => exact absurd he id

theorem setUpFails_spec {ops : List (HandleOp Nat)} (h : AdvCalls k th .setUpFails ops k') :
    WellUsed [] ops ∧ ((th = .listenRouterSolicit ∧ (held [] ops).length = 1) ∨
      (th ≠ .listenRouterSolicit ∧ held [] ops = [])) := by
  cases h with
  | @raSetUpFails socket works ops hsetUp =>
    have hspec := sendRouterAdvSetUp_spec socket works
    rw [hsetUp] at hspec
    exact ⟨hspec.1, .inr ⟨nofun, hspec.2⟩⟩
  | @rsSetUpFails env ops hsetUp =>
    have hspec := listenRouterSolicitSetUp_spec env
    rw [hsetUp] at hspec
    exact ⟨hspec.1, .inl ⟨rfl, hspec.2⟩⟩
  | silent _ he => exact absurd he id

theorem exits_spec {ops : List (HandleOp Nat)} (h : AdvCalls k th .exits ops k') :
    WellUsed [] ops := by
  cases h with
  | @rsExits env ops hsetUp =>
    have hspec := listenRouterSolicitSetUp_spec env
    rw [hsetUp] at hspec
    exact hspec.1
  | silent _ he => exact absurd he id

/-- What it closes behind the loop is what it has opened. -/
theorem leave_spec {ops : List (HandleOp Nat)} (h : AdvCalls k th .leave ops k') :
    WellUsed (k.opened th) ops ∧ held (k.opened th) ops = [] := by
  cases h with
  | raLeave => exact ⟨⟨List.mem_cons_self, trivial⟩, List.erase_cons_head _ _⟩
  | rsLeave =>
    have hrest : (k.opened .listenRouterSolicit).erase k.ndpMulticastHandler =
        [k.ndpHandler .listenRouterSolicit] := by
      rw [Handlers.opened, List.erase_cons]
      split
      · next heq => rw [eq_of_beq heq]
      · rw [List.erase_cons_head]
    refine ⟨⟨List.mem_cons_of_mem _ List.mem_cons_self, ?_, trivial⟩, ?_⟩
    · show _ ∈ List.erase _ _
      rw [hrest]
      exact List.mem_cons_self
    · show List.erase (List.erase _ _) _ = []
      rw [hrest]
      exact List.erase_cons_head _ _
  | silent _ he => exact absurd he id

/-- A step of its own. -/
theorem opened_own {es : List SocketEvent} {e : AdvEvent} {ops : List (HandleOp Nat)}
    {o : List (SocketUser × HandleOp Nat)} {hs : List Nat}
    (hs' : (s.adv th).Opened th k (SetUpFailed th es) s.exited hs) (hrunning : s.exited = false)
    (h : AdvStep th s e t) (hcalls : AdvCalls k th e ops k') :
    WellUsed hs ops ∧
      (t.adv th).Opened th k' (SetUpFailed th (es ++ [(.adv th e, o)])) t.exited (held hs ops) := by
  have hkept (he : e ≠ .setUpFails) :
      SetUpFailed th (es ++ [(.adv th e, o)]) ↔ SetUpFailed th es :=
    setUpFailed_snoc fun heq => he (ProcessEvent.adv.inj heq).2
  have hinLoop (he : e.InLoop) : WellUsed hs ops ∧
      (t.adv th).Opened th k' (SetUpFailed th (es ++ [(.adv th e, o)])) t.exited (held hs ops) := by
    obtain ⟨hloops, hloops'⟩ := adv_looping h he
    obtain ⟨rfl, huses⟩ := calls_looping hcalls he
    have hne : e ≠ .setUpFails := fun heq => by rwa [heq] at he
    obtain ⟨rfl, hfailed⟩ := (opened_looping hloops).mp hs'
    obtain ⟨hused, hheld⟩ := wellUsed_uses huses
    rw [opened_looping hloops', hkept hne]
    exact ⟨hused, hheld, hfailed⟩
  cases e with
  | setUp =>
    cases h with
    | setUp hpc =>
      rw [hpc] at hs'
      obtain rfl := hs'.1 hrunning
      rw [hkept nofun, adv_goto_self]
      obtain ⟨hused, hheld⟩ := setUp_spec hcalls
      exact ⟨hused, hheld, hs'.2⟩
  | setUpFails =>
    have hfailed : SetUpFailed th (es ++ [(.adv th .setUpFails, o)]) := by
      rw [SetUpFailed, List.map_append]
      exact List.mem_append_right _ List.mem_cons_self
    cases h with
    | setUpFails hpc =>
      rw [hpc] at hs'
      obtain rfl := hs'.1 hrunning
      show _ ∧ ((s.goto th .ended).adv th).Opened _ _ _ _ _
      rw [adv_goto_self]
      obtain ⟨hused, ⟨hth, hone⟩ | ⟨hth, hnil⟩⟩ := setUpFails_spec hcalls
      · exact ⟨hused, .inl ⟨hth, hfailed, hone⟩⟩
      · exact ⟨hused, .inr ⟨fun hboth => hth hboth.1, hnil⟩⟩
  | exits =>
    cases h with
    | exits hpc =>
      rw [hpc] at hs'
      obtain rfl := hs'.1 hrunning
      show _ ∧ (s.adv _).Opened _ _ _ _ _
      rw [hkept nofun, hpc]
      exact ⟨exits_spec hcalls, nofun, hs'.2⟩
  | leave =>
    cases h with
    | leave hpc =>
      rw [hpc] at hs'
      obtain ⟨rfl, hfailed⟩ := hs'
      rw [hkept nofun, adv_goto_self]
      obtain ⟨hused, hheld⟩ := leave_spec hcalls
      exact ⟨hused, .inr ⟨fun hno => hfailed hno.2, hheld⟩⟩
  | enter | getLinkLocalAddress | receive | getHardwareAddressByName | dies | lock | read | send
  | unlock => exact hinLoop trivial

theorem adv_created {e : MainEvent} (hcreated : s.Created) (h : MainStep useDhcp s e t)
    (th : AdvThread) : t.adv th = s.adv th ∨ (s.adv th = .absent ∧ t.adv th = .setUp) := by
  have hgoto {pc : MainAt} (hpc : s.main = pc) (j : AdvThread) (hnot : ¬ pc.Created j) :
      (s.goto j .setUp).adv th = s.adv th ∨
        (s.adv th = .absent ∧ (s.goto j .setUp).adv th = .setUp) := by
    by_cases hj : th = j
    · subst hj
      exact .inr ⟨adv_absent hcreated hpc hnot, adv_goto_self s th .setUp⟩
    · exact .inl (adv_goto_of_ne s _ hj)
  cases h with
  | init | register | createDhcp | seePrefix | returns => exact .inl rfl
  | createRa hpc => exact hgoto hpc .sendRouterAdv id
  | createRs hpc => exact hgoto hpc .listenRouterSolicit id

theorem step_running {e : ProcessEvent} (h : Process.Step useDhcp s e t) : s.exited = false := by
  cases h <;> assumption

theorem opened_step {es : List SocketEvent} {e : SocketEvent} (hcreated : s.Created)
    (hs : WellUsed [] (opsOf (.worker (.adv th)) (socketOps es)) ∧
      (s.adv th).Opened th k (SetUpFailed th es) s.exited
        (held [] (opsOf (.worker (.adv th)) (socketOps es))))
    (h : SocketStep useDhcp (s, k) e (t, k')) :
    WellUsed [] (opsOf (.worker (.adv th)) (socketOps (es ++ [e]))) ∧
      (t.adv th).Opened th k' (SetUpFailed th (es ++ [e])) t.exited
        (held [] (opsOf (.worker (.adv th)) (socketOps (es ++ [e])))) := by
  obtain ⟨hstep, hcalls⟩ := h
  obtain ⟨e, o⟩ := e
  rw [socketOps_snoc, opsOf_append, wellUsed_append, held_append]
  have hrunning := step_running hstep
  have hother (he : e.worker ≠ some (.adv th))
      (hpc : t.adv th = s.adv th ∨ (s.adv th = .absent ∧ t.adv th = .setUp)) :
      (WellUsed [] (opsOf (.worker (.adv th)) (socketOps es)) ∧
          WellUsed (held [] (opsOf (.worker (.adv th)) (socketOps es)))
            (opsOf (.worker (.adv th)) o)) ∧
        (t.adv th).Opened th k' (SetUpFailed th (es ++ [(e, o)])) t.exited
          (held (held [] (opsOf (.worker (.adv th)) (socketOps es)))
            (opsOf (.worker (.adv th)) o)) := by
    rw [opsOf_other hcalls he]
    exact ⟨⟨hs.1, trivial⟩, opened_of_ne hs.2 hcalls he hpc fun _ => hrunning⟩
  cases hstep with
  | main _ h => exact hother nofun (adv_created hcreated h th)
  | signal => exact hother nofun (.inl rfl)
  | dhcp _ h => exact hother nofun (.inl (by rw [(dhcp_frame h).adv]))
  | adv j _ h =>
    by_cases hj : th = j
    · subst hj
      obtain ⟨hused, hopened⟩ := opened_own hs.2 hrunning h (advCalls_of_step hcalls)
      exact ⟨⟨hs.1, hused⟩, hopened⟩
    · refine hother (fun heq => hj ?_) (.inl ((adv_frame h).others th hj))
      exact (Worker.adv.inj (Option.some.inj heq)).symm

theorem opened_run {es : List SocketEvent} {p : DhOptIAPrefix} {y : Process × Handlers}
    (hrun : Run (SocketStep useDhcp) (Process.init p, k) es y) (th : AdvThread) :
    WellUsed [] (opsOf (.worker (.adv th)) (socketOps es)) ∧
      (y.1.adv th).Opened th y.2 (SetUpFailed th es) y.1.exited
        (held [] (opsOf (.worker (.adv th)) (socketOps es))) := by
  refine (hrun.trace_invariant (I := fun es y => y.1.Created ∧
      WellUsed [] (opsOf (.worker (.adv th)) (socketOps es)) ∧
      (y.1.adv th).Opened th y.2 (SetUpFailed th es) y.1.exited
        (held [] (opsOf (.worker (.adv th)) (socketOps es))))
    (fun es y e z hI hstep => ?_) ⟨created_init p, trivial, rfl, nofun⟩).2
  exact ⟨created_step hI.1 hstep.1, opened_step hI.1 hI.2 hstep⟩

end SocketsLemmas

open SocketsLemmas

/-! ### A sample run -/

/-- The operations of the DHCP thread. -/
def dhcpOps (ops : List (HandleOp Nat)) : List (SocketUser × HandleOp Nat) :=
  ops.map (Prod.mk (.worker .requestDhcpPrefix))

/-- The system calls of a pass whose `sendto` fails. -/
def exCall : SocketEvent :=
  (.dhcp (.call (some 1)), dhcpOps [.use 4, .release 4])

/-- The DHCP thread makes such a pass, and `main` comes to create the other threads. -/
def exGate : List SocketEvent :=
  [(.main (.init exInit), [(.utils, .acquire 3), (.utils, .use 3)]), (.main .register, []),
    (.main .createDhcp, []), (.dhcp .setUp, dhcpOps [.acquire 4, .use 4, .use 4, .use 4, .use 4]),
    (.dhcp .enter, []), (.dhcp .lock, []), exCall, (.dhcp .convertPreferred, []),
    (.dhcp .convertValid, []), (.dhcp (.setLength none), []), (.dhcp .unlock, []),
    (.main .seePrefix, []), (.main .createRa, [])]

/-- `Thread_sendRouterAdv` opens its socket, and the DHCP thread is about to ask again. -/
def exOpens : List SocketEvent :=
  exGate ++ (.adv .sendRouterAdv .setUp, [(.worker (.adv .sendRouterAdv), .acquire 4),
    (.worker (.adv .sendRouterAdv), .use 4)]) :: [(.dhcp .enter, []), (.dhcp .lock, [])]

def exHandlers : Handlers := ⟨0, fun _ => 0, 0⟩

namespace SocketsLemmas

theorem dhcp_silent {useDhcp : Bool} {s t : Process} {k : Handlers} {e : DhcpEvent}
    (hrunning : s.exited = false) (h : DhcpStep s e t) (he : e.Silent) :
    SocketStep useDhcp (s, k) (.dhcp e, []) (t, k) :=
  ⟨.dhcp hrunning h, .dhcp (.silent he)⟩

theorem main_silent {useDhcp : Bool} {s t : Process} {k : Handlers} {e : MainEvent}
    (hrunning : s.exited = false) (h : MainStep useDhcp s e t) (hutils : t.utils = s.utils) :
    SocketStep useDhcp (s, k) (.main e, []) (t, k) := by
  have hnone : UtilsCalls s t [] := by
    rw [UtilsCalls, hutils]
    exact (List.append_nil _).symm
  exact ⟨.main hrunning h, .main hnone⟩

theorem exCall_step {s : Process} {k : Handlers} (hrunning : s.exited = false)
    (hpc : s.dhcp = .calling) (hk : k.handler = 4) :
    SocketStep true (s, k) exCall ({ s with dhcp := .convertPreferred none }, k) := by
  have hbuffer : BufferAt 0x8000 1500 := ⟨by decide, by decide⟩
  obtain ⟨c, hreturns, hcalls, hone⟩ := request_unsent
    { exReceives [] with sendFails := true } k.handler (fun _ => 0) s.sharedPrefix rfl rfl
  have hops : c.calls.map SysCall.op = [.use 4, .release 4] := by
    rw [hcalls, hk]
    rfl
  have hafter : { s with dhcp := .convertPreferred none } = s.afterCall c := by
    simp only [Process.afterCall, hone]
  have hown := DhcpCalls.call hbuffer hreturns hafter
  rw [hone, hops] at hown
  exact ⟨.dhcp hrunning (call_fails hpc), .dhcp hown⟩

theorem exInit_step (useDhcp : Bool) : SocketStep useDhcp (Process.init blankPrefix, exHandlers)
    (.main (.init exInit), [(.utils, .acquire 3), (.utils, .use 3)])
    ({ Process.init blankPrefix with
      utils := (utilsInit exInit Utils.init).utils
      main := .register }, exHandlers) := by
  have hutils : UtilsCalls (Process.init blankPrefix) { Process.init blankPrefix with
      utils := (utilsInit exInit Utils.init).utils
      main := .register } [.acquire 3, .use 3] := rfl
  exact ⟨.main rfl (.init exInit rfl), .main hutils⟩

theorem exSetUp_step {s : Process} {k : Handlers} (hrunning : s.exited = false)
    (hpc : s.dhcp = .setUp) : SocketStep true (s, k)
      (.dhcp .setUp, dhcpOps [.acquire 4, .use 4, .use 4, .use 4, .use 4])
      ({ s with dhcp := .loopTop }, { k with handler := 4 }) := by
  have hsetUp : requestDhcpPrefixSetUp ⟨some 4, true, true, none, 0x8000, []⟩ =
      (some 4, [.socket 4, .setsockopt 4, .ioctl 4, .bind 4, .ioctl 4]) := rfl
  have hown : DhcpCalls s { s with dhcp := .loopTop } k .setUp _ _ := .setUp hsetUp
  exact ⟨.dhcp hrunning (.setUp hpc), .dhcp hown⟩

/-- The DHCP thread and the first of the others are in place. -/
structure ReadyToOpen (s : Process) : Prop where
  exited : s.exited = false
  mutex : s.mutex = none
  cancelDhcp : s.cancelDhcp = false
  dhcp : s.dhcp = .loopTop
  adv : s.adv .sendRouterAdv = .setUp

theorem exGate_run : ∃ s k, Run (SocketStep true) (Process.init blankPrefix, exHandlers) exGate
    (s, k) ∧ ReadyToOpen s ∧ k.handler = 4 :=
  ⟨_, _, .cons (exInit_step true) (.cons (main_silent rfl (.register rfl) rfl)
    (.cons (main_silent rfl (.createDhcp rfl) rfl) (.cons (exSetUp_step rfl rfl)
      (.cons (dhcp_silent rfl (.enter rfl rfl) trivial)
        (.cons (dhcp_silent rfl (.lock rfl rfl) trivial) (.cons (exCall_step rfl rfl rfl)
          (.cons (dhcp_silent rfl (.convertPreferred none rfl) trivial)
            (.cons (dhcp_silent rfl (.convertValid none rfl) trivial)
              (.cons (dhcp_silent rfl (.setLength none rfl) trivial)
                (.cons (dhcp_silent rfl (.unlock rfl) trivial)
                  (.cons (main_silent rfl (.seePrefix rfl (by decide)) rfl)
                    (.single (main_silent rfl (.createRa rfl) rfl))))))))))))),
    ⟨rfl, rfl, rfl, rfl, rfl⟩, rfl⟩

theorem exOpens_run : ∃ y, Run (SocketStep true) (Process.init blankPrefix, exHandlers)
    (exOpens ++ [exCall]) y := by
  obtain ⟨s, k, hgate, hready, hk⟩ := exGate_run
  have hopens : sendRouterAdvSetUp (some 4) true = (some 4, [.acquire 4, .use 4]) := rfl
  have hnone : UtilsCalls s (s.goto .sendRouterAdv .loopTop) [] := (List.append_nil _).symm
  have hown : AdvCalls k .sendRouterAdv .setUp [.acquire 4, .use 4] _ := .raSetUp hopens
  have hstep : SocketStep true (s, k) (.adv .sendRouterAdv .setUp,
      [(.worker (.adv .sendRouterAdv), .acquire 4), (.worker (.adv .sendRouterAdv), .use 4)])
      (s.goto .sendRouterAdv .loopTop, _) :=
    ⟨.adv _ hready.exited (.setUp hready.adv), .adv hnone hown⟩
  have hrest := Run.cons hstep
    (.cons (dhcp_silent hready.exited (.enter hready.dhcp hready.cancelDhcp) trivial)
      (.cons (dhcp_silent hready.exited (.lock rfl hready.mutex) trivial)
        (.single (exCall_step hready.exited rfl hk))))
  exact ⟨_, hgate.append hrest⟩

end SocketsLemmas

/-- **The advertising threads.** Each uses a socket only between its own opening and its
own closing of it. When one has ended, it has closed what it opened, but for one of two
sockets when the set-up of `Thread_listenRouterSolicit` has failed. -/
theorem adv_discipline {useDhcp : Bool} {p : DhOptIAPrefix} {k : Handlers} {es : List SocketEvent}
    {y : Process × Handlers} (hrun : Run (SocketStep useDhcp) (Process.init p, k) es y)
    (th : AdvThread) :
    WellUsed [] (opsOf (.worker (.adv th)) (socketOps es)) ∧
      (y.1.adv th = .ended →
        (ReleasedOnce (opsOf (.worker (.adv th)) (socketOps es)) ↔
          ¬ (th = .listenRouterSolicit ∧ SetUpFailed th es)) ∧
        (th = .listenRouterSolicit → SetUpFailed th es →
          (held [] (opsOf (.worker (.adv th)) (socketOps es))).length = 1)) := by
  obtain ⟨hused, hopened⟩ := opened_run hrun th
  refine ⟨hused, fun hended => ?_⟩
  rw [hended] at hopened
  rw [releasedOnce_iff hused]
  rcases hopened with ⟨hth, hfailed, hone⟩ | ⟨hnot, hnil⟩
  · refine ⟨iff_of_false (fun hnil => ?_) fun hnot => hnot ⟨hth, hfailed⟩, fun _ _ => hone⟩
    rw [hnil] at hone
    cases hone
  · exact ⟨iff_of_true hnil hnot, fun hth hfailed => absurd ⟨hth, hfailed⟩ hnot⟩

/-- The operations of an advertising thread. -/
def advOps (th : AdvThread) (ops : List (HandleOp Nat)) : List (SocketUser × HandleOp Nat) :=
  ops.map (Prod.mk (.worker (.adv th)))

/-- In static mode, `Thread_sendRouterAdv` cannot bind its socket to the interface, and
`Thread_listenRouterSolicit` not the first of its two. -/
def exFailures : List SocketEvent :=
  [(.main (.init exInit), [(.utils, .acquire 3), (.utils, .use 3)]), (.main .register, []),
    (.main .createRa, []),
    (.adv .sendRouterAdv .setUpFails, advOps .sendRouterAdv [.acquire 4, .use 4, .release 4]),
    (.main .createRs, []),
    (.adv .listenRouterSolicit .setUpFails,
      advOps .listenRouterSolicit [.acquire 4, .acquire 5, .use 4, .release 4])]

namespace SocketsLemmas

theorem adv_setUpFails {useDhcp : Bool} {s : Process} {k : Handlers} {th : AdvThread}
    {ops : List (HandleOp Nat)} (hrunning : s.exited = false) (hpc : s.adv th = .setUp)
    (hcalls : AdvCalls k th .setUpFails ops k) :
    SocketStep useDhcp (s, k) (.adv th .setUpFails, advOps th ops)
      ({ s.goto th .ended with cancel := s.cancelAfterFailure th }, k) := by
  have hnone : UtilsCalls s { s.goto th .ended with cancel := s.cancelAfterFailure th } [] :=
    (List.append_nil _).symm
  exact ⟨.adv th hrunning (.setUpFails hpc), .adv hnone hcalls⟩

theorem exFailures_run : ∃ y, Run (SocketStep false) (Process.init blankPrefix, exHandlers)
    exFailures y ∧ y.1.adv .sendRouterAdv = .ended ∧ y.1.adv .listenRouterSolicit = .ended := by
  have hra : sendRouterAdvSetUp (some 4) false = (none, [.acquire 4, .use 4, .release 4]) := rfl
  have hrs : listenRouterSolicitSetUp ⟨some 4, some 5, false, true, true⟩ =
      (.returns, [.acquire 4, .acquire 5, .use 4, .release 4]) := rfl
  exact ⟨_, .cons (exInit_step false) (.cons (main_silent rfl (.register rfl) rfl)
    (.cons (main_silent rfl (.createRa rfl) rfl) (.cons (adv_setUpFails rfl rfl (.raSetUpFails hra))
      (.cons (main_silent rfl (.createRs rfl) rfl)
        (.single (adv_setUpFails rfl rfl (.rsSetUpFails hrs))))))), rfl, rfl⟩

end SocketsLemmas

/-- One of the two has closed its socket, the other has one left. -/
theorem exFailures_discipline :
    ReleasedOnce (opsOf (.worker (.adv .sendRouterAdv)) (socketOps exFailures)) ∧
      ¬ ReleasedOnce (opsOf (.worker (.adv .listenRouterSolicit)) (socketOps exFailures)) ∧
      (held [] (opsOf (.worker (.adv .listenRouterSolicit)) (socketOps exFailures))).length = 1 := by
  obtain ⟨y, hrun, hra, hrs⟩ := exFailures_run
  have hfailed : SetUpFailed .listenRouterSolicit exFailures := by simp [SetUpFailed, exFailures]
  obtain ⟨honce, _⟩ := (adv_discipline hrun .sendRouterAdv).2 hra
  obtain ⟨hnot, hone⟩ := (adv_discipline hrun .listenRouterSolicit).2 hrs
  refine ⟨honce.mpr nofun, ?_, hone rfl hfailed⟩
  exact fun hreleased => hnot.mp hreleased ⟨rfl, hfailed⟩

end Pdrad
