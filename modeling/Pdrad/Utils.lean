import Mathlib.Logic.Function.Basic
import Pdrad.Handles
import Pdrad.In6Addr
import Pdrad.Runs

/-!
# The module `utils` and its users (`utils.c`, `test.c`)

Two globals, a descriptor and an `ifreq` block, that `main` sets up, two threads
use, and a signal handler disposes of. Every system call may fail. The calls of the
module are the steps of a transition system, in any order in which `main`, the
threads and the handler can make them.

1. `getHardwareAddressByName_ready`, `getLinkLocalAddress_ready`: what keeps the
   module ready for use. A failed `ioctl` does no harm.
2. `init_dangling`, `getLinkLocalAddress_closed`, `dispose_closed`: every path that
   gives something back leaves the global that names it.
3. `init_again`: behind a failed `utils_Init` there is no second one.
4. `safeOnTheWay_iff`: all states of a run are safe exactly when these paths are
   not taken in it.
-/

namespace Pdrad

open HandleOp

/-! ## The module -/

/-- An error number. -/
structure Errno where
  val : Nat
  ne_zero : val ≠ 0
deriving DecidableEq

def ebadf : Errno := ⟨9, by decide⟩
def einval : Errno := ⟨22, by decide⟩

/-- `utils_handler` and `utils_request`, and what the module has done so far to
descriptors and to blocks. -/
structure Utils where
  handler : Int
  request : Option Nat
  fds : List (HandleOp Int)
  blocks : List (HandleOp Nat)

namespace Utils

def init : Utils where
  handler := -1
  request := none
  fds := []
  blocks := []

/-- Note an operation on `utils_handler`. There is nothing behind `-1`. -/
def onHandler (u : Utils) (op : Int → HandleOp Int) : Utils :=
  if u.handler = -1 then u else { u with fds := u.fds ++ [op u.handler] }

/-- Note an operation on `*utils_request`. -/
def onRequest (u : Utils) (op : Nat → HandleOp Nat) : Utils :=
  match u.request with
  | none => u
  | some block => { u with blocks := u.blocks ++ [op block] }

/-- The outcome of a system call on `utils_handler`. On `-1` none works. -/
def attempt {α : Type} (u : Utils) (outcome : Except Errno α) : Except Errno α :=
  if u.handler = -1 then .error ebadf else outcome

end Utils

/-- What a call of the module leaves behind: the module, the returned `int`, and what
it has written to its result argument. -/
structure UtilsCall (α : Type) where
  utils : Utils
  ret : Int
  written : Option α

/-- `MAC_ADDRESS_LENGTH`. -/
def macAddressLength : Nat := 6

/-- `none` where `NULL` is written to. -/
def utilsGetHardwareAddressByName (ioctl : Except Errno (List UInt8)) (u : Utils) :
    Option (UtilsCall (List UInt8)) :=
  if u.request.isNone then none
  else
    let u := u.onRequest .use
    let result := u.attempt ioctl
    let u := (u.onHandler .use).onRequest .use
    match result with
    | .error errno => some ⟨u, errno.val, none⟩
    | .ok saData => some ⟨u.onRequest .use, 0, some (saData.take macAddressLength)⟩

/-- What `utils_Init` meets: the descriptor from `socket`, unless it fails, the block
from `malloc`, and the outcome of `setsockopt`. -/
structure InitEnv where
  socket : Option Nat
  block : Nat
  setsockopt : Except Errno Unit

def utilsInit (env : InitEnv) (u : Utils) : UtilsCall Unit :=
  if u.handler ≠ -1 ∨ u.request ≠ none then ⟨u, einval.val, none⟩
  else
    let u :=
      match env.socket with
      | none => { u with handler := -1 }
      | some fd => { u with handler := fd, fds := u.fds ++ [HandleOp.acquire (fd : Int)] }
    let u := { u with request := some env.block, blocks := u.blocks ++ [HandleOp.acquire env.block] }
    let u := u.onRequest .use
    let result := u.attempt env.setsockopt
    let u := (u.onHandler .use).onRequest .use
    match result with
    | .error errno =>
      -- neither global is reset
      let u := u.onHandler .release
      let u := u.onRequest .release
      ⟨u, errno.val, none⟩
    | .ok () => ⟨u, 0, none⟩

/-- The address is written behind a failed `getsockname` too. -/
def utilsGetLinkLocalAddress (connect : Except Errno Unit) (getsockname : Except Errno In6Addr)
    (u : Utils) : UtilsCall In6Addr :=
  let result := u.attempt connect
  let u := u.onHandler .use
  match result with
  | .error errno => ⟨u.onHandler .release, errno.val, none⟩
  | .ok () =>
    let result := u.attempt getsockname
    let u := u.onHandler .use
    match result with
    -- there is no `return` behind the `close`
    | .error _ => ⟨u.onHandler .release, 0, some In6Addr.zero⟩
    | .ok addr => ⟨u, 0, some addr⟩

/-- A descriptor is closed even where `close` reports an error. -/
def utilsDispose (close : Except Errno Unit) (u : Utils) : UtilsCall Unit :=
  let result := u.attempt close
  let u := u.onHandler .release
  match result with
  | .error _ => ⟨u, -1, none⟩
  | .ok () => ⟨u, 0, none⟩

/-! ## Its users -/

/-- `Thread_sendRouterAdv` and `Thread_listenRouterSolicit`. -/
inductive AdvThread where
  | sendRouterAdv
  | listenRouterSolicit
deriving DecidableEq

/-- How far `main` has come: it has not yet called `utils_Init`, or has; the signal
handler is registered; the threads are created; it has returned. -/
inductive MainPc where
  | start
  | inited
  | registered
  | watching
  | returned
deriving DecidableEq

/-- How far a thread has come. `link` and `hardware` are the calls it is about to
make. -/
inductive ThreadPc where
  | absent
  | setUp
  | loopTop
  | link
  | hardware
  | ended
deriving DecidableEq

/-- `initRet` is what `utils_Init` has returned, `cancel` the flags of the threads. -/
structure UtilsWorld where
  utils : Utils
  initRet : Int
  main : MainPc
  pc : AdvThread → ThreadPc
  cancel : AdvThread → Bool

inductive UtilsEvent where
  | init (env : InitEnv)
  | register
  | create
  | signal (close : Except Errno Unit)
  | setUp (th : AdvThread) (works : Bool)
  | enter (th : AdvThread)
  | leave (th : AdvThread)
  | getLinkLocalAddress (th : AdvThread) (connect : Except Errno Unit)
      (getsockname : Except Errno In6Addr)
  | getHardwareAddressByName (th : AdvThread) (ioctl : Except Errno (List UInt8))
  | mainReturns

namespace UtilsWorld

def init : UtilsWorld where
  utils := Utils.init
  initRet := 0
  main := .start
  pc := fun _ => .absent
  cancel := fun _ => false

/-- The thread comes to `pc`. -/
def goto (s : UtilsWorld) (th : AdvThread) (pc : ThreadPc) : UtilsWorld :=
  { s with pc := Function.update s.pc th pc }

/-- The flags after the set-up of a thread has failed: only `Thread_sendRouterAdv`
sets its own. -/
def cancelAfterFailure (s : UtilsWorld) : AdvThread → AdvThread → Bool
  | .sendRouterAdv => Function.update s.cancel .sendRouterAdv true
  | .listenRouterSolicit => s.cancel

/-- The steps. A signal arrives between two of the others, once the handler is
registered. -/
inductive Step (s : UtilsWorld) : UtilsEvent → UtilsWorld → Prop where
  | init (env : InitEnv) : s.main = .start →
      Step s (.init env) { s with
        utils := (utilsInit env s.utils).utils
        initRet := (utilsInit env s.utils).ret
        main := .inited }
  | register : s.main = .inited → Step s .register { s with main := .registered }
  | create : s.main = .registered →
      Step s .create { s with main := .watching, pc := fun _ => .setUp }
  | signal (close : Except Errno Unit) : s.main = .registered ∨ s.main = .watching →
      Step s (.signal close) { s with
        utils := (utilsDispose close s.utils).utils
        cancel := fun _ => true }
  | setUp (th : AdvThread) : s.main = .watching → s.pc th = .setUp →
      Step s (.setUp th true) (s.goto th .loopTop)
  | setUpFails (th : AdvThread) : s.main = .watching → s.pc th = .setUp →
      Step s (.setUp th false) { s.goto th .ended with cancel := s.cancelAfterFailure th }
  | enter (th : AdvThread) : s.main = .watching → s.pc th = .loopTop → s.cancel th = false →
      Step s (.enter th) (s.goto th .link)
  | leave (th : AdvThread) : s.main = .watching → s.pc th = .loopTop → s.cancel th = true →
      Step s (.leave th) (s.goto th .ended)
  | getLinkLocalAddress (th : AdvThread) (connect : Except Errno Unit)
      (getsockname : Except Errno In6Addr) : s.main = .watching → s.pc th = .link →
      Step s (.getLinkLocalAddress th connect getsockname) { s.goto th .hardware with
        utils := (utilsGetLinkLocalAddress connect getsockname s.utils).utils }
  | getHardwareAddressByName (th : AdvThread) (ioctl : Except Errno (List UInt8))
      (call : UtilsCall (List UInt8)) : s.main = .watching → s.pc th = .hardware →
      utilsGetHardwareAddressByName ioctl s.utils = some call →
      Step s (.getHardwareAddressByName th ioctl) { s.goto th .loopTop with utils := call.utils }
  | mainReturns : s.main = .watching →
      s.cancel .sendRouterAdv = true ∨ s.cancel .listenRouterSolicit = true →
      Step s .mainReturns { s with main := .returned }

end UtilsWorld

/-! ## What ought to hold -/

/-- The globals name a descriptor and a block that the module has and has not given
back, and nothing else was ever used. -/
structure Utils.Sound (u : Utils) : Prop where
  handler : u.handler ≠ -1 → u.handler ∈ held [] u.fds
  request : ∀ block ∈ u.request, block ∈ held [] u.blocks
  fdsUsed : WellUsed [] u.fds
  blocksUsed : WellUsed [] u.blocks

/-- The module is sound, and as it was at first when `utils_Init` has just failed. -/
structure UtilsWorld.Safe (s : UtilsWorld) : Prop where
  sound : s.utils.Sound
  initClean : s.main = .inited → s.initRet ≠ 0 → s.utils.handler = -1 ∧ s.utils.request = none

/-- The events that close nothing. -/
def EventOk : UtilsEvent → Prop
  | .init env => env.socket.isSome ∧ env.setsockopt = .ok ()
  | .getLinkLocalAddress _ connect getsockname => connect = .ok () ∧ ∃ addr, getsockname = .ok addr
  | .signal _ => False
  | _ => True

/-! ## What the calls do to the module -/

/-- The module is ready for use. -/
structure Utils.Holding (u : Utils) (fd : Int) (block : Nat) : Prop where
  handler : u.handler = fd
  opened : fd ≠ -1
  request : u.request = some block
  fds : held [] u.fds = [fd]
  blocks : held [] u.blocks = [block]
  fdsUsed : WellUsed [] u.fds
  blocksUsed : WellUsed [] u.blocks

/-- `utils_handler` names a descriptor that is closed. -/
def Utils.Stale (u : Utils) : Prop :=
  u.handler ≠ -1 ∧ u.handler ∉ held [] u.fds

theorem Utils.Stale.not_sound {u : Utils} (h : u.Stale) : ¬ u.Sound :=
  fun hsound => h.2 (hsound.handler h.1)

namespace Utils.Holding

variable {u : Utils} {fd : Int} {block : Nat}

theorem sound (h : u.Holding fd block) : u.Sound := by
  refine ⟨fun _ => ?_, fun b hb => ?_, h.fdsUsed, h.blocksUsed⟩
  · rw [h.handler, h.fds]
    exact List.mem_singleton_self fd
  · obtain rfl := Option.some.inj (h.request.symm.trans hb)
    rw [h.blocks]
    exact List.mem_singleton_self block

theorem attempt (h : u.Holding fd block) {α : Type} (outcome : Except Errno α) :
    u.attempt outcome = outcome :=
  if_neg (h.handler ▸ h.opened)

theorem onHandler (h : u.Holding fd block) (op : Int → HandleOp Int) :
    u.onHandler op = { u with fds := u.fds ++ [op fd] } := by
  rw [Utils.onHandler, if_neg (h.handler ▸ h.opened), h.handler]

theorem onRequest (h : u.Holding fd block) (op : Nat → HandleOp Nat) :
    u.onRequest op = { u with blocks := u.blocks ++ [op block] } := by
  rw [Utils.onRequest, h.request]

theorem useHandler (h : u.Holding fd block) : (u.onHandler .use).Holding fd block := by
  rw [h.onHandler]
  refine ⟨h.handler, h.opened, h.request, ?_, h.blocks, ?_, h.blocksUsed⟩
  · rw [held_append, h.fds]
    rfl
  · rw [wellUsed_append, h.fds]
    exact ⟨h.fdsUsed, List.mem_singleton_self fd, trivial⟩

theorem useRequest (h : u.Holding fd block) : (u.onRequest .use).Holding fd block := by
  rw [h.onRequest]
  refine ⟨h.handler, h.opened, h.request, h.fds, ?_, h.fdsUsed, ?_⟩
  · rw [held_append, h.blocks]
    rfl
  · rw [wellUsed_append, h.blocks]
    exact ⟨h.blocksUsed, List.mem_singleton_self block, trivial⟩

theorem closeHandler (h : u.Holding fd block) : (u.onHandler .release).Stale := by
  have hnone : held [] (u.fds ++ [HandleOp.release fd]) = [] := by
    rw [held_append, h.fds]
    simp [held, heldAfter]
  rw [h.onHandler]
  refine ⟨h.handler ▸ h.opened, ?_⟩
  rw [hnone]
  exact List.not_mem_nil

end Utils.Holding

section

variable {u : Utils} {fd : Int} {block : Nat}

/-- The interface is asked for its address; whether it answers does not matter. -/
theorem getHardwareAddressByName_ready (ioctl : Except Errno (List UInt8))
    (h : u.Holding fd block) : ∃ call, utilsGetHardwareAddressByName ioctl u = some call ∧
      call.utils.Holding fd block := by
  have hused := (h.useRequest.useHandler).useRequest
  have hsome : ¬ u.request.isNone := by
    rw [h.request]
    exact Bool.false_ne_true
  rw [utilsGetHardwareAddressByName, if_neg hsome]
  simp only [h.useRequest.attempt]
  cases ioctl with
  | error errno => exact ⟨_, rfl, hused⟩
  | ok saData => exact ⟨_, rfl, hused.useRequest⟩

/-- The address is found when both calls work. -/
theorem getLinkLocalAddress_ready (addr : In6Addr) (h : u.Holding fd block) :
    (utilsGetLinkLocalAddress (.ok ()) (.ok addr) u).utils.Holding fd block := by
  simp only [utilsGetLinkLocalAddress, h.attempt, h.useHandler.attempt]
  exact h.useHandler.useHandler

/-- When one of them fails, the descriptor is closed behind its name. -/
theorem getLinkLocalAddress_closed {connect : Except Errno Unit} {getsockname : Except Errno In6Addr}
    (h : u.Holding fd block) (hfails : ¬ (connect = .ok () ∧ ∃ addr, getsockname = .ok addr)) :
    (utilsGetLinkLocalAddress connect getsockname u).utils.Stale := by
  simp only [utilsGetLinkLocalAddress, h.attempt]
  cases connect with
  | error errno => exact h.useHandler.closeHandler
  | ok =>
    simp only [h.useHandler.attempt]
    cases getsockname with
    | error errno => exact h.useHandler.useHandler.closeHandler
    | ok addr => exact absurd ⟨rfl, addr, rfl⟩ hfails

theorem dispose_closed (close : Except Errno Unit) (h : u.Holding fd block) :
    (utilsDispose close u).utils.Stale := by
  rw [utilsDispose, h.attempt]
  cases close with
  | error errno => exact h.closeHandler
  | ok => exact h.closeHandler

end

namespace UtilsLemmas

theorem onHandler_request (u : Utils) (op : Int → HandleOp Int) :
    (u.onHandler op).request = u.request := by
  unfold Utils.onHandler
  split <;> rfl

theorem onHandler_blocks (u : Utils) (op : Int → HandleOp Int) :
    (u.onHandler op).blocks = u.blocks := by
  unfold Utils.onHandler
  split <;> rfl

theorem freed_request {u : Utils} {block : Nat} (hrequest : u.request = some block)
    (hblocks : held [] u.blocks = [block]) :
    (u.onRequest .release).request = some block ∧ held [] (u.onRequest .release).blocks = [] := by
  have hfree : u.onRequest .release = { u with blocks := u.blocks ++ [.release block] } := by
    rw [Utils.onRequest, hrequest]
  rw [hfree]
  refine ⟨hrequest, ?_⟩
  rw [held_append, hblocks]
  simp [held, heldAfter]

/-- The module with a new descriptor and a new block. -/
def acquired (handler : Int) (fds : List (HandleOp Int)) (block : Nat) : Utils :=
  ⟨handler, some block, fds, [.acquire block]⟩

theorem holding_acquired (fd block : Nat) :
    (acquired fd [.acquire (fd : Int)] block).Holding fd block := by
  refine ⟨rfl, ?_, rfl, rfl, rfl, ⟨trivial, trivial⟩, ⟨trivial, trivial⟩⟩
  omega

/-- `utils_Init` from `setsockopt` on. -/
def bindInterface (setsockopt : Except Errno Unit) (u : Utils) : UtilsCall Unit :=
  let u := u.onRequest .use
  let result := u.attempt setsockopt
  let u := (u.onHandler .use).onRequest .use
  match result with
  | .error errno => ⟨(u.onHandler .release).onRequest .release, errno.val, none⟩
  | .ok () => ⟨u, 0, none⟩

theorem utilsInit_eq (env : InitEnv) :
    utilsInit env Utils.init = bindInterface env.setsockopt (match env.socket with
      | none => acquired (-1) [] env.block
      | some fd => acquired fd [.acquire (fd : Int)] env.block) := by
  have hinit : ¬ (Utils.init.handler ≠ -1 ∨ Utils.init.request ≠ none) := by
    simp [Utils.init]
  rw [utilsInit, if_neg hinit]
  cases env.socket <;> rfl

end UtilsLemmas

open UtilsLemmas

/-- A `utils_Init` that works. -/
theorem init_ready {env : InitEnv} {fd : Nat} (hsocket : env.socket = some fd)
    (hsetsockopt : env.setsockopt = .ok ()) :
    (utilsInit env Utils.init).utils.Holding fd env.block ∧ (utilsInit env Utils.init).ret = 0 := by
  have h := holding_acquired fd env.block
  rw [utilsInit_eq, hsocket, hsetsockopt]
  simp only [bindInterface, h.useRequest.attempt, and_true]
  exact h.useRequest.useHandler.useRequest

/-- One that does not leaves the name of the block it has freed. -/
theorem init_dangling {env : InitEnv} (hfails : ¬ (env.socket.isSome ∧ env.setsockopt = .ok ())) :
    (utilsInit env Utils.init).utils.request = some env.block ∧
      held [] (utilsInit env Utils.init).utils.blocks = [] := by
  rw [utilsInit_eq]
  cases hsocket : env.socket with
  | none =>
    simp [bindInterface, acquired, Utils.onRequest, Utils.onHandler, Utils.attempt, held, heldAfter]
  | some fd =>
    have h := holding_acquired fd env.block
    cases hsetsockopt : env.setsockopt with
    | ok => exact absurd ⟨by rw [hsocket]; rfl, hsetsockopt⟩ hfails
    | error errno =>
      have hused := h.useRequest.useHandler.useRequest
      simp only [bindInterface, h.useRequest.attempt]
      refine freed_request ?_ ?_
      · rw [onHandler_request, hused.request]
      · rw [onHandler_blocks, hused.blocks]

/-- Behind a `utils_Init` that has failed there is no second one: the globals it left
look like a module in use. -/
theorem init_again {env : InitEnv} (env' : InitEnv)
    (hfails : (utilsInit env Utils.init).ret ≠ 0) :
    utilsInit env' (utilsInit env Utils.init).utils =
      ⟨(utilsInit env Utils.init).utils, einval.val, none⟩ := by
  have hnot : ¬ (env.socket.isSome ∧ env.setsockopt = .ok ()) := by
    rintro ⟨hsocket, hsetsockopt⟩
    obtain ⟨fd, hfd⟩ := Option.isSome_iff_exists.mp hsocket
    exact hfails (init_ready hfd hsetsockopt).2
  have hused : (utilsInit env Utils.init).utils.request ≠ none := by
    rw [(init_dangling hnot).1]
    exact Option.some_ne_none env.block
  rw [utilsInit, if_pos (.inr hused)]

/-! ## Runs -/

namespace UtilsLemmas

/-- Nothing has been done, or the module is ready for use. -/
def Invariant (s : UtilsWorld) : Prop :=
  (s.main = .start ∧ s.utils = Utils.init) ∨
    (s.main ≠ .start ∧ s.initRet = 0 ∧ ∃ fd block, s.utils.Holding fd block)

theorem sound_init : Utils.init.Sound :=
  ⟨fun h => absurd rfl h, nofun, trivial, trivial⟩

theorem safe_of_invariant {s : UtilsWorld} (h : Invariant s) : s.Safe := by
  rcases h with ⟨hstart, hutils⟩ | ⟨_, hret, fd, block, hholding⟩
  · refine ⟨hutils ▸ sound_init, fun hinited => ?_⟩
    rw [hstart] at hinited
    cases hinited
  · exact ⟨hholding.sound, fun _ hfailed => absurd hret hfailed⟩

/-- Once `main` has called `utils_Init`, the module is ready for use. -/
theorem Invariant.ready {s : UtilsWorld} {pc : MainPc} (h : Invariant s) (hmain : s.main = pc)
    (hpc : pc ≠ .start) : s.main ≠ .start ∧ s.initRet = 0 ∧
      ∃ fd block, s.utils.Holding fd block := by
  rcases h with ⟨hstart, _⟩ | hready
  · exact absurd (hmain.symm.trans hstart) hpc
  · exact hready

theorem Invariant.fresh {s : UtilsWorld} (h : Invariant s) (hmain : s.main = .start) :
    s.utils = Utils.init := by
  rcases h with ⟨_, hutils⟩ | ⟨hstarted, _⟩
  · exact hutils
  · exact absurd hmain hstarted

/-- The events that are allowed keep the module ready for use. -/
theorem invariant_step {s t : UtilsWorld} {e : UtilsEvent} (h : Invariant s) (hok : EventOk e)
    (hstep : UtilsWorld.Step s e t) : Invariant t := by
  cases hstep with
  | init env hmain =>
    obtain ⟨hsocket, hsetsockopt⟩ := hok
    obtain ⟨fd, hfd⟩ := Option.isSome_iff_exists.mp hsocket
    obtain ⟨hholding, hret⟩ := init_ready hfd hsetsockopt
    rw [← h.fresh hmain] at hholding hret
    exact .inr ⟨nofun, hret, fd, env.block, hholding⟩
  | register hmain => exact .inr ⟨nofun, (h.ready hmain nofun).2⟩
  | create hmain => exact .inr ⟨nofun, (h.ready hmain nofun).2⟩
  | signal => exact hok.elim
  | setUp th hmain => exact .inr (h.ready hmain nofun)
  | setUpFails th hmain => exact .inr (h.ready hmain nofun)
  | enter th hmain => exact .inr (h.ready hmain nofun)
  | leave th hmain => exact .inr (h.ready hmain nofun)
  | getLinkLocalAddress th connect getsockname hmain =>
    obtain ⟨rfl, addr, rfl⟩ := hok
    obtain ⟨hstarted, hret, fd, block, hholding⟩ := h.ready hmain nofun
    exact .inr ⟨hstarted, hret, fd, block, getLinkLocalAddress_ready addr hholding⟩
  | getHardwareAddressByName th ioctl call hmain _ hcall =>
    obtain ⟨hstarted, hret, fd, block, hholding⟩ := h.ready hmain nofun
    obtain ⟨call', hcall', hready⟩ := getHardwareAddressByName_ready ioctl hholding
    obtain rfl := Option.some.inj (hcall.symm.trans hcall')
    exact .inr ⟨hstarted, hret, fd, block, hready⟩
  | mainReturns hmain => exact .inr ⟨nofun, (h.ready hmain nofun).2⟩

/-- The others do not leave it safe. -/
theorem eventOk_of_safe {s t : UtilsWorld} {e : UtilsEvent} (h : Invariant s)
    (hstep : UtilsWorld.Step s e t) (hsafe : t.Safe) : EventOk e := by
  cases hstep with
  | init env hmain =>
    -- a failure leaves the name of a freed block
    by_contra hfails
    obtain ⟨hrequest, hblocks⟩ := init_dangling hfails
    rw [← h.fresh hmain] at hrequest hblocks
    have hlive := hsafe.sound.request env.block hrequest
    rw [hblocks] at hlive
    cases hlive
  | signal close hmain =>
    -- whenever the handler is registered there is something to dispose of
    have hready : ∃ fd block, s.utils.Holding fd block := by
      rcases hmain with hmain | hmain
      · exact (h.ready hmain nofun).2.2
      · exact (h.ready hmain nofun).2.2
    obtain ⟨fd, block, hholding⟩ := hready
    exact (dispose_closed close hholding).not_sound hsafe.sound
  | getLinkLocalAddress th connect getsockname hmain =>
    by_contra hfails
    obtain ⟨_, _, fd, block, hholding⟩ := h.ready hmain nofun
    exact (getLinkLocalAddress_closed hholding hfails).not_sound hsafe.sound
  | register => trivial
  | create => trivial
  | setUp => trivial
  | setUpFails => trivial
  | enter => trivial
  | leave => trivial
  | getHardwareAddressByName => trivial
  | mainReturns => trivial

end UtilsLemmas

/-- **When the module is safe.** In a run, every state on the way is safe exactly when
`utils_Init` finds its socket and binds it, `connect` and `getsockname` work whenever
they are called, and no signal arrives. -/
theorem safeOnTheWay_iff {es : List UtilsEvent} {s : UtilsWorld}
    (hrun : Run UtilsWorld.Step UtilsWorld.init es s) :
    Run.OnTheWay UtilsWorld.Step UtilsWorld.init UtilsWorld.Safe es ↔ ∀ e ∈ es, EventOk e :=
  hrun.onTheWay_iff (fun _ _ _ h hok => invariant_step h hok) (fun _ _ _ h => eventOk_of_safe h)
    (fun _ h => safe_of_invariant h) (.inl ⟨rfl, rfl⟩)

/-- `setsockopt` may not bind the socket, for want of the privilege. -/
def exUnbound : InitEnv := ⟨some 3, 0x1000, .error ⟨1, by decide⟩⟩

/-- `utils_Init` fails and leaves the names of a closed descriptor and a freed block. -/
theorem exUnbound_unsafe :
    ¬ ∀ es s, Run UtilsWorld.Step UtilsWorld.init es s → s.Safe := by
  intro hall
  have hsafe := hall _ _ (Run.single (.init exUnbound rfl))
  exact absurd (hsafe.sound.request 0x1000 rfl) (by decide)

/-- The module is set up, and the advertising thread makes one pass, in which the
`ioctl` fails. -/
def exPass : List UtilsEvent :=
  [.init ⟨some 3, 0x1000, .ok ()⟩, .register, .create, .setUp .sendRouterAdv true,
    .enter .sendRouterAdv, .getLinkLocalAddress .sendRouterAdv (.ok ()) (.ok In6Addr.zero),
    .getHardwareAddressByName .sendRouterAdv (.error ⟨19, by decide⟩)]

theorem exPass_run : ∃ s, Run UtilsWorld.Step UtilsWorld.init exPass s :=
  ⟨_, .cons (.init _ rfl) (.cons (.register rfl) (.cons (.create rfl)
    (.cons (.setUp .sendRouterAdv rfl rfl) (.cons (.enter .sendRouterAdv rfl rfl rfl)
      (.cons (.getLinkLocalAddress .sendRouterAdv _ _ rfl rfl)
        (.single (.getHardwareAddressByName .sendRouterAdv _ _ rfl rfl rfl)))))))⟩

theorem exPass_safe :
    Run.OnTheWay UtilsWorld.Step UtilsWorld.init UtilsWorld.Safe exPass := by
  obtain ⟨s, hrun⟩ := exPass_run
  refine (safeOnTheWay_iff hrun).mpr fun e he => ?_
  simp only [exPass, List.mem_cons, List.not_mem_nil, or_false] at he
  rcases he with rfl | rfl | rfl | rfl | rfl | rfl | rfl
  · exact ⟨rfl, rfl⟩
  · trivial
  · trivial
  · trivial
  · trivial
  · exact ⟨rfl, In6Addr.zero, rfl⟩
  · trivial

end Pdrad
