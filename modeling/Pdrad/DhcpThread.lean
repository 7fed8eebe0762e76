import Pdrad.Handles
import Pdrad.ValidReply

/-!
# `Thread_requestDhcpPrefix` (`test.c`)

The thread opens a socket, sets it up, and calls `requestAndReceiveDhcp` until it
is cancelled; then it closes the socket. So does every call that comes back.

1. `request_trace`: what a call does to the descriptor.
2. `socketDiscipline_iff`: the descriptor is used while it is open and closed once
   exactly when the loop is never entered, or the process dies between its first
   and its second use of the descriptor.
-/

namespace Pdrad

open HandleOp

/-! ## The thread -/

/-- `_prefix` after the conversions that follow a request. They are made whatever
the request returned. -/
def afterRequest (p : DhOptIAPrefix) : DhOptIAPrefix :=
  { p with
    preferredLifetime := be32toh p.preferredLifetime
    validLifetime := be32toh p.validLifetime
    prefixLength := 64 }

/-- What the thread meets: the descriptor from `socket` (`none` when it fails),
whether `setsockopt` and `bind` work, the interface's MTU (`none` when the `ioctl`
fails), the address of the buffer, and one environment for each pass of the loop.
The thread is cancelled after the last of them. -/
structure ThreadEnv where
  socket : Option Nat
  setsockoptWorks : Bool
  bindWorks : Bool
  mtu : Option Nat
  buffer : Nat
  passes : List DhcpEnv

/-- A run of the thread, or of its loop. `died` when the process has ended. -/
structure ThreadRun where
  mem : Mem
  prefixResult : DhOptIAPrefix
  calls : List SysCall
  died : Bool

/-- `while (!Thread_requestDhcpPrefix_cancel)`. -/
def requestLoop (handler buffer mtu : Nat) :
    List DhcpEnv → Mem → DhOptIAPrefix → Nat → Option ThreadRun
  | [], m, p, _ => some ⟨m, p, [], false⟩
  | env :: envs, m, p, fuel =>
    match requestAndReceiveDhcp env handler m buffer mtu p fuel with
    | none => none
    | some c =>
      if c.ret.isNone then some ⟨c.mem, c.prefixResult, c.calls, true⟩
      else
        (requestLoop handler buffer mtu envs c.mem (afterRequest c.prefixResult) fuel).map
          fun run => { run with calls := c.calls ++ run.calls }

/-- The buffer's length. -/
def ThreadEnv.bufferLength (env : ThreadEnv) : Nat := env.mtu.getD 1500

def threadRequestDhcpPrefix (env : ThreadEnv) (m : Mem) (p : DhOptIAPrefix) (fuel : Nat) :
    Option ThreadRun :=
  match env.socket with
  | none => some ⟨m, p, [], false⟩
  | some handler =>
    let calls := [SysCall.socket handler, .setsockopt handler]
    if !env.setsockoptWorks then some ⟨m, p, calls ++ [.close handler], false⟩
    else
      let calls := calls ++ [.ioctl handler, .bind handler]
      if !env.bindWorks then some ⟨m, p, calls ++ [.close handler], false⟩
      else
        let calls := calls ++ [.ioctl handler]
        let mtu := env.bufferLength
        let m := m.put env.buffer (List.replicate mtu 0)
        (requestLoop handler env.buffer mtu env.passes m p fuel).map fun run =>
          { run with
            calls := calls ++ run.calls ++ if run.died then [] else [.close handler] }

/-! ## The descriptor -/

/-- What a system call does to the descriptor it is applied to. -/
def SysCall.op : SysCall → HandleOp Nat
  | .socket fd => .acquire fd
  | .close fd => .release fd
  | .setsockopt fd | .ioctl fd | .bind fd | .sendto fd _ | .recvfrom fd => .use fd

/-- The run comes to an end; every system call in it is applied to a descriptor
that the thread has opened and not yet closed, and closes what it opened once. -/
def SocketDiscipline (env : ThreadEnv) (m : Mem) (p : DhOptIAPrefix) : Prop :=
  ∃ run, Returns (threadRequestDhcpPrefix env m p) run ∧
    WellUsed [] (run.calls.map SysCall.op) ∧ ReleasedOnce (run.calls.map SysCall.op)

/-- The set-up fails, or the thread is cancelled before the first pass. -/
def LoopNotEntered (env : ThreadEnv) : Prop :=
  env.socket = none ∨ env.setsockoptWorks = false ∨ env.bindWorks = false ∨ env.passes = []

/-- The memory when the loop is entered: the buffer has been cleared. -/
def ThreadEnv.loopMem (env : ThreadEnv) (m : Mem) : Mem :=
  m.put env.buffer (List.replicate env.bufferLength 0)

/-- The first call comes back, and the second dies before any system call, for
want of a transaction id. -/
def DiesBeforeReuse (env : ThreadEnv) (m : Mem) : Prop :=
  ∃ first second rest, env.passes = first :: second :: rest ∧
    first.ComesBack (env.loopMem m) env.buffer env.bufferLength ∧ second.transId = none

namespace DhcpThreadLemmas

/-- A call that comes back closes the descriptor. One that dies does not, and has
not touched it at all when there was no transaction id. -/
theorem request_trace {env : DhcpEnv} {handler buffer bufferLength : Nat} {before : DhOptIAPrefix}
    {c : DhcpCall} (h : RequestResult env handler buffer bufferLength before c) :
    (env.transId = none ∧ c.ret = none ∧ c.calls = []) ∨
      (∃ transId, env.transId = some transId ∧ c.ret = none ∧
        c.calls = [sendSolicit handler transId, .recvfrom handler]) ∨
      ∃ transId middle, env.transId = some transId ∧ c.ret.isSome ∧
        (middle = [] ∨ middle = [SysCall.recvfrom handler]) ∧
        c.calls = sendSolicit handler transId :: (middle ++ [.close handler]) := by
  cases h with
  | noTransId htrans _ _ hcalls hnone => exact .inl ⟨htrans, hnone, hcalls⟩
  | sendFailed transId htrans _ _ _ hcalls hone =>
    exact .inr (.inr ⟨transId, [], htrans, by simp [hone], .inl rfl, hcalls⟩)
  | sent transId m htrans _ hreply =>
    cases hreply with
    | receiveFailed _ _ _ hcalls hnone => exact .inr (.inl ⟨transId, htrans, hnone, hcalls⟩)
    | nullFollowed d r _ _ _ _ _ hcalls hnone =>
      exact .inr (.inl ⟨transId, htrans, hnone, hcalls⟩)
    | installed d r pd _ _ _ _ _ hcalls hzero =>
      exact .inr (.inr ⟨transId, _, htrans, by simp [hzero], .inr rfl, hcalls⟩)

section

variable {handler buffer mtu : Nat} {e : DhcpEnv} {es : List DhcpEnv} {m : Mem}
  {p : DhOptIAPrefix} {c : DhcpCall} {run : ThreadRun}

/-- The loop ends in the pass whose call does not come back. -/
theorem requestLoop_died (es : List DhcpEnv)
    (hcall : Returns (requestAndReceiveDhcp e handler m buffer mtu p) c) (hret : c.ret = none) :
    Returns (requestLoop handler buffer mtu (e :: es) m p)
      ⟨c.mem, c.prefixResult, c.calls, true⟩ := by
  obtain ⟨n, hn⟩ := hcall
  refine ⟨n, fun k hk => ?_⟩
  simp only [requestLoop, hn k hk, hret]
  rfl

/-- It goes on after a pass whose call does. -/
theorem requestLoop_again (hcall : Returns (requestAndReceiveDhcp e handler m buffer mtu p) c)
    (hret : c.ret.isSome)
    (hrest : Returns (requestLoop handler buffer mtu es c.mem (afterRequest c.prefixResult)) run) :
    Returns (requestLoop handler buffer mtu (e :: es) m p)
      { run with calls := c.calls ++ run.calls } := by
  obtain ⟨n, hn⟩ := hcall
  obtain ⟨k, hk⟩ := hrest
  refine ⟨n + k, fun j hj => ?_⟩
  have hsome : c.ret.isNone = false := by
    rw [Option.isNone_eq_false_iff]
    exact hret
  simp only [requestLoop, hn j (by omega), hk j (by omega), hsome]
  rfl

/-- Whatever the passes meet, the loop comes to an end. -/
theorem requestLoop_returns (handler : Nat) (hbuffer : BufferAt buffer mtu) (es : List DhcpEnv)
    (m : Mem) (p : DhOptIAPrefix) :
    ∃ run, Returns (requestLoop handler buffer mtu es m p) run := by
  induction es generalizing m p with
  | nil => exact ⟨⟨m, p, [], false⟩, 0, fun _ _ => rfl⟩
  | cons e es ih =>
    obtain ⟨c, hcall, _⟩ := request_cases e handler m p hbuffer
    cases hret : c.ret with
    | none => exact ⟨_, requestLoop_died es hcall hret⟩
    | some r =>
      obtain ⟨run, hrest⟩ := ih c.mem (afterRequest c.prefixResult)
      exact ⟨_, requestLoop_again hcall (by simp [hret]) hrest⟩

end

/-- What the thread does behind the last pass. -/
def finalCalls (handler : Nat) (run : ThreadRun) : List SysCall :=
  if run.died then [] else [.close handler]

/-- A trace that starts with a send does so on a descriptor it holds. -/
theorem not_wellUsed_send {handler : Nat} {transId : DhPktTransactionId} {calls : List SysCall} :
    ¬ WellUsed [] ((sendSolicit handler transId :: calls).map SysCall.op) := by
  rintro ⟨hallowed, _⟩
  cases hallowed

/-- With nothing held, the rest of a run may only be empty. It is when the next
pass dies for want of a transaction id. -/
theorem rest_wellUsed {handler buffer mtu : Nat} (hbuffer : BufferAt buffer mtu)
    {es : List DhcpEnv} {m : Mem} {p : DhOptIAPrefix} {run : ThreadRun}
    (hrun : Returns (requestLoop handler buffer mtu es m p) run) :
    (run.calls ++ finalCalls handler run = [] ∧ ∃ e rest, es = e :: rest ∧ e.transId = none) ∨
      (¬ WellUsed [] ((run.calls ++ finalCalls handler run).map SysCall.op) ∧
        ∀ e rest, es = e :: rest → e.transId ≠ none) := by
  cases es with
  | nil =>
    obtain rfl := hrun.unique ⟨0, fun _ _ => rfl⟩
    refine .inr ⟨?_, by simp⟩
    rintro ⟨hallowed, _⟩
    cases hallowed
  | cons e rest =>
    obtain ⟨c, hcall, hresult⟩ := request_cases e handler m p hbuffer
    have hdrawn {transId : DhPktTransactionId} (htrans : e.transId = some transId) (e' : DhcpEnv)
        (rest' : List DhcpEnv) (heq : e :: rest = e' :: rest') : e'.transId ≠ none := by
      rw [← (List.cons.inj heq).1, htrans]
      exact Option.some_ne_none transId
    rcases request_trace hresult with ⟨htrans, hnone, hcalls⟩ |
      ⟨transId, htrans, hnone, hcalls⟩ | ⟨transId, middle, htrans, hsome, _, hcalls⟩
    · obtain rfl := hrun.unique (requestLoop_died rest hcall hnone)
      exact .inl ⟨by simp [finalCalls, hcalls], e, rest, rfl, htrans⟩
    · obtain rfl := hrun.unique (requestLoop_died rest hcall hnone)
      refine .inr ⟨?_, hdrawn htrans⟩
      rw [hcalls]
      exact not_wellUsed_send
    · obtain ⟨run', hrest⟩ := requestLoop_returns handler hbuffer rest c.mem
        (afterRequest c.prefixResult)
      obtain rfl := hrun.unique (requestLoop_again hcall hsome hrest)
      refine .inr ⟨?_, hdrawn htrans⟩
      rw [hcalls]
      exact not_wellUsed_send

/-- The calls that set the descriptor up. -/
def setUpCalls (handler : Nat) : List SysCall :=
  [.socket handler, .setsockopt handler, .ioctl handler, .bind handler, .ioctl handler]

theorem setUpCalls_spec (handler : Nat) :
    WellUsed [] ((setUpCalls handler).map SysCall.op) ∧
      held [] ((setUpCalls handler).map SysCall.op) = [handler] := by
  simp [setUpCalls, SysCall.op, WellUsed, Allowed, held, heldAfter]

/-- A call that comes back uses the descriptor and leaves nothing held. -/
theorem request_wellUsed {handler : Nat} (transId : DhPktTransactionId) {middle : List SysCall}
    (hmiddle : middle = [] ∨ middle = [SysCall.recvfrom handler]) :
    WellUsed [handler] ((sendSolicit handler transId :: (middle ++ [.close handler])).map SysCall.op) ∧
      held [handler]
        ((sendSolicit handler transId :: (middle ++ [.close handler])).map SysCall.op) = [] := by
  rcases hmiddle with rfl | rfl
  · simp [sendSolicit, SysCall.op, WellUsed, Allowed, held, heldAfter]
  · simp [sendSolicit, SysCall.op, WellUsed, Allowed, held, heldAfter]

/-- The thread behind a set-up that works. -/
theorem thread_returns {env : ThreadEnv} {handler : Nat} {m : Mem} {p : DhOptIAPrefix}
    {run : ThreadRun} (hsocket : env.socket = some handler) (hset : env.setsockoptWorks = true)
    (hbind : env.bindWorks = true)
    (hrun : Returns (requestLoop handler env.buffer env.bufferLength env.passes (env.loopMem m) p)
      run) :
    Returns (threadRequestDhcpPrefix env m p)
      { run with calls := setUpCalls handler ++ run.calls ++ finalCalls handler run } := by
  obtain ⟨n, hn⟩ := hrun
  refine ⟨n, fun k hk => ?_⟩
  have hloop := hn k hk
  rw [ThreadEnv.loopMem] at hloop
  simp only [threadRequestDhcpPrefix, hsocket, hset, hbind, hloop]
  rfl

/-- The discipline is a property of the calls of the one run there is. -/
theorem socketDiscipline_of_returns {env : ThreadEnv} {m : Mem} {p : DhOptIAPrefix}
    {run : ThreadRun} (hrun : Returns (threadRequestDhcpPrefix env m p) run) :
    SocketDiscipline env m p ↔
      WellUsed [] (run.calls.map SysCall.op) ∧ held [] (run.calls.map SysCall.op) = [] := by
  rw [SocketDiscipline, hrun.exists_iff]
  exact and_congr_right fun hused => releasedOnce_iff hused

/-- Behind a set-up that works, what counts is what the passes do with the
descriptor. -/
theorem socketDiscipline_setUp {env : ThreadEnv} {handler : Nat} {m : Mem} {p : DhOptIAPrefix}
    {run : ThreadRun} (hsocket : env.socket = some handler) (hset : env.setsockoptWorks = true)
    (hbind : env.bindWorks = true)
    (hrun : Returns (requestLoop handler env.buffer env.bufferLength env.passes (env.loopMem m) p)
      run) :
    SocketDiscipline env m p ↔
      WellUsed [handler] ((run.calls ++ finalCalls handler run).map SysCall.op) ∧
        held [handler] ((run.calls ++ finalCalls handler run).map SysCall.op) = [] := by
  obtain ⟨hused, hheld⟩ := setUpCalls_spec handler
  rw [socketDiscipline_of_returns (thread_returns hsocket hset hbind hrun)]
  simp only [List.map_append, wellUsed_append, held_append, hheld, hused, true_and]

end DhcpThreadLemmas

open DhcpThreadLemmas

/-- Behind a set-up that works, with at least one pass. -/
theorem socketDiscipline_entered {env : ThreadEnv} {handler : Nat} {first : DhcpEnv}
    {es : List DhcpEnv} (m : Mem) (p : DhOptIAPrefix)
    (hbuffer : BufferAt env.buffer env.bufferLength) (hsocket : env.socket = some handler)
    (hset : env.setsockoptWorks = true) (hbind : env.bindWorks = true)
    (hpasses : env.passes = first :: es) :
    SocketDiscipline env m p ↔ DiesBeforeReuse env m := by
  obtain ⟨c, hcall, hresult⟩ := request_cases first handler (env.loopMem m) p hbuffer
  have hback := comesBack_iff hbuffer hcall
  -- a run whose first call does not come back does not reach a second one
  have hstays (hnone : c.ret = none) : ¬ DiesBeforeReuse env m := by
    rintro ⟨first', second, rest, hpasses', hcomes, _⟩
    obtain rfl : first = first' := (List.cons.inj (hpasses.symm.trans hpasses')).1
    rw [← hback, hnone] at hcomes
    cases hcomes
  rcases request_trace hresult with ⟨_, hnone, hcalls⟩ | ⟨transId, _, hnone, hcalls⟩ |
    ⟨transId, middle, _, hsome, hmiddle, hcalls⟩
  · have hrun := requestLoop_died es hcall hnone
    rw [← hpasses] at hrun
    rw [socketDiscipline_setUp hsocket hset hbind hrun, hcalls]
    exact iff_of_false (by simp [finalCalls, held]) (hstays hnone)
  · have hrun := requestLoop_died es hcall hnone
    rw [← hpasses] at hrun
    rw [socketDiscipline_setUp hsocket hset hbind hrun, hcalls]
    exact iff_of_false (by simp [finalCalls, held, heldAfter, sendSolicit, SysCall.op])
      (hstays hnone)
  · obtain ⟨run, hrest⟩ := requestLoop_returns handler hbuffer es c.mem
      (afterRequest c.prefixResult)
    have hrun := requestLoop_again hcall hsome hrest
    rw [← hpasses] at hrun
    obtain ⟨hused, hempty⟩ := request_wellUsed transId hmiddle
    rw [← hcalls] at hused hempty
    rw [socketDiscipline_setUp hsocket hset hbind hrun]
    have hfinal : finalCalls handler { run with calls := c.calls ++ run.calls } =
        finalCalls handler run := rfl
    rw [hfinal, List.append_assoc, List.map_append, wellUsed_append, held_append, hempty]
    rcases rest_wellUsed hbuffer hrest with ⟨hnil, second, rest, hes, htrans⟩ | ⟨hnot, hdrawn⟩
    · rw [hnil]
      refine iff_of_true ⟨⟨hused, trivial⟩, rfl⟩ ?_
      exact ⟨first, second, rest, hes ▸ hpasses, hback.mp hsome, htrans⟩
    · refine iff_of_false (fun h => hnot h.1.2) ?_
      rintro ⟨_, second, rest, hpasses', _, htrans⟩
      exact hdrawn second rest (List.cons.inj (hpasses.symm.trans hpasses')).2 htrans

/-- A run that does not enter the loop uses the descriptor and closes it. -/
theorem socketDiscipline_notEntered {env : ThreadEnv} (m : Mem) (p : DhOptIAPrefix)
    (h : LoopNotEntered env) : SocketDiscipline env m p := by
  cases hsocket : env.socket with
  | none =>
    have hrun : Returns (threadRequestDhcpPrefix env m p) ⟨m, p, [], false⟩ :=
      ⟨0, fun k _ => by simp only [threadRequestDhcpPrefix, hsocket]⟩
    exact (socketDiscipline_of_returns hrun).mpr ⟨trivial, rfl⟩
  | some handler =>
    cases hset : env.setsockoptWorks with
    | false =>
      have hrun : Returns (threadRequestDhcpPrefix env m p)
          ⟨m, p, [.socket handler, .setsockopt handler, .close handler], false⟩ :=
        ⟨0, fun k _ => by simp [threadRequestDhcpPrefix, hsocket, hset]⟩
      rw [socketDiscipline_of_returns hrun]
      simp [SysCall.op, WellUsed, Allowed, held, heldAfter]
    | true =>
      cases hbind : env.bindWorks with
      | false =>
        have hrun : Returns (threadRequestDhcpPrefix env m p)
            ⟨m, p, [.socket handler, .setsockopt handler, .ioctl handler, .bind handler,
              .close handler], false⟩ :=
          ⟨0, fun k _ => by simp [threadRequestDhcpPrefix, hsocket, hset, hbind]⟩
        rw [socketDiscipline_of_returns hrun]
        simp [SysCall.op, WellUsed, Allowed, held, heldAfter]
      | true =>
        have hpasses : env.passes = [] := by simpa [LoopNotEntered, hsocket, hset, hbind] using h
        have hloop : Returns (requestLoop handler env.buffer env.bufferLength env.passes
            (env.loopMem m) p) ⟨env.loopMem m, p, [], false⟩ := by
          rw [hpasses]
          exact ⟨0, fun _ _ => rfl⟩
        rw [socketDiscipline_setUp hsocket hset hbind hloop]
        simp [finalCalls, SysCall.op, WellUsed, Allowed, held, heldAfter]

/-- The descriptor is used while it is open, and closed once, exactly in the runs
that do not enter the loop or die before they come back to the descriptor. -/
theorem socketDiscipline_iff {env : ThreadEnv} (m : Mem) (p : DhOptIAPrefix)
    (hbuffer : BufferAt env.buffer env.bufferLength) :
    SocketDiscipline env m p ↔ LoopNotEntered env ∨ DiesBeforeReuse env m := by
  by_cases hentered : LoopNotEntered env
  · exact iff_of_true (socketDiscipline_notEntered m p hentered) (.inl hentered)
  · simp only [LoopNotEntered, not_or, Bool.not_eq_false] at hentered
    obtain ⟨hsocket, hset, hbind, hpasses⟩ := hentered
    obtain ⟨handler, hsocket⟩ := Option.ne_none_iff_exists'.mp hsocket
    obtain ⟨first, es, hpasses⟩ := List.exists_cons_of_ne_nil hpasses
    rw [socketDiscipline_entered m p hbuffer hsocket hset hbind hpasses]
    simp [LoopNotEntered, hsocket, hset, hbind, hpasses]

/-- One pass with a valid reply, then the thread is cancelled. -/
def exOneReply : ThreadEnv where
  socket := some 3
  setsockoptWorks := true
  bindWorks := true
  mtu := some 1500
  buffer := 0x8000
  passes := [exReceives exPrefixReply]

/-- The descriptor is closed by the call, and again by the thread. -/
theorem exOneReply_closedTwice : ¬ SocketDiscipline exOneReply (fun _ => 0) exNoPrefix := by
  rw [socketDiscipline_entered (fun _ => 0) exNoPrefix ⟨by decide, by decide⟩ rfl rfl rfl rfl]
  rintro ⟨_, second, rest, hpasses, _⟩
  cases hpasses

/-- A pass that comes back, and one in which no transaction id can be drawn. -/
def exNoSecondId : ThreadEnv :=
  { exOneReply with passes := [exReceives exPrefixReply,
      { exReceives exPrefixReply with transId := none }] }

/-- Cancelled before the first pass, and when the second dies, it is closed once. -/
theorem exCancelled_closedOnce :
    SocketDiscipline { exOneReply with passes := [] } (fun _ => 0) exNoPrefix ∧
      SocketDiscipline exNoSecondId (fun _ => 0) exNoPrefix := by
  have hbuffer : BufferAt 0x8000 1500 := ⟨by decide, by decide⟩
  refine ⟨?_, ?_⟩
  · exact (socketDiscipline_iff (fun _ => 0) exNoPrefix hbuffer).mpr (.inl (.inr (.inr (.inr rfl))))
  · have hback : (exReceives exPrefixReply).ComesBack (exNoSecondId.loopMem fun _ => 0)
        exNoSecondId.buffer exNoSecondId.bufferLength := by decide +kernel
    exact (socketDiscipline_iff (fun _ => 0) exNoPrefix hbuffer).mpr
      (.inr ⟨_, _, [], rfl, hback, rfl⟩)

end Pdrad
