import Pdrad.DhcpThread
import Pdrad.RouterAdvert

/-!
# What is advertised of a delegated prefix

A prefix is delegated on the command line (`main`) or by a server
(`Thread_requestDhcpPrefix`), stored in `_prefix`, and advertised from there with
a length of its own: 64 in place of what the server said, and 56 for the route.

1. `staysInsideDelegation_iff`: the advertised prefix and route lie inside the delegated one
   exactly when this has at most 56 bits.
-/

namespace Pdrad

open In6Addr

/-- `_prefix` as `main` stores it in static mode. -/
def staticPrefix (prefixAddr : In6Addr) (prefixLength : UInt8) : DhOptIAPrefix where
  preferredLifetime := 24000
  validLifetime := 48000
  prefixLength := prefixLength
  prefixAddr := prefixAddr

/-- A delegated prefix: from the command line, or in an `IAPREFIX` received. Passes
of the DHCP thread that write nothing may have followed. -/
inductive Delegation where
  | static (prefixAddr : In6Addr) (prefixLength : UInt8)
  | dhcp (received : DhOptIAPrefix) (failures : Nat)

namespace Delegation

/-- What is delegated. -/
def range : Delegation → AddressPrefix In6Addr
  | .static prefixAddr prefixLength => ⟨prefixAddr, prefixLength.toNat⟩
  | .dhcp received _ => ⟨received.prefixAddr, received.prefixLength.toNat⟩

/-- What `_prefix` is then. -/
def stored : Delegation → DhOptIAPrefix
  | .static prefixAddr prefixLength => staticPrefix prefixAddr prefixLength
  | .dhcp received failures => Nat.iterate afterRequest (failures + 1) received

/-- The length that is advertised. -/
def advertisedLength : Delegation → Nat
  | .static _ prefixLength => prefixLength.toNat
  | .dhcp _ _ => 64

end Delegation

/-- An advertisement is built, and every prefix and every route in it covers
addresses of the delegated prefix only. -/
def StaysInsideDelegation (b : RouterAdvBlocks) (m : Mem) (linkLocalAddr dstAddr : In6Addr)
    (d : Delegation) : Prop :=
  ∃ pkt, advertisePrefix b m linkLocalAddr dstAddr d.stored = some pkt ∧
    (∀ info ∈ prefixInfos pkt, info.range.addresses bit ⊆ d.range.addresses bit) ∧
    ∀ route ∈ routes pkt, route.addresses bit ⊆ d.range.addresses bit

namespace DelegationLemmas

/-- Further passes leave the address alone and set the length to 64 again. -/
theorem iterate_afterRequest (p : DhOptIAPrefix) (n : Nat) :
    (Nat.iterate afterRequest (n + 1) p).prefixAddr = p.prefixAddr ∧
      (Nat.iterate afterRequest (n + 1) p).prefixLength = 64 := by
  induction n generalizing p with
  | zero => exact ⟨rfl, rfl⟩
  | succ n ih => exact ih (afterRequest p)

theorem stored_eq (d : Delegation) :
    d.stored.prefixAddr = d.range.address ∧ d.stored.prefixLength.toNat = d.advertisedLength := by
  cases d with
  | static prefixAddr prefixLength => exact ⟨rfl, rfl⟩
  | dhcp received failures =>
    obtain ⟨haddr, hlength⟩ := iterate_afterRequest received failures
    refine ⟨haddr, ?_⟩
    rw [Delegation.stored, hlength]
    rfl

end DelegationLemmas

open DelegationLemmas

/-- What one advertisement announces: one prefix and one route. -/
theorem staysInsideDelegation_iff_both (b : RouterAdvBlocks) (m : Mem)
    (linkLocalAddr dstAddr : In6Addr) (d : Delegation) :
    StaysInsideDelegation b m linkLocalAddr dstAddr d ↔
      AddressPrefix.addresses bit ⟨d.range.address, d.advertisedLength⟩ ⊆ d.range.addresses bit ∧
      AddressPrefix.addresses bit ⟨ofBytes (d.range.address.bytes.take 8), 56⟩ ⊆
        d.range.addresses bit := by
  obtain ⟨haddr, hlength⟩ := stored_eq d
  simp only [StaysInsideDelegation, advertisePrefix_eq, Option.some.injEq, exists_eq_left',
    prefixInfos_advBytes, routes_advBytes, List.mem_singleton, forall_eq, haddr, hlength]

/-- The advertisement stays inside the delegated prefix exactly when the prefix has at
most 56 bits. -/
theorem staysInsideDelegation_iff (b : RouterAdvBlocks) (m : Mem) (linkLocalAddr dstAddr : In6Addr)
    {d : Delegation} (hlength : d.range.length ≤ 128) :
    StaysInsideDelegation b m linkLocalAddr dstAddr d ↔ d.range.length ≤ 56 := by
  rw [staysInsideDelegation_iff_both]
  constructor
  · rintro ⟨_, hroute⟩
    exact AddressPrefix.length_le_of_subset changeable hlength hroute
  · intro hle
    have hadvertised : d.range.length ≤ d.advertisedLength := by
      cases d with
      | static prefixAddr prefixLength => exact Nat.le_refl _
      | dhcp received failures => exact Nat.le_trans hle (show 56 ≤ 64 by decide)
    constructor
    · exact (AddressPrefix.subset_iff changeable hlength).mpr ⟨hadvertised, fun _ _ => rfl⟩
    · refine (AddressPrefix.subset_iff changeable hlength).mpr ⟨hle, fun i hi => ?_⟩
      have hbit := bit_ofBytes_take d.range.address (n := 8) i (by decide)
      rw [decide_eq_true (Nat.lt_of_lt_of_le hi (Nat.le_trans hle (by decide))), Bool.true_and] at hbit
      exact hbit

/-- Blocks for an advertisement. -/
def exAdvBlocks : RouterAdvBlocks where
  macAddr := 0x1000
  prefixAddr := 0x2000
  prefixInfo := 0x3000
  routeInfo := 0x4000
  mtu := 0x5000
  linkAddress := 0x6000
  raPacket := 0x7000
  apart := by decide
  notNull := by decide

/-- `2001:db8:0:10::`. -/
def exDelegatedAddr : In6Addr := ⟨[0x20, 0x01, 0x0d, 0xb8, 0, 0, 0, 0x10] ++ List.replicate 8 0, rfl⟩

/-- A server delegates `2001:db8:0:10::/60`. -/
def exDelegated60 : Delegation := .dhcp ⟨24000, 48000, 60, exDelegatedAddr⟩ 0

/-- The route covers sixteen times as much. -/
theorem exDelegated60_leaves :
    ¬ StaysInsideDelegation exAdvBlocks (fun _ => 0) zero zero exDelegated60 := by
  rw [staysInsideDelegation_iff_both]
  rintro ⟨_, hroute⟩
  exact absurd (AddressPrefix.length_le_of_subset changeable (by decide) hroute) (by decide)

theorem exDelegated48_inside :
    StaysInsideDelegation exAdvBlocks (fun _ => 0) zero zero (.static exDelegatedAddr 48) :=
  (staysInsideDelegation_iff exAdvBlocks (fun _ => 0) zero zero (by decide)).mpr (by decide)

end Pdrad
