import Pdrad.Delivery

/-!
# The hosts on the link

What the daemon is for: a host that receives an advertisement makes an address for itself,
of the advertised prefix and an identifier of its own. The address ought to belong to the
prefix that was delegated.

1. `hostAddresses_advBytes`: what hosts make of the advertisement of a prefix.
2. `ownAddress_mem_iff`: when the addresses of all hosts belong to a prefix.
3. `hosts_configured_iff`: in every run, when the hosts get what has been delegated.
-/

namespace Pdrad

open In6Addr RouterAdvertLemmas

/-! ## What a host does -/

/-- What a host has of its own: the last half of its addresses. -/
structure InterfaceId where
  bytes : List UInt8
  size : bytes.length = 8

/-- An address of a host, with its two lifetimes. -/
structure HostAddress where
  address : In6Addr
  validLifetime : Nat
  preferredLifetime : Nat

/-- The first half of `prefixAddr`, followed by the identifier. -/
def ownAddress (prefixAddr : In6Addr) (iid : InterfaceId) : In6Addr :=
  ofBytes (prefixAddr.bytes.take 8 ++ iid.bytes)

/-- The address lies in `fe80::/10`, which no router can advertise. -/
def IsLinkLocal (a : In6Addr) : Prop :=
  ∀ i < 10, a.bit i = (ofBytes [0xfe, 0x80]).bit i

instance (a : In6Addr) : Decidable (IsLinkLocal a) :=
  inferInstanceAs (Decidable (∀ i < 10, _))

/-- A prefix that hosts make addresses of. -/
structure PrefixInfo.Usable (info : PrefixInfo) : Prop where
  half : info.range.length = 64
  notLinkLocal : ¬ IsLinkLocal info.range.address
  preferredLe : info.preferredLifetime ≤ info.validLifetime
  validPos : 0 < info.validLifetime

instance (info : PrefixInfo) : Decidable info.Usable :=
  decidable_of_iff (info.range.length = 64 ∧ ¬ IsLinkLocal info.range.address ∧
    info.preferredLifetime ≤ info.validLifetime ∧ 0 < info.validLifetime)
    ⟨fun h => ⟨h.1, h.2.1, h.2.2.1, h.2.2.2⟩,
      fun h => ⟨h.half, h.notLinkLocal, h.preferredLe, h.validPos⟩⟩

/-- The flag `A` of a Prefix Information option is set. -/
def Autonomous (o : List UInt8) : Prop :=
  o.getD 3 0 &&& ndpOptPrefixInformationFlagA ≠ 0

instance (o : List UInt8) : Decidable (Autonomous o) :=
  inferInstanceAs (Decidable (_ ≠ _))

/-- The address that a host makes of an option, if it makes one. -/
def formAddress (iid : InterfaceId) (o : List UInt8) : Option HostAddress :=
  (readPrefixInformation o).bind fun info =>
    if Autonomous o ∧ info.Usable then
      some ⟨ownAddress info.range.address iid, info.validLifetime, info.preferredLifetime⟩
    else none

/-- The addresses that a host makes of an advertisement. -/
def hostAddresses (iid : InterfaceId) (pkt : List UInt8) : List HostAddress :=
  (ndOptions pkt).filterMap (formAddress iid)

/-! ## The advertisement -/

section

variable (macAddr : List UInt8) (size : macAddr.length = 6) (prefixAddr : In6Addr)
  (prefixLength : UInt8) (validTime preferTime : UInt32)

theorem formAddress_prefixInformation (iid : InterfaceId) :
    formAddress iid (prefixInformation prefixLength 0xC0 validTime preferTime prefixAddr).bytes =
      if PrefixInfo.Usable ⟨⟨prefixAddr, prefixLength.toNat⟩, validTime.toNat, preferTime.toNat⟩ then
        some ⟨ownAddress prefixAddr iid, validTime.toNat, preferTime.toNat⟩
      else none := by
  have hflags : Autonomous (prefixInformation prefixLength 0xC0 validTime preferTime
      prefixAddr).bytes := (show (0xC0 : UInt8) &&& 0xC0 &&& ndpOptPrefixInformationFlagA ≠ 0 by decide)
  rw [formAddress, readPrefixInformation_bytes, Option.bind_some]
  simp only [hflags, true_and]

/-- A host makes one address of the advertisement, or none. -/
theorem hostAddresses_advBytes (iid : InterfaceId) :
    hostAddresses iid (advBytes macAddr size prefixAddr prefixLength validTime preferTime) =
      if PrefixInfo.Usable ⟨⟨prefixAddr, prefixLength.toNat⟩, validTime.toNat, preferTime.toNat⟩ then
        [⟨ownAddress prefixAddr iid, validTime.toNat, preferTime.toNat⟩]
      else [] := by
  have hother {o : List UInt8} (hhead : o.head? ≠ some 3) : formAddress iid o = none := by
    rw [formAddress, readPrefixInformation, if_neg hhead, Option.bind_none]
  rw [hostAddresses, advBytes, ndOptions_raBytes]
  simp only [advOptions, List.map_cons, List.map_nil, List.filterMap_cons, List.filterMap_nil,
    formAddress_prefixInformation]
  rw [hother (by simp [linkLayerAddress]), hother (by simp [routeInformation]),
    hother (by simp [mtuOption])]
  by_cases husable : PrefixInfo.Usable ⟨⟨prefixAddr, prefixLength.toNat⟩, validTime.toNat,
      preferTime.toNat⟩
  · simp only [if_pos husable]
  · simp only [if_neg husable]

end

/-! ## The addresses -/

namespace HostsLemmas

theorem bit_ownAddress (prefixAddr : In6Addr) (iid : InterfaceId) {i : Nat} (hi : i < 64) :
    (ownAddress prefixAddr iid).bit i = prefixAddr.bit i := by
  have hbyte : i / 8 < 8 := Nat.div_lt_of_lt_mul hi
  have hhalf : (prefixAddr.bytes.take 8).length = 8 := by
    rw [List.length_take, prefixAddr.size]
    rfl
  unfold bit bitAt ownAddress ofBytes
  rw [List.getD_eq_getElem?_getD, List.getD_eq_getElem?_getD, List.getElem?_take_of_lt (by omega),
    List.append_assoc, List.getElem?_append_left (hhalf.symm ▸ hbyte), List.getElem?_take_of_lt hbyte]

/-- Every address with the same first half belongs to some host. -/
theorem ownAddress_of_half {prefixAddr a : In6Addr} (h : a.bytes.take 8 = prefixAddr.bytes.take 8) :
    ∃ iid, ownAddress prefixAddr iid = a := by
  refine ⟨⟨a.bytes.drop 8, by rw [List.length_drop, a.size]⟩, ?_⟩
  rw [ownAddress, ← h, List.take_append_drop, ofBytes_bytes]

end HostsLemmas

open HostsLemmas

/-- All hosts are inside a prefix when it leaves them the second half of the address. -/
theorem ownAddress_mem_iff (prefixAddr : In6Addr) (length : Nat) :
    (∀ iid, ownAddress prefixAddr iid ∈ AddressPrefix.addresses bit ⟨prefixAddr, length⟩) ↔
      length ≤ 64 := by
  constructor
  · intro hall
    by_contra hlong
    have hhalf : (prefixAddr.flip 64).bytes.take 8 = prefixAddr.bytes.take 8 :=
      List.take_set_of_le (Nat.le_refl 8)
    obtain ⟨iid, hiid⟩ := ownAddress_of_half hhalf
    have hsame := hall iid 64 (Nat.lt_of_not_le hlong)
    rw [hiid, bit_flip prefixAddr 64 (by decide), decide_eq_true rfl, Bool.xor_true] at hsame
    exact Bool.not_ne_self _ hsame
  · intro hshort iid i hi
    exact bit_ownAddress prefixAddr iid (Nat.lt_of_lt_of_le hi hshort)

/-! ## What the hosts get -/

/-- The host makes one address of the advertisement. It belongs to the prefix `given` and
has the lifetimes that were given for it. -/
def Configured (given : DhOptIAPrefix) (pkt : List UInt8) (iid : InterfaceId) : Prop :=
  ∃ a, hostAddresses iid pkt = [a] ∧
    a.address ∈ AddressPrefix.addresses bit ⟨given.prefixAddr, given.prefixLength.toNat⟩ ∧
    a.validLifetime = given.validLifetime.toNat ∧
    a.preferredLifetime = given.preferredLifetime.toNat

instance : Inhabited InterfaceId := ⟨⟨List.replicate 8 0, rfl⟩⟩

namespace HostsLemmas

theorem configured_advBytes_iff (macAddr : List UInt8) (size : macAddr.length = 6)
    (given : DhOptIAPrefix) (validTime preferTime : UInt32) (iid : InterfaceId) :
    Configured given (advBytes macAddr size given.prefixAddr 64 validTime preferTime) iid ↔
      PrefixInfo.Usable ⟨⟨given.prefixAddr, 64⟩, validTime.toNat, preferTime.toNat⟩ ∧
        ownAddress given.prefixAddr iid ∈
          AddressPrefix.addresses bit ⟨given.prefixAddr, given.prefixLength.toNat⟩ ∧
        validTime = given.validLifetime ∧ preferTime = given.preferredLifetime := by
  have hlength : (64 : UInt8).toNat = 64 := rfl
  rw [Configured, hostAddresses_advBytes, hlength]
  by_cases husable : PrefixInfo.Usable ⟨⟨given.prefixAddr, 64⟩, validTime.toNat, preferTime.toNat⟩
  · rw [if_pos husable, and_iff_right husable]
    simp only [List.cons.injEq, and_true, exists_eq_left', UInt32.toNat_inj]
  · rw [if_neg husable]
    refine iff_of_false ?_ fun h => husable h.1
    rintro ⟨a, hnil, _⟩
    cases hnil

theorem heldLifetime_eq_iff (failures : Nat) (time : UInt32) :
    heldLifetime failures time = time ↔ failures % 2 = 0 ∨ be32toh time = time := by
  unfold heldLifetime
  split
  · next heven => exact iff_of_true rfl (.inl heven)
  · next hodd => exact (or_iff_right hodd).symm

/-- All hosts get what was given, or some do not, depending on the prefix and on the
lifetimes held. -/
theorem forall_configured_iff (macAddr : List UInt8) (size : macAddr.length = 6)
    (given : DhOptIAPrefix) (failures : Nat) :
    (∀ iid, Configured given (advBytes macAddr size given.prefixAddr 64
      (heldLifetime failures given.validLifetime)
      (heldLifetime failures given.preferredLifetime)) iid) ↔
      given.prefixLength.toNat ≤ 64 ∧ ¬ IsLinkLocal given.prefixAddr ∧
        given.preferredLifetime ≤ given.validLifetime ∧ 0 < given.validLifetime ∧
        (failures % 2 = 0 ∨ SwapInvariant given) := by
  have hheld : heldLifetime failures given.validLifetime = given.validLifetime ∧
      heldLifetime failures given.preferredLifetime = given.preferredLifetime ↔
        failures % 2 = 0 ∨ SwapInvariant given := by
    rw [heldLifetime_eq_iff, heldLifetime_eq_iff, ← or_and_left, SwapInvariant]
  simp only [configured_advBytes_iff, forall_and, forall_const, ownAddress_mem_iff, hheld]
  constructor
  · rintro ⟨husable, hlength, hkept⟩
    obtain ⟨hvalid, hpreferred⟩ := hheld.mpr hkept
    rw [hvalid, hpreferred] at husable
    exact ⟨hlength, husable.notLinkLocal, husable.preferredLe, husable.validPos, hkept⟩
  · rintro ⟨hlength, hnotLocal, hle, hpos, hkept⟩
    obtain ⟨hvalid, hpreferred⟩ := hheld.mpr hkept
    rw [hvalid, hpreferred]
    exact ⟨⟨rfl, hnotLocal, hle, hpos⟩, hlength, hkept⟩

end HostsLemmas

open DeliveryLemmas

/-- **What the hosts get.** In every run, of an advertisement sent behind a reply that
delegates a prefix, before another request is successful, every host makes an address of
the prefix with the lifetimes of the reply exactly when the prefix leaves 64 bits to the
hosts, hosts accept it at all, and the number of requests failed since is even, if that
matters to the lifetimes. -/
theorem hosts_configured_iff {useDhcp : Bool} {xs es fs : List ProcessEvent} {s t : Process}
    {p given : DhOptIAPrefix} {c : DhcpCall} {th : AdvThread} {dstAddr : In6Addr}
    {pkt : List UInt8} (hrun : Run (Process.Step useDhcp) (Process.init p) xs s)
    (hobtains : s.Obtains given c)
    (hafter : Run (Process.Step useDhcp) (s.afterCall c) (es ++ .adv th (.send dstAddr pkt) :: fs) t)
    (hfails : ∀ e ∈ es, e ≠ .dhcp (.call (some 0))) :
    ∃ failures, passes es = some (wireLifetimes given) :: List.replicate failures none ∧
      ((∀ iid, Configured given pkt iid) ↔
        given.prefixLength.toNat ≤ 64 ∧ ¬ IsLinkLocal given.prefixAddr ∧
          given.preferredLifetime ≤ given.validLifetime ∧ 0 < given.validLifetime ∧
          (failures % 2 = 0 ∨ SwapInvariant given)) := by
  obtain ⟨failures, macAddr, size, hpasses, rfl⟩ := delegated_sent hrun hobtains hafter hfails
  exact ⟨failures, hpasses, forall_configured_iff macAddr size given failures⟩

theorem exDelegated_configured : ∃ pkt, ∀ iid, Configured exDelegated pkt iid := by
  obtain ⟨s, c, t, pkt, hcalls, hobtains, hafter⟩ := exDelegates_sends
  obtain ⟨failures, hpasses, hiff⟩ :=
    hosts_configured_iff hcalls hobtains hafter (by simp [exInstalls, exLocks, exReads])
  cases failures with
  | zero => exact ⟨pkt, hiff.mpr ⟨by decide, by decide, by decide, by decide, .inl rfl⟩⟩
  | succ failures => cases hpasses

end Pdrad
