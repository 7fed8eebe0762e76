import Pdrad.NdpBlocks

/-!
# The Route Information option against its format

The header file says what the option is: a length of 1, 2 or 3 that the prefix length
bounds from below, and a prefix whose bits behind the prefix length are zero. A
receiver zero-extends the prefix field.

1. `meetsFormat_bytes`: the option that is built for a prefix length below 128.
2. `meetsFormat_iff`: which options meet the format. The prefix is copied as it is,
   so it has to end in zeros up to the end of the field, and for a prefix length of
   128 the length is 4.
-/

namespace Pdrad

/-! ## The format -/

/-- What a receiver makes of the option. -/
structure DecodedRoute where
  prefixLength : Nat
  routeLifetime : Nat
  prefixAddr : In6Addr

/-- The field is `8 * (Length - 1)` bytes long; the bytes that are missing are zero. -/
def decodeRoute (o : List UInt8) : DecodedRoute where
  prefixLength := (o.getD 2 0).toNat
  routeLifetime := beValue ((o.drop 4).take 4)
  prefixAddr := In6Addr.ofBytes ((o.drop 8).take (8 * ((o.getD 1 0).toNat - 1)))

/-- The option is as its documentation says, and a receiver recovers the prefix
length, the lifetime, and so much of the prefix as the prefix length makes valid. -/
structure MeetsFormat (prefixLength : UInt8) (routeLifetime : UInt32) (prefixAddr : In6Addr)
    (o : List UInt8) : Prop where
  length : (o.getD 1 0).toNat = 1 ∨ (o.getD 1 0).toNat = 2 ∨ (o.getD 1 0).toNat = 3
  positive : 0 < prefixLength.toNat → 2 ≤ (o.getD 1 0).toNat
  whole : 64 < prefixLength.toNat → (o.getD 1 0).toNat = 3
  prefixLength_eq : (decodeRoute o).prefixLength = prefixLength.toNat
  routeLifetime_eq : (decodeRoute o).routeLifetime = routeLifetime.toNat
  bits : ∀ i < 128, (decodeRoute o).prefixAddr.bit i =
    (decide (i < prefixLength.toNat) && prefixAddr.bit i)

/-- Behind its first `prefixLength` bits the prefix is zero, up to the next multiple
of 64. -/
def MaskedTo64 (prefixLength : UInt8) (prefixAddr : In6Addr) : Prop :=
  ∀ i < 64 * (prefixLength.toNat / 64 + 1), prefixLength.toNat ≤ i → prefixAddr.bit i = false

instance (prefixLength : UInt8) (prefixAddr : In6Addr) :
    Decidable (MaskedTo64 prefixLength prefixAddr) :=
  inferInstanceAs (Decidable (∀ i < _, _))

/-- The calls whose option meets the format. -/
def RouteSound (prefixLength : UInt8) (prefixAddr : In6Addr) : Prop :=
  prefixLength = 0 ∨ (prefixLength.toNat < 128 ∧ MaskedTo64 prefixLength prefixAddr)

namespace RouteInformationLemmas

open RouterAdvertLemmas NdpBlocksLemmas In6Addr

variable {prefixLength : UInt8} (routePreference : UInt8) (routeLifetime : UInt32)
  {prefixAddr : In6Addr}

theorem toNat_propLen (prefixLength : UInt8) :
    (UInt8.ofNat (routeInformationPropLen prefixLength)).toNat =
      routeInformationPropLen prefixLength := by
  rw [UInt8.toNat_ofNat']
  exact Nat.mod_eq_of_lt (routeInformationPropLen_lt prefixLength)

/-- What a receiver reads from the bytes of an option. -/
theorem decodeRoute_bytes {field : List UInt8}
    (hfield : 8 + field.length = routeInformationPropLen prefixLength * 8) :
    let o := (routeInformation prefixLength routePreference routeLifetime field hfield).bytes
    (o.getD 1 0).toNat = routeInformationPropLen prefixLength ∧
      decodeRoute o = ⟨prefixLength.toNat, routeLifetime.toNat, In6Addr.ofBytes field⟩ := by
  have hlength := toNat_propLen prefixLength
  obtain ⟨head, hhead, hbytes⟩ : ∃ head : List UInt8, head.length = 4 ∧
      (routeInformation prefixLength routePreference routeLifetime field hfield).bytes =
        head ++ (beBytes 4 routeLifetime.toNat ++ field) :=
    ⟨_, rfl, List.append_assoc _ _ _⟩
  have hlifetime : beValue (beBytes 4 routeLifetime.toNat) = routeLifetime.toNat := by
    rw [beValue_beBytes]
    exact Nat.mod_eq_of_lt routeLifetime.toNat_lt
  refine ⟨hlength, ?_⟩
  rw [decodeRoute, DecodedRoute.mk.injEq]
  refine ⟨rfl, ?_, congrArg In6Addr.ofBytes ?_⟩
  · rw [hbytes, List.drop_left' hhead, List.take_left' (length_beBytes 4 _), hlifetime]
  · have hsize : field.length = 8 * (routeInformationPropLen prefixLength - 1) := by omega
    show List.take (8 * ((UInt8.ofNat (routeInformationPropLen prefixLength)).toNat - 1)) _ = field
    rw [hlength, ← hsize, hbytes, ← List.append_assoc, List.drop_left' (by simp [hhead]),
      List.take_length]

/-- Cutting at `k` instead of `p` keeps the bits between them. -/
theorem cut_iff {bit : Nat → Bool} {p k n : Nat} (hpk : p ≤ k) (hkn : k ≤ n) :
    (∀ i < n, (decide (i < k) && bit i) = (decide (i < p) && bit i)) ↔
      ∀ i < k, p ≤ i → bit i = false := by
  constructor
  · intro h i hi hp
    have hcut := h i (Nat.lt_of_lt_of_le hi hkn)
    rwa [decide_eq_true hi, decide_eq_false (Nat.not_lt.mpr hp), Bool.true_and,
      Bool.false_and] at hcut
  · intro h i _
    by_cases hp : i < p
    · rw [decide_eq_true hp, decide_eq_true (Nat.lt_of_lt_of_le hp hpk)]
    · by_cases hi : i < k
      · rw [h i hi (Nat.le_of_not_lt hp), Bool.and_false, Bool.and_false]
      · rw [decide_eq_false hi, decide_eq_false hp]

/-- The bits that the field holds. -/
theorem fieldBits_eq (prefixLength : UInt8) :
    8 * ((routeInformationPropLen prefixLength - 1) * 8) =
      if prefixLength = 0 then 0 else 64 * (prefixLength.toNat / 64 + 1) := by
  unfold routeInformationPropLen ndpOptRouteInformationPropLen
  by_cases hzero : prefixLength = 0
  · rw [if_neg (not_not.mpr hzero), if_pos hzero]
  · rw [if_pos hzero, if_neg hzero]
    omega

/-- Between the end of the prefix and the end of the field there are zeros, or there
is no field. -/
theorem masked_iff :
    (∀ i < 8 * ((routeInformationPropLen prefixLength - 1) * 8), prefixLength.toNat ≤ i →
      prefixAddr.bit i = false) ↔ prefixLength = 0 ∨ MaskedTo64 prefixLength prefixAddr := by
  rw [fieldBits_eq]
  by_cases hzero : prefixLength = 0
  · rw [if_pos hzero]
    exact ⟨fun _ => .inl hzero, fun _ i hi => absurd hi (Nat.not_lt_zero i)⟩
  · rw [if_neg hzero]
    exact (or_iff_right hzero).symm

/-- The lengths that the format asks for. -/
theorem propLen_bounds (hlt : prefixLength.toNat < 128) :
    (routeInformationPropLen prefixLength = 1 ∨ routeInformationPropLen prefixLength = 2 ∨
      routeInformationPropLen prefixLength = 3) ∧
    (0 < prefixLength.toNat → 2 ≤ routeInformationPropLen prefixLength) ∧
    (64 < prefixLength.toNat → routeInformationPropLen prefixLength = 3) := by
  unfold routeInformationPropLen ndpOptRouteInformationPropLen
  by_cases hzero : prefixLength = 0
  · subst hzero
    decide
  · rw [if_pos hzero]
    omega

/-- The option built for a prefix length below 128. -/
theorem meetsFormat_bytes (hlt : prefixLength.toNat < 128) :
    MeetsFormat prefixLength routeLifetime prefixAddr (routeInformation prefixLength routePreference
        routeLifetime _ (length_field prefixAddr hlt)).bytes ↔
      prefixLength = 0 ∨ MaskedTo64 prefixLength prefixAddr := by
  obtain ⟨hlength, hdecode⟩ := decodeRoute_bytes routePreference routeLifetime
    (length_field prefixAddr hlt)
  obtain ⟨hthree, htwo, hwhole⟩ := propLen_bounds hlt
  have hmax := field_le hlt
  have hle : prefixLength.toNat ≤ 8 * ((routeInformationPropLen prefixLength - 1) * 8) := by
    rw [fieldBits_eq]
    split
    · next hzero => rw [hzero]; decide
    · omega
  have hbit (i : Nat) := bit_ofBytes_take prefixAddr i hmax
  rw [← masked_iff, ← cut_iff hle (Nat.mul_le_mul_left 8 hmax)]
  constructor
  · rintro ⟨_, _, _, _, _, hbits⟩ i hi
    rw [hdecode] at hbits
    exact (hbit i).symm.trans (hbits i hi)
  · intro hbits
    refine ⟨?_, ?_, ?_, ?_, ?_, fun i hi => ?_⟩
    · rwa [hlength]
    · rwa [hlength]
    · rwa [hlength]
    · rw [hdecode]
    · rw [hdecode]
    · rw [hdecode]
      exact (hbit i).trans (hbits i hi)

/-- For a prefix length of 128 the length is 4. -/
theorem length_128 (m : Mem) (option arg : Nat) :
    let b := ndpCreateOptionRouteInformation m option 128 routePreference routeLifetime arg
    (b.mem.slice option b.allocated).getD 1 0 = 4 := by
  have hbyte (m : Mem) : (m.slice option 32).getD 1 0 = m (option + 1) := by
    rw [List.getD_eq_getElem?_getD, List.getElem?_eq_getElem (by simp), Mem.getElem_slice,
      Option.getD_some]
  have hallocated : (ndpCreateOptionRouteInformation m option 128 routePreference routeLifetime
      arg).allocated = 32 := rfl
  simp only [hallocated, hbyte]
  -- the field and the fields before it lie behind the length
  show Mem.memcpy _ _ _ _ _ = _
  rw [Mem.memcpy, Mem.put_of_lt, Mem.store32, Mem.put_of_lt, Mem.put_of_lt, Mem.put_of_lt]
  · exact Mem.put_at (i := 0) (by decide)
  all_goals
    simp only [NdpOptPayload.optionData, ndpOptOffset]
    omega

end RouteInformationLemmas

open RouteInformationLemmas NdpBlocksLemmas RouterAdvertLemmas

/-- The option for a prefix argument at `arg` meets the format exactly when the prefix
length is zero, or below 128 with a prefix that is masked already. -/
theorem meetsFormat_iff {m : Mem} {option arg : Nat} {prefixLength : UInt8}
    (routePreference : UInt8) (routeLifetime : UInt32) (hle : prefixLength.toNat ≤ 128)
    (hapart : Apart option (routeInformationPropLen prefixLength * 8) arg 16) :
    let b := ndpCreateOptionRouteInformation m option prefixLength routePreference routeLifetime arg
    MeetsFormat prefixLength routeLifetime (In6Addr.read m arg) (b.mem.slice option b.allocated) ↔
      RouteSound prefixLength (In6Addr.read m arg) := by
  by_cases hlt : prefixLength.toNat < 128
  · have hblock := routeInformation_block routePreference routeLifetime hlt
      (show m.slice arg 16 = (In6Addr.read m arg).bytes from rfl) hapart
    simp only [hblock]
    rw [Mem.slice_put_of_length (length_routeInformation prefixLength routeLifetime routePreference
      _ _), meetsFormat_bytes routePreference routeLifetime hlt, RouteSound]
    exact or_congr_right (and_iff_right hlt).symm
  · obtain rfl : prefixLength = 128 :=
      UInt8.toNat_inj.mp (Nat.le_antisymm hle (Nat.le_of_not_lt hlt))
    constructor
    · rintro ⟨hthree, _⟩
      rw [length_128 routePreference routeLifetime m option arg] at hthree
      exact absurd hthree (by decide)
    · rintro (hzero | ⟨h128, _⟩)
      · exact absurd hzero (by decide)
      · exact absurd h128 hlt

/-- `2001:db8::` and `2001:db8::1`. -/
def exRoute : In6Addr := ⟨[0x20, 0x01, 0x0d, 0xb8, 0, 0, 0, 0, 0, 0, 0, 0, 0, 0, 0, 0], rfl⟩
def exHost : In6Addr := ⟨[0x20, 0x01, 0x0d, 0xb8, 0, 0, 0, 0, 0, 0, 0, 0, 0, 0, 0, 1], rfl⟩

/-- The route `2001:db8::/32` meets the format. -/
theorem exRoute_meetsFormat : MeetsFormat 32 1800 exRoute
    ((ndpCreateOptionRouteInformation (Mem.put (fun _ => 0) 0x1000 exRoute.bytes) 0x2000 32 0 1800
      0x1000).mem.slice 0x2000 16) := by
  have hread : In6Addr.read (Mem.put (fun _ => 0) 0x1000 exRoute.bytes) 0x1000 = exRoute :=
    In6Addr.read_put _ _ _
  have hiff := meetsFormat_iff (m := Mem.put (fun _ => 0) 0x1000 exRoute.bytes) 0 1800
    (show (32 : UInt8).toNat ≤ 128 by decide)
    (show Apart 0x2000 (routeInformationPropLen 32 * 8) 0x1000 16 by decide)
  rw [hread] at hiff
  exact hiff.mpr (.inr (by decide +kernel))

/-- The prefix `2001:db8::1` of length 64 is sent with the last bit set. -/
theorem exHost_unmasked : ¬ MeetsFormat 64 1800 exHost
    ((ndpCreateOptionRouteInformation (Mem.put (fun _ => 0) 0x1000 exHost.bytes) 0x2000 64 0 1800
      0x1000).mem.slice 0x2000 24) := by
  rintro ⟨_, _, _, _, _, hbits⟩
  exact absurd (hbits 127 (by decide)) (by decide +kernel)

end Pdrad
