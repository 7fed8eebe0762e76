import Pdrad.RouterAdvert

/-!
# What an ND option constructor owes the packet builder

`ndp_createRAPacket` copies `8 * Length` bytes of every block it is given, and sends
them. A constructor therefore has to store its code and a positive length, to ask
for as many bytes, and to fill all of them from its arguments.

1. `Fills`: a call makes every block hold the same bytes, whatever the memory holds
   besides the argument.
2. `ndpKeepsBlock_iff`: which calls do. The advertisement interval leaves the type, the
   length and the reserved field as they were, and the field of a route of prefix
   length 128 ends eight bytes behind its prefix.
-/

namespace Pdrad

open NdpOptPayload

/-- A call of a constructor. An argument that is copied from memory is given by its
bytes. -/
inductive NdpConstruction where
  | sourceLinkLayerAddress (etherAddr : List UInt8) (size : etherAddr.length = 6)
  | targetLinkLayerAddress (etherAddr : List UInt8) (size : etherAddr.length = 6)
  | prefixInformation (prefixLength flags : UInt8) (validLifetime preferredLifetime : UInt32)
      (prefixAddr : In6Addr)
  | mtu (mtu : UInt32)
  | advertisementInterval (interval : UInt32)
  | routeInformation (prefixLength routePreference : UInt8) (routeLifetime : UInt32)
      (prefixAddr : In6Addr) (le : prefixLength.toNat ≤ 128)

namespace NdpConstruction

/-- The bytes of the argument that lies in memory. -/
def argument : NdpConstruction → List UInt8
  | sourceLinkLayerAddress etherAddr _ => etherAddr
  | targetLinkLayerAddress etherAddr _ => etherAddr
  | prefixInformation _ _ _ _ prefixAddr => prefixAddr.bytes
  | mtu _ => []
  | advertisementInterval _ => []
  | routeInformation _ _ _ prefixAddr _ => prefixAddr.bytes

/-- The code of the option. -/
def code : NdpConstruction → UInt8
  | sourceLinkLayerAddress .. => 1
  | targetLinkLayerAddress .. => 2
  | prefixInformation .. => 3
  | mtu _ => 5
  | advertisementInterval _ => 7
  | routeInformation .. => 24

/-- Make the call, with the argument at `arg`. -/
def run (m : Mem) (option arg : Nat) : NdpConstruction → Option Built
  | sourceLinkLayerAddress _ _ => ndpCreateOptionSourceLinkLayerAddress m option arg
  | targetLinkLayerAddress _ _ => ndpCreateOptionTargetLinkLayerAddress m option arg
  | prefixInformation prefixLength flags validLifetime preferredLifetime _ =>
    some (ndpCreateOptionPrefixInformation m option prefixLength flags validLifetime
      preferredLifetime arg)
  | mtu v => some (ndpCreateOptionMtu m option v)
  | advertisementInterval interval =>
    some (ndpCreateOptionAdvertisementIntervalOption m option interval)
  | routeInformation prefixLength routePreference routeLifetime _ _ =>
    some (ndpCreateOptionRouteInformation m option prefixLength routePreference routeLifetime arg)

/-- Wherever the block and the argument lie, and whatever the memory holds besides
the argument, the call asks for as many bytes as `bytes` has and stores these. -/
def Fills (c : NdpConstruction) (bytes : List UInt8) : Prop :=
  ∀ m option arg, m.slice arg c.argument.length = c.argument →
    Apart option bytes.length arg c.argument.length →
    ∃ b, c.run m option arg = some b ∧ b.allocated = bytes.length ∧
      b.mem.slice option bytes.length = bytes

/-- The block is determined by the arguments, and is an option of the call's code. -/
def KeepsBlock (c : NdpConstruction) : Prop :=
  ∃ bytes, c.Fills bytes ∧ bytes.head? = some c.code ∧ 1 ≤ (bytes.getD 1 0).toNat ∧
    bytes.length = 8 * (bytes.getD 1 0).toNat

/-- The calls that keep the block invariant. -/
def Sound : NdpConstruction → Prop
  | advertisementInterval _ => False
  | routeInformation prefixLength _ _ _ _ => prefixLength.toNat < 128
  | _ => True

/-- A call that puts one option into every block keeps the block invariant. -/
theorem keepsBlock_of_put {c : NdpConstruction} {o : NdpOption} {n : Nat}
    (hn : o.bytes.length = n) (hcode : o.bytes.head? = some c.code)
    (hrun : ∀ m option arg, m.slice arg c.argument.length = c.argument →
      Apart option n arg c.argument.length →
      c.run m option arg = some ⟨m.put option o.bytes, n⟩) : c.KeepsBlock := by
  have hfills : c.Fills o.bytes := by
    intro m option arg hbytes hapart
    rw [hn] at hapart
    exact ⟨_, hrun m option arg hbytes hapart, hn.symm, Mem.slice_put_same m option o.bytes⟩
  have hextent : (o.bytes.getD 1 0).toNat * 8 = o.bytes.length := by
    rw [List.getD_eq_getElem?_getD]
    exact o.record.2
  have hpos := o.record.pos
  exact ⟨o.bytes, hfills, hcode, by omega, by omega⟩

end NdpConstruction

namespace NdpBlocksLemmas

open NdpConstruction RouterAdvertLemmas

/-! ## The sound calls -/

theorem keeps_linkLayerAddress {c : NdpConstruction} {etherAddr : List UInt8} {type : UInt8}
    (hsize : etherAddr.length = 6) (htype : type = 1 ∨ type = 2) (harg : c.argument = etherAddr)
    (hcode : c.code = type) (hrun : ∀ m option arg, c.run m option arg =
      ndpCreateOptionLinkLayerAddressCore m option type arg) : c.KeepsBlock := by
  refine keepsBlock_of_put (length_linkLayerAddress etherAddr hsize type) ?_ ?_
  · rw [hcode]
    rfl
  · intro m option arg hbytes hapart
    rw [harg, hsize] at hbytes hapart
    subst hbytes
    exact (hrun m option arg).trans
      (ndpCreateOptionLinkLayerAddressCore_eq htype (hapart.front (by decide)))

theorem keeps_prefixInformation (prefixLength flags : UInt8)
    (validLifetime preferredLifetime : UInt32) (prefixAddr : In6Addr) :
    KeepsBlock (.prefixInformation prefixLength flags validLifetime preferredLifetime
      prefixAddr) := by
  refine keepsBlock_of_put (length_prefixInformation prefixAddr prefixLength validLifetime
    preferredLifetime flags) rfl ?_
  intro m option arg hbytes hapart
  rw [argument, prefixAddr.size] at hbytes hapart
  have hblock := ndpCreateOptionPrefixInformation_eq (m := m) prefixLength flags validLifetime
    preferredLifetime (hapart.front (by decide))
  rw [In6Addr.read_eq hbytes] at hblock
  exact congrArg some hblock

theorem keeps_mtu (v : UInt32) : KeepsBlock (.mtu v) :=
  keepsBlock_of_put (length_mtuOption v) rfl
    fun m option _ _ _ => congrArg some (ndpCreateOptionMtu_eq m option v)

/-- Below 128 the field lies inside the prefix. -/
theorem field_le {prefixLength : UInt8} (h : prefixLength.toNat < 128) :
    (routeInformationPropLen prefixLength - 1) * 8 ≤ 16 := by
  unfold routeInformationPropLen ndpOptRouteInformationPropLen
  split
  · omega
  · omega

/-- The header and the field of the prefix `prefixAddr`. -/
theorem length_field {prefixLength : UInt8} (prefixAddr : In6Addr) (h : prefixLength.toNat < 128) :
    8 + (prefixAddr.bytes.take ((routeInformationPropLen prefixLength - 1) * 8)).length =
      routeInformationPropLen prefixLength * 8 := by
  rw [List.length_take, prefixAddr.size, Nat.min_eq_left (field_le h), routeInformationPropLen_pos]

/-- `ndpCreateOptionRouteInformation_eq` for a prefix argument apart from the block. -/
theorem routeInformation_block {m : Mem} {option arg : Nat} {prefixAddr : In6Addr}
    {prefixLength : UInt8} (routePreference : UInt8) (routeLifetime : UInt32)
    (hlt : prefixLength.toNat < 128) (hbytes : m.slice arg 16 = prefixAddr.bytes)
    (hapart : Apart option (routeInformationPropLen prefixLength * 8) arg 16) :
    ndpCreateOptionRouteInformation m option prefixLength routePreference routeLifetime arg =
      ⟨m.put option (routeInformation prefixLength routePreference routeLifetime _
        (length_field prefixAddr hlt)).bytes, routeInformationPropLen prefixLength * 8⟩ := by
  have hfield := field_le hlt
  have hheader : 8 ≤ routeInformationPropLen prefixLength * 8 :=
    length_field prefixAddr hlt ▸ Nat.le_add_right 8 _
  have hblock := ndpCreateOptionRouteInformation_eq (m := m) prefixLength routePreference
    routeLifetime ((hapart.front hheader).symm.front hfield).symm
  have hslice : m.slice arg ((routeInformationPropLen prefixLength - 1) * 8) =
      prefixAddr.bytes.take ((routeInformationPropLen prefixLength - 1) * 8) := by
    rw [← hbytes, Mem.take_slice m arg hfield]
  simp only [hslice] at hblock
  exact hblock

theorem keeps_routeInformation (prefixLength routePreference : UInt8) (routeLifetime : UInt32)
    (prefixAddr : In6Addr) (le : prefixLength.toNat ≤ 128) (hlt : prefixLength.toNat < 128) :
    KeepsBlock (.routeInformation prefixLength routePreference routeLifetime prefixAddr le) := by
  refine keepsBlock_of_put (length_routeInformation prefixLength routeLifetime routePreference _
    (length_field prefixAddr hlt)) rfl ?_
  intro m option arg hbytes hapart
  rw [argument, prefixAddr.size] at hbytes hapart
  exact congrArg some (routeInformation_block routePreference routeLifetime hlt hbytes hapart)

/-! ## The calls that are not sound -/

/-- The type is what the block happens to hold. -/
theorem loses_advertisementInterval (interval : UInt32) :
    ¬ KeepsBlock (.advertisementInterval interval) := by
  rintro ⟨bytes, hfills, _⟩
  have hfirst (v : UInt8) : bytes.head? = some v := by
    obtain ⟨b, hrun, hallocated, hslice⟩ := hfills (fun _ => v) 0 0 rfl (.inr (Nat.le_refl 0))
    cases hrun
    have hlength : bytes.length = 8 := hallocated.symm
    rw [hlength] at hslice
    rw [← hslice, Mem.head?_slice _ _ (by decide)]
    show some (Mem.put (fun _ => v) 4 (leBytes 4 (htobe32 interval).toNat) 0) = some v
    rw [Mem.put_of_lt (by decide)]
  exact absurd ((hfirst 0).symm.trans (hfirst 1)) (by decide)

/-- The last eight bytes are what lies behind the prefix. -/
theorem loses_routeInformation (routePreference : UInt8) (routeLifetime : UInt32)
    (prefixAddr : In6Addr) (le : (128 : UInt8).toNat ≤ 128) :
    ¬ KeepsBlock (.routeInformation 128 routePreference routeLifetime prefixAddr le) := by
  rintro ⟨bytes, hfills, _⟩
  have hfield (v : UInt8) :
      bytes.drop 8 = (Mem.put (fun _ => v) 0 prefixAddr.bytes).slice 0 24 := by
    obtain ⟨b, hrun, hallocated, hslice⟩ := hfills (Mem.put (fun _ => v) 0 prefixAddr.bytes) 24 0
      (Mem.slice_put_same _ 0 prefixAddr.bytes) (.inr (by rw [argument, prefixAddr.size]; decide))
    have hblock := ndpCreateOptionRouteInformation_eq
      (m := Mem.put (fun _ => v) 0 prefixAddr.bytes) 128 routePreference routeLifetime
      (show Apart 24 8 0 ((routeInformationPropLen 128 - 1) * 8) by decide)
    rw [run, hblock] at hrun
    cases hrun
    rw [← hslice, ← hallocated,
      Mem.slice_put_of_length (length_routeInformation 128 routeLifetime routePreference _ _)]
    exact List.drop_left' (by simp)
  have hbehind (v : UInt8) : (bytes.drop 8)[16]? = some v := by
    rw [hfield v, List.getElem?_eq_getElem (by simp), Mem.getElem_slice,
      Mem.put_of_ge (by rw [prefixAddr.size])]
  exact absurd ((hbehind 0).symm.trans (hbehind 1)) (by decide)

end NdpBlocksLemmas

open NdpBlocksLemmas

/-- A constructor leaves a block that the packet builder can copy exactly when the
call is sound. -/
theorem ndpKeepsBlock_iff (c : NdpConstruction) : c.KeepsBlock ↔ c.Sound := by
  cases c with
  | sourceLinkLayerAddress etherAddr size =>
    exact ⟨fun _ => trivial, fun _ => keeps_linkLayerAddress size (.inl rfl) rfl rfl
      fun _ _ _ => rfl⟩
  | targetLinkLayerAddress etherAddr size =>
    exact ⟨fun _ => trivial, fun _ => keeps_linkLayerAddress size (.inr rfl) rfl rfl
      fun _ _ _ => rfl⟩
  | prefixInformation prefixLength flags validLifetime preferredLifetime prefixAddr =>
    exact ⟨fun _ => trivial, fun _ => keeps_prefixInformation prefixLength flags validLifetime
      preferredLifetime prefixAddr⟩
  | mtu v => exact ⟨fun _ => trivial, fun _ => keeps_mtu v⟩
  | advertisementInterval interval => exact ⟨loses_advertisementInterval interval, False.elim⟩
  | routeInformation prefixLength routePreference routeLifetime prefixAddr le =>
    refine ⟨fun hkeeps => ?_, keeps_routeInformation prefixLength routePreference routeLifetime
      prefixAddr le⟩
    refine Nat.lt_of_le_of_ne le fun h128 => ?_
    obtain rfl : prefixLength = 128 := UInt8.toNat_inj.mp h128
    exact loses_routeInformation routePreference routeLifetime prefixAddr le hkeeps

/-- The interval leaves the type of its option as it was. -/
theorem exInterval_unset : ¬ (NdpConstruction.advertisementInterval 1000).KeepsBlock := by
  rintro ⟨bytes, hfills, hcode, _⟩
  obtain ⟨b, hrun, hallocated, hslice⟩ := hfills (fun _ => 0) 0 0 rfl (.inr (Nat.le_refl 0))
  cases hrun
  have hfirst : bytes.head? = some 0 := by
    rw [← hslice, ← hallocated]
    decide +kernel
  exact absurd (hfirst.symm.trans hcode) (by decide)

end Pdrad
