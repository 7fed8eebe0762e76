import Pdrad.In6Addr
import Pdrad.Records

/-!
# DHCPv6 options (`dh_options.h`, `dh_options.c`)

The option block `dh_optPayload` as it lies in memory, the constructors that
build one, and the value an option stands for.

* Bottom layer: field offsets, `optionCode`, `optionLength`, `swapHeader`, and
  one definition for each constructor. The block a constructor gets from
  `malloc` is its first address argument; the size it asked for is returned.
* Above it: `DhOption`, a code and at most 65535 data bytes. `DhOption.At` says
  that a block holds an option in host order; `DhOption.wire` is its image on
  the wire, and `dhFormat` the record format of those images.
-/

namespace Pdrad

/-! ## Host byte order: a little-endian host swaps both ways -/

abbrev be16toh (v : UInt16) : UInt16 := bswap16 v
abbrev htobe16 (v : UInt16) : UInt16 := bswap16 v
abbrev be32toh (v : UInt32) : UInt32 := bswap32 v
abbrev htobe32 (v : UInt32) : UInt32 := bswap32 v

/-! ## Constants -/

/-- The members of `enum dh_options` that the program refers to. -/
inductive DhOptions where
  | clientId
  | serverId
  | elapsedTime
  | rapidCommit
  | iaPd
  | iaPrefix
deriving DecidableEq, Repr

def DhOptions.code : DhOptions → UInt16
  | .clientId => 1
  | .serverId => 2
  | .elapsedTime => 8
  | .rapidCommit => 14
  | .iaPd => 25
  | .iaPrefix => 26

/-- `enum dh_DUIdType`, the one type the program uses. -/
def duIdEn : UInt16 := 2

/-- `dh_optPayload_offset`: the size of an option's header. -/
def dhOptPayloadOffset : Nat := 4

/-- `sizeof(dh_opt_IA_PD)`: `IA_id`, `Time1`, `Time2`. -/
def sizeofDhOptIAPD : Nat := 12

/-- `sizeof(dh_opt_IA_Prefix)`: two lifetimes, the length byte, 16 prefix bytes. -/
def sizeofDhOptIAPrefix : Nat := 25

/-! ## The block `dh_optPayload` -/

namespace DhOptPayload

/-- `p->OptionCode`. -/
def optionCode (m : Mem) (p : Nat) : UInt16 := m.load16 p

/-- `p->OptionLength`. -/
def optionLength (m : Mem) (p : Nat) : UInt16 := m.load16 (p + 2)

/-- `p->OptionData`. -/
def optionData (p : Nat) : Nat := p + dhOptPayloadOffset

/-- Swap `p->OptionCode` and `p->OptionLength` in place. -/
def swapHeader (m : Mem) (p : Nat) : Mem :=
  let m := m.store16 p (bswap16 (optionCode m p))
  m.store16 (p + 2) (bswap16 (optionLength m p))

end DhOptPayload

/-! ## Constructors -/

/-- What a constructor leaves behind: the memory, and the size of the block it
asked `malloc` for. -/
structure Built where
  mem : Mem
  allocated : Nat

/-- `optionData` is `none` for a `NULL` argument. -/
def dhCreateCustomOptPayload (m : Mem) (payload : Nat) (code : UInt16) (optionData : Option Nat)
    (optionDataLength : Nat) : Built :=
  let size := sizeAdd optionDataLength dhOptPayloadOffset
  let m := m.store16 payload code
  let m := m.store16 (payload + 2) (UInt16.ofNat optionDataLength)
  let m :=
    match optionData with
    | none => m
    | some src => m.memcpy (DhOptPayload.optionData payload) src optionDataLength
  ⟨m, size⟩

def dhCreateOptPayload (m : Mem) (payload : Nat) (code : DhOptions) (optionData : Option Nat)
    (optionDataLength : Nat) : Built :=
  dhCreateCustomOptPayload m payload code.code optionData optionDataLength

def dhCreateOptionIAPD (m : Mem) (payload : Nat) (id : UInt32) (prefixOptions : Option Nat)
    (prefixOptionsLength : Nat) : Built :=
  let size := sizeofDhOptIAPD + dhOptPayloadOffset
  let thisOption := DhOptPayload.optionData payload
  let m := m.store32 thisOption (htobe32 id)
  let m := m.store32 (thisOption + 4) 0
  let m := m.store32 (thisOption + 8) 0
  let m := m.store16 payload DhOptions.iaPd.code
  let m :=
    match prefixOptions with
    | some src =>
      -- `size` does not count what is copied here
      let m := m.memcpy (thisOption + sizeofDhOptIAPD) src prefixOptionsLength
      m.store16 (payload + 2) (UInt16.ofNat (sizeofDhOptIAPD + prefixOptionsLength))
    | none => m.store16 (payload + 2) (UInt16.ofNat sizeofDhOptIAPD)
  ⟨m, size⟩

/-- The lifetimes are cut to 16 bits by `htobe16`, and `OptionLength` is one less
than `sizeof(dh_opt_IA_Prefix)`. -/
def dhCreateOptionIAPrefix (m : Mem) (payload : Nat) (preferredTime validTime : UInt32)
    (prefixLength : UInt8) (prefixAddr : In6Addr) : Built :=
  let optionLength := sizeofDhOptIAPrefix - 1
  let size := optionLength + dhOptPayloadOffset
  let m := m.store16 payload DhOptions.iaPrefix.code
  let m := m.store16 (payload + 2) (UInt16.ofNat optionLength)
  let option := DhOptPayload.optionData payload
  let m := m.store32 option (htobe16 preferredTime.toUInt16).toUInt32
  let m := m.store32 (option + 4) (htobe16 validTime.toUInt16).toUInt32
  let m := m.put (option + 8) [prefixLength]
  -- sixteen bytes, of which the block holds fifteen
  let m := m.put (option + 9) prefixAddr.bytes
  ⟨m, size⟩

def dhCreateOptionRapidCommit (m : Mem) (payload : Nat) : Built :=
  dhCreateOptPayload m payload .rapidCommit none 0

/-- `none` is the `NULL` returned for an empty identifier. -/
def dhCreateOptionClientIdentifierEn (m : Mem) (payload : Nat) (enterpriseNumber : UInt32)
    (id idLength : Nat) : Option Built :=
  if idLength ≤ 0 then none
  else
    let size := sizeAdd (dhOptPayloadOffset + 2 + 4) idLength
    let m := m.store16 payload DhOptions.clientId.code
    let m := m.store16 (payload + 2) (UInt16.ofNat (2 + 4 + idLength))
    let option := DhOptPayload.optionData payload
    let m := m.store16 option (htobe16 duIdEn)
    let m := m.store32 (option + 2) (htobe32 enterpriseNumber)
    let m := m.memcpy (option + 2 + 4) id idLength
    some ⟨m, size⟩

def dhCreateOptionElapsedTime (m : Mem) (payload : Nat) (time : UInt16) : Built :=
  let size := dhOptPayloadOffset + 2
  let m := m.store16 payload DhOptions.elapsedTime.code
  let m := m.store16 (payload + 2) 2
  let m := m.store16 (DhOptPayload.optionData payload) (htobe16 time)
  ⟨m, size⟩

/-! ## Options as values -/

/-- An option: a code, and data that the 16 bit length field can count. -/
structure DhOption where
  code : UInt16
  data : List UInt8
  fits : data.length < 2 ^ 16
deriving DecidableEq

namespace DhOption

/-- The bytes an option takes up, header included. -/
def size (o : DhOption) : Nat := o.data.length + dhOptPayloadOffset

def length (o : DhOption) : UInt16 := UInt16.ofNat o.data.length

/-- The option in network order. -/
def wire (o : DhOption) : List UInt8 :=
  beBytes 2 o.code.toNat ++ beBytes 2 o.data.length ++ o.data

/-- The option in host order. -/
def host (o : DhOption) : List UInt8 :=
  leBytes 2 o.code.toNat ++ leBytes 2 o.data.length ++ o.data

/-- The block at `p` holds the option in host order: its code, its length, and
as many data bytes. -/
def At (m : Mem) (p : Nat) (o : DhOption) : Prop :=
  DhOptPayload.optionCode m p = o.code ∧ DhOptPayload.optionLength m p = o.length ∧
    m.slice (DhOptPayload.optionData p) o.data.length = o.data

instance (m : Mem) (p : Nat) (o : DhOption) : Decidable (At m p o) :=
  inferInstanceAs (Decidable (_ ∧ _ ∧ _))

@[simp] theorem toNat_length (o : DhOption) : o.length.toNat = o.data.length := by
  simp only [length, UInt16.toNat_ofNat']
  exact Nat.mod_eq_of_lt o.fits

@[simp] theorem length_wire (o : DhOption) : o.wire.length = o.size := by
  simp only [wire, size, dhOptPayloadOffset, List.length_append, length_beBytes]
  omega

@[simp] theorem length_host (o : DhOption) : o.host.length = o.size := by
  simp only [host, size, dhOptPayloadOffset, List.length_append, length_leBytes]
  omega

theorem at_iff {m : Mem} {p : Nat} {o : DhOption} : o.At m p ↔ m.slice p o.size = o.host := by
  have hsplit : m.slice p o.size =
      m.slice p 2 ++ m.slice (p + 2) 2 ++ m.slice (p + 4) o.data.length := by
    rw [← Mem.slice_add, show o.size = 2 + 2 + o.data.length by simp [size, dhOptPayloadOffset]; omega,
      Mem.slice_add]
  rw [hsplit, host]
  constructor
  · rintro ⟨hcode, hlen, hdata⟩
    rw [← Mem.leBytes_load16 m p, ← Mem.leBytes_load16 m (p + 2)]
    have hc : m.load16 p = o.code := hcode
    have hl : m.load16 (p + 2) = o.length := hlen
    have hd : m.slice (p + 4) o.data.length = o.data := hdata
    rw [hc, hl, hd, toNat_length]
  · intro h
    obtain ⟨hhead, hdata⟩ := List.append_inj h (by simp)
    obtain ⟨hcode, hlen⟩ := List.append_inj hhead (by simp)
    refine ⟨Mem.load16_of_slice hcode, Mem.load16_of_slice ?_, hdata⟩
    rw [hlen, toNat_length]

end DhOption

/-- DHCPv6 options on the wire: a four byte header, the second half of which
counts the data bytes. -/
def dhFormat : Format where
  header := dhOptPayloadOffset
  extent := fun bs => beValue ((bs.drop 2).take 2) + dhOptPayloadOffset
  header_pos := by decide
  extent_append := by
    intro bs cs h
    have h4 : 4 ≤ bs.length := h
    rw [List.drop_append_of_le_length (by omega), List.take_append_of_le_length (by simp; omega)]

namespace DhOption

theorem isRecord_wire (o : DhOption) : dhFormat.IsRecord o.wire := by
  have hfits : o.data.length % 256 ^ 2 = o.data.length := Nat.mod_eq_of_lt o.fits
  refine ⟨?_, ?_⟩
  · rw [length_wire]
    exact Nat.le_add_left dhOptPayloadOffset o.data.length
  · have hfield : (o.wire.drop 2).take 2 = beBytes 2 o.data.length := by
      rw [wire, List.append_assoc, List.drop_left' (length_beBytes 2 _),
        List.take_left' (length_beBytes 2 _)]
    rw [length_wire, size]
    show beValue ((o.wire.drop 2).take 2) + _ = _
    rw [hfield, beValue_beBytes, hfits]

/-- The option whose image is the record `r`. -/
def ofWire (r : List UInt8) (h : dhFormat.IsRecord r) : DhOption where
  code := UInt16.ofNat (beValue (r.take 2))
  data := r.drop 4
  fits := by
    have hlt := beValue_lt ((r.drop 2).take 2)
    have hlen : ((r.drop 2).take 2).length ≤ 2 := List.length_take_le 2 _
    have hpow := Nat.pow_le_pow_right (n := 256) (by decide) hlen
    have hext : beValue ((r.drop 2).take 2) + 4 = r.length := h.2
    rw [List.length_drop]
    omega

theorem wire_ofWire (r : List UInt8) (h : dhFormat.IsRecord r) : (ofWire r h).wire = r := by
  have h4 : 4 ≤ r.length := h.1
  have hext : beValue ((r.drop 2).take 2) + 4 = r.length := h.2
  have hlen2 : (r.take 2).length = 2 := by simp; omega
  have hlen4 : ((r.drop 2).take 2).length = 2 := by simp; omega
  have hcode : beBytes 2 (ofWire r h).code.toNat = r.take 2 := by
    have hlt := beValue_lt (r.take 2)
    rw [hlen2] at hlt
    have hmod : beValue (r.take 2) % 2 ^ 16 = beValue (r.take 2) := Nat.mod_eq_of_lt hlt
    simp only [ofWire, UInt16.toNat_ofNat']
    rw [hmod, beBytes_beValue_of_length hlen2]
  have hcount : beBytes 2 (ofWire r h).data.length = (r.drop 2).take 2 := by
    have hdata : (ofWire r h).data.length = beValue ((r.drop 2).take 2) := by
      simp only [ofWire, List.length_drop]
      omega
    rw [hdata, beBytes_beValue_of_length hlen4]
  have hdrop : (ofWire r h).data = (r.drop 2).drop 2 := by simp [ofWire]
  rw [wire, hcode, hcount, hdrop, List.append_assoc, List.take_append_drop, List.take_append_drop]

/-- The records of `dhFormat` are the images of options. -/
theorem isRecord_iff {r : List UInt8} : dhFormat.IsRecord r ↔ ∃ o : DhOption, o.wire = r := by
  constructor
  · exact fun h => ⟨ofWire r h, wire_ofWire r h⟩
  · rintro ⟨o, rfl⟩
    exact o.isRecord_wire

end DhOption

/-! ## Swapping a header -/

namespace DhOptPayload

theorem swapHeader_eq (m : Mem) (p : Nat) :
    swapHeader m p = m.put p ((m.slice p 2).reverse ++ (m.slice (p + 2) 2).reverse) := by
  have hfirst : m.store16 p (bswap16 (optionCode m p)) = m.put p (m.slice p 2).reverse :=
    Mem.store16_bswap16_load16 m p
  have hkeep : (m.put p (m.slice p 2).reverse).slice (p + 2) 2 = m.slice (p + 2) 2 :=
    Mem.slice_put_of_apart (.inl (by simp))
  rw [swapHeader, hfirst, optionLength, Mem.store16_bswap16_load16, hkeep, Mem.put_append]
  simp

theorem swapHeader_of_apart {m : Mem} {p a n : Nat} (h : Apart p 4 a n) :
    (swapHeader m p).slice a n = m.slice a n := by
  rw [swapHeader_eq]
  exact Mem.slice_put_of_apart (by simpa using h)

theorem slice_swapHeader (m : Mem) (p : Nat) :
    (swapHeader m p).slice p 2 = (m.slice p 2).reverse ∧
    (swapHeader m p).slice (p + 2) 2 = (m.slice (p + 2) 2).reverse := by
  have h : (swapHeader m p).slice p 4 = (m.slice p 2).reverse ++ (m.slice (p + 2) 2).reverse := by
    rw [swapHeader_eq]
    exact Mem.slice_put_of_length (by simp)
  simpa using Mem.slice_eq_append h

theorem optionCode_swapHeader (m : Mem) (p : Nat) :
    optionCode (swapHeader m p) p = bswap16 (optionCode m p) := by
  apply Mem.load16_of_slice
  rw [(slice_swapHeader m p).1, leBytes_bswap16, beBytes, optionCode, Mem.leBytes_load16]

theorem optionLength_swapHeader (m : Mem) (p : Nat) :
    optionLength (swapHeader m p) p = bswap16 (optionLength m p) := by
  apply Mem.load16_of_slice
  rw [(slice_swapHeader m p).2, leBytes_bswap16, beBytes, optionLength, Mem.leBytes_load16]

end DhOptPayload

end Pdrad
