import Pdrad.DhSolicit
import Pdrad.WriteLog

/-!
# What an option constructor owes the packet builder

`dh_createPacket` copies `OptionLength + 4` bytes of every block it is given. A
constructor therefore has to ask `malloc` for just that many, to write inside
them only, and to put what its caller gave it where `OptionLength` counts it.

1. `Logged.built_*`: noting the stores changes nothing else.
2. `keepsBlock_iff`: which calls keep what they owe. A payload is never refused,
   so one that is too long is cut; sub-options of an `IA_PD` are written behind
   its block, and the last byte of a prefix behind that of an `IAPREFIX`.
-/

namespace Pdrad

open DhOptPayload

/-! ## The constructors, with their stores noted -/

namespace Logged

/-- The stores of a constructor, and the size it asked `malloc` for. -/
structure Block where
  log : WriteLog
  allocated : Nat

def Block.built (b : Block) : Built := ⟨b.log.mem, b.allocated⟩

def dhCreateCustomOptPayload (m : Mem) (payload : Nat) (code : UInt16) (optionData : Option Nat)
    (optionDataLength : Nat) : Block :=
  let size := sizeAdd optionDataLength dhOptPayloadOffset
  let t := (WriteLog.start m).store16 payload code
  let t := t.store16 (payload + 2) (UInt16.ofNat optionDataLength)
  let t :=
    match optionData with
    | none => t
    | some src => t.memcpy (DhOptPayload.optionData payload) src optionDataLength
  ⟨t, size⟩

def dhCreateOptionIAPD (m : Mem) (payload : Nat) (id : UInt32) (prefixOptions : Option Nat)
    (prefixOptionsLength : Nat) : Block :=
  let size := sizeofDhOptIAPD + dhOptPayloadOffset
  let thisOption := DhOptPayload.optionData payload
  let t := (WriteLog.start m).store32 thisOption (htobe32 id)
  let t := t.store32 (thisOption + 4) 0
  let t := t.store32 (thisOption + 8) 0
  let t := t.store16 payload DhOptions.iaPd.code
  let t :=
    match prefixOptions with
    | some src =>
      let t := t.memcpy (thisOption + sizeofDhOptIAPD) src prefixOptionsLength
      t.store16 (payload + 2) (UInt16.ofNat (sizeofDhOptIAPD + prefixOptionsLength))
    | none => t.store16 (payload + 2) (UInt16.ofNat sizeofDhOptIAPD)
  ⟨t, size⟩

def dhCreateOptionIAPrefix (m : Mem) (payload : Nat) (preferredTime validTime : UInt32)
    (prefixLength : UInt8) (prefixAddr : In6Addr) : Block :=
  let optionLength := sizeofDhOptIAPrefix - 1
  let size := optionLength + dhOptPayloadOffset
  let t := (WriteLog.start m).store16 payload DhOptions.iaPrefix.code
  let t := t.store16 (payload + 2) (UInt16.ofNat optionLength)
  let option := DhOptPayload.optionData payload
  let t := t.store32 option (htobe16 preferredTime.toUInt16).toUInt32
  let t := t.store32 (option + 4) (htobe16 validTime.toUInt16).toUInt32
  let t := t.put (option + 8) [prefixLength]
  let t := t.put (option + 9) prefixAddr.bytes
  ⟨t, size⟩

def dhCreateOptionClientIdentifierEn (m : Mem) (payload : Nat) (enterpriseNumber : UInt32)
    (id idLength : Nat) : Option Block :=
  if idLength ≤ 0 then none
  else
    let size := sizeAdd (dhOptPayloadOffset + 2 + 4) idLength
    let t := (WriteLog.start m).store16 payload DhOptions.clientId.code
    let t := t.store16 (payload + 2) (UInt16.ofNat (2 + 4 + idLength))
    let option := DhOptPayload.optionData payload
    let t := t.store16 option (htobe16 duIdEn)
    let t := t.store32 (option + 2) (htobe32 enterpriseNumber)
    let t := t.memcpy (option + 2 + 4) id idLength
    some ⟨t, size⟩

def dhCreateOptionElapsedTime (m : Mem) (payload : Nat) (time : UInt16) : Block :=
  let size := dhOptPayloadOffset + 2
  let t := (WriteLog.start m).store16 payload DhOptions.elapsedTime.code
  let t := t.store16 (payload + 2) 2
  let t := t.store16 (DhOptPayload.optionData payload) (htobe16 time)
  ⟨t, size⟩

section

variable (m : Mem) (payload : Nat)

theorem built_dhCreateCustomOptPayload (code : UInt16) (optionData : Option Nat) (n : Nat) :
    (dhCreateCustomOptPayload m payload code optionData n).built =
      Pdrad.dhCreateCustomOptPayload m payload code optionData n := by
  cases optionData <;> rfl

theorem built_dhCreateOptionIAPD (id : UInt32) (prefixOptions : Option Nat) (n : Nat) :
    (dhCreateOptionIAPD m payload id prefixOptions n).built =
      Pdrad.dhCreateOptionIAPD m payload id prefixOptions n := by
  cases prefixOptions <;> rfl

theorem built_dhCreateOptionIAPrefix (preferredTime validTime : UInt32) (prefixLength : UInt8)
    (prefixAddr : In6Addr) :
    (dhCreateOptionIAPrefix m payload preferredTime validTime prefixLength prefixAddr).built =
      Pdrad.dhCreateOptionIAPrefix m payload preferredTime validTime prefixLength prefixAddr := rfl

theorem built_dhCreateOptionClientIdentifierEn (enterpriseNumber : UInt32) (id idLength : Nat) :
    (dhCreateOptionClientIdentifierEn m payload enterpriseNumber id idLength).map Block.built =
      Pdrad.dhCreateOptionClientIdentifierEn m payload enterpriseNumber id idLength := by
  unfold dhCreateOptionClientIdentifierEn Pdrad.dhCreateOptionClientIdentifierEn
  split <;> rfl

theorem built_dhCreateOptionElapsedTime (time : UInt16) :
    (dhCreateOptionElapsedTime m payload time).built =
      Pdrad.dhCreateOptionElapsedTime m payload time := rfl

end

end Logged

/-- A call of a constructor. Pointers are addresses, and lengths are of type
`size_t`. -/
inductive DhConstruction where
  | customOptPayload (code : UInt16) (optionData : Option Nat) (optionDataLength : UInt64)
  | iaPd (id : UInt32) (prefixOptions : Option Nat) (prefixOptionsLength : UInt64)
  | iaPrefix (preferredTime validTime : UInt32) (prefixLength : UInt8) (prefixAddr : In6Addr)
  | clientIdentifierEn (enterpriseNumber : UInt32) (id : Nat) (idLength : UInt64)
      (pos : 0 < idLength.toNat)
  | elapsedTime (time : UInt16)

namespace DhConstruction

/-- Make the call; `none` is a `NULL` returned. -/
def run (m : Mem) (payload : Nat) : DhConstruction → Option Logged.Block
  | customOptPayload code optionData n =>
    some (Logged.dhCreateCustomOptPayload m payload code optionData n.toNat)
  | iaPd id prefixOptions n => some (Logged.dhCreateOptionIAPD m payload id prefixOptions n.toNat)
  | iaPrefix preferredTime validTime prefixLength prefixAddr =>
    some (Logged.dhCreateOptionIAPrefix m payload preferredTime validTime prefixLength prefixAddr)
  | clientIdentifierEn enterpriseNumber id n _ =>
    Logged.dhCreateOptionClientIdentifierEn m payload enterpriseNumber id n.toNat
  | elapsedTime time => some (Logged.dhCreateOptionElapsedTime m payload time)

/-! ## What a constructor owes -/

/-- The bytes the caller gives, each piece with its place in `OptionData`. -/
def given (m : Mem) : DhConstruction → List (Nat × List UInt8)
  | customOptPayload _ none _ => []
  | customOptPayload _ (some src) n => [(0, m.slice src n.toNat)]
  | iaPd id none _ => [(0, beBytes 4 id.toNat)]
  | iaPd id (some src) n => [(0, beBytes 4 id.toNat), (sizeofDhOptIAPD, m.slice src n.toNat)]
  | iaPrefix preferredTime validTime prefixLength prefixAddr =>
    [(0, beBytes 4 preferredTime.toNat), (4, beBytes 4 validTime.toNat), (8, [prefixLength]),
      (9, prefixAddr.bytes)]
  | clientIdentifierEn enterpriseNumber id n _ =>
    [(2, beBytes 4 enterpriseNumber.toNat), (6, m.slice id n.toNat)]
  | elapsedTime time => [(0, beBytes 2 time.toNat)]

/-- The size of the option data that holds them. -/
def dataLength : DhConstruction → Nat
  | customOptPayload _ _ n => n.toNat
  | iaPd _ none _ => sizeofDhOptIAPD
  | iaPd _ (some _) n => sizeofDhOptIAPD + n.toNat
  | iaPrefix .. => sizeofDhOptIAPrefix
  | clientIdentifierEn _ _ n _ => 2 + 4 + n.toNat
  | elapsedTime _ => 2

/-- The memory that the constructor reads. -/
def source : DhConstruction → Option (Nat × Nat)
  | customOptPayload _ optionData n => optionData.map fun src => (src, n.toNat)
  | iaPd _ prefixOptions n => prefixOptions.map fun src => (src, n.toNat)
  | clientIdentifierEn _ id n _ => some (id, n.toNat)
  | iaPrefix .. => none
  | elapsedTime _ => none

/-- The block is as `dh_createPacket` takes it to be. -/
structure IsBlock (m : Mem) (payload : Nat) (c : DhConstruction) (b : Logged.Block) : Prop where
  size : b.allocated = (optionLength b.log.mem payload).toNat + dhOptPayloadOffset
  inside : ∀ x, b.log.Written x → payload ≤ x ∧ x < payload + b.allocated
  present : ∀ g ∈ c.given m, g.1 + g.2.length ≤ (optionLength b.log.mem payload).toNat ∧
    b.log.mem.slice (optionData payload + g.1) g.2.length = g.2

/-- The call keeps the block invariant, or refuses a payload that is too long. -/
def KeepsBlock (m : Mem) (payload : Nat) (c : DhConstruction) : Prop :=
  match c.run m payload with
  | none => 2 ^ 16 ≤ c.dataLength
  | some b => c.IsBlock m payload b

/-- What `malloc` returns is apart from what the constructor reads. -/
def SourceApart (m : Mem) (payload : Nat) (c : DhConstruction) : Prop :=
  ∀ b ∈ c.run m payload, ∀ r ∈ c.source, Apart payload b.allocated r.1 r.2

/-- The calls that keep the block invariant. -/
def Sound : DhConstruction → Prop
  | customOptPayload _ _ n => n.toNat < 2 ^ 16
  | iaPd _ prefixOptions n => prefixOptions = none ∨ n.toNat = 0
  | iaPrefix .. => False
  | clientIdentifierEn _ _ n _ => 2 + 4 + n.toNat < 2 ^ 16
  | elapsedTime _ => True

end DhConstruction

/-! ## The sound calls -/

namespace DhBlocksLemmas

open DhConstruction DhSolicitLemmas

/-- A block that holds an option in host order, where the caller's bytes are pieces
of its data. -/
theorem isBlock_of_host {m : Mem} {payload : Nat} {c : DhConstruction} {b : Logged.Block}
    {o : DhOption} {n : Nat} (hbuilt : b.built = ⟨m.put payload o.host, n⟩) (hn : n = o.size)
    (hinside : ∀ x, b.log.Written x → payload ≤ x ∧ x < payload + b.allocated)
    (hgiven : ∀ g ∈ c.given m, ∃ front back, o.data = front ++ (g.2 ++ back) ∧
      front.length = g.1) : c.IsBlock m payload b := by
  simp only [Logged.Block.built, Built.mk.injEq] at hbuilt
  obtain ⟨hmem, hsize⟩ := hbuilt
  obtain ⟨_, hlength, hdata⟩ := at_put_host m payload o
  rw [← hmem] at hlength hdata
  refine ⟨?_, hinside, fun g hg => ?_⟩
  · rw [hsize, hn, hlength, DhOption.toNat_length]
    rfl
  · obtain ⟨front, back, hpieces, hfront⟩ := hgiven g hg
    rw [hlength, DhOption.toNat_length, hpieces]
    rw [hpieces] at hdata
    obtain ⟨_, hrest⟩ := Mem.slice_eq_append hdata
    refine ⟨?_, ?_⟩
    · simp only [List.length_append, hfront]
      omega
    · rw [← hfront]
      exact (Mem.slice_eq_append hrest).1

/-- The whole data as one piece. -/
theorem whole_piece (data : List UInt8) : ∃ front back, data = front ++ (data ++ back) ∧
    front.length = 0 :=
  ⟨[], [], by simp, rfl⟩

variable {m : Mem} {payload : Nat}

/-- The header, and as many bytes as there are data. -/
theorem inside_custom {code : UInt16} {optionData : Option Nat} {n x : Nat}
    (h : (Logged.dhCreateCustomOptPayload m payload code optionData n).log.Written x) :
    payload ≤ x ∧ x < payload + (n + 4) := by
  cases optionData <;>
    simp only [Logged.dhCreateCustomOptPayload, WriteLog.written_store16, WriteLog.written_memcpy,
      WriteLog.not_written_start, false_or, optionData, dhOptPayloadOffset] at h <;> omega

theorem keeps_custom (code : UInt16) (optionData : Option Nat) {n : UInt64}
    (hfits : n.toNat < 2 ^ 16) (h : SourceApart m payload (.customOptPayload code optionData n)) :
    KeepsBlock m payload (.customOptPayload code optionData n) := by
  have hsize : sizeAdd n.toNat dhOptPayloadOffset = n.toNat + 4 :=
    sizeAdd_of_lt (Nat.lt_trans (Nat.add_lt_add_right hfits 4) (by decide))
  have hapart : ∀ src ∈ optionData, Apart payload 4 src n.toNat := by
    rintro src rfl
    have hblock := h _ rfl (src, n.toNat) rfl
    simp only [Logged.dhCreateCustomOptPayload, hsize] at hblock
    exact hblock.front (Nat.le_add_left 4 _)
  have hbuilt := (Logged.built_dhCreateCustomOptPayload m payload code optionData n.toNat).trans
    (dhCreateCustomOptPayload_eq code hfits hapart)
  refine isBlock_of_host hbuilt ?_ (fun x hx => ?_) (fun g hg => ?_)
  · rw [DhOption.size, customOption, Mem.length_slice]
    rfl
  · show payload ≤ x ∧ x < payload + sizeAdd n.toNat dhOptPayloadOffset
    rw [hsize]
    exact inside_custom hx
  · cases optionData with
    | none => cases hg
    | some src =>
      obtain rfl := List.mem_singleton.mp hg
      exact whole_piece _

section

variable {id : UInt32} {prefixOptions : Option Nat} {n : Nat}

/-- Without sub-options there are the three fields, and the header after them. -/
theorem inside_iaPd (h : prefixOptions = none ∨ n = 0) {x : Nat}
    (hx : (Logged.dhCreateOptionIAPD m payload id prefixOptions n).log.Written x) :
    payload ≤ x ∧ x < payload + 16 := by
  cases prefixOptions with
  | none =>
    simp only [Logged.dhCreateOptionIAPD, WriteLog.written_store16, WriteLog.written_store32,
      WriteLog.not_written_start, false_or, optionData, dhOptPayloadOffset] at hx
    omega
  | some src =>
    obtain rfl : n = 0 := h.resolve_left (Option.some_ne_none src)
    simp only [Logged.dhCreateOptionIAPD, WriteLog.written_store16, WriteLog.written_store32,
      WriteLog.written_memcpy, WriteLog.not_written_start, false_or, optionData,
      dhOptPayloadOffset] at hx
    omega

/-- Copying no sub-options leaves the `IA_PD` empty. -/
theorem built_iaPd (h : prefixOptions = none ∨ n = 0) :
    (Logged.dhCreateOptionIAPD m payload id prefixOptions n).built =
      ⟨m.put payload (emptyIAPD id).host, (emptyIAPD id).size⟩ := by
  rw [Logged.built_dhCreateOptionIAPD, ← dhCreateOptionIAPD_eq]
  cases prefixOptions with
  | none => rfl
  | some src =>
    obtain rfl : n = 0 := h.resolve_left (Option.some_ne_none src)
    simp only [dhCreateOptionIAPD, Mem.memcpy, Mem.slice_zero, Mem.put_nil, Nat.add_zero]

end

theorem keeps_iaPd (id : UInt32) {prefixOptions : Option Nat} {n : UInt64}
    (h : prefixOptions = none ∨ n.toNat = 0) :
    KeepsBlock m payload (.iaPd id prefixOptions n) := by
  have hid : ∃ front back, (emptyIAPD id).data = front ++ (beBytes 4 id.toNat ++ back) ∧
      front.length = 0 :=
    ⟨[], [0, 0, 0, 0] ++ [0, 0, 0, 0], by simp [emptyIAPD], rfl⟩
  refine isBlock_of_host (built_iaPd h) rfl (fun x hx => inside_iaPd h hx) (fun g hg => ?_)
  cases prefixOptions with
  | none =>
    obtain rfl := List.mem_singleton.mp hg
    exact hid
  | some src =>
    have hn : n.toNat = 0 := h.resolve_left (Option.some_ne_none src)
    rw [given, hn, Mem.slice_zero] at hg
    rcases List.mem_pair.mp hg with rfl | rfl
    · exact hid
    · exact ⟨(emptyIAPD id).data, [], by simp, by simp [emptyIAPD, sizeofDhOptIAPD]⟩

theorem keeps_clientIdentifierEn (enterpriseNumber : UInt32) {id : Nat} {n : UInt64}
    (pos : 0 < n.toNat) (hfits : 2 + 4 + n.toNat < 2 ^ 16)
    (h : SourceApart m payload (.clientIdentifierEn enterpriseNumber id n pos)) :
    KeepsBlock m payload (.clientIdentifierEn enterpriseNumber id n pos) := by
  have hsize : sizeAdd (dhOptPayloadOffset + 2 + 4) n.toNat = 4 + 2 + 4 + n.toNat := by
    refine sizeAdd_of_lt ?_
    rw [dhOptPayloadOffset]
    omega
  have hrun : run m payload (.clientIdentifierEn enterpriseNumber id n pos) = some _ :=
    if_neg (Nat.not_le.mpr pos)
  have hapart : Apart payload (4 + 2 + 4) id n.toNat := by
    have hblock := h _ hrun (id, n.toNat) rfl
    simp only [hsize] at hblock
    exact hblock.front (Nat.le_add_right _ _)
  have hbuilt := Logged.built_dhCreateOptionClientIdentifierEn m payload enterpriseNumber id n.toNat
  rw [dhCreateOptionClientIdentifierEn_eq enterpriseNumber pos hfits hapart] at hbuilt
  unfold KeepsBlock
  rw [run] at hrun
  rw [run, hrun]
  rw [hrun, Option.map_some, Option.some.injEq] at hbuilt
  refine isBlock_of_host hbuilt ?_ (fun x hx => ?_) (fun g hg => ?_)
  · simp only [DhOption.size, Pdrad.clientIdentifierEn, List.length_append, length_beBytes,
      Mem.length_slice, dhOptPayloadOffset]
    omega
  · simp only [WriteLog.written_store16, WriteLog.written_store32, WriteLog.written_memcpy,
      WriteLog.not_written_start, false_or, optionData, dhOptPayloadOffset] at hx
    simp only [hsize]
    omega
  · simp only [given, List.mem_cons, List.not_mem_nil, or_false] at hg
    rcases hg with rfl | rfl
    · exact ⟨beBytes 2 duIdEn.toNat, m.slice id n.toNat, by simp [Pdrad.clientIdentifierEn],
        length_beBytes 2 _⟩
    · exact ⟨beBytes 2 duIdEn.toNat ++ beBytes 4 enterpriseNumber.toNat, [],
        by simp [Pdrad.clientIdentifierEn], by simp⟩

theorem keeps_elapsedTime (time : UInt16) : KeepsBlock m payload (.elapsedTime time) := by
  have hbuilt := (Logged.built_dhCreateOptionElapsedTime m payload time).trans
    (dhCreateOptionElapsedTime_eq m payload time)
  refine isBlock_of_host hbuilt rfl (fun x hx => ?_) (fun g hg => ?_)
  · simp only [Logged.dhCreateOptionElapsedTime, WriteLog.written_store16,
      WriteLog.not_written_start, false_or, optionData, dhOptPayloadOffset] at hx ⊢
    omega
  · obtain rfl := List.mem_singleton.mp hg
    exact whole_piece _

/-! ## The calls that are not sound -/

/-- The length field holds the length modulo `2 ^ 16`. -/
theorem optionLength_custom (code : UInt16) (optionData : Option Nat) (n : Nat) :
    optionLength (Logged.dhCreateCustomOptPayload m payload code optionData n).log.mem payload =
      UInt16.ofNat n := by
  have hheader : ((m.store16 payload code).store16 (payload + 2) (UInt16.ofNat n)).slice
      (payload + 2) 2 = leBytes 2 (UInt16.ofNat n).toNat :=
    Mem.slice_put_of_length (by simp)
  cases optionData with
  | none => exact Mem.load16_of_slice hheader
  | some src =>
    refine Mem.load16_of_slice (Eq.trans (Mem.slice_put_of_apart ?_) hheader)
    exact .inr (by rw [DhOptPayload.optionData, dhOptPayloadOffset])

/-- A payload that is too long is cut: its block is not of the size it counts. -/
theorem loses_custom (code : UInt16) (optionData : Option Nat) {n : UInt64}
    (hlong : 2 ^ 16 ≤ n.toNat) : ¬ KeepsBlock m payload (.customOptPayload code optionData n) := by
  rintro ⟨hsize, _, _⟩
  have hlt := n.toNat_lt
  rw [optionLength_custom, UInt16.toNat_ofNat'] at hsize
  simp only [Logged.dhCreateCustomOptPayload, sizeAdd, dhOptPayloadOffset] at hsize
  omega

/-- Sub-options are written behind the block. -/
theorem loses_iaPd (id : UInt32) {src : Nat} {n : UInt64} (hpos : n.toNat ≠ 0) :
    ¬ KeepsBlock m payload (.iaPd id (some src) n) := by
  rintro ⟨_, hinside, _⟩
  have hbehind := (hinside (payload + 16) (by
    simp only [Logged.dhCreateOptionIAPD, WriteLog.written_store16, WriteLog.written_memcpy,
      sizeofDhOptIAPD, optionData, dhOptPayloadOffset]
    exact .inl (.inr ⟨Nat.le_refl _, Nat.lt_add_of_pos_right (Nat.pos_of_ne_zero hpos)⟩))).2
  exact Nat.lt_irrefl _ hbehind

/-- The block of an `IAPREFIX` ends before the last byte of the prefix. -/
theorem loses_iaPrefix (preferredTime validTime : UInt32) (prefixLength : UInt8)
    (prefixAddr : In6Addr) :
    ¬ KeepsBlock m payload (.iaPrefix preferredTime validTime prefixLength prefixAddr) := by
  rintro ⟨_, hinside, _⟩
  have hbehind := (hinside (payload + 28) (by
    simp only [Logged.dhCreateOptionIAPrefix, WriteLog.written_put, prefixAddr.size, optionData,
      dhOptPayloadOffset]
    exact .inr ⟨by omega, by omega⟩)).2
  exact Nat.lt_irrefl _ hbehind

theorem clientIdentifierEn_spec {enterpriseNumber : UInt32} {id n : Nat} {b : Logged.Block}
    (h : Logged.dhCreateOptionClientIdentifierEn m payload enterpriseNumber id n = some b) :
    optionLength b.log.mem payload = UInt16.ofNat (2 + 4 + n) ∧
      b.allocated = sizeAdd (4 + 2 + 4) n ∧
      ∀ x, payload + 10 ≤ x → x < payload + 10 + n → b.log.Written x := by
  unfold Logged.dhCreateOptionClientIdentifierEn at h
  split at h
  · cases h
  · cases h
    refine ⟨Mem.load16_of_slice ?_, rfl, fun x hlo hhi => ?_⟩
    · simp only [WriteLog.memcpy, WriteLog.store32, WriteLog.store16, WriteLog.mem_put]
      rw [Mem.slice_put_of_apart, Mem.slice_put_of_apart, Mem.slice_put_of_apart,
        Mem.slice_put_of_length (length_leBytes 2 _)]
      all_goals exact .inr (by simp only [optionData, dhOptPayloadOffset]; omega)
    · exact WriteLog.written_memcpy.mpr (.inr ⟨hlo, hhi⟩)

/-- An identifier that is too long is cut, and where the size wraps around it is
written behind its block. -/
theorem loses_clientIdentifierEn (enterpriseNumber : UInt32) {id : Nat} {n : UInt64}
    (pos : 0 < n.toNat) (hlong : 2 ^ 16 ≤ 2 + 4 + n.toNat) :
    ¬ KeepsBlock m payload (.clientIdentifierEn enterpriseNumber id n pos) := by
  intro hkeeps
  have hrun : Logged.dhCreateOptionClientIdentifierEn m payload enterpriseNumber id n.toNat =
      some _ := if_neg (Nat.not_le.mpr pos)
  obtain ⟨hlength, hallocated, hwritten⟩ := clientIdentifierEn_spec hrun
  rw [KeepsBlock, run, hrun] at hkeeps
  obtain ⟨hsize, hinside, _⟩ := hkeeps
  have hlast := (hinside (payload + 10 + (n.toNat - 1)) (hwritten _ (by omega) (by omega))).2
  rw [hlength, hallocated, UInt16.toNat_ofNat'] at hsize
  rw [hallocated] at hlast
  simp only [sizeAdd, dhOptPayloadOffset] at hsize hlast
  omega

end DhBlocksLemmas

open DhBlocksLemmas

/-- A constructor leaves a block that the packet builder can copy exactly when the
call is sound. -/
theorem keepsBlock_iff {m : Mem} {payload : Nat} {c : DhConstruction}
    (h : c.SourceApart m payload) : c.KeepsBlock m payload ↔ c.Sound := by
  cases c with
  | customOptPayload code optionData n =>
    refine ⟨fun hkeeps => ?_, fun hfits => keeps_custom code optionData hfits h⟩
    by_contra hlong
    exact loses_custom code optionData (Nat.le_of_not_lt hlong) hkeeps
  | iaPd id prefixOptions n =>
    refine ⟨fun hkeeps => ?_, keeps_iaPd id⟩
    cases prefixOptions with
    | none => exact .inl rfl
    | some src =>
      by_contra hsub
      exact loses_iaPd id (fun hn => hsub (.inr hn)) hkeeps
  | iaPrefix preferredTime validTime prefixLength prefixAddr =>
    exact ⟨loses_iaPrefix preferredTime validTime prefixLength prefixAddr, False.elim⟩
  | clientIdentifierEn enterpriseNumber id n pos =>
    refine ⟨fun hkeeps => ?_, fun hfits => keeps_clientIdentifierEn enterpriseNumber pos hfits h⟩
    by_contra hlong
    exact loses_clientIdentifierEn enterpriseNumber pos (Nat.le_of_not_lt hlong) hkeeps
  | elapsedTime time => exact ⟨fun _ => trivial, fun _ => keeps_elapsedTime time⟩

/-- Four bytes of payload, taken from 4096. -/
theorem exCustom_keepsBlock : (DhConstruction.customOptPayload 3 (some 4096) 4).KeepsBlock
    (Mem.put (fun _ => 0) 4096 [0xde, 0xad, 0xbe, 0xef]) 8192 := by
  refine (keepsBlock_iff ?_).mpr (show (4 : UInt64).toNat < 2 ^ 16 by decide)
  rintro b ⟨⟩ r ⟨⟩
  exact .inr (by decide)

/-- The prefix `::/64`: 28 bytes are asked for, and the last of the prefix's bytes
is the 29th. -/
theorem exIAPrefix_behind :
    ¬ (DhConstruction.iaPrefix 3600 7200 64 In6Addr.zero).KeepsBlock (fun _ => 0) 8192 := by
  rintro ⟨_, hinside, _⟩
  exact absurd (hinside 8220 ⟨(8205, 16), by decide, by decide⟩).2 (by decide)

end Pdrad
