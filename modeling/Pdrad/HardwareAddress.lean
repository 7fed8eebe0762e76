import Mathlib.Data.List.GetD
import Pdrad.Utils

/-!
# Two calls of `utils_getHardwareAddressByName` at once (`utils.c`)

The call works in `*utils_request`, which there is one of, and no lock is held: it sets
`ifru_ivalue` to zero, asks for the address, and copies it from where the answer is. The
zero takes four bytes, and the last two of these are the first of the address. A thread
that begins a call can so destroy the answer that another one is about to copy. The model of
one call, `getHardwareAddressByName`, is handed the bytes that it copies; which bytes these
can be is what this module is about.

1. `hardware_step`: what the block holds depends on who has written last.
2. `hardware_bytes`: what each byte that is copied is, in every run of any number of
   threads, and what is left of the address.
-/

namespace Pdrad

/-- Where `ifr_ifru` lies in `*utils_request`, and `sa_data` in it. -/
def ifrIfru : Nat := 16
def saDataOffset : Nat := 2

/-- `sizeof(struct sockaddr)`. -/
def sizeofSockaddr : Nat := 16

/-! ## The threads -/

/-- How far a thread has come in the call: `copying` has `todo` still to copy to `dst`. -/
inductive HardwareAt where
  | outside
  | asking
  | copying (dst : List UInt8) (todo : List Nat)

structure HardwareState (τ : Type) where
  mem : Mem
  pc : τ → HardwareAt

/-- The threads are outside, and the block is as `malloc` has left it. -/
def HardwareState.init {τ : Type} (m : Mem) : HardwareState τ where
  mem := m
  pc := fun _ => .outside

inductive HardwareEvent where
  | begins
  | answers (ioctl : Except Errno Unit)
  | copies (k : Nat) (b : UInt8)
  | returns (dst : List UInt8)

section

variable {τ : Type} [DecidableEq τ]

/-- The thread `i` comes to `pc`. -/
def HardwareState.goto (s : HardwareState τ) (i : τ) (pc : HardwareAt) : HardwareState τ :=
  { s with pc := Function.update s.pc i pc }

/-- The steps of the call. `answer` is what `SIOCGIFHWADDR` writes to `ifr_hwaddr`. The
integer and the answer are each written at once, and the bytes are copied one at a time, in
any order. -/
inductive HardwareStep (request : Nat) (answer : List UInt8) (s : HardwareState τ) :
    τ × HardwareEvent → HardwareState τ → Prop where
  | begins (i : τ) : s.pc i = .outside →
      HardwareStep request answer s (i, .begins)
        { s.goto i .asking with mem := s.mem.store32 (request + ifrIfru) 0 }
  | fails (i : τ) (errno : Errno) : s.pc i = .asking →
      HardwareStep request answer s (i, .answers (.error errno)) (s.goto i .outside)
  | answers (i : τ) (dst : List UInt8) : s.pc i = .asking → dst.length = macAddressLength →
      HardwareStep request answer s (i, .answers (.ok ()))
        { s.goto i (.copying dst (List.range macAddressLength)) with
          mem := s.mem.put (request + ifrIfru) answer }
  | copies (i : τ) (dst : List UInt8) (todo : List Nat) (k : Nat) :
      s.pc i = .copying dst todo → k ∈ todo →
      HardwareStep request answer s (i, .copies k (s.mem (request + ifrIfru + saDataOffset + k)))
        (s.goto i (.copying (dst.set k (s.mem (request + ifrIfru + saDataOffset + k)))
          (todo.filter (· ≠ k))))
  | returns (i : τ) (dst : List UInt8) : s.pc i = .copying dst [] →
      HardwareStep request answer s (i, .returns dst) (s.goto i .outside)

end

/-! ## The block -/

/-- Whether the last to write to the block has begun a call, and not got an answer. -/
def zeroed {τ : Type} (es : List (τ × HardwareEvent)) : Bool :=
  es.foldl (fun z e => match e.2 with
    | .begins => true
    | .answers (.ok ()) => false
    | _ => z) false

/-- Somebody has got an answer. -/
def GotAnswer {τ : Type} (es : List (τ × HardwareEvent)) : Prop :=
  ∃ e ∈ es, e.2 = .answers (.ok ())

/-- The byte `k` of the address in an answer. -/
def answeredByte (answer : List UInt8) (k : Nat) : UInt8 :=
  answer.getD (saDataOffset + k) 0

/-- The byte `k` of the address, as it is found behind the events `es`. -/
def foundByte {τ : Type} (answer : List UInt8) (es : List (τ × HardwareEvent)) (k : Nat) : UInt8 :=
  if k < 2 ∧ zeroed es = true then 0 else answeredByte answer k

/-- Whether somebody has begun a call since `i` has got its answer. -/
def overtaken {τ : Type} [DecidableEq τ] (i : τ) (es : List (τ × HardwareEvent)) : Bool :=
  es.foldl (fun z e => match e.2 with
    | .begins => true
    | .answers (.ok ()) => if e.1 = i then false else z
    | _ => z) false

/-- The byte `k` is that of the address, or it is one of the first two, and another call has
made it zero. -/
def RightOrZero (answer : List UInt8) (begun : Bool) (k : Nat) (b : UInt8) : Prop :=
  b = answeredByte answer k ∨ k < 2 ∧ b = 0 ∧ begun = true

/-- What the thread `i` has copied of the address behind the events `es`, where it is at
`pc`. -/
def Copied {τ : Type} [DecidableEq τ] (answer : List UInt8) (es : List (τ × HardwareEvent))
    (i : τ) : HardwareAt → Prop
  | .copying dst todo =>
    GotAnswer es ∧ (zeroed es = true → overtaken i es = true) ∧
      dst.length = macAddressLength ∧ (∀ k ∈ todo, k < macAddressLength) ∧
      ∀ k < macAddressLength, k ∉ todo → RightOrZero answer (overtaken i es) k (dst.getD k 0)
  | _ => True

/-- What the block and the threads hold behind the events `es`. -/
structure HardwareHolds {τ : Type} [DecidableEq τ] (request : Nat) (answer : List UInt8)
    (es : List (τ × HardwareEvent)) (s : HardwareState τ) : Prop where
  block : GotAnswer es → ∀ k < macAddressLength,
    s.mem (request + ifrIfru + saDataOffset + k) = foundByte answer es k
  copied : ∀ i, Copied answer es i (s.pc i)

namespace HardwareAddressLemmas

section

variable {τ : Type} {request k : Nat} {answer : List UInt8} {es : List (τ × HardwareEvent)}

theorem zeroed_snoc (e : τ × HardwareEvent) : zeroed (es ++ [e]) = match e.2 with
    | .begins => true
    | .answers (.ok ()) => false
    | _ => zeroed es := by
  rw [zeroed, List.foldl_append]
  rfl

theorem gotAnswer_snoc (e : τ × HardwareEvent) :
    GotAnswer (es ++ [e]) ↔ GotAnswer es ∨ e.2 = .answers (.ok ()) := by
  simp only [GotAnswer, List.mem_append, List.mem_singleton, or_and_right, exists_or,
    exists_eq_left]

/-- `ifru_ivalue` and the first two bytes of the address are set to zero. -/
theorem begins_byte (m : Mem) :
    m.store32 (request + ifrIfru) 0 (request + ifrIfru + saDataOffset + k) =
      if k < 2 then 0 else m (request + ifrIfru + saDataOffset + k) := by
  have hzero : leBytes 4 (0 : UInt32).toNat = [0, 0, 0, 0] := by decide
  rw [Mem.store32, hzero, Nat.add_assoc (request + ifrIfru)]
  split
  · next hfirst =>
    have hinside : saDataOffset + k < [(0 : UInt8), 0, 0, 0].length := Nat.add_lt_add_left hfirst 2
    rw [Mem.put_at hinside]
    match k, hfirst with
    | 0, _ | 1, _ => rfl
  · next hlater =>
    exact Mem.put_of_ge (Nat.add_le_add_left (Nat.add_le_add_left (Nat.le_of_not_lt hlater) 2) _)

theorem answers_byte (m : Mem) (hsize : answer.length = sizeofSockaddr)
    (hk : k < macAddressLength) :
    m.put (request + ifrIfru) answer (request + ifrIfru + saDataOffset + k) =
      answeredByte answer k := by
  have hinside : saDataOffset + k < answer.length := by
    rw [hsize]
    exact Nat.lt_of_lt_of_le (Nat.add_lt_add_left hk 2) (by decide)
  rw [Nat.add_assoc (request + ifrIfru), Mem.put_at hinside, answeredByte,
    List.getD_eq_getElem _ _ hinside]

end

variable {τ : Type} [DecidableEq τ] {request : Nat} {answer : List UInt8}
  {es : List (τ × HardwareEvent)} {s t : HardwareState τ} {e : τ × HardwareEvent}

theorem overtaken_snoc (i : τ) (e : τ × HardwareEvent) :
    overtaken i (es ++ [e]) = match e.2 with
      | .begins => true
      | .answers (.ok ()) => if e.1 = i then false else overtaken i es
      | _ => overtaken i es := by
  rw [overtaken, List.foldl_append]
  rfl

/-- Only an answer of its own takes it back that a thread is overtaken. -/
theorem overtaken_mono {i : τ} (he : e ≠ (i, .answers (.ok ())))
    (h : overtaken i es = true) : overtaken i (es ++ [e]) = true := by
  rw [overtaken_snoc]
  obtain ⟨j, ev⟩ := e
  cases ev with
  | begins => rfl
  | answers ioctl =>
    cases ioctl with
    | error errno => exact h
    | ok u =>
      have hother : j ≠ i := fun hji => he (by rw [hji])
      exact (if_neg hother).trans h
  | copies k b => exact h
  | returns dst => exact h

/-- What is zero behind another event has been zero before, or a call has begun. -/
theorem zeroed_mono {i : τ} (he : e ≠ (i, .answers (.ok ())))
    (h : zeroed es = true → overtaken i es = true) (hzero : zeroed (es ++ [e]) = true) :
    overtaken i (es ++ [e]) = true := by
  rw [zeroed_snoc] at hzero
  obtain ⟨j, ev⟩ := e
  cases ev with
  | begins => exact overtaken_snoc i _
  | answers ioctl =>
    cases ioctl with
    | error errno => exact overtaken_mono he (h hzero)
    | ok u => exact absurd hzero Bool.false_ne_true
  | copies k b => exact overtaken_mono he (h hzero)
  | returns dst => exact overtaken_mono he (h hzero)

theorem copied_mono {i : τ} {pc : HardwareAt} (he : e ≠ (i, .answers (.ok ())))
    (h : Copied answer es i pc) : Copied answer (es ++ [e]) i pc := by
  cases pc with
  | outside => trivial
  | asking => trivial
  | copying dst todo =>
    obtain ⟨hany, hzero, hlength, htodo, hdone⟩ := h
    refine ⟨(gotAnswer_snoc e).mpr (.inl hany), zeroed_mono he hzero, hlength, htodo,
      fun k hk hnot => (hdone k hk hnot).imp id ?_⟩
    rintro ⟨hfirst, hb, hbegun⟩
    exact ⟨hfirst, hb, overtaken_mono he hbegun⟩

/-- Another byte of the address is copied. -/
theorem copied_byte {i : τ} {dst : List UInt8} {todo : List Nat}
    (h : Copied answer es i (.copying dst todo)) :
    Copied answer es i (.copying (dst.set k (foundByte answer es k)) (todo.filter (· ≠ k))) := by
  obtain ⟨hany, hzero, hlength, htodo, hdone⟩ := h
  refine ⟨hany, hzero, by rw [List.length_set, hlength],
    fun j hj => htodo j (List.mem_of_mem_filter hj), fun j hj hnot => ?_⟩
  rcases eq_or_ne k j with rfl | hne
  · rw [List.getD_eq_getElem _ _ (by rw [List.length_set, hlength]; exact hj),
      List.getElem_set_self, foundByte]
    split
    · next hfirst => exact .inr ⟨hfirst.1, rfl, hzero hfirst.2⟩
    · exact .inl rfl
  · have hbefore : j ∉ todo := fun hmem =>
      hnot (List.mem_filter.mpr ⟨hmem, decide_eq_true hne.symm⟩)
    rw [List.getD_eq_getElem?_getD, List.getElem?_set_ne hne, ← List.getD_eq_getElem?_getD]
    exact hdone j hj hbefore

/-- The thread `i` comes to `pc`, and the others are where they have been. -/
theorem copied_goto {i : τ} {pc : HardwareAt} (hs : ∀ j, Copied answer es j (s.pc j))
    (he : e.1 = i) (hpc : Copied answer (es ++ [e]) i pc) (j : τ) :
    Copied answer (es ++ [e]) j ((s.goto i pc).pc j) :=
  (Function.forall_update_iff s.pc (p := fun j pc => Copied answer (es ++ [e]) j pc)).mpr
    ⟨hpc, fun j hne => copied_mono (fun h => hne (he ▸ h ▸ rfl)) (hs j)⟩ j

/-- **One step.** A thread that begins destroys the first two bytes of an answer, and one
that gets an answer restores them. -/
theorem hardware_step (hsize : answer.length = sizeofSockaddr)
    (hs : HardwareHolds request answer es s) (h : HardwareStep request answer s e t) :
    HardwareHolds request answer (es ++ [e]) t := by
  cases h with
  | begins i hpc =>
    refine ⟨fun hany k hk => ?_, copied_goto hs.copied rfl trivial⟩
    have hbefore := hs.block (((gotAnswer_snoc _).mp hany).resolve_right nofun) k hk
    show s.mem.store32 _ 0 _ = _
    rw [begins_byte, hbefore, foundByte, foundByte, zeroed_snoc]
    split
    · next hfirst => rw [if_pos ⟨hfirst, rfl⟩]
    · next hlater => rw [if_neg fun h => hlater h.1, if_neg fun h => hlater h.1]
  | fails i errno hpc =>
    refine ⟨fun hany k hk => ?_, copied_goto hs.copied rfl trivial⟩
    rw [foundByte, zeroed_snoc]
    exact hs.block (((gotAnswer_snoc _).mp hany).resolve_right nofun) k hk
  | answers i dst hpc hlength =>
    refine ⟨fun _ k hk => ?_, copied_goto hs.copied rfl ⟨(gotAnswer_snoc _).mpr (.inr rfl), ?_,
      hlength, fun k hk => List.mem_range.mp hk,
      fun k hk hnot => absurd (List.mem_range.mpr hk) hnot⟩⟩
    · show s.mem.put _ answer _ = _
      rw [answers_byte s.mem hsize hk, foundByte, zeroed_snoc,
        if_neg fun h => absurd h.2 Bool.false_ne_true]
    · rw [zeroed_snoc]
      exact fun h => absurd h Bool.false_ne_true
  | copies i dst todo k hpc hk =>
    have hheld := hs.copied i
    rw [hpc] at hheld
    rw [hs.block hheld.1 k (hheld.2.2.2.1 k hk)]
    refine ⟨fun _ j hj => ?_, copied_goto hs.copied rfl (copied_mono nofun (copied_byte hheld))⟩
    refine (hs.block hheld.1 j hj).trans ?_
    unfold foundByte
    rw [zeroed_snoc]
  | returns i dst hpc =>
    refine ⟨fun hany k hk => ?_, copied_goto hs.copied rfl trivial⟩
    rw [foundByte, zeroed_snoc]
    exact hs.block (((gotAnswer_snoc _).mp hany).resolve_right nofun) k hk

theorem hardware_run {m : Mem} (hsize : answer.length = sizeofSockaddr)
    (hrun : Run (HardwareStep request answer) (HardwareState.init m) es s) :
    HardwareHolds request answer es s := by
  refine hrun.trace_invariant (fun _ _ _ _ hI hstep => hardware_step hsize hI hstep) ⟨?_, ?_⟩
  · rintro ⟨e, he, _⟩
    cases he
  · exact fun _ => trivial

end HardwareAddressLemmas

open HardwareAddressLemmas

/-- In every run of any number of threads, a byte that is copied is that of the address,
save that the first two are zero where the last to write has begun a call. What a call
returns is the address, except that these two can be zero if another call has begun since
the answer. -/
theorem hardware_bytes {τ : Type} [DecidableEq τ] {request : Nat} {answer : List UInt8}
    {m : Mem} {es : List (τ × HardwareEvent)} {s t : HardwareState τ} {i : τ}
    {ev : HardwareEvent} (hsize : answer.length = sizeofSockaddr)
    (hrun : Run (HardwareStep request answer) (HardwareState.init m) es s)
    (hstep : HardwareStep request answer s (i, ev) t) :
    (∀ k b, ev = .copies k b → k < macAddressLength ∧ b = foundByte answer es k) ∧
    (∀ dst, ev = .returns dst → dst.length = macAddressLength ∧
      ∀ k < macAddressLength, RightOrZero answer (overtaken i es) k (dst.getD k 0)) := by
  have hs := hardware_run hsize hrun
  have hheld := hs.copied i
  refine ⟨?_, ?_⟩
  · rintro k b rfl
    cases hstep with
    | copies i dst todo k hpc hk =>
      rw [hpc] at hheld
      have hinside := hheld.2.2.2.1 k hk
      exact ⟨hinside, hs.block hheld.1 k hinside⟩
  · rintro dst rfl
    cases hstep with
    | returns i dst hpc =>
      rw [hpc] at hheld
      exact ⟨hheld.2.2.1, fun k hk => hheld.2.2.2.2 k hk List.not_mem_nil⟩

/-- `ARPHRD_ETHER`, and 52:54:12:34:56:78. -/
def exHardware : List UInt8 := [1, 0, 0x52, 0x54, 0x12, 0x34, 0x56, 0x78, 0, 0, 0, 0, 0, 0, 0, 0]

def exOvertaken : List (Bool × HardwareEvent) :=
  [(false, .begins), (false, .answers (.ok ())), (false, .copies 2 0x12), (true, .begins),
    (false, .copies 0 0), (false, .copies 1 0), (false, .copies 3 0x34), (false, .copies 4 0x56),
    (false, .copies 5 0x78)]

/-- The second thread begins when the first one has got the answer and copied a byte of it. -/
theorem exOvertaken_run :
    ∃ s, Run (HardwareStep 0 exHardware) (HardwareState.init fun _ => 0xcd) exOvertaken s ∧
      s.pc false = .copying [0, 0, 0x12, 0x34, 0x56, 0x78] [] := by
  refine ⟨_, .cons (.begins false rfl) (.cons (.answers false (List.replicate 6 0xcd) rfl rfl)
    (.cons (.copies false _ _ 2 rfl (by decide)) (.cons (.begins true rfl)
    (.cons (.copies false _ _ 0 rfl (by decide)) (.cons (.copies false _ _ 1 rfl (by decide))
    (.cons (.copies false _ _ 3 rfl (by decide)) (.cons (.copies false _ _ 4 rfl (by decide))
    (.single (.copies false _ _ 5 rfl (by decide)))))))))), ?_⟩
  rfl

/-- The first thread returns 00:00:12:34:56:78. -/
theorem exOvertaken_bytes : ∃ s t, Run (HardwareStep 0 exHardware)
      (HardwareState.init fun _ => 0xcd) exOvertaken s ∧
    HardwareStep 0 exHardware s (false, .returns [0, 0, 0x12, 0x34, 0x56, 0x78]) t ∧
    ∀ k < macAddressLength, RightOrZero exHardware true k
      ([0, 0, 0x12, 0x34, 0x56, 0x78].getD k 0) := by
  obtain ⟨s, hrun, hpc⟩ := exOvertaken_run
  have hreturns : HardwareStep 0 exHardware s _ _ := .returns false _ hpc
  exact ⟨s, _, hrun, hreturns, ((hardware_bytes rfl hrun hreturns).2 _ rfl).2⟩

end Pdrad
