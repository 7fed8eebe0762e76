import Pdrad.RequestDhcp

/-!
# `ReceiveSrcAddrFromRouterSolicit` (`test.c`)

The thread that answers Router Solicitations waits for one. It receives into the same
buffer again and again, and goes by the first two bytes of the buffer. It never looks
at how many bytes were received, or whether any were.

1. `mem_receive`, `leftByte_cons`: what each receive leaves in the buffer.
2. `answersGenuine_iff`: the address returned is that of a genuine solicitation exactly
   when, before the first of them, no receive leaves the look of one in the buffer.
-/

namespace Pdrad

/-! ## The function -/

/-- A datagram as it arrives, with the address it comes from. -/
structure Datagram where
  source : In6Addr
  bytes : List UInt8
deriving DecidableEq

/-- `int mtu = 1500;` -/
def solicitMtu : Nat := 1500

/-- What is behind `recBuf`, and `addr.sin6_addr`. -/
structure SolicitState where
  mem : Mem
  addr : In6Addr

/-- `recvfrom`, with a datagram or, after an error, none. The number of bytes it returns
is logged and not used. -/
def SolicitState.receive (recBuf : Nat) (s : SolicitState) (r : Option Datagram) : SolicitState where
  mem := (recvfrom s.mem recBuf solicitMtu (r.map Datagram.bytes)).1
  addr := (r.map Datagram.source).getD s.addr

/-- The `while (true)` loop, on what its receives meet. The result is the address it
returns and what is left to be received then, or `none` while it waits. -/
def receiveLoop (recBuf : Nat) (s : SolicitState) :
    List (Option Datagram) → Option (In6Addr × List (Option Datagram))
  | [] => none
  | r :: rs =>
    let s := s.receive recBuf r
    if s.mem recBuf ≠ 133 then receiveLoop recBuf s rs
    else if s.mem (recBuf + 1) ≠ 0 then receiveLoop recBuf s rs
    else some (s.addr, rs)

/-- `m` has the uninitialised buffer at `recBuf`. -/
def receiveSrcAddrFromRouterSolicit (m : Mem) (recBuf : Nat) (rs : List (Option Datagram)) :
    Option (In6Addr × List (Option Datagram)) :=
  receiveLoop recBuf ⟨m, In6Addr.zero⟩ rs

/-! ## What ought to hold -/

/-- `sizeof(struct nd_router_solicit)`. -/
def sizeofNdRouterSolicit : Nat := 8

/-- A whole Router Solicitation header, with the right type and code. -/
def Datagram.IsSolicit (d : Datagram) : Prop :=
  sizeofNdRouterSolicit ≤ d.bytes.length ∧ d.bytes[0]? = some 133 ∧ d.bytes[1]? = some 0

instance (d : Datagram) : Decidable d.IsSolicit :=
  inferInstanceAs (Decidable (_ ∧ _ ∧ _))

/-- If an address is returned, the last receive took a solicitation from there, and no
receive before it took one. -/
def AnswersGenuine (m : Mem) (recBuf : Nat) (rs : List (Option Datagram)) : Prop :=
  ∀ addr rest, receiveSrcAddrFromRouterSolicit m recBuf rs = some (addr, rest) →
    ∃ earlier d, rs = earlier ++ some d :: rest ∧ addr = d.source ∧ d.IsSolicit ∧
      ∀ d', some d' ∈ earlier → ¬ d'.IsSolicit

/-- The byte `i` of what a receive takes, when there is one. -/
def receivedByte (i : Nat) (r : Option Datagram) : Option UInt8 :=
  r.bind fun d => d.bytes[i]?

/-- The byte `i` of the last datagram that has one, or else `initial`. -/
def leftByte (initial : UInt8) (i : Nat) (rs : List (Option Datagram)) : UInt8 :=
  (rs.filterMap (receivedByte i)).getLast?.getD initial

/-- Until a solicitation has arrived, no receive leaves 133 and 0 at the start of the
buffer. -/
def NeverMisled (m : Mem) (recBuf : Nat) (rs : List (Option Datagram)) : Prop :=
  ∀ ps, ps <+: rs → ps ≠ [] → (∀ d, some d ∈ ps → ¬ d.IsSolicit) →
    ¬ (leftByte (m recBuf) 0 ps = 133 ∧ leftByte (m (recBuf + 1)) 1 ps = 0)

namespace RouterSolicitLemmas

/-- The start of the buffer looks like that of a solicitation. -/
def LooksSolicit (recBuf : Nat) (s : SolicitState) : Prop :=
  s.mem recBuf = 133 ∧ s.mem (recBuf + 1) = 0

theorem mem_receive (recBuf : Nat) (s : SolicitState) (r : Option Datagram) {i : Nat}
    (hi : i < solicitMtu) :
    (s.receive recBuf r).mem (recBuf + i) = (receivedByte i r).getD (s.mem (recBuf + i)) := by
  cases r with
  | none => rfl
  | some d =>
    show Mem.put s.mem recBuf (d.bytes.take solicitMtu) (recBuf + i) = _
    rw [Mem.put, if_pos (Nat.le_add_right recBuf i), Nat.add_sub_cancel_left,
      List.getElem?_take_of_lt hi]
    rfl

theorem leftByte_cons (initial : UInt8) (i : Nat) (r : Option Datagram)
    (rs : List (Option Datagram)) :
    leftByte initial i (r :: rs) = leftByte ((receivedByte i r).getD initial) i rs := by
  unfold leftByte
  cases hr : receivedByte i r with
  | none => rw [List.filterMap_cons_none hr, Option.getD_none]
  | some b => rw [List.filterMap_cons_some hr, List.getLast?_cons, Option.getD_some, Option.getD_some]

/-- A solicitation looks like one, whatever was in the buffer. -/
theorem looksSolicit_of_isSolicit (recBuf : Nat) (s : SolicitState) {d : Datagram}
    (hd : d.IsSolicit) : LooksSolicit recBuf (s.receive recBuf (some d)) := by
  obtain ⟨_, htype, hcode⟩ := hd
  have hfirst := mem_receive recBuf s (some d) (i := 0) (by decide)
  have hsecond := mem_receive recBuf s (some d) (i := 1) (by decide)
  refine ⟨?_, ?_⟩
  · rw [Nat.add_zero] at hfirst
    rw [hfirst, receivedByte, Option.bind_some, htype, Option.getD_some]
  · rw [hsecond, receivedByte, Option.bind_some, hcode, Option.getD_some]

theorem none_solicit_cons_iff {r : Option Datagram} {rs : List (Option Datagram)} :
    (∀ d, some d ∈ r :: rs → ¬ d.IsSolicit) ↔
      (∀ d, r = some d → ¬ d.IsSolicit) ∧ ∀ d, some d ∈ rs → ¬ d.IsSolicit := by
  simp only [List.mem_cons, or_imp, forall_and, eq_comm]

/-! ### One pass -/

theorem receiveLoop_cons (recBuf : Nat) (s : SolicitState) (r : Option Datagram)
    (rs : List (Option Datagram)) :
    (LooksSolicit recBuf (s.receive recBuf r) →
      receiveLoop recBuf s (r :: rs) = some ((s.receive recBuf r).addr, rs)) ∧
    (¬ LooksSolicit recBuf (s.receive recBuf r) →
      receiveLoop recBuf s (r :: rs) = receiveLoop recBuf (s.receive recBuf r) rs) := by
  constructor
  · rintro ⟨htype, hcode⟩
    simp only [receiveLoop, htype, hcode, ne_eq, not_true_eq_false, if_false]
  · intro hlooks
    simp only [receiveLoop]
    by_cases htype : (s.receive recBuf r).mem recBuf = 133
    · rw [if_neg (not_not.mpr htype), if_pos fun hcode => hlooks ⟨htype, hcode⟩]
    · rw [if_pos htype]

/-- `AnswersGenuine` from any state of the loop. -/
def GenuineFrom (recBuf : Nat) (s : SolicitState) (rs : List (Option Datagram)) : Prop :=
  ∀ addr rest, receiveLoop recBuf s rs = some (addr, rest) →
    ∃ earlier d, rs = earlier ++ some d :: rest ∧ addr = d.source ∧ d.IsSolicit ∧
      ∀ d', some d' ∈ earlier → ¬ d'.IsSolicit

theorem genuineFrom_nil (recBuf : Nat) (s : SolicitState) : GenuineFrom recBuf s [] := by
  intro addr rest h
  cases h

/-- The pass that ends the loop has to have taken a solicitation. -/
theorem genuineFrom_stop_iff {recBuf : Nat} {s : SolicitState} {r : Option Datagram}
    (rs : List (Option Datagram)) (hlooks : LooksSolicit recBuf (s.receive recBuf r)) :
    GenuineFrom recBuf s (r :: rs) ↔ ∃ d, r = some d ∧ d.IsSolicit := by
  rw [GenuineFrom, (receiveLoop_cons recBuf s r rs).1 hlooks]
  constructor
  · intro h
    obtain ⟨earlier, d, hsplit, _, hd, _⟩ := h _ _ rfl
    cases earlier with
    | nil => exact ⟨d, (List.cons.inj hsplit).1, hd⟩
    | cons x earlier =>
      have hlength := congrArg List.length hsplit
      simp only [List.cons_append, List.length_cons, List.length_append] at hlength
      omega
  · rintro ⟨d, rfl, hd⟩ addr rest hend
    obtain ⟨rfl, rfl⟩ := Prod.mk.inj (Option.some.inj hend)
    exact ⟨[], d, rfl, rfl, hd, fun _ h => nomatch h⟩

/-- Any other pass leaves it to those that follow. -/
theorem genuineFrom_again_iff {recBuf : Nat} {s : SolicitState} {r : Option Datagram}
    (rs : List (Option Datagram)) (hlooks : ¬ LooksSolicit recBuf (s.receive recBuf r)) :
    GenuineFrom recBuf s (r :: rs) ↔ GenuineFrom recBuf (s.receive recBuf r) rs := by
  have hfirst : ∀ d, r = some d → ¬ d.IsSolicit := by
    rintro d rfl hd
    exact hlooks (looksSolicit_of_isSolicit recBuf s hd)
  rw [GenuineFrom, (receiveLoop_cons recBuf s r rs).2 hlooks]
  constructor
  · intro h addr rest hend
    obtain ⟨earlier, d, hsplit, haddr, hd, hothers⟩ := h addr rest hend
    cases earlier with
    | nil => exact absurd hd (hfirst d (List.cons.inj hsplit).1)
    | cons x earlier =>
      exact ⟨earlier, d, (List.cons.inj hsplit).2, haddr, hd, (none_solicit_cons_iff.mp hothers).2⟩
  · intro h addr rest hend
    obtain ⟨earlier, d, rfl, haddr, hd, hothers⟩ := h addr rest hend
    exact ⟨r :: earlier, d, rfl, haddr, hd, none_solicit_cons_iff.mpr ⟨hfirst, hothers⟩⟩

/-! ### What the receives leave -/

/-- After a receive that takes no solicitation, the buffer must not look like one, and
the same goes for the receives that follow. -/
theorem neverMisled_cons_iff (recBuf : Nat) (s : SolicitState) (r : Option Datagram)
    (rs : List (Option Datagram)) :
    NeverMisled s.mem recBuf (r :: rs) ↔ ((∀ d, r = some d → ¬ d.IsSolicit) →
      ¬ LooksSolicit recBuf (s.receive recBuf r) ∧
        NeverMisled (s.receive recBuf r).mem recBuf rs) := by
  have hfirst := mem_receive recBuf s r (i := 0) (by decide)
  have hsecond := mem_receive recBuf s r (i := 1) (by decide)
  rw [Nat.add_zero] at hfirst
  simp only [NeverMisled, LooksSolicit, hfirst, hsecond]
  constructor
  · intro h hr
    refine ⟨?_, fun ps hps _ hothers => ?_⟩
    · have hone := h [r] (List.prefix_append [r] rs) (List.cons_ne_nil r [])
        (none_solicit_cons_iff.mpr ⟨hr, fun _ hd => nomatch hd⟩)
      rwa [leftByte_cons, leftByte_cons] at hone
    · have hmore := h (r :: ps) ((List.prefix_cons_inj r).mpr hps) (List.cons_ne_nil r ps)
        (none_solicit_cons_iff.mpr ⟨hr, hothers⟩)
      rwa [leftByte_cons, leftByte_cons] at hmore
  · intro h ps hps hne hothers
    obtain ⟨p, ps, rfl⟩ := List.exists_cons_of_ne_nil hne
    obtain ⟨rfl, hafter⟩ := List.cons_prefix_cons.mp hps
    obtain ⟨hp, hps⟩ := none_solicit_cons_iff.mp hothers
    obtain ⟨hnot, hrest⟩ := h hp
    rw [leftByte_cons, leftByte_cons]
    cases ps with
    | nil => exact hnot
    | cons q ps => exact hrest (q :: ps) hafter (List.cons_ne_nil q ps) hps

theorem genuineFrom_iff (recBuf : Nat) (s : SolicitState) (rs : List (Option Datagram)) :
    GenuineFrom recBuf s rs ↔ NeverMisled s.mem recBuf rs := by
  induction rs generalizing s with
  | nil =>
    refine iff_of_true (genuineFrom_nil recBuf s) fun ps hps hne => ?_
    exact absurd (List.prefix_nil.mp hps) hne
  | cons r rs ih =>
    rw [neverMisled_cons_iff]
    by_cases hlooks : LooksSolicit recBuf (s.receive recBuf r)
    · rw [genuineFrom_stop_iff rs hlooks]
      -- What follows is not received any more.
      simp only [hlooks, not_true_eq_false, false_and, imp_false, not_forall, not_not, exists_prop]
    · rw [genuineFrom_again_iff rs hlooks, ih]
      have hr : ∀ d, r = some d → ¬ d.IsSolicit := by
        rintro d rfl hd
        exact hlooks (looksSolicit_of_isSolicit recBuf s hd)
      exact ⟨fun h _ => ⟨hlooks, h⟩, fun h => (h hr).2⟩

end RouterSolicitLemmas

open RouterSolicitLemmas

/-- Only genuine solicitations are answered exactly when nothing else looks like one. -/
theorem answersGenuine_iff (m : Mem) (recBuf : Nat) (rs : List (Option Datagram)) :
    AnswersGenuine m recBuf rs ↔ NeverMisled m recBuf rs :=
  genuineFrom_iff recBuf ⟨m, In6Addr.zero⟩ rs

/-- Behind an echo request and an error, a solicitation is answered. -/
example : receiveSrcAddrFromRouterSolicit (fun _ => 0) 4096
    [some ⟨In6Addr.zero, [128, 0, 0, 0, 0, 1, 0, 1]⟩, none,
      some ⟨In6Addr.ofBytes [0xfe, 0x80], [133, 0, 0, 0, 0, 0, 0, 0]⟩] =
    some (In6Addr.ofBytes [0xfe, 0x80], []) := by decide

/-- A buffer that still has the start of a solicitation answered before. -/
def exAnswered : Mem := memOf 4096 [133, 0]

/-- The receive fails, and a solicitation from `::` is reported. -/
theorem exAnswered_again : ¬ AnswersGenuine exAnswered 4096 [none] := by
  intro h
  have hrun : receiveSrcAddrFromRouterSolicit exAnswered 4096 [none] = some (In6Addr.zero, []) := by
    decide
  obtain ⟨earlier, d, hsplit, _⟩ := h _ _ hrun
  have hmem : some d ∈ earlier ++ some d :: [] := List.mem_append_right earlier List.mem_cons_self
  rw [← hsplit] at hmem
  exact nomatch List.mem_singleton.mp hmem

end Pdrad
