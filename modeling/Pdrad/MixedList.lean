import Mathlib.Data.List.Chain
import Pdrad.Loop
import Pdrad.Memory

/-!
# Mixed lists (`collection.c`)

A list of pointers, packed 64 to a node, the nodes linked both ways. An index is looked
up from the head or from the tail, whichever is said to be nearer.

1. `utilsMixedListIndex_eq`: the slot that is found. From the tail the code counts
   elements in steps of 64, and not nodes: when the last node is not filled up, it may
   stop one node short.
2. `findsSlot_iff`: an index is looked up rightly exactly when that does not happen.
   Different indices find different slots all the same.
3. `getSetLaws_iff`: setting and getting fit together exactly when the slot already
   holds what is set. `Utils_MixedListSet` stores nothing, and
   `Utils_MixedListGet` follows the `NULL` it is given for an index out of range.
-/

namespace Pdrad

/-! ## The structures -/

/-- `sizeof(Utils_MixedListNode)`, with `UTILS_MIXED_LIST_UNIT_LEN` (64) pointers to data. -/
def sizeofUtilsMixedListNode : Nat := 528

/-- The pointer kept `offset` bytes behind the node at `ptr`; `none` where `ptr` is `NULL`. -/
def followLink (m : Mem) (offset ptr : Nat) : Option Nat :=
  if ptr = 0 then none else some (m.load64 (ptr + offset)).toNat

namespace UtilsMixedListNode

/-- `ptr->prev`. -/
def prev (m : Mem) (ptr : Nat) : Option Nat := followLink m 512 ptr

/-- `ptr->next`. -/
def next (m : Mem) (ptr : Nat) : Option Nat := followLink m 520 ptr

/-- `&(ptr->data[i])`. Nothing is read for it. -/
def slot (ptr i : Nat) : Nat := ptr + 8 * i

end UtilsMixedListNode

namespace UtilsMixedList

def count (m : Mem) (list : Nat) : Nat := (m.load64 list).toNat
def head (m : Mem) (list : Nat) : Nat := (m.load64 (list + 8)).toNat
def tail (m : Mem) (list : Nat) : Nat := (m.load64 (list + 16)).toNat

end UtilsMixedList

open UtilsMixedList

/-! ## The functions -/

/-- `NULL` is 0. The result is `none` where `NULL` is followed. -/
def utilsMixedListIndex (m : Mem) (list : Nat) (index : UInt32) : Option Nat :=
  if list = 0 ∨ index.toNat > sizeSub (count m list) 1 then some 0
  else
    let ptr :=
      if index.toNat < sizeSub (count m list) 1 / 2 then
        let unitSeq := index / 64
        times (UtilsMixedListNode.next m) unitSeq.toNat (head m list)
      else
        let unitSeq := UInt32.ofNat (sizeSub (sizeSub (count m list) 1) index.toNat / 64)
        times (UtilsMixedListNode.prev m) unitSeq.toNat (tail m list)
    -- `UTILS_MIXED_LIST_UNIT_FAST_INDEX` is true
    let uintIndex := index &&& 63
    ptr.map fun ptr => UtilsMixedListNode.slot ptr uintIndex.toNat

def utilsMixedListGet (m : Mem) (list : Nat) (index : UInt32) : Option UInt64 :=
  (utilsMixedListIndex m list index).bind fun slot =>
    if slot = 0 then none else some (m.load64 slot)

/-- The slot is looked up, and `ptr` is not stored in it. -/
def utilsMixedListSet (m : Mem) (list : Nat) (index : UInt32) (_ptr : UInt64) : Option Mem :=
  if list = 0 then some m
  else if index.toNat ≤ sizeSub (count m list) 1 then
    (utilsMixedListIndex m list index).map fun _ => m
  else some m

/-! ## Well-formed lists -/

/-- A list of at least one element, on the given nodes. All of them are filled up but
the last one. -/
structure PackedList (m : Mem) (list : Nat) (nodes : List Nat) : Prop where
  notNull : list ≠ 0
  nonempty : 0 < count m list
  length : nodes.length = (count m list - 1) / 64 + 1
  first : nodes.head? = some (head m list)
  last : nodes.getLast? = some (tail m list)
  next : nodes.IsChain fun a b => UtilsMixedListNode.next m a = some b
  prev : nodes.IsChain fun a b => UtilsMixedListNode.prev m b = some a
  objects : 0 ∉ nodes
  apart : AllApart (nodes.map fun a => (a, sizeofUtilsMixedListNode))

/-- The slot of the element `i` in node number `n`. -/
def slotIn (nodes : List Nat) (n i : Nat) : Nat :=
  UtilsMixedListNode.slot (nodes.getD n 0) (i % 64)

/-- The node counted from the tail is the node counted from the head, or the node is
counted from the head. -/
def RightNode (count i : Nat) : Prop :=
  i < (count - 1) / 2 ∨ i % 64 ≤ (count - 1) % 64

instance (count i : Nat) : Decidable (RightNode count i) :=
  inferInstanceAs (Decidable (_ ∨ _))

/-- The number of the node in which the element `i` is looked for. -/
def nodeFound (count i : Nat) : Nat :=
  if RightNode count i then i / 64 else i / 64 + 1

namespace MixedListLemmas

theorem toNat_and_63 (index : UInt32) : (index &&& 63).toNat = index.toNat % 64 := by
  rw [UInt32.toNat_and]
  exact Nat.and_two_pow_sub_one_eq_mod index.toNat 6

theorem toNat_div_64 (index : UInt32) : (index / 64).toNat = index.toNat / 64 :=
  UInt32.toNat_div index 64

theorem sizeSub_of_le {a b : Nat} (hba : b ≤ a) (ha : a < 2 ^ 64) : sizeSub a b = a - b := by
  unfold sizeSub
  omega

theorem count_lt (m : Mem) (list : Nat) : count m list < 2 ^ 64 :=
  (m.load64 list).toNat_lt

/-- Node numbers that the nodes have. -/
theorem getElem?_eq_getD {nodes : List Nat} {n : Nat} (hn : n < nodes.length) :
    nodes[n]? = some (nodes.getD n 0) := by
  rw [List.getD_eq_getElem?_getD, List.getElem?_eq_getElem hn, Option.getD_some]

theorem getD_mem {nodes : List Nat} {n : Nat} (hn : n < nodes.length) : nodes.getD n 0 ∈ nodes :=
  List.mem_of_getElem? (getElem?_eq_getD hn)

theorem nodeFound_lt {m : Mem} {list : Nat} {nodes : List Nat} (h : PackedList m list nodes) {i : Nat}
    (hi : i < count m list) : nodeFound (count m list) i < nodes.length := by
  rw [h.length, nodeFound]
  split
  · omega
  · next hwrong =>
    simp only [RightNode] at hwrong
    omega

/-- Elements back from the last one, in steps of 64. -/
theorem nodeFound_backward {count i : Nat} (hi : i < count) (hback : ¬ i < (count - 1) / 2) :
    (count - 1) / 64 + 1 - 1 - (count - 1 - i) / 64 = nodeFound count i := by
  rw [nodeFound]
  split
  · next hright =>
    have hrem := hright.resolve_left hback
    omega
  · next hwrong =>
    simp only [RightNode] at hwrong
    omega

end MixedListLemmas

open MixedListLemmas

/-! ## Looking up an index -/

/-- The walk ends, on one of the nodes. -/
theorem utilsMixedListIndex_eq {m : Mem} {list : Nat} {nodes : List Nat} {index : UInt32}
    (h : PackedList m list nodes) (hi : index.toNat < count m list) :
    utilsMixedListIndex m list index =
      some (slotIn nodes (nodeFound (count m list) index.toNat) index.toNat) := by
  have hcount := count_lt m list
  have hindex := index.toNat_lt
  have hfound := nodeFound_lt h hi
  have hlast : sizeSub (count m list) 1 = count m list - 1 := sizeSub_of_le h.nonempty hcount
  have hrange : ¬ (list = 0 ∨ index.toNat > count m list - 1) := by
    rintro (hnull | hbeyond)
    · exact h.notNull hnull
    · omega
  simp only [utilsMixedListIndex, hlast, if_neg hrange, toNat_and_63, toNat_div_64]
  by_cases hforward : index.toNat < (count m list - 1) / 2
  · have hnode : nodeFound (count m list) index.toNat = index.toNat / 64 := if_pos (.inl hforward)
    rw [hnode] at hfound ⊢
    rw [if_pos hforward, times_chain h.next h.first hfound, getElem?_eq_getD hfound]
    rfl
  · have hback := nodeFound_backward hi hforward
    -- The index is in the second half, so that a `uint` can count the nodes behind it.
    have hsteps : (UInt32.ofNat ((count m list - 1 - index.toNat) / 64)).toNat =
        (count m list - 1 - index.toNat) / 64 := by
      rw [UInt32.toNat_ofNat']
      exact Nat.mod_eq_of_lt (by omega)
    have hlength : (count m list - 1 - index.toNat) / 64 < nodes.length := by
      rw [h.length]
      omega
    rw [if_neg hforward, sizeSub_of_le (by omega) (by omega), hsteps,
      times_chain (List.isChain_reverse.mpr h.prev) (by rw [List.head?_reverse, h.last])
        (by rwa [List.length_reverse]),
      List.getElem?_reverse hlength, h.length, hback, getElem?_eq_getD hfound]
    rfl

/-- The index is found in its slot, and no other index is. -/
structure FindsSlot (m : Mem) (list : Nat) (nodes : List Nat) (index : UInt32) : Prop where
  slot : utilsMixedListIndex m list index = some (slotIn nodes (index.toNat / 64) index.toNat)
  distinct : ∀ j : UInt32, j.toNat < count m list → j ≠ index →
    utilsMixedListIndex m list j ≠ utilsMixedListIndex m list index

namespace MixedListLemmas

/-- Slots of two nodes are different, and so are two slots of one node. -/
theorem slotIn_inj {m : Mem} {list : Nat} {nodes : List Nat} (h : PackedList m list nodes)
    {n k i j : Nat} (hn : n < nodes.length) (hk : k < nodes.length)
    (heq : slotIn nodes n i = slotIn nodes k j) : n = k ∧ i % 64 = j % 64 := by
  have hnodes : n = k := by
    by_contra hne
    have hpair := h.apart.of_ne (i := n) (j := k) (by rwa [List.length_map])
      (by rwa [List.length_map]) hne
    simp only [List.getElem_map, Apart, sizeofUtilsMixedListNode] at hpair
    simp only [slotIn, UtilsMixedListNode.slot, List.getD_eq_getElem?_getD,
      List.getElem?_eq_getElem hn, List.getElem?_eq_getElem hk, Option.getD_some] at heq
    omega
  subst hnodes
  simp only [slotIn, UtilsMixedListNode.slot] at heq
  exact ⟨rfl, by omega⟩

/-- The node an element is looked for in and its place there tell which element it is. -/
theorem nodeFound_inj {count i j : Nat} (hnode : nodeFound count i = nodeFound count j)
    (hplace : i % 64 = j % 64) : i = j := by
  simp only [nodeFound] at hnode
  split at hnode
  · next hi =>
    split at hnode
    · omega
    · next hj =>
      simp only [RightNode] at hi hj
      omega
  · next hi =>
    split at hnode
    · next hj =>
      simp only [RightNode] at hi hj
      omega
    · omega

end MixedListLemmas

/-- An index is looked up rightly exactly when the walk stops at the right node. -/
theorem findsSlot_iff {m : Mem} {list : Nat} {nodes : List Nat} {index : UInt32}
    (h : PackedList m list nodes) (hi : index.toNat < count m list) :
    FindsSlot m list nodes index ↔ RightNode (count m list) index.toNat := by
  have hfound := nodeFound_lt h hi
  constructor
  · intro hfinds
    by_contra hwrong
    have hslot := hfinds.slot
    rw [utilsMixedListIndex_eq h hi, Option.some.injEq] at hslot
    have hshort : nodeFound (count m list) index.toNat = index.toNat / 64 + 1 := if_neg hwrong
    have hnode := (slotIn_inj h hfound (by omega) hslot).1
    omega
  · intro hright
    have hnode : nodeFound (count m list) index.toNat = index.toNat / 64 := if_pos hright
    refine ⟨by rw [utilsMixedListIndex_eq h hi, hnode], fun j hj hne heq => hne ?_⟩
    rw [utilsMixedListIndex_eq h hi, utilsMixedListIndex_eq h hj, Option.some.injEq] at heq
    obtain ⟨hnodes, hplaces⟩ := slotIn_inj h (nodeFound_lt h hj) hfound heq
    exact UInt32.toNat_inj.mp (nodeFound_inj hnodes hplaces)

/-- 66 elements on the nodes at 0x2000 and 0x3000, all of them `NULL` but the one with
the index 5. -/
def exTwoNodes : Mem :=
  Mem.putBlocks (fun _ => 0) [(0x1000, leBytes 8 66 ++ leBytes 8 0x2000 ++ leBytes 8 0x3000),
    (0x2000 + 8 * 5, leBytes 8 0x5000), (0x2000 + 520, leBytes 8 0x3000),
    (0x3000 + 512, leBytes 8 0x2000)]

theorem exTwoNodes_packed : PackedList exTwoNodes 0x1000 [0x2000, 0x3000] where
  notNull := by decide
  nonempty := by decide +kernel
  length := by decide +kernel
  first := by decide +kernel
  last := by decide +kernel
  next := .cons_cons (by decide +kernel) (.singleton _)
  prev := .cons_cons (by decide +kernel) (.singleton _)
  objects := by decide
  apart := by decide

/-- The element 40 is looked for in the second node. -/
theorem exTwoNodes_not_found : ¬ FindsSlot exTwoNodes 0x1000 [0x2000, 0x3000] 40 := by
  intro h
  have hrun : utilsMixedListIndex exTwoNodes 0x1000 40 = some (0x3000 + 8 * 40) := by
    decide +kernel
  exact absurd (hrun.symm.trans h.slot) (by decide)

/-- The element 65 is found from the tail. -/
theorem exTwoNodes_found : FindsSlot exTwoNodes 0x1000 [0x2000, 0x3000] 65 :=
  (findsSlot_iff exTwoNodes_packed (by decide +kernel)).mpr (by decide +kernel)

/-! ## Getting and setting -/

/-- `NULL`, an empty list, or a packed one. -/
inductive MixedListAt (m : Mem) : Nat → List Nat → Prop where
  | null : MixedListAt m 0 []
  | empty {list : Nat} : list ≠ 0 → count m list = 0 → head m list = 0 → tail m list = 0 →
      MixedListAt m list []
  | packed {list : Nat} {nodes : List Nat} : PackedList m list nodes → MixedListAt m list nodes

/-- The list and all nodes are linked in `m'` as they are in `m`. -/
structure SameLinks (m m' : Mem) (list : Nat) : Prop where
  head : head m' list = head m list
  tail : tail m' list = tail m list
  next : ∀ ptr, UtilsMixedListNode.next m' ptr = UtilsMixedListNode.next m ptr
  prev : ∀ ptr, UtilsMixedListNode.prev m' ptr = UtilsMixedListNode.prev m ptr

/-- For an index in range, one gets what was set, and nothing else changes. For any
other index, and for `NULL`, nothing is found, set or followed. -/
structure GetSetLaws (m : Mem) (list : Nat) (index : UInt32) (p : UInt64) : Prop where
  inside : list ≠ 0 → index.toNat < count m list →
    ∃ m', utilsMixedListSet m list index p = some m' ∧ utilsMixedListGet m' list index = some p ∧
      (∀ j : UInt32, j.toNat < count m list → j ≠ index →
        utilsMixedListGet m' list j = utilsMixedListGet m list j) ∧
      count m' list = count m list ∧ SameLinks m m' list
  outside : list = 0 ∨ count m list ≤ index.toNat →
    utilsMixedListIndex m list index = some 0 ∧ utilsMixedListSet m list index p = some m ∧
      (utilsMixedListGet m list index).isSome

/-- The index is in range, and the slot that is found for it has the value `p`. -/
def HoldsAlready (m : Mem) (list : Nat) (nodes : List Nat) (index : UInt32) (p : UInt64) : Prop :=
  list ≠ 0 ∧ index.toNat < count m list ∧
    m.load64 (slotIn nodes (nodeFound (count m list) index.toNat) index.toNat) = p

/-- Setting leaves the memory alone, whatever is set. -/
theorem utilsMixedListSet_unchanged {m m' : Mem} {list : Nat} {index : UInt32} {p : UInt64}
    (h : utilsMixedListSet m list index p = some m') : m' = m := by
  simp only [utilsMixedListSet] at h
  split at h
  · exact (Option.some.inj h).symm
  · split at h
    · obtain ⟨_, _, rfl⟩ := Option.map_eq_some_iff.mp h
      rfl
    · exact (Option.some.inj h).symm

/-- An index that is not found is followed all the same. -/
theorem utilsMixedListGet_of_null {m : Mem} {list : Nat} {index : UInt32}
    (h : utilsMixedListIndex m list index = some 0) : utilsMixedListGet m list index = none := by
  rw [utilsMixedListGet, h]
  rfl

/-- Of an empty list, whose last index wraps around, every index is in range. The slots
are those of a node at `NULL`, and behind the first 64 there is nothing to follow. -/
theorem utilsMixedListIndex_empty {m : Mem} {list : Nat} (index : UInt32) (hlist : list ≠ 0)
    (hcount : count m list = 0) (hhead : head m list = 0) :
    utilsMixedListIndex m list index =
      if index.toNat < 64 then some (8 * index.toNat) else none := by
  have hindex := index.toNat_lt
  have hlast : sizeSub 0 1 = 2 ^ 64 - 1 := by decide
  have hrange : ¬ (list = 0 ∨ index.toNat > 2 ^ 64 - 1) := by
    rintro (hnull | hbeyond)
    · exact hlist hnull
    · omega
  simp only [utilsMixedListIndex, hcount, hhead, hlast, if_neg hrange, toNat_and_63, toNat_div_64]
  rw [if_pos (by omega)]
  split
  · next hsmall =>
    rw [Nat.div_eq_of_lt hsmall, Nat.mod_eq_of_lt hsmall, times, Option.map_some,
      UtilsMixedListNode.slot, Nat.zero_add]
  · next hlarge =>
    obtain ⟨k, hk⟩ : ∃ k, index.toNat / 64 = k + 1 := ⟨index.toNat / 64 - 1, by omega⟩
    rw [hk]
    rfl

theorem utilsMixedListGet_eq {m : Mem} {list : Nat} {nodes : List Nat} {index : UInt32}
    (h : PackedList m list nodes) (hi : index.toNat < count m list) :
    utilsMixedListGet m list index =
      some (m.load64 (slotIn nodes (nodeFound (count m list) index.toNat) index.toNat)) := by
  have hnode : nodes.getD (nodeFound (count m list) index.toNat) 0 ≠ 0 := by
    intro hnull
    exact h.objects (hnull ▸ getD_mem (nodeFound_lt h hi))
  rw [utilsMixedListGet, utilsMixedListIndex_eq h hi, Option.bind_some, if_neg]
  simp only [slotIn, UtilsMixedListNode.slot]
  omega

theorem utilsMixedListSet_eq {m : Mem} {list : Nat} {nodes : List Nat} {index : UInt32}
    (h : PackedList m list nodes) (hi : index.toNat < count m list) (p : UInt64) :
    utilsMixedListSet m list index p = some m := by
  rw [utilsMixedListSet, if_neg h.notNull, utilsMixedListIndex_eq h hi, Option.map_some, ite_self]

/-- Only a packed list has indices in range. -/
theorem MixedListAt.packed_of_lt {m : Mem} {list : Nat} {nodes : List Nat} {i : Nat}
    (h : MixedListAt m list nodes) (hlist : list ≠ 0) (hi : i < count m list) :
    PackedList m list nodes := by
  cases h with
  | null => exact absurd rfl hlist
  | empty _ hcount => exact absurd hi (by omega)
  | packed h => exact h

/-- What is set is what one gets exactly when it was there before. -/
theorem getSetLaws_iff {m : Mem} {list : Nat} {nodes : List Nat} (h : MixedListAt m list nodes)
    (index : UInt32) (p : UInt64) :
    GetSetLaws m list index p ↔ HoldsAlready m list nodes index p := by
  constructor
  · intro hlaws
    by_cases hout : list = 0 ∨ count m list ≤ index.toNat
    · obtain ⟨hnull, _, hsome⟩ := hlaws.outside hout
      rw [utilsMixedListGet_of_null hnull] at hsome
      cases hsome
    · simp only [not_or, Nat.not_le] at hout
      obtain ⟨hlist, hi⟩ := hout
      have hpacked := h.packed_of_lt hlist hi
      obtain ⟨m', hset, hget, _⟩ := hlaws.inside hlist hi
      obtain rfl := utilsMixedListSet_unchanged hset
      rw [utilsMixedListGet_eq hpacked hi, Option.some.injEq] at hget
      exact ⟨hlist, hi, hget⟩
  · rintro ⟨hlist, hi, hheld⟩
    have hpacked := h.packed_of_lt hlist hi
    refine ⟨fun _ _ => ⟨m, utilsMixedListSet_eq hpacked hi p, ?_, fun _ _ _ => rfl, rfl, ?_⟩, ?_⟩
    · rw [utilsMixedListGet_eq hpacked hi, hheld]
    · exact ⟨rfl, rfl, fun _ => rfl, fun _ => rfl⟩
    · rintro (hnull | hbeyond)
      · exact absurd hnull hlist
      · omega

/-- A pointer is set and `NULL` is got. -/
theorem exTwoNodes_not_set : ¬ GetSetLaws exTwoNodes 0x1000 3 0x5000 := by
  intro hlaws
  obtain ⟨m', hset, hget, _⟩ := hlaws.inside (by decide) (by decide +kernel)
  obtain rfl := utilsMixedListSet_unchanged hset
  have hrun : utilsMixedListGet exTwoNodes 0x1000 3 = some 0 := by decide +kernel
  exact absurd (hrun.symm.trans hget) (by decide)

/-- The pointer that is set is there already. -/
theorem exTwoNodes_held_set : GetSetLaws exTwoNodes 0x1000 5 0x5000 :=
  (getSetLaws_iff (.packed exTwoNodes_packed) 5 0x5000).mpr
    ⟨by decide, by decide +kernel, by decide +kernel⟩

end Pdrad
