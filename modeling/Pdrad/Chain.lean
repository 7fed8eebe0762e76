import Mathlib.Data.List.Perm.Subperm
import Pdrad.Loop

/-!
# Singly linked lists with appending at the end

Nodes live in a heap and point to each other by index. A list is a head pointer
into it. New nodes are appended by walking a cursor from the head to the first
`NULL` link.

* `Linked A p is`: from the pointer `p`, following `next` visits the nodes `is`
  and then reaches `NULL`.
* `Holds A p xs`: the list at `p` is a proper one and its values are `xs`.
* `append_spec`: appending ends, and makes `xs` into `xs ++ [x]`.
-/

namespace Pdrad

variable {α : Type}

structure Node (α : Type) where
  value : α
  next : Option Nat

/-- The nodes allocated so far. A pointer to a node is its index. -/
abbrev Heap (α : Type) := List (Node α)

namespace Chain

/-- Where a pointer is kept: in the list's head, or in the `next` of a node. -/
inductive Slot where
  | head
  | next (i : Nat)

/-- The pointer in a slot, when the slot exists. -/
def read (A : Heap α) (head : Option Nat) : Slot → Option (Option Nat)
  | .head => some head
  | .next i => A[i]?.map Node.next

/-- `while (*current != NULL) current = &(*current)->next;` -/
def advance (A : Heap α) (head : Option Nat) (current : Slot) : Option (Flow Slot) :=
  (read A head current).map fun p =>
    match p with
    | none => .stop current
    | some i => .again (.next i)

/-- The slot that holds the terminating `NULL`. A walk of more passes than there
are nodes would have met a node twice, and would never end. -/
def findEnd (A : Heap α) (head : Option Nat) : Option Slot :=
  loop (advance A head) (A.length + 1) .head

/-- Store the pointer `p` in a slot. -/
def write (A : Heap α) (head : Option Nat) (p : Option Nat) : Slot → Heap α × Option Nat
  | .head => (A, p)
  | .next i => (A.modify i fun n => { n with next := p }, head)

/-- Allocate a node for `x` and link it in at the end. -/
def append (A : Heap α) (head : Option Nat) (x : α) : Option (Heap α × Option Nat) :=
  let newNode := A.length
  let A := A ++ [⟨x, none⟩]
  match head with
  | none => some (A, some newNode)
  | some _ => (findEnd A head).map (write A head (some newNode))

/-- The values met from `p` on, at most `n` of them. -/
def toListFrom (A : Heap α) : Nat → Option Nat → List α
  | 0, _ | _, none => []
  | n + 1, some i =>
    match A[i]? with
    | none => []
    | some node => node.value :: toListFrom A n node.next

/-- The values of the list at `p`. -/
def toList (A : Heap α) (p : Option Nat) : List α :=
  toListFrom A A.length p

/-! ## Proper lists -/

/-- From `p`, the nodes `is` and then `NULL`. -/
def Linked (A : Heap α) : Option Nat → List Nat → Prop
  | p, [] => p = none
  | p, i :: is => p = some i ∧ ∃ n, A[i]? = some n ∧ Linked A n.next is

/-- The list at `p` visits no node twice and carries the values `xs`. -/
def Holds (A : Heap α) (p : Option Nat) (xs : List α) : Prop :=
  ∃ is : List Nat, Linked A p is ∧ is.Nodup ∧ is.map (fun i => A[i]?.map Node.value) = xs.map some

theorem holds_nil (A : Heap α) : Holds A none [] :=
  ⟨[], rfl, List.nodup_nil, rfl⟩

namespace ChainLemmas

theorem linked_lt {A : Heap α} {p : Option Nat} {is : List Nat} (h : Linked A p is) :
    ∀ i ∈ is, i < A.length := by
  induction is generalizing p with
  | nil => simp
  | cons i is ih =>
    obtain ⟨_, n, hn, hrest⟩ := h
    intro j hj
    rcases List.mem_cons.mp hj with rfl | hj
    · exact (List.getElem?_eq_some_iff.mp hn).1
    · exact ih hrest j hj

theorem linked_length_le {A : Heap α} {p : Option Nat} {is : List Nat} (h : Linked A p is)
    (hnd : is.Nodup) : is.length ≤ A.length := by
  have hsub : is ⊆ List.range A.length := fun i hi => List.mem_range.mpr (linked_lt h i hi)
  simpa using (hnd.subperm hsub).length_le

/-- A list only depends on the nodes it visits. -/
theorem linked_congr {A B : Heap α} {p : Option Nat} {is : List Nat}
    (hsame : ∀ i ∈ is, B[i]? = A[i]?) (h : Linked A p is) : Linked B p is := by
  induction is generalizing p with
  | nil => exact h
  | cons i is ih =>
    obtain ⟨hp, n, hn, hrest⟩ := h
    refine ⟨hp, n, ?_, ih (fun j hj => hsame j (List.mem_cons_of_mem i hj)) hrest⟩
    rw [hsame i List.mem_cons_self, hn]

/-- The slot at the end of a walk that started at `s` and visited `is`. -/
def endSlot : Slot → List Nat → Slot
  | s, [] => s
  | _, i :: is => endSlot (.next i) is

theorem walk_spec {A : Heap α} {head : Option Nat} {is : List Nat} {s : Slot} {p : Option Nat}
    (hs : read A head s = some p) (h : Linked A p is) :
    loop (advance A head) (is.length + 1) s = some (endSlot s is) := by
  induction is generalizing s p with
  | nil =>
    obtain rfl : p = none := h
    exact loop_stop (by simp [advance, hs, endSlot])
  | cons i is ih =>
    obtain ⟨rfl, n, hn, hrest⟩ := h
    have hb : advance A head s = some (.again (.next i)) := by simp [advance, hs]
    rw [List.length_cons, loop_again hb]
    exact ih (by simp [read, hn]) hrest

theorem findEnd_spec {A : Heap α} {head : Option Nat} {is : List Nat}
    (h : Linked A head is) (hnd : is.Nodup) : findEnd A head = some (endSlot .head is) := by
  have hle := linked_length_le h hnd
  exact loop_mono (by omega) (walk_spec rfl h)

theorem endSlot_eq_getLast (s : Slot) (i : Nat) (is : List Nat) :
    endSlot s (i :: is) = .next ((i :: is).getLast (List.cons_ne_nil i is)) := by
  induction is generalizing s i with
  | nil => rfl
  | cons j is ih => exact ih (.next i) j

/-- Pointing the last node of a list at a fresh node `k` appends `k`. `B` is the
heap after the store: it differs from `A` at the last node and has `k` besides. -/
theorem linked_append {A B : Heap α} {p : Option Nat} {i k : Nat} {is : List Nat} {x : α}
    (h : Linked A p (i :: is)) (hnd : (i :: is).Nodup)
    (hlast : ∀ n, A[(i :: is).getLast (List.cons_ne_nil i is)]? = some n →
      B[(i :: is).getLast (List.cons_ne_nil i is)]? = some { n with next := some k })
    (hother : ∀ j, j < A.length → j ≠ (i :: is).getLast (List.cons_ne_nil i is) → B[j]? = A[j]?)
    (hnew : B[k]? = some ⟨x, none⟩) : Linked B p (i :: is ++ [k]) := by
  induction is generalizing p i with
  | nil =>
    obtain ⟨hp, n, hn, _⟩ := h
    exact ⟨hp, _, hlast n hn, rfl, _, hnew, rfl⟩
  | cons j is ih =>
    have hi : i < A.length := linked_lt h i List.mem_cons_self
    obtain ⟨hp, n, hn, hrest⟩ := h
    obtain ⟨hnot, hnd'⟩ := List.nodup_cons.mp hnd
    have hne : i ≠ (j :: is).getLast (List.cons_ne_nil j is) := by
      rintro heq
      exact hnot (heq ▸ List.getLast_mem _)
    simp only [List.getLast_cons_cons] at hlast hother
    exact ⟨hp, n, by rw [hother i hi hne, hn], ih hrest hnd' hlast hother⟩

theorem map_value_congr {A B : Heap α} {is : List Nat}
    (hsame : ∀ i ∈ is, B[i]?.map Node.value = A[i]?.map Node.value) :
    is.map (fun i => B[i]?.map Node.value) = is.map (fun i => A[i]?.map Node.value) :=
  List.map_congr_left hsame

theorem toListFrom_eq {A : Heap α} {is : List Nat} {p : Option Nat} {n : Nat} {xs : List α}
    (h : Linked A p is) (hn : is.length ≤ n)
    (hval : is.map (fun i => A[i]?.map Node.value) = xs.map some) : toListFrom A n p = xs := by
  induction is generalizing p n xs with
  | nil =>
    obtain rfl : p = none := h
    have hxs : xs = [] := by simpa using hval
    cases n <;> simp [toListFrom, hxs]
  | cons i is ih =>
    obtain ⟨rfl, node, hnode, hrest⟩ := h
    cases xs with
    | nil => simp at hval
    | cons x xs =>
      cases n with
      | zero => simp at hn
      | succ n =>
        simp only [List.map_cons, hnode, Option.map_some, List.cons.injEq, Option.some.injEq] at hval
        have hlen : is.length ≤ n := by simpa using hn
        simp [toListFrom, hnode, hval.1, ih hrest hlen hval.2]

/-- The first node of a list. -/
theorem append_none (A : Heap α) (x : α) :
    append A none x = some (A ++ [⟨x, none⟩], some A.length) ∧
      Holds (A ++ [⟨x, none⟩]) (some A.length) [x] := by
  have hnew : (A ++ [⟨x, none⟩])[A.length]? = some ⟨x, none⟩ := List.getElem?_concat_length
  refine ⟨rfl, [A.length], ?_, by simp, ?_⟩
  · exact ⟨rfl, ⟨x, none⟩, hnew, rfl⟩
  · rw [List.map_singleton, hnew]
    rfl

end ChainLemmas

open ChainLemmas

/-- Appending to a proper list ends, and appends. -/
theorem append_spec {A : Heap α} {head : Option Nat} {xs : List α} (h : Holds A head xs) (x : α) :
    ∃ B head', append A head x = some (B, head') ∧ Holds B head' (xs ++ [x]) := by
  obtain ⟨is, hlink, hnd, hval⟩ := h
  have hlt := linked_lt hlink
  have hfresh : A.length ∉ is := fun hmem => absurd (hlt _ hmem) (Nat.lt_irrefl _)
  have hnew : (A ++ [⟨x, none⟩])[A.length]? = some ⟨x, none⟩ := by simp
  have hold : ∀ j, j < A.length → (A ++ [⟨x, none⟩])[j]? = A[j]? :=
    fun j hj => List.getElem?_append_left hj
  cases is with
  | nil =>
    obtain rfl : head = none := hlink
    obtain rfl : xs = [] := by simpa using hval
    exact ⟨_, _, append_none A x⟩
  | cons i is =>
    have hlink' : Linked (A ++ [⟨x, none⟩]) head (i :: is) :=
      linked_congr (fun j hj => hold j (hlt j hj)) hlink
    have hend := findEnd_spec hlink' hnd
    rw [endSlot_eq_getLast] at hend
    obtain rfl : head = some i := hlink.1
    have hlast := hlt _ (List.getLast_mem (List.cons_ne_nil i is))
    have hB : (List.modify (A ++ [⟨x, none⟩]) ((i :: is).getLast (List.cons_ne_nil i is))
        fun n => { n with next := some A.length })[A.length]? = some ⟨x, none⟩ := by
      have hne : (i :: is).getLast (List.cons_ne_nil i is) ≠ A.length := by omega
      rw [List.getElem?_modify_ne _ _ hne, hnew]
    refine ⟨_, some i, by simp only [append, hend, Option.map_some, write]; rfl,
      i :: is ++ [A.length], ?_, ?_, ?_⟩
    · refine linked_append hlink hnd ?_ ?_ hB
      · intro n hn
        simp [hold _ hlast, hn]
      · intro j hj hne
        simp [hold j hj, Ne.symm hne]
    · exact List.nodup_append.mpr ⟨hnd, by simp, by
        rintro a ha b hb rfl
        exact hfresh (List.mem_singleton.mp hb ▸ ha)⟩
    · rw [List.map_append, List.map_append, ← hval]
      congr 1
      · refine map_value_congr fun j hj => ?_
        rw [List.getElem?_modify, hold j (hlt j hj)]
        split <;> simp [Function.comp_def]
      · rw [List.map_singleton, hB]
        rfl

/-- Reading a proper list gives its values. -/
theorem toList_eq {A : Heap α} {p : Option Nat} {xs : List α} (h : Holds A p xs) :
    toList A p = xs := by
  obtain ⟨is, hlink, hnd, hval⟩ := h
  exact toListFrom_eq hlink (linked_length_le hlink hnd) hval

/-- The head pointer is `NULL` exactly for the empty list, and else leads to the
first value. -/
theorem head_value {A : Heap α} {p : Option Nat} {xs : List α} (h : Holds A p xs) :
    (p.bind fun i => A[i]?.map Node.value) = xs.head? := by
  obtain ⟨is, hlink, _, hval⟩ := h
  cases is with
  | nil =>
    obtain rfl : p = none := hlink
    have hxs : xs = [] := by simpa using hval
    simp [hxs]
  | cons i is =>
    obtain ⟨rfl, _⟩ := hlink
    cases xs with
    | nil => simp at hval
    | cons x xs =>
      simp only [List.map_cons, List.cons.injEq] at hval
      simpa using hval.1

end Chain

end Pdrad
