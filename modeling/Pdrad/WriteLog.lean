import Pdrad.Memory

/-!
# Memories that note what is stored

A `WriteLog` is a memory together with the ranges that have been overwritten since
the log was started. Its operations are those of `Mem`, under the same names. An
address has been written when it was before, or lies in the range written last
(`written_put`).
-/

namespace Pdrad

/-- A memory and the ranges overwritten so far, each as an address and a size. -/
structure WriteLog where
  mem : Mem
  writes : List (Nat × Nat)

namespace WriteLog

/-- Nothing has been written yet. -/
def start (m : Mem) : WriteLog := ⟨m, []⟩

def put (t : WriteLog) (a : Nat) (bs : List UInt8) : WriteLog :=
  ⟨t.mem.put a bs, t.writes ++ [(a, bs.length)]⟩

def memcpy (t : WriteLog) (dst src n : Nat) : WriteLog :=
  t.put dst (t.mem.slice src n)

def store16 (t : WriteLog) (a : Nat) (v : UInt16) : WriteLog := t.put a (leBytes 2 v.toNat)
def store32 (t : WriteLog) (a : Nat) (v : UInt32) : WriteLog := t.put a (leBytes 4 v.toNat)

/-- The byte at `x` has been overwritten. -/
def Written (t : WriteLog) (x : Nat) : Prop :=
  ∃ r ∈ t.writes, r.1 ≤ x ∧ x < r.1 + r.2

section

variable {t : WriteLog} {m : Mem} {a x : Nat} {bs : List UInt8}

@[simp] theorem mem_start : (start m).mem = m := rfl

@[simp] theorem mem_put : (t.put a bs).mem = t.mem.put a bs := rfl

@[simp] theorem not_written_start : ¬ (start m).Written x := by
  rintro ⟨r, hr, _⟩
  cases hr

@[simp] theorem written_put :
    (t.put a bs).Written x ↔ t.Written x ∨ (a ≤ x ∧ x < a + bs.length) := by
  simp only [Written, put, List.mem_append, List.mem_singleton, or_and_right, exists_or,
    exists_eq_left]

@[simp] theorem written_memcpy {dst src n : Nat} :
    (t.memcpy dst src n).Written x ↔ t.Written x ∨ (dst ≤ x ∧ x < dst + n) := by
  rw [memcpy, written_put, Mem.length_slice]

@[simp] theorem written_store16 {v : UInt16} :
    (t.store16 a v).Written x ↔ t.Written x ∨ (a ≤ x ∧ x < a + 2) := by
  rw [store16, written_put, length_leBytes]

@[simp] theorem written_store32 {v : UInt32} :
    (t.store32 a v).Written x ↔ t.Written x ∨ (a ≤ x ∧ x < a + 4) := by
  rw [store32, written_put, length_leBytes]

/-- Two ranges, the second from the end of the first on, are one. -/
theorem range_append {n k : Nat} :
    ((a ≤ x ∧ x < a + n) ∨ (a + n ≤ x ∧ x < a + n + k)) ↔ a ≤ x ∧ x < a + (n + k) := by
  rw [Nat.add_assoc]
  constructor
  · rintro (⟨hlo, hhi⟩ | ⟨hlo, hhi⟩)
    · exact ⟨hlo, Nat.lt_of_lt_of_le hhi (Nat.add_le_add_left (Nat.le_add_right n k) a)⟩
    · exact ⟨Nat.le_of_add_right_le hlo, hhi⟩
  · rintro ⟨hlo, hhi⟩
    rcases Nat.lt_or_ge x (a + n) with hx | hx
    · exact .inl ⟨hlo, hx⟩
    · exact .inr ⟨hx, hhi⟩

end

end WriteLog

end Pdrad
