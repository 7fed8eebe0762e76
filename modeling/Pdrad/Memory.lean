import Pdrad.Bytes

/-!
# A flat byte memory

A memory gives every address a byte; nothing is unmapped. Objects are address
ranges, and two objects are apart when their ranges are (`Apart`).

* `slice` reads a range, `put` overwrites one, `memcpy` is a read and a put.
* `load16`, `store16`, `load32`, `store32`, `load64` are the little-endian accesses of a
  64 bit host. They do not wrap: a field lies inside an object.
* `Tracked` is a memory that also lists the addresses it was accessed at.

The lemmas come in three kinds: what a put makes a slice read (`slice_put_*`),
what it leaves alone (`*_of_apart`), and how slices split (`slice_add`). The last
two hold of several puts, too (`putBlocks`).
-/

namespace Pdrad

/-- A memory: the byte at every address. -/
abbrev Mem := Nat → UInt8

/-- The ranges `[a, a + n)` and `[b, b + k)` have no address in common. -/
def Apart (a n b k : Nat) : Prop :=
  a + n ≤ b ∨ b + k ≤ a

instance (a n b k : Nat) : Decidable (Apart a n b k) :=
  inferInstanceAs (Decidable (_ ∨ _))

theorem Apart.symm {a n b k : Nat} (h : Apart a n b k) : Apart b k a n :=
  Or.symm h

/-- A range inside one that is apart from another is apart from it too. -/
theorem Apart.inside {a n b k a' n' : Nat} (h : Apart a n b k) (hlo : a ≤ a')
    (hhi : a' + n' ≤ a + n) : Apart a' n' b k := by
  rcases h with h | h
  · exact .inl (Nat.le_trans hhi h)
  · exact .inr (Nat.le_trans h hlo)

/-- So is the front of one. -/
theorem Apart.front {a n b k n' : Nat} (h : Apart a n b k) (hle : n' ≤ n) : Apart a n' b k :=
  h.inside (Nat.le_refl a) (Nat.add_le_add_left hle a)

/-- Ranges, each given by its address and its size, that are apart from each other. -/
def AllApart (ranges : List (Nat × Nat)) : Prop :=
  ranges.Pairwise fun x y => Apart x.1 x.2 y.1 y.2

instance (ranges : List (Nat × Nat)) : Decidable (AllApart ranges) :=
  inferInstanceAs (Decidable (ranges.Pairwise fun x y => Apart x.1 x.2 y.1 y.2))

/-- They may be listed in any order. -/
theorem AllApart.perm {xs ys : List (Nat × Nat)} (h : AllApart xs) (hperm : xs.Perm ys) :
    AllApart ys :=
  (hperm.pairwise_iff fun hxy => Apart.symm hxy).mp h

/-- Two of them are apart wherever they stand. -/
theorem AllApart.of_ne {ranges : List (Nat × Nat)} (h : AllApart ranges) {i j : Nat}
    (hi : i < ranges.length) (hj : j < ranges.length) (hne : i ≠ j) :
    Apart ranges[i].1 ranges[i].2 ranges[j].1 ranges[j].2 := by
  have hordered := List.pairwise_iff_getElem.mp h
  rcases Nat.lt_or_gt_of_ne hne with hlt | hgt
  · exact hordered i j hi hj hlt
  · exact (hordered j i hj hi hgt).symm

namespace Mem

/-- The `n` bytes from `a` on. -/
def slice (m : Mem) (a n : Nat) : List UInt8 :=
  (List.range n).map fun i => m (a + i)

/-- Overwrite the bytes from `a` on with `bs`. -/
def put (m : Mem) (a : Nat) (bs : List UInt8) : Mem := fun x =>
  if a ≤ x then (bs[x - a]?).getD (m x) else m x

/-- Copy `n` bytes from `src` to `dst`. -/
def memcpy (m : Mem) (dst src n : Nat) : Mem :=
  m.put dst (m.slice src n)

/-- Put byte strings into blocks of their own, each given with its address. -/
def putBlocks (m : Mem) (blocks : List (Nat × List UInt8)) : Mem :=
  blocks.foldl (fun m b => m.put b.1 b.2) m

def load16 (m : Mem) (a : Nat) : UInt16 := UInt16.ofNat (leValue (m.slice a 2))
def load32 (m : Mem) (a : Nat) : UInt32 := UInt32.ofNat (leValue (m.slice a 4))
def load64 (m : Mem) (a : Nat) : UInt64 := UInt64.ofNat (leValue (m.slice a 8))
def store16 (m : Mem) (a : Nat) (v : UInt16) : Mem := m.put a (leBytes 2 v.toNat)
def store32 (m : Mem) (a : Nat) (v : UInt32) : Mem := m.put a (leBytes 4 v.toNat)

/-! ## Slices -/

@[simp] theorem length_slice (m : Mem) (a n : Nat) : (m.slice a n).length = n := by
  simp [slice]

@[simp] theorem getElem_slice (m : Mem) (a n i : Nat) (h : i < (m.slice a n).length) :
    (m.slice a n)[i] = m (a + i) := by
  simp [slice]

@[simp] theorem slice_zero (m : Mem) (a : Nat) : m.slice a 0 = [] := rfl

theorem slice_congr {m m' : Mem} {a n : Nat} (h : ∀ x, a ≤ x → x < a + n → m x = m' x) :
    m.slice a n = m'.slice a n := by
  apply List.ext_getElem (by simp)
  intro i hi _
  rw [length_slice] at hi
  simpa using h (a + i) (by omega) (by omega)

theorem slice_add (m : Mem) (a n k : Nat) :
    m.slice a (n + k) = m.slice a n ++ m.slice (a + n) k := by
  simp only [slice, List.range_add, List.map_append, List.map_map]
  congr 1
  apply List.map_congr_left
  intro i _
  simp [Nat.add_assoc]

theorem slice_succ (m : Mem) (a n : Nat) : m.slice a (n + 1) = m a :: m.slice (a + 1) n := by
  rw [Nat.add_comm n 1, slice_add]
  rfl

theorem head?_slice (m : Mem) (a : Nat) {n : Nat} (h : 0 < n) : (m.slice a n).head? = some (m a) := by
  obtain ⟨k, rfl⟩ := Nat.exists_eq_succ_of_ne_zero (Nat.pos_iff_ne_zero.mp h)
  rw [slice_succ, List.head?_cons]

theorem take_slice (m : Mem) (a : Nat) {k n : Nat} (h : k ≤ n) :
    (m.slice a n).take k = m.slice a k := by
  obtain ⟨j, rfl⟩ := Nat.exists_eq_add_of_le h
  rw [slice_add, List.take_left' (length_slice m a k)]

theorem drop_slice (m : Mem) (a : Nat) {k n : Nat} (h : k ≤ n) :
    (m.slice a n).drop k = m.slice (a + k) (n - k) := by
  obtain ⟨j, rfl⟩ := Nat.exists_eq_add_of_le h
  rw [slice_add, List.drop_left' (length_slice m a k), Nat.add_sub_cancel_left]

/-- A slice that reads `bs ++ cs` reads `bs` and, after it, `cs`. -/
theorem slice_eq_append {m : Mem} {a n : Nat} {bs cs : List UInt8} (h : m.slice a n = bs ++ cs) :
    m.slice a bs.length = bs ∧ m.slice (a + bs.length) cs.length = cs := by
  have hn : n = bs.length + cs.length := by
    have hl := congrArg List.length h
    simpa using hl
  rw [hn, slice_add] at h
  exact List.append_inj h (by simp)

/-! ## Puts -/

theorem put_of_lt {m : Mem} {a x : Nat} {bs : List UInt8} (h : x < a) : m.put a bs x = m x := by
  simp [put, Nat.not_le.mpr h]

theorem put_of_ge {m : Mem} {a x : Nat} {bs : List UInt8} (h : a + bs.length ≤ x) :
    m.put a bs x = m x := by
  have hout : bs.length ≤ x - a := by omega
  simp [put, List.getElem?_eq_none hout]

theorem put_at {m : Mem} {a i : Nat} {bs : List UInt8} (h : i < bs.length) :
    m.put a bs (a + i) = bs[i] := by
  simp [put, List.getElem?_eq_getElem h]

@[simp] theorem put_nil (m : Mem) (a : Nat) : m.put a [] = m := by
  funext x
  simp [put]

theorem put_append (m : Mem) (a : Nat) (bs cs : List UInt8) :
    m.put a (bs ++ cs) = (m.put a bs).put (a + bs.length) cs := by
  funext x
  by_cases hx : x < a + bs.length
  · rw [put_of_lt hx]
    by_cases ha : a ≤ x
    · obtain ⟨i, rfl⟩ := Nat.exists_eq_add_of_le ha
      have hi : i < bs.length := by omega
      rw [put_at hi, put_at (by simp; omega), List.getElem_append_left hi]
    · rw [put_of_lt (by omega), put_of_lt (by omega)]
  · obtain ⟨i, rfl⟩ := Nat.exists_eq_add_of_le (Nat.le_of_not_lt hx)
    by_cases hi : i < cs.length
    · rw [put_at hi, Nat.add_assoc, put_at (by simp; omega)]
      simp
    · rw [put_of_ge (by simp; omega), put_of_ge (by omega), put_of_ge (by omega)]

@[simp] theorem slice_put_same (m : Mem) (a : Nat) (bs : List UInt8) :
    (m.put a bs).slice a bs.length = bs := by
  apply List.ext_getElem (by simp)
  intro i _ hi
  rw [getElem_slice, put_at hi]

theorem slice_put_of_length {m : Mem} {a n : Nat} {bs : List UInt8} (h : bs.length = n) :
    (m.put a bs).slice a n = bs := by
  subst h
  exact slice_put_same m a bs

theorem put_of_apart {m : Mem} {a x : Nat} {bs : List UInt8} (h : Apart a bs.length x 1) :
    m.put a bs x = m x := by
  rcases h with h | h
  · exact put_of_ge h
  · exact put_of_lt h

theorem slice_put_of_apart {m : Mem} {a b n : Nat} {bs : List UInt8}
    (h : Apart a bs.length b n) : (m.put a bs).slice b n = m.slice b n := by
  apply slice_congr
  intro x hb hn
  apply put_of_apart
  rcases h with h | h
  · exact .inl (by omega)
  · exact .inr (by omega)

/-- Puts to ranges that are apart commute. -/
theorem put_comm {m : Mem} {a b : Nat} {bs cs : List UInt8} (h : Apart a bs.length b cs.length) :
    (m.put a bs).put b cs = (m.put b cs).put a bs := by
  funext x
  by_cases ha : Apart a bs.length x 1
  · rw [put_of_apart ha]
    by_cases hb : Apart b cs.length x 1
    · rw [put_of_apart hb, put_of_apart hb, put_of_apart ha]
    · obtain ⟨i, rfl⟩ : ∃ i, x = b + i := ⟨x - b, by simp only [Apart] at hb; omega⟩
      have hi : i < cs.length := by
        simp only [Apart] at hb
        omega
      rw [put_at hi, put_at hi]
  · obtain ⟨i, rfl⟩ : ∃ i, x = a + i := ⟨x - a, by simp only [Apart] at ha; omega⟩
    have hi : i < bs.length := by
      simp only [Apart] at ha
      omega
    have hb : Apart b cs.length (a + i) 1 := by
      simp only [Apart] at h ⊢
      omega
    rw [put_of_apart hb, put_at hi, put_at hi]

/-- Putting back what a range already holds changes nothing. -/
theorem put_slice_self (m : Mem) (a n : Nat) : m.put a (m.slice a n) = m := by
  funext x
  by_cases hx : a ≤ x ∧ x < a + n
  · obtain ⟨i, rfl⟩ := Nat.exists_eq_add_of_le hx.1
    rw [put_at (by simp; omega), getElem_slice]
  · apply put_of_apart
    simp only [Apart, length_slice]
    omega

/-! ## Blocks -/

/-- What lies apart from all blocks is left alone. -/
theorem slice_putBlocks_of_apart {m : Mem} {a n : Nat} {blocks : List (Nat × List UInt8)}
    (h : ∀ b ∈ blocks, Apart b.1 b.2.length a n) :
    (m.putBlocks blocks).slice a n = m.slice a n := by
  induction blocks generalizing m with
  | nil => rfl
  | cons b blocks ih =>
    have hrest := ih (m := m.put b.1 b.2) fun b' hb' => h b' (List.mem_cons_of_mem b hb')
    exact hrest.trans (slice_put_of_apart (h b List.mem_cons_self))

/-- Blocks that are apart all hold what was put into them. -/
theorem slice_putBlocks_of_mem {m : Mem} {blocks : List (Nat × List UInt8)}
    (hapart : AllApart (blocks.map fun b => (b.1, b.2.length))) :
    ∀ b ∈ blocks, (m.putBlocks blocks).slice b.1 b.2.length = b.2 := by
  induction blocks generalizing m with
  | nil => exact fun _ hb => nomatch hb
  | cons b blocks ih =>
    obtain ⟨hfirst, hrest⟩ := List.pairwise_cons.mp hapart
    intro b' hb'
    rcases List.mem_cons.mp hb' with rfl | hb'
    -- the puts that follow are to other blocks
    · have hkept : (putBlocks (m.put b'.1 b'.2) blocks).slice b'.1 b'.2.length =
          (m.put b'.1 b'.2).slice b'.1 b'.2.length :=
        slice_putBlocks_of_apart fun x hx => (hfirst _ (List.mem_map_of_mem hx)).symm
      exact hkept.trans (slice_put_same m b'.1 b'.2)
    · exact ih hrest b' hb'

/-! ## Little-endian fields -/

theorem toNat_load16 (m : Mem) (a : Nat) : (m.load16 a).toNat = leValue (m.slice a 2) := by
  have h := leValue_lt (m.slice a 2)
  rw [length_slice] at h
  simp only [load16, UInt16.toNat_ofNat']
  exact Nat.mod_eq_of_lt h

theorem toNat_load32 (m : Mem) (a : Nat) : (m.load32 a).toNat = leValue (m.slice a 4) := by
  have h := leValue_lt (m.slice a 4)
  rw [length_slice] at h
  simp only [load32, UInt32.toNat_ofNat']
  exact Nat.mod_eq_of_lt h

theorem leBytes_load16 (m : Mem) (a : Nat) : leBytes 2 (m.load16 a).toNat = m.slice a 2 := by
  have h := leBytes_leValue (m.slice a 2)
  rwa [length_slice, ← toNat_load16] at h

theorem leBytes_load32 (m : Mem) (a : Nat) : leBytes 4 (m.load32 a).toNat = m.slice a 4 := by
  have h := leBytes_leValue (m.slice a 4)
  rwa [length_slice, ← toNat_load32] at h

/-- The host-order value of a field in network order is its big-endian value. -/
theorem toNat_bswap16_load16 (m : Mem) (a : Nat) :
    (bswap16 (m.load16 a)).toNat = beValue (m.slice a 2) := by
  rw [toNat_bswap16, leBytes_load16]

/-- Storing a field's swapped value back reverses its two bytes in place. -/
theorem store16_bswap16_load16 (m : Mem) (a : Nat) :
    m.store16 a (bswap16 (m.load16 a)) = m.put a (m.slice a 2).reverse := by
  rw [store16, leBytes_bswap16, beBytes, leBytes_load16]

theorem load16_eq_of_slice {m m' : Mem} {a a' : Nat} (h : m.slice a 2 = m'.slice a' 2) :
    m.load16 a = m'.load16 a' := by
  rw [load16, load16, h]

theorem load16_of_slice {m : Mem} {a : Nat} {v : UInt16} (h : m.slice a 2 = leBytes 2 v.toNat) :
    m.load16 a = v := by
  apply UInt16.toNat_inj.mp
  rw [toNat_load16, h, leValue_leBytes]
  exact Nat.mod_eq_of_lt v.toNat_lt

theorem load32_of_slice {m : Mem} {a : Nat} {v : UInt32} (h : m.slice a 4 = leBytes 4 v.toNat) :
    m.load32 a = v := by
  apply UInt32.toNat_inj.mp
  rw [toNat_load32, h, leValue_leBytes]
  exact Nat.mod_eq_of_lt v.toNat_lt

end Mem

/-! ## Tracked accesses -/

/-- A memory together with the addresses read or overwritten so far, the most
recent first. -/
structure Tracked where
  mem : Mem
  touched : List Nat

namespace Tracked

/-- Note an access to the `n` bytes from `a` on. -/
def touch (t : Tracked) (a n : Nat) : Tracked :=
  { t with touched := (List.range n).reverse.map (a + ·) ++ t.touched }

def read8 (t : Tracked) (a : Nat) : UInt8 × Tracked :=
  (t.mem a, t.touch a 1)

def read16 (t : Tracked) (a : Nat) : UInt16 × Tracked :=
  (t.mem.load16 a, t.touch a 2)

def write16 (t : Tracked) (a : Nat) (v : UInt16) : Tracked :=
  { t.touch a 2 with mem := t.mem.store16 a v }

theorem mem_touched_touch {t : Tracked} {a n x : Nat} :
    x ∈ (t.touch a n).touched ↔ (a ≤ x ∧ x < a + n) ∨ x ∈ t.touched := by
  simp only [touch, List.mem_append, List.mem_map, List.mem_reverse, List.mem_range]
  refine or_congr_left ⟨?_, fun h => ⟨x - a, by omega, by omega⟩⟩
  rintro ⟨i, hi, rfl⟩
  omega

end Tracked

end Pdrad
