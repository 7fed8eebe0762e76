import Pdrad.Memory

/-!
# Self-delimiting records

A byte string made of records, each of which says its own size in a header of
fixed length. The header is the only thing a `Format` knows about a record.

1. `split_sound`: every byte string splits into whole records and a remainder
   that does not start with a whole record.
2. `split_unique`: in one way only. So a string is a sequence of records exactly
   when its remainder is empty (`rest_eq_nil_iff`).
3. `layout`: the address at which each item of a list lies when the items are
   stored back to back; `slice_of_mem_layout` reads one of them from memory.
-/

namespace Pdrad

/-- How the size of a record is read from its front. `extent` is the size of the
whole record, header included; it looks at the header only. -/
structure Format where
  header : Nat
  extent : List UInt8 → Nat
  header_pos : 0 < header
  extent_append : ∀ bs cs, header ≤ bs.length → extent (bs ++ cs) = extent bs

namespace Format

variable (F : Format)

/-- `bs` is one record, no byte more and no byte less. -/
def IsRecord (bs : List UInt8) : Prop :=
  F.header ≤ bs.length ∧ F.extent bs = bs.length

/-- A whole record lies at the front of `bs`. -/
def Starts (bs : List UInt8) : Prop :=
  F.header ≤ bs.length ∧ F.header ≤ F.extent bs ∧ F.extent bs ≤ bs.length

instance (bs : List UInt8) : Decidable (F.IsRecord bs) :=
  inferInstanceAs (Decidable (_ ∧ _))

instance (bs : List UInt8) : Decidable (F.Starts bs) :=
  inferInstanceAs (Decidable (_ ∧ _))

/-- Take whole records off the front, at most `n` of them. -/
def splitAt : Nat → List UInt8 → List (List UInt8) × List UInt8
  | 0, bs => ([], bs)
  | n + 1, bs =>
    if F.Starts bs then
      let tail := splitAt n (bs.drop (F.extent bs))
      (bs.take (F.extent bs) :: tail.1, tail.2)
    else ([], bs)

/-- The whole records at the front of `bs`. -/
def records (bs : List UInt8) : List (List UInt8) :=
  (F.splitAt bs.length bs).1

/-- What is left of `bs` after its whole records. -/
def rest (bs : List UInt8) : List UInt8 :=
  (F.splitAt bs.length bs).2

/-- The records of `bs`, and the remainder as a last piece when there is one. -/
def pieces (bs : List UInt8) : List (List UInt8) :=
  F.records bs ++ if F.rest bs = [] then [] else [F.rest bs]

variable {F}

theorem IsRecord.pos {bs : List UInt8} (h : F.IsRecord bs) : 0 < bs.length :=
  Nat.lt_of_lt_of_le F.header_pos h.1

theorem not_starts_nil : ¬ F.Starts [] := by
  rintro ⟨h, _⟩
  exact Nat.not_le.mpr F.header_pos h

theorem Starts.extent_pos {bs : List UInt8} (h : F.Starts bs) : 0 < F.extent bs :=
  Nat.lt_of_lt_of_le F.header_pos h.2.1

theorem Starts.isRecord_take {bs : List UInt8} (h : F.Starts bs) :
    F.IsRecord (bs.take (F.extent bs)) := by
  obtain ⟨_, hle, hfit⟩ := h
  have hlen : (bs.take (F.extent bs)).length = F.extent bs := by simp [hfit]
  refine ⟨by rw [hlen]; exact hle, ?_⟩
  have happ := F.extent_append (bs.take (F.extent bs)) (bs.drop (F.extent bs)) (by rw [hlen]; exact hle)
  rw [List.take_append_drop] at happ
  rw [hlen, ← happ]

theorem IsRecord.extent_append {r : List UInt8} (h : F.IsRecord r) (cs : List UInt8) :
    F.extent (r ++ cs) = r.length := by
  rw [F.extent_append r cs h.1, h.2]

theorem IsRecord.starts_append {r : List UInt8} (h : F.IsRecord r) (cs : List UInt8) :
    F.Starts (r ++ cs) := by
  have hle := h.1
  refine ⟨?_, ?_, ?_⟩
  · rw [List.length_append]; omega
  · rw [h.extent_append]; exact hle
  · rw [h.extent_append, List.length_append]; omega

/-! ## Splitting -/

theorem splitAt_flatten {rs : List (List UInt8)} {tail : List UInt8} {n : Nat}
    (hrs : ∀ r ∈ rs, F.IsRecord r) (htail : ¬ F.Starts tail) (hn : rs.length ≤ n) :
    F.splitAt n (rs.flatten ++ tail) = (rs, tail) := by
  induction rs generalizing n with
  | nil => cases n <;> simp [splitAt, htail]
  | cons r rs ih =>
    cases n with
    | zero => simp at hn
    | succ n =>
      have hr : F.IsRecord r := hrs r List.mem_cons_self
      have hrest : ∀ r ∈ rs, F.IsRecord r := fun r' hr' => hrs r' (List.mem_cons_of_mem r hr')
      have hlen : rs.length ≤ n := by simpa using hn
      rw [List.flatten_cons, List.append_assoc, splitAt, if_pos (hr.starts_append _), hr.extent_append]
      simp [ih hrest hlen]

/-- Strings of at least `k` bytes each have that many bytes together. -/
theorem length_mul_le_flatten {rs : List (List UInt8)} {k : Nat} (hrs : ∀ r ∈ rs, k ≤ r.length) :
    rs.length * k ≤ rs.flatten.length := by
  induction rs with
  | nil => simp
  | cons r rs ih =>
    have hr := hrs r List.mem_cons_self
    have hrest := ih fun r' hr' => hrs r' (List.mem_cons_of_mem r hr')
    rw [List.length_cons, List.flatten_cons, List.length_append, Nat.succ_mul, Nat.add_comm]
    exact Nat.add_le_add hr hrest

theorem split_unique {rs : List (List UInt8)} {tail : List UInt8}
    (hrs : ∀ r ∈ rs, F.IsRecord r) (htail : ¬ F.Starts tail) :
    F.records (rs.flatten ++ tail) = rs ∧ F.rest (rs.flatten ++ tail) = tail := by
  have hlen := length_mul_le_flatten fun r hr => (hrs r hr).pos
  have hsplit := splitAt_flatten (n := (rs.flatten ++ tail).length) hrs htail (by
    rw [List.length_append]; omega)
  unfold records rest
  rw [hsplit]
  exact ⟨rfl, rfl⟩

theorem splitAt_sound (n : Nat) (bs : List UInt8) (hn : bs.length ≤ n) :
    (F.splitAt n bs).1.flatten ++ (F.splitAt n bs).2 = bs ∧
    (∀ r ∈ (F.splitAt n bs).1, F.IsRecord r) ∧ ¬ F.Starts (F.splitAt n bs).2 := by
  induction n generalizing bs with
  | zero =>
    obtain rfl : bs = [] := by simpa using hn
    exact ⟨rfl, by simp [splitAt], not_starts_nil⟩
  | succ n ih =>
    by_cases hs : F.Starts bs
    · have hpos := hs.extent_pos
      obtain ⟨hflat, hrec, hrest⟩ := ih (bs.drop (F.extent bs)) (by rw [List.length_drop]; omega)
      rw [splitAt, if_pos hs]
      refine ⟨?_, ?_, hrest⟩
      · rw [List.flatten_cons, List.append_assoc, hflat, List.take_append_drop]
      · intro r hr
        rcases List.mem_cons.mp hr with rfl | hr
        · exact hs.isRecord_take
        · exact hrec r hr
    · simp [splitAt, hs]

/-- Every byte string is its whole records followed by its remainder. -/
theorem split_sound (bs : List UInt8) : (F.records bs).flatten ++ F.rest bs = bs :=
  (splitAt_sound bs.length bs (Nat.le_refl _)).1

theorem isRecord_of_mem_records {bs r : List UInt8} (h : r ∈ F.records bs) : F.IsRecord r :=
  (splitAt_sound bs.length bs (Nat.le_refl _)).2.1 r h

theorem not_starts_rest (bs : List UInt8) : ¬ F.Starts (F.rest bs) :=
  (splitAt_sound bs.length bs (Nat.le_refl _)).2.2

theorem records_flatten {rs : List (List UInt8)} (hrs : ∀ r ∈ rs, F.IsRecord r) :
    F.records rs.flatten = rs := by
  simpa using (split_unique hrs not_starts_nil).1

theorem rest_flatten {rs : List (List UInt8)} (hrs : ∀ r ∈ rs, F.IsRecord r) :
    F.rest rs.flatten = [] := by
  simpa using (split_unique hrs not_starts_nil).2

/-- The remainder is empty exactly for a sequence of records. -/
theorem rest_eq_nil_iff {bs : List UInt8} :
    F.rest bs = [] ↔ ∃ rs : List (List UInt8), (∀ r ∈ rs, F.IsRecord r) ∧ bs = rs.flatten := by
  constructor
  · intro h
    refine ⟨F.records bs, fun r hr => isRecord_of_mem_records hr, ?_⟩
    have hs := split_sound (F := F) bs
    rw [h, List.append_nil] at hs
    exact hs.symm
  · rintro ⟨rs, hrs, rfl⟩
    exact rest_flatten hrs

@[simp] theorem flatten_pieces (bs : List UInt8) : (F.pieces bs).flatten = bs := by
  have h := split_sound (F := F) bs
  unfold pieces
  split
  · next hnil => simpa [hnil] using h
  · simpa using h

theorem pieces_ne_nil {bs : List UInt8} (h : bs ≠ []) : F.pieces bs ≠ [] := by
  intro hnil
  have hflat := flatten_pieces (F := F) bs
  rw [hnil] at hflat
  exact h hflat.symm

/-- Every piece but the last has a header. -/
theorem length_pieces_le (bs : List UInt8) :
    (F.pieces bs).length ≤ 1 + bs.length / F.header := by
  have hrecords : (F.records bs).length ≤ bs.length / F.header := by
    have hflat := congrArg List.length (split_sound (F := F) bs)
    rw [List.length_append] at hflat
    rw [Nat.le_div_iff_mul_le F.header_pos]
    have hheader : ∀ r ∈ F.records bs, F.header ≤ r.length :=
      fun r hr => (isRecord_of_mem_records hr).1
    exact Nat.le_trans (length_mul_le_flatten hheader) (hflat ▸ Nat.le_add_right _ _)
  have hlast : (if F.rest bs = [] then [] else [F.rest bs]).length ≤ 1 := by
    split <;> simp
  rw [pieces, List.length_append, Nat.add_comm]
  exact Nat.add_le_add hlast hrecords

/-- Records and a remainder, unless there are none, take up some bytes. -/
theorem length_pos_of_pieces {rs : List (List UInt8)} {tail : List UInt8}
    (hrs : ∀ r ∈ rs, F.IsRecord r) (h : (rs ++ if tail = [] then [] else [tail]) ≠ []) :
    0 < (rs.flatten ++ tail).length := by
  cases rs with
  | nil =>
    have hne : tail ≠ [] := by
      rintro rfl
      simp at h
    simpa using List.length_pos_iff.mpr hne
  | cons r rs =>
    have hpos := (hrs r List.mem_cons_self).pos
    simp only [List.flatten_cons, List.length_append]
    omega

end Format

/-! ## Layout -/

/-- Each item of a list with its address, when the items are stored back to back
from `a` on and take up `size` bytes each. -/
def layout {α : Type} (size : α → Nat) : Nat → List α → List (Nat × α)
  | _, [] => []
  | a, x :: xs => (a, x) :: layout size (a + size x) xs

section

variable {α β : Type} {size : α → Nat}

@[simp] theorem layout_map_snd (a : Nat) (xs : List α) : (layout size a xs).map Prod.snd = xs := by
  induction xs generalizing a with
  | nil => rfl
  | cons x xs ih => simp [layout, ih]

@[simp] theorem length_layout (a : Nat) (xs : List α) : (layout size a xs).length = xs.length := by
  rw [← List.length_map (f := Prod.snd), layout_map_snd]

theorem layout_map (f : β → α) (a : Nat) (xs : List β) :
    layout size a (xs.map f) = (layout (fun x => size (f x)) a xs).map fun p => (p.1, f p.2) := by
  induction xs generalizing a with
  | nil => rfl
  | cons x xs ih => simp [layout, ih]

theorem layout_append (a : Nat) (xs ys : List α) :
    layout size a (xs ++ ys) = layout size a xs ++ layout size (a + (xs.map size).sum) ys := by
  induction xs generalizing a with
  | nil => simp [layout]
  | cons x xs ih => simp [layout, ih, Nat.add_assoc]

theorem mem_layout_snd {a p : Nat} {x : α} {xs : List α} (h : (p, x) ∈ layout size a xs) :
    x ∈ xs := by
  have hmem := List.mem_map_of_mem (f := Prod.snd) h
  rwa [layout_map_snd] at hmem

/-- An item lies between the start and the end of the stored list. -/
theorem mem_layout_bounds {a p : Nat} {x : α} {xs : List α} (h : (p, x) ∈ layout size a xs) :
    a ≤ p ∧ p + size x ≤ a + (xs.map size).sum := by
  induction xs generalizing a with
  | nil => simp [layout] at h
  | cons y xs ih =>
    simp only [layout, List.mem_cons, Prod.mk.injEq] at h
    simp only [List.map_cons, List.sum_cons]
    rcases h with ⟨rfl, rfl⟩ | h
    · omega
    · have hb := ih h
      omega

theorem layout_shift (a b : Nat) (xs : List α) :
    layout size (a + b) xs = (layout size b xs).map fun p => (a + p.1, p.2) := by
  induction xs generalizing b with
  | nil => rfl
  | cons x xs ih => simp [layout, Nat.add_assoc, ih]

/-- An item starts inside another only if it is that item. -/
theorem layout_unique {a p q : Nat} {x y : α} {xs : List α} (hpos : ∀ x ∈ xs, 0 < size x)
    (hp : (p, x) ∈ layout size a xs) (hq : (q, y) ∈ layout size a xs) (hle : p ≤ q)
    (hlt : q < p + size x) : p = q ∧ x = y := by
  induction xs generalizing a with
  | nil => simp [layout] at hp
  | cons z xs ih =>
    have hz := hpos z List.mem_cons_self
    have hrest : ∀ x ∈ xs, 0 < size x := fun x hx => hpos x (List.mem_cons_of_mem z hx)
    simp only [layout, List.mem_cons, Prod.mk.injEq] at hp hq
    rcases hp with ⟨rfl, rfl⟩ | hp
    · rcases hq with ⟨rfl, rfl⟩ | hq
      · exact ⟨rfl, rfl⟩
      · have hb := (mem_layout_bounds hq).1
        omega
    · rcases hq with ⟨rfl, rfl⟩ | hq
      · have hb := (mem_layout_bounds hp).1
        omega
      · exact ih hrest hp hq

/-- The item at the start is the first one. -/
theorem layout_head {a : Nat} {x : α} {xs : List α} (hpos : ∀ x ∈ xs, 0 < size x)
    (h : (a, x) ∈ layout size a xs) : (layout size a xs).head? = some (a, x) := by
  cases xs with
  | nil => simp [layout] at h
  | cons y ys =>
    have hy := hpos y List.mem_cons_self
    have hfirst : (a, y) ∈ layout size a (y :: ys) := List.mem_cons_self
    obtain ⟨_, rfl⟩ := layout_unique hpos hfirst h (Nat.le_refl a) (by omega)
    rfl

/-- A memory that holds the items back to back holds each of them at its place. -/
theorem slice_of_mem_layout (enc : α → List UInt8) {m : Mem} {a p n : Nat} {x : α} {xs : List α}
    (hm : m.slice a n = xs.flatMap enc) (h : (p, x) ∈ layout (fun x => (enc x).length) a xs) :
    m.slice p (enc x).length = enc x := by
  induction xs generalizing a n with
  | nil => simp [layout] at h
  | cons y xs ih =>
    rw [List.flatMap_cons] at hm
    obtain ⟨hy, hxs⟩ := Mem.slice_eq_append hm
    simp only [layout, List.mem_cons, Prod.mk.injEq] at h
    rcases h with ⟨rfl, rfl⟩ | h
    · exact hy
    · exact ih hxs h

/-- A string of records back to back goes on from each of them with its bytes. -/
theorem drop_of_mem_layout {a p : Nat} {r : List UInt8} {rs : List (List UInt8)}
    (h : (p, r) ∈ layout List.length a rs) : ∃ cs, rs.flatten.drop (p - a) = r ++ cs := by
  induction rs generalizing a with
  | nil => simp [layout] at h
  | cons s rs ih =>
    simp only [layout, List.mem_cons, Prod.mk.injEq] at h
    rcases h with ⟨rfl, rfl⟩ | h
    · exact ⟨rs.flatten, by rw [Nat.sub_self, List.drop_zero, List.flatten_cons]⟩
    · obtain ⟨cs, hcs⟩ := ih h
      have hlo := (mem_layout_bounds h).1
      refine ⟨cs, ?_⟩
      rw [List.flatten_cons, show p - a = s.length + (p - (a + s.length)) by omega,
        List.drop_length_add_append, hcs]

end

end Pdrad
