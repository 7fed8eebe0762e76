import Mathlib.Data.List.Basic
import Pdrad.Handles

/-!
# Numbers for handles, from one table

The parties of a program take numbers from one table, which gives a number again once
it has been released. A party that works on a number it has released works on what
someone else has acquired since.

1. `along_own_iff`: in any order of the operations, everyone works on handles of their
   own exactly when the operations of each party, taken alone, are well used.
2. `mem_held_of_table`, `tableAfter_kept`: the table against what a party takes itself to
   hold.
3. `wellUsed_closed_iff`: when nothing is held and nothing acquired, nothing may be done.
-/

namespace Pdrad

/-- The same operation under the name `f h` of the handle. -/
def HandleOp.map {α β : Type} (f : α → β) : HandleOp α → HandleOp β
  | .acquire h => .acquire (f h)
  | .use h => .use (f h)
  | .release h => .release (f h)

def HandleOp.Acquires {α : Type} : HandleOp α → Prop
  | .acquire _ => True
  | .use _ | .release _ => False

namespace Descriptors

open HandleOp

variable {ι : Type}

/-- Who has acquired the handle of a number, unless the number is free. -/
abbrev Table (ι : Type) := Nat → Option ι

/-- The table after an operation of the party `i`. -/
def after (t : Table ι) (i : ι) : HandleOp Nat → Table ι
  | .acquire n => Function.update t n (some i)
  | .use _ => t
  | .release n => Function.update t n none

def tableAfter (t : Table ι) : List (ι × HandleOp Nat) → Table ι
  | [] => t
  | (i, op) :: ops => tableAfter (after t i op) ops

/-- Each operation meets `P` when its turn comes. -/
def Along (P : Table ι → ι → HandleOp Nat → Prop) : Table ι → List (ι × HandleOp Nat) → Prop
  | _, [] => True
  | t, (i, op) :: ops => P t i op ∧ Along P (after t i op) ops

/-- The number of a new handle is free. -/
def Fresh (t : Table ι) (_ : ι) : HandleOp Nat → Prop
  | .acquire n => t n = none
  | .use _ | .release _ => True

/-- The operation is on a handle that the party itself has acquired. -/
def Own (t : Table ι) (i : ι) : HandleOp Nat → Prop
  | .acquire _ => True
  | .use n | .release n => t n = some i

/-- The operations of the party `i`. -/
def opsOf [DecidableEq ι] (i : ι) (ops : List (ι × HandleOp Nat)) : List (HandleOp Nat) :=
  (ops.filter fun x => x.1 = i).map Prod.snd

/-- The table and what each party holds tell the same. -/
structure Agree (t : Table ι) (hs : ι → List Nat) : Prop where
  mem : ∀ i n, t n = some i ↔ n ∈ hs i
  nodup : ∀ i, (hs i).Nodup

section

variable {P : Table ι → ι → HandleOp Nat → Prop} {t : Table ι} {hs : ι → List Nat} {i : ι}

/-- What a party may do is what it does on its own handles. -/
theorem Agree.own_iff (h : Agree t hs) (op : HandleOp Nat) : Own t i op ↔ Allowed (hs i) op := by
  cases op with
  | acquire n => exact Iff.rfl
  | use n => exact h.mem i n
  | release n => exact h.mem i n

variable [DecidableEq ι]

/-- An operation on an own handle, or on a new one, keeps the two views the same. -/
theorem Agree.after {op : HandleOp Nat} (h : Agree t hs) (hfresh : Fresh t i op)
    (hown : Own t i op) :
    Agree (after t i op) (Function.update hs i (heldAfter (hs i) op)) := by
  cases op with
  | acquire n =>
    have hnew (j : ι) : n ∉ hs j := by
      intro hmem
      rw [← h.mem, hfresh] at hmem
      cases hmem
    refine ⟨fun j k => ?_, fun j => ?_⟩
    · rw [Descriptors.after, heldAfter]
      rcases eq_or_ne j i with rfl | hj
      · rw [Function.update_self, List.mem_cons, ← h.mem j k]
        rcases eq_or_ne k n with rfl | hk
        · simp [Function.update_self]
        · rw [Function.update_of_ne hk]
          simp [hk]
      · rw [Function.update_of_ne hj, ← h.mem j k]
        rcases eq_or_ne k n with rfl | hk
        · have hfree : t k = none := hfresh
          simp [Function.update_self, hfree, hj.symm]
        · rw [Function.update_of_ne hk]
    · rcases eq_or_ne j i with rfl | hj
      · rw [Function.update_self]
        exact List.nodup_cons.mpr ⟨hnew j, h.nodup j⟩
      · rw [Function.update_of_ne hj]
        exact h.nodup j
  | use n =>
    have hsame : Function.update hs i (heldAfter (hs i) (.use n)) = hs := Function.update_eq_self i hs
    rw [hsame]
    exact h
  | release n =>
    refine ⟨fun j k => ?_, fun j => ?_⟩
    · rw [Descriptors.after, heldAfter]
      rcases eq_or_ne j i with rfl | hj
      · rw [Function.update_self, (h.nodup j).mem_erase_iff, ← h.mem j k]
        rcases eq_or_ne k n with rfl | hk
        · simp [Function.update_self]
        · rw [Function.update_of_ne hk]
          simp [hk]
      · rw [Function.update_of_ne hj, ← h.mem j k]
        rcases eq_or_ne k n with rfl | hk
        · -- the number was that of `i`
          have hi : t k = some i := hown
          simp [Function.update_self, hi, hj.symm]
        · rw [Function.update_of_ne hk]
    · rcases eq_or_ne j i with rfl | hj
      · rw [Function.update_self]
        exact (h.nodup j).erase n
      · rw [Function.update_of_ne hj]
        exact h.nodup j

theorem opsOf_append (i : ι) (xs ys : List (ι × HandleOp Nat)) :
    opsOf i (xs ++ ys) = opsOf i xs ++ opsOf i ys := by
  rw [opsOf, List.filter_append, List.map_append]
  rfl

theorem opsOf_cons_self (i : ι) (op : HandleOp Nat) (ops : List (ι × HandleOp Nat)) :
    opsOf i ((i, op) :: ops) = op :: opsOf i ops := by
  rw [opsOf, List.filter_cons_of_pos (by simp)]
  rfl

theorem opsOf_cons_of_ne {j : ι} (hj : j ≠ i) (op : HandleOp Nat) (ops : List (ι × HandleOp Nat)) :
    opsOf j ((i, op) :: ops) = opsOf j ops := by
  rw [opsOf, List.filter_cons_of_neg (by simpa using hj.symm)]
  rfl

theorem opsOf_tagged_self (i : ι) (ops : List (HandleOp Nat)) :
    opsOf i (ops.map (Prod.mk i)) = ops := by
  induction ops with
  | nil => rfl
  | cons op ops ih => rw [List.map_cons, opsOf_cons_self, ih]

theorem opsOf_tagged_of_ne {j : ι} (hj : j ≠ i) (ops : List (HandleOp Nat)) :
    opsOf j (ops.map (Prod.mk i)) = [] := by
  induction ops with
  | nil => rfl
  | cons op ops ih => rw [List.map_cons, opsOf_cons_of_ne hj, ih]

/-- **To each their own.** The order in which the parties come to their operations plays
no part, as long as the numbers of new handles are free. -/
theorem along_own_iff {ops : List (ι × HandleOp Nat)} (h : Agree t hs) (hfresh : Along Fresh t ops) :
    Along Own t ops ↔ ∀ i, WellUsed (hs i) (opsOf i ops) := by
  induction ops generalizing t hs with
  | nil => exact iff_of_true trivial fun _ => trivial
  | cons x ops ih =>
    obtain ⟨i, op⟩ := x
    have hrest (hown : Own t i op) := ih (h.after hfresh.1 hown) hfresh.2
    constructor
    · rintro ⟨hown, hothers⟩ j
      have hused := (hrest hown).mp hothers j
      rcases eq_or_ne j i with rfl | hj
      · rw [Function.update_self] at hused
        rw [opsOf_cons_self]
        exact ⟨(h.own_iff op).mp hown, hused⟩
      · rw [Function.update_of_ne hj] at hused
        rwa [opsOf_cons_of_ne hj]
    · intro hused
      have hfirst := hused i
      rw [opsOf_cons_self] at hfirst
      have hown := (h.own_iff op).mpr hfirst.1
      refine ⟨hown, (hrest hown).mpr fun j => ?_⟩
      rcases eq_or_ne j i with rfl | hj
      · rw [Function.update_self]
        exact hfirst.2
      · rw [Function.update_of_ne hj, ← opsOf_cons_of_ne hj op ops]
        exact hused j

end

/-! ### The table -/

section

variable {t : Table ι} {i : ι} {ops : List (ι × HandleOp Nat)} {n : Nat}

/-- What the table says a party has, it has by its own account. The others may only have
taken something away. -/
theorem mem_held_of_table [DecidableEq ι] {hs : List Nat} (h : ∀ n, t n = some i → n ∈ hs)
    (hn : tableAfter t ops n = some i) : n ∈ held hs (opsOf i ops) := by
  induction ops generalizing t hs with
  | nil => exact h n hn
  | cons x ops ih =>
    obtain ⟨j, op⟩ := x
    rcases eq_or_ne i j with rfl | hj
    · rw [opsOf_cons_self]
      refine ih (fun m hm => ?_) hn
      cases op with
      | acquire m' =>
        rcases eq_or_ne m m' with rfl | hne
        · exact List.mem_cons_self
        · rw [after, Function.update_of_ne hne] at hm
          exact List.mem_cons_of_mem m' (h m hm)
      | use => exact h m hm
      | release m' =>
        rcases eq_or_ne m m' with rfl | hne
        · rw [after, Function.update_self] at hm
          cases hm
        · rw [after, Function.update_of_ne hne] at hm
          exact (List.mem_erase_of_ne hne).mpr (h m hm)
    · rw [opsOf_cons_of_ne hj]
      refine ih (fun m hm => ?_) hn
      cases op with
      | acquire m' =>
        rcases eq_or_ne m m' with rfl | hne
        · rw [after, Function.update_self] at hm
          exact absurd (Option.some.inj hm).symm hj
        · rw [after, Function.update_of_ne hne] at hm
          exact h m hm
      | use => exact h m hm
      | release m' =>
        rcases eq_or_ne m m' with rfl | hne
        · rw [after, Function.update_self] at hm
          cases hm
        · rw [after, Function.update_of_ne hne] at hm
          exact h m hm

end

/-! ## One party -/

/-- Handles that are held may be used; they stay held. -/
theorem wellUsed_uses {hs : List Nat} {ops : List (HandleOp Nat)}
    (h : ∀ op ∈ ops, ∃ n ∈ hs, op = .use n) : WellUsed hs ops ∧ held hs ops = hs := by
  induction ops with
  | nil => exact ⟨trivial, rfl⟩
  | cons op ops ih =>
    obtain ⟨n, hn, rfl⟩ := h op List.mem_cons_self
    obtain ⟨hused, hheld⟩ := ih fun op hop => h op (List.mem_cons_of_mem _ hop)
    exact ⟨⟨hn, hused⟩, hheld⟩

theorem held_nil_of_not_acquires {ops : List (HandleOp Nat)} (h : ∀ op ∈ ops, ¬ op.Acquires) :
    held [] ops = [] := by
  induction ops with
  | nil => rfl
  | cons op ops ih =>
    have hrest := ih fun op hop => h op (List.mem_cons_of_mem _ hop)
    cases op with
    | acquire => exact absurd trivial (h _ List.mem_cons_self)
    | use | release => exact hrest

/-- A party that holds nothing and acquires nothing has nothing to work on. -/
theorem wellUsed_nil_iff {ops : List (HandleOp Nat)} (h : ∀ op ∈ ops, ¬ op.Acquires) :
    WellUsed [] ops ↔ ops = [] := by
  cases ops with
  | nil => exact iff_of_true trivial rfl
  | cons op ops =>
    refine iff_of_false ?_ (List.cons_ne_nil op ops)
    rintro ⟨hallowed, _⟩
    cases op with
    | acquire n => exact h _ List.mem_cons_self trivial
    | use n => cases hallowed
    | release n => cases hallowed

/-- Once a party has released all it had, and acquires nothing any more, it has to leave
the table alone. -/
theorem wellUsed_closed_iff {xs ys : List (HandleOp Nat)} (hused : WellUsed [] xs)
    (hheld : held [] xs = []) (h : ∀ op ∈ ys, ¬ op.Acquires) :
    WellUsed [] (xs ++ ys) ↔ ys = [] := by
  rw [wellUsed_append, hheld, wellUsed_nil_iff h]
  exact and_iff_right hused

/-- The first of the elements that meet a condition. -/
theorem exists_first {ε : Type} {p : ε → Prop} {es : List ε} (h : ∃ e ∈ es, p e) :
    ∃ xs e ys, es = xs ++ e :: ys ∧ (∀ x ∈ xs, ¬ p x) ∧ p e := by
  induction es with
  | nil =>
    obtain ⟨_, he, _⟩ := h
    cases he
  | cons e es ih =>
    by_cases hp : p e
    · exact ⟨[], e, es, rfl, List.forall_mem_nil _, hp⟩
    · have hrest : ∃ x ∈ es, p x := by
        obtain ⟨x, hx, hpx⟩ := h
        rcases List.mem_cons.mp hx with rfl | hx
        · exact absurd hpx hp
        · exact ⟨x, hx, hpx⟩
      obtain ⟨xs, x, ys, rfl, hxs, hpx⟩ := ih hrest
      exact ⟨e :: xs, x, ys, rfl, List.forall_mem_cons.mpr ⟨hp, hxs⟩, hpx⟩

/-- The same for a party whose operations are those of events, some of which leave it
with nothing. Behind the first of them it has to leave the table alone. -/
theorem wellUsed_iff_silent {ε : Type} {f : List ε → List (HandleOp Nat)} {closes : ε → Prop}
    {es : List ε} (happend : ∀ xs ys, f (xs ++ ys) = f xs ++ f ys)
    (hopen : (∀ e ∈ es, ¬ closes e) → WellUsed [] (f es))
    (hclosed : ∀ xs e ys, es = xs ++ e :: ys → (∀ x ∈ xs, ¬ closes x) → closes e →
      WellUsed [] (f (xs ++ [e])) ∧ held [] (f (xs ++ [e])) = [] ∧ ∀ op ∈ f ys, ¬ op.Acquires) :
    WellUsed [] (f es) ↔ ∀ xs e ys, es = xs ++ e :: ys → closes e → f ys = [] := by
  by_cases hsome : ∃ e ∈ es, closes e
  · obtain ⟨xs, e, ys, heq, hxs, hcloses⟩ := exists_first hsome
    obtain ⟨hused, hheld, hacquires⟩ := hclosed xs e ys heq hxs hcloses
    have hall : f es = f (xs ++ [e]) ++ f ys := by
      rw [← happend, List.append_assoc, List.singleton_append, ← heq]
    rw [hall, wellUsed_closed_iff hused hheld hacquires]
    constructor
    · intro hnil xs' e' ys' heq' hcloses'
      rcases List.append_eq_append_iff.mp (heq.symm.trans heq') with ⟨as, _, has⟩ | ⟨cs, hcs, has⟩
      · cases as with
        | nil => exact (List.cons.inj has).2 ▸ hnil
        | cons a as =>
          have hys : ys = (as ++ [e']) ++ ys' := by
            rw [← List.append_cons]
            exact (List.cons.inj has).2
          rw [hys, happend] at hnil
          exact (List.append_eq_nil_iff.mp hnil).2
      · cases cs with
        | nil => exact (List.cons.inj has).2 ▸ hnil
        | cons c cs =>
          -- the event would be one of those before the first
          obtain rfl := (List.cons.inj has).1
          exact absurd hcloses' (hxs _ (hcs ▸ List.mem_append_right xs' List.mem_cons_self))
    · exact fun hsilent => hsilent xs e ys heq hcloses
  · have hnone : ∀ e ∈ es, ¬ closes e := fun e he hcloses => hsome ⟨e, he, hcloses⟩
    refine iff_of_true (hopen hnone) fun xs e ys heq hcloses => ?_
    exact absurd hcloses (hnone e (heq ▸ List.mem_append_right xs List.mem_cons_self))

/-! ## Other names for the handles -/

section

variable {α β : Type} [DecidableEq α] [DecidableEq β] {f : α → β}

theorem heldAfter_map (hf : Function.Injective f) (hs : List α) (op : HandleOp α) :
    heldAfter (hs.map f) (op.map f) = (heldAfter hs op).map f := by
  cases op with
  | acquire n => rfl
  | use n => rfl
  | release n => exact (List.map_erase hf hs).symm

theorem held_map (hf : Function.Injective f) {hs : List α} {ops : List (HandleOp α)} :
    held (hs.map f) (ops.map (HandleOp.map f)) = (held hs ops).map f := by
  induction ops generalizing hs with
  | nil => rfl
  | cons op ops ih =>
    show held (heldAfter (hs.map f) (op.map f)) _ = _
    rw [heldAfter_map hf, ih]
    rfl

theorem wellUsed_map (hf : Function.Injective f) {hs : List α} {ops : List (HandleOp α)} :
    WellUsed (hs.map f) (ops.map (HandleOp.map f)) ↔ WellUsed hs ops := by
  induction ops generalizing hs with
  | nil => exact Iff.rfl
  | cons op ops ih =>
    have hallowed : Allowed (hs.map f) (op.map f) ↔ Allowed hs op := by
      cases op with
      | acquire n => exact Iff.rfl
      | use n => exact List.mem_map_of_injective hf
      | release n => exact List.mem_map_of_injective hf
    show _ ∧ WellUsed (heldAfter (hs.map f) (op.map f)) _ ↔ _
    rw [heldAfter_map hf, hallowed, ih]
    rfl

end

end Descriptors

end Pdrad
