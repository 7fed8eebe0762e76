import Mathlib.Data.List.Basic

/-!
# Loops that may not end

`while (true)` loops with a `break`, as functions of a number of passes. A body
either asks for another pass, stops the loop, or does not come back (`none`).

1. `loop_mono`: a loop that has ended is not changed by more passes, so the
   value a loop returns (`Returns`) is unique.
2. `loop_over`: the rule for a loop that works through a list. Its invariant
   speaks of the items done and the items still to do; the loop then takes one
   pass for each item.
3. `times_chain`: a counted loop whose body leads from each item of a list to the
   next one.
-/

namespace Pdrad

variable {σ α β : Type}

/-- What a pass of a loop decides: go round again, or leave. -/
inductive Flow (σ : Type) where
  | again (s : σ)
  | stop (s : σ)

/-- Run `body` for at most the given number of passes. -/
def loop (body : σ → Option (Flow σ)) : Nat → σ → Option σ
  | 0, _ => none
  | n + 1, s =>
    match body s with
    | none => none
    | some (.again s') => loop body n s'
    | some (.stop s') => some s'

/-- `Returns f a`: given enough passes, `f` ends with `a`. -/
def Returns (f : Nat → Option α) (a : α) : Prop :=
  ∃ n, ∀ k, n ≤ k → f k = some a

theorem Returns.unique {f : Nat → Option α} {a b : α} (ha : Returns f a) (hb : Returns f b) :
    a = b := by
  obtain ⟨n, hn⟩ := ha
  obtain ⟨k, hk⟩ := hb
  have h := (hn (n + k) (by omega)).symm.trans (hk (n + k) (by omega))
  exact Option.some.inj h

/-- What holds of some value returned holds of the one there is. -/
theorem Returns.exists_iff {f : Nat → Option α} {a : α} {P : α → Prop} (ha : Returns f a) :
    (∃ b, Returns f b ∧ P b) ↔ P a := by
  constructor
  · rintro ⟨b, hb, h⟩
    rwa [hb.unique ha] at h
  · exact fun h => ⟨a, ha, h⟩

/-- One run that ends tells something of the value returned. -/
theorem Returns.map_eq {f : Nat → Option α} {a : α} {b : β} {g : α → β} {n : Nat} (ha : Returns f a)
    (hreturns : ∀ {c}, f n = some c → Returns f c) (hrun : (f n).map g = some b) : g a = b := by
  obtain ⟨c, hc, hb⟩ := Option.map_eq_some_iff.mp hrun
  rwa [ha.unique (hreturns hc)]

section

variable {body : σ → Option (Flow σ)}

theorem loop_again {n : Nat} {s s' : σ} (h : body s = some (.again s')) :
    loop body (n + 1) s = loop body n s' := by
  simp [loop, h]

theorem loop_stop {n : Nat} {s s' : σ} (h : body s = some (.stop s')) :
    loop body (n + 1) s = some s' := by
  simp [loop, h]

theorem loop_mono {n k : Nat} {s s' : σ} (hnk : n ≤ k) (h : loop body n s = some s') :
    loop body k s = some s' := by
  induction n generalizing s k with
  | zero => simp [loop] at h
  | succ n ih =>
    obtain ⟨k, rfl⟩ := Nat.exists_eq_add_of_lt (Nat.lt_of_succ_le hnk)
    cases hb : body s with
    | none => simp [loop, hb] at h
    | some flow =>
      cases flow with
      | stop t =>
        rw [loop_stop hb] at h
        rwa [loop_stop hb]
      | again t =>
        rw [loop_again hb] at h
        rw [loop_again hb]
        exact ih (by omega) h

/-- A loop that works through a list. `At ds ys s` says that the items `ds` are
done, that `ys` are to do, and that `s` is the state before the first of them.
A pass does one item, and leaves the loop at the last one. -/
theorem loop_over (At : List α → List α → σ → Prop) (Done : List α → σ → Prop)
    (hnext : ∀ ds x y ys s, At ds (x :: y :: ys) s →
      ∃ s', body s = some (.again s') ∧ At (ds ++ [x]) (y :: ys) s')
    (hlast : ∀ ds x s, At ds [x] s → ∃ s', body s = some (.stop s') ∧ Done (ds ++ [x]) s') :
    ∀ ys ds s, ys ≠ [] → At ds ys s →
      ∃ s', loop body ys.length s = some s' ∧ Done (ds ++ ys) s' := by
  intro ys
  induction ys with
  | nil => exact fun _ _ hne _ => absurd rfl hne
  | cons x ys ih =>
    intro ds s _ hat
    cases ys with
    | nil =>
      obtain ⟨s', hb, hd⟩ := hlast ds x s hat
      exact ⟨s', loop_stop hb, hd⟩
    | cons y ys =>
      obtain ⟨t, hb, hat'⟩ := hnext ds x y ys s hat
      obtain ⟨s', hr, hd⟩ := ih (ds ++ [x]) t (List.cons_ne_nil y ys) hat'
      refine ⟨s', ?_, ?_⟩
      · rw [List.length_cons, loop_again hb, hr]
      · rwa [List.append_assoc, List.singleton_append] at hd

end

/-! ## Counted loops -/

/-- `for (i = 0; i < n; ++i)`, with a body that does not use `i` and may not come back. -/
def times (body : σ → Option σ) : Nat → σ → Option σ
  | 0, s => some s
  | n + 1, s => (body s).bind (times body n)

/-- From the first item of a chain, as many items on as there are passes. -/
theorem times_chain {body : σ → Option σ} {xs : List σ} {x : σ} {n : Nat}
    (h : xs.IsChain fun x y => body x = some y) (hx : xs.head? = some x) (hn : n < xs.length) :
    times body n x = xs[n]? := by
  induction n generalizing xs x with
  | zero =>
    rw [times, ← List.head?_eq_getElem?, hx]
  | succ n ih =>
    cases xs with
    | nil => cases hx
    | cons y xs =>
      obtain rfl : y = x := Option.some.inj hx
      cases xs with
      | nil => exact absurd hn (by simp)
      | cons z xs =>
        obtain ⟨hyz, hrest⟩ := List.isChain_cons_cons.mp h
        have hlt : n < (z :: xs).length := Nat.lt_of_succ_lt_succ hn
        rw [times, hyz, Option.bind_some, ih hrest rfl hlt, List.getElem?_cons_succ]

end Pdrad
