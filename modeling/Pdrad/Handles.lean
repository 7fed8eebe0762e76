import Mathlib.Data.List.Count

/-!
# Handles: acquire, use, release

A program acquires handles, uses them and releases them. A trace of such
operations is well used when everything but an acquisition is applied to a handle
that is held at that point.

1. `wellUsed_append`: a trace is checked piece by piece.
2. `count_held`: what is held in the end is what was acquired and not released.
-/

namespace Pdrad

/-- An operation on a handle. -/
inductive HandleOp (α : Type) where
  | acquire (h : α)
  | use (h : α)
  | release (h : α)
deriving DecidableEq

namespace HandleOp

variable {α : Type} [DecidableEq α]

/-- The handles held after one operation. -/
def heldAfter (held : List α) : HandleOp α → List α
  | .acquire h => h :: held
  | .use _ => held
  | .release h => held.erase h

/-- The handles held after a trace. -/
def held : List α → List (HandleOp α) → List α
  | hs, [] => hs
  | hs, op :: ops => held (heldAfter hs op) ops

/-- May the operation be applied now? -/
def Allowed (held : List α) : HandleOp α → Prop
  | .acquire _ => True
  | .use h => h ∈ held
  | .release h => h ∈ held

/-- Every operation of the trace may be applied when its turn comes. -/
def WellUsed : List α → List (HandleOp α) → Prop
  | _, [] => True
  | hs, op :: ops => Allowed hs op ∧ WellUsed (heldAfter hs op) ops

/-- Every acquisition is followed by one release, and there are no others. -/
def ReleasedOnce (ops : List (HandleOp α)) : Prop :=
  ∀ h, ops.count (.release h) = ops.count (.acquire h)

theorem held_append (hs : List α) (xs ys : List (HandleOp α)) :
    held hs (xs ++ ys) = held (held hs xs) ys := by
  induction xs generalizing hs with
  | nil => rfl
  | cons x xs ih => exact ih (heldAfter hs x)

theorem wellUsed_append {hs : List α} {xs ys : List (HandleOp α)} :
    WellUsed hs (xs ++ ys) ↔ WellUsed hs xs ∧ WellUsed (held hs xs) ys := by
  induction xs generalizing hs with
  | nil => simp [WellUsed, held]
  | cons x xs ih => simp only [List.cons_append, WellUsed, held, ih, and_assoc]

/-- The handles held at the end of a well used trace are those acquired and not
released. -/
theorem count_held {hs : List α} {ops : List (HandleOp α)} (h : WellUsed hs ops) (x : α) :
    (held hs ops).count x + ops.count (.release x) = hs.count x + ops.count (.acquire x) := by
  induction ops generalizing hs with
  | nil => rfl
  | cons op ops ih =>
    obtain ⟨hallowed, hrest⟩ := h
    have hih := ih hrest
    cases op with
    | acquire y =>
      simp only [held, heldAfter, List.count_cons] at hih ⊢
      by_cases hxy : y = x
      · simp [hxy] at hih ⊢
        omega
      · simp [hxy] at hih ⊢
        omega
    | use y => simpa [held, heldAfter] using hih
    | release y =>
      simp only [held, heldAfter, List.count_cons] at hih ⊢
      by_cases hxy : y = x
      · subst hxy
        have hpos : 0 < hs.count y := List.count_pos_iff.mpr hallowed
        simp [List.count_erase_self] at hih ⊢
        omega
      · simp [hxy, List.count_erase_of_ne (Ne.symm hxy)] at hih ⊢
        omega

/-- A well used trace that starts with nothing releases once what it acquires
exactly when nothing is held at its end. -/
theorem releasedOnce_iff {ops : List (HandleOp α)} (h : WellUsed [] ops) :
    ReleasedOnce ops ↔ held [] ops = [] := by
  constructor
  · intro honce
    rw [List.eq_nil_iff_forall_not_mem]
    intro x hx
    have hcount := count_held h x
    have hpos := List.count_pos_iff.mpr hx
    rw [honce x, List.count_nil] at hcount
    omega
  · intro hnil x
    have hcount := count_held h x
    rw [hnil, List.count_nil] at hcount
    omega

end HandleOp

end Pdrad
