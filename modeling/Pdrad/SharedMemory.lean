import Mathlib.Data.List.Basic

/-!
# Shared memory: a mutex, and records copied field by field

Threads lock a mutex, work inside its section and unlock it. A record is copied to
another one a field at a time, in any order; in between, the destination has some fields
of the source and some of what it was before.

1. `Guarded.step`: the owner of the mutex is the thread inside the section, whatever a
   thread does to it.
2. `Guarded.unique`: at most one thread is inside.
3. `Partly.start`, `Partly.copy`, `Partly.done`: the rules for a copy. It ends with the
   source, whatever the order was.
-/

namespace Pdrad

/-! ## The mutex -/

section

variable {τ : Type} {owner owner' : Option τ} {inside inside' : τ → Prop} {i j : τ}

/-- The owner of the mutex is the thread inside the section. -/
def Guarded (owner : Option τ) (inside : τ → Prop) : Prop :=
  ∀ i, inside i ↔ owner = some i

/-- What a step of the thread `i` can do to the mutex: lock it when it is free and come
in, go out and unlock it, or neither. -/
inductive SectionStep (owner owner' : Option τ) (i : τ) (inside inside' : τ → Prop) : Prop where
  | lock : owner = none → owner' = some i → inside' i → SectionStep owner owner' i inside inside'
  | unlock : inside i → owner' = none → ¬ inside' i → SectionStep owner owner' i inside inside'
  | keep : owner' = owner → (inside' i ↔ inside i) → SectionStep owner owner' i inside inside'

namespace Guarded

theorem unique (h : Guarded owner inside) (hi : inside i) (hj : inside j) : i = j :=
  Option.some.inj (((h i).mp hi).symm.trans ((h j).mp hj))

theorem outside (h : Guarded owner inside) (hi : inside i) (hj : j ≠ i) : ¬ inside j :=
  fun hinside => hj (h.unique hinside hi)

/-- The others stay where they are. -/
theorem step (h : Guarded owner inside) (hstep : SectionStep owner owner' i inside inside')
    (hothers : ∀ j, j ≠ i → (inside' j ↔ inside j)) : Guarded owner' inside' := by
  intro j
  by_cases hj : j = i
  · subst hj
    cases hstep with
    | lock _ howner henters => exact iff_of_true henters howner
    | unlock _ howner hleaves => exact iff_of_false hleaves (by rw [howner]; exact nofun)
    | keep howner hsame => rw [hsame, howner, h j]
  · have hkept : inside' j ↔ owner = some j := (hothers j hj).trans (h j)
    cases hstep with
    | lock hfree howner _ =>
      rw [hkept, hfree, howner]
      exact iff_of_false nofun fun hsome => hj (Option.some.inj hsome).symm
    | unlock hinside howner _ =>
      rw [hkept, howner]
      exact iff_of_false (mt (h j).mpr (h.outside hinside hj)) nofun
    | keep howner _ => rw [hkept, howner]

end Guarded

end

/-! ## Copies -/

/-- The records `α` with the fields `φ`: `get` reads one, and `copy f src dst` is `dst`
with the field `f` of `src`. -/
structure Fields (φ α : Type) where
  type : φ → Type
  get : (f : φ) → α → type f
  copy : φ → α → α → α
  get_copy : ∀ f src dst, get f (copy f src dst) = get f src
  get_copy_of_ne : ∀ {f g} src dst, g ≠ f → get g (copy f src dst) = get g dst
  ext : ∀ {p q}, (∀ f, get f p = get f q) → p = q

namespace Fields

variable {φ α : Type} [DecidableEq φ] (R : Fields φ α)

/-- `dst` is a copy of `src` but for the fields `todo`, which are still those of `old`. -/
def Partly (src old : α) (todo : List φ) (dst : α) : Prop :=
  ∀ f, R.get f dst = R.get f (if f ∈ todo then old else src)

/-- What is left to copy behind the field `f`. -/
def without (f : φ) (todo : List φ) : List φ :=
  todo.filter fun g => g ≠ f

theorem length_without {f : φ} {todo : List φ} (hf : f ∈ todo) :
    (without f todo).length < todo.length := by
  refine List.length_filter_lt_length_iff_exists.mpr ⟨f, hf, ?_⟩
  simp

namespace Partly

variable {R} {src old dst : α} {todo : List φ}

theorem start (hall : ∀ f, f ∈ todo) (src old : α) : R.Partly src old todo old := by
  intro f
  rw [if_pos (hall f)]

theorem copy (h : R.Partly src old todo dst) (f : φ) :
    R.Partly src old (without f todo) (R.copy f src dst) := by
  intro g
  by_cases hg : g = f
  · subst hg
    have hdone : g ∉ without g todo := by simp [without]
    rw [R.get_copy, if_neg hdone]
  · have hsame : g ∈ without f todo ↔ g ∈ todo := by simp [without, hg]
    rw [R.get_copy_of_ne src dst hg, h g]
    simp only [hsame]

theorem done (h : R.Partly src old [] dst) : dst = src := by
  refine R.ext fun f => ?_
  rw [h f, if_neg List.not_mem_nil]

end Partly

end Fields

end Pdrad
