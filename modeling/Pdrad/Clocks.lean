import Mathlib.Algebra.Ring.Nat
import Mathlib.Logic.Function.Basic
import Pdrad.Runs

/-!
# Runs with a clock

A transition system whose threads sleep. An event can put a thread to sleep for a number of
seconds; another one is its first behind the sleep, and does not happen before the time is
over. Some events interrupt the sleep of the threads. Nothing else takes a time that is
known, and nothing has to happen by any time.

1. `Clocked.erase`, `exists_clocked`: with a clock there are the same runs as without;
   `at_once`: one of them where nobody sleeps.
2. `Clocked.ready_mono`: what a thread sleeps for is not forgotten.
3. `Clocked.ready_le`: it does not go on before.
-/

namespace Pdrad

variable {σ ε τ : Type}

/-- What the events have to do with sleeping. -/
structure Sleeps (σ ε τ : Type) where
  /-- Who falls asleep, and for how long, when the event leads to the state. -/
  falls : ε → σ → Option (τ × Nat)
  /-- Whose first event it is behind a sleep. -/
  wakes : ε → Option τ
  interrupts : ε → Bool

/-- A state at the time `now`. The thread `i` sleeps until `wake i`, if this is later. -/
structure Clocked (σ τ : Type) where
  state : σ
  now : Nat
  wake : τ → Nat

namespace Clocked

/-- At the time 0 nobody sleeps. -/
def start (s : σ) : Clocked σ τ where
  state := s
  now := 0
  wake := fun _ => 0

/-- Until when the threads sleep behind the event `e`. -/
def wakeAfter [DecidableEq τ] (z : Sleeps σ ε τ) (wake : τ → Nat) (time : Nat) (e : ε) (t : σ) :
    τ → Nat :=
  if z.interrupts e = true then fun _ => 0
  else match z.falls e t with
    | some (i, n) => Function.update wake i (max (wake i) (time + n))
    | none => wake

/-- An event happens at a time that is not before the last one. -/
inductive Step [DecidableEq τ] (z : Sleeps σ ε τ) (step : σ → ε → σ → Prop) (s : Clocked σ τ) :
    Nat × ε → Clocked σ τ → Prop where
  | happens (time : Nat) {e : ε} {t : σ} : s.now ≤ time → (∀ i, z.wakes e = some i → s.wake i ≤ time) →
      step s.state e t → Step z step s (time, e) ⟨t, time, wakeAfter z s.wake time e t⟩

/-- The thread `i` does not go on before this time. -/
def ready (s : Clocked σ τ) (i : τ) : Nat :=
  max s.now (s.wake i)

variable [DecidableEq τ] {z : Sleeps σ ε τ} {step : σ → ε → σ → Prop} {s t : Clocked σ τ}
  {es : List (Nat × ε)} {i : τ}

/-! ## The same runs -/

/-- Without the times it is a run. -/
theorem erase (h : Run (Step z step) s es t) : Run step s.state (es.map Prod.snd) t.state := by
  induction h with
  | nil => exact .nil
  | snoc _ hlast ih =>
    rw [List.map_append]
    cases hlast with
    | happens _ _ _ hstep => exact .snoc ih hstep

/-- Every run can happen: there are times for its events. -/
theorem exists_clocked {fs : List ε} {u : σ} (h : Run step s.state fs u) :
    ∃ es t, Run (Step z step) s es t ∧ es.map Prod.snd = fs ∧ t.state = u := by
  induction h with
  | nil => exact ⟨[], s, .nil, rfl, rfl⟩
  | @snoc fs e _ _ _ hlast ih =>
    obtain ⟨es, t, hrun, rfl, rfl⟩ := ih
    -- whoever has to wake up first has all the time it needs
    have htime : ∃ time, t.now ≤ time ∧ ∀ i, z.wakes e = some i → t.wake i ≤ time := by
      cases hwakes : z.wakes e with
      | none => exact ⟨t.now, Nat.le_refl _, nofun⟩
      | some i =>
        refine ⟨t.ready i, Nat.le_max_left _ _, fun j hj => ?_⟩
        obtain rfl := Option.some.inj hj
        exact Nat.le_max_right _ _
    obtain ⟨time, hnow, hwake⟩ := htime
    exact ⟨es ++ [(time, e)], _, .snoc hrun (.happens time hnow hwake hlast), List.map_append, rfl⟩

/-- When nobody falls asleep, all can happen at a time at which nobody sleeps. -/
theorem at_once {fs : List ε} {u : σ} {time : Nat} (h : Run step s.state fs u)
    (hnow : s.now ≤ time) (hawake : ∀ i, s.wake i ≤ time)
    (hnone : ∀ e ∈ fs, z.interrupts e = false ∧ ∀ t, z.falls e t = none) :
    ∃ t, Run (Step z step) s (fs.map (time, ·)) t ∧ t.state = u ∧ t.now ≤ time ∧
      t.wake = s.wake := by
  induction h with
  | nil => exact ⟨s, .nil, rfl, hnow, rfl⟩
  | @snoc fs e _ u _ hlast ih =>
    obtain ⟨hbefore, hlastNone⟩ := List.forall_mem_append.mp hnone
    obtain ⟨hinterrupts, hfalls⟩ := hlastNone e List.mem_cons_self
    obtain ⟨t, hrun, rfl, hnow', hwake⟩ := ih hbefore
    have hstep : Step z step t (time, e) ⟨u, time, wakeAfter z t.wake time e u⟩ :=
      .happens time hnow' (fun i _ => hwake ▸ hawake i) hlast
    rw [List.map_append]
    refine ⟨_, .snoc hrun hstep, rfl, Nat.le_refl time, ?_⟩
    show wakeAfter z t.wake time e u = s.wake
    rw [wakeAfter, if_neg (ne_true_of_eq_false hinterrupts), hfalls]
    exact hwake

/-! ## Sleeping -/

/-- Nobody goes on earlier because of an event that interrupts nothing. -/
theorem ready_mono {e : Nat × ε} (h : Step z step s e t) (hsleeps : z.interrupts e.2 = false) :
    s.ready i ≤ t.ready i := by
  cases h with
  | @happens time e u hnow hwake hstep =>
    have hkept : s.wake i ≤ wakeAfter z s.wake time e u i := by
      rw [wakeAfter, if_neg (ne_true_of_eq_false hsleeps)]
      cases hfalls : z.falls e u with
      | none => exact Nat.le_refl _
      | some who =>
        show s.wake i ≤ Function.update s.wake who.1 _ i
        rcases eq_or_ne i who.1 with rfl | hne
        · rw [Function.update_self]
          exact Nat.le_max_left _ _
        · rw [Function.update_of_ne hne]
    exact Nat.max_le.mpr ⟨Nat.le_trans hnow (Nat.le_max_left _ _),
      Nat.le_trans hkept (Nat.le_max_right _ _)⟩

/-- Whoever falls asleep does not go on before the time is over. -/
theorem asleep {time n : Nat} {e : ε} (h : Step z step s (time, e) t)
    (hsleeps : z.interrupts e = false) (hfalls : z.falls e t.state = some (i, n)) :
    time + n ≤ t.ready i := by
  cases h with
  | happens _ hnow hwake hstep =>
    refine Nat.le_trans ?_ (Nat.le_max_right _ _)
    show time + n ≤ wakeAfter z s.wake time e _ i
    rw [wakeAfter, if_neg (ne_true_of_eq_false hsleeps), hfalls]
    show time + n ≤ Function.update s.wake i _ i
    rw [Function.update_self]
    exact Nat.le_max_right _ _

theorem now_mono {e : Nat × ε} (h : Step z step s e t) : s.now ≤ t.now ∧ t.now = e.1 := by
  cases h with
  | happens _ hnow _ _ => exact ⟨hnow, rfl⟩

/-- Who sleeps makes no event before the time is over. -/
theorem ready_le {e : Nat × ε} (h : Step z step s e t) (hwakes : z.wakes e.2 = some i) :
    s.ready i ≤ e.1 := by
  cases h with
  | happens _ hnow hwake _ => exact Nat.max_le.mpr ⟨hnow, hwake i hwakes⟩

end Clocked

end Pdrad
