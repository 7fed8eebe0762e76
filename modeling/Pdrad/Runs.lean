import Mathlib.Data.List.Induction

/-!
# Runs of a transition system

A transition system is a relation `step s e t`: in the state `s` the event `e` can
happen and lead to `t`. Nothing is said about which events happen or in what order.

1. `Run.invariant`: what holds at the start and is kept by every step holds at
   the end of every run.
2. `Run.invariant_while`, `Run.invariant_of_events`: the same for the runs whose
   steps all meet a condition on the state and the event, or on the event alone.
3. `Run.onTheWay_iff`: when such a condition is just what keeps all states of a run
   in a property.
4. `Run.trace_invariant`: an invariant that also speaks of the events so far.
5. `Run.count_add_le`: a potential bounds how often an event can happen.
6. `Run.simulation`: when each step is matched by a run of another system, then so is
   each run, and the two can be observed in the same way.
-/

namespace Pdrad

variable {σ ε : Type}

/-- From `s`, the events `es` can happen one after the other and lead to `t`. -/
inductive Run (step : σ → ε → σ → Prop) (s : σ) : List ε → σ → Prop where
  | nil : Run step s [] s
  | snoc {es : List ε} {e : ε} {t u : σ} : Run step s es t → step t e u → Run step s (es ++ [e]) u

namespace Run

variable {step : σ → ε → σ → Prop} {s t : σ} {es : List ε}

/-- A run of one event. -/
theorem single {e : ε} (h : step s e t) : Run step s [e] t :=
  .snoc .nil h

theorem append {u : σ} {fs : List ε} (h : Run step s es t) (h' : Run step t fs u) :
    Run step s (es ++ fs) u := by
  induction h' with
  | nil => rwa [List.append_nil]
  | snoc _ hlast ih =>
    rw [← List.append_assoc]
    exact .snoc ih hlast

theorem cons {u : σ} {e : ε} (h : step s e t) (h' : Run step t es u) : Run step s (e :: es) u :=
  append (single h) h'

theorem invariant {I : σ → Prop} (hstep : ∀ s e t, I s → step s e t → I t) (hs : I s)
    (h : Run step s es t) : I t := by
  induction h with
  | nil => exact hs
  | snoc _ hlast ih => exact hstep _ _ _ ih hlast

/-- The steps of `step` that meet the condition `ok`. -/
def While (ok : σ → ε → Prop) (step : σ → ε → σ → Prop) (s : σ) (e : ε) (t : σ) : Prop :=
  ok s e ∧ step s e t

theorem invariant_while {I : σ → Prop} {ok : σ → ε → Prop}
    (hstep : ∀ s e t, I s → ok s e → step s e t → I t) (hs : I s)
    (h : Run (While ok step) s es t) : I t :=
  h.invariant (fun _ _ _ hI hst => hstep _ _ _ hI hst.1 hst.2) hs

/-- The same where the condition is on the event alone. -/
theorem invariant_of_events {I : σ → Prop} {ok : ε → Prop}
    (hstep : ∀ s e t, I s → ok e → step s e t → I t) (hs : I s) (h : Run step s es t)
    (hok : ∀ e ∈ es, ok e) : I t := by
  induction h with
  | nil => exact hs
  | snoc _ hlast ih =>
    obtain ⟨hbefore, hlastOk⟩ := List.forall_mem_append.mp hok
    exact hstep _ _ _ (ih hbefore) (hlastOk _ List.mem_cons_self) hlast

/-- All states on the way of the events `es` have the property `P`, the last one
included. -/
def OnTheWay (step : σ → ε → σ → Prop) (s : σ) (P : σ → Prop) (es : List ε) : Prop :=
  ∀ fs u, fs <+: es → Run step s fs u → P u

/-- When the allowed events keep `I`, which has the property `P`, and no other leads
from it to a state that has `P`, then all states on the way of a run have `P` exactly
when all of its events are allowed. -/
theorem onTheWay_iff {I P : σ → Prop} {ok : ε → Prop}
    (hkept : ∀ s e t, I s → ok e → step s e t → I t)
    (hmet : ∀ s e t, I s → step s e t → P t → ok e) (hP : ∀ s, I s → P s) (hs : I s)
    (h : Run step s es t) :
    OnTheWay step s P es ↔ ∀ e ∈ es, ok e := by
  constructor
  · induction h with
    | nil => exact fun _ _ he => nomatch he
    | snoc hbefore hlast ih =>
      intro hall
      have hfirst := ih fun fs u hfs => hall fs u (hfs.trans (List.prefix_append _ _))
      -- the events before the last one are allowed, so `I` holds where it happens
      have hI := invariant_of_events hkept hs hbefore hfirst
      have hlastOk := hmet _ _ _ hI hlast (hall _ _ (List.prefix_refl _) (.snoc hbefore hlast))
      exact List.forall_mem_append.mpr ⟨hfirst, List.forall_mem_singleton.mpr hlastOk⟩
  · intro hok fs u hfs hrun
    exact hP u (invariant_of_events hkept hs hrun fun e he => hok e (hfs.subset he))

/-- A run that ends with `e` makes this step last. -/
theorem unsnoc {e : ε} (h : Run step s (es ++ [e]) t) : ∃ u, Run step s es u ∧ step u e t := by
  generalize hall : es ++ [e] = all at h
  cases h with
  | nil => exact absurd hall (List.append_ne_nil_of_right_ne_nil es (List.cons_ne_nil e []))
  | snoc hbefore hlast =>
    obtain ⟨rfl, he⟩ := List.append_inj' hall rfl
    obtain rfl := List.head_eq_of_cons_eq he
    exact ⟨_, hbefore, hlast⟩

/-- The run of the first events, and the rest of it. -/
theorem split {fs : List ε} (h : Run step s (es ++ fs) t) :
    ∃ u, Run step s es u ∧ Run step u fs t := by
  induction fs using List.reverseRecOn generalizing t with
  | nil => exact ⟨t, by rwa [List.append_nil] at h, .nil⟩
  | append_singleton fs f ih =>
    rw [← List.append_assoc] at h
    obtain ⟨u, hbefore, hlast⟩ := h.unsnoc
    obtain ⟨v, hfirst, hrest⟩ := ih hbefore
    exact ⟨v, hfirst, .snoc hrest hlast⟩

/-- The run up to one of its events, the step that this event makes, and the rest. -/
theorem split_cons {fs : List ε} {e : ε} (h : Run step s (es ++ e :: fs) t) :
    ∃ u v, Run step s es u ∧ step u e v ∧ Run step v fs t := by
  rw [List.append_cons] at h
  obtain ⟨v, hfirst, hrest⟩ := h.split
  obtain ⟨u, hbefore, hlast⟩ := hfirst.unsnoc
  exact ⟨u, v, hbefore, hlast, hrest⟩

/-! ### Events and observations -/

/-- An invariant of the events so far and the state they have led to. -/
theorem trace_invariant {I : List ε → σ → Prop}
    (hstep : ∀ es s e t, I es s → step s e t → I (es ++ [e]) t) (hs : I [] s)
    (h : Run step s es t) : I es t := by
  induction h with
  | nil => exact hs
  | snoc _ hlast ih => exact hstep _ _ _ _ ih hlast

/-- No step raises the potential `f`, and those with the events `p` lower it. -/
theorem count_add_le {I : σ → Prop} {p : ε → Bool} {f : σ → Nat}
    (hkept : ∀ s e t, I s → step s e t → I t) (hle : ∀ s e t, I s → step s e t → f t ≤ f s)
    (hlt : ∀ s e t, I s → step s e t → p e = true → f t < f s) (hs : I s)
    (h : Run step s es t) : es.countP p + f t ≤ f s := by
  induction h with
  | nil => exact Nat.le_of_eq (Nat.zero_add _)
  | @snoc es e t u hbefore hlast ih =>
    have hI := hbefore.invariant hkept hs
    rw [List.countP_append, List.countP_singleton]
    split
    · next hp =>
      have hless := hlt _ _ _ hI hlast hp
      omega
    · have hmost := hle _ _ _ hI hlast
      omega

section

variable {σ' ε' ο : Type} {step' : σ' → ε' → σ' → Prop} {a : σ'}

/-- Each step is matched by a run of the other system that is observed in the same way.
So are all of them. -/
theorem simulation {R : σ → σ' → Prop} {obs : ε → Option ο} {obs' : ε' → Option ο}
    (hstep : ∀ s e t a, R s a → step s e t →
      ∃ fs b, Run step' a fs b ∧ R t b ∧ fs.filterMap obs' = [e].filterMap obs)
    (hs : R s a) (h : Run step s es t) :
    ∃ fs b, Run step' a fs b ∧ R t b ∧ fs.filterMap obs' = es.filterMap obs := by
  induction h with
  | nil => exact ⟨[], a, .nil, hs, rfl⟩
  | snoc _ hlast ih =>
    obtain ⟨fs, b, hrun, hR, hobs⟩ := ih
    obtain ⟨gs, c, hmatch, hR', hobs'⟩ := hstep _ _ _ _ hR hlast
    refine ⟨fs ++ gs, c, hrun.append hmatch, hR', ?_⟩
    rw [List.filterMap_append, List.filterMap_append, hobs, hobs']

/-- The same where the other system makes one step for some of the events, and none for
the others. -/
theorem simulation_of_events {R : σ → σ' → Prop} {obs : ε → Option ε'}
    (hsome : ∀ s e t a f, R s a → step s e t → obs e = some f → ∃ b, step' a f b ∧ R t b)
    (hnone : ∀ s e t a, R s a → step s e t → obs e = none → R t a)
    (hs : R s a) (h : Run step s es t) : ∃ b, Run step' a (es.filterMap obs) b ∧ R t b := by
  induction h with
  | nil => exact ⟨a, .nil, hs⟩
  | @snoc es e t u _ hlast ih =>
    obtain ⟨b, hrun, hR⟩ := ih
    rw [List.filterMap_append]
    cases hobs : obs e with
    | none =>
      rw [List.filterMap_cons_none hobs, List.filterMap_nil, List.append_nil]
      exact ⟨b, hrun, hnone _ _ _ _ hR hlast hobs⟩
    | some f =>
      obtain ⟨c, hmatch, hR'⟩ := hsome _ _ _ _ _ hR hlast hobs
      rw [List.filterMap_cons_some hobs, List.filterMap_nil]
      exact ⟨c, .snoc hrun hmatch, hR'⟩

end

end Run

end Pdrad
