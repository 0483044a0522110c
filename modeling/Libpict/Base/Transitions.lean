import Mathlib.Tactic.Common

/-! # Runs of a transition relation

A step relation whose steps carry events: runs and the events they make, invariants of
all their states, and watches that follow the events in a state of their own.
-/

namespace Transitions

variable {S E F Q : Type*}

/-! ## Runs -/

/-- A run, with its events in order. -/
inductive Runs (step : S → E → S → Prop) : S → List E → S → Prop
  | nil (s : S) : Runs step s [] s
  | cons {s t u : S} {event : E} {events : List E} :
      step s event t → Runs step t events u → Runs step s (event :: events) u

section Runs

variable {step : S → E → S → Prop} {s t u : S} {event : E} {events events' : List E}

theorem Runs.single (hstep : step s event t) : Runs step s [event] t := .cons hstep (.nil t)

theorem Runs.append (hfirst : Runs step s events t) (hsecond : Runs step t events' u) :
    Runs step s (events ++ events') u := by
  induction hfirst with
  | nil => exact hsecond
  | cons hstep _ ih => exact .cons hstep (ih hsecond)

theorem Runs.snoc (hrun : Runs step s events t) (hstep : step t event u) :
    Runs step s (events ++ [event]) u := hrun.append (.single hstep)

/-- A run with its events renamed. -/
theorem Runs.map {step' : S → F → S → Prop} (f : E → F)
    (hstep : ∀ s event t, step s event t → step' s (f event) t) (hrun : Runs step s events t) :
    Runs step' s (events.map f) t := by
  induction hrun with
  | nil => exact .nil _
  | cons hfirst _ ih => exact .cons (hstep _ _ _ hfirst) ih

/-- What every step keeps holds at the end of a run. -/
theorem Runs.invariant (inv : S → Prop) (hrun : Runs step s events t)
    (hstep : ∀ s event t, inv s → step s event t → inv t) (hinv : inv s) : inv t := by
  induction hrun with
  | nil => exact hinv
  | cons hfirst _ ih => exact ih (hstep _ _ _ hinv hfirst)

/-- What an invariant says of the step ahead holds of every event of a run. -/
theorem Runs.forall_events (inv : S → Prop) {good : E → Prop} (hrun : Runs step s events t)
    (hstep : ∀ s event t, inv s → step s event t → inv t ∧ good event) (hinv : inv s) :
    ∀ event ∈ events, good event := by
  induction hrun with
  | nil => simp
  | cons hfirst _ ih =>
      obtain ⟨hnext, hgood⟩ := hstep _ _ _ hinv hfirst
      exact List.forall_mem_cons.mpr ⟨hgood, ih hnext⟩

end Runs

/-! ## Watches -/

/-- A watch over events: how they move its state, and which of them it allows there. -/
structure Watch (Q E : Type*) where
  next : Q → E → Q
  allows : Q → E → Prop

namespace Watch

variable (watch : Watch Q E)

/-- The state of the watch behind some events. -/
def after (q : Q) (events : List E) : Q := events.foldl watch.next q

/-- Every event is allowed where it comes. -/
def Obeyed : Q → List E → Prop
  | _, [] => True
  | q, event :: events => watch.allows q event ∧ Obeyed (watch.next q event) events

@[simp] theorem after_nil (q : Q) : watch.after q [] = q := rfl

@[simp] theorem after_append (q : Q) (events events' : List E) :
    watch.after q (events ++ events') = watch.after (watch.after q events) events' :=
  List.foldl_append ..

theorem after_snoc (q : Q) (events : List E) (event : E) :
    watch.after q (events ++ [event]) = watch.next (watch.after q events) event := by
  rw [after_append]
  rfl

@[simp] theorem obeyed_nil (q : Q) : watch.Obeyed q [] := trivial

theorem obeyed_append (q : Q) (events events' : List E) :
    watch.Obeyed q (events ++ events') ↔
      watch.Obeyed q events ∧ watch.Obeyed (watch.after q events) events' := by
  induction events generalizing q with
  | nil => simp
  | cons event events ih =>
      rw [List.cons_append, Obeyed, Obeyed, ih, and_assoc]
      rfl

/-- A watch that moves alike and allows more is obeyed wherever the stricter one is. -/
theorem Obeyed.mono {watch watch' : Watch Q E} {q : Q} {events : List E}
    (hobeyed : watch.Obeyed q events) (hnext : watch.next = watch'.next)
    (hallows : ∀ q event, watch.allows q event → watch'.allows q event) :
    watch'.Obeyed q events := by
  induction events generalizing q with
  | nil => trivial
  | cons event events ih =>
      obtain ⟨hfirst, hrest⟩ := hobeyed
      exact ⟨hallows q event hfirst, ih (hnext ▸ hrest)⟩

end Watch

end Transitions
