import Libpict.Base.Exec
import Libpict.Base.Transitions

/-! # Sequences that stop at the first failure

Computations that return an error code, 0 for success, run one after the other until one
of them fails.
-/

namespace Exec

open Transitions

variable {ε σ ι : Type}

/-- Run the computations in order until one yields a code other than 0. -/
def untilFailure : List (EStateM ε σ Int) → EStateM ε σ Int
  | [] => pure 0
  | x :: rest => do
      let rc ← x
      if rc ≠ 0 then pure rc else untilFailure rest

/-- An item is run and yields a code. -/
def Yield (f : ι → EStateM ε σ Int) (s : σ) (event : ι × Int) (t : σ) : Prop :=
  f event.1 s = .ok event.2 t

/-- How a sequence has run: `events` are the items that were run, with their codes. -/
structure Sequenced (f : ι → EStateM ε σ Int) (items : List ι) (s : σ) (rc : Int) (t : σ)
    (events : List (ι × Int)) : Prop where
  runs : Runs (Yield f) s events t
  completed : rc = 0 → events = items.map (·, 0)
  stopped : rc ≠ 0 → ∃ done item rest, items = done ++ item :: rest ∧
    events = done.map (·, 0) ++ [(item, rc)]

variable {f : ι → EStateM ε σ Int} {items : List ι} {s t : σ} {rc : Int}

theorem Sequenced.nil (f : ι → EStateM ε σ Int) (s : σ) : Sequenced f [] s 0 s [] where
  runs := .nil s
  completed _ := rfl
  stopped h := absurd rfl h

theorem Sequenced.cons {item : ι} {middle : σ} {events : List (ι × Int)}
    (hfirst : f item s = .ok 0 middle) (hrest : Sequenced f items middle rc t events) :
    Sequenced f (item :: items) s rc t ((item, 0) :: events) where
  runs := .cons hfirst hrest.runs
  completed hrc := by rw [hrest.completed hrc, List.map_cons]
  stopped hrc := by
    obtain ⟨done, last, rest, hitems, hevents⟩ := hrest.stopped hrc
    exact ⟨item :: done, last, rest, by rw [hitems, List.cons_append],
      by rw [hevents, List.map_cons, List.cons_append]⟩

theorem Sequenced.failed {item : ι} (hfirst : f item s = .ok rc t) (hrc : rc ≠ 0)
    (items : List ι) : Sequenced f (item :: items) s rc t [(item, rc)] where
  runs := .single hfirst
  completed h := absurd h hrc
  stopped _ := ⟨[], item, items, rfl, rfl⟩

/-- A sequence that returns has run its items in order, up to the first that failed. -/
theorem untilFailure_sequenced (hrun : untilFailure (items.map f) s = .ok rc t) :
    ∃ events, Sequenced f items s rc t events := by
  induction items generalizing s with
  | nil =>
      obtain ⟨rfl, rfl⟩ := EStateM.Result.ok.inj hrun
      exact ⟨[], .nil f s⟩
  | cons item items ih =>
      obtain ⟨code, middle, hfirst, hrest⟩ := bind_eq_ok.mp hrun
      by_cases hcode : code = 0
      · subst hcode
        obtain ⟨events, hevents⟩ := ih hrest
        exact ⟨_, hevents.cons hfirst⟩
      · rw [if_pos hcode] at hrest
        obtain ⟨rfl, rfl⟩ := EStateM.Result.ok.inj hrest
        exact ⟨_, .failed hfirst hcode items⟩

theorem map_fst_codes (items : List ι) : (items.map (·, (0 : Int))).map Prod.fst = items := by
  induction items with
  | nil => rfl
  | cons item items ih => rw [List.map_cons, List.map_cons, ih]

/-- The items that were run come first in the sequence. -/
theorem Sequenced.front {events : List (ι × Int)} (hsequenced : Sequenced f items s rc t events) :
    events.map Prod.fst <+: items := by
  by_cases hrc : rc = 0
  · have hall : events.map Prod.fst = items := by rw [hsequenced.completed hrc, map_fst_codes]
    exact ⟨[], by rw [List.append_nil, hall]⟩
  · obtain ⟨done, item, rest, hitems, hevents⟩ := hsequenced.stopped hrc
    refine ⟨rest, ?_⟩
    simp only [hevents, hitems, List.map_append, map_fst_codes, List.map_cons, List.map_nil,
      List.append_assoc, List.cons_append, List.nil_append]

end Exec
