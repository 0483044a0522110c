import Mathlib.Order.Defs.Unbundled
import Mathlib.Tactic.Common

/-! # Stateful computations that may stop

Rules for running a computation of the error-and-state monad: how one step and a
sequence of steps reduce, pre- and postconditions that cover both normal results
and stops, and `while (1)` loops. A loop runs a body from a loop state until the
body yields a result; a fuel argument bounds its iterations, and running out of it
is a stop of its own that no body produces.
-/

namespace Exec

variable {ε σ α β ι : Type}

/-! ## Sequencing -/

@[simp] theorem pure_run (a : α) (s : σ) : (pure a : EStateM ε σ α) s = .ok a s := rfl

@[simp] theorem bind_run (x : EStateM ε σ α) (f : α → EStateM ε σ β) (s : σ) :
    (x >>= f) s = match x s with
      | .ok a t => f a t
      | .error e t => .error e t := rfl

theorem bind_ok {x : EStateM ε σ α} {f : α → EStateM ε σ β} {s t : σ} {a : α}
    (hx : x s = .ok a t) : (x >>= f) s = f a t := by
  simp only [bind, EStateM.bind, hx]

theorem bind_error {x : EStateM ε σ α} {f : α → EStateM ε σ β} {s t : σ} {e : ε}
    (hx : x s = .error e t) : (x >>= f) s = .error e t := by
  simp only [bind, EStateM.bind, hx]

theorem bind_eq_ok {x : EStateM ε σ α} {f : α → EStateM ε σ β} {s t : σ} {b : β} :
    (x >>= f) s = .ok b t ↔ ∃ a middle, x s = .ok a middle ∧ f a middle = .ok b t := by
  constructor
  · intro hrun
    cases hx : x s with
    | ok a middle => exact ⟨a, middle, rfl, by rwa [bind_ok hx] at hrun⟩
    | error e middle => rw [bind_error hx] at hrun; cases hrun
  · rintro ⟨a, middle, hx, hf⟩
    rw [bind_ok hx, hf]

/-- A result stays if the two parts keep theirs. -/
theorem ok_bind_mono {x x' : Except ε α} {f f' : α → Except ε β}
    (hx : ∀ {a}, x = .ok a → x' = .ok a) (hf : ∀ {a b}, f a = .ok b → f' a = .ok b) {b : β}
    (hrun : x >>= f = .ok b) : x' >>= f' = .ok b := by
  cases hfirst : x with
  | error reason =>
      rw [hfirst] at hrun
      cases hrun
  | ok a =>
      rw [hfirst] at hrun
      rw [hx hfirst]
      exact hf hrun

theorem ok_bind {x : Except ε α} {f : α → Except ε β} {a : α} (hx : x = .ok a) :
    (x >>= f) = f a := by
  rw [hx]
  rfl

theorem except_bind_eq_ok {x : Except ε α} {f : α → Except ε β} {b : β} :
    (x >>= f) = .ok b ↔ ∃ a, x = .ok a ∧ f a = .ok b := by
  cases x with
  | error e => simp [bind, Except.bind]
  | ok a => simp [bind, Except.bind]

/-! ## Postconditions -/

/-- Every normal result satisfies `post` and every stop satisfies `stop`. -/
structure Ends (x : EStateM ε σ α) (s : σ) (post : α → σ → Prop) (stop : ε → σ → Prop) : Prop where
  of_ok : ∀ {a t}, x s = .ok a t → post a t
  of_error : ∀ {e t}, x s = .error e t → stop e t

/-- Wherever the run ends, normally or not, `post` holds. -/
abbrev EndsIn (x : EStateM ε σ α) (s : σ) (post : σ → Prop) : Prop :=
  Ends x s (fun _ t => post t) (fun _ t => post t)

section Ends

variable {x : EStateM ε σ α} {s : σ} {post : α → σ → Prop} {stop : ε → σ → Prop}

theorem Ends.of_match (hends : match x s with
    | .ok a t => post a t
    | .error e t => stop e t) : Ends x s post stop := by
  constructor
  · intro a t hx
    simpa only [hx] using hends
  · intro e t hx
    simpa only [hx] using hends

theorem Ends.ok {a : α} {t : σ} (hx : x s = .ok a t) (hpost : post a t) : Ends x s post stop :=
  .of_match (by simpa only [hx] using hpost)

theorem Ends.error {e : ε} {t : σ} (hx : x s = .error e t) (hstop : stop e t) :
    Ends x s post stop := .of_match (by simpa only [hx] using hstop)

/-- Only the run matters. -/
theorem Ends.congr {y : EStateM ε σ α} {t : σ} (hends : Ends y t post stop) (hx : x s = y t) :
    Ends x s post stop := ⟨fun h => hends.of_ok (hx ▸ h), fun h => hends.of_error (hx ▸ h)⟩

theorem Ends.pure {a : α} (hpost : post a s) : Ends (Pure.pure a) s post stop := .ok rfl hpost

theorem Ends.mono {post' : α → σ → Prop} {stop' : ε → σ → Prop} (hends : Ends x s post stop)
    (hpost : ∀ a t, post a t → post' a t) (hstop : ∀ e t, stop e t → stop' e t) :
    Ends x s post' stop' :=
  ⟨fun h => hpost _ _ (hends.of_ok h), fun h => hstop _ _ (hends.of_error h)⟩

/-- The state a run ends in. -/
def final : EStateM.Result ε σ α → σ
  | .ok _ t => t
  | .error _ t => t

/-- The result of a run that does not stop. -/
def returned : EStateM.Result ε σ α → Option α
  | .ok a _ => some a
  | .error _ _ => none

theorem returned_eq_some {a : α} : returned (x s) = some a ↔ ∃ t, x s = .ok a t := by
  cases x s with
  | ok b t => simp [returned]
  | error e t => simp [returned]

theorem endsIn_iff_final {post : σ → Prop} : EndsIn x s post ↔ post (final (x s)) := by
  cases hx : x s with
  | ok a t => exact ⟨fun hends => hends.of_ok hx, fun h => .ok hx h⟩
  | error e t => exact ⟨fun hends => hends.of_error hx, fun h => .error hx h⟩

/-- Every run ends somewhere, so two facts about its end meet. -/
theorem EndsIn.meet {first second : σ → Prop} (hfirst : EndsIn x s first)
    (hsecond : EndsIn x s second) : ∃ t, first t ∧ second t :=
  ⟨_, endsIn_iff_final.mp hfirst, endsIn_iff_final.mp hsecond⟩

end Ends

theorem Ends.bind {x : EStateM ε σ α} {f : α → EStateM ε σ β} {s : σ} {post : β → σ → Prop}
    {stop : ε → σ → Prop} (hx : Ends x s (fun a t => Ends (f a) t post stop) stop) :
    Ends (x >>= f) s post stop := by
  cases hrun : x s with
  | ok a t => exact (hx.of_ok hrun).congr (bind_ok hrun)
  | error e t => exact .error (bind_error hrun) (hx.of_error hrun)

/-! ## Results -/

/-- Every normal result satisfies `post`. -/
def Yields (x : EStateM ε σ α) (s : σ) (post : α → Prop) : Prop := ∀ a t, x s = .ok a t → post a

theorem Yields.pure {a : α} {s : σ} {post : α → Prop} (hpost : post a) :
    Yields (Pure.pure a : EStateM ε σ α) s post := by
  rintro b t hrun
  cases hrun
  exact hpost

theorem Yields.bind {x : EStateM ε σ α} {f : α → EStateM ε σ β} {s : σ} {post : β → Prop}
    (hf : ∀ a t, x s = .ok a t → Yields (f a) t post) : Yields (x >>= f) s post := by
  intro b u hrun
  obtain ⟨a, t, hx, hrest⟩ := bind_eq_ok.mp hrun
  exact hf a t hx b u hrest

theorem yields_iff_of_ok {x : EStateM ε σ α} {s t : σ} {a : α} (hx : x s = .ok a t)
    (post : α → Prop) : Yields x s post ↔ post a := by
  constructor
  · exact fun hyields => hyields a t hx
  · intro hpost b u hrun
    cases hx.symm.trans hrun
    exact hpost

/-! ## Loops -/

/-- Run `body` from the loop state `i` until it yields a result, at most `fuel`
times; `spent` is the stop of a loop that is still going. -/
def iterate (spent : ε) (body : ι → EStateM ε σ (ι ⊕ α)) : Nat → ι → EStateM ε σ α
  | 0, _ => fun s => .error spent s
  | fuel + 1, i => body i >>= fun
      | .inl next => iterate spent body fuel next
      | .inr a => pure a

section Loop

variable {spent : ε} {body : ι → EStateM ε σ (ι ⊕ α)}

theorem iterate_next {i j : ι} {s t : σ} (hbody : body i s = .ok (.inl j) t) (fuel : Nat) :
    iterate spent body (fuel + 1) i s = iterate spent body fuel j t := by
  rw [iterate, bind_ok hbody]

theorem iterate_done {i : ι} {s t : σ} {a : α} (hbody : body i s = .ok (.inr a) t) (fuel : Nat) :
    iterate spent body (fuel + 1) i s = .ok a t := by
  rw [iterate, bind_ok hbody]
  rfl

theorem iterate_stop {i : ι} {s t : σ} {e : ε} (hbody : body i s = .error e t) (fuel : Nat) :
    iterate spent body (fuel + 1) i s = .error e t := by
  rw [iterate, bind_error hbody]

/-- Once a loop has stopped by itself, more fuel changes nothing. -/
theorem iterate_mono {fuel more : Nat} {i : ι} {s : σ}
    (hstopped : ∀ t, iterate spent body fuel i s ≠ .error spent t) (hle : fuel ≤ more) :
    iterate spent body more i s = iterate spent body fuel i s := by
  induction fuel generalizing more i s with
  | zero => exact absurd rfl (hstopped s)
  | succ fuel ih =>
      obtain ⟨extra, rfl⟩ := Nat.exists_eq_add_of_le hle
      rw [show fuel + 1 + extra = fuel + extra + 1 by omega]
      cases hbody : body i s with
      | error e t => rw [iterate_stop hbody, iterate_stop hbody]
      | ok r t =>
          cases r with
          | inr a => rw [iterate_done hbody, iterate_done hbody]
          | inl j =>
              rw [iterate_next hbody, iterate_next hbody]
              apply ih _ (Nat.le_add_right _ _)
              intro u hu
              exact hstopped u (by rw [iterate_next hbody, hu])

/-- While the iterations go on, an invariant indexed by their number is carried
along, and what remains of the loop is the loop from the state reached. -/
theorem iterate_reaches (spent : ε) (inv : Nat → ι → σ → Prop) (goes : Nat → Prop)
    (hstep : ∀ k i s, inv k i s → goes k →
      ∃ j t, body i s = .ok (.inl j) t ∧ inv (k + 1) j t)
    {i : ι} {s : σ} (hinit : inv 0 i s) (count : Nat) (hgoes : ∀ k < count, goes k) :
    ∃ j t, inv count j t ∧
      ∀ fuel, iterate spent body (count + fuel) i s = iterate spent body fuel j t := by
  induction count with
  | zero => exact ⟨i, s, hinit, fun fuel => by rw [Nat.zero_add]⟩
  | succ count ih =>
      obtain ⟨j, t, hinv, hrest⟩ := ih fun k hk => hgoes k (by omega)
      obtain ⟨next, u, hbody, hnext⟩ := hstep count j t hinv (hgoes count (by omega))
      refine ⟨next, u, hnext, fun fuel => ?_⟩
      rw [show count + 1 + fuel = count + (fuel + 1) by omega, hrest, iterate_next hbody]

/-- The loop rule. If an iteration from the `k`-th invariant either goes on to
the next one or yields a result satisfying `done k`, then a loop that ends has
gone on for some number of iterations and its result satisfies `done` there. -/
theorem Ends.iterate (inv : Nat → ι → σ → Prop) (goes : Nat → Prop)
    (done : Nat → α → σ → Prop) {stop : ε → σ → Prop}
    (hstep : ∀ k i s, inv k i s → Ends (body i) s
      (fun r t => r.elim (fun j => goes k ∧ inv (k + 1) j t) (fun a => done k a t)) stop)
    {fuel : Nat} {i : ι} {s : σ} (hinit : inv 0 i s)
    (hspent : ∀ j t, inv fuel j t → stop spent t) :
    Ends (iterate spent body fuel i) s
      (fun a t => ∃ k < fuel, (∀ j < k, goes j) ∧ done k a t) stop := by
  induction fuel generalizing i s inv goes done with
  | zero => exact .error rfl (hspent i s hinit)
  | succ fuel ih =>
      apply Ends.bind
      refine Ends.mono (hstep 0 i s hinit) (fun r t hr => ?_) (fun _ _ hstop => hstop)
      cases r with
      | inr a =>
          exact .pure ⟨0, Nat.succ_pos fuel, fun j hj => absurd hj (Nat.not_lt_zero j), hr⟩
      | inl j =>
          have hrest := ih (fun k => inv (k + 1)) (fun k => goes (k + 1))
            (fun k => done (k + 1)) (fun k i s hinv => hstep (k + 1) i s hinv) hr.2 hspent
          refine hrest.mono (fun a u ⟨k, hk, hgoes, hdone⟩ => ?_) (fun _ _ hstop => hstop)
          refine ⟨k + 1, Nat.succ_lt_succ hk, fun m hm => ?_, hdone⟩
          cases m with
          | zero => exact hr.1
          | succ m => exact hgoes m (Nat.lt_of_succ_lt_succ hm)

/-- A loop whose iterations decrease a measure ends, whatever fuel above the measure
it is given. -/
theorem iterate_total (spent : ε) (inv : ι → σ → Prop) (measure : ι → Nat) (post : α → σ → Prop)
    (hstep : ∀ i s, inv i s →
      (∃ a t, body i s = .ok (.inr a) t ∧ post a t) ∨
      ∃ j t, body i s = .ok (.inl j) t ∧ inv j t ∧ measure j < measure i)
    {i : ι} {s : σ} (hinit : inv i s) :
    ∃ a t, post a t ∧ ∀ fuel > measure i, iterate spent body fuel i s = .ok a t := by
  induction hmeasure : measure i using Nat.strongRecOn generalizing i s with
  | ind bound ih =>
      subst hmeasure
      rcases hstep i s hinit with ⟨a, t, hbody, hpost⟩ | ⟨j, t, hbody, hinv, hlt⟩
      · refine ⟨a, t, hpost, fun fuel hfuel => ?_⟩
        obtain ⟨extra, rfl⟩ := Nat.exists_eq_add_of_lt hfuel
        rw [iterate_done hbody]
      · obtain ⟨a, u, hpost, hrest⟩ := ih (measure j) hlt hinv rfl
        refine ⟨a, u, hpost, fun fuel hfuel => ?_⟩
        obtain ⟨extra, rfl⟩ := Nat.exists_eq_add_of_lt hfuel
        rw [iterate_next hbody, hrest _ (by omega)]

end Loop

/-! ## Fuel -/

/-- With enough fuel the run is `result`, and more fuel changes nothing. -/
def Settles (x : Nat → EStateM ε σ α) (s : σ) (result : EStateM.Result ε σ α) : Prop :=
  ∃ enough, ∀ fuel ≥ enough, x fuel s = result

/-- With enough fuel the run ends by itself. -/
def Finishes (spent : ε) (x : Nat → EStateM ε σ α) (s : σ) : Prop :=
  ∃ result, Settles x s result ∧ ∀ t, result ≠ .error spent t

section Fuel

variable {spent : ε} {x : Nat → EStateM ε σ α} {s : σ}

theorem Settles.unique {first second : EStateM.Result ε σ α} (hfirst : Settles x s first)
    (hsecond : Settles x s second) : first = second := by
  obtain ⟨n, hn⟩ := hfirst
  obtain ⟨m, hm⟩ := hsecond
  exact (hn _ (Nat.le_max_left n m)).symm.trans (hm _ (Nat.le_max_right n m))

theorem Settles.congr {y : Nat → EStateM ε σ α} {t : σ} {result : EStateM.Result ε σ α}
    (hsettles : Settles y t result) (hsame : ∀ fuel, x fuel s = y fuel t) : Settles x s result := by
  obtain ⟨enough, hrun⟩ := hsettles
  exact ⟨enough, fun fuel hfuel => (hsame fuel).trans (hrun fuel hfuel)⟩

theorem settles_const (y : EStateM ε σ α) : Settles (fun _ => y) s (y s) := ⟨0, fun _ _ => rfl⟩

theorem Settles.bind {f : Nat → α → EStateM ε σ β} {a : α} {t : σ}
    {result : EStateM.Result ε σ β} (hx : Settles x s (.ok a t))
    (hf : Settles (fun fuel => f fuel a) t result) :
    Settles (fun fuel => x fuel >>= f fuel) s result := by
  obtain ⟨n, hn⟩ := hx
  obtain ⟨m, hm⟩ := hf
  refine ⟨max n m, fun fuel hfuel => ?_⟩
  have hfirst := hn fuel (Nat.le_trans (Nat.le_max_left n m) hfuel)
  exact (bind_ok hfirst).trans (hm fuel (Nat.le_trans (Nat.le_max_right n m) hfuel))

theorem Settles.bind_error {f : Nat → α → EStateM ε σ β} {e : ε} {t : σ}
    (hx : Settles x s (.error e t)) : Settles (fun fuel => x fuel >>= f fuel) s (.error e t) := by
  obtain ⟨n, hn⟩ := hx
  exact ⟨n, fun fuel hfuel => Exec.bind_error (hn fuel hfuel)⟩

theorem Finishes.congr {y : Nat → EStateM ε σ α} {t : σ} (hfinishes : Finishes spent y t)
    (hsame : ∀ fuel, x fuel s = y fuel t) : Finishes spent x s := by
  obtain ⟨result, hsettles, hresult⟩ := hfinishes
  exact ⟨result, hsettles.congr hsame, hresult⟩

theorem Finishes.of_ok {a : α} {t : σ} (hsettles : Settles x s (.ok a t)) : Finishes spent x s :=
  ⟨_, hsettles, fun _ h => by cases h⟩

theorem Finishes.of_error {e : ε} {t : σ} (hsettles : Settles x s (.error e t)) (he : e ≠ spent) :
    Finishes spent x s := by
  refine ⟨_, hsettles, fun u hu => he ?_⟩
  obtain ⟨rfl, _⟩ := EStateM.Result.error.inj hu
  rfl

/-- A run that always spends its fuel does not finish. -/
theorem not_finishes (hspent : ∀ fuel, ∃ t, x fuel s = .error spent t) : ¬Finishes spent x s := by
  rintro ⟨result, ⟨enough, hrun⟩, hresult⟩
  obtain ⟨t, ht⟩ := hspent enough
  exact hresult t ((hrun enough (Nat.le_refl _)).symm.trans ht)

/-- A sequence finishes if its first part does and leads to a second that does. -/
theorem Finishes.bind {f : Nat → α → EStateM ε σ β} (hx : Finishes spent x s)
    (hf : ∀ a t, Settles x s (.ok a t) → Finishes spent (fun fuel => f fuel a) t) :
    Finishes spent (fun fuel => x fuel >>= f fuel) s := by
  obtain ⟨result, hsettles, hresult⟩ := hx
  cases result with
  | ok a t =>
      obtain ⟨result, hrest, hne⟩ := hf a t hsettles
      exact ⟨result, hsettles.bind hrest, hne⟩
  | error e t => exact ⟨_, hsettles.bind_error, fun u hu => hresult u (by cases hu; rfl)⟩

theorem finishes_iterate {body : ι → EStateM ε σ (ι ⊕ α)} {i : ι} {n : Nat}
    (hstopped : ∀ t, iterate spent body n i s ≠ .error spent t) :
    Finishes spent (fun fuel => iterate spent body fuel i) s :=
  ⟨_, ⟨n, fun _ hmore => iterate_mono hstopped hmore⟩, hstopped⟩

/-- More fuel does not change a run that has ended by itself. -/
def Steady (spent : ε) (x : Nat → EStateM ε σ α) : Prop := ∀ (s : σ) (fuel more : Nat),
  fuel ≤ more → (∀ t, x fuel s ≠ .error spent t) → x more s = x fuel s

theorem steady_const (y : EStateM ε σ α) : Steady spent fun _ => y := fun _ _ _ _ _ => rfl

theorem Steady.bind {f : Nat → α → EStateM ε σ β} (hx : Steady spent x)
    (hf : ∀ a, Steady spent fun fuel => f fuel a) :
    Steady spent fun fuel => x fuel >>= f fuel := by
  intro s fuel more hle hstopped
  have hfirst : x more s = x fuel s :=
    hx s fuel more hle fun t ht => hstopped t (Exec.bind_error ht)
  cases hrun : x fuel s with
  | error e t => exact (Exec.bind_error (hfirst.trans hrun)).trans (Exec.bind_error hrun).symm
  | ok a t =>
      refine (bind_ok (hfirst.trans hrun)).trans (Eq.trans ?_ (bind_ok hrun).symm)
      exact hf a t fuel more hle fun u hu => hstopped u ((bind_ok hrun).trans hu)

theorem steady_iterate (spent : ε) (body : ι → EStateM ε σ (ι ⊕ α)) (i : ι) :
    Steady spent fun fuel => iterate spent body fuel i :=
  fun _ _ _ hle hstopped => iterate_mono hstopped hle

theorem Steady.ite {y : Nat → EStateM ε σ α} (p : Prop) [Decidable p] (hx : Steady spent x)
    (hy : Steady spent y) : Steady spent fun fuel => if p then x fuel else y fuel := by
  by_cases hp : p
  · simpa only [if_pos hp] using hx
  · simpa only [if_neg hp] using hy

theorem Steady.finishes_iff (hsteady : Steady spent x) :
    Finishes spent x s ↔ ∃ fuel, ∀ t, x fuel s ≠ .error spent t := by
  constructor
  · rintro ⟨result, ⟨enough, hrun⟩, hresult⟩
    exact ⟨enough, fun t ht => hresult t ((hrun enough (Nat.le_refl _)).symm.trans ht)⟩
  · rintro ⟨fuel, hstopped⟩
    exact ⟨_, ⟨fuel, fun more hmore => hsteady s fuel more hmore hstopped⟩, hstopped⟩

end Fuel

/-! ## Frames -/

/-- However it ends, the computation moves the state along `R`. -/
def Moves (R : σ → σ → Prop) (x : EStateM ε σ α) : Prop := ∀ s, EndsIn x s (R s)

section Moves

variable {R : σ → σ → Prop}

theorem Moves.of_ok {x : EStateM ε σ α} (hmoves : Moves R x) {s t : σ} {a : α}
    (hx : x s = .ok a t) : R s t := (hmoves s).of_ok hx

theorem Moves.of_error {x : EStateM ε σ α} (hmoves : Moves R x) {s t : σ} {e : ε}
    (hx : x s = .error e t) : R s t := (hmoves s).of_error hx

theorem Moves.mono {R' : σ → σ → Prop} {x : EStateM ε σ α} (hmoves : Moves R x)
    (hsub : ∀ s t, R s t → R' s t) : Moves R' x := fun s =>
  (hmoves s).mono (fun _ t hst => hsub s t hst) (fun _ t hst => hsub s t hst)

variable [IsPreorder σ R]

theorem Moves.pure (a : α) : Moves R (Pure.pure a : EStateM ε σ α) := fun s => .pure (refl_of R s)

theorem Moves.bind {x : EStateM ε σ α} {f : α → EStateM ε σ β} (hx : Moves R x)
    (hf : ∀ a, Moves R (f a)) : Moves R (x >>= f) := by
  intro s
  apply Ends.bind
  refine (hx s).mono (fun a t hst => ?_) (fun _ _ hst => hst)
  exact (hf a t).mono (fun _ _ htu => trans_of R hst htu) (fun _ _ htu => trans_of R hst htu)

theorem Moves.iterate {spent : ε} {body : ι → EStateM ε σ (ι ⊕ α)} (hbody : ∀ i, Moves R (body i))
    (fuel : Nat) (i : ι) : Moves R (Exec.iterate spent body fuel i) := by
  induction fuel generalizing i with
  | zero => exact fun s => .error rfl (refl_of R s)
  | succ fuel ih =>
      refine (hbody i).bind fun r => ?_
      cases r with
      | inl j => exact ih j
      | inr a => exact Moves.pure a

end Moves

end Exec
