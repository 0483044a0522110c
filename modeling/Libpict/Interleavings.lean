import Libpict.CaptureSequence
import Libpict.Serial

/-! # Interleaved calls as calls in a row

A run of many calls in which no exchange fails comes to the same as making the completed calls
one after the other: from the same world to the same world, with the same results. So the
device hears what it would hear from a single thread.
-/

namespace Libpict

open CInt Exec Transitions

variable {σ ι : Type} {B : Backend σ} {fuel : Nat}

/-! ## Completed calls -/

/-- The calls that have completed their exchange, in this order. -/
def completed (trace : Trace ι) : List ι :=
  trace.flatMap fun event => List.replicate event.2.counts event.1

theorem completed_snoc (i : ι) (action : Action) (trace : Trace ι) :
    completed (trace ++ [(i, action)]) = completed trace ++ List.replicate action.counts i := by
  simp [completed]

/-! ## What a call that goes through does -/

/-- Where a call stands while no exchange fails: it is on its way and not `done`, or it is. -/
def Stage.Sound (done : Prop) : Stage σ → Prop
  | answering | leaving _ | returned _ => done
  | switching | releasing | setting => False
  | _ => ¬done

/-- What a call that has counted its exchange, and not yet left, adds to the completed ones. -/
def Stage.pending (i : ι) : Stage σ → List ι
  | answering | leaving _ => [i]
  | _ => []

theorem Exchanges.clear {w w' : World σ} (hexchanges : Exchanges w w')
    (hclear : w.r.operationKillSwitch = false) : w'.r.operationKillSwitch = false := by
  rw [hexchanges.1.operationKillSwitch]
  exact hclear

section Acts

variable {op : Operation} {cut : Cut B fuel op} {stage stage' : Stage σ} {w w' : World σ}
  {action : Action} {done : Prop}

theorem Acts.sound (hacts : Acts cut stage w action stage' w') (hkeeps : stage.Keeps)
    (hfail : action ≠ .fail) (hclear : w.r.operationKillSwitch = false)
    (hsound : stage.Sound done) :
    w'.r.operationKillSwitch = false ∧ stage'.Sound (done ∨ action.counts ≠ 0) := by
  have hidle : ¬done → ¬(done ∨ 0 ≠ 0) := fun hdone h => h.elim hdone fun h => h rfl
  cases hacts with
  | refused hset => cases hclear.symm.trans hset
  | stop hset => cases hclear.symm.trans hset
  | fail => exact absurd rfl hfail
  | failAgain => exact absurd rfl hfail
  | switch => exact hsound.elim
  | release => exact hsound.elim
  | set => exact hsound.elim
  | prepare hrun => exact ⟨(op.prepare_exchanges hrun).clear hclear, hidle hsound⟩
  | trying hrun =>
      have hmoved : Exchanges w w' := hkeeps.1.moves.of_ok hrun
      exact ⟨hmoved.clear hclear, hidle hsound⟩
  | retrying hrun =>
      have hmoved : Exchanges w w' := hkeeps.1.moves.of_ok hrun
      exact ⟨hmoved.clear hclear, hidle hsound⟩
  | count => exact ⟨hclear, .inr Nat.one_ne_zero⟩
  | answer hrun =>
      rw [Acts.answer_world hrun]
      exact ⟨hclear, .inl hsound⟩
  | leave => exact ⟨hclear, .inl hsound⟩
  | _ => exact ⟨hclear, hidle hsound⟩

/-- Away from the mutex a call that goes through changes nothing. -/
theorem Acts.still (hacts : Acts cut stage w action stage' w') (hloose : ¬stage.Holds)
    (hacquire : action ≠ .acquire) (hclear : w.r.operationKillSwitch = false)
    (hsound : stage.Sound done) : w' = w ∧ action.counts = 0 ∧ ∀ rc, stage' ≠ .returned rc := by
  cases hacts with
  | refused hset => cases hclear.symm.trans hset
  | enter => exact ⟨rfl, rfl, fun rc h => by cases h⟩
  | lock => exact absurd rfl hacquire
  | set => exact hsound.elim
  | _ => exact absurd trivial hloose

/-- A call that has taken the mutex has all of its work ahead. -/
theorem Acts.acquired (hacts : Acts cut stage w .acquire stage' w')
    (hclear : w.r.operationKillSwitch = false) (i : ι) :
    stage'.rest B fuel op w' = op.exec B fuel w ∧ stage'.pending i = [] := by
  cases hacts with
  | lock =>
      have henter : Acts cut .entering w .quiet .locking w := .enter hclear
      have hlock : Acts cut .locking w .acquire .checking (locked w) := .lock
      exact ⟨(henter.rest_eq.trans hlock.rest_eq).symm, rfl⟩

/-- A call that goes through releases the mutex with its result. -/
theorem Acts.released (hacts : Acts cut stage w .release stage' w') (hsound : stage.Sound done) :
    ∃ rc, stage = .leaving rc ∧ stage' = .returned rc := by
  cases hacts with
  | release => exact hsound.elim
  | leave => exact ⟨_, rfl, rfl⟩

/-- Under the mutex a call becomes pending when it counts its exchange. -/
theorem Acts.counted (hacts : Acts cut stage w action stage' w') (hfail : action ≠ .fail)
    (hholds : stage.Holds) (hrelease : action ≠ .release)
    (hclear : w.r.operationKillSwitch = false) (hsound : stage.Sound done) (i : ι) :
    stage'.pending i = stage.pending i ++ List.replicate action.counts i ∧
      ∀ rc, stage' ≠ .returned rc := by
  cases hacts with
  | refused => exact hholds.elim
  | set => exact hholds.elim
  | stop hset => cases hclear.symm.trans hset
  | fail => exact absurd rfl hfail
  | failAgain => exact absurd rfl hfail
  | release => exact absurd rfl hrelease
  | leave => exact absurd rfl hrelease
  | switch => exact hsound.elim
  | _ => exact ⟨rfl, fun rc h => by cases h⟩

end Acts

/-! ## Runs -/

variable [DecidableEq ι] {calls : Calls B fuel ι}

/-- The calls of `events`, made in a row from `w`, lead to `u`. The system stands in `u` or is in
the middle of one more call from there. -/
structure System.Linear (calls : Calls B fuel ι) (w : World σ) (s : System ι σ) (trace : Trace ι)
    (events : List (ι × Int)) (u : World σ) : Prop where
  excludes : s.Excludes
  clear : s.world.r.operationKillSwitch = false
  sound : ∀ i, (s.stage i).Sound (i ∈ completed trace)
  once : (completed trace).Nodup
  runs : Runs (Yield fun i => (calls.op i).exec B fuel) w events u
  results : ∀ i rc, s.stage i = .returned rc → (i, rc) ∈ events
  free : s.holder = none → u = s.world ∧ completed trace = events.map Prod.fst
  held : ∀ i, s.holder = some i →
    (s.stage i).rest B fuel (calls.op i) s.world = (calls.op i).exec B fuel u ∧
      completed trace = events.map Prod.fst ++ (s.stage i).pending i

omit [DecidableEq ι] in
theorem System.Starts.linear {s : System ι σ} (hstarts : s.Starts)
    (hclear : s.world.r.operationKillSwitch = false) : s.Linear calls s.world [] [] s.world where
  excludes := hstarts.excludes
  clear := hclear
  sound i := by
    rw [hstarts.stage i]
    exact List.not_mem_nil
  once := List.nodup_nil
  runs := .nil _
  results i rc hreturned := by
    rw [hstarts.stage i] at hreturned
    cases hreturned
  free _ := ⟨rfl, rfl⟩
  held i hheld := by
    rw [hstarts.holder] at hheld
    cases hheld

section Step

variable {s s' : System ι σ} {trace : Trace ι} {i : ι} {action : Action} {w u : World σ}
  {events : List (ι × Int)}

theorem System.Linear.clear_step (hlinear : s.Linear calls w trace events u)
    (hstep : s.Step calls i action s') (hfail : action ≠ .fail) :
    s'.world.r.operationKillSwitch = false := by
  obtain ⟨hacts, _⟩ := hstep
  exact (hacts.sound (hlinear.excludes.keeps i) hfail hlinear.clear (hlinear.sound i)).1

theorem System.Linear.sound_step (hlinear : s.Linear calls w trace events u)
    (hstep : s.Step calls i action s') (hfail : action ≠ .fail) (j : ι) :
    (s'.stage j).Sound (j ∈ completed (trace ++ [(i, action)])) := by
  obtain ⟨hacts, _⟩ := hstep
  dsimp only
  rw [completed_snoc, List.mem_append, List.mem_replicate]
  by_cases hij : j = i
  · subst hij
    rw [Function.update_self, and_iff_left rfl]
    exact (hacts.sound (hlinear.excludes.keeps j) hfail hlinear.clear (hlinear.sound j)).2
  · rw [Function.update_of_ne hij, or_iff_left fun h => hij h.2]
    exact hlinear.sound j

theorem System.Linear.once_step (hlinear : s.Linear calls w trace events u)
    (hstep : s.Step calls i action s') : (completed (trace ++ [(i, action)])).Nodup := by
  obtain ⟨hacts, _⟩ := hstep
  have hsound := hlinear.sound i
  rw [completed_snoc]
  cases action with
  | complete =>
      -- a call that is completed already does not stand where it counts
      refine List.nodup_append'.mpr ⟨hlinear.once, List.nodup_singleton i, ?_⟩
      rw [Action.counts, List.replicate_one, List.disjoint_singleton]
      generalize s.stage i = stage at hacts hsound
      cases hacts with
      | count => exact hsound
  | _ => exact (List.append_nil (completed trace)).symm ▸ hlinear.once

/-- A call takes the mutex: the next call in the row begins. -/
theorem System.Linear.acquire_step (hlinear : s.Linear calls w trace events u)
    (hstep : s.Step calls i .acquire s') : s'.Linear calls w (trace ++ [(i, .acquire)]) events u where
  excludes := hlinear.excludes.step hstep
  clear := hlinear.clear_step hstep (by simp)
  sound := hlinear.sound_step hstep (by simp)
  once := hlinear.once_step hstep
  runs := hlinear.runs
  results j rc hreturned := by
    obtain ⟨hacts, _⟩ := hstep
    dsimp only at hreturned
    by_cases hij : j = i
    · subst hij
      rw [Function.update_self] at hreturned
      have hpending := (hacts.holds.resolve_right (by simp)).2.2
      rw [hreturned] at hpending
      exact hpending.elim
    · rw [Function.update_of_ne hij] at hreturned
      exact hlinear.results j rc hreturned
  free hfree := by
    obtain ⟨_, _⟩ := hstep
    cases hfree
  held j hheld := by
    obtain ⟨hacts, hfree⟩ := hstep
    obtain rfl : i = j := Option.some.inj hheld
    have hnobody := (hfree rfl).resolve_right hlinear.excludes.mutex
    obtain ⟨hworld, hcompleted⟩ := hlinear.free hnobody
    obtain ⟨hrest, hpending⟩ := hacts.acquired hlinear.clear i
    dsimp only
    rw [Function.update_self, hrest, hworld, completed_snoc, hcompleted, hpending]
    exact ⟨rfl, rfl⟩

/-- A call releases the mutex: it is the last of the row. -/
theorem System.Linear.release_step (hlinear : s.Linear calls w trace events u)
    (hstep : s.Step calls i .release s') :
    ∃ rc, s'.Linear calls w (trace ++ [(i, .release)]) (events ++ [(i, rc)]) s'.world := by
  have hlinear' := hlinear
  obtain ⟨hexcludes, _, hsound, _, hruns, hresults, _, hheld⟩ := hlinear'
  have hstep' := hstep
  obtain ⟨hacts, hfree⟩ := hstep'
  obtain ⟨rc, hleaving, hreturned⟩ := hacts.released (hsound i)
  have hholder : s.holder = some i := (hexcludes.holds i).mp (by rw [hleaving]; trivial)
  obtain ⟨hrest, hcompleted⟩ := hheld i hholder
  rw [hacts.rest_eq, hreturned] at hrest
  rw [hleaving] at hcompleted
  refine ⟨rc, hexcludes.step hstep, hlinear.clear_step hstep (by simp),
    hlinear.sound_step hstep (by simp), hlinear.once_step hstep, hruns.snoc hrest.symm, ?_, ?_, ?_⟩
  · intro j rc' hj
    dsimp only at hj
    by_cases hij : j = i
    · subst hij
      rw [Function.update_self, hreturned] at hj
      obtain rfl := Stage.returned.inj hj
      exact List.mem_append_right _ (List.mem_singleton_self _)
    · rw [Function.update_of_ne hij] at hj
      exact List.mem_append_left _ (hresults j rc' hj)
  · rintro _
    refine ⟨rfl, ?_⟩
    rw [completed_snoc, hcompleted, List.map_append]
    exact List.append_nil _
  · intro j hj
    cases hj

/-- Any other step either is one of the call under way or changes nothing. -/
theorem System.Linear.other_step (hlinear : s.Linear calls w trace events u)
    (hstep : s.Step calls i action s') (hfail : action ≠ .fail) (hacquire : action ≠ .acquire)
    (hrelease : action ≠ .release) : s'.Linear calls w (trace ++ [(i, action)]) events u := by
  have hlinear' := hlinear
  obtain ⟨hexcludes, hclear, hsound, _, hruns, hresults, hfree, hheld⟩ := hlinear'
  have hstep' := hstep
  obtain ⟨hacts, _⟩ := hstep'
  have hkept : action.holder i s.holder = s.holder := by
    cases action with
    | acquire => exact absurd rfl hacquire
    | release => exact absurd rfl hrelease
    | _ => rfl
  refine ⟨hexcludes.step hstep, hlinear.clear_step hstep hfail, hlinear.sound_step hstep hfail,
    hlinear.once_step hstep, hruns, fun j rc hj => ?_, fun hnobody => ?_, fun j hj => ?_⟩
  · dsimp only at hj
    by_cases hij : j = i
    · subst hij
      rw [Function.update_self] at hj
      by_cases hholds : (s.stage j).Holds
      · exact absurd hj ((hacts.counted hfail hholds hrelease hclear (hsound j) j).2 rc)
      · exact absurd hj ((hacts.still hholds hacquire hclear (hsound j)).2.2 rc)
    · rw [Function.update_of_ne hij] at hj
      exact hresults j rc hj
  · dsimp only at hnobody ⊢
    rw [hkept] at hnobody
    obtain ⟨hworld, hcompleted⟩ := hfree hnobody
    have hloose : ¬(s.stage i).Holds := by
      rw [hexcludes.holds i, hnobody]
      simp
    obtain ⟨hsame, hcounts, _⟩ := hacts.still hloose hacquire hclear (hsound i)
    rw [completed_snoc, hcounts, hsame, List.replicate_zero, List.append_nil]
    exact ⟨hworld, hcompleted⟩
  · dsimp only at hj ⊢
    rw [hkept] at hj
    obtain ⟨hrest, hcompleted⟩ := hheld j hj
    rw [completed_snoc]
    by_cases hij : j = i
    · -- the call under way: what comes of it stays the same
      subst hij
      have hholds := (hexcludes.holds j).mpr hj
      rw [Function.update_self, ← hacts.rest_eq, hcompleted,
        (hacts.counted hfail hholds hrelease hclear (hsound j) j).1, List.append_assoc]
      exact ⟨hrest, rfl⟩
    · have hloose : ¬(s.stage i).Holds := by
        rw [hexcludes.holds i, hj]
        exact fun h => hij (Option.some.inj h)
      obtain ⟨hsame, hcounts, _⟩ := hacts.still hloose hacquire hclear (hsound i)
      rw [Function.update_of_ne hij, hcounts, hsame, List.replicate_zero, List.append_nil]
      exact ⟨hrest, hcompleted⟩

theorem System.Linear.step (hlinear : s.Linear calls w trace events u)
    (hstep : s.Step calls i action s') (hfail : action ≠ .fail) :
    ∃ events' u', s'.Linear calls w (trace ++ [(i, action)]) events' u' := by
  cases action with
  | acquire => exact ⟨events, u, hlinear.acquire_step hstep⟩
  | release =>
      obtain ⟨rc, hnext⟩ := hlinear.release_step hstep
      exact ⟨_, _, hnext⟩
  | fail => exact absurd rfl hfail
  | _ => exact ⟨events, u, hlinear.other_step hstep (by simp) (by simp) (by simp)⟩

end Step

theorem System.Starts.linear_of_run {s v : System ι σ} {trace : Trace ι} (hstarts : s.Starts)
    (hclear : s.world.r.operationKillSwitch = false)
    (hrun : s.Reaches calls (fun _ _ _ => True) trace v) (hfail : ∀ i, (i, Action.fail) ∉ trace) :
    ∃ events u, v.Linear calls s.world trace events u := by
  induction hrun with
  | start => exact ⟨[], _, hstarts.linear hclear⟩
  | @step trace u v i action _ hstep _ ih =>
      obtain ⟨events, u, hlinear⟩ := ih fun j hmem => hfail j (List.mem_append_left _ hmem)
      apply hlinear.step hstep
      rintro rfl
      exact hfail i (List.mem_append_right _ (List.mem_singleton_self _))

/-- In every interleaving in which no exchange fails, whenever the mutex is free, the world is
the one that the completed calls lead to if they are made one after the other, in the order in
which they have completed; they return what they return there, each of them once. -/
theorem calls_linearised {s v : System ι σ} {trace : Trace ι} (hstarts : s.Starts)
    (hclear : s.world.r.operationKillSwitch = false)
    (hrun : s.Reaches calls (fun _ _ _ => True) trace v) (hfail : ∀ i, (i, Action.fail) ∉ trace)
    (hfree : v.holder = none) : ∃ events,
      Runs (Yield fun i => (calls.op i).exec B fuel) s.world events v.world ∧
      events.map Prod.fst = completed trace ∧ (completed trace).Nodup ∧
      ∀ i rc, v.stage i = .returned rc → (i, rc) ∈ events := by
  obtain ⟨events, u, hlinear⟩ := hstarts.linear_of_run hclear hrun hfail
  obtain ⟨rfl, hcompleted⟩ := hlinear.free hfree
  exact ⟨events, hlinear.runs, hcompleted.symm, hlinear.once, hlinear.results⟩

/-- What the device has heard by then is the completed operations, each once, in the order in
which they have completed and numbered in this order. -/
theorem interleaved_calls_heard (hcounts : B.Counts) {s v : System ι σ} {trace : Trace ι}
    (hstarts : s.Starts) (hprovided : Provided s.world)
    (hclear : s.world.r.operationKillSwitch = false)
    (hrun : s.Reaches calls (fun _ _ _ => True) trace v) (hfail : ∀ i, (i, Action.fail) ∉ trace)
    (hfree : v.holder = none) : ∃ made, v.world.log = s.world.log ++ made ∧
      heard (writtenBytes made) =
        numbered s.world.r.transactionId ((completed trace).map calls.op) := by
  obtain ⟨events, u, hlinear⟩ := hstarts.linear_of_run hclear hrun hfail
  obtain ⟨rfl, hcompleted⟩ := hlinear.free hfree
  have hruns : Runs (Yield fun op : Operation => op.exec B fuel) s.world
      (events.map fun event => (calls.op event.1, event.2)) v.world := by
    apply hlinear.runs.map
    exact fun _ _ _ hstep => hstep
  have hops : (events.map fun event => (calls.op event.1, event.2)).map Prod.fst =
      (completed trace).map calls.op := by
    rw [hcompleted, List.map_map, List.map_map]
    rfl
  rw [← hops]
  exact operations_heard hcounts hruns hprovided hlinear.clear

/-! ## A run of two calls -/

section Pair

/-- Two calls of the same command, and a device that answers one of them. -/
def waitingPair : System Bool (List (Option (List UInt8))) :=
  raceSystem (scriptedWorld 512 [some okResponse]) none .entering .entering

theorem waitingPair_starts : waitingPair.Starts := ⟨rfl, rfl, fun i => by cases i <;> rfl⟩

/-- An exchange that is answered, from behind the check to the release. -/
def answeredExchange : M (List (Option (List UInt8))) (Int × Int) := do
  (Operation.send getHandles).prepare scripted
  let rc ← (Operation.send getHandles).sendTry scripted 8
  countTransaction
  let code ← ptpCheckRc
  pure (rc, code)

variable {trace : Trace Bool} {w w' : RaceWorld} {holder : Option Bool} {action : Action}
  {first second next : Stage (List (Option (List UInt8)))}

/-- The first call moves. -/
theorem waitingPair_first
    (hrun : waitingPair.Reaches raceCalls (fun _ _ _ => True) trace
      (raceSystem w holder first second))
    (hacts : Acts (raceCalls.cut true) first w action next w')
    (hfree : action = .acquire → holder = none) :
    waitingPair.Reaches raceCalls (fun _ _ _ => True) (trace ++ [(true, action)])
      (raceSystem w' (action.holder true holder) next second) := by
  have hmoved := hrun.step (.intro (i := true) hacts fun h => .inl (hfree h)) trivial
  rw [race_update] at hmoved
  exact hmoved

/-- One call completes while the other waits for the mutex. -/
theorem waitingPair_run : ∃ (trace : Trace Bool) (v : System Bool _),
    waitingPair.Reaches raceCalls (fun _ _ _ => True) trace v ∧ (∀ i, (i, Action.fail) ∉ trace) ∧
      v.holder = none ∧ v.stage true = .returned 0 ∧ v.stage false = .locking := by
  obtain ⟨⟨rc, code⟩, u, hexchange, hhow⟩ := run_of_returnsOn answeredExchange
    (locked (scriptedWorld 512 [some okResponse])) (fun r _ => decide (r = (0, 0)))
    (by decide +kernel)
  obtain ⟨rfl, rfl⟩ := Prod.mk.inj (of_decide_eq_true hhow)
  obtain ⟨_, w₁, hprepare, hrest⟩ := bind_eq_ok.mp hexchange
  obtain ⟨rc, w₂, htry, hrest⟩ := bind_eq_ok.mp hrest
  obtain ⟨_, w₃, hcount, hrest⟩ := bind_eq_ok.mp hrest
  obtain ⟨code, w₄, hanswer, hreturn⟩ := bind_eq_ok.mp hrest
  obtain ⟨hresult, rfl⟩ := EStateM.Result.ok.inj hreturn
  obtain ⟨rfl, rfl⟩ := Prod.mk.inj hresult
  obtain ⟨hfits, rfl⟩ := countTransaction_eq_ok hcount
  have hbegin : waitingPair.Reaches raceCalls (fun _ _ _ => True) [] waitingPair := .start
  have hwaiting := hbegin.step (.intro (i := false) (.enter rfl) (by simp)) trivial
  rw [show waitingPair = raceSystem _ none .entering .entering from rfl, race_update_second] at hwaiting
  have hentered := waitingPair_first hwaiting (.enter rfl) (by simp)
  have hacquired := waitingPair_first hentered .lock fun _ => rfl
  have hpassed := waitingPair_first hacquired (.pass rfl) (by simp)
  obtain ⟨part, hlog⟩ := (Operation.prepare_exchanges _ hprepare).2
  have hprepared := waitingPair_first hpassed (.prepare hprepare hlog.symm) (by simp)
  obtain ⟨made, _, htried⟩ := hprepared.tries (i := true) (fun _ _ => trivial) rfl
    (Cut.rounds scripted 8 (.send getHandles)).keeps
    ((congrFun (Cut.rounds scripted 8 (.send getHandles)).run_eq _).trans htry)
  rw [race_update] at htried
  have hanswered := waitingPair_first htried .answered (by simp)
  have hcounted := waitingPair_first hanswered (.count hfits) (by simp)
  have hchecked := waitingPair_first hcounted (.answer hanswer) (by simp)
  have hreturned := waitingPair_first hchecked .leave (by simp)
  exact ⟨_, _, hreturned, by simp, rfl, rfl, rfl⟩

theorem calls_linearised_pair : ∃ (trace : Trace Bool) (v : System Bool _) (events : List (Bool × Int)),
    waitingPair.Reaches raceCalls (fun _ _ _ => True) trace v ∧
      Runs (Yield fun i => (raceCalls.op i).exec scripted 8) waitingPair.world events v.world ∧
      (true, 0) ∈ events := by
  obtain ⟨trace, v, hrun, hfail, hfree, hreturned, _⟩ := waitingPair_run
  obtain ⟨events, hruns, _, _, hresults⟩ :=
    calls_linearised waitingPair_starts rfl hrun hfail hfree
  exact ⟨trace, v, events, hrun, hruns, hresults true 0 hreturned⟩

theorem interleaved_calls_heard_pair : ∃ (trace : Trace Bool) (v : System Bool _)
    (made : List Call), waitingPair.Reaches raceCalls (fun _ _ _ => True) trace v ∧
      v.world.log = [] ++ made ∧
      heard (writtenBytes made) = numbered 0 ((completed trace).map raceCalls.op) := by
  obtain ⟨trace, v, hrun, hfail, hfree, _⟩ := waitingPair_run
  have hprovided : Provided waitingPair.world := scriptedWorld_provided _
  obtain ⟨made, hlog, hheard⟩ := interleaved_calls_heard scripted_counts waitingPair_starts
    hprovided rfl hrun hfail hfree
  exact ⟨trace, v, made, hrun, hlog, hheard⟩

end Pair

end Libpict
