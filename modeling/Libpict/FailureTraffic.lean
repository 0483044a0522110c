import Libpict.Request
import Libpict.Scripted
import Libpict.Threads

/-! # Traffic after a failure

A call whose exchange fails makes every later one back off, but not on the path where it
releases the mutex before it sets the switch: a call that looks at the switch in between
still goes on to write.
-/

namespace Libpict

open CInt Exec

variable {σ ι : Type} {B : Backend σ} {fuel : Nat}

/-! ## What a step changes -/

/-- The exchange has failed and the call has yet to set the switch. -/
def Stage.Pending : Stage σ → Prop
  | switching | releasing | setting => True
  | _ => False

/-- The call can no longer exchange anything, once it has found the switch set. -/
def Stage.Barred : Stage σ → Prop
  | leaving _ | returned _ => True
  | _ => False

section Acts

variable {op : Operation} {cut : Cut B fuel op} {stage stage' : Stage σ} {w w' : World σ}
  {action : Action}

/-- A call whose exchange fails has yet to set the switch, and does so before it returns. -/
theorem Acts.pending (hacts : Acts cut stage w action stage' w')
    (hfailed : action = .fail ∨ stage.Pending) :
    stage'.Pending ∨ w'.r.operationKillSwitch = true := by
  cases hacts with
  | fail => exact .inl trivial
  | failAgain => exact .inl trivial
  | switch => exact .inr rfl
  | release => exact .inl trivial
  | set => exact .inr rfl
  | _ => simp [Stage.Pending] at hfailed

theorem Acts.barred (hacts : Acts cut stage w action stage' w') (hbarred : stage.Barred) :
    stage'.Barred ∧ (∀ calls, action ≠ .exchange calls) ∧ action ≠ .fail ∧ action ≠ .acquire := by
  cases hacts with
  | leave => exact ⟨trivial, fun _ h => (by cases h), by simp, by simp⟩
  | _ => exact absurd hbarred (by simp [Stage.Barred])

end Acts

/-! ## Failures and what comes behind them -/

section Trace

/-- The call takes the mutex after the exchange of another has failed. -/
def Late (trace : Trace ι) (j : ι) : Prop :=
  ∃ i, i ≠ j ∧ [(i, Action.fail), (j, Action.acquire)].Sublist trace

/-- A call that takes the mutex after the exchange of another has failed does not write. -/
def NoTraffic (trace : Trace ι) : Prop := ∀ i j calls, i ≠ j →
  [(i, Action.fail), (j, Action.acquire), (j, Action.exchange calls)].Sublist trace →
    ∀ call ∈ calls, call.isWrite = false

theorem late_snoc {trace : Trace ι} {i j : ι} {action : Action}
    (hlate : Late (trace ++ [(i, action)]) j) :
    Late trace j ∨ i = j ∧ action = .acquire ∧ ∃ k, k ≠ j ∧ (k, Action.fail) ∈ trace := by
  obtain ⟨k, hne, hsub⟩ := hlate
  rcases (sublist_snoc (l := [(k, Action.fail)])).mp hsub with hold | ⟨heq, hold⟩
  · exact .inl ⟨k, hne, hold⟩
  · obtain ⟨rfl, rfl⟩ := Prod.mk.inj heq
    exact .inr ⟨rfl, rfl, k, hne, List.singleton_sublist.mp hold⟩

/-- Only what a late call exchanges can be in the way. -/
theorem NoTraffic.snoc {trace : Trace ι} {i : ι} {action : Action} (hclean : NoTraffic trace)
    (hlate : ∀ calls, action = .exchange calls → ¬Late trace i) :
    NoTraffic (trace ++ [(i, action)]) := by
  intro k j calls hne hsub
  rcases (sublist_snoc (l := [(k, Action.fail), (j, Action.acquire)])).mp hsub with
    hold | ⟨heq, hold⟩
  · exact hclean k j calls hne hold
  · obtain ⟨rfl, rfl⟩ := Prod.mk.inj heq
    exact absurd ⟨k, hne, hold⟩ (hlate calls rfl)

end Trace

/-- No call gets past its check under the mutex while another, whose exchange has failed
and which has released the mutex, has yet to set the switch. -/
def System.Awaits (s : System ι σ) (_ : ι) (action : Action) : Prop :=
  action = .pass → ∀ i, s.stage i ≠ .setting

/-- A late call stands before its check, with the switch set or about to be, or it has
found it set. -/
def System.Stands (s : System ι σ) (j : ι) : Prop :=
  s.stage j = .checking ∧ (s.world.r.operationKillSwitch = true ∨ ∃ i, s.stage i = .setting) ∨
    (s.stage j).Barred

/-- What holds of the system behind a trace. -/
structure System.Inv (s : System ι σ) (trace : Trace ι) : Prop where
  excludes : s.Excludes
  failed : ∀ i, (i, Action.fail) ∈ trace →
    (s.stage i).Pending ∨ s.world.r.operationKillSwitch = true
  late : ∀ j, Late trace j → s.Stands j
  clean : NoTraffic trace

theorem System.Starts.inv {s : System ι σ} (hstarts : s.Starts) : s.Inv [] where
  excludes := hstarts.excludes
  failed i hmem := by simp at hmem
  late j hlate := by obtain ⟨i, _, hsub⟩ := hlate; simp at hsub
  clean i j calls _ hsub := by simp at hsub

section Step

variable [DecidableEq ι] {calls : Calls B fuel ι} {s s' : System ι σ} {trace : Trace ι} {i : ι}
  {action : Action}

/-- A call whose exchange has failed stays behind that until it has set the switch. -/
theorem System.Inv.failed_step (hinv : s.Inv trace) (hstep : s.Step calls i action s') (j : ι)
    (hfailed : (j, Action.fail) ∈ trace ++ [(i, action)]) :
    (s'.stage j).Pending ∨ s'.world.r.operationKillSwitch = true := by
  obtain ⟨hacts, _⟩ := hstep
  have hswitch := (hacts.steady (hinv.excludes.keeps i)).switch
  dsimp only
  by_cases hij : j = i
  · subst hij
    rw [Function.update_self]
    rcases List.mem_append.mp hfailed with hold | hnew
    · rcases hinv.failed j hold with hpending | hset
      · exact hacts.pending (.inr hpending)
      · exact .inr (hswitch hset)
    · exact hacts.pending (.inl (by simpa using (List.mem_singleton.mp hnew).symm))
  · have hold : (j, Action.fail) ∈ trace := by simpa [hij] using hfailed
    rw [Function.update_of_ne hij]
    exact (hinv.failed j hold).imp_right hswitch

/-- The move of another call leaves a late one where it stands. -/
theorem System.Stands.other (hinv : s.Inv trace) (hstep : s.Step calls i action s') {j : ι}
    (hij : j ≠ i) (hstands : s.Stands j) : s'.Stands j := by
  obtain ⟨hacts, _⟩ := hstep
  have hswitch := (hacts.steady (hinv.excludes.keeps i)).switch
  unfold System.Stands at *
  dsimp only
  rw [Function.update_of_ne hij]
  refine hstands.imp_left fun ⟨hchecking, hset⟩ => ⟨hchecking, ?_⟩
  rcases hset with hset | ⟨k, hsetting⟩
  · exact .inl (hswitch hset)
  by_cases hki : k = i
  · -- the call that was about to set the switch does
    subst hki
    rw [hsetting] at hacts
    cases hacts
    exact .inl rfl
  · exact .inr ⟨k, by rw [Function.update_of_ne hki, hsetting]⟩

/-- A late call that moves finds the switch set. -/
theorem System.Stands.self (hstep : s.Step calls i action s') (hawaits : s.Awaits i action)
    (hstands : s.Stands i) : s'.Stands i ∧ ∀ calls, action ≠ .exchange calls := by
  obtain ⟨hacts, _⟩ := hstep
  unfold System.Stands
  dsimp only
  rw [Function.update_self]
  rcases hstands with ⟨hchecking, hset⟩ | hbarred
  · rw [hchecking] at hacts
    cases hacts with
    | stop => exact ⟨.inr trivial, by simp⟩
    | pass hclear =>
        rcases hset with hset | ⟨k, hsetting⟩
        · exact absurd (hset.symm.trans hclear) (by decide)
        · exact absurd hsetting (hawaits rfl k)
  · obtain ⟨hbarred', hexchange, _⟩ := hacts.barred hbarred
    exact ⟨.inr hbarred', hexchange⟩

/-- A call that takes the mutex after a failure stands before its check. -/
theorem System.Inv.acquired (hinv : s.Inv trace) (hstep : s.Step calls i .acquire s') {k : ι}
    (hki : k ≠ i) (hfailed : (k, Action.fail) ∈ trace) : s'.Stands i := by
  obtain ⟨hacts, hfree⟩ := hstep
  have hswitch := (hacts.steady (hinv.excludes.keeps i)).switch
  have hnobody : s.holder = none := (hfree rfl).resolve_right hinv.excludes.mutex
  have hloose := (hinv.excludes.holds k).not.mpr (by simp [hnobody])
  unfold System.Stands
  dsimp only
  refine .inl ⟨?_, ?_⟩
  · rw [Function.update_self]
    generalize s.stage i = stage at hacts
    cases hacts
    rfl
  · -- a failed call that had the mutex still would keep this one out
    rcases hinv.failed k hfailed with hpending | hset
    · refine .inr ⟨k, ?_⟩
      rw [Function.update_of_ne hki]
      generalize s.stage k = stage at hpending hloose
      cases stage <;> simp_all [Stage.Pending, Stage.Holds]
    · exact .inl (hswitch hset)

theorem System.Inv.step (hinv : s.Inv trace) (hstep : s.Step calls i action s')
    (hawaits : s.Awaits i action) : s'.Inv (trace ++ [(i, action)]) where
  excludes := hinv.excludes.step hstep
  failed := hinv.failed_step hstep
  late j hlate := by
    rcases late_snoc hlate with hold | ⟨rfl, rfl, k, hkj, hfailed⟩
    · by_cases hij : j = i
      · subst hij
        exact (System.Stands.self hstep hawaits (hinv.late j hold)).1
      · exact System.Stands.other hinv hstep hij (hinv.late j hold)
    · exact hinv.acquired hstep hkj hfailed
  clean := by
    refine hinv.clean.snoc fun made hmade hlate => ?_
    exact (System.Stands.self hstep hawaits (hinv.late i hlate)).2 made hmade

/-- In a run in which no call gets past its check while a failed one has yet to set the
switch, a call that takes the mutex after a failure does not write. -/
theorem noTraffic_of_awaits (calls : Calls B fuel ι) {s v : System ι σ} {trace : Trace ι}
    (hstarts : s.Starts) (hrun : s.Reaches calls System.Awaits trace v) : NoTraffic trace := by
  have hinv : v.Inv trace := by
    induction hrun with
    | start => exact hstarts.inv
    | step _ hstep hawaits ih => exact ih.step hstep hawaits
  exact hinv.clean

end Step

/-! ## The race -/

section Race

/-- Two calls of the same command. -/
def raceCalls : Calls scripted 8 Bool where
  op _ := .send getHandles
  cut _ := .rounds scripted 8 _

abbrev RaceWorld := World (List (Option (List UInt8)))

def raceSystem (w : RaceWorld) (holder : Option Bool)
    (first second : Stage (List (Option (List UInt8)))) :
    System Bool (List (Option (List UInt8))) :=
  ⟨w, holder, fun i => if i then first else second⟩

/-- The device answers the first command with a reply that is not one, and the second
properly. -/
def raceStart : System Bool (List (Option (List UInt8))) :=
  raceSystem (scriptedWorld 512
    [some (Container.bytes 2 ⟨0x1007, 0, []⟩ ++ Container.bytes 2 ⟨0x1007, 0, []⟩), some okResponse])
    none .entering .entering

theorem raceStart_starts : raceStart.Starts := ⟨rfl, rfl, fun i => by cases i <;> rfl⟩

def logLength : M σ Nat := fun w => .ok w.log.length w

/-- The exchange of one call and, behind the release of the mutex, that of the other. -/
def raceExchanges : M (List (Option (List UInt8))) (Int × Nat × Int) := do
  (Operation.send getHandles).prepare scripted
  let rc ← (Operation.send getHandles).sendTry scripted 8
  ptpMutexUnlock
  ptpMutexLock
  (Operation.send getHandles).prepare scripted
  let made ← logLength
  let rc' ← (Operation.send getHandles).sendTry scripted 8
  pure (rc, made, rc')

variable {allowed : System Bool (List (Option (List UInt8))) → Bool → Action → Prop}
  {trace : Trace Bool} {w w' : RaceWorld} {holder : Option Bool} {action : Action}
  {first second next : Stage (List (Option (List UInt8)))}

theorem race_update : Function.update (raceSystem w holder first second).stage true next =
    (raceSystem w holder next second).stage := by
  funext i
  cases i <;> rfl

theorem race_update_second : Function.update (raceSystem w holder first second).stage false next =
    (raceSystem w holder first next).stage := by
  funext i
  cases i <;> rfl

/-- The first call moves. -/
theorem race_first
    (hrun : raceStart.Reaches raceCalls allowed trace (raceSystem w holder first second))
    (hacts : Acts (raceCalls.cut true) first w action next w')
    (hfree : action = .acquire → holder = none)
    (hallowed : allowed (raceSystem w holder first second) true action) :
    raceStart.Reaches raceCalls allowed (trace ++ [(true, action)])
      (raceSystem w' (action.holder true holder) next second) := by
  have hmoved := hrun.step (.intro (i := true) hacts fun h => .inl (hfree h)) hallowed
  rw [race_update] at hmoved
  exact hmoved

/-- The second call moves. -/
theorem race_second
    (hrun : raceStart.Reaches raceCalls allowed trace (raceSystem w holder first second))
    (hacts : Acts (raceCalls.cut false) second w action next w')
    (hfree : action = .acquire → holder = none)
    (hallowed : allowed (raceSystem w holder first second) false action) :
    raceStart.Reaches raceCalls allowed (trace ++ [(false, action)])
      (raceSystem w' (action.holder false holder) first next) := by
  have hmoved := hrun.step (.intro (i := false) hacts fun h => .inl (hfree h)) hallowed
  rw [race_update_second] at hmoved
  exact hmoved

/-- The first call has failed and released the mutex, and the second is about to take it. -/
theorem race : ∃ (trace : Trace Bool) (v : RaceWorld),
    raceStart.Reaches raceCalls System.Awaits (trace ++ [(true, .fail)] ++ [(true, .release)])
      (raceSystem v none .setting .locking) ∧ v.r.operationKillSwitch = false ∧
    ∃ u u' rc', (Operation.send getHandles).prepare scripted (locked v) = .ok () u ∧
      (Operation.send getHandles).sendTry scripted 8 u = .ok rc' u' ∧
      ((u'.log.drop u.log.length).any Call.isWrite) = true := by
  let w₀ := raceStart.world
  obtain ⟨⟨rc, made, rc'⟩, u', hraced, hhow⟩ := run_of_returnsOn raceExchanges (locked w₀)
    (fun r v => decide (r.1 = PtpGeneralError.ioErr ∧ v.r.operationKillSwitch = false ∧
      (v.log.drop r.2.1).any Call.isWrite)) (by decide +kernel)
  obtain ⟨rfl, hclear, hwrites⟩ := of_decide_eq_true hhow
  obtain ⟨_, w₁, hprepare, hrest⟩ := bind_eq_ok.mp hraced
  obtain ⟨rc₁, w₂, htry, hrest₁⟩ := bind_eq_ok.mp hrest
  obtain ⟨_, w₃, hunlock, hrest₂⟩ := bind_eq_ok.mp hrest₁
  obtain ⟨_, w₄, hlock, hrest₃⟩ := bind_eq_ok.mp hrest₂
  obtain ⟨_, u, hprepare', hrest₄⟩ := bind_eq_ok.mp hrest₃
  obtain ⟨made', u₁, hmade, hrest₅⟩ := bind_eq_ok.mp hrest₄
  obtain ⟨rc₂, u₂, htry', hreturn⟩ := bind_eq_ok.mp hrest₅
  obtain ⟨hresult, rfl⟩ := EStateM.Result.ok.inj hreturn
  obtain ⟨rfl, rfl⟩ := EStateM.Result.ok.inj hmade
  obtain ⟨_, rfl⟩ := EStateM.Result.ok.inj hunlock
  obtain ⟨_, rfl⟩ := EStateM.Result.ok.inj hlock
  obtain ⟨rfl, hpair⟩ := Prod.mk.inj hresult
  obtain ⟨rfl, rfl⟩ := Prod.mk.inj hpair
  -- the switch is as it was at the start
  have hswitch : w₂.r.operationKillSwitch = false := by
    have hsetup := (Operation.prepare_exchanges _ hprepare).1
    have hsetup' := ((Cut.rounds scripted 8 (.send getHandles)).exchanges htry).1
    rw [hsetup'.runtime, hsetup.runtime]
    rfl
  have hbegin : raceStart.Reaches raceCalls System.Awaits [] raceStart := .start
  have hsecond := race_second hbegin (.enter rfl) (by simp) (by simp [System.Awaits])
  have hfirst := race_first hsecond (.enter rfl) (by simp) (by simp [System.Awaits])
  have hacquired := race_first hfirst .lock (fun _ => rfl) (by simp [System.Awaits])
  have hpassed := race_first hacquired (.pass rfl) (by simp) fun _ i => by
    cases i <;> simp [raceSystem]
  obtain ⟨part, hlog⟩ := (Operation.prepare_exchanges _ hprepare).2
  have hprepared := race_first hpassed (.prepare hprepare hlog.symm) (by simp)
    (by simp [System.Awaits])
  obtain ⟨made, _, htried⟩ := hprepared.tries (i := true) (by simp [System.Awaits]) rfl
    (Cut.rounds scripted 8 (.send getHandles)).keeps
    ((congrFun (Cut.rounds scripted 8 (.send getHandles)).run_eq _).trans htry)
  rw [race_update] at htried
  have hfailed := race_first htried (.fail (by decide) (by decide)) (by simp)
    (by simp [System.Awaits])
  have hreleased := race_first hfailed .release (by simp) (by simp [System.Awaits])
  exact ⟨_, _, hreleased, hswitch, u, _, _, hprepare', htry', hwrites⟩

/-- The second call writes if it takes the mutex and looks at the switch first. -/
theorem traffic_after_failure : ∃ (trace : Trace Bool) (v : System Bool _),
    raceStart.Starts ∧ raceStart.Reaches raceCalls (fun _ _ _ => True) trace v ∧
      ¬NoTraffic trace := by
  obtain ⟨trace, w, hrun, hclear, u, u', rc, hprepare, htry, hwrites⟩ := race
  have hreleased := hrun.any
  have hacquired := race_second hreleased .lock (fun _ => rfl) trivial
  have hpassed := race_second hacquired (.pass hclear) (by simp) trivial
  obtain ⟨part, hlog⟩ := (Operation.prepare_exchanges _ hprepare).2
  have hprepared := race_second hpassed (.prepare hprepare hlog.symm) (by simp) trivial
  obtain ⟨made, hmade, htried⟩ := hprepared.tries (i := false) (fun _ _ => trivial) rfl
    (Cut.rounds scripted 8 (.send getHandles)).keeps
    ((congrFun (Cut.rounds scripted 8 (.send getHandles)).run_eq _).trans htry)
  refine ⟨_, _, raceStart_starts, htried, fun hquiet => ?_⟩
  have hmade' : u'.log = u.log ++ made.flatten := hmade
  rw [hmade', List.drop_left] at hwrites
  obtain ⟨call, hcall, hwrite⟩ := List.any_eq_true.mp hwrites
  obtain ⟨calls, hcalls, hmem⟩ := List.mem_flatten.mp hcall
  have hreads := hquiet true false calls (by decide) ?_ call hmem
  · rw [hwrite] at hreads
    cases hreads
  · have hfail : [(true, Action.fail)].Sublist (trace ++ [(true, .fail)] ++ [(true, .release)]) :=
      (List.sublist_append_right _ _).trans (List.sublist_append_left _ _)
    have hexchange : [(false, Action.exchange calls)].Sublist
        (made.map fun part => (false, Action.exchange part)) :=
      List.singleton_sublist.mpr (List.mem_map_of_mem hcalls)
    have hacquire := hfail.append (List.Sublist.refl [(false, Action.acquire)])
    have hpass := hacquire.trans (List.sublist_append_left _ [(false, Action.pass)])
    have hprepare := hpass.trans (List.sublist_append_left _ [(false, Action.exchange part)])
    exact hprepare.append hexchange

/-- A run in which the first call sets the switch in time: the second finds it set. -/
theorem noTraffic_of_awaits_race : ∃ (trace : Trace Bool) (v : System Bool _),
    raceStart.Reaches raceCalls System.Awaits trace v ∧ Late trace false ∧ NoTraffic trace := by
  obtain ⟨trace, w, hrun, _⟩ := race
  -- in time: the switch is set before the second call takes the mutex
  have hset := race_first hrun .set (by simp) (by simp [System.Awaits])
  have hacquired := race_second hset .lock (fun _ => rfl) (by simp [System.Awaits])
  have hstopped := race_second hacquired (.stop rfl) (by simp) (by simp [System.Awaits])
  refine ⟨_, _, hstopped, ⟨true, by decide, ?_⟩,
    noTraffic_of_awaits raceCalls raceStart_starts hstopped⟩
  have hfail : [(true, Action.fail)].Sublist (trace ++ [(true, .fail)] ++ [(true, .release)]) :=
    (List.sublist_append_right _ _).trans (List.sublist_append_left _ _)
  have hquiet := hfail.trans (List.sublist_append_left _ [(true, Action.quiet)])
  have hacquire := hquiet.append (List.Sublist.refl [(false, Action.acquire)])
  exact hacquire.trans (List.sublist_append_left _ _)

end Race

end Libpict
