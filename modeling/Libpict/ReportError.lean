import Libpict.Base.Transitions
import Libpict.Commands
import Libpict.Serial

/-! # Reporting an error while other threads use the runtime

`ptp_report_error` cuts the connection of a runtime. Threads that report an error and
threads in `ptp_send` or `ptp_send_data` share the runtime and its recursive mutex, and move
in any order, a step being one line of a function or one piece of an exchange.
-/

namespace Libpict

open CInt Exec Transitions

variable {σ ι : Type} {B : Backend σ} {fuel : Nat}

/-- The operation of `ptp_close_session`. -/
def closeSession : Operation := .send (PtpCommand.plain 0x1003)

/-- The rest of `ptp_report_error` once the session is closed, if it is to be closed. -/
def cutConnection : M σ Unit := do
  updateRuntime fun r => { r with operationKillSwitch := true }
  updateRuntime fun r => { r with ioKillSwitch := true }
  ptpMutexUnlock

/-- `ptp_report_error`; the reason only goes to the log. -/
def ptpReportError (B : Backend σ) (fuel : Nat) (code : Int) : M σ Unit := do
  let r ← runtime
  if r.ioKillSwitch then pure ()
  else do
    if code ≠ 0 then updateRuntime fun r => { r with operationKillSwitch := true } else pure ()
    ptpMutexLock
    let r ← runtime
    -- another thread has cut the connection in the meantime
    if r.ioKillSwitch then ptpMutexUnlock
    else do
      if code = 0 then do
        let _ ← ptpCloseSession B fuel
        cutConnection
      else cutConnection

/-! ## The stages of a report -/

/-- Where a report stands. -/
inductive ReportStage (σ : Type) : Type 1
  /-- Before its first look at the I/O switch. -/
  | entering
  /-- Before it sets the operation switch, without the mutex. -/
  | marking
  /-- Before it takes the mutex. -/
  | locking
  /-- Before its second look at the I/O switch, under the mutex. -/
  | checking
  /-- In `ptp_close_session`. -/
  | closing (stage : Stage σ)
  /-- Before it sets the operation switch, under the mutex. -/
  | switching
  /-- Before it sets the I/O switch. -/
  | killing
  /-- Before it releases the mutex. -/
  | leaving
  | reported

/-- The world once the I/O switch has been set. -/
def killed (w : World σ) : World σ := { w with r := { w.r with ioKillSwitch := true } }

/-- A step of a report. -/
inductive Reports (code : Int) (cut : Cut B fuel closeSession) :
    ReportStage σ → World σ → Action → ReportStage σ → World σ → Prop
  | known {w} : w.r.ioKillSwitch = true → Reports code cut .entering w .quiet .reported w
  | enter {w} : w.r.ioKillSwitch = false → code = 0 →
      Reports code cut .entering w .quiet .locking w
  | enterFailing {w} : w.r.ioKillSwitch = false → code ≠ 0 →
      Reports code cut .entering w .quiet .marking w
  | mark {w} : Reports code cut .marking w .quiet .locking (switched w)
  | lock {w} : Reports code cut .locking w .acquire .checking (locked w)
  | late {w} : w.r.ioKillSwitch = true → Reports code cut .checking w .quiet .leaving w
  | close {w} : w.r.ioKillSwitch = false → code = 0 →
      Reports code cut .checking w .quiet (.closing .entering) w
  | skip {w} : w.r.ioKillSwitch = false → code ≠ 0 →
      Reports code cut .checking w .quiet .switching w
  | closing {stage w action stage' w'} : Acts cut stage w action stage' w' →
      Reports code cut (.closing stage) w action (.closing stage') w'
  | closed {rc w} : Reports code cut (.closing (.returned rc)) w .quiet .switching w
  | switch {w} : Reports code cut .switching w .quiet .killing (switched w)
  | kill {w} : Reports code cut .killing w .quiet .leaving (killed w)
  | leave {w} : Reports code cut .leaving w .release .reported (unlocked w)

/-- What a report at the stage has still to do, if nobody comes in between. -/
def ReportStage.rest (B : Backend σ) (fuel : Nat) (code : Int) : ReportStage σ → M σ Unit
  | entering => ptpReportError B fuel code
  | marking => do
      updateRuntime fun r => { r with operationKillSwitch := true }
      ptpMutexLock
      let r ← runtime
      if r.ioKillSwitch then ptpMutexUnlock
      else do
        if code = 0 then do
          let _ ← ptpCloseSession B fuel
          cutConnection
        else cutConnection
  | locking => do
      ptpMutexLock
      let r ← runtime
      if r.ioKillSwitch then ptpMutexUnlock
      else do
        if code = 0 then do
          let _ ← ptpCloseSession B fuel
          cutConnection
        else cutConnection
  | checking => do
      let r ← runtime
      if r.ioKillSwitch then ptpMutexUnlock
      else do
        if code = 0 then do
          let _ ← ptpCloseSession B fuel
          cutConnection
        else cutConnection
  | closing stage => do
      let _ ← stage.rest B fuel closeSession
      cutConnection
  | switching => cutConnection
  | killing => do
      updateRuntime fun r => { r with ioKillSwitch := true }
      ptpMutexUnlock
  | leaving => ptpMutexUnlock
  | reported => pure ()

/-- A step does not change what comes of the report. -/
theorem Reports.rest_eq {code : Int} {cut : Cut B fuel closeSession}
    {stage stage' : ReportStage σ} {w w' : World σ} {action : Action}
    (hreports : Reports code cut stage w action stage' w') :
    stage.rest B fuel code w = stage'.rest B fuel code w' := by
  cases hreports with
  | known hset =>
      simp only [ReportStage.rest, ptpReportError]
      rw [bind_ok (runtime_run w), if_pos hset]
  | enter hclear hcode =>
      simp only [ReportStage.rest, ptpReportError]
      rw [bind_ok (runtime_run w), if_neg (by simp [hclear]), if_neg (not_not.mpr hcode)]
  | enterFailing hclear hcode =>
      simp only [ReportStage.rest, ptpReportError]
      rw [bind_ok (runtime_run w), if_neg (by simp [hclear]), if_pos hcode]
  | mark => rfl
  | lock => rfl
  | late hset =>
      simp only [ReportStage.rest]
      rw [bind_ok (runtime_run w), if_pos hset]
  | close hclear hcode =>
      simp only [ReportStage.rest]
      rw [bind_ok (runtime_run w), if_neg (by simp [hclear]), if_pos hcode]
      rfl
  | skip hclear hcode =>
      simp only [ReportStage.rest]
      rw [bind_ok (runtime_run w), if_neg (by simp [hclear]), if_neg hcode]
  | @closing stage w action stage' w' hacts =>
      simp only [ReportStage.rest, bind_run]
      rw [hacts.rest_eq]
  | closed => rfl
  | switch => rfl
  | kill => rfl
  | leave => rfl

/-! ## The threads -/

/-- What a thread is there for. -/
inductive Party (B : Backend σ) (fuel : Nat)
  | caller (op : Operation) (cut : Cut B fuel op)
  | reporter (code : Int) (cut : Cut B fuel closeSession)

/-- Where a thread stands. -/
inductive Standing (σ : Type) : Type 1
  | calling (stage : Stage σ)
  | reporting (stage : ReportStage σ)

/-- A step of a thread. -/
inductive Party.Acts : Party B fuel → Standing σ → World σ → Action → Standing σ → World σ → Prop
  | call {op} {cut : Cut B fuel op} {stage w action stage' w'} :
      Libpict.Acts cut stage w action stage' w' →
      Acts (.caller op cut) (.calling stage) w action (.calling stage') w'
  | report {code} {cut : Cut B fuel closeSession} {stage w action stage' w'} :
      Reports code cut stage w action stage' w' →
      Acts (.reporter code cut) (.reporting stage) w action (.reporting stage') w'

/-- The stage of `ptp_send` or `ptp_send_data` that the thread is in, if it is in one. -/
def Standing.stage? : Standing σ → Option (Stage σ)
  | calling stage => some stage
  | reporting (.closing stage) => some stage
  | _ => none

/-- An exchange may be under way: the thread has passed the check under the mutex. -/
def Stage.Transacts : Stage σ → Prop
  | preparing | trying _ | retrying _ => True
  | _ => False

def Standing.Transacts (standing : Standing σ) : Prop :=
  ∃ stage, standing.stage? = some stage ∧ stage.Transacts

/-- How often the thread holds the mutex. -/
def Stage.depth : Stage σ → Nat
  | entering | locking | setting | returned _ => 0
  | _ => 1

def Standing.depth : Standing σ → Nat
  | calling stage => stage.depth
  | reporting (.entering) | reporting (.marking) | reporting (.locking)
  | reporting (.reported) => 0
  | reporting (.closing stage) => 1 + stage.depth
  | _ => 1

/-- The pieces that are left still do what an exchange may do. -/
def Standing.Keeps (standing : Standing σ) : Prop :=
  ∀ stage, standing.stage? = some stage → stage.Keeps

/-- The connection is cut, or about to be by this thread: it has found the I/O switch clear
under the mutex, or set. -/
def Standing.Cutting : Standing σ → Prop
  | reporting (.closing _) | reporting .switching | reporting .killing => True
  | _ => False

/-- The report is over but for the release of the mutex. -/
def Standing.Reported : Standing σ → Prop
  | reporting .leaving | reporting .reported => True
  | _ => False

/-! ## What a step changes -/

section Acts

variable {op : Operation} {cut : Cut B fuel op} {stage stage' : Stage σ} {w w' : World σ}
  {action : Action}

theorem Acts.ioKillSwitch (hacts : Acts cut stage w action stage' w') (hkeeps : stage.Keeps) :
    w'.r.ioKillSwitch = w.r.ioKillSwitch := by
  have hsetup : ∀ {v v' : World σ}, SameSetup v v' → v'.r.ioKillSwitch = v.r.ioKillSwitch := by
    intro v v' hsame
    rw [hsame.runtime]
  cases hacts with
  | prepare hrun => exact hsetup (op.prepare_exchanges hrun).1
  | trying hrun => exact hsetup (hkeeps.1.moves.of_ok hrun).1
  | retrying hrun => exact hsetup (hkeeps.1.moves.of_ok hrun).1
  | answer hrun => rw [Acts.answer_world hrun]
  | _ => rfl

/-- The mutex goes the way of the depth. -/
theorem Acts.depth (hacts : Acts cut stage w action stage' w') (hkeeps : stage.Keeps) :
    (action = .acquire ∧ stage'.depth = stage.depth + 1 ∧ w'.r.mutex = w.r.mutex.map (· + 1)) ∨
      (action = .release ∧ stage.depth = stage'.depth + 1 ∧
        w'.r.mutex = w.r.mutex.map (· - 1)) ∨
      (action ≠ .acquire ∧ action ≠ .release ∧ stage'.depth = stage.depth ∧
        w'.r.mutex = w.r.mutex) := by
  have hsetup : ∀ {v v' : World σ}, SameSetup v v' → v'.r.mutex = v.r.mutex := by
    intro v v' hsame
    rw [hsame.runtime]
  cases hacts with
  | lock => exact .inl ⟨rfl, rfl, rfl⟩
  | release => exact .inr (.inl ⟨rfl, rfl, rfl⟩)
  | leave => exact .inr (.inl ⟨rfl, rfl, rfl⟩)
  | prepare hrun =>
      exact .inr (.inr ⟨by simp, by simp, rfl, hsetup (op.prepare_exchanges hrun).1⟩)
  | trying hrun =>
      exact .inr (.inr ⟨by simp, by simp, rfl, hsetup (hkeeps.1.moves.of_ok hrun).1⟩)
  | retrying hrun =>
      exact .inr (.inr ⟨by simp, by simp, rfl, hsetup (hkeeps.1.moves.of_ok hrun).1⟩)
  | answer hrun => exact .inr (.inr ⟨by simp, by simp, rfl, by rw [Acts.answer_world hrun]⟩)
  | _ => exact .inr (.inr ⟨by simp, by simp, rfl, rfl⟩)

/-- An exchange starts with a look at the switch. -/
theorem Acts.transacts (hacts : Acts cut stage w action stage' w') (htransacts : stage'.Transacts) :
    stage.Transacts ∨ w.r.operationKillSwitch = false := by
  cases hacts with
  | pass hclear => exact .inr hclear
  | prepare => exact .inl trivial
  | trying => exact .inl trivial
  | retry => exact .inl trivial
  | retrying => exact .inl trivial
  | _ => cases htransacts

theorem Acts.transacts_of_exchange {calls : List Call}
    (hacts : Acts cut stage w (.exchange calls) stage' w') : stage.Transacts := by
  cases hacts <;> trivial

omit B in
theorem Stage.Transacts.depth (htransacts : stage.Transacts) : stage.depth = 1 := by
  cases stage <;> first | rfl | cases htransacts

end Acts

section Parties

variable {party : Party B fuel} {standing standing' : Standing σ} {w w' : World σ}
  {action : Action}

/-- What a thread leaves alone: a set switch stays set. -/
theorem Party.Acts.switches (hacts : party.Acts standing w action standing' w')
    (hkeeps : standing.Keeps) :
    (w.r.operationKillSwitch = true → w'.r.operationKillSwitch = true) ∧
      (w.r.ioKillSwitch = true → w'.r.ioKillSwitch = true) := by
  cases hacts with
  | call hcall =>
      have hstage := hkeeps _ rfl
      exact ⟨(hcall.steady hstage).switch, fun h => (hcall.ioKillSwitch hstage).trans h⟩
  | report hreport =>
      cases hreport with
      | closing hcall =>
          have hstage := hkeeps _ rfl
          exact ⟨(hcall.steady hstage).switch, fun h => (hcall.ioKillSwitch hstage).trans h⟩
      | mark => exact ⟨fun _ => rfl, id⟩
      | switch => exact ⟨fun _ => rfl, id⟩
      | kill => exact ⟨id, fun _ => rfl⟩
      | _ => exact ⟨id, id⟩

theorem Party.Acts.keeps (hacts : party.Acts standing w action standing' w')
    (hkeeps : standing.Keeps) : standing'.Keeps := by
  intro stage' hstage'
  cases hacts with
  | call hcall =>
      obtain rfl := Option.some.inj hstage'
      exact hcall.keeps (hkeeps _ rfl)
  | report hreport =>
      cases hreport with
      | closing hcall =>
          obtain rfl := Option.some.inj hstage'
          exact hcall.keeps (hkeeps _ rfl)
      | close =>
          obtain rfl := Option.some.inj hstage'
          trivial
      | _ => cases hstage'

/-- The calls of a step are those that it adds to the log. -/
theorem Party.Acts.log (hacts : party.Acts standing w action standing' w') :
    w'.log = w.log ++ action.calls := by
  cases hacts with
  | call hcall => exact hcall.log
  | report hreport =>
      cases hreport with
      | closing hcall => exact hcall.log
      | _ => exact (List.append_nil _).symm

theorem Party.Acts.depth (hacts : party.Acts standing w action standing' w')
    (hkeeps : standing.Keeps) :
    (action = .acquire ∧ standing'.depth = standing.depth + 1 ∧
        w'.r.mutex = w.r.mutex.map (· + 1)) ∨
      (action = .release ∧ standing.depth = standing'.depth + 1 ∧
        w'.r.mutex = w.r.mutex.map (· - 1)) ∨
      (action ≠ .acquire ∧ action ≠ .release ∧ standing'.depth = standing.depth ∧
        w'.r.mutex = w.r.mutex) := by
  cases hacts with
  | call hcall => exact hcall.depth (hkeeps _ rfl)
  | report hreport =>
      cases hreport with
      | lock => exact .inl ⟨rfl, rfl, rfl⟩
      | leave => exact .inr (.inl ⟨rfl, rfl, rfl⟩)
      | closing hcall =>
          simp only [Standing.depth, Nat.add_assoc, Nat.add_left_cancel_iff]
          exact hcall.depth (hkeeps _ rfl)
      | _ => exact .inr (.inr ⟨by simp, by simp, rfl, rfl⟩)

/-- An exchange starts with a look at the operation switch. -/
theorem Party.Acts.transacts (hacts : party.Acts standing w action standing' w')
    (htransacts : standing'.Transacts) :
    standing.Transacts ∨ w.r.operationKillSwitch = false := by
  obtain ⟨stage', hstage', htransacts⟩ := htransacts
  cases hacts with
  | call hcall =>
      obtain rfl := Option.some.inj hstage'
      exact (hcall.transacts htransacts).imp_left fun h => ⟨_, rfl, h⟩
  | report hreport =>
      cases hreport with
      | closing hcall =>
          obtain rfl := Option.some.inj hstage'
          exact (hcall.transacts htransacts).imp_left fun h => ⟨_, rfl, h⟩
      | close =>
          obtain rfl := Option.some.inj hstage'
          cases htransacts
      | _ => cases hstage'

theorem Party.Acts.transacts_of_exchange {calls : List Call}
    (hacts : party.Acts standing w (.exchange calls) standing' w') : standing.Transacts := by
  cases hacts with
  | call hcall => exact ⟨_, rfl, hcall.transacts_of_exchange⟩
  | report hreport =>
      cases hreport with
      | closing hcall => exact ⟨_, rfl, hcall.transacts_of_exchange⟩

omit B in
theorem Standing.Transacts.depth_pos (htransacts : standing.Transacts) : 0 < standing.depth := by
  obtain ⟨stage, hstage, htransacts⟩ := htransacts
  have hdepth := htransacts.depth
  cases standing with
  | calling stage =>
      obtain rfl := Option.some.inj hstage
      simp [Standing.depth, hdepth]
  | reporting stage =>
      cases stage with
      | closing stage => simp [Standing.depth]
      | _ => cases hstage

/-- The I/O switch is set by a report, under the mutex and with the operation switch set. -/
theorem Party.Acts.kills (hacts : party.Acts standing w action standing' w')
    (hkeeps : standing.Keeps) (hclear : w.r.ioKillSwitch = false)
    (hset : w'.r.ioKillSwitch = true) :
    standing = .reporting .killing ∧ standing' = .reporting .leaving := by
  have hsame : w'.r.ioKillSwitch ≠ w.r.ioKillSwitch := by simp [hclear, hset]
  cases hacts with
  | call hcall => exact absurd (hcall.ioKillSwitch (hkeeps _ rfl)) hsame
  | report hreport =>
      cases hreport with
      | closing hcall => exact absurd (hcall.ioKillSwitch (hkeeps _ rfl)) hsame
      | kill => exact ⟨rfl, rfl⟩
      | _ => exact absurd rfl hsame

/-- A thread that is done with the connection has found the I/O switch set, or set it. -/
theorem Party.Acts.reported (hacts : party.Acts standing w action standing' w')
    (hreported : standing'.Reported) : standing.Reported ∨ w'.r.ioKillSwitch = true := by
  cases hacts with
  | call => cases hreported
  | report hreport =>
      cases hreport with
      | known hset => exact .inr hset
      | late hset => exact .inr hset
      | kill => exact .inr rfl
      | leave => exact .inl trivial
      | _ => cases hreported

/-- Before it sets the I/O switch, a report sets the operation switch. -/
theorem Party.Acts.killing (hacts : party.Acts standing w action standing' w')
    (hkilling : standing' = .reporting .killing) : w'.r.operationKillSwitch = true := by
  cases hacts with
  | call => cases hkilling
  | report hreport =>
      cases hreport with
      | switch => rfl
      | _ => cases hkilling

/-- A report that is about to cut the connection goes on until the I/O switch is set. -/
theorem Party.Acts.cutting (hacts : party.Acts standing w action standing' w')
    (hcutting : standing.Cutting) : standing'.Cutting ∨ w'.r.ioKillSwitch = true := by
  cases hacts with
  | call => cases hcutting
  | report hreport =>
      cases hreport with
      | closing => exact .inl trivial
      | closed => exact .inl trivial
      | switch => exact .inl trivial
      | kill => exact .inr rfl
      | _ => cases hcutting

omit B in
theorem Standing.Cutting.depth_pos (hcutting : standing.Cutting) : 0 < standing.depth := by
  cases standing with
  | calling => cases hcutting
  | reporting stage =>
      cases stage with
      | closing stage => simp [Standing.depth]
      | switching => exact Nat.one_pos
      | killing => exact Nat.one_pos
      | _ => cases hcutting

end Parties

/-! ## The system -/

/-- The threads that share a runtime: the world, the thread that holds the mutex, and where
each thread stands. -/
structure Threads (ι σ : Type) where
  world : World σ
  holder : Option ι
  stands : ι → Standing σ

/-- Who holds the recursive mutex after an action of `i` that leaves it as deep as given. -/
def Action.heldBy (i : ι) (depth : Option Nat) (holder : Option ι) : Action → Option ι
  | acquire => some i
  | release => if depth = some 0 then none else holder
  | _ => holder

section System

variable [DecidableEq ι] {parties : ι → Party B fuel}

/-- One thread makes a step. It takes the mutex while nobody else holds it; a runtime
without a mutex keeps nobody out. -/
inductive Threads.Step (parties : ι → Party B fuel) : Threads ι σ → ι × Action → Threads ι σ → Prop
  | intro {s : Threads ι σ} {i : ι} {action : Action} {standing' : Standing σ} {w' : World σ} :
      (parties i).Acts (s.stands i) s.world action standing' w' →
      (action = .acquire → s.holder = none ∨ s.holder = some i ∨ s.world.r.mutex = none) →
      Step parties s (i, action)
        ⟨w', action.heldBy i w'.r.mutex s.holder, Function.update s.stands i standing'⟩

/-- All threads are about to start on a runtime whose mutex is free; the switches are as
`ptp_reset`, an open connection, an operation that failed or an earlier report leaves them. -/
structure Threads.Starts (s : Threads ι σ) : Prop where
  mutex : s.world.r.mutex = some 0
  holder : s.holder = none
  stands : ∀ i, s.stands i = .calling .entering ∨ s.stands i = .reporting .entering
  switches : s.world.r.ioKillSwitch = true → s.world.r.operationKillSwitch = true

/-- The mutex is as deep as its holder holds it, and nobody else holds it. Once the I/O
switch is set, so is the operation switch, and no exchange is under way. -/
structure Threads.Guarded (s : Threads ι σ) : Prop where
  keeps : ∀ i, (s.stands i).Keeps
  mutex : s.world.r.mutex = some (s.holder.elim 0 fun i => (s.stands i).depth)
  holds : ∀ i, 0 < (s.stands i).depth ↔ s.holder = some i
  switches : s.world.r.ioKillSwitch = true → s.world.r.operationKillSwitch = true
  quiet : s.world.r.ioKillSwitch = true → ∀ i, ¬(s.stands i).Transacts
  killing : ∀ i, s.stands i = .reporting .killing → s.world.r.operationKillSwitch = true
  reported : ∀ i, (s.stands i).Reported → s.world.r.ioKillSwitch = true

variable {s s' : Threads ι σ} {i : ι} {action : Action}

omit [DecidableEq ι] in
theorem Threads.Starts.guarded (hstarts : s.Starts) : s.Guarded where
  keeps j stage hstage := by
    rcases hstarts.stands j with h | h
    · rw [h] at hstage
      obtain rfl := Option.some.inj hstage
      trivial
    · rw [h] at hstage
      cases hstage
  mutex := by
    rw [hstarts.holder]
    exact hstarts.mutex
  holds j := by
    rw [hstarts.holder]
    rcases hstarts.stands j with h | h <;> simp [h, Standing.depth, Stage.depth]
  switches := hstarts.switches
  quiet _ j := by
    rintro ⟨stage, hstage, htransacts⟩
    rcases hstarts.stands j with h | h
    · rw [h] at hstage
      obtain rfl := Option.some.inj hstage
      cases htransacts
    · rw [h] at hstage
      cases hstage
  killing j hkilling := by
    rcases hstarts.stands j with h | h <;> cases h.symm.trans hkilling
  reported j hreported := by
    rcases hstarts.stands j with h | h <;> rw [h] at hreported <;> cases hreported

/-- The mutex and its holder go together. -/
theorem Threads.Guarded.mutex_step (hguarded : s.Guarded) (hstep : s.Step parties (i, action) s') :
    s'.world.r.mutex = some (s'.holder.elim 0 fun i => (s'.stands i).depth) ∧
      ∀ j, 0 < (s'.stands j).depth ↔ s'.holder = some j := by
  obtain @⟨_, _, standing', w', hacts, hfree⟩ := hstep
  have hholds := hguarded.holds
  have hmutex := hguarded.mutex
  dsimp only
  rcases hacts.depth (hguarded.keeps i) with ⟨rfl, hdepth, hlocked⟩ | ⟨rfl, hdepth, hunlocked⟩ |
    ⟨hacquire, hrelease, hdepth, hsame⟩
  · -- it was free, or the thread had it already
    have hfree' : s.holder = none ∨ s.holder = some i := by
      rcases hfree rfl with h | h | h
      · exact .inl h
      · exact .inr h
      · rw [hmutex] at h
        cases h
    have hbefore : s.holder.elim 0 (fun i => (s.stands i).depth) = (s.stands i).depth := by
      rcases hfree' with h | h
      · have hzero : (s.stands i).depth = 0 := by
          have := (hholds i).not.mpr (by simp [h])
          omega
        simp [h, hzero]
      · simp [h]
    refine ⟨?_, fun j => ?_⟩
    · rw [hlocked, hmutex, hbefore]
      simp [Action.heldBy, hdepth]
    · by_cases hij : j = i
      · subst hij
        simp [Action.heldBy, hdepth]
      · rw [Function.update_of_ne hij, hholds j]
        simp only [Action.heldBy, Option.some.injEq]
        rcases hfree' with h | h <;> simp [h, Ne.symm hij]
  · have hheld : s.holder = some i := (hholds i).mp (by omega)
    have hafter : s.world.r.mutex.map (· - 1) = some standing'.depth := by
      rw [hmutex, hheld, Option.elim_some, hdepth]
      rfl
    rw [hunlocked, hafter]
    by_cases hzero : standing'.depth = 0
    · refine ⟨by simp [Action.heldBy, hzero], fun j => ?_⟩
      by_cases hij : j = i
      · subst hij
        simp [Action.heldBy, hzero]
      · rw [Function.update_of_ne hij, hholds j, hheld]
        simp [Action.heldBy, hzero, Ne.symm hij]
    · refine ⟨by simp [Action.heldBy, hzero, hheld], fun j => ?_⟩
      by_cases hij : j = i
      · subst hij
        simp [Action.heldBy, hzero, hheld, Nat.pos_of_ne_zero hzero]
      · rw [Function.update_of_ne hij, hholds j, hheld]
        simp [Action.heldBy, hzero]
  · have hkept : action.heldBy i w'.r.mutex s.holder = s.holder := by
      cases action <;> first | rfl | contradiction
    rw [hkept, hsame, hmutex]
    have hdepths : ∀ j, (Function.update s.stands i standing' j).depth = (s.stands j).depth := by
      intro j
      by_cases hij : j = i
      · subst hij
        rw [Function.update_self, hdepth]
      · rw [Function.update_of_ne hij]
    refine ⟨?_, fun j => ?_⟩
    · cases s.holder with
      | none => rfl
      | some j => simp only [Option.elim_some, hdepths]
    · rw [hdepths]
      exact hholds j

omit [DecidableEq ι] in
/-- Only the holder of the mutex may be in an exchange or about to cut the connection. -/
theorem Threads.Guarded.alone (hguarded : s.Guarded) {j : ι} (hi : 0 < (s.stands i).depth)
    (hij : j ≠ i) : (s.stands j).depth = 0 := by
  by_contra hdepth
  have hheld := (hguarded.holds i).mp hi
  have hheld' := (hguarded.holds j).mp (Nat.pos_of_ne_zero hdepth)
  exact hij (Option.some.inj (hheld'.symm.trans hheld))

/-- Where the I/O switch is set, no thread is in an exchange. -/
theorem Threads.Guarded.quiet_step (hguarded : s.Guarded) (hstep : s.Step parties (i, action) s')
    (hset : s'.world.r.ioKillSwitch = true) (j : ι) : ¬(s'.stands j).Transacts := by
  obtain ⟨hacts, _⟩ := hstep
  have hkeeps := hguarded.keeps i
  dsimp only at hset ⊢
  intro htransacts
  by_cases hbefore : s.world.r.ioKillSwitch = true
  · by_cases hij : j = i
    · subst hij
      rw [Function.update_self] at htransacts
      rcases hacts.transacts htransacts with h | h
      · exact hguarded.quiet hbefore j h
      · rw [hguarded.switches hbefore] at h
        cases h
    · rw [Function.update_of_ne hij] at htransacts
      exact hguarded.quiet hbefore j htransacts
  · -- the thread is a report that sets the switch, with the mutex in its hands
    obtain ⟨hkilling, hleaving⟩ := hacts.kills hkeeps (Bool.not_eq_true _ ▸ hbefore) hset
    by_cases hij : j = i
    · subst hij
      rw [Function.update_self, hleaving] at htransacts
      obtain ⟨_, hnone, _⟩ := htransacts
      cases hnone
    · rw [Function.update_of_ne hij] at htransacts
      have halone := hguarded.alone (i := i) (by rw [hkilling]; exact Nat.one_pos) hij
      have hpos := htransacts.depth_pos
      omega

theorem Threads.Guarded.step (hguarded : s.Guarded) (hstep : s.Step parties (i, action) s') :
    s'.Guarded := by
  obtain ⟨hmutex, hholds⟩ := hguarded.mutex_step hstep
  have hquiet := hguarded.quiet_step hstep
  obtain ⟨hacts, _⟩ := hstep
  have hkeeps := hguarded.keeps i
  obtain ⟨hoperation, hio⟩ := hacts.switches hkeeps
  refine ⟨fun j => ?_, hmutex, hholds, fun hset => ?_, hquiet, fun j hkilling => ?_,
    fun j hreported => ?_⟩
  · dsimp only
    by_cases hij : j = i
    · subst hij
      rw [Function.update_self]
      exact hacts.keeps hkeeps
    · rw [Function.update_of_ne hij]
      exact hguarded.keeps j
  · by_cases hbefore : s.world.r.ioKillSwitch = true
    · exact hoperation (hguarded.switches hbefore)
    · obtain ⟨hkilling, _⟩ := hacts.kills hkeeps (Bool.not_eq_true _ ▸ hbefore) hset
      exact hoperation (hguarded.killing i hkilling)
  · dsimp only at hkilling ⊢
    by_cases hij : j = i
    · subst hij
      rw [Function.update_self] at hkilling
      exact hacts.killing hkilling
    · rw [Function.update_of_ne hij] at hkilling
      exact hoperation (hguarded.killing j hkilling)
  · dsimp only at hreported ⊢
    by_cases hij : j = i
    · subst hij
      rw [Function.update_self] at hreported
      rcases hacts.reported hreported with h | h
      · exact hio (hguarded.reported j h)
      · exact h
    · rw [Function.update_of_ne hij] at hreported
      exact hio (hguarded.reported j hreported)

theorem Threads.Guarded.run {events : List (ι × Action)} (hguarded : s.Guarded)
    (hrun : Runs (Threads.Step parties) s events s') : s'.Guarded :=
  hrun.invariant Threads.Guarded (fun _ event _ h hstep => by
    obtain ⟨i, action⟩ := event
    exact h.step hstep) hguarded

/-! ## What a report leaves to the other threads -/

/-- A report during which no other thread moves does what the function does. -/
theorem Threads.report_alone {events : List (ι × Action)} {code : Int}
    {cut : Cut B fuel closeSession} (hparty : parties i = .reporter code cut)
    (hrun : Runs (Threads.Step parties) s events s') (halone : ∀ event ∈ events, event.1 = i)
    (hstart : s.stands i = .reporting .entering) (hend : s'.stands i = .reporting .reported) :
    ptpReportError B fuel code s.world = .ok () s'.world := by
  -- what is left to do comes to the same all along the run
  have hrest : ∀ {v v' : Threads ι σ} {stage : ReportStage σ} {events : List (ι × Action)},
      Runs (Threads.Step parties) v events v' → (∀ event ∈ events, event.1 = i) →
      v.stands i = .reporting stage → v'.stands i = .reporting .reported →
      stage.rest B fuel code v.world = .ok () v'.world := by
    intro v v' stage events hrun
    induction hrun generalizing stage with
    | nil =>
        intro _ hstage hreported
        obtain rfl := Standing.reporting.inj (hstage.symm.trans hreported)
        rfl
    | @cons v u v' event events hstep _ ih =>
        intro halone hstage hreported
        obtain ⟨hfirst, hothers⟩ := List.forall_mem_cons.mp halone
        obtain ⟨hacts, _⟩ := hstep
        obtain rfl : _ = i := hfirst
        rw [hparty, hstage] at hacts
        cases hacts with
        | report hreport =>
            rw [hreport.rest_eq]
            exact ih hothers (Function.update_self ..) hreported
  exact hrest hrun halone hstart hend

/-- The report of a thread has got as far as the mutex, or the I/O switch is set. -/
def Threads.Ending (s : Threads ι σ) (i : ι) : Prop :=
  (s.stands i).Cutting ∨ s.world.r.ioKillSwitch = true

theorem Threads.Guarded.ending_step (hguarded : s.Guarded) {j : ι} (hending : s.Ending j)
    (hstep : s.Step parties (i, action) s') :
    s'.Ending j ∧ ∀ calls, action = .exchange calls → i = j := by
  have hset := hguarded.quiet
  obtain ⟨hacts, _⟩ := hstep
  have hkeeps := hguarded.keeps i
  obtain ⟨_, hio⟩ := hacts.switches hkeeps
  rcases hending with hcutting | hkilled
  · refine ⟨?_, ?_⟩
    · unfold Threads.Ending
      dsimp only
      by_cases hij : j = i
      · subst hij
        exact (hacts.cutting hcutting).imp_left fun h => by
          rw [Function.update_self]
          exact h
      · exact .inl (by rwa [Function.update_of_ne hij])
    · rintro calls rfl
      by_contra hij
      have halone := hguarded.alone hcutting.depth_pos hij
      have hpos := hacts.transacts_of_exchange.depth_pos
      omega
  · refine ⟨.inr (hio hkilled), ?_⟩
    rintro calls rfl
    exact absurd hacts.transacts_of_exchange (hset hkilled i)

/-- Once a report goes about cutting the connection, only its own request to close the
session is still exchanged, whatever the other threads do. -/
theorem report_has_last_word (parties : ι → Party B fuel) {s v v' : Threads ι σ} {j : ι}
    {events events' : List (ι × Action)} (hstarts : s.Starts)
    (hrun : Runs (Threads.Step parties) s events v) (hcutting : (v.stands j).Cutting)
    (hrest : Runs (Threads.Step parties) v events' v') :
    ∀ event ∈ events', ∀ calls, event.2 = .exchange calls → event.1 = j := by
  have hguarded := hstarts.guarded.run hrun
  refine hrest.forall_events (fun u => u.Guarded ∧ u.Ending j) ?_ ⟨hguarded, .inl hcutting⟩
  rintro u ⟨i, action⟩ u' ⟨hguarded, hending⟩ hstep
  obtain ⟨hnext, hown⟩ := hguarded.ending_step hending hstep
  exact ⟨⟨hguarded.step hstep, hnext⟩, hown⟩

/-- Once a report is over, whoever made it, the device hears nothing more from any thread,
and both switches stay set. -/
theorem report_silences (parties : ι → Party B fuel) {s v v' : Threads ι σ} {j : ι}
    {events events' : List (ι × Action)} (hstarts : s.Starts)
    (hrun : Runs (Threads.Step parties) s events v) (hreported : (v.stands j).Reported)
    (hrest : Runs (Threads.Step parties) v events' v') :
    v'.world.log = v.world.log ∧ v'.world.r.ioKillSwitch = true ∧
      v'.world.r.operationKillSwitch = true := by
  have hguarded := hstarts.guarded.run hrun
  have hend := hrest.invariant (fun u => u.Guarded ∧ u.world.log = v.world.log ∧
    u.world.r.ioKillSwitch = true) ?_ ⟨hguarded, rfl, hguarded.reported j hreported⟩
  · exact ⟨hend.2.1, hend.2.2, hend.1.switches hend.2.2⟩
  · rintro u ⟨i, action⟩ u' ⟨hguarded, hlog, hset⟩ hstep
    refine ⟨hguarded.step hstep, ?_⟩
    obtain ⟨hacts, _⟩ := hstep
    refine ⟨?_, (hacts.switches (hguarded.keeps i)).2 hset⟩
    rw [hacts.log, hlog]
    cases action with
    | exchange calls => exact absurd hacts.transacts_of_exchange (hguarded.quiet hset i)
    | _ => exact List.append_nil _

/-- The I/O switch never falls into an exchange: every step of an exchange is made while it is
clear, and when it is set no thread stands between its check under the mutex and the end of
its attempts. -/
theorem kill_spares_exchanges (parties : ι → Party B fuel) {s v v' : Threads ι σ} {i : ι}
    {action : Action} {events : List (ι × Action)} (hstarts : s.Starts)
    (hrun : Runs (Threads.Step parties) s events v) (hstep : v.Step parties (i, action) v') :
    (∀ calls, action = .exchange calls →
      v.world.r.ioKillSwitch = false ∧ v'.world.r.ioKillSwitch = false) ∧
    (v.world.r.ioKillSwitch = false → v'.world.r.ioKillSwitch = true →
      ∀ j, ¬(v.stands j).Transacts ∧ ¬(v'.stands j).Transacts) := by
  have hguarded := hstarts.guarded.run hrun
  have hquiet := hguarded.quiet_step hstep
  obtain ⟨hacts, _⟩ := hstep
  have hkeeps := hguarded.keeps i
  constructor
  · rintro calls rfl
    have hclear : v.world.r.ioKillSwitch = false := by
      rw [← Bool.not_eq_true]
      exact fun hset => hguarded.quiet hset i hacts.transacts_of_exchange
    refine ⟨hclear, ?_⟩
    rw [← Bool.not_eq_true]
    intro hset
    obtain ⟨hkilling, _⟩ := hacts.kills hkeeps hclear hset
    have htransacts := hacts.transacts_of_exchange
    rw [hkilling] at htransacts
    obtain ⟨_, hnone, _⟩ := htransacts
    cases hnone
  · intro hclear hset j
    refine ⟨fun htransacts => ?_, hquiet hset j⟩
    obtain ⟨hkilling, _⟩ := hacts.kills hkeeps hclear hset
    by_cases hij : j = i
    · subst hij
      rw [hkilling] at htransacts
      obtain ⟨_, hnone, _⟩ := htransacts
      cases hnone
    · have halone := hguarded.alone (i := i) (by rw [hkilling]; exact Nat.one_pos) hij
      have hpos := htransacts.depth_pos
      omega

end System

/-! ## One report and one call -/

section Pair

/-- A thread that reports an I/O error, and one that asks for the objects on the device. -/
def pairParties : Bool → Party scripted 8
  | true => .reporter PtpGeneralError.ioErr (.rounds scripted 8 closeSession)
  | false => .caller (.send getHandles) (.rounds scripted 8 (.send getHandles))

def pairStart : Threads Bool (List (Option (List UInt8))) where
  world := scriptedWorld 512 [some okResponse]
  holder := none
  stands i := if i then .reporting .entering else .calling .entering

theorem pairStart_starts : pairStart.Starts where
  mutex := rfl
  holder := rfl
  stands i := by cases i <;> simp [pairStart]
  switches h := by cases h

/-- The report sets the operation switch and takes the mutex; it cuts the connection; the call
is refused. -/
theorem pair_runs : ∃ events v events' v' events'' v'',
    Runs (Threads.Step pairParties) pairStart events v ∧ (v.stands true).Cutting ∧
    Runs (Threads.Step pairParties) v events' v' ∧ (v'.stands true).Reported ∧
    Runs (Threads.Step pairParties) v' events'' v'' ∧
    v''.stands false = .calling (.returned PtpGeneralError.ioErr) :=
  ⟨_, _, _, _, _, _,
    .cons (.intro (i := true) (.report (.enterFailing rfl (by decide))) (by simp))
      (.cons (.intro (i := true) (.report .mark) (by simp))
        (.cons (.intro (i := true) (.report .lock) (fun _ => .inl rfl))
          (.single (.intro (i := true) (.report (.skip rfl (by decide))) (by simp))))),
    trivial,
    .cons (.intro (i := true) (.report .switch) (by simp))
      (.cons (.intro (i := true) (.report .kill) (by simp))
        (.single (.intro (i := true) (.report .leave) (by simp)))),
    trivial,
    .single (.intro (i := false) (.call (.refused rfl)) (by simp)), rfl⟩

/-- Nothing is exchanged between the check of the report and its end. -/
theorem report_has_last_word_pair : ∃ events v events' v',
    Runs (Threads.Step pairParties) pairStart events v ∧
    Runs (Threads.Step pairParties) v events' v' ∧
    ∀ event ∈ events', ∀ calls, event.2 = .exchange calls → event.1 = true := by
  obtain ⟨events, v, events', v', _, _, hrun, hcutting, hrest, _⟩ := pair_runs
  exact ⟨events, v, events', v', hrun, hrest,
    report_has_last_word pairParties pairStart_starts hrun hcutting hrest⟩

/-- The call that is refused after the report is not heard. -/
theorem report_silences_pair : ∃ events v events' v',
    Runs (Threads.Step pairParties) pairStart events v ∧
    Runs (Threads.Step pairParties) v events' v' ∧
    v'.stands false = .calling (.returned PtpGeneralError.ioErr) ∧
    v'.world.log = v.world.log ∧ v'.world.r.ioKillSwitch = true ∧
      v'.world.r.operationKillSwitch = true := by
  obtain ⟨_, _, _, v, events, v', hrun, _, hrest, hreported, hlast, hrefused⟩ := pair_runs
  exact ⟨_, v, events, v', hrun.append hrest, hlast, hrefused,
    report_silences pairParties pairStart_starts (hrun.append hrest) hreported hlast⟩

/-- The call has passed its check, and the report waits for the mutex: the first step of the
exchange is made on a connection that is not cut. -/
theorem kill_spares_exchanges_pair : ∃ events v calls v',
    Runs (Threads.Step pairParties) pairStart events v ∧
    v.Step pairParties (false, .exchange calls) v' ∧ v'.stands true = .reporting .locking ∧
    v.world.r.ioKillSwitch = false ∧ v'.world.r.ioKillSwitch = false := by
  have hrun : ∃ events v, Runs (Threads.Step pairParties) pairStart events v ∧
      v.stands false = .calling .preparing ∧ v.stands true = .reporting .locking :=
    ⟨_, _, .cons (.intro (i := false) (.call (.enter rfl)) (by simp))
      (.cons (.intro (i := false) (.call .lock) (fun _ => .inl rfl))
        (.cons (.intro (i := false) (.call (.pass rfl)) (by simp))
          (.cons (.intro (i := true) (.report (.enterFailing rfl (by decide))) (by simp))
            (.single (.intro (i := true) (.report .mark) (by simp)))))), rfl, rfl⟩
  obtain ⟨events, v, hrun, hcaller, hreport⟩ := hrun
  have hacts : (pairParties false).Acts (v.stands false) v.world (.exchange []) (.calling
      (.trying (Cut.rounds scripted 8 (.send getHandles)).pieces))
      { v.world with r := { v.world.r with dataPhaseLength := 0 } } := by
    rw [hcaller]
    exact .call (.prepare rfl (List.append_nil _).symm)
  have hstep := Threads.Step.intro (s := v) hacts (by simp)
  have hspared := kill_spares_exchanges pairParties pairStart_starts hrun hstep
  refine ⟨events, v, [], _, hrun, hstep, ?_, hspared.1 [] rfl⟩
  dsimp only
  rw [Function.update_of_ne (by decide)]
  exact hreport

end Pair

end Libpict
