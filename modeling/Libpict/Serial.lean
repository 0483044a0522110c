import Libpict.FailureTraffic
import Libpict.Runs

/-! # Transactions one after the other

Whatever the interleaving, the exchanges of different calls do not mix, and the calls whose
exchange goes through number their packets one by one, from the counter the runtime starts
with.
-/

namespace Libpict

open CInt Exec

variable {σ ι : Type} {B : Backend σ} {fuel : Nat}

/-! ## What has been exchanged -/

/-- The backend calls of an action. -/
def Action.calls : Action → List Call
  | exchange calls => calls
  | _ => []

/-- The exchange of the call is over. -/
def Action.Ends : Action → Prop
  | complete | fail => True
  | _ => False

section Trace

variable [DecidableEq ι]

/-- The backend calls that one call has made. -/
def callsOf (i : ι) (trace : Trace ι) : List Call :=
  trace.flatMap fun event => if event.1 = i then event.2.calls else []

theorem callsOf_snoc (i j : ι) (action : Action) (trace : Trace ι) :
    callsOf i (trace ++ [(j, action)]) = callsOf i trace ++ if j = i then action.calls else [] := by
  simp [callsOf]

end Trace

/-- Whether the action completes an exchange. -/
def Action.counts : Action → Nat
  | complete => 1
  | _ => 0

/-- How many calls have completed their exchange. -/
def completions (trace : Trace ι) : Nat := (trace.map fun event => event.2.counts).sum

theorem completions_snoc (j : ι) (action : Action) (trace : Trace ι) :
    completions (trace ++ [(j, action)]) = completions trace + action.counts := by
  simp [completions]

/-- The number of the next call to complete: the bits of the counter that has started at `t`. -/
def nextNumber (t : Int) (trace : Trace ι) : UInt32 :=
  UInt32.ofNat (toUInt32 (t + completions trace))

theorem nextNumber_snoc (t : Int) (j : ι) (action : Action) (trace : Trace ι)
    (hcounts : action.counts = 0) : nextNumber t (trace ++ [(j, action)]) = nextNumber t trace := by
  unfold nextNumber
  rw [completions_snoc, hcounts, Nat.add_zero]

/-! ## The attempts of a call -/

/-- Other than over PTP/IP an attempt transmits and receives. -/
theorem Operation.sendTry_eq (op : Operation) {w : World σ} (hconn : w.r.connectionType ≠ .ip) :
    op.sendTry B fuel w = op.attempt B fuel w := by
  cases op with
  | send cmd => exact congrFun (ptpSendTry_eq B fuel cmd) w
  | sendData cmd data => exact ptpSendDataTry_eq cmd data hconn

/-- Attempts that start in `w₀` have made calls up to `w`. -/
structure Begun (n : UInt32) (made : List Call) (w₀ w : World σ) : Prop where
  provided : Provided w₀
  transaction : w₀.r.transactionId = n
  connection : w₀.r.connectionType ≠ .ip
  log : w.log = w₀.log ++ made

/-- What the calls of an operation are when this action ends its exchange. -/
def Action.Exchanged (B : Backend σ) (packets : List (List UInt8)) (made : List Call) :
    Action → Prop
  | complete => Tries B packets 0 made ∧ BulkReply (readBytes (lastReads made))
  | fail => ∃ rc, rc ≠ 0 ∧ Tries B packets rc made
  | _ => True

/-- How far a call has come, with the number `n` for its packets, in a world without the
switch: what is left of an attempt does what the attempt would have done on its own. -/
def Stage.Progress (B : Backend σ) (fuel : Nat) (op : Operation) (n : UInt32) (made : List Call)
    (w : World σ) : Stage σ → Prop
  | entering | locking | checking | preparing => made = []
  | trying rest => ∃ w₀, Begun n made w₀ w ∧ op.sendTry B fuel w₀ = rest.run w
  | retrying rest => ∃ w₀ u, Begun n made w₀ w ∧
      op.sendTry B fuel w₀ = .ok PtpGeneralError.commandIgnored u ∧
        op.sendTry B fuel u = rest.run w
  | counting => Tries B (op.packets n) 0 made ∧ BulkReply (readBytes (lastReads made))
  | _ => True

/-- An attempt is under way. -/
def Stage.Trying : Stage σ → Prop
  | trying _ | retrying _ => True
  | _ => False

section Progress

variable {op : Operation} {n : UInt32} {made : List Call} {w w₀ u : World σ} {rc : Int}

/-- Attempts that are over have written the packets of the call. -/
theorem Begun.ended (hbegun : Begun n made w₀ w) (hattempts : Attempts (op.attempt B fuel) w₀ rc w) :
    Allocated w.r ∧ Tries B (op.packets n) rc made := by
  obtain ⟨hallocated, hpacket⟩ := hbegun.provided
  obtain ⟨calls, hlog, htries⟩ := hattempts.tries hallocated hpacket
  obtain rfl := List.append_cancel_left (hbegun.log.symm.trans hlog)
  rw [hbegun.transaction] at htries
  exact ⟨hattempts.keeps.2 hallocated, htries⟩

/-- Attempts that go through leave the reply in the buffer. -/
theorem Begun.exchanged (hbegun : Begun n made w₀ w)
    (hattempts : Attempts (op.attempt B fuel) w₀ 0 w) :
    w.r.Holds (readBytes (lastReads made)) ∧ BulkReply (readBytes (lastReads made)) := by
  obtain ⟨hallocated, hpacket⟩ := hbegun.provided
  obtain ⟨calls, hlog, _, hholds⟩ := hattempts.exchanged hallocated hpacket
  obtain rfl := List.append_cancel_left (hbegun.log.symm.trans hlog)
  exact hholds rfl

theorem Begun.first (hbegun : Begun n made w₀ w) (hrc : rc ≠ PtpGeneralError.commandIgnored)
    (hrun : op.sendTry B fuel w₀ = .ok rc w) : Attempts (op.attempt B fuel) w₀ rc w := by
  rw [op.sendTry_eq hbegun.connection] at hrun
  exact .first hrun hrc

theorem Begun.second (hbegun : Begun n made w₀ w)
    (hfirst : op.sendTry B fuel w₀ = .ok PtpGeneralError.commandIgnored u)
    (hrun : op.sendTry B fuel u = .ok rc w) : Attempts (op.attempt B fuel) w₀ rc w := by
  rw [op.sendTry_eq hbegun.connection] at hfirst
  have hconn : u.r.connectionType ≠ .ip := by
    rw [(op.attempt_keeps hfirst).1.runtime]
    exact hbegun.connection
  rw [op.sendTry_eq hconn] at hrun
  exact .second hfirst hrun

/-- Without an attempt under way or gone through, the world does not matter. -/
theorem Stage.Progress.loose {stage : Stage σ} {n' : UInt32} {w' : World σ}
    (hloose : ¬stage.Holds) (hprogress : stage.Progress B fuel op n made w) :
    stage.Progress B fuel op n' made w' := by
  cases stage with
  | entering => exact hprogress
  | locking => exact hprogress
  | setting => trivial
  | returned => trivial
  | _ => exact absurd trivial hloose

/-- The calls of a step are those that it adds to the log. -/
theorem Acts.log {cut : Cut B fuel op} {stage stage' : Stage σ} {w' : World σ} {action : Action}
    (hacts : Acts cut stage w action stage' w') : w'.log = w.log ++ action.calls := by
  cases hacts with
  | prepare _ hlog => exact hlog
  | trying _ hlog => exact hlog
  | retrying _ hlog => exact hlog
  | answer hrun =>
      rw [Acts.answer_world hrun]
      exact (List.append_nil _).symm
  | _ => exact (List.append_nil _).symm

/-- A step of the call keeps track of its attempts. -/
theorem Acts.progress {cut : Cut B fuel op} {stage stage' : Stage σ} {w' : World σ}
    {action : Action} (hacts : Acts cut stage w action stage' w') (hkeeps : stage.Keeps)
    (hconn : w.r.connectionType ≠ .ip)
    (hidle : stage.Holds → ¬stage.Trying → Provided w ∧ w.r.transactionId = n)
    (hprogress : stage.Progress B fuel op n made (calm w)) :
    stage'.Progress B fuel op n (made ++ action.calls) (calm w') := by
  have hquiet : made ++ Action.calls .quiet = made := List.append_nil made
  cases hacts with
  | enter => exact hquiet.trans hprogress
  | lock => exact hquiet.trans hprogress
  | pass => exact hquiet.trans hprogress
  | @prepare _ _ calls hrun hlog =>
      obtain rfl : made = [] := hprogress
      obtain ⟨⟨hallocated, hpacket⟩, hnumber⟩ := hidle trivial id
      obtain ⟨hsetup, hkept⟩ := op.prepare_keeps hrun
      have hlog' := (op.prepare_silent.of_ok hrun).1
      -- nothing is sent ahead of the attempts
      obtain rfl : calls = [] := by
        rw [hlog'] at hlog
        exact List.append_right_eq_self.mp hlog.symm
      refine ⟨calm w', ⟨⟨hkept hallocated, ?_⟩, ?_, ?_, (List.append_nil _).symm⟩, ?_⟩
      · exact hsetup.packet.le hpacket (by decide)
      · change w'.r.transactionId = n
        rw [hsetup.runtime]
        exact hnumber
      · change w'.r.connectionType ≠ .ip
        rw [hsetup.runtime]
        exact hconn
      · rw [cut.run_eq]
  | @trying β x next _ b _ calls hrun hlog =>
      obtain ⟨w₀, ⟨hprovided, hnumber, hconn', hmade⟩, hsame⟩ := hprogress
      -- the piece does the same in the world without the switch
      have hblind := hkeeps.1.blind w b w' hrun
      refine ⟨w₀, ⟨hprovided, hnumber, hconn', ?_⟩, hsame.trans (bind_ok hblind)⟩
      change w'.log = w₀.log ++ (made ++ calls)
      rw [hlog, ← List.append_assoc, ← hmade]
      rfl
  | retry =>
      -- the second attempt starts where the first was ignored
      obtain ⟨w₀, hbegun, hsame⟩ := hprogress
      rw [hquiet]
      exact ⟨w₀, calm w, hbegun, hsame, by rw [cut.run_eq]⟩
  | answered =>
      obtain ⟨w₀, hbegun, hsame⟩ := hprogress
      rw [hquiet]
      have hattempts := hbegun.first (by decide) hsame
      exact ⟨(hbegun.ended hattempts).2, (hbegun.exchanged hattempts).2⟩
  | @retrying β x next _ b _ calls hrun hlog =>
      obtain ⟨w₀, u, ⟨hprovided, hnumber, hconn', hmade⟩, hfirst, hsame⟩ := hprogress
      have hblind := hkeeps.1.blind w b w' hrun
      refine ⟨w₀, u, ⟨hprovided, hnumber, hconn', ?_⟩, hfirst, hsame.trans (bind_ok hblind)⟩
      change w'.log = w₀.log ++ (made ++ calls)
      rw [hlog, ← List.append_assoc, ← hmade]
      rfl
  | answeredAgain =>
      obtain ⟨w₀, u, hbegun, hfirst, hsame⟩ := hprogress
      rw [hquiet]
      have hattempts := hbegun.second hfirst hsame
      exact ⟨(hbegun.ended hattempts).2, (hbegun.exchanged hattempts).2⟩
  | _ => trivial

/-- When the exchange is over, its calls are those of one attempt or of two; if it has gone
through, the last attempt has succeeded and read a whole reply. -/
theorem Acts.tries {cut : Cut B fuel op} {stage stage' : Stage σ} {w' : World σ}
    {action : Action} (hacts : Acts cut stage w action stage' w')
    (hprogress : stage.Progress B fuel op n made (calm w)) :
    action.Exchanged B (op.packets n) made := by
  cases hacts with
  | fail hignored hfailed =>
      obtain ⟨w₀, hbegun, hsame⟩ := hprogress
      exact ⟨_, hfailed, (hbegun.ended (hbegun.first hignored hsame)).2⟩
  | failAgain hfailed =>
      obtain ⟨w₀, u, hbegun, hfirst, hsame⟩ := hprogress
      exact ⟨_, hfailed, (hbegun.ended (hbegun.second hfirst hsame)).2⟩
  | count => exact hprogress
  | _ => trivial

/-- The buffer is in order again once no attempt is under way. -/
theorem Acts.allocated {cut : Cut B fuel op} {stage stage' : Stage σ} {w' : World σ}
    {action : Action} (hacts : Acts cut stage w action stage' w') (hdone : ¬stage'.Trying)
    (hprogress : stage.Progress B fuel op n made (calm w))
    (hidle : ¬stage.Trying → Allocated w.r) : Allocated w'.r := by
  cases hacts with
  | prepare => exact absurd trivial hdone
  | trying => exact absurd trivial hdone
  | retry => exact absurd trivial hdone
  | retrying => exact absurd trivial hdone
  | fail hignored =>
      obtain ⟨w₀, hbegun, hsame⟩ := hprogress
      exact (hbegun.ended (hbegun.first hignored hsame)).1
  | answered =>
      obtain ⟨w₀, hbegun, hsame⟩ := hprogress
      exact (hbegun.ended (hbegun.first (by decide) hsame)).1
  | failAgain =>
      obtain ⟨w₀, u, hbegun, hfirst, hsame⟩ := hprogress
      exact (hbegun.ended (hbegun.second hfirst hsame)).1
  | answeredAgain =>
      obtain ⟨w₀, u, hbegun, hfirst, hsame⟩ := hprogress
      exact (hbegun.ended (hbegun.second hfirst hsame)).1
  | answer hrun =>
      rw [Acts.answer_world hrun]
      exact hidle id
  | _ => exact hidle id

/-- Only a call that completes moves the counter, by one. -/
theorem Acts.transaction {cut : Cut B fuel op} {stage stage' : Stage σ} {w' : World σ}
    {action : Action} (hacts : Acts cut stage w action stage' w') (hkeeps : stage.Keeps) :
    w'.r.transaction = w.r.transaction + action.counts ∧
      (action.counts ≠ 0 → Fits w'.r.transaction) := by
  have hstays : ∀ {v : World σ}, v.r.transaction = v.r.transaction + (0 : Nat) ∧
      ((0 : Nat) ≠ 0 → Fits v.r.transaction) := ⟨(Int.add_zero _).symm, fun h => absurd rfl h⟩
  have hsame : ∀ {v v' : World σ}, Exchanges v v' →
      v'.r.transaction = v.r.transaction + (0 : Nat) ∧ ((0 : Nat) ≠ 0 → Fits v'.r.transaction) := by
    rintro v v' ⟨hsetup, _⟩
    rw [hsetup.runtime]
    exact hstays
  cases hacts with
  | prepare hrun => exact hsame (op.prepare_exchanges hrun)
  | trying hrun => exact hsame (hkeeps.1.moves.of_ok hrun)
  | retrying hrun => exact hsame (hkeeps.1.moves.of_ok hrun)
  | answer hrun =>
      rw [Acts.answer_world hrun]
      exact hstays
  | count hfits => exact ⟨rfl, fun _ => hfits⟩
  | _ => exact hstays

theorem Acts.counts {cut : Cut B fuel op} {stage stage' : Stage σ} {w' : World σ}
    {action : Action} (hacts : Acts cut stage w action stage' w') :
    action.counts = 0 ∨ stage' = .answering := by
  cases hacts with
  | count => exact .inr rfl
  | _ => exact .inl rfl

/-- Away from the mutex a call only touches the switch. -/
theorem Acts.calm_eq {cut : Cut B fuel op} {stage stage' : Stage σ} {w' : World σ}
    {action : Action} (hacts : Acts cut stage w action stage' w') (hloose : ¬stage.Holds)
    (hacquire : action ≠ .acquire) :
    calm w' = calm w ∧ action.counts = 0 ∧ action.calls = [] := by
  cases hacts with
  | refused => exact ⟨rfl, rfl, rfl⟩
  | enter => exact ⟨rfl, rfl, rfl⟩
  | set => exact ⟨rfl, rfl, rfl⟩
  | lock => exact absurd rfl hacquire
  | _ => exact absurd trivial hloose

/-- The exchange of the call is over. -/
def Stage.Over : Stage σ → Prop
  | switching | releasing | setting | answering | leaving _ | returned _ => True
  | _ => False

theorem Acts.ended {cut : Cut B fuel op} {stage stage' : Stage σ} {w' : World σ}
    {action : Action} (hacts : Acts cut stage w action stage' w') :
    (action.Ends → stage'.Over) ∧
      (stage.Over → stage'.Over ∧ action.calls = [] ∧ ¬action.Ends) := by
  cases hacts with
  | fail => exact ⟨fun _ => trivial, fun h => h.elim⟩
  | failAgain => exact ⟨fun _ => trivial, fun h => h.elim⟩
  | count => exact ⟨fun _ => trivial, fun h => h.elim⟩
  | switch => exact ⟨fun h => h.elim, fun _ => ⟨trivial, rfl, id⟩⟩
  | release => exact ⟨fun h => h.elim, fun _ => ⟨trivial, rfl, id⟩⟩
  | set => exact ⟨fun h => h.elim, fun _ => ⟨trivial, rfl, id⟩⟩
  | answer => exact ⟨fun h => h.elim, fun _ => ⟨trivial, rfl, id⟩⟩
  | leave => exact ⟨fun h => h.elim, fun _ => ⟨trivial, rfl, id⟩⟩
  | _ => exact ⟨fun h => h.elim, fun h => h.elim⟩

/-- The result of the call, if there is one, is not that of a failure. -/
def Stage.Answered : Stage σ → Prop
  | answering => True
  | leaving rc | returned rc => rc ≠ PtpGeneralError.ioErr
  | _ => False

theorem Acts.completes {cut : Cut B fuel op} {stage stage' : Stage σ} {w' : World σ}
    {action : Action} (hacts : Acts cut stage w action stage' w') (hanswered : stage'.Answered) :
    stage.Answered ∨ action = .complete := by
  cases hacts with
  | refused => exact absurd rfl hanswered
  | stop => exact absurd rfl hanswered
  | switch => exact absurd rfl hanswered
  | set => exact absurd rfl hanswered
  | count => exact .inr rfl
  | answer => exact .inl trivial
  | leave => exact .inl hanswered
  | _ => exact hanswered.elim

/-- The call has taken the mutex, or will not any more. -/
def Stage.Entered : Stage σ → Prop
  | entering | locking => False
  | _ => True

theorem Acts.entered {cut : Cut B fuel op} {stage stage' : Stage σ} {w' : World σ}
    {action : Action} (hacts : Acts cut stage w action stage' w') :
    ((∃ calls, action = .exchange calls) → stage.Holds ∧ stage'.Entered) ∧
      (stage.Entered → stage'.Entered ∧ action ≠ .acquire) := by
  cases hacts <;> simp [Stage.Entered, Stage.Holds]

end Progress

/-! ## Runs -/

/-- The exchanges of two calls are one behind the other. -/
def Unmixed (trace : Trace ι) : Prop := ∀ i j a b c, i ≠ j →
  ¬[(i, Action.exchange a), (j, Action.exchange b), (i, Action.exchange c)].Sublist trace

variable [DecidableEq ι] {calls : Calls B fuel ι}

/-- A call whose exchange is over has made the calls of one attempt or of two, with packets
numbered by the exchanges completed before. The last attempt of a call that completes has
succeeded, that of one that fails has not. -/
def Numbered (calls : Calls B fuel ι) (t : Int) (trace : Trace ι) : Prop :=
  ∀ front i action rest, trace = front ++ (i, action) :: rest → action.Ends →
    action.Exchanged B ((calls.op i).packets (nextNumber t front)) (callsOf i trace)

/-- The exchange of a call is over once. -/
def EndsOnce (trace : Trace ι) : Prop := ∀ i a b, Action.Ends a → Action.Ends b →
  ¬[(i, a), (i, b)].Sublist trace

/-- What holds of the system behind a trace, when the counter has started at `t`. -/
structure System.Serial (calls : Calls B fuel ι) (t : Int) (s : System ι σ)
    (trace : Trace ι) : Prop where
  excludes : s.Excludes
  connection : s.world.r.connectionType ≠ .ip
  packet : s.world.r.maxPacketSize ≤ intMax
  allocated : (∀ i, ¬(s.stage i).Trying) → Allocated s.world.r
  transaction : s.world.r.transaction = t + completions trace
  counter : completions trace ≠ 0 → Fits s.world.r.transaction
  progress : ∀ i, (s.stage i).Progress B fuel (calls.op i) (nextNumber t trace)
    (callsOf i trace) (calm s.world)
  ended : ∀ i action, action.Ends → (i, action) ∈ trace → (s.stage i).Over
  answered : ∀ i, (s.stage i).Answered → (i, Action.complete) ∈ trace
  numbered : Numbered calls t trace
  once : EndsOnce trace
  entered : ∀ i made, (i, Action.exchange made) ∈ trace → (s.stage i).Entered
  gone : ∀ i j a b, i ≠ j →
    [(i, Action.exchange a), (j, Action.exchange b)].Sublist trace → ¬(s.stage i).Holds
  unmixed : Unmixed trace

theorem System.Starts.serial {s : System ι σ} (hstarts : s.Starts) (hprovided : Provided s.world)
    (hconn : s.world.r.connectionType ≠ .ip) : s.Serial calls s.world.r.transaction [] where
  excludes := hstarts.excludes
  connection := hconn
  packet := hprovided.2
  allocated _ := hprovided.1
  transaction := (Int.add_zero _).symm
  counter hcompleted := absurd rfl hcompleted
  progress i := by rw [hstarts.stage i]; rfl
  ended i action _ hmem := by simp at hmem
  answered i hanswered := by rw [hstarts.stage i] at hanswered; exact hanswered.elim
  numbered front i action rest heq := by simp at heq
  once i a b _ _ hsub := by simp at hsub
  entered i made hmem := by simp at hmem
  gone i j a b _ hsub := by simp at hsub
  unmixed i j a b c _ hsub := by simp at hsub

section Step

variable {s s' : System ι σ} {t : Int} {trace : Trace ι} {i : ι} {action : Action}

theorem Stage.Trying.holds {stage : Stage σ} (htrying : stage.Trying) : stage.Holds := by
  cases stage <;> trivial

omit [DecidableEq ι] in
/-- While a call holds the mutex no other call holds it. -/
theorem System.Excludes.alone (hexcludes : s.Excludes) {j : ι} (hij : j ≠ i)
    (hholds : (s.stage i).Holds) : ¬(s.stage j).Holds := by
  rw [hexcludes.holds j, (hexcludes.holds i).mp hholds]
  exact fun h => hij (Option.some.inj h).symm

/-- Under the mutex and outside of an attempt the runtime is in order. -/
theorem System.Serial.provided (hserial : s.Serial calls t trace) (hholds : (s.stage i).Holds)
    (hidle : ¬(s.stage i).Trying) :
    Provided s.world ∧ s.world.r.transactionId = nextNumber t trace := by
  have hnumber : s.world.r.transactionId = nextNumber t trace := by
    unfold PtpRuntime.transactionId nextNumber
    rw [hserial.transaction]
  refine ⟨⟨hserial.allocated fun j => ?_, hserial.packet⟩, hnumber⟩
  by_cases hij : j = i
  · exact hij ▸ hidle
  · exact fun htrying => hserial.excludes.alone hij hholds htrying.holds

theorem System.Serial.progress_step (hserial : s.Serial calls t trace)
    (hstep : s.Step calls i action s') (j : ι) :
    (s'.stage j).Progress B fuel (calls.op j) (nextNumber t (trace ++ [(i, action)]))
      (callsOf j (trace ++ [(i, action)])) (calm s'.world) := by
  obtain ⟨hacts, hfree⟩ := hstep
  have hkeeps := hserial.excludes.keeps i
  dsimp only
  rw [callsOf_snoc]
  by_cases hij : j = i
  · subst hij
    rw [Function.update_self, if_pos rfl]
    have hprogress := hacts.progress hkeeps hserial.connection
      (fun hholds hidle => hserial.provided hholds hidle) (hserial.progress j)
    rcases hacts.counts with hcounts | rfl
    · rw [nextNumber_snoc _ _ _ _ hcounts]
      exact hprogress
    · trivial
  · rw [Function.update_of_ne hij, if_neg (Ne.symm hij), List.append_nil]
    by_cases hholds : (s.stage j).Holds
    · -- another call that does not take the mutex
      have hloose := hserial.excludes.alone (Ne.symm hij) hholds
      have hheld := (hserial.excludes.holds j).mp hholds
      have hacquire : action ≠ .acquire := by
        intro h
        have hnobody := (hfree h).resolve_right hserial.excludes.mutex
        rw [hheld] at hnobody
        cases hnobody
      obtain ⟨hcalm, hcounts, _⟩ := hacts.calm_eq hloose hacquire
      rw [hcalm, nextNumber_snoc _ _ _ _ hcounts]
      exact hserial.progress j
    · exact (hserial.progress j).loose hholds

theorem System.Serial.allocated_step (hserial : s.Serial calls t trace)
    (hstep : s.Step calls i action s') (hdone : ∀ j, ¬(s'.stage j).Trying) :
    Allocated s'.world.r := by
  obtain ⟨hacts, _⟩ := hstep
  have hown := hdone i
  dsimp only at hdone hown ⊢
  rw [Function.update_self] at hown
  refine hacts.allocated hown (hserial.progress i) fun hidle => hserial.allocated fun j => ?_
  by_cases hij : j = i
  · exact hij ▸ hidle
  · have hother := hdone j
    rw [Function.update_of_ne hij] at hother
    exact hother

theorem System.Serial.ended_step (hserial : s.Serial calls t trace)
    (hstep : s.Step calls i action s') (j : ι) (action' : Action) (hends : action'.Ends)
    (hmem : (j, action') ∈ trace ++ [(i, action)]) : (s'.stage j).Over := by
  obtain ⟨hacts, _⟩ := hstep
  dsimp only
  by_cases hij : j = i
  · subst hij
    rw [Function.update_self]
    rcases List.mem_append.mp hmem with hold | hnew
    · exact (hacts.ended.2 (hserial.ended j action' hends hold)).1
    · obtain ⟨_, rfl⟩ := Prod.mk.inj (List.mem_singleton.mp hnew)
      exact hacts.ended.1 hends
  · rw [Function.update_of_ne hij]
    have hold : (j, action') ∈ trace := by simpa [hij] using hmem
    exact hserial.ended j action' hends hold

theorem System.Serial.answered_step (hserial : s.Serial calls t trace)
    (hstep : s.Step calls i action s') (j : ι) (hanswered : (s'.stage j).Answered) :
    (j, Action.complete) ∈ trace ++ [(i, action)] := by
  obtain ⟨hacts, _⟩ := hstep
  dsimp only at hanswered
  by_cases hij : j = i
  · subst hij
    rw [Function.update_self] at hanswered
    rcases hacts.completes hanswered with hbefore | rfl
    · exact List.mem_append_left _ (hserial.answered j hbefore)
    · exact List.mem_append_right _ (List.mem_singleton_self _)
  · rw [Function.update_of_ne hij] at hanswered
    exact List.mem_append_left _ (hserial.answered j hanswered)

theorem System.Serial.numbered_step (hserial : s.Serial calls t trace)
    (hstep : s.Step calls i action s') : Numbered calls t (trace ++ [(i, action)]) := by
  obtain ⟨hacts, _⟩ := hstep
  intro front j action' rest heq hends
  rcases List.eq_nil_or_concat rest with rfl | ⟨rest', event, rfl⟩
  · -- the exchange that is over with this step
    obtain ⟨rfl, hevent⟩ := List.append_inj' heq rfl
    obtain ⟨rfl, rfl⟩ := Prod.mk.inj (List.singleton_injective hevent)
    have htries := hacts.tries (hserial.progress i)
    have hcalls : action.calls = [] := by
      cases action with
      | exchange => exact hends.elim
      | _ => rfl
    rw [callsOf_snoc, hcalls, if_pos rfl, List.append_nil]
    exact htries
  · -- one that was over before: its call makes no more calls
    rw [List.concat_eq_append, ← List.cons_append, ← List.append_assoc] at heq
    obtain ⟨rfl, hevent⟩ := List.append_inj' heq rfl
    obtain rfl := List.singleton_injective hevent
    have htries := hserial.numbered front j action' rest' rfl hends
    have hover := hserial.ended j action' hends (by simp)
    rw [callsOf_snoc]
    by_cases hij : i = j
    · subst hij
      rw [(hacts.ended.2 hover).2.1, if_pos rfl, List.append_nil]
      exact htries
    · rw [if_neg hij, List.append_nil]
      exact htries

theorem System.Serial.once_step (hserial : s.Serial calls t trace)
    (hstep : s.Step calls i action s') : EndsOnce (trace ++ [(i, action)]) := by
  obtain ⟨hacts, _⟩ := hstep
  intro j a b ha hb hsub
  rcases (sublist_snoc (l := [(j, a)])).mp hsub with hold | ⟨heq, hold⟩
  · exact hserial.once j a b ha hb hold
  · obtain ⟨rfl, rfl⟩ := Prod.mk.inj heq
    have hover := hserial.ended j a ha (List.singleton_sublist.mp hold)
    exact (hacts.ended.2 hover).2.2 hb

theorem System.Serial.entered_step (hserial : s.Serial calls t trace)
    (hstep : s.Step calls i action s') (j : ι) (made : List Call)
    (hmem : (j, Action.exchange made) ∈ trace ++ [(i, action)]) : (s'.stage j).Entered := by
  obtain ⟨hacts, _⟩ := hstep
  dsimp only
  by_cases hij : j = i
  · subst hij
    rw [Function.update_self]
    rcases List.mem_append.mp hmem with hold | hnew
    · exact (hacts.entered.2 (hserial.entered j made hold)).1
    · obtain ⟨_, rfl⟩ := Prod.mk.inj (List.mem_singleton.mp hnew)
      exact (hacts.entered.1 ⟨made, rfl⟩).2
  · rw [Function.update_of_ne hij]
    have hold : (j, Action.exchange made) ∈ trace := by simpa [hij] using hmem
    exact hserial.entered j made hold

/-- A call that exchanged something before another did has released the mutex for good. -/
theorem System.Serial.gone_step (hserial : s.Serial calls t trace)
    (hstep : s.Step calls i action s') (j k : ι) (a b : List Call) (hne : j ≠ k)
    (hsub : [(j, Action.exchange a), (k, Action.exchange b)].Sublist (trace ++ [(i, action)])) :
    ¬(s'.stage j).Holds := by
  obtain ⟨hacts, _⟩ := hstep
  dsimp only
  rcases (sublist_snoc (l := [(j, Action.exchange a)])).mp hsub with hold | ⟨heq, hold⟩
  · have hgone := hserial.gone j k a b hne hold
    by_cases hij : j = i
    · subst hij
      rw [Function.update_self]
      have hentered := hserial.entered j a (hold.subset (by simp))
      -- a call that has entered does not take the mutex again
      rcases hacts.holds with ⟨hacquire, _⟩ | ⟨_, _, hafter⟩ | ⟨_, _, hsame⟩
      · exact absurd hacquire (hacts.entered.2 hentered).2
      · exact hafter
      · exact hsame.not.mpr hgone
    · rw [Function.update_of_ne hij]
      exact hgone
  · obtain ⟨rfl, rfl⟩ := Prod.mk.inj heq
    rw [Function.update_of_ne hne]
    exact hserial.excludes.alone hne (hacts.entered.1 ⟨b, rfl⟩).1

theorem System.Serial.unmixed_step (hserial : s.Serial calls t trace)
    (hstep : s.Step calls i action s') : Unmixed (trace ++ [(i, action)]) := by
  obtain ⟨hacts, _⟩ := hstep
  intro j k a b c hne hsub
  rcases (sublist_snoc (l := [(j, Action.exchange a), (k, Action.exchange b)])).mp hsub with
    hold | ⟨heq, hold⟩
  · exact hserial.unmixed j k a b c hne hold
  · obtain ⟨rfl, rfl⟩ := Prod.mk.inj heq
    -- the first call would have to hold the mutex again
    exact hserial.gone j k a b hne hold (hacts.entered.1 ⟨c, rfl⟩).1

theorem System.Serial.step (hserial : s.Serial calls t trace) (hstep : s.Step calls i action s') :
    s'.Serial calls t (trace ++ [(i, action)]) where
  excludes := hserial.excludes.step hstep
  connection := by
    obtain ⟨hacts, _⟩ := hstep
    exact (hacts.steady (hserial.excludes.keeps i)).connection ▸ hserial.connection
  packet := by
    obtain ⟨hacts, _⟩ := hstep
    exact (hacts.steady (hserial.excludes.keeps i)).packet.le hserial.packet (by decide)
  allocated := hserial.allocated_step hstep
  transaction := by
    obtain ⟨hacts, _⟩ := hstep
    rw [completions_snoc, Nat.cast_add, ← add_assoc, ← hserial.transaction]
    exact (hacts.transaction (hserial.excludes.keeps i)).1
  counter := by
    obtain ⟨hacts, _⟩ := hstep
    obtain ⟨hmoves, hfits⟩ := hacts.transaction (hserial.excludes.keeps i)
    rw [completions_snoc]
    intro hcompleted
    by_cases hcounts : action.counts = 0
    · rw [hcounts, Nat.cast_zero, add_zero] at hmoves
      rw [hmoves]
      exact hserial.counter (by rwa [hcounts, add_zero] at hcompleted)
    · exact hfits hcounts
  progress := hserial.progress_step hstep
  ended := hserial.ended_step hstep
  answered := hserial.answered_step hstep
  numbered := hserial.numbered_step hstep
  once := hserial.once_step hstep
  entered := hserial.entered_step hstep
  gone := hserial.gone_step hstep
  unmixed := hserial.unmixed_step hstep

end Step

section Rows

variable {i : ι} {commands : Calls B fuel ι}

/-- One call moves on from where it stands. -/
theorem System.Reaches.act {s : System ι σ} {trace : Trace ι} {w w' : World σ} {holder : Option ι}
    {stages : ι → Stage σ} {stage stage' : Stage σ} {action : Action}
    (hrun : s.Reaches commands (fun _ _ _ => True) trace
      ⟨w, holder, Function.update stages i stage⟩)
    (hacts : Acts (commands.cut i) stage w action stage' w')
    (hfree : action = .acquire → holder = none) :
    s.Reaches commands (fun _ _ _ => True) (trace ++ [(i, action)])
      ⟨w', action.holder i holder, Function.update stages i stage'⟩ := by
  have hstage : Function.update stages i stage i = stage := Function.update_self ..
  have hmoved := hrun.step (.intro (i := i) (hstage.symm ▸ hacts) fun h => .inl (hfree h)) trivial
  simp only [Function.update_idem] at hmoved
  exact hmoved

/-- A command whose first attempt goes through, made in a row. -/
theorem System.Reaches.sends {s v : System ι σ} {trace : Trace ι}
    (hrun : s.Reaches commands (fun _ _ _ => True) trace v) (hstage : v.stage i = .entering)
    (hholder : v.holder = none) (hclear : v.world.r.operationKillSwitch = false)
    {w₀ w₁ w₂ : World σ} {rc : Int} (hprepare : (commands.op i).prepare B (locked v.world) = .ok () w₀)
    (htry : (commands.op i).sendTry B fuel w₀ = .ok 0 w₁) (hfits : Fits (w₁.r.transaction + 1))
    (hcheck : ptpCheckRc { w₁ with r := { w₁.r with transaction := w₁.r.transaction + 1 } } =
      .ok rc w₂) : ∃ more : Trace ι, (∀ event ∈ more, event.1 = i) ∧
      w₁.log = v.world.log ++ callsOf i more ∧
      s.Reaches commands (fun _ _ _ => True) (trace ++ more)
        ⟨unlocked w₂, none, Function.update v.stage i (.returned rc)⟩ := by
  obtain ⟨part, hpart⟩ := ((commands.op i).prepare_exchanges hprepare).2
  have hpart' : w₀.log = v.world.log ++ part := hpart.symm
  have hbegin : s.Reaches commands (fun _ _ _ => True) trace
      ⟨v.world, v.holder, Function.update v.stage i .entering⟩ := by
    rw [← hstage, Function.update_eq_self]
    exact hrun
  have henter := hbegin.act (.enter hclear) (by simp)
  have hlock := henter.act .lock fun _ => hholder
  have hpass := hlock.act (.pass hclear) (by simp)
  have hprepared := hpass.act (.prepare hprepare hpart.symm) (by simp)
  obtain ⟨made, hmade, htried⟩ := hprepared.tries (i := i) (fun _ _ => trivial)
    (Function.update_self ..) (commands.cut i).keeps
    ((congrFun (commands.cut i).run_eq _).trans htry)
  simp only [Function.update_idem] at htried
  have hanswered := htried.act .answered (by simp)
  have hcounted := hanswered.act (.count hfits) (by simp)
  have hchecked := hcounted.act (.answer hcheck) (by simp)
  have hleft := hchecked.act .leave (by simp)
  simp only [List.append_assoc] at hleft
  refine ⟨_, ?_, ?_, hleft⟩
  · intro event hevent
    simp only [List.mem_append, List.mem_singleton, List.mem_map] at hevent
    rcases hevent with rfl | rfl | rfl | rfl | ⟨_, _, rfl⟩ | rfl | rfl | rfl | rfl <;> rfl
  · have hmade' : w₁.log = w₀.log ++ made.flatten := hmade
    have hparts : callsOf i (made.map fun part => (i, Action.exchange part)) = made.flatten := by
      simp [callsOf, Action.calls, List.flatMap_map, List.flatMap_id']
    rw [hmade', hpart']
    simp only [callsOf, List.flatMap_append] at hparts ⊢
    rw [hparts]
    simp [Action.calls]

end Rows

/-- A command in one attempt: the log behind the attempt, and its results. -/
def inOneAttempt (op : Operation) : M (List (Option (List UInt8))) (List Call × Int × Int) := do
  ptpMutexLock
  op.prepare scripted
  let rc ← op.sendTry scripted 8
  let log ← fun w => .ok w.log w
  countTransaction
  let code ← ptpCheckRc
  ptpMutexUnlock
  pure (log, rc, code)

theorem inOneAttempt_parts {op : Operation} {w w' : World (List (Option (List UInt8)))}
    {log : List Call} {rc code : Int} (hrun : inOneAttempt op w = .ok (log, rc, code) w') :
    ∃ w₀ w₁ w₂, op.prepare scripted (locked w) = .ok () w₀ ∧
      op.sendTry scripted 8 w₀ = .ok rc w₁ ∧ w₁.log = log ∧ Fits (w₁.r.transaction + 1) ∧
      ptpCheckRc { w₁ with r := { w₁.r with transaction := w₁.r.transaction + 1 } } = .ok code w₂ ∧
      w' = unlocked w₂ := by
  obtain ⟨_, _, hlock, hrest⟩ := bind_eq_ok.mp hrun
  obtain ⟨_, w₀, hprepare, hrest₁⟩ := bind_eq_ok.mp hrest
  obtain ⟨rc₁, w₁, htry, hrest₂⟩ := bind_eq_ok.mp hrest₁
  obtain ⟨log₁, v, hlog, hrest₃⟩ := bind_eq_ok.mp hrest₂
  obtain ⟨_, u, hcount, hrest₄⟩ := bind_eq_ok.mp hrest₃
  obtain ⟨code₁, w₂, hcheck, hrest₅⟩ := bind_eq_ok.mp hrest₄
  obtain ⟨_, _, hunlock, hreturn⟩ := bind_eq_ok.mp hrest₅
  obtain ⟨_, rfl⟩ := EStateM.Result.ok.inj hlock
  obtain ⟨rfl, rfl⟩ := EStateM.Result.ok.inj hlog
  obtain ⟨hfits, rfl⟩ := countTransaction_eq_ok hcount
  obtain ⟨_, rfl⟩ := EStateM.Result.ok.inj hunlock
  obtain ⟨hresult, rfl⟩ := EStateM.Result.ok.inj hreturn
  obtain ⟨rfl, hpair⟩ := Prod.mk.inj hresult
  obtain ⟨rfl, rfl⟩ := Prod.mk.inj hpair
  exact ⟨w₀, w₁, w₂, hprepare, htry, rfl, hfits, hcheck, rfl⟩

end Libpict
