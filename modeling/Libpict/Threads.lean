import Libpict.Blindness
import Libpict.Download

/-! # Threads on one runtime

Any number of calls of `ptp_send` and `ptp_send_data` that share a runtime and move in
any order. A call goes through stages, one for each place where another thread can come
in between; its attempts are cut into pieces, however fine. A call that moves alone does
what the sequential function does.
-/

namespace Libpict

open CInt Exec

variable {σ : Type}

/-! ## Exchanges -/

/-- What an exchange may do to the world: of the runtime it changes the buffer and the
counters of the transport, and it adds to the log. -/
def Exchanges (w w' : World σ) : Prop := SameSetup w w' ∧ Extends w w'

instance : IsPreorder (World σ) Exchanges where
  refl w := ⟨refl_of SameSetup w, refl_of Extends w⟩
  trans _ _ _ h h' := ⟨trans_of SameSetup h.1 h'.1, trans_of Extends h.2 h'.2⟩

theorem Sends.exchanges {w w' : World σ} (hsends : Sends w w') : Exchanges w w' :=
  ⟨hsends.sameSetup, hsends.extends⟩

theorem OnlyReads.exchanges {w w' : World σ} (hreads : OnlyReads w w') : Exchanges w w' :=
  ⟨hreads.sameSetup, hreads.extends⟩

/-- A part of an exchange: it does what an exchange may do and does not look at the switch. -/
structure Exchanging {α : Type} (x : M σ α) : Prop where
  moves : Moves Exchanges x
  blind : Blind x

/-! ## Computations cut into pieces -/

/-- A computation that other threads may interrupt between its pieces. -/
inductive Pieces (σ α : Type) : Type 1
  | done (a : α)
  | piece {β : Type} (x : M σ β) (next : β → Pieces σ α)

namespace Pieces

variable {α β ι : Type}

/-- The pieces in a row. -/
def run : Pieces σ α → M σ α
  | done a => pure a
  | piece x next => x >>= fun b => (next b).run

/-- Every piece is part of an exchange. -/
def Keeps : Pieces σ α → Prop
  | done _ => True
  | piece x next => Exchanging x ∧ ∀ b, (next b).Keeps

/-- The computation as a single piece. -/
def whole (x : M σ α) : Pieces σ α := piece x done

def bind : Pieces σ α → (α → Pieces σ β) → Pieces σ β
  | done a, f => f a
  | piece x next, f => piece x fun b => (next b).bind f

/-- A loop, cut between its rounds. -/
def iterate (body : ι → M σ (ι ⊕ α)) : Nat → ι → Pieces σ α
  | 0, _ => whole (halt .spent)
  | fuel + 1, i => piece (body i) fun
      | .inl next => iterate body fuel next
      | .inr a => done a

@[simp] theorem run_whole (x : M σ α) : (whole x).run = x := by
  funext w
  cases hx : x w with
  | ok a v => exact bind_ok hx
  | error e v => exact bind_error hx

@[simp] theorem run_bind (p : Pieces σ α) (f : α → Pieces σ β) :
    (p.bind f).run = p.run >>= fun a => (f a).run := by
  induction p with
  | done a => rfl
  | piece x next ih =>
      simp only [bind, run, bind_assoc]
      congr
      funext b
      exact ih b

@[simp] theorem run_iterate (body : ι → M σ (ι ⊕ α)) (fuel : Nat) (i : ι) :
    (iterate body fuel i).run = Exec.iterate .spent body fuel i := by
  induction fuel generalizing i with
  | zero => exact run_whole _
  | succ fuel ih =>
      simp only [iterate, run, Exec.iterate]
      congr
      funext r
      cases r with
      | inl next => exact ih next
      | inr a => rfl

theorem keeps_whole {x : M σ α} (hx : Exchanging x) : (whole x).Keeps := ⟨hx, fun _ => trivial⟩

theorem keeps_bind {p : Pieces σ α} {f : α → Pieces σ β} (hp : p.Keeps)
    (hf : ∀ a, (f a).Keeps) : (p.bind f).Keeps := by
  induction p with
  | done a => exact hf a
  | piece x next ih => exact ⟨hp.1, fun b => ih b (hp.2 b)⟩

theorem keeps_iterate {body : ι → M σ (ι ⊕ α)} (hbody : ∀ i, Exchanging (body i)) (fuel : Nat)
    (i : ι) : (iterate body fuel i).Keeps := by
  induction fuel generalizing i with
  | zero => exact keeps_whole ⟨moves_halt _, blind_halt _⟩
  | succ fuel ih =>
      refine ⟨hbody i, fun r => ?_⟩
      cases r with
      | inl next => exact ih next
      | inr a => trivial

theorem Keeps.moves {p : Pieces σ α} (hkeeps : p.Keeps) : Moves Exchanges p.run := by
  induction p with
  | done a => exact Moves.pure a
  | piece x next ih => exact hkeeps.1.moves.bind fun b => ih b (hkeeps.2 b)

end Pieces

/-! ## Attempts cut into pieces -/

variable {B : Backend σ} {fuel : Nat}

/-- One attempt of an operation: `ptp_send_try` or `ptp_send_data_try`. -/
def Operation.sendTry (B : Backend σ) (fuel : Nat) : Operation → M σ Int
  | send cmd => ptpSendTry B fuel cmd
  | sendData cmd data => ptpSendDataTry B fuel cmd data

theorem Operation.exec_eq_transaction (op : Operation) :
    op.exec B fuel = ptpTransaction (op.prepare B) (op.sendTry B fuel) := by
  cases op <;> rfl

theorem Operation.prepare_exchanges (op : Operation) {w w' : World σ}
    (hrun : op.prepare B w = .ok () w') : Exchanges w w' :=
  ⟨(op.prepare_keeps hrun).1, (op.prepare_silent.of_ok hrun).extends⟩

/-- An attempt of the operation, cut into pieces that each do what an exchange may do. -/
structure Cut (B : Backend σ) (fuel : Nat) (op : Operation) where
  pieces : Pieces σ Int
  run_eq : pieces.run = op.sendTry B fuel
  keeps : pieces.Keeps

theorem Cut.exchanges {op : Operation} (cut : Cut B fuel op) {w w' : World σ} {rc : Int}
    (hrun : op.sendTry B fuel w = .ok rc w') : Exchanges w w' := by
  rw [← cut.run_eq] at hrun
  exact cut.keeps.moves.of_ok hrun

namespace Pieces

/-- `ptp_send_packet`, cut between the rounds of its loop, and what follows it. -/
def sendThen (B : Backend σ) (fuel : Nat) (length : Int) (next : Pieces σ Int) : Pieces σ Int :=
  (iterate (ptpSendPacketBody B length) fuel 0).bind fun sent =>
    if sent ≠ length then done PtpGeneralError.ioErr else next

/-- A look at the connection type. -/
def connectionType : M σ PtpConnType := inspect fun r => .ok r.connectionType

theorem connectionType_bind (f : PtpConnType → M σ Int) :
    connectionType >>= f = runtime >>= fun r => f r.connectionType := rfl

theorem exchanging_connectionType : Exchanging (connectionType : M σ PtpConnType) :=
  ⟨moves_inspect _, blind_inspect fun _ => rfl⟩

/-- `ptp_receive_all_packets`, cut between the rounds of its loop except over PTP/IP. -/
def receiveReply (B : Backend σ) (fuel : Nat) : Pieces σ Int :=
  piece connectionType fun connection =>
    match connection with
    | .usb | .ipUsb =>
        piece (updateRuntime fun r => { r with waitForResponse := r.responseWaitDefault }) fun _ =>
          (iterate (ptpusbReadBody B) fuel ⟨0, 0⟩).bind fun rc => done (if rc < 0 then rc else 0)
    | _ => whole (Libpict.receiveReply B fuel)

theorem run_sendThen (length : Int) (next : Pieces σ Int) :
    (sendThen B fuel length next).run = Libpict.sendThen B fuel length next.run := by
  simp only [sendThen, Libpict.sendThen, run_bind, run_iterate, ptpSendPacket]
  congr
  funext sent
  split <;> rfl

theorem run_receiveReply : (receiveReply B fuel).run = Libpict.receiveReply B fuel := by
  funext w
  refine (bind_ok (rfl : connectionType w = .ok w.r.connectionType w)).trans ?_
  -- over USB-style framing the function is its loop
  have hloop : (w.r.connectionType = .usb ∨ w.r.connectionType = .ipUsb) →
      (piece (updateRuntime fun r => { r with waitForResponse := r.responseWaitDefault }) fun _ =>
        (iterate (ptpusbReadBody B) fuel ⟨0, 0⟩).bind fun rc =>
          (done (if rc < 0 then rc else 0) : Pieces σ Int)).run w =
        Libpict.receiveReply B fuel w := by
    intro hconn
    have hreceive : ptpReceiveAllPackets B fuel w = ptpusbReadAllPackets B fuel w := by
      unfold ptpReceiveAllPackets
      rw [bind_ok (runtime_run w)]
      rcases hconn with hconn | hconn <;> rw [hconn]
    have hsplit : ∀ rc : Int, (if rc < 0 then pure rc else pure 0 : M σ Int) =
        pure (if rc < 0 then rc else 0) := fun rc => by split <;> rfl
    simp only [run, run_bind, run_iterate, Libpict.receiveReply, hsplit]
    rw [bind_run (ptpReceiveAllPackets B fuel), hreceive]
    rfl
  dsimp only
  cases hconn : w.r.connectionType with
  | usb => exact hloop (.inl hconn)
  | ipUsb => exact hloop (.inr hconn)
  | ip => rw [run_whole]
  | ble => rw [run_whole]

theorem keeps_sendThen {length : Int} {next : Pieces σ Int} (hnext : next.Keeps) :
    (sendThen B fuel length next).Keeps := by
  refine keeps_bind (keeps_iterate (fun sent => ?_) fuel 0) fun sent => ?_
  · exact ⟨(ptpSendPacketBody_onlyWrites B length sent).mono fun _ _ h => h.sends.exchanges,
      blind_ptpSendPacketBody B length sent⟩
  · split
    · trivial
    · exact hnext

theorem keeps_receiveReply : (receiveReply B fuel).Keeps := by
  have hloop : (piece (updateRuntime fun r => { r with waitForResponse := r.responseWaitDefault })
      fun _ => (iterate (ptpusbReadBody B) fuel ⟨0, 0⟩).bind fun rc =>
        (done (if rc < 0 then rc else 0) : Pieces σ Int)).Keeps := by
    refine ⟨⟨(setWait_onlyReads _).mono fun _ _ h => h.exchanges,
      blind_setWait (fun r => r.responseWaitDefault) fun _ => rfl⟩, fun _ => ?_⟩
    refine keeps_bind (keeps_iterate (fun s => ?_) fuel _) fun rc => trivial
    exact ⟨(ptpusbReadBody_onlyReads B s).mono fun _ _ h => h.exchanges, blind_ptpusbReadBody B s⟩
  have hwhole : (whole (Libpict.receiveReply B fuel)).Keeps :=
    keeps_whole ⟨(receiveReply_onlyReads B fuel).mono fun _ _ h => h.exchanges,
      blind_receiveReply B fuel⟩
  refine ⟨exchanging_connectionType, fun connection => ?_⟩
  cases connection with
  | usb => exact hloop
  | ipUsb => exact hloop
  | ip => exact hwhole
  | ble => exact hwhole

/-- `ptp_send_try` and `ptp_send_data_try`, cut at the packets they build and at every
round of their loops. -/
def sendTry (B : Backend σ) (fuel : Nat) : Operation → Pieces σ Int
  | .send cmd => piece (ptpNewCmdPacket cmd) fun length =>
      sendThen B fuel length (receiveReply B fuel)
  | .sendData cmd data => piece (ptpNewCmdPacket cmd) fun plength =>
      sendThen B fuel plength <| piece connectionType fun connection =>
        match connection with
        | .ip => piece (ptpipDataStartPacket data.length) fun plength =>
            sendThen B fuel plength <| piece (ptpipDataEndPacket data) fun plength =>
              sendThen B fuel plength (receiveReply B fuel)
        | _ => piece (ptpusbNewDataPacket cmd data) fun plength =>
            sendThen B fuel plength (receiveReply B fuel)

theorem run_sendTry (op : Operation) : (sendTry B fuel op).run = op.sendTry B fuel := by
  cases op with
  | send cmd => simp only [sendTry, run, run_sendThen, run_receiveReply, Operation.sendTry, ptpSendTry]
  | sendData cmd data =>
      simp only [sendTry, run, run_sendThen, Operation.sendTry, ptpSendDataTry, connectionType_bind]
      congr
      funext plength
      congr
      funext r
      cases r.connectionType <;> simp only [run, run_sendThen, run_receiveReply]

theorem keeps_sendTry (op : Operation) : (sendTry B fuel op).Keeps := by
  have hcommand (cmd : PtpCommand) : Exchanging (ptpNewCmdPacket cmd : M σ Int) :=
    ⟨(ptpNewCmdPacket_sends cmd).mono fun _ _ h => h.exchanges, blind_ptpNewCmdPacket cmd⟩
  have hstore (offset : Int) (bytes : List UInt8) :
      Moves Exchanges (storeData offset bytes : M σ Unit) :=
    (storeData_sends offset bytes).mono fun _ _ h => h.exchanges
  have hreply (plength : Int) : (sendThen B fuel plength (receiveReply B fuel)).Keeps :=
    keeps_sendThen keeps_receiveReply
  cases op with
  | send cmd => exact ⟨hcommand cmd, hreply⟩
  | sendData cmd data =>
      refine ⟨hcommand cmd, fun plength =>
        keeps_sendThen ⟨exchanging_connectionType, fun connection => ?_⟩⟩
      have husb : (piece (ptpusbNewDataPacket cmd data) fun plength =>
          sendThen B fuel plength (receiveReply B fuel)).Keeps :=
        ⟨⟨(ptpusbNewDataPacket_sends cmd data).mono fun _ _ h => h.exchanges,
          blind_ptpusbNewDataPacket cmd data⟩, hreply⟩
      cases connection with
      | ip =>
          have hstart : Moves Exchanges (ptpipDataStartPacket data.length : M σ Int) :=
            moves_runtime.bind fun _ => (hstore _ _).bind fun _ => Moves.pure _
          have hend : Moves Exchanges (ptpipDataEndPacket data : M σ Int) :=
            moves_runtime.bind fun _ => (moves_intAdd _ _).bind fun _ => (hstore _ _).bind fun _ =>
              (hstore _ _).bind fun _ => Moves.pure _
          exact ⟨⟨hstart, blind_ptpipDataStartPacket _⟩, fun _ =>
            keeps_sendThen ⟨⟨hend, blind_ptpipDataEndPacket data⟩, hreply⟩⟩
      | ipUsb => exact husb
      | usb => exact husb
      | ble => exact husb

end Pieces

/-- The attempt cut at every packet and every round of a loop. -/
def Cut.rounds (B : Backend σ) (fuel : Nat) (op : Operation) : Cut B fuel op where
  pieces := Pieces.sendTry B fuel op
  run_eq := Pieces.run_sendTry op
  keeps := Pieces.keeps_sendTry op

/-! ## The stages of a call -/

/-- Where a call stands. -/
inductive Stage (σ : Type) : Type 1
  /-- Before the first look at the switch. -/
  | entering
  /-- Before it takes the mutex. -/
  | locking
  /-- Before the second look at the switch, under the mutex. -/
  | checking
  /-- Before what it does once, ahead of its attempts. -/
  | preparing
  /-- In its first attempt. -/
  | trying (rest : Pieces σ Int)
  /-- In its second attempt. -/
  | retrying (rest : Pieces σ Int)
  /-- The second attempt has failed: before it sets the switch. -/
  | switching
  /-- The first attempt has failed: before it releases the mutex. -/
  | releasing
  /-- The first attempt has failed: before it sets the switch, the mutex released. -/
  | setting
  /-- The exchange has gone through: before it counts the transaction. -/
  | counting
  /-- Before it looks at the response code. -/
  | answering
  /-- Before it releases the mutex, with its result. -/
  | leaving (rc : Int)
  | returned (rc : Int)

/-- What a step of a call shows of itself. -/
inductive Action
  | quiet
  /-- It takes the mutex. -/
  | acquire
  /-- It finds the switch not set under the mutex. -/
  | pass
  /-- It makes these backend calls. -/
  | exchange (calls : List Call)
  /-- Its exchange has failed. -/
  | fail
  /-- It counts its exchange, which has gone through. -/
  | complete
  /-- It releases the mutex. -/
  | release

/-- The world once the switch has been set. -/
def switched (w : World σ) : World σ := { w with r := { w.r with operationKillSwitch := true } }

/-- A step of a call: one line of `ptp_send` or `ptp_send_data`, or a piece of an attempt. -/
inductive Acts {op : Operation} (cut : Cut B fuel op) :
    Stage σ → World σ → Action → Stage σ → World σ → Prop
  | refused {w} : w.r.operationKillSwitch = true →
      Acts cut .entering w .quiet (.returned PtpGeneralError.ioErr) w
  | enter {w} : w.r.operationKillSwitch = false → Acts cut .entering w .quiet .locking w
  | lock {w} : Acts cut .locking w .acquire .checking (locked w)
  | stop {w} : w.r.operationKillSwitch = true →
      Acts cut .checking w .quiet (.leaving PtpGeneralError.ioErr) w
  | pass {w} : w.r.operationKillSwitch = false → Acts cut .checking w .pass .preparing w
  | prepare {w w' calls} : op.prepare B w = .ok () w' → w'.log = w.log ++ calls →
      Acts cut .preparing w (.exchange calls) (.trying cut.pieces) w'
  | trying {β : Type} {x : M σ β} {next : β → Pieces σ Int} {w b w' calls} : x w = .ok b w' →
      w'.log = w.log ++ calls →
      Acts cut (.trying (.piece x next)) w (.exchange calls) (.trying (next b)) w'
  | retry {w} : Acts cut (.trying (.done PtpGeneralError.commandIgnored)) w .quiet
      (.retrying cut.pieces) w
  -- `else if (rc)`: the mutex is released before the switch is set
  | fail {rc w} : rc ≠ PtpGeneralError.commandIgnored → rc ≠ 0 →
      Acts cut (.trying (.done rc)) w .fail .releasing w
  | answered {w} : Acts cut (.trying (.done 0)) w .quiet .counting w
  | retrying {β : Type} {x : M σ β} {next : β → Pieces σ Int} {w b w' calls} : x w = .ok b w' →
      w'.log = w.log ++ calls →
      Acts cut (.retrying (.piece x next)) w (.exchange calls) (.retrying (next b)) w'
  -- the second attempt: the switch is set before the mutex is released
  | failAgain {rc w} : rc ≠ 0 → Acts cut (.retrying (.done rc)) w .fail .switching w
  | answeredAgain {w} : Acts cut (.retrying (.done 0)) w .quiet .counting w
  | switch {w} : Acts cut .switching w .quiet (.leaving PtpGeneralError.ioErr) (switched w)
  | release {w} : Acts cut .releasing w .release .setting (unlocked w)
  | set {w} : Acts cut .setting w .quiet (.returned PtpGeneralError.ioErr) (switched w)
  -- `r->transaction++`: an `int` that is spent cannot be counted on
  | count {w} : Fits (w.r.transaction + 1) → Acts cut .counting w .complete .answering
      { w with r := { w.r with transaction := w.r.transaction + 1 } }
  | answer {w rc w'} : ptpCheckRc w = .ok rc w' → Acts cut .answering w .quiet (.leaving rc) w'
  | leave {rc w} : Acts cut (.leaving rc) w .release (.returned rc) (unlocked w)

/-- What a call at the stage has still to do, if nobody comes in between. -/
def Stage.rest (B : Backend σ) (fuel : Nat) (op : Operation) : Stage σ → M σ Int
  | entering => op.exec B fuel
  | locking => do
      ptpMutexLock
      let r ← runtime
      if r.operationKillSwitch then do
        ptpMutexUnlock
        pure PtpGeneralError.ioErr
      else do
        op.prepare B
        attemptTwice (op.sendTry B fuel)
  | checking => do
      let r ← runtime
      if r.operationKillSwitch then do
        ptpMutexUnlock
        pure PtpGeneralError.ioErr
      else do
        op.prepare B
        attemptTwice (op.sendTry B fuel)
  | preparing => do
      op.prepare B
      attemptTwice (op.sendTry B fuel)
  | trying rest => rest.run >>= afterAttempt (op.sendTry B fuel)
  | retrying rest => do
      let rc ← rest.run
      if rc ≠ 0 then do
        updateRuntime fun r => { r with operationKillSwitch := true }
        ptpMutexUnlock
        pure PtpGeneralError.ioErr
      else finishTransaction
  | switching => do
      updateRuntime fun r => { r with operationKillSwitch := true }
      ptpMutexUnlock
      pure PtpGeneralError.ioErr
  | releasing => do
      ptpMutexUnlock
      updateRuntime fun r => { r with operationKillSwitch := true }
      pure PtpGeneralError.ioErr
  | setting => do
      updateRuntime fun r => { r with operationKillSwitch := true }
      pure PtpGeneralError.ioErr
  | counting => finishTransaction
  | answering => do
      let rc ← ptpCheckRc
      ptpMutexUnlock
      pure rc
  | leaving rc => do
      ptpMutexUnlock
      pure rc
  | returned rc => pure rc

/-- A step does not change what comes of the call. -/
theorem Acts.rest_eq {op : Operation} {cut : Cut B fuel op} {stage stage' : Stage σ}
    {w w' : World σ} {action : Action} (hacts : Acts cut stage w action stage' w') :
    stage.rest B fuel op w = stage'.rest B fuel op w' := by
  cases hacts with
  | refused hset =>
      simp only [Stage.rest, Operation.exec_eq_transaction]
      exact ptpTransaction_refused hset
  | enter hclear =>
      simp only [Stage.rest, Operation.exec_eq_transaction, ptpTransaction]
      rw [bind_ok (runtime_run w), hclear]
      rfl
  | lock => rfl
  | stop hset =>
      simp only [Stage.rest]
      rw [bind_ok (runtime_run w), if_pos hset]
  | pass hclear =>
      simp only [Stage.rest]
      rw [bind_ok (runtime_run w), hclear]
      rfl
  | prepare hrun =>
      simp only [Stage.rest, cut.run_eq]
      exact bind_ok hrun
  | trying hrun =>
      simp only [Stage.rest, Pieces.run, bind_assoc]
      exact bind_ok hrun
  | retry =>
      simp only [Stage.rest, cut.run_eq]
      rfl
  | fail hignored hfailed =>
      simp only [Stage.rest, Pieces.run, pure_bind, afterAttempt]
      rw [if_neg hignored, if_pos hfailed]
  | answered => rfl
  | retrying hrun =>
      simp only [Stage.rest, Pieces.run, bind_assoc]
      exact bind_ok hrun
  | failAgain hfailed =>
      simp only [Stage.rest, Pieces.run, pure_bind]
      rw [if_pos hfailed]
  | answeredAgain => rfl
  | switch => rfl
  | release => rfl
  | set => rfl
  | count hfits =>
      simp only [Stage.rest, finishTransaction]
      exact bind_ok (countTransaction_ok hfits)
  | answer hrun =>
      simp only [Stage.rest]
      exact bind_ok hrun
  | leave => rfl

/-! ## What a step changes -/

/-- The call holds the mutex. -/
def Stage.Holds : Stage σ → Prop
  | entering | locking | setting | returned _ => False
  | _ => True

/-- The pieces that are left still do what an exchange may do. -/
def Stage.Keeps : Stage σ → Prop
  | trying rest | retrying rest => rest.Keeps
  | _ => True

section Acts

variable {op : Operation} {cut : Cut B fuel op} {stage stage' : Stage σ} {w w' : World σ}
  {action : Action}

theorem Acts.keeps (hacts : Acts cut stage w action stage' w') (hkeeps : stage.Keeps) :
    stage'.Keeps := by
  cases hacts with
  | prepare => exact cut.keeps
  | retry => exact cut.keeps
  | trying => exact hkeeps.2 _
  | retrying => exact hkeeps.2 _
  | _ => trivial

theorem Acts.answer_world {rc : Int} (hrun : ptpCheckRc w = .ok rc w') : w' = w := by
  obtain ⟨code, v, hcode, hrest⟩ := bind_eq_ok.mp hrun
  rw [(inspect_eq_ok hcode).2] at hrest
  split at hrest
  · exact (EStateM.Result.ok.inj hrest).2.symm
  · split at hrest
    · obtain ⟨_, u, hagain, hrest'⟩ := bind_eq_ok.mp hrest
      rw [← (EStateM.Result.ok.inj hrest').2, (inspect_eq_ok hagain).2]
    · exact (EStateM.Result.ok.inj hrest).2.symm

/-- What a call leaves alone: a set switch stays set, and the mutex and the connection stay. -/
structure Steady (w w' : World σ) : Prop where
  switch : w.r.operationKillSwitch = true → w'.r.operationKillSwitch = true
  mutex : w'.r.mutex = none ↔ w.r.mutex = none
  connection : w'.r.connectionType = w.r.connectionType
  packet : w.r.Resized w'.r

theorem Exchanges.steady (hexchanges : Exchanges w w') : Steady w w' := by
  obtain ⟨⟨hruntime, hpacket⟩, _⟩ := hexchanges
  refine ⟨?_, ?_, ?_, hpacket⟩ <;> rw [hruntime]
  exact id

theorem Acts.steady (hacts : Acts cut stage w action stage' w') (hkeeps : stage.Keeps) :
    Steady w w' := by
  cases hacts with
  | prepare hrun => exact (op.prepare_exchanges hrun).steady
  | trying hrun => exact (hkeeps.1.moves.of_ok hrun).steady
  | retrying hrun => exact (hkeeps.1.moves.of_ok hrun).steady
  | answer hrun =>
      rw [Acts.answer_world hrun]
      exact ⟨id, Iff.rfl, rfl, .inl rfl⟩
  | lock => exact ⟨id, Option.map_eq_none_iff, rfl, .inl rfl⟩
  | switch => exact ⟨fun _ => rfl, Iff.rfl, rfl, .inl rfl⟩
  | release => exact ⟨id, Option.map_eq_none_iff, rfl, .inl rfl⟩
  | set => exact ⟨fun _ => rfl, Iff.rfl, rfl, .inl rfl⟩
  | leave => exact ⟨id, Option.map_eq_none_iff, rfl, .inl rfl⟩
  | _ => exact ⟨id, Iff.rfl, rfl, .inl rfl⟩

/-- A call takes the mutex if it does not hold it, and releases it if it does. -/
theorem Acts.holds (hacts : Acts cut stage w action stage' w') :
    (action = .acquire ∧ ¬stage.Holds ∧ stage'.Holds) ∨
      (action = .release ∧ stage.Holds ∧ ¬stage'.Holds) ∨
        (action ≠ .acquire ∧ action ≠ .release ∧ (stage'.Holds ↔ stage.Holds)) := by
  cases hacts <;> simp [Stage.Holds]

end Acts

/-! ## The system -/

/-- The calls that share a runtime: the world, the call that holds the mutex, and where
each call stands. -/
structure System (ι σ : Type) where
  world : World σ
  holder : Option ι
  stage : ι → Stage σ

/-- Who holds the mutex after an action of `i`. -/
def Action.holder {ι : Type} (i : ι) (holder : Option ι) : Action → Option ι
  | acquire => some i
  | release => none
  | _ => holder

/-- The operation of each call and how its attempts are cut. -/
structure Calls (B : Backend σ) (fuel : Nat) (ι : Type) where
  op : ι → Operation
  cut : ∀ i, Cut B fuel (op i)

theorem sublist_snoc {α : Type} {l t : List α} {x e : α} :
    (l ++ [x]).Sublist (t ++ [e]) ↔ (l ++ [x]).Sublist t ∨ x = e ∧ l.Sublist t := by
  constructor
  · intro hsub
    obtain ⟨front, back, heq, hfront, hback⟩ := List.sublist_append_iff.mp hsub
    rcases List.sublist_singleton.mp hback with rfl | rfl
    · rw [List.append_nil] at heq
      exact .inl (heq ▸ hfront)
    · obtain ⟨rfl, hx⟩ := List.append_inj' heq rfl
      exact .inr ⟨by simpa using hx, hfront⟩
  · rintro (hsub | ⟨rfl, hsub⟩)
    · exact hsub.trans (List.sublist_append_left t [e])
    · exact hsub.append (List.Sublist.refl _)

section System

variable {ι : Type} [DecidableEq ι]

/-- One call makes a step. It takes the mutex only while nobody holds it; a runtime
without a mutex keeps nobody out. -/
inductive System.Step (calls : Calls B fuel ι) : System ι σ → ι → Action → System ι σ → Prop
  | intro {s : System ι σ} {i : ι} {action : Action} {stage' : Stage σ} {w' : World σ} :
      Acts (calls.cut i) (s.stage i) s.world action stage' w' →
      (action = .acquire → s.holder = none ∨ s.world.r.mutex = none) →
      Step calls s i action
        ⟨w', action.holder i s.holder, Function.update s.stage i stage'⟩

/-- What has happened, in order. -/
abbrev Trace (ι : Type) := List (ι × Action)

/-- The system goes from one state to another by steps that are `allowed` where they are
made. -/
inductive System.Reaches (calls : Calls B fuel ι) (allowed : System ι σ → ι → Action → Prop)
    (s : System ι σ) : Trace ι → System ι σ → Prop
  | start : Reaches calls allowed s [] s
  | step {trace : Trace ι} {v v' : System ι σ} {i : ι} {action : Action} :
      Reaches calls allowed s trace v → v.Step calls i action v' → allowed v i action →
      Reaches calls allowed s (trace ++ [(i, action)]) v'

/-- All calls are about to be made on a runtime whose mutex is free. -/
structure System.Starts (s : System ι σ) : Prop where
  mutex : s.world.r.mutex = some 0
  holder : s.holder = none
  stage : ∀ i, s.stage i = .entering

variable {calls : Calls B fuel ι} {allowed : System ι σ → ι → Action → Prop}

/-- A run is one whatever is allowed. -/
theorem System.Reaches.any {s v : System ι σ} {trace : Trace ι}
    (hrun : s.Reaches calls allowed trace v) : s.Reaches calls (fun _ _ _ => True) trace v := by
  induction hrun with
  | start => exact .start
  | step _ hstep _ ih => exact ih.step hstep trivial

/-- The pieces of a first attempt, made in a row. -/
theorem System.Reaches.tries {s v : System ι σ} {trace : Trace ι} {i : ι} {p : Pieces σ Int}
    {rc : Int} {w' : World σ} (hrun : s.Reaches calls allowed trace v)
    (hallowed : ∀ u made, allowed u i (.exchange made)) (hstage : v.stage i = .trying p)
    (hkeeps : p.Keeps) (hp : p.run v.world = .ok rc w') :
    ∃ made : List (List Call), w'.log = v.world.log ++ made.flatten ∧
      s.Reaches calls allowed (trace ++ made.map fun part => (i, .exchange part))
        ⟨w', v.holder, Function.update v.stage i (.trying (.done rc))⟩ := by
  induction p generalizing v trace with
  | done a =>
      obtain ⟨rfl, rfl⟩ := EStateM.Result.ok.inj hp
      refine ⟨[], by simp, ?_⟩
      rw [← hstage, Function.update_eq_self, List.map_nil, List.append_nil]
      exact hrun
  | piece x next ih =>
      obtain ⟨b, u, hx, hnext⟩ := bind_eq_ok.mp hp
      obtain ⟨part, hlog⟩ := (hkeeps.1.moves.of_ok hx).2
      have hacts : Acts (calls.cut i) (v.stage i) v.world (.exchange part) (.trying (next b)) u := by
        rw [hstage]
        exact .trying hx hlog.symm
      have hmoved := hrun.step (.intro hacts (by simp)) (hallowed v part)
      obtain ⟨made, hmade, hreaches⟩ := ih b hmoved (Function.update_self ..) (hkeeps.2 b) hnext
      refine ⟨part :: made, ?_, ?_⟩
      · rw [hmade, ← hlog, List.flatten_cons, List.append_assoc]
      · rw [Function.update_idem, List.append_assoc] at hreaches
        exact hreaches

/-- A call during which no other moves does what the sequential function does. -/
theorem System.Reaches.alone {s v : System ι σ} {trace : Trace ι} {i : ι} {rc : Int}
    (hrun : s.Reaches calls allowed trace v) (hstart : s.stage i = .entering)
    (halone : ∀ event ∈ trace, event.1 = i) (hreturned : v.stage i = .returned rc) :
    (calls.op i).exec B fuel s.world = .ok rc v.world := by
  have hrest : (s.stage i).rest B fuel (calls.op i) s.world =
      (v.stage i).rest B fuel (calls.op i) v.world := by
    clear hreturned
    -- what is left to do comes to the same all along the run
    induction hrun with
    | start => rfl
    | @step trace u u' j action hrun hstep _ ih =>
        have hbefore := ih fun event hevent => halone event (List.mem_append_left _ hevent)
        obtain rfl : j = i := halone (j, action) (by simp)
        obtain ⟨hacts, _⟩ := hstep
        rw [hbefore, hacts.rest_eq]
        simp only [Function.update_self]
  rw [hstart, hreturned] at hrest
  exact hrest

/-! ## Mutual exclusion -/

/-- The mutex is there, and who holds it stands where a call holds it. -/
structure System.Excludes (s : System ι σ) : Prop where
  mutex : s.world.r.mutex ≠ none
  keeps : ∀ i, (s.stage i).Keeps
  holds : ∀ i, (s.stage i).Holds ↔ s.holder = some i

variable {s s' : System ι σ} {i : ι} {action : Action}

omit [DecidableEq ι] in
theorem System.Starts.excludes (hstarts : s.Starts) : s.Excludes where
  mutex := by simp [hstarts.mutex]
  keeps i := by rw [hstarts.stage i]; trivial
  holds i := by rw [hstarts.stage i, hstarts.holder]; simp [Stage.Holds]

/-- Only one call holds the mutex. -/
theorem System.Excludes.holds_step (hinv : s.Excludes) (hstep : s.Step calls i action s') (j : ι) :
    (s'.stage j).Holds ↔ s'.holder = some j := by
  obtain ⟨hacts, hfree⟩ := hstep
  have hholder := hinv.holds
  dsimp only
  rcases hacts.holds with ⟨rfl, hbefore, hafter⟩ | ⟨rfl, hbefore, hafter⟩ | ⟨hacquire, hrelease, hsame⟩
  · -- nobody held it
    have hnobody : s.holder = none := (hfree rfl).resolve_right hinv.mutex
    by_cases hij : j = i
    · subst hij
      simpa [Action.holder] using hafter
    · have hother := (hholder j).not.mpr (by simp [hnobody])
      rw [Function.update_of_ne hij]
      simp only [Action.holder, Option.some.injEq]
      exact iff_of_false hother fun h => hij h.symm
  · have hheld : s.holder = some i := (hholder i).mp hbefore
    by_cases hij : j = i
    · subst hij
      simpa [Action.holder] using hafter
    · have hother := (hholder j).not.mpr (by simp [hheld, Ne.symm hij])
      rw [Function.update_of_ne hij]
      exact iff_of_false hother (by simp [Action.holder])
  · have hkept : action.holder i s.holder = s.holder := by
      cases action <;> first | rfl | contradiction
    rw [hkept]
    by_cases hij : j = i
    · subst hij
      rw [Function.update_self, hsame]
      exact hholder j
    · rw [Function.update_of_ne hij]
      exact hholder j

theorem System.Excludes.step (hinv : s.Excludes) (hstep : s.Step calls i action s') :
    s'.Excludes where
  mutex := by
    obtain ⟨hacts, _⟩ := hstep
    exact (hacts.steady (hinv.keeps i)).mutex.not.mpr hinv.mutex
  keeps j := by
    obtain ⟨hacts, _⟩ := hstep
    dsimp only
    by_cases hij : j = i
    · subst hij
      rw [Function.update_self]
      exact hacts.keeps (hinv.keeps j)
    · rw [Function.update_of_ne hij]
      exact hinv.keeps j
  holds := hinv.holds_step hstep

end System

end Libpict
