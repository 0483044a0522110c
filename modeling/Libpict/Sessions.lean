import Libpict.Base.Frames
import Libpict.BufferBounds
import Libpict.Commands
import Libpict.Runs

/-! # What the device hears of a session

`ptp_open_session` numbers the sessions and restarts the numbers of the transactions. Over
every run, a device that cuts what it reads by the lengths in the containers, and drops a
transaction that it hears twice in a row, hears each operation once, in order, with the
number of the initiator: however often a command was tried, and however its bytes were cut
into writes.
-/

namespace Libpict

open Bytes CInt Exec PtpRuntime Transitions Frames

variable {σ : Type} {B : Backend σ} {fuel : Nat}

/-! ## Sessions -/

/-- A runtime with `r->session`. -/
structure Station (σ : Type) where
  session : Int
  world : World σ

/-- What does not touch the session. -/
def inStation {α : Type} (x : M σ α) : EStateM Halt (Station σ) α := fun s =>
  match x s.world with
  | .ok a w => .ok a { s with world := w }
  | .error e w => .error e { s with world := w }

/-- The command of `ptp_open_session`. -/
def openSessionCommand (session : Int) : PtpCommand := .one 0x1002 (paramOf session)

/-- `ptp_open_session`. -/
def ptpOpenSession (B : Backend σ) (fuel : Nat) : EStateM Halt (Station σ) Int := do
  let s ← get
  let session ← inStation (intAdd s.session 1)
  modify fun s => { s with session := session }
  inStation (updateRuntime fun r => { r with transaction := 0 })
  inStation (ptpSend B fuel (openSessionCommand session))

/-- A call that ends in an operation. Sessions are closed by one like any other. -/
inductive SessionCall
  | openSession
  | operation (op : Operation)

namespace SessionCall

def exec (B : Backend σ) (fuel : Nat) : SessionCall → EStateM Halt (Station σ) Int
  | openSession => ptpOpenSession B fuel
  | operation op => inStation (op.exec B fuel)

/-- The session behind the call. -/
def session (current : Int) : SessionCall → Int
  | openSession => current + 1
  | operation _ => current

/-- The number of the transaction, where `next` is up. -/
def number (next : UInt32) : SessionCall → UInt32
  | openSession => 0
  | operation _ => next

/-- The operation that is run. -/
def sent (current : Int) : SessionCall → Operation
  | openSession => .send (openSessionCommand (current + 1))
  | operation op => op

/-- The packets of the call. -/
def packets (current : Int) (next : UInt32) (call : SessionCall) : List (List UInt8) :=
  (call.sent current).packets (call.number next)

/-- Sessions are opened by `ptp_open_session` only. -/
def Plain : SessionCall → Prop
  | openSession => True
  | operation (.send cmd) | operation (.sendData cmd _) => cmd.code ≠ 0x1002

instance (call : SessionCall) : Decidable call.Plain :=
  match call with
  | openSession => inferInstanceAs (Decidable True)
  | operation (.send cmd) | operation (.sendData cmd _) =>
      inferInstanceAs (Decidable (cmd.code ≠ 0x1002))

end SessionCall

/-- The transactions of some calls, each with its packets. -/
def transmitted : Int → UInt32 → List SessionCall → List (List (List UInt8))
  | _, _, [] => []
  | current, next, call :: calls => call.packets current next ::
      transmitted (call.session current) (call.number next + 1) calls

/-! ## The device -/

/-- The length field of a container, once it has come. -/
def containerSize (bytes : List UInt8) : Option Nat :=
  if bytes.length < 4 then none else some (field 4 0 bytes)

/-- A command container starts a transaction. -/
def isCommand (container : List UInt8) : Bool := field 2 4 container = ptpPacketTypeCommand

/-- What a device makes of the bytes that it reads: containers, transactions, and of a
transaction that comes twice in a row only one. -/
def heard (bytes : List UInt8) : List (List (List UInt8)) :=
  (groups isCommand (cut containerSize bytes).1).destutter (· ≠ ·)

/-! ## Packets as frames -/

theorem Container.isFrame (type : Nat) (c : Container) (hlength : 12 + c.body.length < 4294967296) :
    IsFrame containerSize (c.bytes type) where
  ne_nil := by
    apply List.ne_nil_of_length_pos
    rw [Container.bytes_length]
    omega
  size rest := by
    have hlong : ¬(c.bytes type ++ rest).length < 4 := by
      rw [List.length_append, Container.bytes_length]
      omega
    rw [containerSize, if_neg hlong, Container.bytes_length, Container.field_length c rest hlength]

theorem isCommand_bytes {type : Nat} (c : Container) (htype : type < 65536) :
    isCommand (c.bytes type) = decide (type = ptpPacketTypeCommand) := by
  have hfield := Container.field_type c [] htype
  rw [List.append_nil] at hfield
  rw [isCommand, hfield]

theorem Operation.packets_isFrame (op : Operation) (n : UInt32)
    (hsize : op.size < 4294967284) : ∀ packet ∈ op.packets n, IsFrame containerSize packet := by
  have hcommand : ∀ cmd : PtpCommand, IsFrame containerSize (commandContainer cmd n) := by
    intro cmd
    apply Container.isFrame
    rw [paramBytes_length, cmd.paramList_length]
    have hle := cmd.paramLength_le
    omega
  cases op with
  | send cmd => simpa [Operation.packets] using hcommand cmd
  | sendData cmd data =>
      have hdata : IsFrame containerSize (dataContainer cmd n data) := by
        apply Container.isFrame
        exact Nat.add_lt_of_lt_sub' hsize
      simpa [Operation.packets] using ⟨hcommand cmd, hdata⟩

theorem Operation.packets_isGroup (op : Operation) (n : UInt32) :
    IsGroup isCommand (op.packets n) := by
  have hcommand : ∀ cmd : PtpCommand, isCommand (commandContainer cmd n) = true := fun cmd =>
    isCommand_bytes _ (by decide)
  cases op with
  | send cmd => exact ⟨hcommand cmd, by simp⟩
  | sendData cmd data =>
      refine ⟨hcommand cmd, fun next hnext => ?_⟩
      rw [List.mem_singleton.mp hnext]
      exact isCommand_bytes _ (by decide)

/-! ## Neighbours -/

theorem Container.bytes_inj {type : Nat} {c c' : Container} (h : c.bytes type = c'.bytes type) :
    c.code = c'.code ∧ c.transaction = c'.transaction ∧ c.body = c'.body := by
  have hcode : field 2 6 (c.bytes type ++ []) = field 2 6 (c'.bytes type ++ []) := by rw [h]
  have htransaction : field 4 8 (c.bytes type ++ []) = field 4 8 (c'.bytes type ++ []) := by rw [h]
  rw [Container.field_code, Container.field_code] at hcode
  rw [Container.field_transaction, Container.field_transaction] at htransaction
  refine ⟨UInt16.toNat_inj.mp hcode, UInt32.toNat_inj.mp htransaction, ?_⟩
  have hbehind := (List.append_inj h (by simp)).2
  have hbehind := (List.append_inj hbehind (by simp)).2
  have hbehind := (List.append_inj hbehind (by simp)).2
  exact (List.append_inj hbehind (by simp)).2

/-- The command of an operation. -/
def Operation.command : Operation → PtpCommand
  | .send cmd | .sendData cmd _ => cmd

theorem Operation.packets_head (op : Operation) (n : UInt32) :
    (op.packets n).head? = some (commandContainer op.command n) := by
  cases op with
  | send => rfl
  | sendData => rfl

theorem Operation.command_of_packets {op op' : Operation} {n n' : UInt32}
    (h : op.packets n = op'.packets n') : op.command.code = op'.command.code ∧ n = n' ∧
      paramBytes op.command.paramList = paramBytes op'.command.paramList := by
  have hhead := congrArg List.head? h
  rw [packets_head, packets_head] at hhead
  exact Container.bytes_inj (Option.some.inj hhead)

theorem paramBytes_openSession (session : Int) :
    paramBytes (openSessionCommand session).paramList = leBytes 4 (paramOf session).toNat := rfl

theorem paramOf_succ_ne (value : Int) : (paramOf value).toNat ≠ (paramOf (value + 1)).toNat := by
  unfold paramOf toUInt32
  rw [UInt32.toNat_ofNat', UInt32.toNat_ofNat']
  omega

/-- No call sends the packets of the one before it. -/
theorem SessionCall.packets_ne {call : SessionCall} (hplain : call.Plain) (call' : SessionCall)
    (current : Int) (next : UInt32) : call.packets current next ≠
      call'.packets (call.session current) (call.number next + 1) := by
  intro h
  obtain ⟨hcode, hnumber, hparams⟩ := Operation.command_of_packets h
  cases call' with
  | operation op' =>
      exact absurd (left_eq_add.mp hnumber) (by decide)
  | openSession =>
      cases call with
      | openSession =>
          have hvalue := congrArg leValue hparams
          simp only [SessionCall.sent, SessionCall.session, Operation.command] at hvalue
          rw [paramBytes_openSession, paramBytes_openSession,
            leValue_leBytes_of_lt (UInt32.toNat_lt _), leValue_leBytes_of_lt (UInt32.toNat_lt _)] at hvalue
          exact paramOf_succ_ne _ hvalue
      | operation op =>
          cases op with
          | send cmd => exact hplain hcode
          | sendData cmd data => exact hplain hcode

theorem transmitted_isChain {calls : List SessionCall} (hplain : ∀ call ∈ calls, call.Plain)
    (current : Int) (next : UInt32) : (transmitted current next calls).IsChain (· ≠ ·) := by
  induction calls generalizing current next with
  | nil => exact .nil
  | cons call calls ih =>
      obtain ⟨hfirst, hrest⟩ := List.forall_mem_cons.mp hplain
      rw [transmitted, List.isChain_cons]
      refine ⟨fun behind hbehind => ?_, ih hrest _ _⟩
      cases calls with
      | nil => cases hbehind
      | cons call' calls =>
          obtain rfl := Option.some.inj hbehind
          exact SessionCall.packets_ne hfirst call' current next

/-! ## Runs -/

/-- Attempts that have come through have sent everything, once or twice. -/
theorem Attempts.bytes {op : Operation} {w w' : World σ}
    (hattempts : Attempts (op.attempt B fuel) w 0 w') (hcounts : B.Counts)
    (hallocated : Allocated w.r) (hpacket : w.r.maxPacketSize ≤ intMax) :
    ∃ calls, w'.log = w.log ++ calls ∧
      (writtenBytes calls = (op.packets w.r.transactionId).flatten ∨
        writtenBytes calls = (op.packets w.r.transactionId).flatten ++
          (op.packets w.r.transactionId).flatten) := by
  cases hattempts with
  | first hrun _ =>
      obtain ⟨calls, hlog, hcalls⟩ := op.attempt_pieces hallocated hpacket hrun
      refine ⟨calls, hlog, .inl ?_⟩
      rcases hcalls.all hcounts with hall | ⟨hfailed, _⟩
      · exact hall
      · cases hfailed
  | @second u _ hfirst hsecond =>
      obtain ⟨first, hlog, hcalls⟩ := op.attempt_pieces hallocated hpacket hfirst
      obtain ⟨hsetup, hkeeps⟩ := op.attempt_keeps hfirst
      obtain ⟨second, hlog', hcalls'⟩ := op.attempt_pieces (hkeeps hallocated)
        (hsetup.packet.le hpacket (by decide)) hsecond
      have htransaction : u.r.transactionId = w.r.transactionId := by
        rw [hsetup.runtime]
        rfl
      rw [htransaction] at hcalls'
      refine ⟨first ++ second, by rw [hlog', hlog, List.append_assoc], .inr ?_⟩
      rcases hcalls.all hcounts with hall | ⟨hfailed, _⟩
      · rcases hcalls'.all hcounts with hall' | ⟨hfailed, _⟩
        · rw [writtenBytes_append, hall, hall']
        · cases hfailed
      · cases hfailed

theorem Operation.prepare_size (op : Operation) {w w' : World σ}
    (hrun : op.prepare B w = .ok () w') : op.size < 4294967284 := by
  cases op with
  | send => exact Nat.zero_lt_succ _
  | sendData cmd data =>
      obtain ⟨_, _, _, hrest⟩ := bind_eq_ok.mp hrun
      obtain ⟨_, _, _, hrest⟩ := bind_eq_ok.mp hrest
      obtain ⟨_, _, hneed, _⟩ := bind_eq_ok.mp hrest
      obtain ⟨_, ⟨_, hfits⟩, _⟩ := intAdd_eq_ok hneed
      change data.length < 4294967284
      omega

/-- What an operation that leaves the switch clear has written: its packets, once or twice. -/
theorem Operation.completed_bytes (op : Operation) {w w' : World σ} (hprovided : Provided w)
    (hcounts : B.Counts) {rc : Int} (hrun : op.exec B fuel w = .ok rc w')
    (hclear : w'.r.operationKillSwitch = false) :
    w.r.operationKillSwitch = false ∧ w'.r.transactionId = w.r.transactionId + 1 ∧
      op.size < 4294967284 ∧ ∃ calls, w'.log = w.log ++ calls ∧
        (writtenBytes calls = (op.packets w.r.transactionId).flatten ∨
          writtenBytes calls = (op.packets w.r.transactionId).flatten ++
            (op.packets w.r.transactionId).flatten) := by
  have hkill : w.r.operationKillSwitch = false := by
    rw [← Bool.not_eq_true]
    intro hset
    rw [op.exec_refused hset] at hrun
    obtain ⟨_, rfl⟩ := EStateM.Result.ok.inj hrun
    rw [hset] at hclear
    cases hclear
  refine ⟨hkill, ?_⟩
  cases op.outcome hrun with
  | refused hset => cases hkill.symm.trans hset
  | failed _ _ _ _ _ hworld =>
      rw [hworld] at hclear
      cases hclear
  | @completed w₀ v code _ hprepare hattempts _ _ hworld =>
      obtain ⟨hsetup, hkeeps⟩ := op.prepare_keeps hprepare
      have htransaction : w₀.r.transactionId = w.r.transactionId := by
        rw [hsetup.runtime]
        rfl
      have hpacket : w₀.r.maxPacketSize ≤ intMax := hsetup.packet.le hprovided.2 (by decide)
      obtain ⟨calls, hlog, hbytes⟩ := hattempts.bytes hcounts (hkeeps hprovided.1) hpacket
      rw [htransaction] at hbytes
      refine ⟨?_, op.prepare_size hprepare, calls, ?_, hbytes⟩
      · rw [hworld]
        have hattempted : v.r.transactionId = w₀.r.transactionId := by
          rw [hattempts.keeps.1.runtime]
          rfl
        exact (v.r.transactionId_succ).trans (by rw [hattempted, htransaction])
      · rw [hworld]
        change v.log = _
        rw [hlog, (op.prepare_silent.of_ok hprepare).1]
        rfl

theorem inStation_eq_ok {α : Type} {x : M σ α} {s t : Station σ} {a : α} :
    inStation x s = .ok a t ↔ x s.world = .ok a t.world ∧ t.session = s.session := by
  unfold inStation
  cases x s.world with
  | ok b w =>
      constructor
      · intro h
        obtain ⟨rfl, rfl⟩ := EStateM.Result.ok.inj h
        exact ⟨rfl, rfl⟩
      · rintro ⟨h, hsession⟩
        obtain ⟨rfl, rfl⟩ := EStateM.Result.ok.inj h
        rw [← hsession]
  | error e w => simp

/-- A call runs its operation, with its number. -/
theorem SessionCall.exec_sent (call : SessionCall) {s t : Station σ} {rc : Int}
    (hrun : call.exec B fuel s = .ok rc t) : ∃ w : World σ,
      w = { s.world with r := { s.world.r with transaction := w.r.transaction } } ∧
      w.r.transactionId = call.number s.world.r.transactionId ∧ w.log = s.world.log ∧
      (call.sent s.session).exec B fuel w = .ok rc t.world ∧
      t.session = call.session s.session := by
  cases call with
  | openSession =>
      refine ⟨{ s.world with r := { s.world.r with transaction := 0 } }, rfl, rfl, rfl, ?_⟩
      obtain ⟨_, _, hget, hrest⟩ := bind_eq_ok.mp hrun
      obtain ⟨rfl, rfl⟩ := EStateM.Result.ok.inj hget
      obtain ⟨session, u, hadd, hrest⟩ := bind_eq_ok.mp hrest
      obtain ⟨hadd, hsame⟩ := inStation_eq_ok.mp hadd
      obtain ⟨rfl, _, hworld⟩ := intAdd_eq_ok hadd
      obtain ⟨_, v, hmodify, hrest⟩ := bind_eq_ok.mp hrest
      obtain ⟨_, rfl⟩ := EStateM.Result.ok.inj hmodify
      obtain ⟨_, x, hupdate, hsend⟩ := bind_eq_ok.mp hrest
      obtain ⟨hupdate, hsession⟩ := inStation_eq_ok.mp hupdate
      obtain ⟨_, hx⟩ := EStateM.Result.ok.inj hupdate
      obtain ⟨hsend, hsession'⟩ := inStation_eq_ok.mp hsend
      refine ⟨?_, hsession'.trans hsession⟩
      rw [← hx] at hsend
      dsimp only at hsend
      rw [hworld] at hsend
      exact hsend
  | operation op => exact ⟨s.world, rfl, rfl, rfl, inStation_eq_ok.mp hrun⟩

/-- A switch that is set stays set. -/
theorem SessionCall.killed {call : SessionCall} {s t : Station σ} {rc : Int}
    (hkill : s.world.r.operationKillSwitch = true) (hrun : call.exec B fuel s = .ok rc t) :
    t.world.r.operationKillSwitch = true := by
  obtain ⟨u, hworld, -, -, hexec, -⟩ := call.exec_sent hrun
  rw [(call.sent s.session).exec_refused (by rw [hworld]; exact hkill)] at hexec
  obtain ⟨_, hend⟩ := EStateM.Result.ok.inj hexec
  rw [← hend, hworld]
  exact hkill

theorem SessionCall.completed {call : SessionCall} {s t : Station σ} {rc : Int}
    (hprovided : Provided s.world) (hcounts : B.Counts) (hrun : call.exec B fuel s = .ok rc t)
    (hclear : t.world.r.operationKillSwitch = false) :
    Provided t.world ∧ t.session = call.session s.session ∧
      t.world.r.transactionId = call.number s.world.r.transactionId + 1 ∧
      (call.sent s.session).size < 4294967284 ∧
      ∃ calls, t.world.log = s.world.log ++ calls ∧
        (writtenBytes calls = (call.packets s.session s.world.r.transactionId).flatten ∨
          writtenBytes calls = (call.packets s.session s.world.r.transactionId).flatten ++
            (call.packets s.session s.world.r.transactionId).flatten) := by
  obtain ⟨w, hworld, hnumber, hsame, hexec, hsession⟩ := call.exec_sent hrun
  have hready : Provided w := by
    rw [hworld]
    exact hprovided
  obtain ⟨_, htransaction, hsize, calls, hlog, hbytes⟩ :=
    (call.sent s.session).completed_bytes hready hcounts hexec hclear
  rw [hnumber] at htransaction hbytes
  rw [hsame] at hlog
  exact ⟨hready.exec hexec, hsession, htransaction, hsize, calls, hlog, hbytes⟩

/-- What a run has sent: the transactions of its calls, each once or twice. -/
theorem transmitted_of_run (hcounts : B.Counts) {s t : Station σ} {events : List (SessionCall × Int)}
    (hrun : Runs (Yield (SessionCall.exec B fuel)) s events t) (hprovided : Provided s.world)
    (hclear : t.world.r.operationKillSwitch = false) :
    ∃ calls told, t.world.log = s.world.log ++ calls ∧
      Repeated (transmitted s.session s.world.r.transactionId (events.map Prod.fst)) told ∧
      writtenBytes calls = told.flatten.flatten ∧
      ∀ group ∈ transmitted s.session s.world.r.transactionId (events.map Prod.fst),
        IsGroup isCommand group ∧ ∀ packet ∈ group, IsFrame containerSize packet := by
  induction hrun with
  | nil s => exact ⟨[], [], (List.append_nil _).symm, .nil, rfl, by simp [transmitted]⟩
  | @cons s middle t event events hstep hrest ih =>
      obtain ⟨call, rc⟩ := event
      have hmiddle : middle.world.r.operationKillSwitch = false := by
        rw [← Bool.not_eq_true]
        intro hset
        have hend := hrest.invariant (fun u => u.world.r.operationKillSwitch = true)
          (fun _ _ _ h hrun => SessionCall.killed h hrun) hset
        rw [hclear] at hend
        cases hend
      obtain ⟨hprovided', hsession, hnumber, hsize, calls, hlog, hbytes⟩ :=
        SessionCall.completed hprovided hcounts hstep hmiddle
      obtain ⟨calls', told, hlog', hrepeated, hbytes', hall⟩ := ih hprovided' hclear
      rw [hsession, hnumber] at hrepeated hall
      have hfirst : IsGroup isCommand (call.packets s.session s.world.r.transactionId) ∧
          ∀ packet ∈ call.packets s.session s.world.r.transactionId, IsFrame containerSize packet :=
        ⟨Operation.packets_isGroup _ _, Operation.packets_isFrame _ _ hsize⟩
      have hboth : ∀ group ∈ transmitted s.session s.world.r.transactionId (call :: events.map Prod.fst),
          IsGroup isCommand group ∧ ∀ packet ∈ group, IsFrame containerSize packet := by
        intro group hgroup
        rcases List.mem_cons.mp hgroup with rfl | hgroup
        · exact hfirst
        · exact hall group hgroup
      have hlogs : t.world.log = s.world.log ++ (calls ++ calls') := by
        rw [hlog', hlog, List.append_assoc]
      rcases hbytes with hbytes | hbytes
      · refine ⟨calls ++ calls', _ :: told, hlogs, .once hrepeated, ?_, hboth⟩
        rw [writtenBytes_append, hbytes, hbytes', List.flatten_cons, List.flatten_append]
      · refine ⟨calls ++ calls', _ :: _ :: told, hlogs, .twice hrepeated, ?_, hboth⟩
        rw [writtenBytes_append, hbytes, hbytes', List.flatten_cons, List.flatten_cons,
          List.flatten_append, List.flatten_append, List.append_assoc]

/-- What a run leaves on the wire, and whether it has set the switch: completed calls are there
once or twice, one that fails has a beginning of its packets there, and those behind it have
nothing. -/
inductive Wire : Int → UInt32 → List SessionCall → List UInt8 → Bool → Prop
  | nil {current : Int} {next : UInt32} : Wire current next [] [] false
  | once {current : Int} {next : UInt32} {call : SessionCall} {calls : List SessionCall}
      {bytes : List UInt8} {killed : Bool} :
      Wire (call.session current) (call.number next + 1) calls bytes killed →
      Wire current next (call :: calls) ((call.packets current next).flatten ++ bytes) killed
  | twice {current : Int} {next : UInt32} {call : SessionCall} {calls : List SessionCall}
      {bytes : List UInt8} {killed : Bool} :
      Wire (call.session current) (call.number next + 1) calls bytes killed →
      Wire current next (call :: calls) ((call.packets current next).flatten ++
        ((call.packets current next).flatten ++ bytes)) killed
  | failed {current : Int} {next : UInt32} {call : SessionCall} {bytes : List UInt8}
      (calls : List SessionCall) :
      bytes <+: (call.packets current next).flatten ++ (call.packets current next).flatten →
      Wire current next (call :: calls) bytes true

/-- However attempts end, they have sent a beginning of the packets, twice. -/
theorem Attempts.beginning {op : Operation} {w w' : World σ} {rc : Int}
    (hattempts : Attempts (op.attempt B fuel) w rc w') (hcounts : B.Counts)
    (hallocated : Allocated w.r) (hpacket : w.r.maxPacketSize ≤ intMax) :
    ∃ calls, w'.log = w.log ++ calls ∧ writtenBytes calls <+:
      (op.packets w.r.transactionId).flatten ++ (op.packets w.r.transactionId).flatten := by
  cases hattempts with
  | first hrun _ =>
      obtain ⟨calls, hlog, hcalls⟩ := op.attempt_pieces hallocated hpacket hrun
      exact ⟨calls, hlog, (hcalls.beginning hcounts).trans (List.prefix_append _ _)⟩
  | @second u _ hfirst hsecond =>
      obtain ⟨first, hlog, hcalls⟩ := op.attempt_pieces hallocated hpacket hfirst
      obtain ⟨hsetup, hkeeps⟩ := op.attempt_keeps hfirst
      obtain ⟨second, hlog', hcalls'⟩ := op.attempt_pieces (hkeeps hallocated)
        (hsetup.packet.le hpacket (by decide)) hsecond
      have htransaction : u.r.transactionId = w.r.transactionId := by
        rw [hsetup.runtime]
        rfl
      rw [htransaction] at hcalls'
      refine ⟨first ++ second, by rw [hlog', hlog, List.append_assoc], ?_⟩
      rw [writtenBytes_append]
      rcases hcalls.all hcounts with hall | ⟨hfailed, _⟩
      · rw [hall, List.prefix_append_right_inj]
        exact hcalls'.beginning hcounts
      · cases hfailed

/-- What an operation that was not refused has written, whatever came of it. -/
theorem Operation.begun_bytes (op : Operation) {w w' : World σ} (hprovided : Provided w)
    (hcounts : B.Counts) (hkill : w.r.operationKillSwitch = false) {rc : Int}
    (hrun : op.exec B fuel w = .ok rc w') :
    ∃ calls, w'.log = w.log ++ calls ∧ writtenBytes calls <+:
      (op.packets w.r.transactionId).flatten ++ (op.packets w.r.transactionId).flatten := by
  obtain ⟨w₀, v, rc', hran⟩ := op.ran hprovided.1 hkill hrun
  have htransaction : w₀.r.transactionId = w.r.transactionId := by
    rw [hran.setup.runtime]
    rfl
  have hpacket : w₀.r.maxPacketSize ≤ intMax := hran.setup.packet.le hprovided.2 (by decide)
  obtain ⟨calls, hlog, hbytes⟩ := hran.attempts.beginning hcounts hran.allocated hpacket
  have hend : w'.log = v.log := by
    rcases hran.result with ⟨_, _, rfl⟩ | ⟨_, rfl, _⟩
    · rfl
    · rfl
  rw [htransaction] at hbytes
  exact ⟨calls, by rw [hend, hlog, hran.log], hbytes⟩

/-- A refused call writes nothing. -/
theorem refused_silent {s t : Station σ} {events : List (SessionCall × Int)}
    (hrun : Runs (Yield (SessionCall.exec B fuel)) s events t)
    (hkill : s.world.r.operationKillSwitch = true) :
    t.world.log = s.world.log ∧ t.world.r.operationKillSwitch = true := by
  refine hrun.invariant (fun u => u.world.log = s.world.log ∧
    u.world.r.operationKillSwitch = true) ?_ ⟨rfl, hkill⟩
  rintro u ⟨call, rc⟩ v ⟨hlog, hset⟩ hstep
  obtain ⟨w, hworld, -, hsame, hexec, -⟩ := call.exec_sent hstep
  rw [(call.sent u.session).exec_refused (by rw [hworld]; exact hset)] at hexec
  obtain ⟨_, hend⟩ := EStateM.Result.ok.inj hexec
  exact ⟨by rw [← hend, hsame, hlog], SessionCall.killed hset hstep⟩

/-- Over every run, whatever fails, the bytes on the wire are those of the completed calls, in
order and numbered, and a beginning of the call that fails. -/
theorem wire_of_run (hcounts : B.Counts) {s t : Station σ} {events : List (SessionCall × Int)}
    (hrun : Runs (Yield (SessionCall.exec B fuel)) s events t) (hprovided : Provided s.world)
    (hlive : s.world.r.operationKillSwitch = false) :
    ∃ calls, t.world.log = s.world.log ++ calls ∧
      Wire s.session s.world.r.transactionId (events.map Prod.fst) (writtenBytes calls)
        t.world.r.operationKillSwitch := by
  induction hrun with
  | nil s =>
      refine ⟨[], (List.append_nil _).symm, ?_⟩
      rw [hlive]
      exact .nil
  | @cons s middle t event events hstep hrest ih =>
      obtain ⟨call, rc⟩ := event
      cases hmiddle : middle.world.r.operationKillSwitch with
      | false =>
          obtain ⟨hprovided', hsession, hnumber, -, calls, hlog, hbytes⟩ :=
            SessionCall.completed hprovided hcounts hstep hmiddle
          obtain ⟨calls', hlog', hwire⟩ := ih hprovided' hmiddle
          rw [hsession, hnumber] at hwire
          refine ⟨calls ++ calls', by rw [hlog', hlog, List.append_assoc], ?_⟩
          rw [writtenBytes_append]
          rcases hbytes with hbytes | hbytes
          · rw [hbytes]
            exact .once hwire
          · rw [hbytes, List.append_assoc]
            exact .twice hwire
      | true =>
          obtain ⟨hsilent, hset⟩ := refused_silent hrest hmiddle
          obtain ⟨w, hworld, hnumber, hsame, hexec, -⟩ := call.exec_sent hstep
          have hready : Provided w := by
            rw [hworld]
            exact hprovided
          obtain ⟨calls, hlog, hbytes⟩ := (call.sent s.session).begun_bytes hready hcounts
            (by rw [hworld]; exact hlive) hexec
          rw [hnumber] at hbytes
          refine ⟨calls, by rw [hsilent, hlog, hsame], ?_⟩
          rw [hset]
          exact .failed _ hbytes

/-- What is told once or twice is heard once. -/
theorem heard_repeated {sent told : List (List (List UInt8))} (hrepeated : Repeated sent told)
    (hall : ∀ group ∈ sent, IsGroup isCommand group ∧ ∀ packet ∈ group, IsFrame containerSize packet)
    (hchain : sent.IsChain (· ≠ ·)) : heard told.flatten.flatten = sent :=
  destutter_groups_cut rfl hrepeated (fun group hgroup => (hall group hgroup).2)
    (fun group hgroup => (hall group hgroup).1) hchain

theorem plain_of_events {events : List (SessionCall × Int)}
    (hplain : ∀ event ∈ events, event.1.Plain) : ∀ call ∈ events.map Prod.fst, call.Plain := by
  intro call hcall
  obtain ⟨event, hevent, rfl⟩ := List.mem_map.mp hcall
  exact hplain event hevent

/-- Over every run that leaves the switch clear, the device hears the operations of the
initiator: each of them once, in order, with the number that it was given, whatever was
tried twice and wherever the backend has cut the bytes. -/
theorem device_hears_once (hcounts : B.Counts) {s t : Station σ} {events : List (SessionCall × Int)}
    (hrun : Runs (Yield (SessionCall.exec B fuel)) s events t) (hprovided : Provided s.world)
    (hclear : t.world.r.operationKillSwitch = false) (hplain : ∀ event ∈ events, event.1.Plain) :
    ∃ calls, t.world.log = s.world.log ++ calls ∧
      heard (writtenBytes calls) =
        transmitted s.session s.world.r.transactionId (events.map Prod.fst) := by
  obtain ⟨calls, told, hlog, hrepeated, hbytes, hall⟩ := transmitted_of_run hcounts hrun hprovided hclear
  refine ⟨calls, hlog, ?_⟩
  rw [hbytes]
  exact heard_repeated hrepeated hall (transmitted_isChain (plain_of_events hplain) _ _)

theorem openSession_run {s : Station σ} {rc : Int} {w : World σ} (hfits : Fits (s.session + 1))
    (hsend : ptpSend B fuel (openSessionCommand (s.session + 1))
      { s.world with r := { s.world.r with transaction := 0 } } = .ok rc w) :
    SessionCall.openSession.exec B fuel s = .ok rc ⟨s.session + 1, w⟩ := by
  have hadd : inStation (intAdd s.session 1) s = .ok (s.session + 1) s :=
    inStation_eq_ok.mpr ⟨intAdd_ok hfits s.world, rfl⟩
  have hget : (get : EStateM Halt (Station σ) (Station σ)) s = .ok s s := rfl
  refine (bind_ok hget).trans ((bind_ok hadd).trans ?_)
  exact inStation_eq_ok.mpr ⟨hsend, rfl⟩

theorem scripted_counts : scripted.Counts := fun _ _ _ _ hcount => (Option.some.inj hcount).ge

theorem scriptedWorld_provided (script : List (Option (List UInt8))) :
    Provided (scriptedWorld 512 script) :=
  ⟨(scriptedWorld_ready 512 script).allocated, (by decide : (512 : Int) ≤ intMax)⟩

/-- A session is opened, and then the command for the handles is ignored at first. -/
theorem device_hears_once_retried : ∃ t : Station (List (Option (List UInt8))),
    Runs (Yield (SessionCall.exec scripted 64)) ⟨0, scriptedWorld 512
      [some okResponse, none, some [], some okResponse]⟩
      [(.openSession, 0), (.operation (.send getHandles), 0)] t ∧
    ∃ calls, t.world.log = [] ++ calls ∧ heard (writtenBytes calls) =
      transmitted 0 0 [.openSession, .operation (.send getHandles)] := by
  have hstart := run_of_returnsOn (ptpSend scripted 64 (openSessionCommand (0 + 1)))
    (scriptedWorld 512 [some okResponse, none, some [], some okResponse])
    (fun rc v => decide (rc = 0) &&
      returnsOn ((Operation.send getHandles).exec scripted 64) v fun rc w =>
        decide (rc = 0 ∧ w.r.operationKillSwitch = false)) (by decide +kernel)
  obtain ⟨rc, v, hopen, hhow⟩ := hstart
  obtain ⟨hopened, hhow⟩ := Bool.and_eq_true_iff.mp hhow
  obtain rfl := of_decide_eq_true hopened
  obtain ⟨rc, w, hexec, hhow⟩ := run_of_returnsOn _ _ _ hhow
  obtain ⟨rfl, hclear⟩ := of_decide_eq_true hhow
  have hrun : Runs (Yield (SessionCall.exec scripted 64)) ⟨0, scriptedWorld 512
      [some okResponse, none, some [], some okResponse]⟩
      [(.openSession, 0), (.operation (.send getHandles), 0)] ⟨1, w⟩ :=
    .cons (openSession_run (by decide) hopen) (.single (inStation_eq_ok.mpr ⟨hexec, rfl⟩))
  refine ⟨_, hrun, device_hears_once scripted_counts hrun
    (scriptedWorld_provided _) hclear fun event hevent => ?_⟩
  rcases List.mem_pair.mp hevent with rfl | rfl
  · trivial
  · exact (by decide : getHandles.code ≠ 0x1002)

/-- The device answers one command and then falls silent: the second call fails, and nothing
of the third is sent. -/
theorem wire_of_run_silent : ∃ t : Station (List (Option (List UInt8))),
    Runs (Yield (SessionCall.exec scripted 64)) ⟨0, scriptedWorld 512 [some okResponse]⟩
      [(.operation (.send getHandles), 0), (.operation (.send getHandles), PtpGeneralError.ioErr),
        (.operation (.send getHandles), PtpGeneralError.ioErr)] t ∧
    ∃ calls, t.world.log = [] ++ calls ∧
      Wire 0 0 (.replicate 3 (.operation (.send getHandles))) (writtenBytes calls)
        t.world.r.operationKillSwitch := by
  obtain ⟨rc, u, hfirst, hhow⟩ := run_of_returnsOn ((Operation.send getHandles).exec scripted 64)
    (scriptedWorld 512 [some okResponse]) (fun rc u => decide (rc = 0) &&
      returnsOn ((Operation.send getHandles).exec scripted 64) u fun rc v =>
        decide (rc = PtpGeneralError.ioErr ∧ v.r.operationKillSwitch = true)) (by decide +kernel)
  obtain ⟨hdone, hhow⟩ := Bool.and_eq_true_iff.mp hhow
  obtain rfl := of_decide_eq_true hdone
  obtain ⟨rc, v, hsecond, hhow⟩ := run_of_returnsOn _ _ _ hhow
  obtain ⟨rfl, hset⟩ := of_decide_eq_true hhow
  have hthird : (Operation.send getHandles).exec scripted 64 v = .ok PtpGeneralError.ioErr v :=
    Operation.exec_refused _ hset
  have hstep : ∀ {rc : Int} {w w' : World (List (Option (List UInt8)))},
      (Operation.send getHandles).exec scripted 64 w = .ok rc w' →
      Yield (SessionCall.exec scripted 64) ⟨0, w⟩ (.operation (.send getHandles), rc) ⟨0, w'⟩ :=
    fun h => inStation_eq_ok.mpr ⟨h, rfl⟩
  have hrun := Runs.cons (hstep hfirst) (.cons (hstep hsecond) (.single (hstep hthird)))
  exact ⟨_, hrun, wire_of_run scripted_counts hrun (scriptedWorld_provided _) rfl⟩

end Libpict
