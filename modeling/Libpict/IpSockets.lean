import Libpict.Base.Sequence
import Libpict.Operation

/-! # The sockets of a PTP/IP connection

The functions of the backend over TCP: connecting the two sockets, transfers and closing. The
network may answer in any way; its calls are recorded, and a watch over them says which
descriptors are open.
-/

namespace Libpict

open Bytes CInt Exec Transitions

variable {τ : Type}

/-! ## Calls about sockets -/

/-- A call about a descriptor. What `setsockopt` is told is left out, as its result is. -/
inductive SocketCall
  /-- `socket` has returned the descriptor. -/
  | opened (fd : Int)
  /-- `fcntl`, `connect` and `select`. -/
  | names (fd : Int)
  /-- `getsockopt` for the error of the socket, and whether it succeeded. -/
  | error (fd : Int) (ok : Bool)
  | close (fd : Int)
  /-- `read` or `write`. -/
  | transfer (fd : Int)

/-- Which descriptors are open sockets. -/
abbrev SocketTable := Int → Bool

/-- What a call makes of the sockets. -/
def SocketTable.move (table : SocketTable) : SocketCall → SocketTable
  | .opened fd => Function.update table fd true
  | .close fd => Function.update table fd false
  | _ => table

/-- Only open sockets are named. -/
def SocketTable.Allows (table : SocketTable) : SocketCall → Prop
  | .opened _ => True
  | .names fd | .error fd _ | .close fd | .transfer fd => table fd = true

/-- Only open sockets are used; others may be closed. -/
def SocketTable.Uses (table : SocketTable) : SocketCall → Prop
  | .names fd | .error fd _ | .transfer fd => table fd = true
  | _ => True

/-- The watch for calls that name a descriptor that is no open socket. -/
def socketWatch : Watch SocketTable SocketCall := ⟨SocketTable.move, SocketTable.Allows⟩

/-- The watch that lets any descriptor be closed. -/
def usesWatch : Watch SocketTable SocketCall := ⟨SocketTable.move, SocketTable.Uses⟩

theorem SocketTable.Allows.uses {table : SocketTable} {call : SocketCall}
    (hallows : table.Allows call) : table.Uses call := by
  cases call with
  | opened => trivial
  | close => trivial
  | _ => exact hallows

/-! ## The backend -/

/-- `struct PtpIpBackend`. -/
structure PtpIpBackend where
  fd : Int
  evfd : Int

/-- What the network answers, whose own state is in `τ`. A new socket is not one that is open,
and descriptor 0 is taken. -/
structure Network (τ : Type) where
  socket : (table : SocketTable) → τ → Option { fd : Int // 0 < fd ∧ table fd = false } × τ
  setNonblocking : Int → (enable : Bool) → τ → Bool × τ
  isAddress : List UInt8 → Bool
  /-- Whether the connection is made or in progress. -/
  connect : Int → List UInt8 → (port : Int) → τ → Bool × τ
  /-- Whether the socket is ready within a second. -/
  select : Int → τ → Bool × τ
  /-- The error of the socket, if `getsockopt` succeeds. -/
  sockError : Int → τ → Option Int × τ
  write : Int → List UInt8 → τ → Option Nat × τ
  read : Int → (size : Nat) → τ → Option { bytes : List UInt8 // bytes.length ≤ size } × τ

/-- What the runtime has of the network: `r->comm_backend` and what has been called. -/
structure IpHost (τ : Type) where
  backend : Option PtpIpBackend
  calls : List SocketCall
  net : τ

namespace IpHost

def table (host : IpHost τ) : SocketTable := socketWatch.after (fun _ => false) host.calls

/-- A call that only the network's own state decides about. -/
def called (host : IpHost τ) (call : SocketCall) (net : τ) : IpHost τ :=
  { host with calls := host.calls ++ [call], net := net }

@[simp] theorem called_calls (host : IpHost τ) (call : SocketCall) (net : τ) :
    (host.called call net).calls = host.calls ++ [call] := rfl

@[simp] theorem called_backend (host : IpHost τ) (call : SocketCall) (net : τ) :
    (host.called call net).backend = host.backend := rfl

@[simp] theorem called_table (host : IpHost τ) (call : SocketCall) (net : τ) :
    (host.called call net).table = host.table.move call := socketWatch.after_snoc _ _ _

end IpHost

namespace Network

variable (N : Network τ)

/-- Call the network. -/
def ask {α : Type} (f : IpHost τ → α × IpHost τ) : M (IpHost τ) α := fun w =>
  .ok (f w.device).1 { w with device := (f w.device).2 }

@[simp] theorem ask_run {α : Type} (f : IpHost τ → α × IpHost τ) (w : World (IpHost τ)) :
    ask f w = .ok (f w.device).1 { w with device := (f w.device).2 } := rfl

/-- `close`. -/
def close (fd : Int) : M (IpHost τ) Unit := ask fun host => ((), host.called (.close fd) host.net)

/-- `socket`. -/
def openSocket (host : IpHost τ) : Option Int × IpHost τ :=
  match N.socket host.table host.net with
  | (some fd, net) => (some fd.val, host.called (.opened fd.val) net)
  | (none, net) => (none, { host with net := net })

/-- `set_nonblocking_io`. -/
def setNonblockingIo (fd : Int) (enable : Bool) : M (IpHost τ) Bool := ask fun host =>
  ((N.setNonblocking fd enable host.net).1,
    host.called (.names fd) (N.setNonblocking fd enable host.net).2)

/-- `get_sock_error`, which closes the socket if it fails. -/
def getSockError (fd : Int) : M (IpHost τ) Int := do
  let error ← ask fun host =>
    ((N.sockError fd host.net).1,
      host.called (.error fd (N.sockError fd host.net).1.isSome) (N.sockError fd host.net).2)
  match error with
  | some error => pure error
  | none => do
      close fd
      pure (-1)

/-- Give up on a socket. -/
def giveUp (fd : Int) : M (IpHost τ) Int := do
  close fd
  pure (-1)

/-- `ptpip_new_timeout_socket`, without its calls of `setsockopt`: these come before the
descriptor is tested, and nothing depends on them. -/
def ptpipNewTimeoutSocket (addr : List UInt8) (port : Int) : M (IpHost τ) Int := do
  let socket ← ask N.openSocket
  match socket with
  | none => pure (-1)
  | some sockfd => do
      let ok ← N.setNonblockingIo sockfd true
      if ok = false then giveUp sockfd
      else if N.isAddress addr = false then giveUp sockfd
      else do
        let ok ← ask fun host =>
          ((N.connect sockfd addr port host.net).1,
            host.called (.names sockfd) (N.connect sockfd addr port host.net).2)
        if ok = false then giveUp sockfd
        else do
          let ready ← ask fun host =>
            ((N.select sockfd host.net).1, host.called (.names sockfd) (N.select sockfd host.net).2)
          if ready = false then giveUp sockfd
          else do
            let error ← N.getSockError sockfd
            if error ≠ 0 then giveUp sockfd
            else do
              let _ ← N.setNonblockingIo sockfd false
              pure sockfd

/-- `init_comm`. -/
def initComm : M (IpHost τ) PtpIpBackend := do
  let b ← ask fun host =>
    (host.backend.getD ⟨0, 0⟩, { host with backend := some (host.backend.getD ⟨0, 0⟩) })
  updateRuntime fun r => { r with maxPacketSize := 65535 }
  pure b

/-- Assign to the fields of the backend. -/
def setBackend (f : PtpIpBackend → PtpIpBackend) : M (IpHost τ) Unit :=
  ask fun host => ((), { host with backend := host.backend.map f })

/-- `ptpip_connect`. -/
def ptpipConnect (addr : List UInt8) (port : Int) : M (IpHost τ) Int := do
  let fd ← N.ptpipNewTimeoutSocket addr port
  let _ ← initComm
  if 0 < fd then do
    setBackend fun b => { b with fd := fd }
    updateRuntime fun r => { r with ioKillSwitch := false, operationKillSwitch := false }
    pure 0
  else do
    setBackend fun b => { b with fd := 0 }
    pure fd

/-- `ptpip_connect_events`. -/
def ptpipConnectEvents (addr : List UInt8) (port : Int) : M (IpHost τ) Int := do
  let fd ← N.ptpipNewTimeoutSocket addr port
  let _ ← initComm
  if 0 < fd then do
    setBackend fun b => { b with evfd := fd }
    pure 0
  else do
    setBackend fun b => { b with evfd := 0 }
    pure fd

/-- `ptpip_close`. -/
def ptpipClose : M (IpHost τ) Int := do
  let b ← initComm
  if b.fd ≠ 0 then close b.fd else pure ()
  if b.evfd ≠ 0 then close b.evfd else pure ()
  pure 0

/-- `ptpip_cmd_write` and `ptpip_event_send`, on the socket that `fd` tells. -/
def send (fd : PtpIpBackend → Int) (bytes : List UInt8) : M (IpHost τ) Int := do
  let r ← runtime
  if r.ioKillSwitch then pure (-1)
  else do
    let b ← initComm
    let sent ← ask fun host =>
      ((N.write (fd b) bytes host.net).1,
        host.called (.transfer (fd b)) (N.write (fd b) bytes host.net).2)
    match sent with
    | none => pure (-1)
    | some sent => pure sent

/-- `ptpip_cmd_read` and `ptpip_event_read`, to the start of `r->data`. -/
def receive (fd : PtpIpBackend → Int) (size : Nat) : M (IpHost τ) Int := do
  let r ← runtime
  if r.ioKillSwitch then pure (-1)
  else do
    let b ← initComm
    let got ← ask fun host =>
      ((N.read (fd b) size host.net).1,
        host.called (.transfer (fd b)) (N.read (fd b) size host.net).2)
    match got with
    | none => pure (-1)
    | some bytes => do
        storeData 0 bytes.val
        pure bytes.val.length

/-- `ptpip_cmd_write`. -/
def ptpipCmdWrite (bytes : List UInt8) : M (IpHost τ) Int := N.send PtpIpBackend.fd bytes

/-- `ptpip_cmd_read`. -/
def ptpipCmdRead (size : Nat) : M (IpHost τ) Int := N.receive PtpIpBackend.fd size

/-- `ptpip_event_send`. -/
def ptpipEventSend (bytes : List UInt8) : M (IpHost τ) Int := N.send PtpIpBackend.evfd bytes

/-- `ptpip_event_read`. -/
def ptpipEventRead (size : Nat) : M (IpHost τ) Int := N.receive PtpIpBackend.evfd size

/-- `ptpip_init_events`. -/
def ptpipInitEvents : M (IpHost τ) Int := do
  let sent ← N.ptpipEventSend (leBytes 4 12 ++ leBytes 4 3 ++ leBytes 4 1)
  if sent ≠ 12 then pure PtpGeneralError.ioErr
  else do
    let got ← N.ptpipEventRead 8
    if got ≠ 8 then pure PtpGeneralError.ioErr else pure 0

/-- `ptp_reset`. -/
def ptpReset : M (IpHost τ) Unit := do
  updateRuntime Libpict.ptpReset
  ask fun host => ((), { host with backend := none })

end Network

/-- A call of a function that concerns the sockets. -/
inductive IpRequest
  | reset
  | connect (addr : List UInt8) (port : Int)
  | connectEvents (addr : List UInt8) (port : Int)
  | close
  | cmdWrite (bytes : List UInt8)
  | cmdRead (size : Nat)
  | initEvents
  | eventSend (bytes : List UInt8)
  | eventRead (size : Nat)

/-- Make the call; functions without a result return 0. -/
def IpRequest.exec (N : Network τ) : IpRequest → M (IpHost τ) Int
  | reset => Network.ptpReset >>= fun _ => pure 0
  | connect addr port => N.ptpipConnect addr port
  | connectEvents addr port => N.ptpipConnectEvents addr port
  | close => Network.ptpipClose
  | cmdWrite bytes => N.ptpipCmdWrite bytes
  | cmdRead size => N.ptpipCmdRead size
  | initEvents => N.ptpipInitEvents
  | eventSend bytes => N.ptpipEventSend bytes
  | eventRead size => N.ptpipEventRead size

end Libpict
