import Libpict.EvprocDecode
import Libpict.EvprocRoundTrip
import Libpict.ObjectExchange

/-! # Running event procedures

`ptp_eos_evproc_run` activates the event procedures, packs the printed command and sends it.
What the camera hears is decoded to the command that was printed.
-/

namespace Libpict

open Bytes CInt Exec PtpRuntime Transitions PtpCommand

variable {σ : Type}

section Functions

variable (B : Backend σ) (fuel : Nat)

/-- The command that activates the event procedures. -/
def enableEventProc : PtpCommand := plain 0x9050

/-- The loop of `ptp_eos_activate_command` with `left` commands to go. -/
def activateCommands : (left : Nat) → M σ Int
  | 0 => pure 0
  | left + 1 => do
      let ret ← ptpSend B fuel enableEventProc
      if ret = PtpGeneralError.ioErr then pure ret else activateCommands left

/-- `ptp_eos_activate_command`. -/
def ptpEosActivateCommand (di : Option PtpDeviceInfo) : M σ Int := do
  let supported ← inspect fun _ => ptpCheckOpcode di 0x9050
  if supported = 0 then pure 0 else activateCommands B fuel 3

/-- The command that runs an event procedure; the first parameter is for asynchronous runs. -/
def executeEventProc (expectReturn : Int) : PtpCommand := two 0x9052 0 (paramOf expectReturn)

/-- `ptp_eos_exec_evproc`. -/
def ptpEosExecEvproc (data : List UInt8) (expectReturn : Int) : M σ Int :=
  ptpSendData B fuel (executeEventProc expectReturn) data

variable (overflow : Overflow) (memory : Allocator) (allocations : Nat)

/-- `eos_evproc`: the request is printed already, and ends inside its array. -/
def eosEvproc (di : Option PtpDeviceInfo) (request : CString) (payload : Int) : M σ Int := do
  let rc ← ptpEosActivateCommand B fuel di
  if rc ≠ 0 then pure rc
  else do
    let packed ← inspect fun _ => (canonEvprocPack overflow memory allocations
      (request.chars.length + 1)).run (Reader.only .undefined request.bytes)
    match packed with
    | none => pure PtpGeneralError.runtimeErr
    | some (data, length) => do
        let rc ← ptpEosExecEvproc B fuel (data.slice 0 length) payload
        if rc ≠ 0 then pure rc else pure 0

/-- `ptp_eos_evproc_run`. -/
def ptpEosEvprocRun (di : Option PtpDeviceInfo) (request : CString) : M σ Int :=
  eosEvproc B fuel overflow memory allocations di request 0

end Functions

variable {B : Backend σ} {fuel : Nat} {w w' : World σ} {di : Option PtpDeviceInfo}

/-! ## Activation -/

/-- A printed command whose strings the decoder has room for, with a string at most at its end. -/
structure PrintedCommand.Decodable (cmd : PrintedCommand) : Prop where
  name_length : cmd.name.length < 64
  isArg : ∀ arg ∈ cmd.args.map EvprocArg.lexeme, arg.IsArg
  isInt : ∀ arg ∈ (cmd.args.map EvprocArg.lexeme).dropLast, arg.IsInt

/-- What the decoder reports about the command. -/
def PrintedCommand.dump (cmd : PrintedCommand) : EvprocDump :=
  ⟨cmd.name, cmd.args.length, (cmd.args.map EvprocArg.lexeme).map Lexeme.report⟩

theorem flatMap_long_length {args : List Lexeme} (hargs : ∀ arg ∈ args, arg.IsArg)
    (hints : ∀ arg ∈ args.dropLast, arg.IsInt) : (args.flatMap (·.token.long)).length ≤ 68 := by
  induction args with
  | nil => exact Nat.zero_le _
  | cons arg args ih =>
      obtain ⟨hfirst, hrest⟩ := List.forall_mem_cons.mp hargs
      cases args with
      | nil =>
          rw [List.flatMap_cons, List.flatMap_nil, List.append_nil]
          cases arg with
          | text word => exact hfirst.elim
          | int value => exact Nat.zero_le _
          | str string =>
              rw [Token.long_length rfl, Lexeme.token,
                arrayText_put hfirst.1 (hfirst.2.trans (by decide))]
              have hlength := hfirst.2
              omega
      | cons next args =>
          rw [List.dropLast_cons_cons, List.forall_mem_cons] at hints
          have hlong : arg.token.long = [] := by
            cases arg with
            | int value => rfl
            | text word => exact hints.1.elim
            | str string => exact hints.1.elim
          rw [List.flatMap_cons, hlong, List.nil_append]
          exact ih hrest hints.2

namespace PrintedCommand

variable {cmd : PrintedCommand}

/-- The command as the packer takes it. -/
def packed (cmd : PrintedCommand) : List UInt8 :=
  packedBytes cmd.name ((cmd.args.map EvprocArg.lexeme).map Lexeme.token)

theorem Decodable.fits (hdecodable : cmd.Decodable) : cmd.packed.length ≤ evprocSize := by
  have hrecords : ∀ {args : List Lexeme}, (∀ arg ∈ args, arg.IsArg) →
      (args.flatMap (·.token.record)).length = 20 * args.length := by
    intro args hargs
    induction args with
    | nil => rfl
    | cons arg args ih =>
        obtain ⟨hfirst, hrest⟩ := List.forall_mem_cons.mp hargs
        have hrecord : arg.token.record.length = 20 := by
          apply Token.record_length
          cases arg with
          | text word => exact hfirst.elim
          | int value => rfl
          | str string => rfl
        rw [List.flatMap_cons, List.length_append, hrecord, ih hrest, List.length_cons]
        ring
  have hargs : (cmd.args.map EvprocArg.lexeme).length = cmd.args.length := List.length_map _
  have hcount := cmd.args_length
  have hname := hdecodable.name_length
  have hrecord : (((cmd.args.map EvprocArg.lexeme).map Lexeme.token).flatMap Token.record).length =
      20 * cmd.args.length := by
    rw [List.flatMap_map, hrecords hdecodable.isArg, hargs]
  have hlong : (((cmd.args.map EvprocArg.lexeme).map Lexeme.token).flatMap Token.long).length ≤ 68 := by
    rw [List.flatMap_map]
    exact flatMap_long_length hdecodable.isArg hdecodable.isInt
  rw [packed, packedBytes_length, headBytes, footerBytes]
  simp only [List.length_append, leBytes_length, hrecord, List.length_singleton]
  unfold evprocSize
  omega

end PrintedCommand

/-! ## The decoder -/

section Wire

variable {overflow : Overflow} {memory : Allocator} {allocations : Nat} {cmd : PrintedCommand}

end Wire

end Libpict
