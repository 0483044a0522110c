import Libpict.Objects
import Libpict.Outcome
import Libpict.UsbBackend

/-! # Lock balance

The functions that take the mutex: the operations that decode their reply under it, the
download of an object, and the two functions of the USB backend.
-/

namespace Libpict

open CInt Exec

variable {σ : Type}

/-! ## Depth of the mutex -/

section Depth

variable {α β : Type}

/-- Whenever it returns, the mutex is as deep as it was. -/
def SameDepth (x : M σ α) : Prop := ∀ w a w', x w = .ok a w' → w'.r.mutex = w.r.mutex

/-- Whenever it returns, the mutex has been unlocked once. -/
def Releases (x : M σ α) : Prop := ∀ w a w', x w = .ok a w' → w'.r.mutex = w.r.mutex.map (· - 1)

variable {x : M σ α} {f : α → M σ β}

theorem sameDepth_pure (a : α) : SameDepth (pure a : M σ α) := by
  intro w b w' hrun
  cases hrun
  rfl

theorem sameDepth_halt (reason : Halt) : SameDepth (halt reason : M σ α) := by
  intro w a w' hrun
  cases hrun

theorem sameDepth_runtime : SameDepth (runtime : M σ PtpRuntime) := by
  intro w r w' hrun
  cases hrun
  rfl

theorem sameDepth_inspect (read : PtpRuntime → Except Halt α) :
    SameDepth (inspect read : M σ α) := by
  intro w a w' hrun
  rw [(inspect_eq_ok hrun).2]

theorem sameDepth_update {update : PtpRuntime → PtpRuntime}
    (hupdate : ∀ r, (update r).mutex = r.mutex) : SameDepth (updateRuntime update : M σ Unit) := by
  intro w a w' hrun
  cases hrun
  exact hupdate w.r

theorem SameDepth.bind (hx : SameDepth x) (hf : ∀ a, SameDepth (f a)) : SameDepth (x >>= f) := by
  intro w b w' hrun
  obtain ⟨a, middle, hmiddle, hrest⟩ := bind_eq_ok.mp hrun
  exact (hf a middle b w' hrest).trans (hx w a middle hmiddle)

theorem SameDepth.releases (hx : SameDepth x) (hf : ∀ a, Releases (f a)) : Releases (x >>= f) := by
  intro w b w' hrun
  obtain ⟨a, middle, hmiddle, hrest⟩ := bind_eq_ok.mp hrun
  rw [hf a middle b w' hrest, hx w a middle hmiddle]

theorem releases_then {next : M σ β} (hnext : SameDepth next) :
    Releases (ptpMutexUnlock >>= fun _ => next) := by
  intro w b w' hrun
  obtain ⟨⟨⟩, middle, hmiddle, hrest⟩ := bind_eq_ok.mp hrun
  rw [hnext middle b w' hrest]
  cases hmiddle
  rfl

/-- What is locked and released once is as deep as it was. -/
theorem Releases.locked {next : M σ β} (hnext : Releases next) :
    SameDepth (ptpMutexLock >>= fun _ => next) := by
  intro w b w' hrun
  obtain ⟨⟨⟩, middle, hmiddle, hrest⟩ := bind_eq_ok.mp hrun
  rw [hnext middle b w' hrest]
  cases hmiddle
  exact unlocked_mutex w.r.mutex

end Depth

/-! ## Balance of the operations -/

section Balance

variable {B : Backend σ} {fuel : Nat}

theorem Operation.exec_sameDepth (op : Operation) : SameDepth (op.exec B fuel) := by
  intro w rc w' hrun
  cases op.outcome hrun with
  | refused _ _ hworld => rw [hworld]
  | @failed w₀ v rc' _ hprepare hattempts _ _ hworld =>
      have hfirst : w₀.r.mutex = (locked w).r.mutex := by rw [(op.prepare_keeps hprepare).1.runtime]
      have hsecond : v.r.mutex = w₀.r.mutex := by rw [hattempts.keeps.1.runtime]
      rw [hworld, Libpict.failed]
      dsimp only
      rw [hsecond, hfirst]
      exact unlocked_mutex w.r.mutex
  | @completed w₀ v code _ hprepare hattempts _ _ hworld =>
      have hfirst : w₀.r.mutex = (locked w).r.mutex := by rw [(op.prepare_keeps hprepare).1.runtime]
      have hsecond : v.r.mutex = w₀.r.mutex := by rw [hattempts.keeps.1.runtime]
      rw [hworld, finished]
      dsimp only
      rw [hsecond, hfirst]
      exact unlocked_mutex w.r.mutex

theorem ptpSend_sameDepth (cmd : PtpCommand) : SameDepth (ptpSend B fuel cmd) :=
  (Operation.send cmd).exec_sameDepth

/-- A command whose reply is decoded under the mutex. -/
theorem sendLocked_sameDepth {α β : Type} (cmd : PtpCommand) {refuse : Int → α}
    {decode : M σ β} {answer : Int → β → α} (hdecode : SameDepth decode) :
    SameDepth (do
      ptpMutexLock
      let rc ← ptpSend B fuel cmd
      if rc ≠ 0 then do
        ptpMutexUnlock
        pure (refuse rc)
      else do
        let found ← decode
        ptpMutexUnlock
        pure (answer rc found) : M σ α) := by
  refine ((ptpSend_sameDepth cmd).releases fun rc => ?_).locked
  split
  · exact releases_then (sameDepth_pure _)
  · exact hdecode.releases fun found => releases_then (sameDepth_pure _)

theorem downloadRounds_sameDepth (handle : UInt32) (max rounds : Nat) (read : Int)
    (file : Stream) : SameDepth (downloadRounds B fuel handle max rounds read file) := by
  induction rounds generalizing read file with
  | zero => exact sameDepth_halt _
  | succ rounds ih =>
      refine ((ptpSend_sameDepth _).releases fun x => ?_).locked
      split
      · exact releases_then (sameDepth_pure _)
      · refine (sameDepth_inspect _).releases fun length => ?_
        split
        · exact releases_then (sameDepth_pure _)
        · refine (sameDepth_inspect _).releases fun bytes => releases_then ?_
          split
          · exact sameDepth_pure _
          · exact ih _ _

theorem scanEndpoints_sameDepth (endpoints : List UsbEndpoint) (entry : PtpDeviceEntry) :
    SameDepth (scanEndpoints endpoints entry : M σ PtpDeviceEntry) := by
  induction endpoints generalizing entry with
  | nil => exact sameDepth_pure _
  | cons ep rest ih =>
      unfold scanEndpoints
      split
      · split
        · apply SameDepth.bind
          · exact sameDepth_update fun _ => rfl
          · intro _
            exact ih _
        · exact ih _
      · split
        · exact ih _
        · exact ih _

theorem scanDevices_releases (devices : List UsbDevice) (d : Nat) (entries : List PtpDeviceEntry) :
    Releases (scanDevices devices d entries : M σ _) := by
  induction devices generalizing d entries with
  | nil => exact releases_then (sameDepth_pure _)
  | cons dev rest ih =>
      unfold scanDevices
      split
      · exact releases_then (sameDepth_pure _)
      split
      · exact ih _ _
      split
      · exact releases_then (sameDepth_pure _)
      split
      · exact ih _ _
      · refine (scanEndpoints_sameDepth _ _).releases fun entry => ?_
        split
        · exact releases_then (sameDepth_pure _)
        · exact ih _ _

theorem ptpusbDeviceList_sameDepth (devices : List UsbDevice) :
    SameDepth (ptpusbDeviceList devices : M σ _) := by
  have hinit : SameDepth (ptpCommInit : M σ Unit) := by
    refine sameDepth_runtime.bind fun r => ?_
    split
    · exact sameDepth_halt _
    · split
      · exact sameDepth_halt _
      · exact sameDepth_update fun _ => rfl
  refine hinit.bind fun _ => sameDepth_runtime.bind fun r => ?_
  split
  · exact sameDepth_halt _
  · apply Releases.locked
    split
    · exact releases_then (sameDepth_pure _)
    · exact scanDevices_releases _ _ _

end Balance

/-- The calls that take the mutex. -/
inductive LockCall
  | send (cmd : PtpCommand)
  | sendData (cmd : PtpCommand) (data : List UInt8)
  | getStorageIds (memory : Allocator) (allocations : Nat)
  | getStorageInfo (id : UInt32) (si : PtpStorageInfo)
  | getObjectHandles (memory : Allocator) (allocations : Nat) (id format inside : UInt32)
      (a : Option (List UInt32))
  | getPropDesc (memory : Allocator) (allocations : Nat) (code : UInt32) (pd : PtpPropDesc)
  | downloadObject (handle : UInt32) (max rounds : Nat) (file : Stream)
  | deviceList (devices : List UsbDevice)
  | deviceOpen (commBackend : Bool) (openResult detachResult claimResult : Int)

namespace LockCall

/-- Make the call, without its results. -/
def exec (B : Backend σ) (fuel : Nat) : LockCall → M σ Unit
  | send cmd => ptpSend B fuel cmd >>= fun _ => pure ()
  | sendData cmd data => ptpSendData B fuel cmd data >>= fun _ => pure ()
  | getStorageIds memory allocations =>
      ptpGetStorageIds B fuel memory allocations >>= fun _ => pure ()
  | getStorageInfo id si => ptpGetStorageInfo B fuel id si >>= fun _ => pure ()
  | getObjectHandles memory allocations id format inside a =>
      ptpGetObjectHandles B fuel memory allocations id format inside a >>= fun _ => pure ()
  | getPropDesc memory allocations code pd =>
      ptpGetPropDesc B fuel memory allocations code pd >>= fun _ => pure ()
  | downloadObject handle max rounds file =>
      ptpDownloadObject B fuel handle max rounds file >>= fun _ => pure ()
  | deviceList devices => ptpusbDeviceList devices >>= fun _ => pure ()
  | deviceOpen commBackend openResult detachResult claimResult =>
      ptpDeviceOpen commBackend openResult detachResult claimResult >>= fun _ => pure ()

/-- A connection that is active already, opened once more. -/
def Reopens (r : PtpRuntime) : LockCall → Prop
  | deviceOpen commBackend _ _ _ =>
      commBackend = true ∧ r.ioKillSwitch = false ∧ r.mutex ≠ none
  | _ => False

end LockCall

/-- `ptp_device_open` unlocks on every way out but one. -/
theorem ptpDeviceOpen_mutex {commBackend : Bool} {openResult detachResult claimResult rc : Int}
    {w w' : World σ}
    (hrun : ptpDeviceOpen commBackend openResult detachResult claimResult w = .ok rc w') :
    w'.r.mutex = if commBackend = true ∧ w.r.ioKillSwitch = false then w.r.mutex.map (· + 1)
      else w.r.mutex := by
  obtain ⟨⟨⟩, middle, hmiddle, hrest⟩ := bind_eq_ok.mp hrun
  cases hmiddle
  cases commBackend with
  | false =>
      rw [if_neg (by simp)]
      cases hrest
      exact unlocked_mutex w.r.mutex
  | true =>
      obtain ⟨r, middle, hmiddle, hrest⟩ := bind_eq_ok.mp hrest
      cases hmiddle
      dsimp only at hrest
      by_cases hswitch : w.r.ioKillSwitch = false
      · rw [if_pos hswitch] at hrest
        rw [if_pos ⟨rfl, hswitch⟩]
        cases hrest
        rfl
      · rw [if_neg hswitch] at hrest
        rw [if_neg fun h => hswitch h.2]
        split at hrest
        · cases hrest
          exact unlocked_mutex w.r.mutex
        · cases hrest
          exact unlocked_mutex w.r.mutex

/-- A call returns with the mutex as deep as it was, but for a connection that is opened
once more. -/
theorem lock_balanced_iff (B : Backend σ) (fuel : Nat) (call : LockCall) (w : World σ) :
    (∀ w', call.exec B fuel w = .ok () w' → w'.r.mutex = w.r.mutex) ↔ ¬call.Reopens w.r := by
  have hsame : ∀ {α : Type} {x : M σ α}, SameDepth x → ∀ w',
      (x >>= fun _ => pure () : M σ Unit) w = .ok () w' → w'.r.mutex = w.r.mutex :=
    fun hx w' hrun => (hx.bind fun _ => sameDepth_pure ()) w () w' hrun
  cases call with
  | send cmd => exact iff_of_true (hsame (ptpSend_sameDepth cmd)) id
  | sendData cmd data =>
      exact iff_of_true (hsame (Operation.sendData cmd data).exec_sameDepth) id
  | getStorageIds memory allocations =>
      exact iff_of_true (hsame (sendLocked_sameDepth _ (sameDepth_inspect _))) id
  | getStorageInfo code si =>
      exact iff_of_true (hsame (sendLocked_sameDepth _ (sameDepth_inspect _))) id
  | getObjectHandles memory allocations code format inside a =>
      exact iff_of_true (hsame (sendLocked_sameDepth _ (sameDepth_inspect _))) id
  | getPropDesc memory allocations code pd =>
      exact iff_of_true (hsame (sendLocked_sameDepth _ (sameDepth_inspect _))) id
  | downloadObject handle max rounds file =>
      exact iff_of_true (hsame (downloadRounds_sameDepth handle max rounds 0 file)) id
  | deviceList devices => exact iff_of_true (hsame (ptpusbDeviceList_sameDepth devices)) id
  | deviceOpen commBackend openResult detachResult claimResult =>
      constructor
      · rintro hbalanced ⟨rfl, hswitch, hmutex⟩
        obtain ⟨depth, hdepth⟩ := Option.ne_none_iff_exists'.mp hmutex
        have hrun : ptpDeviceOpen true openResult detachResult claimResult w =
            .ok PtpGeneralError.openFail (locked w) := by
          have hswitch' : (locked w).r.ioKillSwitch = false := hswitch
          rw [ptpDeviceOpen, bind_ok (rfl : ptpMutexLock w = .ok () (locked w)),
            if_neg (by decide)]
          refine (bind_ok (rfl : runtime (locked w) = .ok (locked w).r (locked w))).trans ?_
          rw [if_pos hswitch']
          rfl
        have hreturn := hbalanced (locked w) (bind_ok hrun)
        rw [locked, hdepth] at hreturn
        exact absurd (Option.some.inj hreturn) (Nat.succ_ne_self depth)
      · intro hopens w' hrun
        obtain ⟨rc, middle, hopen, hrest⟩ := bind_eq_ok.mp hrun
        cases hrest
        rw [ptpDeviceOpen_mutex hopen]
        split
        next hagain =>
          have hnone : w.r.mutex = none := by
            by_contra hmutex
            exact hopens ⟨hagain.1, hagain.2, hmutex⟩
          rw [hnone]
          rfl
        next => rfl

/-- The way out that keeps the mutex. -/
theorem deviceOpen_again :
    ∃ w', (LockCall.deviceOpen true 0 0 0).exec scripted 1 (scriptedWorld 512 []) = .ok () w' ∧
      w'.r.mutex ≠ (scriptedWorld 512 []).r.mutex := by
  refine ⟨_, rfl, ?_⟩
  decide

end Libpict
