import Libpict.Datasets
import Libpict.Operation

/-! # Storages, objects and properties

The operations that decode their reply while they hold the mutex, and the download of an
object in parts.
-/

namespace Libpict

open Bytes CInt

variable {σ : Type}

section Operations

variable (B : Backend σ) (fuel : Nat)

/-- A command with up to five parameters. -/
def commandOf (code : UInt16) (params : List UInt32) (hlength : params.length ≤ 5) : PtpCommand :=
  ⟨code, .ofFn fun i => params.getD i 0, params.length, hlength⟩

/-- The loop of `dup_uint_array`, with `left` entries to go. -/
def dupEntries (buf : Int) : (left : Nat) → (of : Int) → Reader UInt8 Halt (List UInt32)
  | 0, _ => return []
  | left + 1, of => do
      let memb ← ptpReadU32 (buf + of)
      let rest ← dupEntries buf left (of + 4)
      return UInt32.ofNat memb :: rest

/-- `dup_uint_array`. -/
def dupUintArray (memory : Allocator) (allocations : Nat) (buf : Int) :
    Reader UInt8 Halt (List UInt32) := do
  let length ← ptpReadU32 buf
  match memory.malloc allocations (toUInt32 (4 + length * 4)) with
  | none => .stop (.panic "oom")
  -- A product that has wrapped around leaves too small a block for the entries.
  | some block => if 4 + length * 4 ≤ block.size then dupEntries buf length 4 else .stop .undefined

/-- Read something off the payload of a reply. -/
def decodePayload {α : Type} (decode : Int → Reader UInt8 Halt α) : M σ α := inspect fun r => do
  let payload ← ptpGetPayload r
  (decode payload).run r.load

/-- `ptp_get_storage_ids`: the result, and `*a`. -/
def ptpGetStorageIds (memory : Allocator) (allocations : Nat) : M σ (Int × Option (List UInt32)) :=
  do
    ptpMutexLock
    let rc ← ptpSend B fuel (commandOf 0x1004 [] (by decide))
    if rc ≠ 0 then do
      ptpMutexUnlock
      pure (rc, none)
    else do
      let a ← decodePayload (dupUintArray memory allocations)
      ptpMutexUnlock
      pure (rc, some a)

/-- `ptp_get_storage_info`: the result, and the structure where it has been filled. -/
def ptpGetStorageInfo (id : UInt32) (si : PtpStorageInfo) : M σ (Int × PtpStorageInfo) := do
  ptpMutexLock
  let rc ← ptpSend B fuel (commandOf 0x1005 [id] (by simp))
  if rc ≠ 0 then do
    ptpMutexUnlock
    pure (rc, si)
  else do
    let parsed ← inspect fun r => (ptpParseStorageInfo r si).run r.load
    ptpMutexUnlock
    pure parsed

/-- `ptp_get_object_handles`; an error leaves `*a` alone. -/
def ptpGetObjectHandles (memory : Allocator) (allocations : Nat) (id format inside : UInt32)
    (a : Option (List UInt32)) : M σ (Int × Option (List UInt32)) := do
  ptpMutexLock
  let rc ← ptpSend B fuel (commandOf 0x1007 [id, format, inside] (by simp))
  if rc ≠ 0 then do
    ptpMutexUnlock
    pure (rc, a)
  else do
    let handles ← decodePayload (dupUintArray memory allocations)
    ptpMutexUnlock
    pure (rc, some handles)

/-- `ptp_get_prop_desc`; the result of the parser is not looked at. -/
def ptpGetPropDesc (memory : Allocator) (allocations : Nat) (code : UInt32) (pd : PtpPropDesc) :
    M σ (Int × PtpPropDesc) := do
  ptpMutexLock
  let rc ← ptpSend B fuel (commandOf 0x1014 [code] (by simp))
  if rc ≠ 0 then do
    ptpMutexUnlock
    pure (rc, pd)
  else do
    let (_, pd, _) ← inspect fun r => (ptpParsePropDesc memory allocations r pd).run r.load
    ptpMutexUnlock
    pure (rc, pd)

/-- `ptp_get_partial_object`. -/
def ptpGetPartialObject (handle : UInt32) (offset max : Int) : M σ Int :=
  ptpSend B fuel (commandOf 0x101B
    [handle, UInt32.ofNat (toUInt32 offset), UInt32.ofNat (toUInt32 max)] (by simp))

/-- A `FILE` that is written to: what has been written, and whether it is open. -/
structure Stream where
  written : List UInt8
  isOpen : Bool
  deriving DecidableEq

namespace Stream

/-- `fwrite`. -/
def write (file : Stream) (bytes : List UInt8) : Stream :=
  { file with written := file.written ++ bytes }

/-- `fclose`. -/
def close (file : Stream) : Stream := { file with isOpen := false }

end Stream

/-- The loop of `ptp_download_object` with `read` bytes written, at most `rounds` times: the
result, and the stream. -/
def downloadRounds (handle : UInt32) (max : Nat) : (rounds : Nat) → (read : Int) →
    (file : Stream) → M σ (Int × Stream)
  | 0, _, _ => halt .spent
  | rounds + 1, read, file => do
      ptpMutexLock
      let x ← ptpGetPartialObject B fuel handle read max
      if x ≠ 0 then do
        ptpMutexUnlock
        pure (x, file)
      else do
        let length ← inspect fun r => (ptpGetPayloadLength r).map toSize
        if length = 0 then do
          ptpMutexUnlock
          pure (0, file.close)
        else do
          let bytes ← decodePayload fun payload => Reader.read payload length
          ptpMutexUnlock
          if length ≠ max then pure (0, file.write bytes)
          else downloadRounds handle max rounds (toInt32 (read + length)) (file.write bytes)

/-- `ptp_download_object`. -/
def ptpDownloadObject (handle : UInt32) (max rounds : Nat) (file : Stream) : M σ (Int × Stream) :=
  downloadRounds B fuel handle max rounds 0 file

end Operations

end Libpict
