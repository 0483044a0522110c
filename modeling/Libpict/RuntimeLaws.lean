import Libpict.Runtime

/-! # Laws of the runtime primitives

What loads, stores, backend calls and growth of the buffer do to a runtime whose
buffer is known. `Holds` says that the buffer starts with given bytes; every field
inside those bytes then reads as the bytes say.
-/

namespace Libpict

open Bytes CInt

/-- The little-endian field of `size` bytes at `offset` of a byte string. -/
def field (size offset : Nat) (bytes : List UInt8) : Nat := leValue ((bytes.drop offset).take size)

theorem field_lt (size offset : Nat) (bytes : List UInt8) : field size offset bytes < 256 ^ size :=
  lt_of_lt_of_le (leValue_lt _) (Nat.pow_le_pow_right (by decide) (List.length_take_le _ _))

/-- A field inside a prefix does not depend on what follows the prefix. -/
theorem field_append (size offset : Nat) (front back : List UInt8)
    (hle : offset + size ≤ front.length) :
    field size offset (front ++ back) = field size offset front := by
  unfold field
  rw [List.drop_append_of_le_length (by omega), List.take_append_of_le_length]
  simp only [List.length_drop]
  omega

namespace PtpRuntime

/-- The buffer starts with the given bytes. -/
def Holds (r : PtpRuntime) (bytes : List UInt8) : Prop :=
  ∃ buffer, r.data = some buffer ∧ bytes.length ≤ buffer.size ∧
    buffer.slice 0 bytes.length = bytes

theorem load_some {r : PtpRuntime} {buffer : Buffer} (hdata : r.data = some buffer)
    (offset size : Nat) (hle : offset + size ≤ buffer.size) :
    r.load offset size = .ok (buffer.slice offset size) := by
  have hinside : (0 : Int) ≤ offset ∧ (0 : Int) ≤ size ∧ (offset : Int) + size ≤ buffer.size := by
    omega
  simp only [load, hdata, if_pos hinside, Int.toNat_natCast]

theorem load_undefined {r : PtpRuntime} {buffer : Buffer} (hdata : r.data = some buffer)
    {offset size : Int} (houtside : offset < 0 ∨ size < 0 ∨ buffer.size < offset + size) :
    r.load offset size = .error .undefined := by
  unfold PtpRuntime.load
  rw [hdata]
  exact if_neg (by omega)

theorem loadLe_some {r : PtpRuntime} {b : Buffer} (hdata : r.data = some b)
    (size offset : Nat) (hle : offset + size ≤ b.size) :
    r.loadLe size offset = .ok (leValue (b.slice offset size)) := by
  rw [PtpRuntime.loadLe, load_some hdata offset size hle]
  rfl

/-- A field that can be loaded lies in the buffer. -/
theorem size_of_loadLe {r : PtpRuntime} {b : Buffer} (hdata : r.data = some b)
    {size value : Nat} {offset : Int} (hload : r.loadLe size offset = .ok value) :
    0 ≤ offset ∧ offset + size ≤ b.size := by
  unfold PtpRuntime.loadLe PtpRuntime.load at hload
  rw [hdata] at hload
  dsimp only at hload
  split_ifs at hload with hinside
  · exact ⟨hinside.1, hinside.2.2⟩
  · cases hload

theorem Holds.load {r : PtpRuntime} {bytes : List UInt8} (hholds : r.Holds bytes)
    (offset size : Nat) (hle : offset + size ≤ bytes.length) :
    r.load offset size = .ok ((bytes.drop offset).take size) := by
  obtain ⟨buffer, hdata, hsize, hslice⟩ := hholds
  rw [load_some hdata offset size (by omega), ← hslice,
    Buffer.slice_drop_take _ _ _ _ _ hle, Nat.zero_add]

theorem Holds.loadLe {r : PtpRuntime} {bytes : List UInt8} (hholds : r.Holds bytes) {p : Int}
    (offset size : Nat) (hat : p = offset) (hle : offset + size ≤ bytes.length) :
    r.loadLe size p = .ok (field size offset bytes) := by
  subst hat
  rw [PtpRuntime.loadLe, hholds.load offset size hle]
  rfl

/-- A runtime that holds bytes holds every prefix of them. -/
theorem Holds.of_append {r : PtpRuntime} {front back : List UInt8}
    (hholds : r.Holds (front ++ back)) : r.Holds front := by
  obtain ⟨buffer, hdata, hsize, hslice⟩ := hholds
  rw [List.length_append] at hsize hslice
  refine ⟨buffer, hdata, by omega, ?_⟩
  rw [Buffer.slice_add] at hslice
  exact (List.append_inj hslice (Buffer.slice_length _ _ _)).1

/-- A buffer whose length the runtime knows, as `ptp_init` creates it and every
operation that succeeds leaves it. -/
def Ready (r : PtpRuntime) (buffer : Buffer) : Prop :=
  r.data = some buffer ∧ r.dataLength = buffer.size ∧ (buffer.size : Int) ≤ intMax ∧
    ptpDefaultSize ≤ buffer.size

end PtpRuntime

theorem ptpInit_ready (contents : Nat → UInt8) :
    (ptpInit (some contents)).Ready ⟨ptpDefaultSize, contents⟩ :=
  ⟨rfl, rfl, (by decide : (ptpDefaultSize : Int) ≤ intMax), le_rfl⟩

section Primitives

variable {σ : Type} {B : Backend σ}

@[simp] theorem runtime_run (w : World σ) : (runtime : M σ PtpRuntime) w = .ok w.r w := rfl

@[simp] theorem updateRuntime_run (f : PtpRuntime → PtpRuntime) (w : World σ) :
    updateRuntime f w = .ok () { w with r := f w.r } := rfl

@[simp] theorem halt_run {α : Type} (reason : Halt) (w : World σ) :
    (halt reason : M σ α) w = .error reason w := rfl

theorem inspect_ok {α : Type} {read : PtpRuntime → Except Halt α} {w : World σ} {a : α}
    (hread : read w.r = .ok a) : inspect read w = .ok a w := by
  simp only [inspect, hread]

theorem inspect_eq_ok {α : Type} {read : PtpRuntime → Except Halt α} {w w' : World σ} {a : α}
    (hrun : inspect read w = .ok a w') : read w.r = .ok a ∧ w' = w := by
  unfold inspect at hrun
  cases hread : read w.r with
  | error reason =>
      rw [hread] at hrun
      cases hrun
  | ok b =>
      rw [hread] at hrun
      obtain ⟨rfl, rfl⟩ := EStateM.Result.ok.inj hrun
      exact ⟨rfl, rfl⟩

theorem intAdd_eq_ok {a b c : Int} {w w' : World σ} (hrun : (intAdd a b : M σ Int) w = .ok c w') :
    c = a + b ∧ Fits (a + b) ∧ w' = w := by
  unfold intAdd at hrun
  split_ifs at hrun with hfits
  · obtain ⟨rfl, rfl⟩ := EStateM.Result.ok.inj hrun
    exact ⟨rfl, hfits, rfl⟩
  · cases hrun

theorem intAdd_ok {a b : Int} (hfits : Fits (a + b)) (w : World σ) :
    (intAdd a b : M σ Int) w = .ok (a + b) w := by
  simp only [intAdd, if_pos hfits, Exec.pure_run]

theorem intAdd_overflow {a b : Int} (hover : ¬Fits (a + b)) (w : World σ) :
    (intAdd a b : M σ Int) w = .error .undefined w := by
  simp only [intAdd, if_neg hover, halt_run]

theorem storeData_ok {w : World σ} {buffer : Buffer} (hdata : w.r.data = some buffer)
    {at_ : Int} (offset : Nat) (bytes : List UInt8) (hat : at_ = offset)
    (hle : offset + bytes.length ≤ buffer.size) :
    storeData at_ bytes w =
      .ok () { w with r := { w.r with data := some (buffer.store offset bytes) } } := by
  subst hat
  have hinside : (0 : Int) ≤ offset ∧ (offset : Int) + bytes.length ≤ buffer.size := by omega
  simp only [storeData, PtpRuntime.store, hdata, if_pos hinside, Int.toNat_natCast]

/-- A store that returns lies in the buffer. -/
theorem storeData_eq_ok {w w' : World σ} {offset : Int} {bytes : List UInt8}
    (hrun : storeData offset bytes w = .ok () w') : ∃ buffer, w.r.data = some buffer ∧
      offset + bytes.length ≤ buffer.size ∧ w'.r.data.map Buffer.size = some buffer.size := by
  unfold storeData PtpRuntime.store at hrun
  cases hdata : w.r.data with
  | none =>
      rw [hdata] at hrun
      cases hrun
  | some buffer =>
      rw [hdata] at hrun
      dsimp only at hrun
      by_cases hinside : 0 ≤ offset ∧ offset + bytes.length ≤ buffer.size
      · rw [if_pos hinside] at hrun
        obtain ⟨_, rfl⟩ := EStateM.Result.ok.inj hrun
        exact ⟨buffer, rfl, hinside.2, rfl⟩
      · rw [if_neg hinside] at hrun
        cases hrun

namespace PtpRuntime

/-- Counting a transaction moves its ID by one. -/
theorem transactionId_succ (r : PtpRuntime) :
    PtpRuntime.transactionId { r with transaction := r.transaction + 1 } = r.transactionId + 1 := by
  have hnumber (t : Int) : (UInt32.ofNat (toUInt32 t)).toNat = (t % 4294967296).toNat := by
    unfold toUInt32
    rw [UInt32.toNat_ofNat']
    omega
  apply UInt32.toNat_inj.mp
  rw [UInt32.toNat_add]
  unfold transactionId
  rw [hnumber, hnumber, UInt32.toNat_one]
  dsimp only
  omega

/-- Backend calls leave the packet size, or set the one for TCP. -/
def Resized (r r' : PtpRuntime) : Prop :=
  r'.maxPacketSize = r.maxPacketSize ∨ r'.maxPacketSize = 65535

instance : IsPreorder PtpRuntime Resized where
  refl _ := .inl rfl
  trans _ _ _ := by
    rintro hfirst (hsecond | hsecond)
    · exact hfirst.imp hsecond.trans hsecond.trans
    · exact .inr hsecond

theorem resized_initComm (r : PtpRuntime) (endpoint : Endpoint) : Resized r (r.initComm endpoint) := by
  unfold Resized initComm packetSize
  cases endpoint with
  | usb => exact .inl rfl
  | socket => by_cases hkill : r.ioKillSwitch <;> simp [hkill]

/-- The second call of a kind leaves the packet size alone. -/
@[simp] theorem packetSize_initComm (r : PtpRuntime) (endpoint : Endpoint) :
    (r.initComm endpoint).packetSize endpoint = r.packetSize endpoint := by
  cases endpoint with
  | usb => rfl
  | socket =>
      change (if r.ioKillSwitch then r.packetSize .socket else 65535) = r.packetSize .socket
      unfold packetSize
      by_cases hkill : r.ioKillSwitch <;> simp [hkill]

theorem Resized.le {r r' : PtpRuntime} (hresized : Resized r r') {bound : Int}
    (hle : r.maxPacketSize ≤ bound) (htcp : 65535 ≤ bound) : r'.maxPacketSize ≤ bound := by
  unfold Resized at hresized
  omega

theorem Resized.nonneg {r r' : PtpRuntime} (hresized : Resized r r') (hnonneg : 0 ≤ r.maxPacketSize) :
    0 ≤ r'.maxPacketSize := by
  unfold Resized at hresized
  omega

theorem Resized.pos {r r' : PtpRuntime} (hresized : Resized r r') (hpos : 0 < r.maxPacketSize) :
    0 < r'.maxPacketSize := by
  unfold Resized at hresized
  omega

/-- The packet size of the `k`-th of a row of calls to an endpoint. -/
def packetAt (r : PtpRuntime) (endpoint : Endpoint) : Nat → Nat
  | 0 => r.maxPacketSize.toNat
  | _ + 1 => (r.packetSize endpoint).toNat

section PacketAt

variable {r : PtpRuntime} (hnonneg : 0 ≤ r.maxPacketSize) (endpoint : Endpoint)

include hnonneg

theorem packetAt_zero : (r.packetAt endpoint 0 : Int) = r.maxPacketSize := Int.toNat_of_nonneg hnonneg

theorem packetAt_succ (k : Nat) : (r.packetAt endpoint (k + 1) : Int) = r.packetSize endpoint :=
  Int.toNat_of_nonneg ((r.resized_initComm endpoint).nonneg hnonneg)

/-- A call leaves the packet size of the next one. -/
theorem packetSize_packetAt (k : Nat) :
    PtpRuntime.packetSize { r with maxPacketSize := r.packetAt endpoint k } endpoint =
      r.packetAt endpoint (k + 1) := by
  rw [packetAt_succ hnonneg]
  cases k with
  | zero => rw [packetAt_zero hnonneg]
  | succ k =>
      rw [packetAt_succ hnonneg]
      exact r.packetSize_initComm endpoint

end PacketAt

end PtpRuntime

/-- A write inside the buffer hands the bytes found there to the backend. -/
theorem cmdWrite_ok {w : World σ} {buffer : Buffer} (hdata : w.r.data = some buffer)
    (endpoint : Endpoint) (offset size : Nat) (hle : offset + size ≤ buffer.size) :
    cmdWrite B endpoint offset size w =
      .ok (B.cmdWrite endpoint (buffer.slice offset size) w.device).1
        { w with
          r := w.r.initComm endpoint
          device := (B.cmdWrite endpoint (buffer.slice offset size) w.device).2
          log := w.log ++ [.write endpoint (buffer.slice offset size)
            (B.cmdWrite endpoint (buffer.slice offset size) w.device).1] } := by
  unfold cmdWrite
  rw [PtpRuntime.load_some hdata offset size hle]

/-- What the backend answers to a read of the given size. -/
def Backend.readResult (B : Backend σ) (endpoint : Endpoint) (size : Nat) (device : σ) :
    Option (List UInt8) := (B.cmdRead endpoint size device).1.map Subtype.val

theorem Backend.readResult_length_le (endpoint : Endpoint) (size : Nat) (device : σ) :
    ((B.readResult endpoint size device).getD []).length ≤ size := by
  unfold Backend.readResult
  cases (B.cmdRead endpoint size device).1 with
  | none => simp
  | some bytes => exact bytes.2

/-- A read request inside the buffer stores what the backend answers. -/
theorem cmdRead_ok {w : World σ} {buffer : Buffer} (hdata : w.r.data = some buffer)
    (endpoint : Endpoint) (offset size : Nat) (hle : offset + size ≤ buffer.size) :
    cmdRead B endpoint offset size w =
      .ok ((B.readResult endpoint size w.device).map List.length)
        { w with
          r := { w.r.initComm endpoint with
            data := some (buffer.store offset ((B.readResult endpoint size w.device).getD [])) }
          device := (B.cmdRead endpoint size w.device).2
          log := w.log ++ [.read endpoint offset size w.r.dataLength
            (B.readResult endpoint size w.device)] } := by
  unfold cmdRead Backend.readResult
  rw [PtpRuntime.load_some hdata offset size hle]
  simp only [Int.toNat_natCast]
  obtain ⟨got, device⟩ := B.cmdRead endpoint size w.device
  cases got with
  | none =>
      simp only [Option.map_none, Option.getD_none, Buffer.store_nil]
      rw [← hdata]
      rfl
  | some bytes => simp [hdata]

/-- A read request outside the buffer is recorded, but does not return. -/
theorem cmdRead_undefined {w : World σ} {endpoint : Endpoint} {offset size : Int}
    (hload : w.r.load offset size = .error .undefined) :
    cmdRead B endpoint offset size w = .error .undefined
      { w with log := w.log ++ [.read endpoint offset size w.r.dataLength none] } := by
  unfold cmdRead
  rw [hload]

theorem size_of_cmdRead {w w' : World σ} {endpoint : Endpoint} {offset size : Int}
    {rc : Option Nat} (hread : cmdRead B endpoint offset size w = .ok rc w') : 0 ≤ size := by
  by_contra hnegative
  cases hdata : w.r.data with
  | none =>
      have hload : w.r.load offset size = .error .undefined := by
        unfold PtpRuntime.load
        rw [hdata]
      rw [cmdRead_undefined hload] at hread
      cases hread
  | some buffer =>
      rw [cmdRead_undefined (PtpRuntime.load_undefined hdata (.inr (.inl (not_le.mp hnegative))))]
        at hread
      cases hread

theorem size_of_cmdWrite {w w' : World σ} {endpoint : Endpoint} {offset size : Int}
    {rc : Option Nat} (hwrite : cmdWrite B endpoint offset size w = .ok rc w') : 0 ≤ size := by
  by_contra hnegative
  have hload : w.r.load offset size = .error .undefined := by
    cases hdata : w.r.data with
    | none =>
        unfold PtpRuntime.load
        rw [hdata]
    | some buffer =>
        exact PtpRuntime.load_undefined hdata (.inr (.inl (not_le.mp hnegative)))
  unfold cmdWrite at hwrite
  rw [hload] at hwrite
  cases hwrite

/-- A write that returns has handed over bytes of the buffer. -/
theorem cmdWrite_eq_ok {w w' : World σ} {endpoint : Endpoint} {offset size : Int}
    {rc : Option Nat} (hwrite : cmdWrite B endpoint offset size w = .ok rc w') :
    ∃ bytes, w.r.load offset size = .ok bytes ∧ rc = (B.cmdWrite endpoint bytes w.device).1 ∧
      w'.r = w.r.initComm endpoint ∧ w'.log = w.log ++ [.write endpoint bytes rc] := by
  unfold cmdWrite at hwrite
  cases hload : w.r.load offset size with
  | error reason =>
      rw [hload] at hwrite
      cases hwrite
  | ok bytes =>
      rw [hload] at hwrite
      obtain ⟨rfl, rfl⟩ := EStateM.Result.ok.inj hwrite
      exact ⟨bytes, rfl, rfl, rfl, rfl⟩

/-- The size of a buffer after making room for `need` bytes. -/
def grown (size need : Nat) : Nat := if size < need then need + 100 else size

theorem le_grown (size need : Nat) : size ≤ grown size need := by
  unfold grown
  split <;> omega

theorem need_le_grown (size need : Nat) : need ≤ grown size need := by
  unfold grown
  split <;> omega

theorem ptpBufferResize_ok {w : World σ} {buffer : Buffer} (hdata : w.r.data = some buffer)
    (hlength : w.r.dataLength = buffer.size) {need : Nat} (hneed : buffer.size ≤ need)
    (hsize : need < 4294967296) (hrealloc : B.realloc w.reallocs (need + 100) = true) :
    ptpBufferResize B need w =
      .ok 0 { w with
        r := { w.r with data := some (buffer.resize (need + 100)),
                        dataLength := toInt32 (need + 100) }
        reallocs := w.reallocs + 1 } := by
  have htarget : toSize (need + 100) = need + 100 := by
    unfold toSize
    omega
  have hgrows : ¬need < toSize w.r.dataLength := by
    unfold toSize
    omega
  simp only [ptpBufferResize, if_neg hgrows, htarget, hrealloc, if_true, hdata, Option.getD_some]

/-- A failed reallocation loses the buffer, but not the length it was to have. -/
theorem ptpBufferResize_outOfMem {w : World σ} {size : Nat} (hlength : w.r.dataLength = size)
    {need : Nat} (hneed : size ≤ need) (hsize : need < 4294967296)
    (hrealloc : B.realloc w.reallocs (need + 100) = false) :
    ptpBufferResize B need w = .ok PtpGeneralError.outOfMem { w with
      r := { w.r with data := none, dataLength := toInt32 (need + 100) }
      reallocs := w.reallocs + 1 } := by
  have htarget : toSize (need + 100) = need + 100 := by
    unfold toSize
    omega
  have hgrows : ¬need < toSize w.r.dataLength := by
    unfold toSize
    omega
  simp only [ptpBufferResize, if_neg hgrows, htarget, hrealloc, Bool.false_eq_true, if_false]

/-- A reallocation that returns grew the buffer, or ran out of memory. -/
theorem ptpBufferResize_eq_ok {w w' : World σ} {size : Nat} {rc : Int}
    (hrun : ptpBufferResize B size w = .ok rc w') : toSize w.r.dataLength ≤ size ∧
      (rc = PtpGeneralError.outOfMem ∨ rc = 0 ∧
        B.realloc w.reallocs (toSize (size + 100)) = true ∧
        w'.r.data = some ((w.r.data.getD ⟨0, fun _ => 0⟩).resize (toSize (size + 100)))) := by
  unfold ptpBufferResize at hrun
  by_cases hdown : size < toSize w.r.dataLength
  · rw [if_pos hdown] at hrun
    cases hrun
  · rw [if_neg hdown] at hrun
    refine ⟨not_lt.mp hdown, ?_⟩
    dsimp only at hrun
    cases hrealloc : B.realloc w.reallocs (toSize (size + 100)) with
    | true =>
        rw [hrealloc, if_pos rfl] at hrun
        obtain ⟨rfl, rfl⟩ := EStateM.Result.ok.inj hrun
        exact .inr ⟨rfl, rfl, rfl⟩
    | false =>
        rw [hrealloc, if_neg (by decide)] at hrun
        exact .inl (EStateM.Result.ok.inj hrun).1.symm

/-- The growth step of the USB-style receive loop, when the allocator has the memory. -/
theorem grow_ok {w : World σ} {buffer : Buffer} (hdata : w.r.data = some buffer)
    (hlength : w.r.dataLength = buffer.size) {need : Nat} (hneed : (need : Int) ≤ intMax)
    (hsize : (buffer.size : Int) ≤ intMax)
    (hrealloc : buffer.size < need → B.realloc w.reallocs (need + 100) = true) :
    (if w.r.dataLength < need then ptpBufferResize B (toSize need) else pure 0) w =
      .ok 0 { w with
        r := { w.r with data := some (buffer.resize (grown buffer.size need)),
                        dataLength := toInt32 (grown buffer.size need) }
        reallocs := w.reallocs + if buffer.size < need then 1 else 0 } := by
  unfold intMax at hneed hsize
  have htoSize : toSize need = need := by
    unfold toSize
    omega
  rw [htoSize]
  by_cases hgrow : buffer.size < need
  · have hlt : w.r.dataLength < need := by omega
    rw [if_pos hlt, ptpBufferResize_ok hdata hlength (by omega) (by omega) (hrealloc hgrow)]
    simp only [grown, if_pos hgrow]
    rfl
  · have hge : ¬w.r.dataLength < need := by omega
    have hsame : toInt32 buffer.size = w.r.dataLength := by
      rw [hlength]
      exact toInt32_of_fits ⟨by omega, hsize⟩
    rw [if_neg hge]
    simp only [Exec.pure_run, grown, if_neg hgrow, hsame, Nat.add_zero]
    rw [show buffer.resize buffer.size = buffer from rfl, ← hdata]

/-- The growth step when the allocator is out of memory. -/
theorem grow_outOfMem {w : World σ} {size : Nat} (hlength : w.r.dataLength = size)
    {need : Nat} (hneed : (need : Int) ≤ intMax) (hgrow : size < need)
    (hrealloc : B.realloc w.reallocs (need + 100) = false) :
    (if w.r.dataLength < need then ptpBufferResize B (toSize need) else pure 0) w =
      .ok PtpGeneralError.outOfMem { w with
        r := { w.r with data := none, dataLength := toInt32 (need + 100) }
        reallocs := w.reallocs + 1 } := by
  unfold intMax at hneed
  have htoSize : toSize need = need := by
    unfold toSize
    omega
  rw [if_pos (by omega), htoSize,
    ptpBufferResize_outOfMem hlength (by omega) (by omega) hrealloc]

/-- A buffer length that overflowed can no longer be grown. -/
theorem grow_overflown {w : World σ} {size : Nat} (hlength : w.r.dataLength = toInt32 size)
    (hover : intMax < size) (hbound : (size : Int) ≤ intMax + 100) {need : Nat}
    (hneed : (need : Int) ≤ intMax) :
    (if w.r.dataLength < need then ptpBufferResize B (toSize need) else pure 0) w =
      .error (.panic "You cannot downsize the data buffer (%u -> %u)") w := by
  unfold intMax at hneed hover hbound
  have htoSize : toSize need = need := by
    unfold toSize
    omega
  have hnegative : w.r.dataLength = (size : Int) - 4294967296 := by
    rw [hlength, toInt32]
    omega
  have hdown : need < toSize w.r.dataLength := by
    unfold toSize
    omega
  rw [if_pos (by omega), htoSize]
  simp only [ptpBufferResize, if_pos hdown]

end Primitives

end Libpict
