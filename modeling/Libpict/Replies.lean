import Libpict.DatasetSafety
import Libpict.Objects
import Libpict.Serial

/-! # Replies and the calls that decode them

The six functions that send a command and decode its reply from the shared buffer, in any
order on one runtime. Four of them hold the mutex from the command to the end of the
decoding; `ptp_get_device_info` and `ptp_get_object_info` hold it for the command only.
-/

namespace Libpict

open CInt Exec

variable {σ ι : Type} {B : Backend σ} {fuel : Nat}

/-! ## The calls -/

/-- A call of one of the functions, with what it passes on and what it is to fill. -/
inductive ReplyCall
  | getDeviceInfo (di : PtpDeviceInfo)
  | getStorageIds (memory : Allocator) (allocations : Nat)
  | getStorageInfo (id : UInt32) (si : PtpStorageInfo)
  | getObjectHandles (memory : Allocator) (allocations : Nat) (id format inside : UInt32)
  | getObjectInfo (handle : UInt32) (oi : PtpObjectInfo)
  | getPropDesc (memory : Allocator) (allocations : Nat) (code : UInt32) (pd : PtpPropDesc)

namespace ReplyCall

/-- What a call fills. -/
inductive Output
  | deviceInfo (di : PtpDeviceInfo)
  | words (a : List UInt32)
  | storageInfo (si : PtpStorageInfo)
  | objectInfo (oi : PtpObjectInfo)
  | propDesc (pd : PtpPropDesc)

theorem noParams_le : ([] : List UInt32).length ≤ 5 := by decide

theorem oneParam_le (param : UInt32) : [param].length ≤ 5 := by simp

theorem threeParams_le (first second third : UInt32) : [first, second, third].length ≤ 5 := by simp

def cmd : ReplyCall → PtpCommand
  | getDeviceInfo _ => commandOf 0x1001 [] noParams_le
  | getStorageIds .. => commandOf 0x1004 [] noParams_le
  | getStorageInfo id _ => commandOf 0x1005 [id] (oneParam_le id)
  | getObjectHandles _ _ id format inside =>
      commandOf 0x1007 [id, format, inside] (threeParams_le id format inside)
  | getObjectInfo handle _ => commandOf 0x1008 [handle] (oneParam_le handle)
  | getPropDesc _ _ code _ => commandOf 0x1014 [code] (oneParam_le code)

/-- The function holds the mutex until it has decoded the reply. -/
def locks : ReplyCall → Bool
  | getDeviceInfo _ | getObjectInfo .. => false
  | _ => true

/-- What the function makes of the runtime once `ptp_send` has returned 0: its own result, and
what it fills. The results of the parsers of an object info and of a property description are
not looked at. -/
def decode : ReplyCall → PtpRuntime → Except Halt (Int × Output)
  | getDeviceInfo di, r => do
      let (rc, di, _) ← (ptpParseDeviceInfo r di).run r.load
      pure (rc, .deviceInfo di)
  | getStorageIds memory allocations, r => do
      let payload ← ptpGetPayload r
      let a ← (dupUintArray memory allocations payload).run r.load
      pure (0, .words a)
  | getStorageInfo _ si, r => do
      let (rc, si) ← (ptpParseStorageInfo r si).run r.load
      pure (rc, .storageInfo si)
  | getObjectHandles memory allocations _ _ _, r => do
      let payload ← ptpGetPayload r
      let a ← (dupUintArray memory allocations payload).run r.load
      pure (0, .words a)
  | getObjectInfo _ oi, r => do
      let (_, oi) ← (ptpParseObjectInfo r oi).run r.load
      pure (0, .objectInfo oi)
  | getPropDesc memory allocations _ pd, r => do
      let (_, pd, _) ← (ptpParsePropDesc memory allocations r pd).run r.load
      pure (0, .propDesc pd)

/-- A buffer with these bytes and no others. -/
def exactBuffer (bytes : List UInt8) : Buffer :=
  (⟨bytes.length, fun _ => 0⟩ : Buffer).store 0 bytes

/-- The reply has everything that the function decodes. -/
def Suffices (call : ReplyCall) (r : PtpRuntime) (reply : List UInt8) : Prop :=
  ∃ result, call.decode { r with data := some (exactBuffer reply) } = .ok result

/-- The result comes from the reply alone: it is the same in every buffer that starts with the
reply, and so in one that has nothing else. -/
def DecodedFrom (call : ReplyCall) (r : PtpRuntime) (reply : List UInt8) (result : Int × Output) :
    Prop :=
  ∀ buffer : Buffer, PtpRuntime.Holds { r with data := some buffer } reply →
    call.decode { r with data := some buffer } = .ok result

end ReplyCall

/-! ## What a decoder depends on -/

/-- All that is read in one runtime is read in the other. -/
structure PtpRuntime.ReadsIn (r r' : PtpRuntime) : Prop where
  connectionType : r'.connectionType = r.connectionType
  dataLength : r'.dataLength = r.dataLength
  load : ∀ {offset size found}, r.load offset size = .ok found → r'.load offset size = .ok found

namespace PtpRuntime.ReadsIn

variable {r r' : PtpRuntime} (hreads : r.ReadsIn r')

include hreads

theorem loadLe {size value : Nat} {offset : Int} (hload : r.loadLe size offset = .ok value) :
    r'.loadLe size offset = .ok value := by
  unfold PtpRuntime.loadLe at *
  cases hfound : r.load offset size with
  | error reason =>
      rw [hfound] at hload
      cases hload
  | ok found =>
      rw [hfound] at hload
      rw [hreads.load hfound]
      exact hload

theorem payload {b : Int} (hpayload : ptpGetPayload r = .ok b) : ptpGetPayload r' = .ok b := by
  have hbulk {b : Int} (hrun : (r.loadU16 4 >>= fun type =>
      if type = ptpPacketTypeResponse then pure 12
      else if type = ptpPacketTypeCommand then pure 28 else pure 12) = Except.ok b) :
      (r'.loadU16 4 >>= fun type => if type = ptpPacketTypeResponse then pure 12
        else if type = ptpPacketTypeCommand then pure 28 else pure 12) = Except.ok b :=
    ok_bind_mono hreads.loadLe id hrun
  unfold ptpGetPayload at *
  rw [hreads.connectionType]
  cases hconn : r.connectionType with
  | ip =>
      rw [hconn] at hpayload
      refine ok_bind_mono hreads.loadLe (fun {startType b} hrest => ?_) hpayload
      split at hrest
      · cases hrest
      · rw [if_neg ‹_›]
        refine ok_bind_mono hreads.loadLe (fun {startLength b} hrest' => ?_) hrest
        exact ok_bind_mono hreads.loadLe id hrest'
  | usb =>
      rw [hconn] at hpayload
      exact hbulk hpayload
  | ipUsb =>
      rw [hconn] at hpayload
      exact hbulk hpayload
  | ble =>
      rw [hconn] at hpayload
      exact hbulk hpayload

theorem payloadLength {length : Int} (hlength : ptpGetPayloadLength r = .ok length) :
    ptpGetPayloadLength r' = .ok length := by
  have hbulk {b : Int} (hrun : (r.loadU32 0 >>= fun length =>
      pure (toInt32 (toUInt32 (length - 12)))) = Except.ok b) :
      (r'.loadU32 0 >>= fun length => pure (toInt32 (toUInt32 (length - 12)))) = Except.ok b :=
    ok_bind_mono hreads.loadLe id hrun
  unfold ptpGetPayloadLength at *
  rw [hreads.connectionType]
  cases hconn : r.connectionType with
  | ip =>
      rw [hconn] at hlength
      refine ok_bind_mono hreads.loadLe (fun {startType b} hrest => ?_) hlength
      split at hrest
      · cases hrest
      · rw [if_neg ‹_›]
        exact ok_bind_mono hreads.loadLe id hrest
  | usb =>
      rw [hconn] at hlength
      exact hbulk hlength
  | ipUsb =>
      rw [hconn] at hlength
      exact hbulk hlength
  | ble =>
      rw [hconn] at hlength
      exact hbulk hlength

/-- What is decoded in one runtime is decoded in the other. -/
theorem decode {call : ReplyCall} {result : Int × ReplyCall.Output}
    (hdecoded : call.decode r = .ok result) : call.decode r' = .ok result := by
  have hmono {α : Type} {x : Reader UInt8 Halt α} {a : α} (hrun : x.run r.load = .ok a) :
      x.run r'.load = .ok a := Reader.run_mono hreads.load hrun
  cases call with
  | getDeviceInfo di =>
      refine ok_bind_mono (fun {a} hparse => ?_) id hdecoded
      unfold ptpParseDeviceInfo at *
      rw [hreads.dataLength]
      exact Reader.run_ofExcept_mono hreads.payload hmono hparse
  | getStorageIds => exact ok_bind_mono hreads.payload (ok_bind_mono hmono id) hdecoded
  | getStorageInfo storage si =>
      refine ok_bind_mono (fun {a} hparse => ?_) id hdecoded
      unfold ptpParseStorageInfo at *
      refine Reader.run_ofExcept_mono hreads.payloadLength (fun {length b} hrest => ?_) hparse
      split at hrest
      · rw [if_pos ‹_›]
        exact hrest
      · rw [if_neg ‹_›]
        exact Reader.run_ofExcept_mono hreads.payload hmono hrest
  | getObjectHandles => exact ok_bind_mono hreads.payload (ok_bind_mono hmono id) hdecoded
  | getObjectInfo handle oi =>
      refine ok_bind_mono (fun {a} hparse => ?_) id hdecoded
      exact Reader.run_ofExcept_mono hreads.payload hmono hparse
  | getPropDesc memory allocations code pd =>
      refine ok_bind_mono (fun {a} hparse => ?_) id hdecoded
      exact Reader.run_ofExcept_mono hreads.payload hmono hparse

end PtpRuntime.ReadsIn

/-- A reply that is all there is to read is also found at the beginning of a larger buffer. -/
theorem PtpRuntime.Holds.readsIn {r : PtpRuntime} {reply : List UInt8} {buffer : Buffer}
    (hholds : PtpRuntime.Holds { r with data := some buffer } reply) :
    PtpRuntime.ReadsIn { r with data := some (ReplyCall.exactBuffer reply) }
      { r with data := some buffer } where
  connectionType := rfl
  dataLength := rfl
  load {offset size found} hload := by
    have hexact : PtpRuntime.Holds { r with data := some (ReplyCall.exactBuffer reply) } reply :=
      ⟨_, rfl, le_rfl, Buffer.store_slice_self _ _ _⟩
    by_cases hinside : 0 ≤ offset ∧ 0 ≤ size ∧ offset + size ≤ reply.length
    · obtain ⟨offset, rfl⟩ := Int.eq_ofNat_of_zero_le hinside.1
      obtain ⟨size, rfl⟩ := Int.eq_ofNat_of_zero_le hinside.2.1
      have hle : offset + size ≤ reply.length := by omega
      rw [hexact.load offset size hle] at hload
      rw [hholds.load offset size hle]
      exact hload
    · have hsize : ((ReplyCall.exactBuffer reply).size : Int) = reply.length := rfl
      have houtside : offset < 0 ∨ size < 0 ∨
          ((ReplyCall.exactBuffer reply).size : Int) < offset + size := by omega
      rw [PtpRuntime.load_undefined rfl houtside] at hload
      cases hload

/-- A reply that suffices is decoded from itself alone. -/
theorem ReplyCall.Suffices.decodedFrom {call : ReplyCall} {r : PtpRuntime} {reply : List UInt8}
    {result : Int × ReplyCall.Output} (hsuffices : call.Suffices r reply) (hholds : r.Holds reply)
    (hdecoded : call.decode r = .ok result) : call.DecodedFrom r reply result := by
  obtain ⟨result', hexact⟩ := hsuffices
  have hall (buffer : Buffer) (hbuffer : PtpRuntime.Holds { r with data := some buffer } reply) :=
    hbuffer.readsIn.decode hexact
  obtain ⟨buffer, hdata, hrest⟩ := hholds
  have hsame : { r with data := some buffer } = r := by rw [← hdata]
  have hfound := hall buffer ⟨buffer, rfl, hrest⟩
  rw [hsame, hdecoded] at hfound
  obtain rfl := Except.ok.inj hfound
  exact hall

/-! ## The system -/

/-- What a call has decoded: the runtime it found, its result and what it filled. -/
abbrev Decoded := PtpRuntime × Int × ReplyCall.Output

/-- Where a call stands around its `ptp_send`. -/
inductive Outer
  /-- Before its own `ptp_mutex_lock`. -/
  | wanting
  /-- In `ptp_send`. -/
  | sending
  /-- Before it decodes the reply. -/
  | decoding
  /-- Before its own `ptp_mutex_unlock`. -/
  | leaving (decoded : Option Decoded)
  | returned (decoded : Option Decoded)

/-- The calls, and how the attempts of their commands are cut. -/
structure ReplyCalls (B : Backend σ) (fuel : Nat) (ι : Type) where
  call : ι → ReplyCall
  cut : ∀ i, Cut B fuel (.send (call i).cmd)

/-- Their commands. -/
def ReplyCalls.commands (calls : ReplyCalls B fuel ι) : Calls B fuel ι where
  op i := .send (calls.call i).cmd
  cut := calls.cut

/-- The commands in progress, the call that holds the mutex around its command, where each call
stands, and what the commands have done so far. The mutex is recursive: a call that owns it
takes it again for its command. -/
structure Replies (ι σ : Type) extends System ι σ where
  owner : Option ι
  outer : ι → Outer
  trace : Trace ι

variable [DecidableEq ι]

/-- One call makes a step; a step of its command is shown. -/
inductive Replies.Step (calls : ReplyCalls B fuel ι) :
    Replies ι σ → ι → Option Action → Replies ι σ → Prop
  | lock {s : Replies ι σ} {i : ι} : s.outer i = .wanting → (calls.call i).locks = true →
      s.owner = none → s.holder = none →
      Step calls s i none ⟨⟨locked s.world, s.holder, s.stage⟩, some i,
        Function.update s.outer i .sending, s.trace⟩
  | begin {s : Replies ι σ} {i : ι} : s.outer i = .wanting → (calls.call i).locks = false →
      Step calls s i none ⟨s.toSystem, s.owner, Function.update s.outer i .sending, s.trace⟩
  | send {s : Replies ι σ} {i : ι} {action : Action} {system : System ι σ} :
      s.outer i = .sending → s.toSystem.Step calls.commands i action system →
      (action = .acquire → s.owner = none ∨ s.owner = some i) →
      Step calls s i (some action) ⟨system, s.owner, s.outer, s.trace ++ [(i, action)]⟩
  | fail {s : Replies ι σ} {i : ι} {rc : Int} : s.outer i = .sending →
      s.stage i = .returned rc → rc ≠ 0 →
      Step calls s i none ⟨s.toSystem, s.owner, Function.update s.outer i (.leaving none), s.trace⟩
  | sent {s : Replies ι σ} {i : ι} : s.outer i = .sending → s.stage i = .returned 0 →
      Step calls s i none ⟨s.toSystem, s.owner, Function.update s.outer i .decoding, s.trace⟩
  | decode {s : Replies ι σ} {i : ι} {result : Int × ReplyCall.Output} :
      s.outer i = .decoding → (calls.call i).decode s.world.r = .ok result →
      Step calls s i none ⟨s.toSystem, s.owner,
        Function.update s.outer i (.leaving (some (s.world.r, result))), s.trace⟩
  | unlock {s : Replies ι σ} {i : ι} {decoded : Option Decoded} :
      s.outer i = .leaving decoded → (calls.call i).locks = true →
      Step calls s i none ⟨⟨unlocked s.world, s.holder, s.stage⟩, none,
        Function.update s.outer i (.returned decoded), s.trace⟩
  | leave {s : Replies ι σ} {i : ι} {decoded : Option Decoded} :
      s.outer i = .leaving decoded → (calls.call i).locks = false →
      Step calls s i none ⟨s.toSystem, s.owner, Function.update s.outer i (.returned decoded),
        s.trace⟩

inductive Replies.Reaches (calls : ReplyCalls B fuel ι)
    (allowed : Replies ι σ → ι → Option Action → Prop) (s : Replies ι σ) : Replies ι σ → Prop
  | start : Reaches calls allowed s s
  | step {v v' : Replies ι σ} {i : ι} {action : Option Action} : Reaches calls allowed s v →
      v.Step calls i action v' → allowed v i action → Reaches calls allowed s v'

/-- All calls are about to be made on a runtime whose mutex is free. -/
structure Replies.Starts (s : Replies ι σ) : Prop where
  commands : s.toSystem.Starts
  owner : s.owner = none
  outer : ∀ i, s.outer i = .wanting
  trace : s.trace = []

/-- What has been read since the last write of the call. -/
def ownReply (trace : Trace ι) (i : ι) : List UInt8 := readBytes (lastReads (callsOf i trace))

/-- The runtime holds the reply to the call. -/
def Replied (trace : Trace ι) (i : ι) (r : PtpRuntime) : Prop :=
  r.Holds (ownReply trace i) ∧ BulkReply (ownReply trace i)

/-- Every call that has decoded something has found its own reply in the buffer, and decoded
nothing else. -/
def Replies.OwnReplies (calls : ReplyCalls B fuel ι) (s : Replies ι σ) : Prop := ∀ i r result,
  s.outer i = .leaving (some (r, result)) ∨ s.outer i = .returned (some (r, result)) →
    Replied s.trace i r ∧ (calls.call i).DecodedFrom r (ownReply s.trace i) result

/-- No call exchanges anything while the reply of a call that does not hold the mutex is still
to be decoded. -/
def Replies.Undisturbed (calls : ReplyCalls B fuel ι) (s : Replies ι σ) (i : ι)
    (action : Option Action) : Prop := ∀ made, action = some (.exchange made) →
  ∀ j, j ≠ i → (calls.call j).locks = false → s.stage j = .returned 0 →
    s.outer j ≠ .sending ∧ s.outer j ≠ .decoding

/-- A call that decodes has been sent all that it decodes. -/
def Replies.Supplied (calls : ReplyCalls B fuel ι) (s : Replies ι σ) (i : ι)
    (action : Option Action) : Prop :=
  action = none → s.outer i = .decoding → (calls.call i).Suffices s.world.r (ownReply s.trace i)

/-! ## Where the reply is -/

/-- The command has been answered and its result, if there is one, is 0. -/
def Stage.HasReply : Stage σ → Prop
  | answering => True
  | leaving rc | returned rc => rc = 0
  | _ => False

section Acts

variable {op : Operation} {cut : Cut B fuel op} {stage stage' : Stage σ} {w w' w₀ : World σ}
  {action : Action} {n : UInt32} {made : List Call}

theorem Acts.replied (hacts : Acts cut stage w action .counting w')
    (hprogress : stage.Progress B fuel op n made (calm w)) : action.calls = [] ∧
      w'.r.Holds (readBytes (lastReads made)) ∧ BulkReply (readBytes (lastReads made)) := by
  cases hacts with
  | answered =>
      obtain ⟨w₀, hbegun, hsame⟩ := hprogress
      exact ⟨rfl, hbegun.exchanged (hbegun.first (by decide) hsame)⟩
  | answeredAgain =>
      obtain ⟨w₀, u, hbegun, hfirst, hsame⟩ := hprogress
      exact ⟨rfl, hbegun.exchanged (hbegun.second hfirst hsame)⟩

/-- Only an exchange changes the buffer, and only under the mutex. -/
theorem Acts.data (hacts : Acts cut stage w action stage' w') :
    w'.r.data = w.r.data ∨ (∃ calls, action = .exchange calls) ∧ stage.Holds := by
  cases hacts with
  | prepare => exact .inr ⟨⟨_, rfl⟩, trivial⟩
  | trying => exact .inr ⟨⟨_, rfl⟩, trivial⟩
  | retrying => exact .inr ⟨⟨_, rfl⟩, trivial⟩
  | answer hrun =>
      rw [Acts.answer_world hrun]
      exact .inl rfl
  | _ => exact .inl rfl

theorem Acts.hasReply (hacts : Acts cut stage w action stage' w') (hreply : stage'.HasReply) :
    (stage.HasReply ∨ stage = .counting) ∧ action.calls = [] ∧ w'.r.data = w.r.data := by
  cases hacts with
  | count => exact ⟨.inr rfl, rfl, rfl⟩
  | answer hrun =>
      rw [Acts.answer_world hrun]
      exact ⟨.inl trivial, rfl, rfl⟩
  | leave => exact ⟨.inl hreply, rfl, rfl⟩
  | refused => exact absurd hreply (by decide : ¬(PtpGeneralError.ioErr = 0))
  | stop => exact absurd hreply (by decide : ¬(PtpGeneralError.ioErr = 0))
  | switch => exact absurd hreply (by decide : ¬(PtpGeneralError.ioErr = 0))
  | set => exact absurd hreply (by decide : ¬(PtpGeneralError.ioErr = 0))
  | _ => exact hreply.elim

end Acts

/-- The call has to unlock the mutex, if it has locked it. -/
def Outer.Inside : Outer → Prop
  | sending | decoding | leaving _ => True
  | _ => False

/-- The reply, if there is one, is still to be decoded. -/
def Outer.Waits : Outer → Prop
  | sending | decoding => True
  | _ => False

/-- The command is over. -/
def Outer.Past : Outer → Prop
  | decoding | leaving _ | returned _ => True
  | _ => False

omit [DecidableEq ι] in
/-- How deep the mutex is does not matter while no command holds it. -/
theorem System.Excludes.depth {s : System ι σ} (hexcludes : s.Excludes) {w : World σ}
    (hmutex : w.r.mutex ≠ none) : (⟨w, s.holder, s.stage⟩ : System ι σ).Excludes :=
  ⟨hmutex, hexcludes.keeps, hexcludes.holds⟩

theorem System.Serial.depth {calls : Calls B fuel ι} {s : System ι σ} {t : Int}
    {trace : Trace ι} (hserial : s.Serial calls t trace) (hholder : s.holder = none)
    {mutex : Option Nat} (hmutex : mutex ≠ none) :
    (⟨{ s.world with r := { s.world.r with mutex := mutex } }, s.holder, s.stage⟩ :
      System ι σ).Serial calls t trace where
  excludes := hserial.excludes.depth hmutex
  connection := hserial.connection
  packet := hserial.packet
  allocated := hserial.allocated
  transaction := hserial.transaction
  counter := hserial.counter
  progress i := by
    refine (hserial.progress i).loose fun hholds => ?_
    have hheld := (hserial.excludes.holds i).mp hholds
    rw [hholder] at hheld
    cases hheld
  ended := hserial.ended
  answered := hserial.answered
  numbered := hserial.numbered
  once := hserial.once
  entered := hserial.entered
  gone := hserial.gone
  unmixed := hserial.unmixed

/-- What holds of the calls at any time. -/
structure Replies.Inv (calls : ReplyCalls B fuel ι) (t : Int) (s : Replies ι σ) : Prop where
  serial : s.toSystem.Serial calls.commands t s.trace
  owner : ∀ i, s.owner = some i ↔ (calls.call i).locks = true ∧ (s.outer i).Inside
  inner : ∀ i, s.holder = some i → s.owner = none ∨ s.owner = some i
  wanting : ∀ i, s.outer i = .wanting → s.stage i = .entering
  past : ∀ i, (s.outer i).Past → ∃ rc, s.stage i = .returned rc
  decoding : ∀ i, s.outer i = .decoding → s.stage i = .returned 0
  counting : ∀ i, s.stage i = .counting → Replied s.trace i s.world.r
  waiting : ∀ i, (s.stage i).HasReply → (s.outer i).Waits → Replied s.trace i s.world.r
  own : s.OwnReplies calls

variable {calls : ReplyCalls B fuel ι} {t : Int} {s s' : Replies ι σ} {i : ι}

theorem Replies.Starts.inv (hstarts : s.Starts) (hprovided : Provided s.world)
    (hconn : s.world.r.connectionType ≠ .ip) : s.Inv calls s.world.r.transaction where
  serial := hstarts.trace ▸ hstarts.commands.serial hprovided hconn
  owner i := by rw [hstarts.owner, hstarts.outer i]; simp [Outer.Inside]
  inner i hholder := .inl hstarts.owner
  wanting i _ := hstarts.commands.stage i
  past i hpast := by rw [hstarts.outer i] at hpast; exact hpast.elim
  decoding i hdecoding := by rw [hstarts.outer i] at hdecoding; cases hdecoding
  counting i hcounting := by rw [hstarts.commands.stage i] at hcounting; cases hcounting
  waiting i hreply := by rw [hstarts.commands.stage i] at hreply; exact hreply.elim
  own i r result h := by rw [hstarts.outer i] at h; rcases h with h | h <;> cases h

/-- A call moves around its command: the buffer, the commands and what they have done stay. -/
theorem Replies.Inv.around (hinv : s.Inv calls t) {next : Outer} {mutex : Option Nat}
    {owner : Option ι}
    (hserial : (⟨{ s.world with r := { s.world.r with mutex := mutex } }, s.holder, s.stage⟩ :
      System ι σ).Serial calls.commands t s.trace)
    (howner : ∀ j, owner = some j ↔
      (calls.call j).locks = true ∧ (Function.update s.outer i next j).Inside)
    (hinner : ∀ j, s.holder = some j → owner = none ∨ owner = some j)
    (hwanting : next ≠ .wanting) (hpast : next.Past → ∃ rc, s.stage i = .returned rc)
    (hdecoding : next = .decoding → s.stage i = .returned 0)
    (hwaits : next.Waits → (s.stage i).HasReply → (s.outer i).Waits)
    (hown : ∀ r result, next = .leaving (some (r, result)) ∨ next = .returned (some (r, result)) →
      Replied s.trace i r ∧ (calls.call i).DecodedFrom r (ownReply s.trace i) result) :
    (⟨⟨{ s.world with r := { s.world.r with mutex := mutex } }, s.holder, s.stage⟩, owner,
      Function.update s.outer i next, s.trace⟩ : Replies ι σ).Inv calls t where
  serial := hserial
  owner := howner
  inner := hinner
  wanting j h := by
    by_cases hij : j = i
    · subst hij
      exact absurd (by simpa using h) hwanting
    · exact hinv.wanting j (by simpa [Function.update_of_ne hij] using h)
  past j h := by
    by_cases hij : j = i
    · subst hij
      exact hpast (by simpa using h)
    · exact hinv.past j (by simpa [Function.update_of_ne hij] using h)
  decoding j h := by
    by_cases hij : j = i
    · subst hij
      exact hdecoding (by simpa using h)
    · exact hinv.decoding j (by simpa [Function.update_of_ne hij] using h)
  counting := hinv.counting
  waiting j hreply h := by
    by_cases hij : j = i
    · subst hij
      exact hinv.waiting j hreply (hwaits (by simpa using h) hreply)
    · exact hinv.waiting j hreply (by simpa [Function.update_of_ne hij] using h)
  own j r result h := by
    by_cases hij : j = i
    · subst hij
      exact hown r result (by simpa using h)
    · exact hinv.own j r result (by simpa [Function.update_of_ne hij] using h)

/-- A call that stays inside, or that does not lock, leaves the owner as it is. -/
theorem Replies.Inv.owner_update (hinv : s.Inv calls t) {next : Outer}
    (hsame : (calls.call i).locks = true → ((s.outer i).Inside ↔ next.Inside)) (j : ι) :
    s.owner = some j ↔
      (calls.call j).locks = true ∧ (Function.update s.outer i next j).Inside := by
  rw [hinv.owner j]
  by_cases hij : j = i
  · subst hij
    rw [Function.update_self]
    exact and_congr_right hsame
  · rw [Function.update_of_ne hij]

theorem Replied.of_same {trace trace' : Trace ι} {r r' : PtpRuntime} (hreplied : Replied trace i r)
    (hdata : r'.data = r.data) (hcalls : callsOf i trace' = callsOf i trace) :
    Replied trace' i r' := by
  unfold Replied ownReply PtpRuntime.Holds at *
  rw [hdata, hcalls]
  exact hreplied

theorem callsOf_other {j : ι} (hij : j ≠ i) (action : Action) (trace : Trace ι) :
    callsOf j (trace ++ [(i, action)]) = callsOf j trace := by
  rw [callsOf_snoc, if_neg (Ne.symm hij), List.append_nil]

theorem callsOf_quiet {action : Action} (hquiet : action.calls = []) (trace : Trace ι) :
    callsOf i (trace ++ [(i, action)]) = callsOf i trace := by
  rw [callsOf_snoc, if_pos rfl, hquiet, List.append_nil]

/-- While a reply waits to be decoded, the commands of other calls leave the buffer alone. -/
theorem Replies.Inv.data_other (hinv : s.Inv calls t) {action : Action} {stage' : Stage σ}
    {w' : World σ} (hacts : Acts (calls.cut i) (s.stage i) s.world action stage' w')
    (hundisturbed : s.Undisturbed calls i (some action)) {j : ι} (hij : j ≠ i)
    (hreply : (s.stage j).HasReply) (hwaits : (s.outer j).Waits) :
    w'.r.data = s.world.r.data := by
  refine hacts.data.resolve_right fun ⟨⟨made, hmade⟩, hholds⟩ => ?_
  have hloose := hinv.serial.excludes.alone hij hholds
  have hreturned : s.stage j = .returned 0 := by
    generalize s.stage j = stage at hreply hloose
    cases stage with
    | returned rc => rw [show rc = 0 from hreply]
    | answering => exact absurd trivial hloose
    | leaving => exact absurd trivial hloose
    | _ => exact hreply.elim
  cases hlocks : (calls.call j).locks with
  | true =>
      -- it still owns the mutex
      have hinside : (s.outer j).Inside := by
        generalize s.outer j = outer at hwaits
        cases outer <;> trivial
      have howner := (hinv.owner j).mpr ⟨hlocks, hinside⟩
      rcases hinv.inner i ((hinv.serial.excludes.holds i).mp hholds) with hnone | hsome
      · rw [howner] at hnone
        cases hnone
      · rw [howner] at hsome
        exact hij (Option.some.inj hsome)
  | false =>
      obtain ⟨hsending, hdecoding⟩ := hundisturbed made (by rw [hmade]) j hij hlocks hreturned
      generalize s.outer j = outer at hwaits hsending hdecoding
      cases outer with
      | sending => exact hsending rfl
      | decoding => exact hdecoding rfl
      | _ => exact hwaits.elim

/-- A step of a command. -/
theorem Replies.Inv.send (hinv : s.Inv calls t) {action : Action} {system : System ι σ}
    (hsending : s.outer i = .sending) (hstep : s.toSystem.Step calls.commands i action system)
    (howned : action = .acquire → s.owner = none ∨ s.owner = some i)
    (hundisturbed : s.Undisturbed calls i (some action)) :
    (⟨system, s.owner, s.outer, s.trace ++ [(i, action)]⟩ : Replies ι σ).Inv calls t := by
  have hserial := hinv.serial.step hstep
  obtain ⟨hacts, _⟩ := hstep
  have hne : ∀ j, s.outer j ≠ .sending → j ≠ i := fun j h hij => h (hij ▸ hsending)
  refine ⟨hserial, hinv.owner, fun j hholder => ?_, fun j h => ?_, fun j h => ?_, fun j h => ?_,
    fun j h => ?_, fun j hreply hwaits => ?_, fun j r result h => ?_⟩
  · cases action with
    | acquire => exact Option.some.inj hholder ▸ howned rfl
    | release => cases hholder
    | _ => exact hinv.inner j hholder
  · have h' : s.outer j = .wanting := h
    dsimp only
    rw [Function.update_of_ne (hne j (by rw [h']; simp))]
    exact hinv.wanting j h
  · have hij : j ≠ i := by
      rintro rfl
      rw [hsending] at h
      exact h
    dsimp only
    rw [Function.update_of_ne hij]
    exact hinv.past j h
  · have h' : s.outer j = .decoding := h
    dsimp only
    rw [Function.update_of_ne (hne j (by rw [h']; simp))]
    exact hinv.decoding j h
  · dsimp only at h ⊢
    by_cases hij : j = i
    · subst hij
      rw [Function.update_self] at h
      rw [h] at hacts
      obtain ⟨hquiet, hreplied⟩ := hacts.replied (hinv.serial.progress j)
      exact Replied.of_same hreplied rfl (callsOf_quiet hquiet _)
    · rw [Function.update_of_ne hij] at h
      have hloose := hinv.serial.excludes.alone (Ne.symm hij) (show (s.stage j).Holds by rw [h]; trivial)
      have hdata := hacts.data.resolve_right fun hexchange => hloose hexchange.2
      exact (hinv.counting j h).of_same hdata (callsOf_other hij _ _)
  · dsimp only at hreply ⊢
    by_cases hij : j = i
    · subst hij
      rw [Function.update_self] at hreply
      obtain ⟨hbefore, hquiet, hdata⟩ := hacts.hasReply hreply
      rcases hbefore with hbefore | hcounting
      · exact (hinv.waiting j hbefore hwaits).of_same hdata (callsOf_quiet hquiet _)
      · exact (hinv.counting j hcounting).of_same hdata (callsOf_quiet hquiet _)
    · rw [Function.update_of_ne hij] at hreply
      have hdata := hinv.data_other hacts hundisturbed hij hreply hwaits
      exact (hinv.waiting j hreply hwaits).of_same hdata (callsOf_other hij _ _)
  · have hij : j ≠ i := by
      rintro rfl
      rcases h with h | h <;> exact absurd (hsending.symm.trans h) (by simp)
    have hsame : ownReply (s.trace ++ [(i, action)]) j = ownReply s.trace j := by
      unfold ownReply
      rw [callsOf_other hij]
    obtain ⟨hreplied, hdecoded⟩ := hinv.own j r result h
    exact ⟨hreplied.of_same rfl (callsOf_other hij _ _), hsame ▸ hdecoded⟩

/-- The mutex is there, and locking or unlocking does not take it away. -/
theorem Replies.Inv.step (hinv : s.Inv calls t) {action : Option Action}
    (hstep : s.Step calls i action s') (hundisturbed : s.Undisturbed calls i action)
    (hsupplied : s.Supplied calls i action) : s'.Inv calls t := by
  have hmutex := hinv.serial.excludes.mutex
  cases hstep with
  | lock hwanting hlocks howner hholder =>
      refine hinv.around (hinv.serial.depth hholder ?_) (fun j => ?_) (fun j hheld => ?_) (by simp)
        (fun h => h.elim) (by simp) (fun _ hreply => ?_) (by simp)
      · simpa using hmutex
      · by_cases hij : j = i
        · subst hij
          simp [hlocks, Outer.Inside]
        · rw [Function.update_of_ne hij, ← hinv.owner j, howner]
          simp [Ne.symm hij]
      · rw [hholder] at hheld
        cases hheld
      · rw [hinv.wanting i hwanting] at hreply
        exact hreply.elim
  | begin hwanting hlocks =>
      refine hinv.around hinv.serial (hinv.owner_update ?_) hinv.inner
        (by simp) (fun h => h.elim) (by simp) (fun _ hreply => ?_) (by simp)
      · simp [hlocks]
      · rw [hinv.wanting i hwanting] at hreply
        exact hreply.elim
  | send hsending hstep howned => exact hinv.send hsending hstep howned hundisturbed
  | fail hsending hreturned _ =>
      refine hinv.around hinv.serial (hinv.owner_update ?_) hinv.inner
        (by simp) (fun _ => ⟨_, hreturned⟩) (by simp) (fun h => h.elim) (by simp)
      rw [hsending]
      exact fun _ => Iff.rfl
  | sent hsending hreturned =>
      refine hinv.around hinv.serial (hinv.owner_update ?_) hinv.inner
        (by simp) (fun _ => ⟨_, hreturned⟩) (fun _ => hreturned) (fun _ _ => ?_) (by simp)
      · rw [hsending]
        exact fun _ => Iff.rfl
      · rw [hsending]
        trivial
  | decode hdecoding hdecoded =>
      have hreturned := hinv.decoding i hdecoding
      refine hinv.around hinv.serial (hinv.owner_update ?_) hinv.inner
        (by simp) (fun _ => ⟨_, hreturned⟩) (by simp) (fun h => h.elim) ?_
      · rw [hdecoding]
        exact fun _ => Iff.rfl
      · rintro r result (h | h)
        · obtain ⟨rfl, rfl⟩ := Prod.mk.inj (Option.some.inj (Outer.leaving.inj h))
          have hreplied := hinv.waiting i (by rw [hreturned]; rfl) (by rw [hdecoding]; trivial)
          exact ⟨hreplied, (hsupplied rfl hdecoding).decodedFrom hreplied.1 hdecoded⟩
        · cases h
  | @unlock decoded hleaving hlocks =>
      obtain ⟨rc, hreturned⟩ := hinv.past i (by rw [hleaving]; trivial)
      have howner : s.owner = some i := (hinv.owner i).mpr ⟨hlocks, by rw [hleaving]; trivial⟩
      have hholder : s.holder = none := by
        by_contra hheld
        obtain ⟨j, hj⟩ := Option.ne_none_iff_exists'.mp hheld
        have hji : s.owner = some j := (hinv.inner j hj).resolve_left (by simp [howner])
        obtain rfl : i = j := Option.some.inj (howner.symm.trans hji)
        have hholds := (hinv.serial.excludes.holds i).mpr hj
        rw [hreturned] at hholds
        exact hholds
      refine hinv.around (hinv.serial.depth hholder ?_) (fun j => ?_) (fun j hheld => .inl rfl)
        (by simp) (fun _ => ⟨rc, hreturned⟩) (by simp) (fun h => h.elim) ?_
      · simpa using hmutex
      · by_cases hij : j = i
        · subst hij
          simp [Outer.Inside]
        · rw [Function.update_of_ne hij, ← hinv.owner j, howner]
          simp [Ne.symm hij]
      · rintro r result (h | h)
        · cases h
        · exact hinv.own i r result (.inl (by rw [hleaving, Outer.returned.inj h]))
  | @leave decoded hleaving hlocks =>
      obtain ⟨rc, hreturned⟩ := hinv.past i (by rw [hleaving]; trivial)
      refine hinv.around hinv.serial (hinv.owner_update ?_) hinv.inner
        (by simp) (fun _ => ⟨rc, hreturned⟩) (by simp) (fun h => h.elim) ?_
      · simp [hlocks]
      · rintro r result (h | h)
        · cases h
        · exact hinv.own i r result (.inl (by rw [hleaving, Outer.returned.inj h]))

/-- In a run in which no call exchanges anything while the reply of a call that does not hold
the mutex is still to be decoded, and in which the calls that decode have been sent all that they
decode, every call decodes its own reply and nothing else. -/
theorem ownReplies_of_undisturbed (calls : ReplyCalls B fuel ι) {s v : Replies ι σ}
    (hstarts : s.Starts) (hprovided : Provided s.world)
    (hconn : s.world.r.connectionType = .usb ∨ s.world.r.connectionType = .ipUsb)
    (hrun : s.Reaches calls
      (fun u i action => u.Undisturbed calls i action ∧ u.Supplied calls i action) v) :
    v.OwnReplies calls := by
  have hip : s.world.r.connectionType ≠ .ip := by
    rcases hconn with hconn | hconn <;> simp [hconn]
  have hinv : v.Inv calls s.world.r.transaction := by
    induction hrun with
    | start => exact hstarts.inv hprovided hip
    | step _ hstep hallowed ih => exact ih.step hstep hallowed.1 hallowed.2
  exact hinv.own

/-! ## A reply that is overwritten -/

/-- The steps of a command around which the call does not move. -/
theorem Replies.Reaches.inside {calls : ReplyCalls B fuel ι} {s v : Replies ι σ}
    {allowed : Replies ι σ → ι → Option Action → Prop} (hrun : s.Reaches calls allowed v)
    (hallowed : ∀ (u : Replies ι σ) (action : Action), u.outer = v.outer → allowed u i (some action))
    (hsending : v.outer i = .sending)
    (howned : v.owner = none ∨ v.owner = some i) {more : Trace ι} {system : System ι σ}
    (hmoves : v.toSystem.Reaches calls.commands (fun _ _ _ => True) more system)
    (halone : ∀ event ∈ more, event.1 = i) :
    s.Reaches calls allowed ⟨system, v.owner, v.outer, v.trace ++ more⟩ := by
  induction hmoves with
  | start => simpa using hrun
  | @step trace u u' j action _ hstep _ ih =>
      have hbefore := ih fun event hevent => halone event (List.mem_append_left _ hevent)
      obtain rfl : j = i := halone (j, action) (by simp)
      rw [← List.append_assoc]
      exact hbefore.step (.send hsending hstep fun _ => howned) (hallowed _ _ rfl)

section Overwritten

theorem ok_of_isSome {α : Type} {x : Except Halt α} (hsome : x.toOption.isSome = true) :
    ∃ a, x = .ok a := by
  cases x with
  | error e => cases hsome
  | ok a => exact ⟨a, rfl⟩

/-- One call that decodes without the mutex, and one that holds it. -/
def overwritingCalls : ReplyCalls scripted 8 Bool where
  call i := if i then .getDeviceInfo blankDeviceInfo else .getStorageIds zeroedMemory 0
  cut _ := .rounds scripted 8 _

/-- The device answers both commands: with a device info, all of whose numbers are 0 and whose
lists are empty, and with the list of one storage. -/
def overwritingStart : Replies Bool (List (Option (List UInt8))) where
  world := scriptedWorld 512 [
    some (Container.bytes 2 ⟨0x1001, 0, List.replicate 35 0⟩ ++ okResponse),
    some (Container.bytes 2 ⟨0x1004, 1, [1, 0, 0, 0, 1, 0, 1, 0]⟩ ++ Container.bytes 3 ⟨0x2001, 1, []⟩)]
  holder := none
  stage _ := .entering
  owner := none
  outer _ := .wanting
  trace := []

theorem overwritingStart_starts : overwritingStart.Starts :=
  ⟨⟨rfl, rfl, fun _ => rfl⟩, rfl, fun _ => rfl, rfl⟩

/-- What has been read of the reply behind `before` calls. -/
def replyBehind (before : Nat) (log : List Call) : List UInt8 := readBytes (lastReads (log.drop before))

/-- The two commands, the second inside the mutex of its own function: the logs behind their
attempts, the runtimes behind them, and whether both went through. -/
def bothSent : M (List (Option (List UInt8))) (List Call × PtpRuntime × List Call × PtpRuntime × Bool) :=
  do
    let (log, rc, code) ← inOneAttempt (.send (overwritingCalls.call true).cmd)
    let r ← runtime
    ptpMutexLock
    let (log', rc', code') ← inOneAttempt (.send (overwritingCalls.call false).cmd)
    let r' ← runtime
    pure (log, r, log', r', decide (rc = 0 ∧ code = 0 ∧ rc' = 0 ∧ code' = 0) &&
      !r.operationKillSwitch)

/-- The commands of `bothSent`, one by one. -/
structure BothSent (w₁ w₂ : World (List (Option (List UInt8)))) (log log' : List Call) : Prop where
  first : ∃ w₀ v u, (Operation.send (overwritingCalls.call true).cmd).prepare scripted
      (locked overwritingStart.world) = .ok () w₀ ∧
    (Operation.send (overwritingCalls.call true).cmd).sendTry scripted 8 w₀ = .ok 0 v ∧
    v.log = log ∧ Fits (v.r.transaction + 1) ∧
    ptpCheckRc { v with r := { v.r with transaction := v.r.transaction + 1 } } = .ok 0 u ∧
    w₁ = unlocked u
  second : ∃ w₀ v u, (Operation.send (overwritingCalls.call false).cmd).prepare scripted
      (locked (locked w₁)) = .ok () w₀ ∧
    (Operation.send (overwritingCalls.call false).cmd).sendTry scripted 8 w₀ = .ok 0 v ∧
    v.log = log' ∧ Fits (v.r.transaction + 1) ∧
    ptpCheckRc { v with r := { v.r with transaction := v.r.transaction + 1 } } = .ok 0 u ∧
    w₂ = unlocked u
  clear : w₁.r.operationKillSwitch = false

theorem bothSent_parts {log log' : List Call} {r r' : PtpRuntime}
    {v : World (List (Option (List UInt8)))}
    (hrun : bothSent overwritingStart.world = .ok (log, r, log', r', true) v) :
    ∃ w₁, r = w₁.r ∧ r' = v.r ∧ BothSent w₁ v log log' := by
  obtain ⟨⟨log₁, rc₁, code₁⟩, w₁, hfirst, hrest⟩ := bind_eq_ok.mp hrun
  obtain ⟨_, _, hr, hrest₁⟩ := bind_eq_ok.mp hrest
  obtain ⟨_, _, hlock, hrest₂⟩ := bind_eq_ok.mp hrest₁
  obtain ⟨⟨log₂, rc₂, code₂⟩, w₂, hsecond, hrest₃⟩ := bind_eq_ok.mp hrest₂
  obtain ⟨_, _, hr', hreturn⟩ := bind_eq_ok.mp hrest₃
  obtain ⟨rfl, rfl⟩ := EStateM.Result.ok.inj hr
  obtain ⟨_, rfl⟩ := EStateM.Result.ok.inj hlock
  obtain ⟨rfl, rfl⟩ := EStateM.Result.ok.inj hr'
  obtain ⟨hresult, rfl⟩ := EStateM.Result.ok.inj hreturn
  obtain ⟨rfl, hpair⟩ := Prod.mk.inj hresult
  obtain ⟨rfl, hpair₁⟩ := Prod.mk.inj hpair
  obtain ⟨rfl, hpair₂⟩ := Prod.mk.inj hpair₁
  obtain ⟨rfl, hdone⟩ := Prod.mk.inj hpair₂
  obtain ⟨hcodes, hclear⟩ := Bool.and_eq_true_iff.mp hdone
  obtain ⟨rfl, rfl, rfl, rfl⟩ := of_decide_eq_true hcodes
  exact ⟨w₁, rfl, rfl, inOneAttempt_parts hfirst, inOneAttempt_parts hsecond, by simpa using hclear⟩

/-- What other calls have done is not the call's. -/
theorem callsOf_append_other {trace more : Trace ι} (hother : ∀ event ∈ more, event.1 ≠ i) :
    callsOf i (trace ++ more) = callsOf i trace := by
  have hnone : callsOf i more = [] := by
    refine List.flatMap_eq_nil_iff.mpr fun event hevent => ?_
    rw [if_neg (hother event hevent)]
  simp only [callsOf, List.flatMap_append] at hnone ⊢
  rw [hnone, List.append_nil]

theorem overwrite_ends : returnsOn bothSent overwritingStart.world (fun (log, _, _, r', done) _ =>
    decide (done = true ∧
      r'.data.map (fun b => b.slice 0 (readBytes (lastReads log)).length) ≠
        some (readBytes (lastReads log)) ∧
      ((overwritingCalls.call true).decode r').toOption.isSome)) = true := by
  decide +kernel

/-- `ptp_get_device_info` decodes the reply to another call if that call's command comes in
between. -/
theorem reply_overwritten : ∃ v : Replies Bool (List (Option (List UInt8))),
    overwritingStart.Starts ∧
      overwritingStart.Reaches overwritingCalls (fun _ _ _ => True) v ∧
        ¬v.OwnReplies overwritingCalls := by
  obtain ⟨⟨log, r, log', r', done⟩, v, hrun, hhow⟩ := run_of_returnsOn bothSent _ _ overwrite_ends
  obtain ⟨rfl, hlost, hdecodes⟩ := of_decide_eq_true hhow
  obtain ⟨w₁, rfl, rfl, hsent⟩ := bothSent_parts hrun
  obtain ⟨w₀, u₁, w₂, hprepare, htry, rfl, hfits, hcheck, rfl⟩ := hsent.first
  obtain ⟨u₀, _, u₂, hprepare', htry', _, hfits', hcheck', rfl⟩ := hsent.second
  -- the first call sends its command and gets its reply
  have hstart : overwritingStart.Reaches overwritingCalls (fun _ _ _ => True) overwritingStart :=
    .start
  have hbegin := hstart.step (.begin (i := true) rfl rfl) trivial
  have hcommands : overwritingStart.toSystem.Reaches overwritingCalls.commands (fun _ _ _ => True)
      [] overwritingStart.toSystem := .start
  obtain ⟨more, halone, hlog, hmoved⟩ :=
    hcommands.sends (i := true) rfl rfl rfl hprepare htry hfits hcheck
  have hreplied := hbegin.inside (fun _ _ _ => trivial) rfl (.inl rfl) hmoved halone
  -- the second gets through its own before the first decodes
  have hlocked := hreplied.step (.lock (i := false) rfl rfl rfl rfl) trivial
  let between : System Bool (List (Option (List UInt8))) :=
    ⟨locked (unlocked w₂), none, Function.update overwritingStart.stage true (.returned 0)⟩
  have hcommands' : between.Reaches overwritingCalls.commands (fun _ _ _ => True) [] between :=
    .start
  obtain ⟨more', halone', _, hmoved'⟩ :=
    hcommands'.sends (i := false) rfl rfl hsent.clear hprepare' htry' hfits' hcheck'
  have hoverwritten := hlocked.inside (fun _ _ _ => trivial) rfl (.inr rfl) hmoved' halone'
  have hdecoding := hoverwritten.step (.sent (i := true) rfl rfl) trivial
  obtain ⟨result, hdecoded⟩ := ok_of_isSome hdecodes
  have hleaving := hdecoding.step (.decode (i := true) rfl hdecoded) trivial
  refine ⟨_, overwritingStart_starts, hleaving, fun hown => ?_⟩
  obtain ⟨⟨⟨buffer, hdata, _, hbytes⟩, _⟩, _⟩ := hown true _ _ (.inl rfl)
  have hcalls : callsOf true ([] ++ more ++ more') = u₁.log := by
    rw [callsOf_append_other (fun event hevent => by rw [halone' event hevent]; decide), hlog]
    rfl
  have hsame : ownReply ([] ++ more ++ more') true = readBytes (lastReads u₁.log) := by
    unfold ownReply
    rw [hcalls]
  dsimp only at hbytes
  refine hlost ?_
  rw [hdata, Option.map_some, ← hsame]
  exact congrArg some hbytes

theorem supplied_ends : returnsOn bothSent overwritingStart.world (fun (log, r, log', r', done) _ =>
    decide (done = true ∧
      ((overwritingCalls.call true).decode r).toOption.isSome ∧
      ((overwritingCalls.call true).decode { r with
        data := some (ReplyCall.exactBuffer (replyBehind 0 log)) }).toOption.isSome ∧
      ((overwritingCalls.call false).decode r').toOption.isSome ∧
      ((overwritingCalls.call false).decode { r' with
        data := some (ReplyCall.exactBuffer (replyBehind log.length log')) }).toOption.isSome)) =
    true := by
  decide +kernel

/-- Two calls that do not disturb each other decode their own replies. -/
theorem ownReplies_of_undisturbed_alone : ∃ (v : Replies Bool (List (Option (List UInt8))))
    (first second : Decoded), overwritingStart.Reaches overwritingCalls (fun u i action =>
      u.Undisturbed overwritingCalls i action ∧ u.Supplied overwritingCalls i action) v ∧
      v.outer true = .leaving (some first) ∧ v.outer false = .leaving (some second) ∧
        v.OwnReplies overwritingCalls := by
  have hprovided : Provided overwritingStart.world :=
    ⟨(scriptedWorld_ready 512 _).allocated, (by decide : (512 : Int) ≤ intMax)⟩
  obtain ⟨⟨log, r, log', r', done⟩, v, hrun, hhow⟩ := run_of_returnsOn bothSent _ _ supplied_ends
  obtain ⟨rfl, hdecodes, hsuffices, hdecodes', hsuffices'⟩ := of_decide_eq_true hhow
  obtain ⟨w₁, rfl, rfl, hsent⟩ := bothSent_parts hrun
  obtain ⟨w₀, u₁, w₂, hprepare, htry, rfl, hfits, hcheck, rfl⟩ := hsent.first
  obtain ⟨u₀, u₁', u₂, hprepare', htry', rfl, hfits', hcheck', rfl⟩ := hsent.second
  obtain ⟨result, hdecoded⟩ := ok_of_isSome hdecodes
  obtain ⟨result', hdecoded'⟩ := ok_of_isSome hdecodes'
  let allowed : Replies Bool (List (Option (List UInt8))) → Bool → Option Action → Prop :=
    fun u i action => u.Undisturbed overwritingCalls i action ∧ u.Supplied overwritingCalls i action
  have hquiet {u : Replies Bool (List (Option (List UInt8)))} {i : Bool}
      (houter : u.outer i ≠ .decoding) : allowed u i none :=
    ⟨fun _ h => (by cases h), fun _ h => absurd h houter⟩
  -- the call of `ptp_get_device_info`
  have hstart : overwritingStart.Reaches overwritingCalls allowed overwritingStart := .start
  have hbegin := hstart.step (.begin (i := true) rfl rfl) (hquiet (by simp [overwritingStart]))
  have hcommands : overwritingStart.toSystem.Reaches overwritingCalls.commands (fun _ _ _ => True)
      [] overwritingStart.toSystem := .start
  obtain ⟨more, halone, hlog, hmoved⟩ :=
    hcommands.sends (i := true) rfl rfl rfl hprepare htry hfits hcheck
  have hreplied := hbegin.inside (fun u action _ => ⟨fun made _ j hj hlocks => ?_, fun h => by cases h⟩)
    rfl (.inl rfl) hmoved halone
  swap
  · -- the other call would wait for the mutex
    cases j with
    | true => exact absurd rfl hj
    | false => cases hlocks
  have hdecoding := hreplied.step (.sent (i := true) rfl rfl) (hquiet (by simp))
  have hreply : ownReply ([] ++ more) true = replyBehind 0 u₁.log := by
    unfold ownReply replyBehind
    rw [hlog]
    rfl
  have hleaving := hdecoding.step (.decode (i := true) rfl hdecoded)
    ⟨fun _ h => (by cases h), fun _ _ => hreply ▸ ok_of_isSome hsuffices⟩
  -- and the one of `ptp_get_storage_ids` behind it
  have hlocked := hleaving.step (.lock (i := false) rfl rfl rfl rfl)
    (hquiet (by simp [overwritingStart]))
  let between : System Bool (List (Option (List UInt8))) :=
    ⟨locked (unlocked w₂), none, Function.update overwritingStart.stage true (.returned 0)⟩
  have hcommands' : between.Reaches overwritingCalls.commands (fun _ _ _ => True) [] between :=
    .start
  obtain ⟨more', halone', hlog', hmoved'⟩ :=
    hcommands'.sends (i := false) rfl rfl hsent.clear hprepare' htry' hfits' hcheck'
  have hreplied' := hlocked.inside
    (fun u action houter => ⟨fun made _ j hj _ _ => ?_, fun h => by cases h⟩) rfl (.inr rfl)
    hmoved' halone'
  swap
  · -- the first call has decoded
    cases j with
    | false => exact absurd rfl hj
    | true =>
        rw [houter]
        simp
  have hdecoding' := hreplied'.step (.sent (i := false) rfl rfl) (hquiet (by simp))
  have hreply' : ownReply ([] ++ more ++ more') false = replyBehind u₁.log.length u₁'.log := by
    have hbefore : callsOf false ([] ++ more) = [] :=
      callsOf_append_other (fun event hevent => by rw [halone event hevent]; decide)
    have hbetween : between.world.log = u₁.log := by
      change w₂.log = u₁.log
      rw [Acts.answer_world hcheck]
    unfold ownReply replyBehind
    rw [hlog', hbetween, List.drop_left]
    simp only [callsOf, List.flatMap_append] at hbefore ⊢
    rw [hbefore, List.nil_append]
  have hleaving' := hdecoding'.step (.decode (i := false) rfl hdecoded')
    ⟨fun _ h => (by cases h), fun _ _ => hreply' ▸ ok_of_isSome hsuffices'⟩
  exact ⟨_, _, _, hleaving', rfl, rfl, ownReplies_of_undisturbed overwritingCalls
    overwritingStart_starts hprovided (.inl rfl) hleaving'⟩

end Overwritten

end Libpict
