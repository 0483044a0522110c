import Libpict.Sessions
import Libpict.UsbSafety

/-! # A session over USB

After any use of the backend functions, a session that leaves the switch clear goes over the
one handle that the backend has claimed, and the device behind it hears every operation once.
-/

namespace Libpict

open CInt Exec Transitions

variable {τ : Type} {L : LibUsb τ} {fuel : Nat}

/-- libusb does not report more bytes than it was given. -/
def LibUsb.Counts (L : LibUsb τ) : Prop := ∀ handle endpoint bytes bus count,
  (L.bulkWrite handle endpoint bytes bus).1 = some count → count ≤ bytes.length

theorem LibUsb.Counts.backend (hcounts : L.Counts) : L.backend.Counts := by
  intro endpoint bytes host count hcount
  cases endpoint with
  | socket => cases hcount
  | usb =>
      change (L.write bytes host).1 = some count at hcount
      unfold LibUsb.write at hcount
      split at hcount
      · exact hcounts _ _ _ _ _ hcount
      · cases hcount

/-! ## Before the session -/

/-- If it returns, the buffer and the packet size of the runtime are still in order. -/
def Providing {α : Type} (x : M (UsbHost τ) α) : Prop := ∀ w a w', x w = .ok a w' →
  Provided w → Provided w'

section Providing

variable {α β : Type}

theorem Providing.pure (a : α) : Providing (Pure.pure a : M (UsbHost τ) α) := by
  intro w b w' hrun hprovided
  obtain ⟨_, rfl⟩ := EStateM.Result.ok.inj hrun
  exact hprovided

theorem Providing.bind {x : M (UsbHost τ) α} {f : α → M (UsbHost τ) β} (hx : Providing x)
    (hf : ∀ a, Providing (f a)) : Providing (x >>= f) := by
  intro w b w' hrun hprovided
  obtain ⟨a, v, hfirst, hrest⟩ := bind_eq_ok.mp hrun
  exact hf a v b w' hrest (hx w a v hfirst hprovided)

theorem providing_halt (reason : Halt) : Providing (halt reason : M (UsbHost τ) α) :=
  fun _ _ _ hrun => by cases hrun

theorem providing_runtime : Providing (runtime : M (UsbHost τ) PtpRuntime) := by
  intro w r w' hrun hprovided
  obtain ⟨_, rfl⟩ := EStateM.Result.ok.inj hrun
  exact hprovided

theorem providing_ask (f : UsbHost τ → α × UsbHost τ) : Providing (LibUsb.ask f) := by
  intro w a w' hrun hprovided
  obtain ⟨_, rfl⟩ := EStateM.Result.ok.inj hrun
  exact hprovided

theorem providing_update {f : PtpRuntime → PtpRuntime}
    (hdata : ∀ r, (f r).data = r.data ∧ (f r).dataLength = r.dataLength)
    (hpacket : ∀ r, r.maxPacketSize ≤ intMax → (f r).maxPacketSize ≤ intMax) :
    Providing (updateRuntime f : M (UsbHost τ) Unit) := by
  rintro w _ w' hrun ⟨⟨size, hdefault, hbound, hlength, hsize⟩, hmax⟩
  obtain ⟨_, rfl⟩ := EStateM.Result.ok.inj hrun
  obtain ⟨hsame, hlong⟩ := hdata w.r
  refine ⟨⟨size, hdefault, hbound, hlong.trans hlength, fun buffer hbuffer => ?_⟩, hpacket _ hmax⟩
  exact hsize buffer (hsame ▸ hbuffer)

theorem providing_lock : Providing (ptpMutexLock : M (UsbHost τ) Unit) :=
  providing_update (fun _ => ⟨rfl, rfl⟩) fun _ => id

theorem providing_unlock : Providing (ptpMutexUnlock : M (UsbHost τ) Unit) :=
  providing_update (fun _ => ⟨rfl, rfl⟩) fun _ => id

theorem providing_scanEndpoints (endpoints : List UsbEndpoint) (entry : PtpDeviceEntry) :
    Providing (scanEndpoints endpoints entry : M (UsbHost τ) PtpDeviceEntry) := by
  induction endpoints generalizing entry with
  | nil => exact .pure _
  | cons ep rest ih =>
      have hsize : (ep.maxPacketSize.toNat : Int) ≤ intMax := by
        have hlt := ep.maxPacketSize.toNat_lt
        have hmax : (65535 : Int) ≤ intMax := by decide
        omega
      unfold scanEndpoints
      split
      · split
        · refine Providing.bind ?_ fun _ => ih _
          exact providing_update (fun _ => ⟨rfl, rfl⟩) fun _ _ => hsize
        · exact ih _
      · split
        · exact ih _
        · exact ih _

theorem providing_scanDevices (devices : List UsbDevice) (d : Nat) (entries : List PtpDeviceEntry) :
    Providing (scanDevices devices d entries : M (UsbHost τ) _) := by
  induction devices generalizing d entries with
  | nil => exact providing_unlock.bind fun _ => .pure _
  | cons dev rest ih =>
      unfold scanDevices
      split
      · exact providing_unlock.bind fun _ => .pure _
      split
      · exact ih _ _
      split
      · exact providing_unlock.bind fun _ => .pure _
      split
      · exact ih _ _
      · refine (providing_scanEndpoints _ _).bind fun entry => ?_
        split
        · exact providing_unlock.bind fun _ => .pure _
        · exact ih _ _

theorem providing_ptpCommInit : Providing (Libpict.ptpCommInit : M (UsbHost τ) Unit) := by
  have hpacket : (512 : Int) ≤ intMax := by decide
  refine providing_runtime.bind fun r => ?_
  split
  · exact providing_halt _
  split
  · exact providing_halt _
  · exact providing_update (fun _ => ⟨rfl, rfl⟩) fun _ _ => hpacket

theorem providing_commInit : Providing (LibUsb.ptpCommInit : M (UsbHost τ) Unit) :=
  providing_ptpCommInit.bind fun _ => providing_ask _

theorem providing_deviceList : Providing L.ptpusbDeviceList := by
  refine providing_commInit.bind fun _ => (providing_ask _).bind fun devices =>
    Providing.bind ?_ fun list => (providing_ask _).bind fun _ => .pure _
  refine providing_ptpCommInit.bind fun _ => providing_runtime.bind fun r => ?_
  split
  · exact providing_halt _
  refine providing_lock.bind fun _ => ?_
  split
  · exact providing_unlock.bind fun _ => .pure _
  · exact providing_scanDevices _ _ _

theorem providing_connect (entry : PtpDeviceEntry) : Providing (L.connect entry) := by
  refine (providing_ask _).bind fun _ => (providing_ask _).bind fun opened => ?_
  cases opened with
  | none => exact .pure _
  | some handle =>
      refine (providing_ask _).bind fun ok => ?_
      split
      · exact .pure _
      refine (providing_ask _).bind fun ok => ?_
      split
      · exact (providing_ask _).bind fun _ => .pure _
      · exact .pure _

theorem providing_clearSwitches : Providing (LibUsb.clearSwitches : M (UsbHost τ) Unit) :=
  providing_update (fun _ => ⟨rfl, rfl⟩) fun _ => id

theorem providing_deviceOpen (entry : PtpDeviceEntry) : Providing (L.ptpDeviceOpen entry) := by
  refine providing_lock.bind fun _ => (providing_ask _).bind fun missing => ?_
  split
  · exact providing_unlock.bind fun _ => .pure _
  refine providing_runtime.bind fun r => ?_
  split
  · exact .pure _
  refine (providing_connect entry).bind fun ok => ?_
  split
  · exact providing_unlock.bind fun _ => .pure _
  · exact providing_clearSwitches.bind fun _ => providing_unlock.bind fun _ => .pure _

theorem providing_deviceInit : Providing L.ptpDeviceInit := by
  refine providing_commInit.bind fun _ => providing_deviceList.bind fun list => ?_
  split
  next entry rest =>
    refine (providing_connect entry).bind fun ok => ?_
    split
    · exact .pure _
    · exact providing_clearSwitches.bind fun _ => .pure _
  next => exact .pure _

theorem providing_deviceClose : Providing L.ptpDeviceClose := by
  have hcut : Providing (updateRuntime fun r =>
      { r with ioKillSwitch := true, operationKillSwitch := true } : M (UsbHost τ) Unit) :=
    providing_update (fun _ => ⟨rfl, rfl⟩) fun _ => id
  refine hcut.bind fun _ => (providing_ask _).bind fun handle => ?_
  cases handle with
  | none => exact providing_halt _
  | some handle =>
      refine (providing_ask _).bind fun ok => ?_
      split
      · exact .pure _
      · exact (providing_ask _).bind fun _ => .pure _

theorem providing_guarded {refused : Int} {transfer : LibUsbBackend → UsbHandle → M (UsbHost τ) Int}
    (htransfer : ∀ b handle, Providing (transfer b handle)) :
    Providing (LibUsb.guarded refused transfer) := by
  refine providing_runtime.bind fun r => (providing_ask _).bind fun backend => ?_
  cases backend with
  | none => exact .pure _
  | some b =>
      dsimp only
      split
      · exact .pure _
      cases b.handle with
      | none => exact providing_halt _
      | some handle => exact htransfer b handle

theorem providing_cmdWrite (bytes : List UInt8) : Providing (L.ptpCmdWrite bytes) :=
  providing_guarded fun _ _ => (providing_ask _).bind fun _ => .pure _

theorem providing_cmdRead (size : Nat) : Providing (L.ptpCmdRead size) :=
  providing_guarded fun _ _ => (providing_ask _).bind fun _ => .pure _

theorem providing_readInt (size : Nat) : Providing (L.ptpReadInt size) := by
  refine providing_guarded fun b handle => (providing_ask _).bind fun result => ?_
  dsimp only
  split
  · exact .pure _
  split
  · exact .pure _
  · exact .pure _

theorem providing_getStatus : Providing L.ptpusbGetStatus := by
  refine providing_guarded fun b handle => (providing_ask _).bind fun rc => ?_
  split
  · exact .pure _
  · exact .pure _

theorem providing_exec (op : Operation) : Providing (op.exec L.backend fuel) :=
  fun _ _ _ hrun hprovided => hprovided.exec hrun

theorem providing_reportError (code : Int) : Providing (ptpReportError L.backend fuel code) := by
  have hset : Providing (updateRuntime fun r => { r with operationKillSwitch := true } :
      M (UsbHost τ) Unit) := providing_update (fun _ => ⟨rfl, rfl⟩) fun _ => id
  have hcut : Providing (cutConnection : M (UsbHost τ) Unit) := by
    rintro w _ w' hrun ⟨hallocated, hpacket⟩
    obtain ⟨_, rfl⟩ := EStateM.Result.ok.inj hrun
    exact ⟨hallocated, hpacket⟩
  have hrest : ∀ {next : M (UsbHost τ) Unit}, Providing next →
      Providing (ptpMutexLock >>= fun _ => runtime >>= fun r =>
        if r.ioKillSwitch then ptpMutexUnlock else next) := by
    intro next hnext
    refine providing_lock.bind fun _ => providing_runtime.bind fun r => ?_
    split
    · exact providing_unlock
    · exact hnext
  refine providing_runtime.bind fun r => ?_
  split
  · exact .pure _
  dsimp only
  split
  · exact hset.bind fun _ => hrest hcut
  · refine hrest ?_
    split
    · exact (providing_exec closeSession).bind fun _ => hcut
    · exact hcut

theorem UsbRequest.providing (request : UsbRequest) : Providing (request.exec L fuel) := by
  cases request with
  | reset =>
      have hreset : Providing (updateRuntime Libpict.ptpReset : M (UsbHost τ) Unit) :=
        providing_update (fun _ => ⟨rfl, rfl⟩) fun _ => id
      exact (hreset.bind fun _ => providing_ask _).bind fun _ => .pure _
  | commInit => exact providing_commInit.bind fun _ => .pure _
  | deviceList => exact providing_deviceList.bind fun _ => .pure _
  | deviceInit => exact providing_deviceInit
  | deviceOpen entry => exact providing_deviceOpen entry
  | deviceClose => exact providing_deviceClose
  | cmdWrite bytes => exact providing_cmdWrite bytes
  | cmdRead size => exact providing_cmdRead size
  | readInt size => exact providing_readInt size
  | getStatus => exact providing_getStatus
  | operation op => exact providing_exec op
  | reportError code => exact (providing_reportError code).bind fun _ => .pure _

end Providing

theorem usbStart_provided (memory : Option (Nat → UInt8)) (bus : τ) :
    Provided (usbStart memory bus) := by
  have hdefault : (ptpDefaultSize : Int) ≤ intMax + 100 := by decide
  have hlength : (ptpDefaultSize : Int) = toInt32 ptpDefaultSize := by decide
  have hpacket : (0 : Int) ≤ intMax := by decide
  refine ⟨⟨ptpDefaultSize, Nat.le_refl _, hdefault, hlength, fun buffer hbuffer => ?_⟩, hpacket⟩
  obtain ⟨contents, -, rfl⟩ := Option.map_eq_some_iff.mp hbuffer
  rfl

theorem provided_of_run {memory : Option (Nat → UInt8)} {bus : τ}
    {before : List (UsbRequest × Int)} {u : World (UsbHost τ)}
    (hrun : Runs (Yield (UsbRequest.exec L fuel)) (usbStart memory bus) before u) : Provided u :=
  hrun.invariant Provided (fun s event t hprovided hstep =>
    event.1.providing s event.2 t hstep hprovided) (usbStart_provided memory bus)

/-- Every use of the backend functions leaves a connection. -/
theorem connection_of_run {memory : Option (Nat → UInt8)} {bus : τ}
    {before : List (UsbRequest × Int)} {u : World (UsbHost τ)}
    (hrun : Runs (Yield (UsbRequest.exec L fuel)) (usbStart memory bus) before u) : Connection u := by
  refine hrun.invariant Connection (fun s event t hconnection hstep => ?_)
    (usbStart_connection memory bus)
  exact ((event.1.safe L fuel hconnection).of_ok hstep).1.connection

/-! ## The session -/

/-- The calls of a session only transfer on the handle of the backend. -/
theorem SessionCall.transferred {call : SessionCall} {s t : Station (UsbHost τ)} {rc : Int}
    (hrun : call.exec L.backend fuel s = .ok rc t) : Transferred s.world t.world := by
  obtain ⟨w, hworld, -, -, hexec, -⟩ := call.exec_sent hrun
  have hready : Transferred s.world w := by
    rw [hworld]
    exact ⟨rfl, rfl, rfl, id, [], (List.append_nil _).symm, by simp⟩
  exact trans_of Transferred hready ((L.primitive.exec _ w).of_ok hexec)

theorem transferred_of_run {s t : Station (UsbHost τ)} {events : List (SessionCall × Int)}
    (hrun : Runs (Yield (SessionCall.exec L.backend fuel)) s events t) :
    Transferred s.world t.world :=
  hrun.invariant (fun u => Transferred s.world u.world)
    (fun _ _ _ hbefore hstep => trans_of Transferred hbefore (SessionCall.transferred hstep))
    (refl_of Transferred s.world)

/-- After any use of the backend functions, a session that leaves the switch clear only
transfers on the one handle that is claimed, and the device hears its operations: each once, in
order, with the number that it was given. -/
theorem usb_session_heard (hcounts : L.Counts) {memory : Option (Nat → UInt8)} {bus : τ}
    {before : List (UsbRequest × Int)} {u : World (UsbHost τ)}
    (hbefore : Runs (Yield (UsbRequest.exec L fuel)) (usbStart memory bus) before u)
    {session : Int} {events : List (SessionCall × Int)} {t : Station (UsbHost τ)}
    (hrun : Runs (Yield (SessionCall.exec L.backend fuel)) ⟨session, u⟩ events t)
    (hclear : t.world.r.operationKillSwitch = false) (hplain : ∀ event ∈ events, event.1.Plain) :
    ∃ handle made calls, u.device.table handle = .claimed ∧
      t.world.device.calls = u.device.calls ++ made ∧
      (∀ call ∈ made, ∃ endpoint, call = .transfer handle endpoint) ∧
      t.world.log = u.log ++ calls ∧
      heard (writtenBytes calls) =
        transmitted session u.r.transactionId (events.map Prod.fst) := by
  have hconnection := connection_of_run hbefore
  have htransferred := transferred_of_run hrun
  have hlive : u.r.operationKillSwitch = false := by
    rw [← Bool.not_eq_true]
    intro hset
    rw [htransferred.operationKillSwitch hset] at hclear
    cases hclear
  obtain ⟨handle, hhandle, hclaimed⟩ := hconnection.live (hconnection.switches hlive)
  obtain ⟨made, hmade, hall⟩ := htransferred.calls
  obtain ⟨calls, told, hlog, hrepeated, hbytes, hframes⟩ :=
    transmitted_of_run hcounts.backend hrun (provided_of_run hbefore) hclear
  refine ⟨handle, made, calls, hclaimed, hmade, fun call hcall => ?_, hlog, ?_⟩
  · obtain ⟨other, endpoint, hother, rfl⟩ := hall call hcall
    obtain rfl := Option.some.inj (hhandle.symm.trans hother)
    exact ⟨endpoint, rfl⟩
  · rw [hbytes]
    exact heard_repeated hrepeated hframes (transmitted_isChain (plain_of_events hplain) _ _)

/-- A camera that answers every read with a response. -/
def answeringBus : LibUsb Unit :=
  { cameraBus with
    bulkRead := fun _ _ size _ => (some ⟨okResponse.take size, List.length_take_le _ _⟩, ()) }

/-- The camera is opened, and a session on it. -/
theorem usb_session_heard_camera : ∃ (memory : Nat → UInt8) (u : World (UsbHost Unit))
    (t : Station (UsbHost Unit)) (handle : UsbHandle) (calls : List Call),
    Runs (Yield (UsbRequest.exec answeringBus 8)) (usbStart (some memory) ()) [(.deviceInit, 0)] u ∧
    Runs (Yield (SessionCall.exec answeringBus.backend 8)) ⟨0, u⟩ [(.openSession, 0)] t ∧
    u.device.table handle = .claimed ∧
    heard (writtenBytes calls) = transmitted 0 u.r.transactionId [.openSession] := by
  obtain ⟨rc, u, hinit, hhow⟩ := run_of_returnsOn (UsbRequest.deviceInit.exec answeringBus 8)
    (usbStart (some fun _ => 0) ()) (fun rc v => decide (rc = 0) &&
      returnsOn (ptpSend answeringBus.backend 8 (openSessionCommand (0 + 1)))
        { v with r := { v.r with transaction := 0 } } fun rc w =>
          decide (rc = 0 ∧ w.r.operationKillSwitch = false)) (by decide +kernel)
  obtain ⟨hopened, hhow⟩ := Bool.and_eq_true_iff.mp hhow
  obtain rfl := of_decide_eq_true hopened
  obtain ⟨rc, w, hsend, hhow⟩ := run_of_returnsOn _ _ _ hhow
  obtain ⟨rfl, hclear⟩ := of_decide_eq_true hhow
  have hbefore : Runs (Yield (UsbRequest.exec answeringBus 8)) (usbStart (some fun _ => 0) ())
      [(.deviceInit, 0)] u := .single hinit
  have hfits : Fits ((0 : Int) + 1) := by decide
  have hopen : SessionCall.openSession.exec answeringBus.backend 8 ⟨0, u⟩ = .ok 0 ⟨0 + 1, w⟩ :=
    openSession_run hfits hsend
  have hrun : Runs (Yield (SessionCall.exec answeringBus.backend 8)) ⟨0, u⟩ [(.openSession, 0)]
      ⟨0 + 1, w⟩ := .single hopen
  have hcounts : answeringBus.Counts := fun _ _ _ _ _ hcount => (Option.some.inj hcount).ge
  obtain ⟨handle, made, calls, hclaimed, -, -, -, hheard⟩ := usb_session_heard hcounts hbefore
    hrun hclear fun event hevent => by
      rw [List.mem_singleton.mp hevent]
      trivial
  exact ⟨_, u, _, handle, calls, hbefore, hrun, hclaimed, hheard⟩

end Libpict
