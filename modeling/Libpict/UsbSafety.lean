import Libpict.UsbLifecycle

/-! # Safety of the USB backend

Over any run of its functions, whatever libusb answers: data is transferred on claimed
handles only, and a handle that is closed is not used again as long as a device is closed
only once after it has been opened.
-/

namespace Libpict

open CInt Exec Transitions

variable {τ : Type} {L : LibUsb τ} {fuel : Nat} {w w' : World (UsbHost τ)}

/-! ## The connection -/

/-- The operation switch is set whenever the I/O switch is, and while the I/O switch is clear
the backend has a claimed handle. Handles are numbered as they are opened. -/
structure Connection (w : World (UsbHost τ)) : Prop where
  switches : w.r.operationKillSwitch = false → w.r.ioKillSwitch = false
  live : w.r.ioKillSwitch = false →
    ∃ handle, w.device.handle = some handle ∧ w.device.table handle = .claimed
  fresh : ∀ handle, w.device.handle = some handle → handle < w.device.opened

/-- The backend has a handle that is open. -/
def HoldsHandle (w : World (UsbHost τ)) : Prop :=
  ∃ handle, w.device.handle = some handle ∧ w.device.table handle ≠ .closed

/-- The calls between two worlds, all allowed by the watch. -/
def Lawfully (w w' : World (UsbHost τ)) : Prop := ∃ made,
  w'.device.calls = w.device.calls ++ made ∧ handleWatch.Obeyed w.device.table made

instance : IsPreorder (World (UsbHost τ)) Lawfully where
  refl w := ⟨[], (List.append_nil _).symm, trivial⟩
  trans u v w := by
    rintro ⟨first, hfirst, hobeyed⟩ ⟨second, hsecond, hobeyed'⟩
    refine ⟨first ++ second, by rw [hsecond, hfirst, List.append_assoc], ?_⟩
    rw [handleWatch.obeyed_append]
    refine ⟨hobeyed, ?_⟩
    have htable : v.device.table = handleWatch.after u.device.table first := by
      rw [UsbHost.table, hfirst, handleWatch.after_append]
      rfl
    rwa [← htable]

/-- The connection stays one, with lawful calls, and a handle stays open. -/
def Preserves (w w' : World (UsbHost τ)) : Prop := Connection w →
  Connection w' ∧ Lawfully w w' ∧ (HoldsHandle w → HoldsHandle w')

instance : IsPreorder (World (UsbHost τ)) Preserves where
  refl w h := ⟨h, refl_of Lawfully w, id⟩
  trans u v w := by
    intro hfirst hsecond hconnection
    obtain ⟨hmiddle, hlawful, hholds⟩ := hfirst hconnection
    obtain ⟨hend, hlawful', hholds'⟩ := hsecond hmiddle
    exact ⟨hend, trans_of Lawfully hlawful hlawful', fun h => hholds' (hholds h)⟩

/-- The device is the same, and a switch is cleared only if it was clear. -/
theorem Preserves.of_same (hdevice : w'.device = w.device)
    (hio : w'.r.ioKillSwitch = false → w.r.ioKillSwitch = false)
    (hswitches : w'.r.operationKillSwitch = false → w.r.operationKillSwitch = false ∧
      w'.r.ioKillSwitch = w.r.ioKillSwitch) : Preserves w w' := by
  intro hconnection
  refine ⟨⟨fun h => ?_, fun h => ?_, ?_⟩, ⟨[], ?_, trivial⟩, ?_⟩
  · obtain ⟨hclear, hsame⟩ := hswitches h
    rw [hsame]
    exact hconnection.switches hclear
  · rw [hdevice]
    exact hconnection.live (hio h)
  · rw [hdevice]
    exact hconnection.fresh
  · rw [hdevice, List.append_nil]
  · unfold HoldsHandle
    rw [hdevice]
    exact id

theorem preserves_update {f : PtpRuntime → PtpRuntime}
    (hio : ∀ r, (f r).ioKillSwitch = false → r.ioKillSwitch = false)
    (hswitches : ∀ r, (f r).operationKillSwitch = false → r.operationKillSwitch = false ∧
      (f r).ioKillSwitch = r.ioKillSwitch) :
    Moves Preserves (updateRuntime f : M (UsbHost τ) Unit) :=
  fun w => .ok rfl (.of_same rfl (hio w.r) (hswitches w.r))

/-! ## Operations -/

/-- The calls between two worlds are transfers on the handle of the backend. -/
structure Transferred (w w' : World (UsbHost τ)) : Prop where
  backend : w'.device.backend = w.device.backend
  opened : w'.device.opened = w.device.opened
  ioKillSwitch : w'.r.ioKillSwitch = w.r.ioKillSwitch
  operationKillSwitch : w.r.operationKillSwitch = true → w'.r.operationKillSwitch = true
  calls : ∃ made, w'.device.calls = w.device.calls ++ made ∧ ∀ call ∈ made,
    ∃ handle endpoint, w.device.handle = some handle ∧ call = .transfer handle endpoint

instance : IsPreorder (World (UsbHost τ)) Transferred where
  refl w := ⟨rfl, rfl, rfl, id, [], (List.append_nil _).symm, by simp⟩
  trans u v w := by
    rintro ⟨hbackend, hopened, hio, hop, made, hcalls, hall⟩
      ⟨hbackend', hopened', hio', hop', made', hcalls', hall'⟩
    refine ⟨hbackend'.trans hbackend, hopened'.trans hopened, hio'.trans hio,
      fun h => hop' (hop h), made ++ made', ?_, fun call hcall => ?_⟩
    · rw [hcalls', hcalls, List.append_assoc]
    · rcases List.mem_append.mp hcall with hcall | hcall
      · exact hall call hcall
      · have hhandle : v.device.handle = u.device.handle := by
          rw [UsbHost.handle, hbackend]
          rfl
        obtain ⟨handle, endpoint, hsome, rfl⟩ := hall' call hcall
        exact ⟨handle, endpoint, hhandle ▸ hsome, rfl⟩

/-- Transfers leave the table of handles alone. -/
theorem after_transfers (table : HandleTable) {made : List UsbCall}
    (hmade : ∀ call ∈ made, ∃ handle endpoint, call = UsbCall.transfer handle endpoint) :
    handleWatch.after table made = table := by
  induction made generalizing table with
  | nil => rfl
  | cons call made ih =>
      obtain ⟨⟨handle, endpoint, rfl⟩, hrest⟩ := List.forall_mem_cons.mp hmade
      exact ih table hrest

/-- On a claimed handle, transfers are allowed. -/
theorem obeyed_transfers {table : HandleTable} {handle : UsbHandle} {made : List UsbCall}
    (hclaimed : table handle = .claimed)
    (hmade : ∀ call ∈ made, ∃ endpoint, call = UsbCall.transfer handle endpoint) :
    handleWatch.Obeyed table made := by
  induction made with
  | nil => trivial
  | cons call made ih =>
      obtain ⟨⟨endpoint, rfl⟩, hrest⟩ := List.forall_mem_cons.mp hmade
      exact ⟨hclaimed, ih hrest⟩

theorem Transferred.table (htransferred : Transferred w w') :
    w'.device.table = w.device.table := by
  obtain ⟨made, hcalls, hall⟩ := htransferred.calls
  rw [UsbHost.table, hcalls, handleWatch.after_append]
  apply after_transfers
  intro call hcall
  obtain ⟨handle, endpoint, _, rfl⟩ := hall call hcall
  exact ⟨handle, endpoint, rfl⟩

theorem Transferred.handle (htransferred : Transferred w w') :
    w'.device.handle = w.device.handle := by
  rw [UsbHost.handle, htransferred.backend]
  rfl

/-- Transfers are lawful while the I/O switch is clear. -/
theorem Transferred.preserves (htransferred : Transferred w w')
    (hclear : w.r.ioKillSwitch = false) : Preserves w w' := by
  intro hconnection
  obtain ⟨live, hlive, hclaimed⟩ := hconnection.live hclear
  refine ⟨⟨fun h => ?_, fun _ => ⟨live, ?_, ?_⟩, fun handle h => ?_⟩, ?_, ?_⟩
  · rw [htransferred.ioKillSwitch]
    exact hclear
  · rw [htransferred.handle, hlive]
  · rw [htransferred.table, hclaimed]
  · rw [htransferred.opened]
    exact hconnection.fresh handle (htransferred.handle ▸ h)
  · obtain ⟨made, hcalls, hall⟩ := htransferred.calls
    refine ⟨made, hcalls, obeyed_transfers hclaimed fun call hcall => ?_⟩
    obtain ⟨handle, endpoint, hhandle, rfl⟩ := hall call hcall
    obtain rfl := Option.some.inj (hlive.symm.trans hhandle)
    exact ⟨endpoint, rfl⟩
  · rintro ⟨handle, hhandle, hopen⟩
    exact ⟨handle, htransferred.handle.trans hhandle, by rwa [htransferred.table]⟩

theorem LibUsb.write_transfers (bytes : List UInt8) (host : UsbHost τ) :
    ((L.write bytes host).2.backend = host.backend ∧ (L.write bytes host).2.opened = host.opened) ∧
      ∃ made, (L.write bytes host).2.calls = host.calls ++ made ∧ ∀ call ∈ made,
        ∃ handle endpoint, host.handle = some handle ∧ call = .transfer handle endpoint := by
  unfold LibUsb.write UsbHost.handle
  split
  next _ endpointOut _ handle hbackend =>
    refine ⟨⟨rfl, rfl⟩, [_], rfl, fun call hcall => ?_⟩
    exact ⟨handle, endpointOut, by rw [hbackend]; rfl, List.mem_singleton.mp hcall⟩
  next => exact ⟨⟨rfl, rfl⟩, [], (List.append_nil _).symm, by simp⟩

theorem LibUsb.read_transfers (size : Nat) (host : UsbHost τ) :
    ((L.read size host).2.backend = host.backend ∧ (L.read size host).2.opened = host.opened) ∧
      ∃ made, (L.read size host).2.calls = host.calls ++ made ∧ ∀ call ∈ made,
        ∃ handle endpoint, host.handle = some handle ∧ call = .transfer handle endpoint := by
  unfold LibUsb.read UsbHost.handle
  split
  next endpointIn _ _ handle hbackend =>
    refine ⟨⟨rfl, rfl⟩, [_], rfl, fun call hcall => ?_⟩
    exact ⟨handle, endpointIn, by rw [hbackend]; rfl, List.mem_singleton.mp hcall⟩
  next => exact ⟨⟨rfl, rfl⟩, [], (List.append_nil _).symm, by simp⟩

/-- The primitives of an operation only transfer. -/
theorem LibUsb.primitive (L : LibUsb τ) : Primitive L.backend Transferred := by
  have hsame : ∀ {v v' : World (UsbHost τ)}, v'.device = v.device →
      v'.r.ioKillSwitch = v.r.ioKillSwitch →
      (v.r.operationKillSwitch = true → v'.r.operationKillSwitch = true) → Transferred v v' := by
    intro v v' hdevice hio hop
    refine ⟨?_, ?_, hio, hop, [], ?_, ?_⟩
    · rw [hdevice]
    · rw [hdevice]
    · rw [hdevice, List.append_nil]
    · simp
  refine ⟨fun endpoint offset size v => ?_, fun endpoint offset size v => ?_,
    fun offset bytes v => ?_, fun size v => ?_, fun wait v => .ok rfl (hsame rfl rfl id),
    fun length v => .ok rfl (hsame rfl rfl id), fun v => .ok rfl (hsame rfl rfl id),
    fun v => .ok rfl (hsame rfl rfl fun _ => rfl), fun v => .ok rfl (hsame rfl rfl id),
    fun v => .ok rfl (hsame rfl rfl id)⟩
  · refine Ends.of_match ?_
    unfold cmdWrite
    cases v.r.load offset size with
    | error reason => exact refl_of Transferred v
    | ok bytes =>
        cases endpoint with
        | usb =>
            obtain ⟨⟨hbackend, hopened⟩, hcalls⟩ := L.write_transfers bytes v.device
            exact ⟨hbackend, hopened, rfl, id, hcalls⟩
        | socket => exact hsame rfl rfl id
  · refine Ends.of_match ?_
    unfold cmdRead
    cases v.r.load offset size with
    | error reason => exact hsame rfl rfl id
    | ok bytes =>
        dsimp only
        cases endpoint with
        | usb =>
            obtain ⟨⟨hbackend, hopened⟩, hcalls⟩ := L.read_transfers size.toNat v.device
            cases hread : L.read size.toNat v.device with
            | mk got host =>
                have hread' : L.backend.cmdRead .usb size.toNat v.device = (got, host) := hread
                rw [hread] at hbackend hopened hcalls
                rw [hread']
                cases got with
                | none => exact ⟨hbackend, hopened, rfl, id, hcalls⟩
                | some bytes => exact ⟨hbackend, hopened, rfl, id, hcalls⟩
        | socket => exact hsame rfl rfl id
  · refine Ends.of_match ?_
    unfold storeData PtpRuntime.store
    cases v.r.data with
    | none => exact refl_of Transferred v
    | some buffer =>
        dsimp only
        by_cases hinside : 0 ≤ offset ∧ offset + bytes.length ≤ buffer.size
        · rw [if_pos hinside]
          exact hsame rfl rfl id
        · rw [if_neg hinside]
          exact refl_of Transferred v
  · refine Ends.of_match ?_
    unfold ptpBufferResize
    by_cases hdown : size < toSize v.r.dataLength
    · rw [if_pos hdown]
      exact refl_of Transferred v
    · rw [if_neg hdown]
      dsimp only
      cases L.backend.realloc v.reallocs (toSize (size + 100)) with
      | true => exact hsame rfl rfl id
      | false => exact hsame rfl rfl id

/-- An operation transfers on the claimed handle, or is refused. -/
theorem exec_preserves (op : Operation) : Moves Preserves (op.exec L.backend fuel) := by
  intro v
  by_cases hkill : v.r.operationKillSwitch = true
  · exact .ok (op.exec_refused hkill) (refl_of Preserves v)
  · rw [Bool.not_eq_true] at hkill
    have hpreserves : ∀ u, Transferred v u → Preserves v u := fun u hu hconnection =>
      hu.preserves (hconnection.switches hkill) hconnection
    exact (L.primitive.exec op v).mono (fun _ u hu => hpreserves u hu) (fun _ u hu => hpreserves u hu)

/-- A report of an error keeps the connection, cut or not. -/
theorem reportError_preserves (code : Int) : Moves Preserves (ptpReportError L.backend fuel code) := by
  have hswitch : Moves Preserves
      (updateRuntime fun r => { r with operationKillSwitch := true } : M (UsbHost τ) Unit) :=
    preserves_update (fun _ => id) fun _ h => by cases h
  have hlock : Moves Preserves (ptpMutexLock : M (UsbHost τ) Unit) :=
    preserves_update (fun _ => id) fun _ h => ⟨h, rfl⟩
  have hunlock : Moves Preserves (ptpMutexUnlock : M (UsbHost τ) Unit) :=
    preserves_update (fun _ => id) fun _ h => ⟨h, rfl⟩
  have hcut : Moves Preserves (cutConnection : M (UsbHost τ) Unit) := by
    -- between the two switches the I/O switch is still clear
    intro v
    exact .ok rfl (.of_same rfl (fun h => by cases h) fun h => by cases h)
  have hrest : ∀ {next : M (UsbHost τ) Unit}, Moves Preserves next →
      Moves Preserves (ptpMutexLock >>= fun _ => runtime >>= fun r =>
        if r.ioKillSwitch then ptpMutexUnlock else next) := by
    intro next hnext
    refine hlock.bind fun _ => moves_runtime.bind fun r => ?_
    split
    · exact hunlock
    · exact hnext
  refine moves_runtime.bind fun r => ?_
  split
  · exact Moves.pure _
  dsimp only
  split
  · exact hswitch.bind fun _ => hrest hcut
  · refine hrest ?_
    split
    · exact (exec_preserves closeSession).bind fun _ => hcut
    · exact hcut

/-! ## Looking for devices -/

@[simp] theorem LibUsb.ask_run {α : Type} (f : UsbHost τ → α × UsbHost τ)
    (w : World (UsbHost τ)) :
    LibUsb.ask f w = .ok (f w.device).1 { w with device := (f w.device).2 } := rfl

theorem LibUsb.ask_eq {α : Type} {f : UsbHost τ → α × UsbHost τ} {a : α} {host : UsbHost τ}
    (hf : f w.device = (a, host)) : LibUsb.ask f w = .ok a { w with device := host } := by
  rw [LibUsb.ask_run, hf]

/-- Of the connection, only the answers of libusb may change. -/
structure SameConnection (w w' : World (UsbHost τ)) : Prop where
  ioKillSwitch : w'.r.ioKillSwitch = w.r.ioKillSwitch
  operationKillSwitch : w'.r.operationKillSwitch = w.r.operationKillSwitch
  device : w'.device = w.device

instance : IsPreorder (World (UsbHost τ)) SameConnection where
  refl _ := ⟨rfl, rfl, rfl⟩
  trans _ _ _ h h' := ⟨h'.1.trans h.1, h'.2.trans h.2, h'.3.trans h.3⟩

theorem SameConnection.preserves (hsame : SameConnection w w') : Preserves w w' := by
  refine .of_same hsame.device (fun h => ?_) fun h => ⟨?_, hsame.ioKillSwitch⟩
  · rw [← hsame.ioKillSwitch]
    exact h
  · rw [← hsame.operationKillSwitch]
    exact h

theorem scanEndpoints_same (endpoints : List UsbEndpoint) (entry : PtpDeviceEntry) :
    Moves SameConnection (scanEndpoints endpoints entry : M (UsbHost τ) PtpDeviceEntry) := by
  induction endpoints generalizing entry with
  | nil => exact Moves.pure _
  | cons ep rest ih =>
      unfold scanEndpoints
      split
      · split
        · exact Moves.bind (fun v => .ok rfl ⟨rfl, rfl, rfl⟩) fun _ => ih _
        · exact ih _
      · split
        · exact ih _
        · exact ih _

theorem scanDevices_same (devices : List UsbDevice) (d : Nat) (entries : List PtpDeviceEntry) :
    Moves SameConnection (scanDevices devices d entries : M (UsbHost τ) _) := by
  have hunlock : Moves SameConnection (ptpMutexUnlock : M (UsbHost τ) Unit) :=
    fun v => .ok rfl ⟨rfl, rfl, rfl⟩
  induction devices generalizing d entries with
  | nil => exact hunlock.bind fun _ => Moves.pure _
  | cons dev rest ih =>
      unfold scanDevices
      split
      · exact hunlock.bind fun _ => Moves.pure _
      split
      · exact ih _ _
      split
      · exact hunlock.bind fun _ => Moves.pure _
      split
      · exact ih _ _
      · refine (scanEndpoints_same _ _).bind fun entry => ?_
        split
        · exact hunlock.bind fun _ => Moves.pure _
        · exact ih _ _

theorem ptpCommInit_same : Moves SameConnection (Libpict.ptpCommInit : M (UsbHost τ) Unit) := by
  refine moves_runtime.bind fun r => ?_
  split
  · exact moves_halt _
  split
  · exact moves_halt _
  · exact fun v => .ok rfl ⟨rfl, rfl, rfl⟩

theorem ptpusbDeviceList_same (devices : List UsbDevice) :
    Moves SameConnection (Libpict.ptpusbDeviceList devices : M (UsbHost τ) _) := by
  refine ptpCommInit_same.bind fun _ => moves_runtime.bind fun r => ?_
  split
  · exact moves_halt _
  refine Moves.bind (fun v => .ok rfl ⟨rfl, rfl, rfl⟩) fun _ => ?_
  split
  · exact Moves.bind (fun v => .ok rfl ⟨rfl, rfl, rfl⟩) fun _ => Moves.pure _
  · exact scanDevices_same _ _ _

/-- The handles of a scan are closed again, and those from before are left alone. -/
theorem scanHandles_spec (devices : List UsbDevice) (host : UsbHost τ) :
    ∃ made, (LibUsb.scanHandles devices host).calls = host.calls ++ made ∧
      handleWatch.Obeyed host.table made ∧
      (LibUsb.scanHandles devices host).backend = host.backend ∧
      host.opened ≤ (LibUsb.scanHandles devices host).opened ∧
      ∀ handle < host.opened, (LibUsb.scanHandles devices host).table handle = host.table handle := by
  have hnothing : ∀ host : UsbHost τ, ∃ made, host.calls = host.calls ++ made ∧
      handleWatch.Obeyed host.table made ∧ host.backend = host.backend ∧
      host.opened ≤ host.opened ∧ ∀ handle < host.opened, host.table handle = host.table handle :=
    fun host => ⟨[], (List.append_nil _).symm, trivial, rfl, le_rfl, fun _ _ => rfl⟩
  induction devices generalizing host with
  | nil => exact hnothing host
  | cons dev rest ih =>
      unfold LibUsb.scanHandles
      split
      · exact hnothing host
      split
      · exact ih host
      split
      · exact hnothing host
      split
      · exact ih host
      split
      · refine ⟨[.opened none], rfl, ⟨trivial, trivial⟩, rfl, le_rfl, fun handle _ => ?_⟩
        rw [UsbHost.called_table]
        rfl
      · -- the device is opened for its names and closed at once
        obtain ⟨made, hcalls, hobeyed, hbackend, hopened, htable⟩ := ih
          { (host.called (.opened (some host.opened)) host.bus).called
              (.close host.opened) host.bus with opened := host.opened + 1 }
        have hmoved : ({ (host.called (.opened (some host.opened)) host.bus).called
            (.close host.opened) host.bus with opened := host.opened + 1 } : UsbHost τ).table =
            (host.table.move (.opened (some host.opened))).move (.close host.opened) := by
          rw [← UsbHost.called_table _ _ host.bus, ← UsbHost.called_table _ _ host.bus]
          rfl
        rw [hmoved] at hobeyed
        refine ⟨[.opened (some host.opened), .close host.opened] ++ made, ?_, ?_, hbackend,
          Nat.le_of_succ_le hopened, fun handle hlt => ?_⟩
        · rw [hcalls]
          simp
        · refine (handleWatch.obeyed_append _ _ _).mpr ⟨⟨trivial, ?_, trivial⟩, hobeyed⟩
          change HandleTable.move host.table (.opened (some host.opened)) host.opened ≠ .closed
          simp [HandleTable.move]
        · rw [htable handle (Nat.lt_succ_of_lt hlt), hmoved]
          simp [HandleTable.move, Function.update_of_ne (Nat.ne_of_lt hlt)]

theorem commInit_preserves : Moves Preserves (LibUsb.ptpCommInit : M (UsbHost τ) Unit) := by
  refine (ptpCommInit_same.mono fun _ _ h => h.preserves).bind fun _ v => .ok rfl ?_
  have hhandle : (v.device.backend.getD ⟨0, 0, 0, none⟩).handle = v.device.handle := by
    unfold UsbHost.handle
    cases v.device.backend <;> rfl
  intro hconnection
  refine ⟨⟨hconnection.switches, fun h => ?_, fun handle h => ?_⟩,
    ⟨[], (List.append_nil _).symm, trivial⟩, ?_⟩
  · obtain ⟨handle, hsome, hclaimed⟩ := hconnection.live h
    exact ⟨handle, hhandle.trans hsome, hclaimed⟩
  · exact hconnection.fresh handle (hhandle.symm.trans h)
  · rintro ⟨handle, hsome, hopen⟩
    exact ⟨handle, hhandle.trans hsome, hopen⟩

theorem deviceList_preserves (L : LibUsb τ) : Moves Preserves L.ptpusbDeviceList := by
  refine commInit_preserves.bind fun _ => Moves.bind (fun v => .ok rfl ?_) fun devices =>
    ((ptpusbDeviceList_same devices).mono fun _ _ h => h.preserves).bind fun list =>
      Moves.bind (fun v => .ok rfl ?_) fun _ => Moves.pure _
  · intro hconnection
    exact ⟨⟨hconnection.switches, hconnection.live, hconnection.fresh⟩,
      ⟨[], (List.append_nil _).symm, trivial⟩, id⟩
  · obtain ⟨made, hcalls, hobeyed, hbackend, hopened, htable⟩ := scanHandles_spec devices v.device
    intro hconnection
    have hhandle : (LibUsb.scanHandles devices v.device).handle = v.device.handle := by
      rw [UsbHost.handle, hbackend]
      rfl
    have hkept : ∀ handle, v.device.handle = some handle →
        (LibUsb.scanHandles devices v.device).table handle = v.device.table handle :=
      fun handle h => htable handle (hconnection.fresh handle h)
    refine ⟨⟨hconnection.switches, fun h => ?_, fun handle h => ?_⟩, ⟨made, hcalls, hobeyed⟩, ?_⟩
    · obtain ⟨handle, hsome, hclaimed⟩ := hconnection.live h
      exact ⟨handle, hhandle.trans hsome, (hkept handle hsome).trans hclaimed⟩
    · exact Nat.lt_of_lt_of_le (hconnection.fresh handle (hhandle.symm.trans h)) hopened
    · rintro ⟨handle, hsome, hopen⟩
      exact ⟨handle, hhandle.trans hsome, by rwa [hkept handle hsome]⟩

/-! ## Opening a device -/

/-- Opening a device makes lawful calls, and leaves a claimed handle if it succeeds. -/
structure Opens (w : World (UsbHost τ)) (ok : Bool) (w' : World (UsbHost τ)) : Prop where
  runtime : w'.r = w.r
  lawful : Lawfully w w'
  fresh : ∀ handle, w'.device.handle = some handle → handle < w'.device.opened
  claimed : ok = true →
    ∃ handle, w'.device.handle = some handle ∧ w'.device.table handle = .claimed

/-- Claiming the interface of an open handle. -/
theorem claimHandle_opens (L : LibUsb τ) {handle : UsbHandle}
    (hhandle : w.device.handle = some handle) (hopened : w.device.table handle = .opened)
    (hlt : handle < w.device.opened) :
    ∃ ok w', L.claimHandle handle w = .ok ok w' ∧ Opens w ok w' := by
  have hfresh : ∀ host : UsbHost τ, host.handle = w.device.handle →
      ∀ h, host.handle = some h → h < w.device.opened := by
    intro host hsame h hsome
    obtain rfl := Option.some.inj (hhandle.symm.trans (hsame.symm.trans hsome))
    exact hlt
  have hopen : w.device.table handle ≠ .closed := by simp [hopened]
  unfold LibUsb.claimHandle
  rw [bind_ok (LibUsb.ask_run _ _)]
  dsimp only
  split
  · refine ⟨false, _, rfl, rfl, ⟨[.detach handle], rfl, hopen, trivial⟩,
      hfresh _ rfl, fun h => by cases h⟩
  · rw [bind_ok (LibUsb.ask_run _ _)]
    dsimp only
    split
    next hclaim =>
      refine ⟨false, _, rfl, rfl, ⟨[.detach handle, .claim handle false, .close handle], ?_, ?_⟩,
        hfresh _ rfl, fun h => by cases h⟩
      · simp only [UsbHost.called_calls, List.append_assoc, List.cons_append, List.nil_append]
        rw [hclaim]
      · exact ⟨hopen, hopen, hopen, trivial⟩
    next hclaim =>
      rw [Bool.not_eq_false] at hclaim
      refine ⟨true, _, rfl, rfl, ⟨[.detach handle, .claim handle true], ?_, hopen, hopen, trivial⟩,
        hfresh _ rfl, fun _ => ⟨handle, hhandle, ?_⟩⟩
      · simp only [UsbHost.called_calls, List.append_assoc, List.cons_append, List.nil_append]
        rw [hclaim]
      · dsimp only
        rw [UsbHost.called_table, hclaim]
        exact Function.update_self ..

theorem connect_opens (L : LibUsb τ) (entry : PtpDeviceEntry) (hbackend : w.device.backend ≠ none)
    (hfresh : ∀ handle, w.device.handle = some handle → handle < w.device.opened) :
    ∃ ok w', L.connect entry w = .ok ok w' ∧ Opens w ok w' := by
  obtain ⟨b, hb⟩ := Option.ne_none_iff_exists'.mp hbackend
  let ready : LibUsbBackend :=
    { b with
      endpointIn := entry.endpointIn
      endpointOut := entry.endpointOut
      endpointInt := entry.endpointInt }
  let host : UsbHost τ := { w.device with backend := some ready }
  have hready : LibUsb.ask (fun host : UsbHost τ => ((), { host with
      backend := host.backend.map fun b => { b with
        endpointIn := entry.endpointIn
        endpointOut := entry.endpointOut
        endpointInt := entry.endpointInt } })) w = .ok () { w with device := host } := by
    rw [LibUsb.ask_run, hb]
    rfl
  cases hopen : L.openDevice entry w.device.bus with
  | mk ok bus =>
      cases ok with
      | false =>
          have hfailed : L.openHandle entry host = (none, host.called (.opened none) bus) := by
            simp only [LibUsb.openHandle, host, hopen]
            rfl
          have hrun : L.connect entry w =
              .ok false { w with device := host.called (.opened none) bus } :=
            (bind_ok hready).trans (bind_ok (LibUsb.ask_eq (w := { w with device := host }) hfailed))
          refine ⟨false, _, hrun, rfl, ⟨[.opened none], rfl, trivial, trivial⟩,
            fun handle h => hfresh handle ?_, fun h => by cases h⟩
          rw [UsbHost.handle, hb]
          exact h
      | true =>
          let host' : UsbHost τ := { host.called (.opened (some w.device.opened)) bus with
            backend := some { ready with handle := some w.device.opened }
            opened := w.device.opened + 1 }
          have hopened : L.openHandle entry host = (some w.device.opened, host') := by
            simp only [LibUsb.openHandle, host, hopen]
            rfl
          have htable : host'.table = w.device.table.move (.opened (some w.device.opened)) :=
            UsbHost.called_table host (.opened (some w.device.opened)) bus
          have hnew : host'.table w.device.opened = .opened := by
            rw [htable]
            exact Function.update_self ..
          obtain ⟨ok, w', hclaim, hopens⟩ := claimHandle_opens L (w := { w with device := host' })
            rfl hnew (Nat.lt_succ_self _)
          have hrun : L.connect entry w = L.claimHandle w.device.opened { w with device := host' } :=
            (bind_ok hready).trans (bind_ok (LibUsb.ask_eq (w := { w with device := host }) hopened))
          refine ⟨ok, w', hrun.trans hclaim,
            hopens.runtime, ?_, hopens.fresh, hopens.claimed⟩
          have hfirst : Lawfully w { w with device := host' } :=
            ⟨[.opened (some w.device.opened)], rfl, trivial, trivial⟩
          exact trans_of Lawfully hfirst hopens.lawful

/-- A device that could not be opened leaves the connection cut. -/
theorem Opens.connection {ok : Bool} (hopens : Opens w ok w') (hconnection : Connection w)
    (hset : w.r.ioKillSwitch = true) : Connection w' where
  switches h := by
    rw [hopens.runtime] at h ⊢
    exact hconnection.switches h
  live h := by
    rw [hopens.runtime, hset] at h
    cases h
  fresh := hopens.fresh

/-- One that was opened makes it live. -/
theorem Opens.live {v : World (UsbHost τ)} (hopens : Opens w true w')
    (hdevice : v.device = w'.device) (hclear : v.r.ioKillSwitch = false) :
    Connection v ∧ HoldsHandle v := by
  obtain ⟨handle, hsome, hclaimed⟩ := hopens.claimed rfl
  rw [← hdevice] at hsome hclaimed
  refine ⟨⟨fun _ => hclear, fun _ => ⟨handle, hsome, hclaimed⟩, fun h hh => ?_⟩,
    handle, hsome, by simp [hclaimed]⟩
  rw [hdevice] at hh ⊢
  exact hopens.fresh h hh

/-! ## Requests -/

/-- What a request does, however it ends: closing a device may name a closed handle, but
nothing transfers on one that is not claimed. -/
structure Behaves (request : UsbRequest) (w w' : World (UsbHost τ)) : Prop where
  connection : Connection w'
  transfers : ∃ made, w'.device.calls = w.device.calls ++ made ∧
    transferWatch.Obeyed w.device.table made
  lawful : (request = .deviceClose → HoldsHandle w) → Lawfully w w'

/-- Whether the backend is known to hold an open handle after a request that has returned. An
open that failed may have closed the handle it left behind. Its result does not say so: a cut
connection that could not be claimed and a live one that was in the way return the same. -/
def UsbRequest.holds (held : Bool) (rc : Int) : UsbRequest → Bool
  | deviceInit | deviceOpen _ => rc = 0
  | deviceClose => held && rc ≠ 0
  | reset => false
  | _ => held

theorem Behaves.of_lawfully {request : UsbRequest} (hconnection : Connection w')
    (hlawfully : Lawfully w w') : Behaves request w w' := by
  obtain ⟨made, hcalls, hobeyed⟩ := hlawfully
  refine ⟨hconnection, ⟨made, hcalls, hobeyed.mono rfl fun _ _ h => h.transfers⟩,
    fun _ => ⟨made, hcalls, hobeyed⟩⟩

/-- The request behaves, and what it leaves of the handle is known from its result. -/
def UsbRequest.Safe (request : UsbRequest) (L : LibUsb τ) (fuel : Nat)
    (w : World (UsbHost τ)) : Prop :=
  Ends (request.exec L fuel) w
    (fun rc w' => Behaves request w w' ∧ ∀ held, (held = true → HoldsHandle w) →
      request.holds held rc = true → HoldsHandle w')
    (fun _ w' => Behaves request w w')

/-- A request that preserves the connection and does not open or close anything is safe. -/
theorem UsbRequest.safe_of_preserves {request : UsbRequest} (hconnection : Connection w)
    (hpreserves : EndsIn (request.exec L fuel) w (Preserves w))
    (hholds : ∀ held rc, request.holds held rc = held) : request.Safe L fuel w := by
  refine hpreserves.mono (fun rc w' h => ?_) fun _ w' h => ?_
  · obtain ⟨hend, hlawfully, hkept⟩ := h hconnection
    refine ⟨.of_lawfully hend hlawfully, fun held hheld hstill => hkept (hheld ?_)⟩
    rwa [hholds] at hstill
  · obtain ⟨hend, hlawfully, _⟩ := h hconnection
    exact .of_lawfully hend hlawfully

/-- A transfer on the backend's handle that was asked for while the I/O switch is clear. -/
theorem called_preserves {handle : UsbHandle} (endpoint : UInt8) (bus : τ)
    (hhandle : w.device.handle = some handle) (hclear : w.r.ioKillSwitch = false) :
    Preserves w { w with device := w.device.called (.transfer handle endpoint) bus } := by
  refine Transferred.preserves ⟨rfl, rfl, rfl, id, [_], rfl, fun call hcall => ?_⟩ hclear
  exact ⟨handle, endpoint, hhandle, List.mem_singleton.mp hcall⟩

/-- A transfer behind the check is made only while the connection is not cut. -/
theorem guarded_preserves {refused : Int} {transfer : LibUsbBackend → UsbHandle → M (UsbHost τ) Int}
    (htransfer : ∀ b handle, w.device.handle = some handle → w.r.ioKillSwitch = false →
      EndsIn (transfer b handle) w (Preserves w)) :
    EndsIn (LibUsb.guarded refused transfer) w (Preserves w) := by
  refine Ends.congr ?_ (bind_ok (runtime_run w))
  refine Ends.congr ?_ (bind_ok (LibUsb.ask_run _ _))
  cases hbackend : w.device.backend with
  | none => exact .pure (refl_of Preserves w)
  | some b =>
      dsimp only
      split
      · exact .pure (refl_of Preserves w)
      next hclear =>
        rw [Bool.not_eq_true] at hclear
        cases hhandle : b.handle with
        | none => exact .error rfl (refl_of Preserves w)
        | some handle =>
            refine htransfer b handle ?_ hclear
            rw [UsbHost.handle, hbackend]
            exact hhandle

theorem cmdWrite_preserves (bytes : List UInt8) :
    EndsIn (L.ptpCmdWrite bytes) w (Preserves w) := by
  refine guarded_preserves fun b handle _ hclear => ?_
  obtain ⟨⟨hbackend, hopened⟩, hcalls⟩ := L.write_transfers bytes w.device
  refine Ends.congr ?_ (bind_ok (LibUsb.ask_run _ _))
  exact .pure (Transferred.preserves ⟨hbackend, hopened, rfl, id, hcalls⟩ hclear)

theorem cmdRead_preserves (size : Nat) : EndsIn (L.ptpCmdRead size) w (Preserves w) := by
  refine guarded_preserves fun b handle _ hclear => ?_
  obtain ⟨⟨hbackend, hopened⟩, hcalls⟩ := L.read_transfers size w.device
  refine Ends.congr ?_ (bind_ok (LibUsb.ask_run _ _))
  exact .pure (Transferred.preserves ⟨hbackend, hopened, rfl, id, hcalls⟩ hclear)

theorem readInt_preserves (size : Nat) : EndsIn (L.ptpReadInt size) w (Preserves w) := by
  refine guarded_preserves fun b handle hsome hclear => ?_
  refine Ends.congr ?_ (bind_ok (LibUsb.ask_run _ _))
  dsimp only
  split
  · exact .pure (called_preserves _ _ hsome hclear)
  split
  · exact .pure (called_preserves _ _ hsome hclear)
  · exact .pure (called_preserves _ _ hsome hclear)

theorem getStatus_preserves : EndsIn L.ptpusbGetStatus w (Preserves w) := by
  refine guarded_preserves fun b handle hsome hclear => ?_
  refine Ends.congr ?_ (bind_ok (LibUsb.ask_run _ _))
  dsimp only
  split
  · exact .pure (called_preserves _ _ hsome hclear)
  · exact .pure (called_preserves _ _ hsome hclear)

/-- `ptp_device_close` makes the only calls that may name a closed handle. -/
theorem deviceClose_safe (hconnection : Connection w) :
    UsbRequest.deviceClose.Safe L fuel w := by
  let cut : World (UsbHost τ) :=
    { w with r := { w.r with ioKillSwitch := true, operationKillSwitch := true } }
  have hclosed : ∀ v : World (UsbHost τ), v.r = cut.r → v.device.backend = w.device.backend →
      v.device.opened = w.device.opened → Connection v := by
    intro v hr hbackend hopened
    refine ⟨fun h => ?_, fun h => ?_, fun handle h => ?_⟩
    · rw [hr] at h
      cases h
    · rw [hr] at h
      cases h
    · rw [hopened]
      apply hconnection.fresh handle
      rw [← h, UsbHost.handle, UsbHost.handle, hbackend]
  refine Ends.congr ?_ (bind_ok (updateRuntime_run _ w))
  refine Ends.congr ?_ (bind_ok (LibUsb.ask_run _ cut))
  dsimp only
  cases hhandle : w.device.handle with
  | none =>
      exact .error rfl (.of_lawfully (hclosed cut rfl rfl rfl) ⟨[], (List.append_nil _).symm, trivial⟩)
  | some handle =>
      have hopen : HoldsHandle w → w.device.table handle ≠ .closed := by
        rintro ⟨other, hother, hopen⟩
        obtain rfl := Option.some.inj (hhandle.symm.trans hother)
        exact hopen
      refine Ends.congr ?_ (bind_ok (LibUsb.ask_run _ cut))
      dsimp only
      split
      next hfailed =>
        have hrelease : (L.releaseInterface handle w.device.bus).1 = false := hfailed
        refine .pure ⟨⟨hclosed _ rfl rfl rfl, ⟨[_], rfl, trivial, trivial⟩,
          fun hholds => ⟨[_], rfl, hopen (hholds rfl), trivial⟩⟩, fun held hheld hstill => ?_⟩
        simp only [UsbRequest.holds, Bool.and_eq_true] at hstill
        refine ⟨handle, hhandle, ?_⟩
        dsimp only
        rw [UsbHost.called_table, show (L.releaseInterface handle cut.device.bus).1 = false from hrelease]
        exact hopen (hheld hstill.1)
      next hreleased =>
        refine Ends.congr ?_ (bind_ok (LibUsb.ask_run _ _))
        refine .pure ⟨⟨hclosed _ rfl rfl rfl, ⟨[_, _], List.append_assoc .., trivial, trivial, trivial⟩,
          fun hholds => ⟨[_, _], List.append_assoc .., hopen (hholds rfl), ?_, trivial⟩⟩,
          fun held _ hstill => ?_⟩
        · rw [Bool.not_eq_false] at hreleased
          change HandleTable.move w.device.table
            (.release handle (L.releaseInterface handle cut.device.bus).1) handle ≠ .closed
          rw [hreleased]
          simp [HandleTable.move]
        · simp [UsbRequest.holds] at hstill

/-- What is found when looking for devices is found with a backend and a cut connection. -/
theorem deviceList_found {list : Option (List PtpDeviceEntry)}
    (hrun : L.ptpusbDeviceList w = .ok list w') :
    w'.device.backend ≠ none ∧ w'.r.ioKillSwitch = true := by
  obtain ⟨_, w₁, hinit, hrest⟩ := bind_eq_ok.mp hrun
  obtain ⟨_, w₂, hcheck, hbackend⟩ := bind_eq_ok.mp hinit
  obtain ⟨_, rfl⟩ := EStateM.Result.ok.inj hbackend
  obtain ⟨devices, w₃, hask, hrest⟩ := bind_eq_ok.mp hrest
  obtain ⟨rfl, rfl⟩ := EStateM.Result.ok.inj hask
  obtain ⟨found, w₄, hlist, hrest⟩ := bind_eq_ok.mp hrest
  obtain ⟨_, w₅, hscan, hrest⟩ := bind_eq_ok.mp hrest
  obtain ⟨_, rfl⟩ := EStateM.Result.ok.inj hscan
  obtain ⟨_, rfl⟩ := EStateM.Result.ok.inj hrest
  have hsame := (ptpusbDeviceList_same _).of_ok hlist
  have hset : w₂.r.ioKillSwitch = true := by
    obtain ⟨r, u, hr, hinit⟩ := bind_eq_ok.mp hcheck
    obtain ⟨rfl, rfl⟩ := EStateM.Result.ok.inj hr
    split at hinit
    · cases hinit
    next hset =>
      rw [(ptpCommInit_same.of_ok hcheck).ioKillSwitch]
      exact (Bool.not_eq_false _).mp hset
  constructor
  · obtain ⟨_, _, _, hbackend, _⟩ := scanHandles_spec
      (L.getDeviceList (w₂.device).bus).1 w₄.device
    dsimp only
    rw [hbackend, hsame.device]
    simp
  · exact hsame.ioKillSwitch.trans hset

theorem deviceInit_safe (hconnection : Connection w) : UsbRequest.deviceInit.Safe L fuel w := by
  refine Ends.bind ((commInit_preserves w).mono (fun _ w₁ h₁ => ?_) fun _ _ h => ?_)
  · obtain ⟨hconnection₁, hlawfully₁, _⟩ := h₁ hconnection
    have hlist := deviceList_preserves L w₁
    apply Ends.bind
    cases hrun : L.ptpusbDeviceList w₁ with
    | error e w₂ =>
        obtain ⟨hend, hlawfully, _⟩ := hlist.of_error hrun hconnection₁
        exact .error hrun (.of_lawfully hend (trans_of Lawfully hlawfully₁ hlawfully))
    | ok list w₂ =>
        obtain ⟨hconnection₂, hlawfully₂, _⟩ := hlist.of_ok hrun hconnection₁
        obtain ⟨hbackend, hset⟩ := deviceList_found hrun
        have hlawfully := trans_of Lawfully hlawfully₁ hlawfully₂
        refine .ok hrun ?_
        have hfailed : ∀ {u rc}, Connection u → Lawfully w u → rc ≠ 0 →
            Behaves .deviceInit w u ∧ ∀ held, (held = true → HoldsHandle w) →
              UsbRequest.deviceInit.holds held rc = true → HoldsHandle u := by
          intro u rc hu hmade hrc
          exact ⟨.of_lawfully hu hmade, fun _ _ h => absurd (of_decide_eq_true h) hrc⟩
        cases list with
        | none => exact .pure (hfailed hconnection₂ hlawfully (by decide))
        | some entries =>
            cases entries with
            | nil => exact .pure (hfailed hconnection₂ hlawfully (by decide))
            | cons entry rest =>
                obtain ⟨ok, w₃, hconnect, hopens⟩ := connect_opens L entry hbackend hconnection₂.fresh
                have hlawfully₃ := trans_of Lawfully hlawfully hopens.lawful
                refine Ends.congr ?_ (bind_ok hconnect)
                cases ok with
                | false =>
                    exact .pure (hfailed (hopens.connection hconnection₂ hset) hlawfully₃ (by decide))
                | true =>
                    let v : World (UsbHost τ) := { w₃ with
                      r := { w₃.r with ioKillSwitch := false, operationKillSwitch := false } }
                    obtain ⟨hlive, hholds⟩ := hopens.live (v := v) rfl rfl
                    refine Ends.congr ?_ (bind_ok (rfl : LibUsb.clearSwitches w₃ = .ok () v))
                    exact .pure ⟨.of_lawfully hlive hlawfully₃, fun _ _ _ => hholds⟩
  · obtain ⟨hend, hlawfully, _⟩ := h hconnection
    exact .of_lawfully hend hlawfully

theorem deviceOpen_safe (entry : PtpDeviceEntry) (hconnection : Connection w) :
    (UsbRequest.deviceOpen entry).Safe L fuel w := by
  have hsame : ∀ {u}, SameConnection w u → Connection u ∧ Lawfully w u := by
    intro u hu
    obtain ⟨hend, hlawfully, _⟩ := hu.preserves hconnection
    exact ⟨hend, hlawfully⟩
  have hfailed : ∀ {u rc}, Connection u → Lawfully w u → rc ≠ 0 →
      Behaves (.deviceOpen entry) w u ∧ ∀ held, (held = true → HoldsHandle w) →
        (UsbRequest.deviceOpen entry).holds held rc = true → HoldsHandle u := by
    intro u rc hu hmade hrc
    exact ⟨.of_lawfully hu hmade, fun _ _ h => absurd (of_decide_eq_true h) hrc⟩
  obtain ⟨hlocked, hlawfully⟩ := hsame (u := locked w) ⟨rfl, rfl, rfl⟩
  refine Ends.congr ?_ (bind_ok (rfl : ptpMutexLock w = .ok () (locked w)))
  refine Ends.congr ?_ (bind_ok (LibUsb.ask_run _ (locked w)))
  dsimp only
  split
  · obtain ⟨hend, hmade⟩ := hsame (u := unlocked (locked w)) ⟨rfl, rfl, rfl⟩
    exact .ok rfl (hfailed hend hmade (by decide))
  next hbackend =>
    refine Ends.congr ?_ (bind_ok (runtime_run _))
    split
    · exact .pure (hfailed hlocked hlawfully (by decide))
    next hclear =>
      have hset : (locked w).r.ioKillSwitch = true := (Bool.not_eq_false _).mp hclear
      have hsome : (locked w).device.backend ≠ none := by
        intro h
        rw [h] at hbackend
        exact hbackend rfl
      obtain ⟨ok, w₃, hconnect, hopens⟩ := connect_opens L entry hsome hlocked.fresh
      have hmade := trans_of Lawfully hlawfully hopens.lawful
      refine Ends.congr ?_ (bind_ok hconnect)
      cases ok with
      | false =>
          have hend := hopens.connection hlocked hset
          refine Ends.ok (a := PtpGeneralError.openFail) (t := unlocked w₃) rfl ?_
          exact hfailed ⟨hend.switches, hend.live, hend.fresh⟩ hmade (by decide)
      | true =>
          let v : World (UsbHost τ) := { w₃ with
            r := { w₃.r with
              ioKillSwitch := false
              operationKillSwitch := false
              mutex := w₃.r.mutex.map (· - 1) } }
          obtain ⟨hlive, hholds⟩ := hopens.live (v := v) rfl rfl
          exact Ends.ok (a := 0) (t := v) rfl ⟨.of_lawfully hlive hmade, fun _ _ _ => hholds⟩

/-- Every request is safe on a connection. -/
theorem UsbRequest.safe (request : UsbRequest) (L : LibUsb τ) (fuel : Nat)
    (hconnection : Connection w) : request.Safe L fuel w := by
  cases request with
  | reset =>
      refine Ends.ok rfl ⟨.of_lawfully ⟨fun h => ?_, fun h => ?_, fun handle h => ?_⟩
        ⟨[], (List.append_nil _).symm, trivial⟩, fun _ _ h => ?_⟩
      · cases h
      · cases h
      · cases h
      · cases h
  | commInit =>
      refine safe_of_preserves hconnection ?_ fun _ _ => rfl
      exact (commInit_preserves.bind fun _ => Moves.pure _) w
  | deviceList =>
      refine safe_of_preserves hconnection ?_ fun _ _ => rfl
      exact ((deviceList_preserves L).bind fun _ => Moves.pure _) w
  | deviceInit => exact deviceInit_safe hconnection
  | deviceOpen entry => exact deviceOpen_safe entry hconnection
  | deviceClose => exact deviceClose_safe hconnection
  | cmdWrite bytes => exact safe_of_preserves hconnection (cmdWrite_preserves bytes) fun _ _ => rfl
  | cmdRead size => exact safe_of_preserves hconnection (cmdRead_preserves size) fun _ _ => rfl
  | readInt size => exact safe_of_preserves hconnection (readInt_preserves size) fun _ _ => rfl
  | getStatus => exact safe_of_preserves hconnection getStatus_preserves fun _ _ => rfl
  | operation op => exact safe_of_preserves hconnection (exec_preserves op w) fun _ _ => rfl
  | reportError code =>
      refine safe_of_preserves hconnection ?_ fun _ _ => rfl
      exact ((reportError_preserves code).bind fun _ => Moves.pure _) w

/-- `ptp_device_open` over libusb returns what the function returns that is handed the results
of the calls, and leaves the runtime as that one does. -/
theorem deviceOpen_results (L : LibUsb τ) (entry : PtpDeviceEntry)
    (hfresh : ∀ handle, w.device.handle = some handle → handle < w.device.opened) :
    ∃ (openResult rc : Int) (v : World (UsbHost τ)), L.ptpDeviceOpen entry w = .ok rc v ∧
      Libpict.ptpDeviceOpen w.device.backend.isSome openResult 0 0 w =
        .ok rc { w with r := v.r } := by
  have hlock : ptpMutexLock w = .ok () (locked w) := rfl
  have hunlock : ∀ v : World (UsbHost τ), ptpMutexUnlock v = .ok () (unlocked v) := fun _ => rfl
  have hclear : ∀ v : World (UsbHost τ), LibUsb.clearSwitches v = .ok () { v with
    r := { v.r with ioKillSwitch := false, operationKillSwitch := false } } := fun _ => rfl
  have hdevice : (locked w).device = w.device := rfl
  have hswitch : (locked w).r.ioKillSwitch = w.r.ioKillSwitch := rfl
  cases hbackend : w.device.backend with
  | none =>
      refine ⟨0, PtpGeneralError.openFail, unlocked (locked w), ?_, rfl⟩
      simp [LibUsb.ptpDeviceOpen, bind, EStateM.bind, pure, EStateM.pure, hlock, hunlock, hdevice,
        hbackend]
      rfl
  | some b =>
      cases hset : w.r.ioKillSwitch with
      | false =>
          refine ⟨0, PtpGeneralError.openFail, locked w, ?_, ?_⟩
          · simp [LibUsb.ptpDeviceOpen, bind, EStateM.bind, pure, EStateM.pure, hlock, hdevice,
              hbackend, hswitch, hset]
            rfl
          · simp [Libpict.ptpDeviceOpen, bind, EStateM.bind, pure, EStateM.pure, hlock, hswitch,
              hset]
            rfl
      | true =>
          obtain ⟨ok, v, hconnect, hopens⟩ := connect_opens L entry (w := locked w)
            (by rw [hdevice, hbackend]; simp) hfresh
          have hconnect' : L.connect entry { locked w with device := w.device } = .ok ok v := hconnect
          cases ok with
          | false =>
              refine ⟨1, PtpGeneralError.openFail, unlocked v, ?_, ?_⟩
              · simp [LibUsb.ptpDeviceOpen, bind, EStateM.bind, pure, EStateM.pure, hlock, hunlock,
                  hdevice, hbackend, hswitch, hset, hconnect']
              · simp [Libpict.ptpDeviceOpen, bind, EStateM.bind, pure, EStateM.pure, hlock, hunlock,
                  hswitch, hset, unlocked, hopens.runtime]
                exact ⟨rfl, rfl, rfl⟩
          | true =>
              refine ⟨0, 0, unlocked { v with
                r := { v.r with ioKillSwitch := false, operationKillSwitch := false } }, ?_, ?_⟩
              · simp [LibUsb.ptpDeviceOpen, bind, EStateM.bind, pure, EStateM.pure, hlock, hunlock,
                  hdevice, hbackend, hswitch, hset, hconnect', hclear]
              · simp [Libpict.ptpDeviceOpen, bind, EStateM.bind, pure, EStateM.pure, hlock, hunlock,
                  hswitch, hset, unlocked, hopens.runtime]
                exact ⟨rfl, rfl, rfl⟩

/-! ## Runs -/

/-- A runtime that `ptp_init` has set up, before any device is looked for. -/
def usbStart (memory : Option (Nat → UInt8)) (bus : τ) : World (UsbHost τ) where
  r := ptpInit memory
  device := ⟨none, 0, [], bus⟩
  reallocs := 0
  log := []

theorem usbStart_connection (memory : Option (Nat → UInt8)) (bus : τ) :
    Connection (usbStart memory bus) := by
  refine ⟨fun h => ?_, fun h => ?_, fun handle h => ?_⟩
  · cases h
  · cases h
  · cases h

/-- The calls up to a world, under a watch that moves with the handles. -/
theorem obeyed_extend {watch : Watch HandleTable UsbCall} (hnext : watch.next = handleWatch.next)
    (hobeyed : watch.Obeyed (fun _ => .closed) w.device.calls)
    (hmade : ∃ made, w'.device.calls = w.device.calls ++ made ∧
      watch.Obeyed w.device.table made) :
    watch.Obeyed (fun _ => .closed) w'.device.calls := by
  obtain ⟨made, hcalls, hmade⟩ := hmade
  have hafter : watch.after (fun _ => .closed) w.device.calls = w.device.table := by
    rw [UsbHost.table, Watch.after, Watch.after, hnext]
  rw [hcalls, watch.obeyed_append, hafter]
  exact ⟨hobeyed, hmade⟩

/-- `ptp_device_close` is called only while the last of the calls that opened, closed or reset
the connection was an open that succeeded, or a close that failed after one: not again once it
has succeeded, and not after an open that failed, before the next one succeeds. -/
def ClosesOnce : Bool → List (UsbRequest × Int) → Prop
  | _, [] => True
  | held, (request, rc) :: rest =>
      (request = .deviceClose → held = true) ∧ ClosesOnce (request.holds held rc) rest

/-- If devices are closed only so, no call names a handle that is closed. -/
theorem handles_used_while_open (L : LibUsb τ) (fuel : Nat) (memory : Option (Nat → UInt8))
    (bus : τ) {events : List (UsbRequest × Int)}
    (hrun : Runs (Yield (UsbRequest.exec L fuel)) (usbStart memory bus) events w)
    (honce : ClosesOnce false events) : handleWatch.Obeyed (fun _ => .closed) w.device.calls := by
  have hall : ∀ {u v : World (UsbHost τ)} {events : List (UsbRequest × Int)} {held : Bool},
      Runs (Yield (UsbRequest.exec L fuel)) u events v → ClosesOnce held events → Connection u →
      (held = true → HoldsHandle u) → handleWatch.Obeyed (fun _ => .closed) u.device.calls →
      handleWatch.Obeyed (fun _ => .closed) v.device.calls := by
    intro u v events held hrun
    induction hrun generalizing held with
    | nil => exact fun _ _ _ hobeyed => hobeyed
    | @cons u middle v event events hstep _ ih =>
        obtain ⟨request, rc⟩ := event
        rintro ⟨hclose, honce⟩ hconnection hheld hobeyed
        obtain ⟨hbehaves, hholds⟩ := (request.safe L fuel hconnection).of_ok hstep
        have hlawfully := hbehaves.lawful fun h => hheld (hclose h)
        exact ih honce hbehaves.connection (hholds held hheld) (obeyed_extend rfl hobeyed hlawfully)
  exact hall hrun honce (usbStart_connection memory bus) (by simp) trivial

/-! ## A camera that answers -/

/-- A camera with an endpoint of each kind. -/
def camera : UsbDevice where
  descriptorResult := 0
  vendorId := 0x4a9
  productId := 0x3218
  numConfigurations := 1
  configResult := 0
  numInterfaces := 1
  numAltsetting := 1
  isImageClass := true
  endpoints := [⟨true, false, 0x81, 512⟩, ⟨true, false, 0x02, 512⟩, ⟨false, true, 0x83, 8⟩]
  openResult := 0
  name := none
  manufacturer := none

/-- It is the only device on the bus, and every call about it succeeds. -/
def cameraBus : LibUsb Unit where
  getDeviceList _ := ([camera], ())
  openDevice _ _ := (true, ())
  setAutoDetach _ _ := (true, ())
  claimInterface _ _ := (true, ())
  releaseInterface _ _ := (true, ())
  bulkWrite _ _ bytes _ := (some bytes.length, ())
  bulkRead _ _ _ _ := (some ⟨[], Nat.zero_le _⟩, ())
  readInterrupt _ _ size _ := ((0, size), ())
  controlTransfer _ _ := (2, ())
  realloc _ _ := true

/-- The camera is opened, asked for an event and closed. -/
theorem camera_runs : ∃ (v w : World (UsbHost Unit)) (rc : Int),
    Runs (Yield (UsbRequest.exec cameraBus 8)) (usbStart none ()) [(.deviceInit, 0)] v ∧
    Runs (Yield (UsbRequest.exec cameraBus 8)) v [(.readInt 8, rc), (.deviceClose, 0)] w ∧
    w.device.calls.length = 8 := by
  obtain ⟨rc, v, hinit, hhow⟩ := run_of_returnsOn (UsbRequest.deviceInit.exec cameraBus 8)
    (usbStart none ()) (fun rc v => decide (rc = 0) &&
      returnsOn ((UsbRequest.readInt 8).exec cameraBus 8) v fun _ u =>
        returnsOn (UsbRequest.deviceClose.exec cameraBus 8) u fun rc w =>
          decide (rc = 0 ∧ w.device.calls.length = 8)) (by decide +kernel)
  obtain ⟨hopened, hhow⟩ := Bool.and_eq_true_iff.mp hhow
  obtain rfl := of_decide_eq_true hopened
  obtain ⟨rc, u, hread, hhow⟩ := run_of_returnsOn _ _ _ hhow
  obtain ⟨rc', w, hclose, hhow⟩ := run_of_returnsOn _ _ _ hhow
  obtain ⟨rfl, hcalls⟩ := of_decide_eq_true hhow
  exact ⟨v, w, rc, .single hinit, .cons hread (.single hclose), hcalls⟩

theorem handles_used_while_open_camera : ∃ (rc : Int) (w : World (UsbHost Unit)),
    Runs (Yield (UsbRequest.exec cameraBus 8)) (usbStart none ())
      [(.deviceInit, 0), (.readInt 8, rc), (.deviceClose, 0)] w ∧
    handleWatch.Obeyed (fun _ => .closed) w.device.calls := by
  obtain ⟨v, w, rc, hopened, hrest, _⟩ := camera_runs
  have hrun := hopened.append hrest
  refine ⟨rc, w, hrun, handles_used_while_open cameraBus 8 none () hrun ?_⟩
  refine ⟨fun h => ?_, fun h => ?_, fun _ => rfl, trivial⟩
  · cases h
  · cases h

end Libpict
