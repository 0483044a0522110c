import Libpict.UsbSafety

/-! # Looking for devices

`ptpusb_device_list` lists the devices with an interface for images, in the order of the bus,
unless a call about one of the devices fails.
-/

namespace Libpict

open CInt Exec

variable {σ : Type}

/-! ## What should be listed -/

namespace UsbDevice

/-- The device has an interface for images with at least two endpoints. -/
def Offers (dev : UsbDevice) : Prop :=
  dev.numConfigurations ≠ 0 ∧ dev.numInterfaces ≠ 0 ∧ dev.numAltsetting ≠ 0 ∧
    dev.isImageClass = true ∧ 2 ≤ dev.endpoints.length

instance (dev : UsbDevice) : Decidable dev.Offers := inferInstanceAs (Decidable (_ ∧ _))

/-- Its descriptors can be read, as far as they are asked for. -/
def Readable (dev : UsbDevice) : Prop :=
  dev.descriptorResult = 0 ∧ (dev.numConfigurations ≠ 0 → dev.configResult = 0)

instance (dev : UsbDevice) : Decidable dev.Readable := inferInstanceAs (Decidable (_ ∧ _))

/-- `libusb_open` accepts it. Only a device with an interface for images is opened, for the
sake of its name. -/
def Opens (dev : UsbDevice) : Prop := dev.Offers → dev.openResult = 0

instance (dev : UsbDevice) : Decidable dev.Opens := inferInstanceAs (Decidable (_ → _))

end UsbDevice

/-- The devices whose endpoints are looked at: those in front of the first that fails, and that
one too when it is `libusb_open` that fails. -/
def scanned : List UsbDevice → List UsbDevice
  | [] => []
  | dev :: rest =>
      if ¬dev.Readable then [] else if ¬dev.Opens then [dev] else dev :: scanned rest

/-- A property of the last endpoint of a kind, if there is one. -/
def lastOf {β : Type} (is : UsbEndpoint → Bool) (f : UsbEndpoint → β) (none : β)
    (endpoints : List UsbEndpoint) : β := ((endpoints.filter is).getLast?.map f).getD none

namespace UsbEndpoint

def isIn (ep : UsbEndpoint) : Bool := ep.isBulk && ep.address &&& 0x80 ≠ 0

def isOut (ep : UsbEndpoint) : Bool := ep.isBulk && ep.address &&& 0x80 = 0

/-- An interrupt endpoint, whatever its direction. -/
def isEvent (ep : UsbEndpoint) : Bool := !ep.isBulk && ep.isInterrupt

end UsbEndpoint

open UsbEndpoint

/-- The entry of a device: of each kind of endpoint the last one. -/
def listEntry (d : Nat) (dev : UsbDevice) : PtpDeviceEntry where
  id := d
  vendorId := dev.vendorId
  productId := dev.productId
  endpointIn := lastOf isIn UsbEndpoint.address 0 dev.endpoints
  endpointOut := lastOf isOut UsbEndpoint.address 0 dev.endpoints
  endpointInt := lastOf isEvent UsbEndpoint.address 0 dev.endpoints
  name := (dev.name.getD [0x3F]).take 15
  manufacturer := (dev.manufacturer.getD [0x3F]).take 15

/-- The entries of the devices that offer images, counted from `d` on. -/
def listed (d : Nat) (devices : List UsbDevice) : List PtpDeviceEntry :=
  ((devices.zipIdx d).filter (·.1.Offers)).map fun (dev, d) => listEntry d dev

/-- The endpoints of these devices. -/
def offered (devices : List UsbDevice) : List UsbEndpoint :=
  (devices.filter (·.Offers)).flatMap UsbDevice.endpoints

theorem scanned_cons {dev : UsbDevice} (hreadable : dev.Readable) (hopens : dev.Opens)
    (rest : List UsbDevice) : scanned (dev :: rest) = dev :: scanned rest := by
  rw [scanned, if_neg (not_not.mpr hreadable), if_neg (not_not.mpr hopens)]

/-! ## The loops -/

section Last

variable {β : Type} (is : UsbEndpoint → Bool) (f : UsbEndpoint → β) (x : β)

theorem lastOf_cons (ep : UsbEndpoint) (endpoints : List UsbEndpoint) :
    lastOf is f x (ep :: endpoints) = lastOf is f (if is ep then f ep else x) endpoints := by
  unfold lastOf
  cases his : is ep with
  | false => rw [List.filter_cons_of_neg (by simp [his])]; rfl
  | true =>
      rw [List.filter_cons_of_pos his, List.getLast?_cons]
      cases (endpoints.filter is).getLast? with
      | none => rfl
      | some last => rfl

theorem lastOf_append (first second : List UsbEndpoint) :
    lastOf is f x (first ++ second) = lastOf is f (lastOf is f x first) second := by
  induction first generalizing x with
  | nil => rfl
  | cons ep first ih => rw [List.cons_append, lastOf_cons, ih, ← lastOf_cons]

end Last

theorem scanEndpoints_run (endpoints : List UsbEndpoint) (entry : PtpDeviceEntry) (w : World σ) :
    scanEndpoints endpoints entry w = .ok
      { entry with
        endpointIn := lastOf isIn UsbEndpoint.address entry.endpointIn endpoints
        endpointOut := lastOf isOut UsbEndpoint.address entry.endpointOut endpoints
        endpointInt := lastOf isEvent UsbEndpoint.address entry.endpointInt endpoints }
      { w with r := { w.r with
        maxPacketSize := lastOf isIn (fun ep => (ep.maxPacketSize.toNat : Int))
          w.r.maxPacketSize endpoints } } := by
  induction endpoints generalizing entry w with
  | nil => rfl
  | cons ep endpoints ih =>
      rw [lastOf_cons, lastOf_cons, lastOf_cons, lastOf_cons]
      unfold scanEndpoints
      by_cases hbulk : ep.isBulk = true
      · rw [if_pos hbulk]
        by_cases hin : ep.address &&& 0x80 ≠ 0
        · rw [if_pos hin]
          refine (bind_ok (updateRuntime_run _ w)).trans ((ih _ _).trans ?_)
          simp [isIn, isOut, isEvent, hbulk, hin]
        · rw [if_neg hin]
          refine (ih _ _).trans ?_
          simp [isIn, isOut, isEvent, hbulk, not_not.mp hin]
      · rw [if_neg hbulk]
        rw [Bool.not_eq_true] at hbulk
        by_cases hint : ep.isInterrupt = true
        · rw [if_pos hint]
          refine (ih _ _).trans ?_
          simp [isIn, isOut, isEvent, hbulk, hint]
        · rw [if_neg hint]
          refine (ih _ _).trans ?_
          simp [isIn, isOut, isEvent, hbulk, hint]

theorem listed_cons (d : Nat) (dev : UsbDevice) (devices : List UsbDevice) :
    listed d (dev :: devices) =
      (if dev.Offers then [listEntry d dev] else []) ++ listed (d + 1) devices := by
  unfold listed
  rw [List.zipIdx_cons]
  by_cases hoffers : dev.Offers
  · rw [List.filter_cons_of_pos (by simpa using hoffers), if_pos hoffers]
    rfl
  · rw [List.filter_cons_of_neg (by simpa using hoffers), if_neg hoffers]
    rfl

theorem offered_cons (dev : UsbDevice) (devices : List UsbDevice) :
    offered (dev :: devices) = (if dev.Offers then dev.endpoints else []) ++ offered devices := by
  unfold offered
  by_cases hoffers : dev.Offers
  · rw [List.filter_cons_of_pos (by simpa using hoffers), if_pos hoffers]
    rfl
  · rw [List.filter_cons_of_neg (by simpa using hoffers), if_neg hoffers]
    rfl

/-- NULL for an empty list. -/
def orNull (entries : List PtpDeviceEntry) : Option (List PtpDeviceEntry) :=
  if entries = [] then none else some entries

/-- How the loop over the devices ends in `w'`: with the entries or with NULL, and unlocked. -/
structure Scanned (devices : List UsbDevice) (entries : List PtpDeviceEntry) (w w' : World σ)
    (result : Option (List PtpDeviceEntry)) : Prop where
  result : result =
    if ∀ dev ∈ devices, dev.Readable ∧ dev.Opens then orNull entries else none
  packet : w'.r.maxPacketSize = lastOf isIn (fun ep => (ep.maxPacketSize.toNat : Int))
    w.r.maxPacketSize (offered (scanned devices))
  mutex : w'.r.mutex = w.r.mutex.map (· - 1)

/-- A device that cannot be read ends the loop. -/
theorem Scanned.of_unreadable {dev : UsbDevice} {rest : List UsbDevice}
    {entries : List PtpDeviceEntry} {w : World σ} (hfails : ¬dev.Readable) :
    Scanned (dev :: rest) entries w (unlocked w) none := by
  have hnot : ¬∀ other ∈ dev :: rest, other.Readable ∧ other.Opens :=
    fun h => hfails (h dev List.mem_cons_self).1
  refine ⟨by rw [if_neg hnot], ?_, rfl⟩
  rw [scanned, if_pos hfails]
  rfl

/-- One that offers nothing is passed over. -/
theorem Scanned.of_passed {dev : UsbDevice} {rest : List UsbDevice} {d : Nat}
    {entries : List PtpDeviceEntry} {w w' : World σ} {result : Option (List PtpDeviceEntry)}
    (hoffers : ¬dev.Offers) (hreadable : dev.Readable)
    (hscanned : Scanned rest (entries ++ listed (d + 1) rest) w w' result) :
    Scanned (dev :: rest) (entries ++ listed d (dev :: rest)) w w' result := by
  have hopens : dev.Opens := fun h => absurd h hoffers
  refine ⟨?_, ?_, hscanned.mutex⟩
  · rw [hscanned.result, listed_cons, if_neg hoffers, List.nil_append]
    simp only [List.forall_mem_cons, hreadable, hopens, and_self, true_and]
  · rw [scanned_cons hreadable hopens, offered_cons, if_neg hoffers, List.nil_append]
    exact hscanned.packet

theorem scanDevices_run (devices : List UsbDevice) (d : Nat) (entries : List PtpDeviceEntry)
    (w : World σ) : ∃ result w', scanDevices devices d entries w = .ok result w' ∧
      Scanned devices (entries ++ listed d devices) w w' result := by
  induction devices generalizing d entries w with
  | nil =>
      refine ⟨orNull entries, unlocked w, rfl, ?_, rfl, rfl⟩
      simp [listed]
  | cons dev rest ih =>
      have hpassed : ¬dev.Offers → dev.Readable → ∃ result w',
          scanDevices rest (d + 1) entries w = .ok result w' ∧
            Scanned (dev :: rest) (entries ++ listed d (dev :: rest)) w w' result := by
        intro hoffers hreadable
        obtain ⟨result, w', hrun, hscanned⟩ := ih (d + 1) entries w
        exact ⟨result, w', hrun, .of_passed hoffers hreadable hscanned⟩
      unfold scanDevices
      by_cases hdescriptor : dev.descriptorResult ≠ 0
      · rw [if_pos hdescriptor]
        exact ⟨none, unlocked w, rfl, .of_unreadable fun h => hdescriptor h.1⟩
      rw [if_neg hdescriptor]
      by_cases hnone : dev.numConfigurations = 0
      · rw [if_pos hnone]
        exact hpassed (fun h => h.1 hnone) ⟨not_not.mp hdescriptor, fun h => absurd hnone h⟩
      rw [if_neg hnone]
      by_cases hconfig : dev.configResult ≠ 0
      · rw [if_pos hconfig]
        exact ⟨none, unlocked w, rfl, .of_unreadable fun h => hconfig (h.2 hnone)⟩
      rw [if_neg hconfig]
      have hreadable : dev.Readable := ⟨not_not.mp hdescriptor, fun _ => not_not.mp hconfig⟩
      by_cases hother : dev.numInterfaces = 0 ∨ dev.numAltsetting = 0 ∨ dev.isImageClass = false ∨
          dev.endpoints.length < 2
      · rw [if_pos hother]
        have hoffers : ¬dev.Offers := by
          rintro ⟨-, hinterfaces, haltsetting, hclass, hendpoints⟩
          rcases hother with h | h | h | h
          · exact hinterfaces h
          · exact haltsetting h
          · rw [h] at hclass
            cases hclass
          · exact Nat.not_lt.mpr hendpoints h
        exact hpassed hoffers hreadable
      rw [if_neg hother]
      have hoffers : dev.Offers := by
        simp only [not_or, Bool.not_eq_false, Nat.not_lt] at hother
        exact ⟨hnone, hother⟩
      rw [bind_ok (scanEndpoints_run _ _ w)]
      by_cases hopen : dev.openResult ≠ 0
      · rw [if_pos hopen]
        have hopens : ¬dev.Opens := fun h => hopen (h hoffers)
        have hnot : ¬∀ other ∈ dev :: rest, other.Readable ∧ other.Opens :=
          fun h => hopens (h dev List.mem_cons_self).2
        refine ⟨none, unlocked _, rfl, by rw [if_neg hnot], ?_, rfl⟩
        rw [scanned, if_neg (not_not.mpr hreadable), if_pos hopens, offered_cons, if_pos hoffers,
          lastOf_append]
        rfl
      rw [if_neg hopen]
      have hopens : dev.Opens := fun _ => not_not.mp hopen
      obtain ⟨result, w', hrun, hscanned⟩ := ih (d + 1) (entries ++ [listEntry d dev]) _
      refine ⟨result, w', hrun, ?_, ?_, hscanned.mutex⟩
      · rw [hscanned.result, listed_cons, if_pos hoffers, List.append_assoc]
        simp only [List.forall_mem_cons, hreadable, hopens, and_self, true_and]
      · rw [scanned_cons hreadable hopens, offered_cons, if_pos hoffers, lastOf_append]
        exact hscanned.packet

/-- What `ptpusb_device_list` returns, for every bus: the devices that offer images, in order,
or NULL if there are none, if a descriptor of one of all the devices cannot be read or if one of
those with images cannot be opened. The packet size it leaves is that of the last of the devices
it got to that has one, whichever is opened. -/
theorem deviceList_exact (devices : List UsbDevice) {w : World σ} (hcut : w.r.ioKillSwitch = true)
    (husb : w.r.connectionType = .usb) :
    ∃ result w', ptpusbDeviceList devices w = .ok result w' ∧
      (result = if ∀ dev ∈ devices, dev.Readable ∧ dev.Opens then orNull (listed 0 devices)
        else none) ∧
      (w'.r.maxPacketSize = lastOf isIn (fun ep => (ep.maxPacketSize.toNat : Int)) 512
        (offered (scanned devices))) ∧
      w'.r.mutex = w.r.mutex := by
  have hinit : ptpCommInit w = .ok () { w with r := { w.r with maxPacketSize := 512 } } := by
    refine (bind_ok (runtime_run w)).trans ?_
    rw [if_neg (by rw [hcut]; decide), if_neg (by rw [husb]; decide)]
    rfl
  have hlock : ∀ v : World σ, ptpMutexLock v = .ok () (locked v) := fun _ => rfl
  unfold ptpusbDeviceList
  rw [bind_ok hinit, bind_ok (runtime_run _), if_neg (by dsimp only; rw [hcut]; decide),
    bind_ok (hlock _)]
  by_cases hnil : devices = []
  · subst hnil
    refine ⟨none, _, rfl, rfl, rfl, unlocked_mutex _⟩
  · rw [if_neg hnil]
    obtain ⟨result, w', hrun, hscanned⟩ := scanDevices_run devices 0 [] _
    refine ⟨result, w', hrun, hscanned.result, hscanned.packet, ?_⟩
    rw [hscanned.mutex]
    exact unlocked_mutex _

/-- A keyboard in front of two cameras, the second with smaller packets; and the same bus when
the second camera is in use by another program. -/
theorem deviceList_exact_cameras : ∃ (devices busy : List UsbDevice) (result refused : _)
    (w' v' : World (UsbHost Unit)), devices.length = 3 ∧
    ptpusbDeviceList devices (usbStart none ()) = .ok result w' ∧
    result = some [listEntry 1 camera, listEntry 2 camera] ∧ w'.r.maxPacketSize = 64 ∧
    ptpusbDeviceList busy (usbStart none ()) = .ok refused v' ∧
    refused = none ∧ v'.r.maxPacketSize = 64 := by
  let keyboard : UsbDevice := { camera with isImageClass := false }
  let slow : UsbDevice := { camera with
    endpoints := [⟨true, false, 0x81, 64⟩, ⟨true, false, 0x02, 64⟩, ⟨false, true, 0x83, 8⟩] }
  obtain ⟨result, w', hrun, hresult, hpacket, -⟩ := deviceList_exact [keyboard, camera, slow]
    (w := usbStart none ()) rfl rfl
  obtain ⟨refused, v', hrun', hrefused, hpacket', -⟩ :=
    deviceList_exact [keyboard, camera, { slow with openResult := -6 }, camera]
      (w := usbStart none ()) rfl rfl
  refine ⟨_, _, result, refused, w', v', rfl, hrun, ?_, ?_, hrun', ?_, ?_⟩
  · rw [hresult, if_pos (by decide)]
    rfl
  · rw [hpacket]
    rfl
  · rw [hrefused, if_neg (by decide)]
  · rw [hpacket']
    rfl

end Libpict
