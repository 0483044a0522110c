import Libpict.ApiCalls
import Libpict.DeviceInfo
import Libpict.ObjectExchange

/-! # The known properties

`ptp_get_all_known` asks the device for the value of every property that it has said to
support, and stops at the first that it does not get. What the device supports is in the
reply to `ptp_get_device_info`.
-/

namespace Libpict

open Bytes CInt Exec PtpRuntime Transitions Frames PtpCommand

variable {σ : Type}

/-- `ptp_parse_prop_value`; every type that is read sets `out`. -/
def ptpParsePropValue (r : PtpRuntime) : Except Halt Int := do
  let length ← ptpGetPayloadLength r
  if length = 1 ∨ length = 2 ∨ length = 4 then do
    let type := if length = 1 then ptpTcUint8 else if length = 2 then ptpTcUint16 else ptpTcUint32
    let payload ← ptpGetPayload r
    let (_, out) ← (ptpParseDataU32 payload type 0).run r.load
    return out
  else return -1

abbrev ptpDpcBatteryLevel : UInt16 := 0x5001

/-- The entry of a property with the value that was parsed. -/
def knownEntry (prop : UInt16) (v : Int) : PtpGenericEvent :=
  { PtpGenericEvent.zero with
    code := prop
    name := if v ≠ -1 ∧ prop = ptpDpcBatteryLevel then some "battery" else none
    value := v }

/-- The entry of a property that has not been read. -/
def unreadEntry (prop : UInt16) : PtpGenericEvent := { PtpGenericEvent.zero with code := prop }

/-- `props[i]` -/
def propAt (props : Vector UInt16 512) (i : Nat) : Except Halt UInt16 :=
  if h : i < 512 then .ok props[i] else .error .undefined

section Functions

variable (B : Backend σ) (fuel : Nat)

/-- `ptp_get_device_info`: the result, the structure, and `r->di`, which was `current`. -/
def ptpGetDeviceInfo (di : PtpDeviceInfo) (current : Option PtpDeviceInfo) :
    M σ (Int × PtpDeviceInfo × Option PtpDeviceInfo) := do
  let rc ← ptpSend B fuel (plain 0x1001)
  if rc ≠ 0 then pure (rc, di, current)
  else inspect fun r => (ptpParseDeviceInfo r di).run r.load

/-- The loop of `ptp_get_all_known` from the `i`-th property on, with `left` to go: the result
and the entries that were written. -/
def knownFrom (props : Vector UInt16 512) : (left i : Nat) → M σ (Int × List PtpGenericEvent)
  | 0, _ => pure (0, [])
  | left + 1, i => do
      let prop ← inspect fun _ => propAt props i
      let rc ← ptpGetPropValue B fuel prop.toNat
      if rc ≠ 0 then pure (rc, [unreadEntry prop])
      else do
        let v ← inspect ptpParsePropValue
        let (rc, rest) ← knownFrom props left (i + 1)
        pure (rc, knownEntry prop v :: rest)

/-- `ptp_get_all_known`: the result, `*length`, and the entries of `*s` that were written. -/
def ptpGetAllKnown (memory : Allocator) (allocations : Nat) (di : Option PtpDeviceInfo) :
    M σ (Int × Int × List PtpGenericEvent) :=
  match di with
  | none => halt .undefined
  | some di =>
      let plength := di.propsSupportedLength
      if 0 < plength ∧ (memory.malloc allocations (toSize (genericEventSize * plength))).isNone then
        halt .undefined
      else do
        let (rc, s) ← knownFrom B fuel di.propsSupported plength.toNat 0
        pure (rc, plength, s)

/-- A property is asked for, and its value read off the reply. -/
def Reads (w : World σ) (known : UInt16 × Int) (w' : World σ) : Prop :=
  ptpGetPropValue B fuel known.1.toNat w = .ok 0 w' ∧ ptpParsePropValue w'.r = .ok known.2

end Functions

variable {B : Backend σ} {fuel : Nat} {w w' : World σ}

/-- The request for the value of a property. -/
def valueRequest (prop : UInt16) : Operation := (ApiCall.getPropValue prop.toNat).request

/-- The entries of the properties that were read, and behind them that of the first that was
not, if there is one. -/
inductive KnownOutcome (B : Backend σ) (fuel : Nat) (props : List UInt16) (w : World σ) (rc : Int)
    (w' : World σ) (entries : List PtpGenericEvent) : Prop
  | all {known : List (UInt16 × Int)} : rc = 0 → Runs (Reads B fuel) w known w' →
      known.map Prod.fst = props → entries = known.map (fun k => knownEntry k.1 k.2) →
      KnownOutcome B fuel props w rc w' entries
  | stopped {known : List (UInt16 × Int)} {v : World σ} {prop : UInt16} {rest : List UInt16} :
      rc ≠ 0 → Runs (Reads B fuel) w known v → ptpGetPropValue B fuel prop.toNat v = .ok rc w' →
      props = known.map Prod.fst ++ prop :: rest →
      entries = known.map (fun k => knownEntry k.1 k.2) ++ [unreadEntry prop] →
      KnownOutcome B fuel props w rc w' entries

namespace KnownOutcome

variable {props : List UInt16} {rc : Int} {entries : List PtpGenericEvent}

theorem cons {v : World σ} {prop : UInt16} {value : Int} (hfirst : Reads B fuel w (prop, value) v)
    (hrest : KnownOutcome B fuel props v rc w' entries) :
    KnownOutcome B fuel (prop :: props) w rc w' (knownEntry prop value :: entries) := by
  cases hrest with
  | all hrc hruns hprops hentries =>
      exact .all hrc (.cons hfirst hruns) (congrArg (prop :: ·) hprops)
        (congrArg (knownEntry prop value :: ·) hentries)
  | stopped hrc hruns hlast hprops hentries =>
      exact .stopped hrc (.cons hfirst hruns) hlast (congrArg (prop :: ·) hprops)
        (congrArg (knownEntry prop value :: ·) hentries)

/-- The entries tell what the device was asked. -/
theorem requests (houtcome : KnownOutcome B fuel props w rc w' entries) :
    ∃ events, Runs (Yield fun op : Operation => op.exec B fuel) w events w' ∧
      events.map Prod.fst = entries.map fun entry => valueRequest entry.code := by
  have hasked : ∀ {v : World σ} {known : List (UInt16 × Int)}, Runs (Reads B fuel) w known v →
      Runs (Yield fun op : Operation => op.exec B fuel) w
        (known.map fun k => (valueRequest k.1, 0)) v := fun hruns =>
    hruns.map _ fun _ _ _ hstep => hstep.1
  have hrequests : ∀ known : List (UInt16 × Int),
      (known.map fun k => (valueRequest k.1, (0 : Int))).map Prod.fst =
        (known.map fun k => knownEntry k.1 k.2).map fun entry => valueRequest entry.code := by
    intro known
    rw [List.map_map, List.map_map]
    rfl
  cases houtcome with
  | all hrc hruns hprops hentries => exact ⟨_, hasked hruns, by rw [hentries, hrequests]⟩
  | @stopped known v prop rest hrc hruns hlast hprops hentries =>
      have hstep : Yield (fun op : Operation => op.exec B fuel) v (valueRequest prop, rc) w' := hlast
      refine ⟨_, (hasked hruns).snoc hstep, ?_⟩
      rw [hentries, List.map_append, List.map_append, hrequests]
      rfl

end KnownOutcome

theorem propAt_eq_ok {props : Vector UInt16 512} {i : Nat} {prop : UInt16}
    (hprop : propAt props i = .ok prop) (left : Nat) :
    (props.toList.drop i).take (left + 1) = prop :: (props.toList.drop (i + 1)).take left := by
  unfold propAt at hprop
  split_ifs at hprop with hinside
  have hlist : i < props.toList.length := by rw [Vector.length_toList]; exact hinside
  rw [List.drop_eq_getElem_cons hlist, List.take_succ_cons, Vector.getElem_toList,
    Except.ok.inj hprop]

/-- One round of the loop is one property. -/
theorem knownFrom_outcome {props : Vector UInt16 512} {left i : Nat} {rc : Int}
    {entries : List PtpGenericEvent} (hrun : knownFrom B fuel props left i w = .ok (rc, entries) w') :
    KnownOutcome B fuel ((props.toList.drop i).take left) w rc w' entries := by
  induction left generalizing i w rc entries with
  | zero =>
      obtain ⟨hresult, rfl⟩ := EStateM.Result.ok.inj hrun
      obtain ⟨rfl, rfl⟩ := Prod.mk.inj hresult
      exact .all rfl (.nil _) rfl rfl
  | succ left ih =>
      obtain ⟨prop, u, hat, hround⟩ := bind_eq_ok.mp hrun
      obtain ⟨hprop, rfl⟩ := inspect_eq_ok hat
      rw [propAt_eq_ok hprop]
      obtain ⟨code, middle, hask, hanswer⟩ := bind_eq_ok.mp hround
      split_ifs at hanswer with hcode
      · obtain ⟨hresult, rfl⟩ := EStateM.Result.ok.inj hanswer
        obtain ⟨rfl, rfl⟩ := Prod.mk.inj hresult
        exact .stopped hcode (.nil _) hask rfl rfl
      · obtain rfl := not_not.mp hcode
        obtain ⟨value, v, hvalue, hnext⟩ := bind_eq_ok.mp hanswer
        obtain ⟨hparsed, rfl⟩ := inspect_eq_ok hvalue
        obtain ⟨⟨last, rest⟩, v', hrest, hdone⟩ := bind_eq_ok.mp hnext
        obtain ⟨hresult, rfl⟩ := EStateM.Result.ok.inj hdone
        obtain ⟨rfl, rfl⟩ := Prod.mk.inj hresult
        exact (ih hrest).cons ⟨hask, hparsed⟩

theorem getAllKnown_outcome {memory : Allocator} {allocations : Nat} {di : PtpDeviceInfo}
    {rc length : Int} {entries : List PtpGenericEvent}
    (hrun : ptpGetAllKnown B fuel memory allocations (some di) w = .ok (rc, length, entries) w') :
    length = di.propsSupportedLength ∧
      KnownOutcome B fuel (di.propsSupported.toList.take length.toNat) w rc w' entries := by
  unfold ptpGetAllKnown at hrun
  dsimp only at hrun
  split_ifs at hrun
  · cases hrun
  · obtain ⟨⟨last, known⟩, v, hknown, hdone⟩ := bind_eq_ok.mp hrun
    obtain ⟨hresult, rfl⟩ := EStateM.Result.ok.inj hdone
    obtain ⟨rfl, hpair⟩ := Prod.mk.inj hresult
    obtain ⟨rfl, rfl⟩ := Prod.mk.inj hpair
    exact ⟨rfl, knownFrom_outcome hknown⟩

theorem ptpParseDeviceInfo_wellFormed {d : DeviceInfoDataset} (hd : d.WellFormed) {r : PtpRuntime}
    {start length : Int} (hpayload : r.HasPayload start length d.bytes) (hfits : Fits r.dataLength)
    (hroom : ptpDefaultSize ≤ r.dataLength) (di : PtpDeviceInfo) :
    (ptpParseDeviceInfo r di).run r.load =
      .ok (0, deviceInfoAt di d.bytes, some (deviceInfoAt di d.bytes)) := by
  have hlength : d.bytes.length ≤ 3400 := (items_length_le hd.items).trans (by decide)
  have hinside : CursorInside r.dataLength d.bytes deviceInfoFields 0 := by
    unfold ptpDefaultSize at hroom
    exact cursorInside_of_items hd.items rfl (Nat.zero_le _) (by omega)
  have hreturns := (ptpParseDeviceInfo_returns _ hpayload.start_eq hfits di
    (· = (0, deviceInfoAt di d.bytes, some (deviceInfoAt di d.bytes)))).mpr ⟨hinside, rfl⟩
  obtain ⟨result, hrun, _, rfl⟩ := (Reader.returns_iff hpayload.shows).mp hreturns
  exact hrun

/-- A dataset that the device has sent in its reply is parsed, and `r->di` points to it. -/
theorem getDeviceInfo_parsed {d : DeviceInfoDataset} (hd : d.WellFormed) {old di : PtpDeviceInfo}
    {current known : Option PtpDeviceInfo} (hprovided : Provided w)
    (hconn : w.r.connectionType ≠ .ip)
    (hrun : ptpGetDeviceInfo B fuel old current w = .ok (0, di, known) w') {c : Container}
    {rest : List UInt8} (hbody : c.body = d.bytes)
    (hreply : readBytes (replyOf w w') = c.bytes ptpPacketTypeData ++ rest)
    (hroom : ptpDefaultSize ≤ w'.r.dataLength) :
    (Operation.send (plain 0x1001)).exec B fuel w = .ok 0 w' ∧ d.DecodedAs di ∧ known = some di := by
  obtain ⟨rc, v, hsend, hrest⟩ := bind_eq_ok.mp hrun
  have hexec : (Operation.send (plain 0x1001)).exec B fuel w = .ok rc v := hsend
  by_cases hrc : rc = 0
  · subst hrc
    rw [if_neg (not_not.mpr rfl)] at hrest
    obtain ⟨hparsed, rfl⟩ := inspect_eq_ok hrest
    have hlength : d.bytes.length ≤ 3400 :=
      (items_length_le hd.items).trans (by decide)
    have hfits : 12 + (c.body.length : Int) ≤ intMax := by
      rw [hbody, intMax]
      omega
    have hpayload := Operation.reply_payload hprovided hconn hexec hfits hreply
    rw [hbody] at hpayload
    obtain ⟨size, -, -, hdataLength, -⟩ := (hprovided.exec hexec).1
    have hkept : Fits w'.r.dataLength := hdataLength ▸ toInt32_fits size
    rw [ptpParseDeviceInfo_wellFormed hd hpayload hkept hroom old] at hparsed
    obtain ⟨-, hresult⟩ := Prod.mk.inj (Except.ok.inj hparsed)
    obtain ⟨rfl, rfl⟩ := Prod.mk.inj hresult
    exact ⟨hexec, DeviceInfoDataset.deviceInfoAt_decodedAs hd old, rfl⟩
  · rw [if_pos hrc] at hrest
    exact absurd (Prod.mk.inj (EStateM.Result.ok.inj hrest).1).1 hrc

/-- The device is asked for the properties that it has announced, in order and each once, and
not past the first that fails, be it for its answer or for the transport; the entries hold the
values in the replies, and behind them the last one of a run that failed holds none. While the
switch is clear, the device has heard these requests. -/
theorem announced_properties_heard (hcounts : B.Counts) {d : DeviceInfoDataset}
    (hd : d.WellFormed) {old di : PtpDeviceInfo} {current known : Option PtpDeviceInfo}
    {v : World σ} (hinfo : ptpGetDeviceInfo B fuel old current w = .ok (0, di, known) v)
    {c : Container} {rest : List UInt8} (hbody : c.body = d.bytes)
    (hreply : readBytes (replyOf w v) = c.bytes ptpPacketTypeData ++ rest)
    (hroom : ptpDefaultSize ≤ v.r.dataLength) {memory : Allocator} {allocations : Nat}
    {rc length : Int} {entries : List PtpGenericEvent}
    (hrun : ptpGetAllKnown B fuel memory allocations known v = .ok (rc, length, entries) w')
    (hprovided : Provided w) (hconn : w.r.connectionType ≠ .ip) :
    length = d.propsSupported.length ∧ KnownOutcome B fuel d.propsSupported v rc w' entries ∧
      (w'.r.operationKillSwitch = false →
        ∃ calls, w'.log = w.log ++ calls ∧ heard (writtenBytes calls) =
          numbered w.r.transactionId
            (.send (plain 0x1001) :: entries.map fun entry => valueRequest entry.code)) := by
  obtain ⟨hexec, hdecoded, rfl⟩ := getDeviceInfo_parsed hd hprovided hconn hinfo hbody hreply hroom
  obtain ⟨hlength, houtcome⟩ := getAllKnown_outcome hrun
  obtain ⟨hcount, hfront⟩ := hdecoded.propsSupported
  have hprops : di.propsSupported.toList.take length.toNat = d.propsSupported := by
    rw [hlength, hcount, Int.toNat_natCast]
    exact (List.prefix_iff_eq_take.mp hfront).symm
  rw [hprops] at houtcome
  refine ⟨hlength.trans hcount, houtcome, fun hclear => ?_⟩
  obtain ⟨events, hevents, hsame⟩ := houtcome.requests
  have hall : Runs (Yield fun op : Operation => op.exec B fuel) w
      ((.send (plain 0x1001), 0) :: events) w' := .cons hexec hevents
  obtain ⟨calls, hlog, hheard⟩ := operations_heard hcounts hall hprovided hclear
  rw [List.map_cons, hsame] at hheard
  exact ⟨calls, hlog, hheard⟩

/-- A camera that announces three properties. -/
def announcing : DeviceInfoDataset :=
  { DeviceInfoDataset.sample with propsSupported := [0x5001, 0x5003, 0x5007] }

/-- What it answers: its device info, the level of its battery, and that it has no image size. -/
def batteryScript : List (Option (List UInt8)) :=
  [some (Container.bytes 2 ⟨0x1001, 0, announcing.bytes⟩ ++ okResponse),
    some (Container.bytes 2 ⟨0x1015, 1, [75]⟩ ++ okResponse),
    some (Container.bytes 3 ⟨0x200A, 2, []⟩)]

/-- The level of the battery is read, the image size is refused, and the aperture is not asked
for. -/
theorem announced_properties_heard_battery :
    ∃ (di : PtpDeviceInfo) (v w' : World (List (Option (List UInt8)))) (calls : List Call),
    ptpGetDeviceInfo scripted 64 eosDeviceInfo none (scriptedWorld 512 batteryScript) =
      .ok (0, di, some di) v ∧
    ptpGetAllKnown scripted 64 zeroedMemory 0 (some di) v =
      .ok (PtpGeneralError.checkCode, 3, [knownEntry 0x5001 75, unreadEntry 0x5003]) w' ∧
    heard (writtenBytes calls) =
      numbered 0 [.send (plain 0x1001), valueRequest 0x5001, valueRequest 0x5003] := by
  have hsample : announcing.WellFormed := by
    constructor <;> first | decide +kernel | exact ⟨by decide +kernel, by decide +kernel⟩
  obtain ⟨⟨rc, di, known⟩, v, hinfo, hhow⟩ := run_of_returnsOn
    (ptpGetDeviceInfo scripted 64 eosDeviceInfo none) (scriptedWorld 512 batteryScript)
    (fun result v => decide (result.1 = 0) &&
      decide (readBytes (replyOf (scriptedWorld 512 batteryScript) v) =
        Container.bytes 2 ⟨0x1001, 0, announcing.bytes⟩ ++ okResponse) &&
      decide (ptpDefaultSize ≤ v.r.dataLength) &&
      returnsOn (ptpGetAllKnown scripted 64 zeroedMemory 0 result.2.2) v fun result w' =>
        decide (result =
          (PtpGeneralError.checkCode, 3, [knownEntry 0x5001 75, unreadEntry 0x5003]) ∧
            w'.r.operationKillSwitch = false))
    (by decide +kernel)
  obtain ⟨hfirst, hhow⟩ := Bool.and_eq_true_iff.mp hhow
  obtain ⟨hfirst, hroom⟩ := Bool.and_eq_true_iff.mp hfirst
  obtain ⟨hcode, hreply⟩ := Bool.and_eq_true_iff.mp hfirst
  obtain rfl : rc = 0 := of_decide_eq_true hcode
  obtain ⟨result, w', hrun, hhow⟩ := run_of_returnsOn _ _ _ hhow
  obtain ⟨rfl, hclear⟩ := of_decide_eq_true hhow
  have hprovided := scriptedWorld_provided batteryScript
  have hconn : PtpConnType.usb ≠ .ip := by decide
  obtain ⟨-, -, rfl⟩ := getDeviceInfo_parsed hsample hprovided hconn hinfo rfl
    (of_decide_eq_true hreply) (of_decide_eq_true hroom)
  obtain ⟨-, -, hsent⟩ := announced_properties_heard scripted_counts hsample hinfo rfl
    (of_decide_eq_true hreply) (of_decide_eq_true hroom) hrun hprovided hconn
  obtain ⟨calls, -, hheard⟩ := hsent hclear
  exact ⟨di, v, w', calls, hinfo, hrun, hheard⟩

end Libpict
