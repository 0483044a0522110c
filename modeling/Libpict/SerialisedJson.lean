import Libpict.GenericProperty
import Libpict.PropDescJson

/-! # The serialisers together

Strings of the device are printed without escapes, and every printed event is followed by a
comma.
-/

namespace Libpict

open CInt Json

theorem eosPropName_plain {names : EnumNames} (hnames : PlainNames names) {code : Nat}
    {name : String} (hname : eosPropName names code = some name) : PlainText name := by
  unfold eosPropName at hname
  split_ifs at hname
  all_goals first
    | exact hnames _ _ hname
    | (obtain rfl := Option.some.inj hname
       exact List.all_eq_true.mp rfl)

theorem eosPropText_plain {code value : Nat} {text : String}
    (htext : eosPropText code value = some text) : PlainText text := by
  unfold eosPropText at htext
  split_ifs at htext
  all_goals
    obtain rfl := Option.some.inj htext
    exact List.all_eq_true.mp rfl

/-- The events that the decoder makes are plain if the names it looks up are. -/
theorem eosEventOf_plain {names : EnumNames} (hnames : PlainNames names) (type : Nat)
    (word : Nat → Nat) : PlainEvent (eosEventOf names type word) := by
  unfold eosEventOf
  split_ifs
  · exact ⟨fun name hname => eosPropName_plain hnames hname,
      fun text htext => eosPropText_plain htext⟩
  · refine ⟨fun name hname => ?_, fun _ htext => nomatch htext⟩
    obtain rfl := Option.some.inj hname
    exact ptpGetEnumAll_plain hnames _
  · refine ⟨fun name hname => ?_, fun _ htext => nomatch htext⟩
    obtain rfl := Option.some.inj hname
    exact List.all_eq_true.mp rfl
  · refine ⟨fun name hname => ?_, fun _ htext => nomatch htext⟩
    obtain rfl := Option.some.inj hname
    exact List.all_eq_true.mp rfl
  · exact ⟨fun _ hname => (nomatch hname), fun _ htext => nomatch htext⟩

/-- `ptp_eos_events_json` emits JSON exactly if it leaves out every event. -/
theorem eosEvents_emit_iff {names : EnumNames} (hnames : PlainNames names) {memory : Allocator}
    {r : PtpRuntime} {start length : Int} {payload : List UInt8} {avail : AvailList} {fuel : Nat}
    {count : Int} {decoded : EosDecoded} (hpayload : r.HasPayload start length payload)
    (hview : (ptpEosEvents memory names r avail fuel).view start payload =
      some (.ok (count, decoded))) :
    (EmitsJson fun max => ptpEosEventsJson max memory names r avail fuel) ↔
      ∀ event ∈ decoded.events, Skipped event := by
  have hrun := Reader.run_of_view hpayload.shows hview
  obtain ⟨walk, -, -, rfl, rfl⟩ := (ptpEosEvents_iff hpayload).mp ⟨fuel, hview⟩
  have hjson : (fun max => ptpEosEventsJson max memory names r avail fuel) = fun max =>
      printEventList max ((eosDecoded names payload start avail walk).events.length : Int)
        (eosDecoded names payload start avail walk).events := by
    funext max
    have hlength : (eosDecoded names payload start avail walk).events.length = walk.length := by
      rw [eosDecoded_events, List.length_map]
    rw [ptpEosEventsJson, hrun, hlength]
    rfl
  have hplain : ∀ event ∈ (eosDecoded names payload start avail walk).events,
      PlainEvent event := by
    intro event hevent
    rw [eosDecoded_events] at hevent
    obtain ⟨entry, -, rfl⟩ := List.mem_map.mp hevent
    exact eosEventOf_plain hnames _ _
  rw [hjson]
  exact events_emit_iff hplain

/-- When each serialiser emits JSON about what its parser leaves. -/
theorem serialisers_emit_iff {names : EnumNames} (hnames : PlainNames names) (memory : Allocator) :
    (∀ di, CodesInside di → ((EmitsJson fun max => ptpDeviceInfoJson max di) ↔
      ∃ strings, deviceStrings di = .ok strings ∧ StayInside strings [])) ∧
    (∀ so, (EmitsJson fun max => ptpObjectInfoJson max names so) ↔
      ∃ strings, objectStrings so = .ok strings ∧ StayInside strings []) ∧
    (∀ so, EmitsJson fun max => ptpStorageInfoJson max so) ∧
    (∀ (r : PtpRuntime) (oi pd : PtpPropDesc) (allocations n : Nat) (rc : Int) (value : UInt32),
      (ptpParsePropDesc memory allocations r oi).run r.load = .ok (rc, pd, n) →
      isIntegerType pd.dataType.toNat → Fits pd.rangeForm.min →
      ((∃ fuel, EmitsJson fun max => ptpPropDescJson max memory n value pd fuel) ↔
        EntriesEnd memory n pd)) ∧
    (∀ (r : PtpRuntime) (start length : Int) (payload : List UInt8) (avail : AvailList)
      (fuel : Nat) (count : Int) (decoded : EosDecoded), r.HasPayload start length payload →
      (ptpEosEvents memory names r avail fuel).view start payload = some (.ok (count, decoded)) →
      ((EmitsJson fun max => ptpEosEventsJson max memory names r avail fuel) ↔
        ∀ event ∈ decoded.events, Skipped event)) := by
  refine ⟨fun di => deviceInfo_emits_iff, objectInfo_emits_iff hnames, storageInfo_emits, ?_, ?_⟩
  · intro r oi pd allocations n rc value hrun hinteger hmin
    exact propDesc_emits_iff hinteger (formStored_of_run hrun) hmin
  · intro r start length payload avail fuel count decoded hpayload hview
    exact eosEvents_emit_iff hnames hpayload hview

theorem noNames_plain : PlainNames noNames := fun _ _ hname => nomatch hname

/-- The strings of an EOS device without a model or a version. -/
theorem deviceStrings_eosDeviceInfo : deviceStrings eosDeviceInfo = .ok [canonInc, [], [], [], []] := by
  decide +kernel

theorem serialisers_emit_eosDeviceInfo :
    EmitsJson fun max => ptpDeviceInfoJson max eosDeviceInfo := by
  apply ((serialisers_emit_iff noNames_plain zeroedMemory).1 eosDeviceInfo
    ⟨by decide, by decide, by decide⟩).mpr
  refine ⟨_, deviceStrings_eosDeviceInfo, stayInside_of_plain ?_⟩
  decide +kernel

/-- The record of ISO 100 is emitted with a comma and nothing behind it. -/
theorem serialisers_emit_iso : (∃ steps, ptpEosEventsJson 100 zeroedMemory noNames (isoReply 0x48)
      .initial steps = .ok (ascii "[[\"iso\", 100],\n]")) ∧
    ¬WellFormed (ascii "[[\"iso\", 100],\n]") := by
  refine ⟨?_, by decide +kernel⟩
  have hcarried : EosCarried zeroedMemory AvailList.initial.allocated [isoRecord 0x48] :=
    ⟨isoRecord_narrow 0x48, fun h => absurd h (by decide), fun _ _ => trivial⟩
  have hfaithful : EosFaithful zeroedMemory noNames (isoReply 0x48) .initial [isoRecord 0x48] :=
    faithful_of_carried (.inl rfl) (isoReply_hasPayload 0x48) (.inr rfl) hcarried
  obtain ⟨steps, count, decoded, hrun, rfl, -⟩ := hfaithful
  have hevent : eosEventOf noNames (isoRecord 0x48).type (isoRecord 0x48).word =
      ⟨0xD103, some "iso", 100, none⟩ := by decide +kernel
  have hevents := ptpEosEvents_events (.inl rfl) (isoReply_hasPayload 0x48) hrun
  rw [List.map_singleton, hevent] at hevents
  refine ⟨steps, ?_⟩
  rw [ptpEosEventsJson, hrun]
  have hprinted : printEventList 100 ((1 : Nat) : Int) [⟨0xD103, some "iso", 100, none⟩] =
      .ok (ascii "[[\"iso\", 100],\n]") := by decide +kernel
  rw [← hevents] at hprinted
  exact hprinted

end Libpict
