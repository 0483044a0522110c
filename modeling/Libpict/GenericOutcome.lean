import Libpict.GenericProperty

/-! # What a generic property reports

The commands that one call sends to the device, with the code that each of them returns, and
when the result of the call tells of them: a success stands for a change that was made, and a
value outside the recorded list goes no further.
-/

namespace Libpict

open Bytes CInt Exec

/-- The property and the camera's number for it, of a name with a list of allowed values. -/
def listedSetting (name : String) (value : Int) : Option (Nat × Int) :=
  if name = "aperture" then some (ptpDpcEosAperture, ptpEosGetAperture value true)
  else if name = "iso" then some (ptpDpcEosIsoSpeed, ptpEosGetIso value true)
  else if name = "shutter speed" then some (ptpDpcEosShutterSpeed, ptpEosGetShutter value true)
  else none

/-- The list recorded for the property has been read through, and the value is not there. -/
def Excludes (avail : AvailList) (propCode : Nat) (value : Int) : Prop :=
  ∃ node, Keyed.find PtpPropAvail.code propCode avail.nodes = some node ∧
    ∀ i < node.membCnt.toNat, ∃ member, node.member i = .ok member ∧ member ≠ toUInt32 value

section Lists

variable {avail : AvailList} {propCode : Nat} {value : Int}

theorem searchMembers_eq_two {node : PtpPropAvail} {sought : UInt32} {left i : Nat} :
    searchMembers node sought left i = .ok 2 ↔
      ∀ j, i ≤ j → j < i + left → ∃ member, node.member j = .ok member ∧ member ≠ sought.toNat := by
  induction left generalizing i with
  | zero =>
      refine iff_of_true rfl fun j hle hlt => ?_
      omega
  | succ left ih =>
      rw [searchMembers, except_bind_eq_ok]
      constructor
      · rintro ⟨member, hmember, hrest⟩ j hle hlt
        split at hrest
        next => cases hrest
        next hother =>
          rcases Nat.eq_or_lt_of_le hle with rfl | hnext
          · exact ⟨member, hmember, Ne.symm hother⟩
          · exact ih.mp hrest j hnext (by omega)
      · intro hall
        obtain ⟨member, hmember, hother⟩ := hall i le_rfl (by omega)
        refine ⟨member, hmember, ?_⟩
        rw [if_neg (Ne.symm hother)]
        exact ih.mpr fun j hle hlt => hall j (by omega) (by omega)

/-- The check answers 2 for the values that the list excludes, and for no others. -/
theorem validate_eq_two : ptpValidatePropertyValue avail propCode
    (UInt32.ofNat (toUInt32 value)) = .ok 2 ↔ Excludes avail propCode value := by
  have hlt : toUInt32 value < 4294967296 := by
    unfold toUInt32
    omega
  have hsought : (UInt32.ofNat (toUInt32 value)).toNat = toUInt32 value :=
    UInt32.toNat_ofNat_of_lt' hlt
  unfold ptpValidatePropertyValue Excludes
  cases Keyed.find PtpPropAvail.code (propCode : Int) avail.nodes with
  | none => simp
  | some node => simp [searchMembers_eq_two, hsought]

/-- What is sent of an excluded value is nothing. -/
theorem validated_of_excludes (hexcludes : Excludes avail propCode value) :
    validated avail propCode value = .ok [] := by
  rw [validated, validate_eq_two.mpr hexcludes]
  rfl

end Lists

/-! ## The commands of a call -/

section Commands

variable {σ : Type} (B : Backend σ) (fuel : Nat) (avail : AvailList) (dev : PtpVendor)
  (name : String) (value : Int)

/-- The names that `ptp_set_generic_property` knows. -/
def genericNames : List String := ["aperture", "iso", "shutter speed", "white balance"]

/-- The set-property commands of a call: the property and its number. -/
def genericCommands : Except Halt (List (Nat × Int)) :=
  if dev = .eos then genericSettings avail name value else .ok []

/-- The result of a call that has no command to send. -/
def idleResult : Int :=
  if name ∈ genericNames then if dev = .eos then 2 else 0 else PtpGeneralError.unsupported

variable {name} in
theorem ne_of_unknown (hname : name ∉ genericNames) : name ≠ "aperture" ∧ name ≠ "iso" ∧
    name ≠ "shutter speed" ∧ name ≠ "white balance" := by
  simpa [genericNames] using hname

variable {name} in
theorem cases_of_known (hname : name ∈ genericNames) : name = "aperture" ∨ name = "iso" ∨
    name = "shutter speed" ∨ name = "white balance" := by
  simpa [genericNames] using hname

variable {avail dev name value} in
theorem genericCommands_unknown (hname : name ∉ genericNames) :
    genericCommands avail dev name value = .ok [] := by
  obtain ⟨haperture, hiso, hshutter, hbalance⟩ := ne_of_unknown hname
  rw [genericCommands, genericSettings, if_neg haperture, if_neg hiso, if_neg hshutter,
    if_neg hbalance, ite_self]

/-- A call sends its commands, one after the other, and returns what the last one does. -/
theorem ptpSetGenericProperty_commands {di : Option PtpDeviceInfo}
    (hdev : ptpDeviceType di = .ok dev) (w : World σ) :
    ptpSetGenericProperty B fuel avail di name value w =
      (do
        let commands ← inspect fun _ => genericCommands avail dev name value
        sendSettings B fuel (idleResult dev name) commands : M σ Int) w := by
  by_cases hname : name ∈ genericNames
  · rw [idleResult, if_pos hname, genericCommands]
    by_cases heos : dev = .eos
    · subst heos
      rw [if_pos rfl, if_pos rfl]
      exact ptpSetGenericProperty_run hdev hname value w
    · rw [if_neg heos, if_neg heos, ptpSetGenericProperty, bind_ok (answer_ok hdev w)]
      -- the other vendors answer 0 to every name that is known
      rcases cases_of_known hname with rfl | rfl | rfl | rfl <;> simp only [heos] <;> rfl
  · rw [idleResult, if_neg hname, genericCommands_unknown hname, ptpSetGenericProperty,
      bind_ok (answer_ok hdev w)]
    obtain ⟨haperture, hiso, hshutter, hbalance⟩ := ne_of_unknown hname
    rw [if_neg haperture, if_neg hiso, if_neg hshutter, if_neg hbalance]
    rfl

/-- A run of commands, with the code that each returns. -/
inductive SendsAll : World σ → List (Nat × Int) → List Int → World σ → Prop
  | none {w : World σ} : SendsAll w [] [] w
  | command {w after t : World σ} {propCode : Nat} {sent rc : Int} {rest : List (Nat × Int)}
      {codes : List Int} (hsend : ptpEosSetPropValue B fuel propCode sent w = .ok rc after)
      (hrest : SendsAll after rest codes t) :
      SendsAll w ((propCode, sent) :: rest) (rc :: codes) t

variable {B fuel avail dev name value}

/-- The loop sends all the settings and returns the last code. -/
theorem sendSettings_sends {rc result : Int} {commands : List (Nat × Int)} {w t : World σ}
    (hrun : sendSettings B fuel rc commands w = .ok result t) :
    ∃ codes, SendsAll B fuel w commands codes t ∧ result = codes.getLastD rc := by
  induction commands generalizing rc w with
  | nil =>
      cases hrun
      exact ⟨[], .none, rfl⟩
  | cons command rest ih =>
      obtain ⟨propCode, sent⟩ := command
      obtain ⟨code, after, hsend, hrest⟩ := bind_eq_ok.mp hrun
      obtain ⟨codes, hsends, hresult⟩ := ih hrest
      exact ⟨code :: codes, .command hsend hsends, by rw [hresult, List.getLastD_cons]⟩

theorem SendsAll.run {rc : Int} {commands : List (Nat × Int)} {codes : List Int} {w t : World σ}
    (hsends : SendsAll B fuel w commands codes t) :
    sendSettings B fuel rc commands w = .ok (codes.getLastD rc) t := by
  induction hsends generalizing rc with
  | none => rfl
  | command hsend _ ih => rw [sendSettings, bind_ok hsend, ih, List.getLastD_cons]

/-- A run of the same commands ends in one way. -/
theorem SendsAll.unique {commands : List (Nat × Int)} {first second : List Int} {w t u : World σ}
    (hfirst : SendsAll B fuel w commands first t) (hsecond : SendsAll B fuel w commands second u) :
    first = second ∧ t = u := by
  induction hfirst generalizing second with
  | none =>
      cases hsecond
      exact ⟨rfl, rfl⟩
  | command hsend _ ih =>
      cases hsecond with
      | command hsend' hrest' =>
          rw [hsend] at hsend'
          cases hsend'
          obtain ⟨rfl, rfl⟩ := ih hrest'
          exact ⟨rfl, rfl⟩

end Commands

section Names

variable {avail : AvailList} {dev : PtpVendor} {name : String} {value : Int}

/-- A name with a list has one command, or none if the list excludes the value. -/
theorem listed_commands {propCode : Nat} {sent : Int} {commands : List (Nat × Int)}
    (hlisted : listedSetting name value = some (propCode, sent))
    (hcommands : genericCommands avail .eos name value = .ok commands) :
    commands = [(propCode, sent)] ∧ ¬Excludes avail propCode sent ∨
      commands = [] ∧ Excludes avail propCode sent := by
  have hvalidated : validated avail propCode sent = .ok commands := by
    rw [genericCommands, if_pos rfl] at hcommands
    rw [← hcommands, genericSettings]
    unfold listedSetting at hlisted
    split at hlisted
    next haperture =>
      cases hlisted
      rw [if_pos haperture]
    next haperture =>
      split at hlisted
      next hiso =>
        cases hlisted
        rw [if_neg haperture, if_pos hiso]
      next hiso =>
        split at hlisted
        next hshutter =>
          cases hlisted
          rw [if_neg haperture, if_neg hiso, if_pos hshutter]
        next => cases hlisted
  -- the list is asked about the value that would be sent
  by_cases hexcludes : Excludes avail propCode sent
  · rw [validated_of_excludes hexcludes] at hvalidated
    exact .inr ⟨(Except.ok.inj hvalidated).symm, hexcludes⟩
  · rw [validated] at hvalidated
    obtain ⟨rc, hvalid, hdone⟩ := except_bind_eq_ok.mp hvalidated
    have htwo : rc ≠ 2 := fun h => hexcludes (validate_eq_two.mp (h ▸ hvalid))
    rw [if_neg htwo] at hdone
    exact .inl ⟨(Except.ok.inj hdone).symm, hexcludes⟩

theorem whiteBalance_commands : genericCommands avail .eos "white balance" value =
    .ok [(ptpDpcEosWhiteBalance, ptpEosGetWhiteBalance value true),
      (ptpDpcEosEvfwbMode, ptpEosGetWhiteBalance value true)] := by
  simp [genericCommands, genericSettings]

theorem listed_of_known (hname : name ∈ genericNames) (hbalance : name ≠ "white balance") :
    ∃ setting, listedSetting name value = some setting := by
  rcases cases_of_known hname with rfl | rfl | rfl | rfl
  · exact ⟨_, rfl⟩
  · exact ⟨_, rfl⟩
  · exact ⟨_, rfl⟩
  · exact absurd rfl hbalance

end Names

/-! ## What the result tells -/

section Reports

variable {σ : Type} (B : Backend σ) (fuel : Nat) (avail : AvailList)

/-- A call that returns 0 has sent a command, and 0 came back for every one it has sent; a call
for an excluded value sends none and does not return 0. -/
def GenericReports (di : Option PtpDeviceInfo) (dev : PtpVendor) (name : String) (value : Int)
    (w : World σ) : Prop :=
  ∀ rc t, ptpSetGenericProperty B fuel avail di name value w = .ok rc t →
    ∃ commands codes, genericCommands avail dev name value = .ok commands ∧
      SendsAll B fuel w commands codes t ∧
      (rc = 0 → commands ≠ [] ∧ ∀ code ∈ codes, code = 0) ∧
      ∀ propCode sent, listedSetting name value = some (propCode, sent) →
        Excludes avail propCode sent → commands = [] ∧ rc ≠ 0

/-- The second of the two writes of a white balance does not succeed after a first one that
has failed. -/
def SecondWriteTells (value : Int) (w : World σ) : Prop :=
  ∀ first after t,
    ptpEosSetPropValue B fuel ptpDpcEosWhiteBalance (ptpEosGetWhiteBalance value true) w =
      .ok first after →
    ptpEosSetPropValue B fuel ptpDpcEosEvfwbMode (ptpEosGetWhiteBalance value true) after =
      .ok 0 t → first = 0

variable {B fuel avail} {di : Option PtpDeviceInfo} {dev : PtpVendor} {name : String} {value : Int}
  {w : World σ} (hdev : ptpDeviceType di = .ok dev)

include hdev

/-- What there is to show of a call is shown of the commands it sends. -/
theorem genericReports_of_commands
    (hreports : ∀ commands codes t, genericCommands avail dev name value = .ok commands →
      SendsAll B fuel w commands codes t →
      (codes.getLastD (idleResult dev name) = 0 → commands ≠ [] ∧ ∀ code ∈ codes, code = 0) ∧
      ∀ propCode sent, listedSetting name value = some (propCode, sent) →
        Excludes avail propCode sent → commands = [] ∧ codes.getLastD (idleResult dev name) ≠ 0) :
    GenericReports B fuel avail di dev name value w := by
  intro rc t hrun
  rw [ptpSetGenericProperty_commands B fuel avail dev name value hdev] at hrun
  obtain ⟨commands, w', hcommands, hsend⟩ := bind_eq_ok.mp hrun
  cases hgeneric : genericCommands avail dev name value with
  | error reason =>
      rw [answer_error hgeneric] at hcommands
      exact nomatch hcommands
  | ok found =>
      rw [answer_ok hgeneric] at hcommands
      cases hcommands
      obtain ⟨codes, hsends, rfl⟩ := sendSettings_sends hsend
      exact ⟨commands, codes, rfl, hsends, hreports commands codes t hgeneric hsends⟩

/-- A call that sends some commands reports only what has been made of these. -/
theorem GenericReports.of_sends {commands : List (Nat × Int)} {codes : List Int} {t : World σ}
    (hreports : GenericReports B fuel avail di dev name value w)
    (hcommands : genericCommands avail dev name value = .ok commands)
    (hsends : SendsAll B fuel w commands codes t)
    (hzero : codes.getLastD (idleResult dev name) = 0) : commands ≠ [] ∧ ∀ code ∈ codes, code = 0 := by
  have hrun : ptpSetGenericProperty B fuel avail di name value w = .ok 0 t := by
    rw [ptpSetGenericProperty_commands B fuel avail dev name value hdev,
      bind_ok (answer_ok hcommands w), hsends.run, hzero]
  obtain ⟨commands', codes', hcommands', hsends', htells, -⟩ := hreports 0 t hrun
  rw [hcommands] at hcommands'
  cases hcommands'
  obtain ⟨rfl, -⟩ := hsends.unique hsends'
  exact htells rfl

theorem reports_of_listed {propCode : Nat} {sent : Int} (hname : name ∈ genericNames)
    (heos : dev = .eos) (hlisted : listedSetting name value = some (propCode, sent)) :
    GenericReports B fuel avail di dev name value w := by
  subst heos
  apply genericReports_of_commands hdev
  intro commands codes t hcommands hsends
  have hidle : idleResult .eos name = 2 := by rw [idleResult, if_pos hname, if_pos rfl]
  rw [hidle]
  obtain ⟨rfl, hnot⟩ | ⟨rfl, -⟩ := listed_commands hlisted hcommands
  · cases hsends with
    | command hsend hrest =>
        cases hrest
        refine ⟨fun hzero => ⟨List.cons_ne_nil _ _, ?_⟩, fun propCode' sent' hlisted' => ?_⟩
        · intro code hmem
          rwa [List.mem_singleton.mp hmem]
        · rw [hlisted] at hlisted'
          cases hlisted'
          exact fun h => absurd h hnot
  · cases hsends
    exact ⟨fun hzero => absurd hzero (by decide), fun _ _ _ _ => ⟨rfl, by decide⟩⟩

/-- A white balance is written twice, and the second code is what is returned. -/
theorem whiteBalance_reports_iff (heos : dev = .eos) :
    GenericReports B fuel avail di dev "white balance" value w ↔ SecondWriteTells B fuel value w := by
  subst heos
  constructor
  · intro hreports first after t hfirst hsecond
    have hsends := SendsAll.command hfirst (.command hsecond .none)
    obtain ⟨-, hcodes⟩ := hreports.of_sends hdev whiteBalance_commands hsends rfl
    exact hcodes first List.mem_cons_self
  · intro htells
    apply genericReports_of_commands hdev
    intro commands codes t hcommands hsends
    rw [whiteBalance_commands] at hcommands
    cases hcommands
    cases hsends with
    | command hfirst hrest =>
        cases hrest with
        | command hsecond hend =>
            cases hend
            refine ⟨fun hzero => ⟨List.cons_ne_nil _ _, ?_⟩, fun _ _ hlisted => nomatch hlisted⟩
            have hlast : _ = (0 : Int) := hzero
            subst hlast
            simpa using htells _ _ _ hfirst hsecond

theorem reports_of_unknown (hname : name ∉ genericNames) :
    GenericReports B fuel avail di dev name value w := by
  have hcommands : genericCommands avail dev name value = .ok [] := genericCommands_unknown hname
  have hidle : idleResult dev name = PtpGeneralError.unsupported := if_neg hname
  apply genericReports_of_commands hdev
  intro commands codes t hfound hsends
  rw [hcommands] at hfound
  cases hfound
  cases hsends
  rw [hidle]
  exact ⟨fun hzero => absurd hzero (by decide), fun _ _ _ _ => ⟨rfl, by decide⟩⟩

/-- For a device of another make a known name is a success without a command. -/
theorem not_reports_of_other (hname : name ∈ genericNames) (hother : dev ≠ .eos) :
    ¬GenericReports B fuel avail di dev name value w := by
  intro hreports
  have hcommands : genericCommands avail dev name value = .ok [] := if_neg hother
  have hidle : idleResult dev name = 0 := by rw [idleResult, if_pos hname, if_neg hother]
  exact (hreports.of_sends hdev hcommands .none hidle).1 rfl

end Reports

/-- A call sends its commands and no others, and its result tells of them exactly if the name is
not known, or the device is an EOS camera and a failed first write of a white balance is not
covered up by the second. -/
theorem ptpSetGenericProperty_reports_iff {σ : Type} (B : Backend σ) (fuel : Nat)
    (avail : AvailList) (di : Option PtpDeviceInfo) (dev : PtpVendor)
    (hdev : ptpDeviceType di = .ok dev) (name : String) (value : Int) (w : World σ) :
    (ptpSetGenericProperty B fuel avail di name value w =
      (do
        let commands ← inspect fun _ => genericCommands avail dev name value
        sendSettings B fuel (idleResult dev name) commands : M σ Int) w) ∧
    (GenericReports B fuel avail di dev name value w ↔
      name ∉ genericNames ∨
        dev = .eos ∧ (name = "white balance" → SecondWriteTells B fuel value w)) := by
  refine ⟨ptpSetGenericProperty_commands B fuel avail dev name value hdev w, ?_⟩
  by_cases hname : name ∈ genericNames
  · rw [or_iff_right (not_not.mpr hname)]
    by_cases heos : dev = .eos
    · rw [and_iff_right heos]
      by_cases hbalance : name = "white balance"
      · subst hbalance
        exact (whiteBalance_reports_iff hdev heos).trans ⟨fun htells _ => htells, fun h => h rfl⟩
      · obtain ⟨⟨propCode, sent⟩, hlisted⟩ : ∃ setting, listedSetting name value = some setting :=
          listed_of_known hname hbalance
        exact iff_of_true (reports_of_listed hdev hname heos hlisted) fun h => absurd h hbalance
    · exact iff_of_false (not_reports_of_other hdev hname heos) fun h => heos h.1
  · exact iff_of_true (reports_of_unknown hdev hname) (.inl hname)

/-- ISO 100 for a camera that has told nothing of its values. -/
theorem reports_iso_100 : GenericReports scripted 3 .initial (some eosDeviceInfo) .eos "iso" 100
    (scriptedWorld 512 [some okResponse]) :=
  (ptpSetGenericProperty_reports_iff scripted 3 .initial _ _ ptpDeviceType_eosDeviceInfo "iso" 100
    _).2.mpr (.inr ⟨rfl, fun h => absurd h (by decide)⟩)

/-- Nothing is known of the device: nothing is sent, and 0 is returned. -/
theorem not_reports_iso_other : ptpSetGenericProperty scripted 3 .initial none "iso" 100
      (scriptedWorld 512 []) = .ok 0 (scriptedWorld 512 []) ∧
    ¬GenericReports scripted 3 .initial none .empty "iso" 100 (scriptedWorld 512 []) :=
  ⟨rfl, not_reports_of_other rfl (by decide) (by decide)⟩

end Libpict
