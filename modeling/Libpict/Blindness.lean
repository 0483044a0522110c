import Libpict.Outcome

/-! # What an attempt does not look at

The transport and the operations look at `operation_kill_switch` only outside of an attempt.
An attempt that returns does the same whatever the switch is.
-/

namespace Libpict

open CInt Exec

variable {σ α β ι : Type}

/-- The runtime with the switch cleared. -/
def PtpRuntime.calm (r : PtpRuntime) : PtpRuntime := { r with operationKillSwitch := false }

def calm (w : World σ) : World σ := { w with r := w.r.calm }

/-- The computation does not look at the switch and leaves it alone. -/
def Blind (x : M σ α) : Prop := ∀ w a w', x w = .ok a w' → x (calm w) = .ok a (calm w')

/-! ## Rules -/

theorem blind_pure (a : α) : Blind (pure a : M σ α) := by
  intro w b w' hrun
  obtain ⟨rfl, rfl⟩ := EStateM.Result.ok.inj hrun
  rfl

theorem blind_halt (reason : Halt) : Blind (halt reason : M σ α) := by
  intro w a w' hrun
  cases hrun

theorem Blind.bind {x : M σ α} {f : α → M σ β} (hx : Blind x) (hf : ∀ a, Blind (f a)) :
    Blind (x >>= f) := by
  intro w b w' hrun
  obtain ⟨a, u, hfirst, hrest⟩ := bind_eq_ok.mp hrun
  rw [bind_ok (hx w a u hfirst)]
  exact hf a u b w' hrest

/-- Of the runtime, only what stays without the switch is used. -/
theorem blind_runtime {f : PtpRuntime → M σ β} (hsame : ∀ r : PtpRuntime, f r.calm = f r)
    (hf : ∀ r, Blind (f r)) : Blind (runtime >>= f) := by
  intro w b w' hrun
  rw [bind_ok (runtime_run w)] at hrun
  rw [bind_ok (runtime_run (calm w))]
  exact (congrFun (hsame w.r) (calm w)).trans (hf w.r w b w' hrun)

theorem blind_inspect {read : PtpRuntime → Except Halt α}
    (hsame : ∀ r : PtpRuntime, read r.calm = read r) : Blind (inspect read : M σ α) := by
  intro w a w' hrun
  obtain ⟨hread, rfl⟩ := inspect_eq_ok hrun
  have hcalm : read (calm w').r = .ok a := (hsame w'.r).trans hread
  exact inspect_ok hcalm

theorem blind_setWait (wait : PtpRuntime → Nat) (hsame : ∀ r : PtpRuntime, wait r.calm = wait r) :
    Blind (updateRuntime fun r => { r with waitForResponse := wait r } : M σ Unit) := by
  intro w a w' hrun
  obtain ⟨rfl, rfl⟩ := EStateM.Result.ok.inj hrun
  have hcalm : wait (calm w).r = wait w.r := hsame w.r
  rw [updateRuntime_run, hcalm]
  rfl

theorem blind_iterate {stop : Halt} {body : ι → M σ (ι ⊕ α)} (hbody : ∀ i, Blind (body i))
    (fuel : Nat) (i : ι) : Blind (Exec.iterate stop body fuel i) := by
  induction fuel generalizing i with
  | zero =>
      intro w a w' hrun
      cases hrun
  | succ fuel ih =>
      refine (hbody i).bind fun r => ?_
      cases r with
      | inl next => exact ih next
      | inr a => exact blind_pure a

theorem blind_intAdd (a b : Int) : Blind (intAdd a b : M σ Int) := by
  unfold intAdd
  split
  · exact blind_pure _
  · exact blind_halt _

theorem Blind.ite {p : Prop} [Decidable p] {x y : M σ α} (hx : Blind x) (hy : Blind y) :
    Blind (if p then x else y) := by
  split
  · exact hx
  · exact hy

/-! ## Primitives -/

theorem blind_storeData (offset : Int) (bytes : List UInt8) :
    Blind (storeData offset bytes : M σ Unit) := by
  intro w a w' hrun
  have hdata' : (calm w).r.data = w.r.data := rfl
  unfold storeData PtpRuntime.store at *
  rw [hdata']
  cases hdata : w.r.data with
  | none =>
      rw [hdata] at hrun
      cases hrun
  | some buffer =>
      rw [hdata] at hrun
      dsimp only at hrun ⊢
      by_cases hinside : 0 ≤ offset ∧ offset + bytes.length ≤ buffer.size
      · rw [if_pos hinside] at hrun ⊢
        obtain ⟨_, rfl⟩ := EStateM.Result.ok.inj hrun
        rfl
      · rw [if_neg hinside] at hrun
        cases hrun

variable (B : Backend σ)

theorem blind_cmdWrite (endpoint : Endpoint) (offset size : Int) :
    Blind (cmdWrite B endpoint offset size) := by
  intro w a w' hrun
  have hload : (calm w).r.load offset size = w.r.load offset size := rfl
  unfold cmdWrite at *
  rw [hload]
  cases hbytes : w.r.load offset size with
  | error reason =>
      rw [hbytes] at hrun
      cases hrun
  | ok bytes =>
      rw [hbytes] at hrun
      obtain ⟨rfl, rfl⟩ := EStateM.Result.ok.inj hrun
      rfl

theorem blind_cmdRead (endpoint : Endpoint) (offset size : Int) :
    Blind (cmdRead B endpoint offset size) := by
  intro w a w' hrun
  have hload : (calm w).r.load offset size = w.r.load offset size := rfl
  have hdevice : (calm w).device = w.device := rfl
  unfold cmdRead at *
  dsimp only at hrun ⊢
  rw [hload, hdevice]
  cases hbytes : w.r.load offset size with
  | error reason =>
      rw [hbytes] at hrun
      cases hrun
  | ok bytes =>
      rw [hbytes] at hrun
      dsimp only at hrun ⊢
      generalize B.cmdRead endpoint size.toNat w.device = answer at hrun ⊢
      obtain ⟨got, device⟩ := answer
      cases got with
      | none =>
          obtain ⟨rfl, rfl⟩ := EStateM.Result.ok.inj hrun
          rfl
      | some bytes =>
          obtain ⟨rfl, rfl⟩ := EStateM.Result.ok.inj hrun
          rfl

theorem blind_ptpBufferResize (size : Nat) : Blind (ptpBufferResize B size) := by
  intro w a w' hrun
  have hlength : (calm w).r.dataLength = w.r.dataLength := rfl
  have hreallocs : (calm w).reallocs = w.reallocs := rfl
  unfold ptpBufferResize at *
  dsimp only at hrun ⊢
  rw [hlength, hreallocs]
  split at hrun
  next => cases hrun
  next hup =>
    rw [if_neg hup]
    split at hrun
    next hprovided =>
      rw [if_pos hprovided]
      obtain ⟨rfl, rfl⟩ := EStateM.Result.ok.inj hrun
      rfl
    next hrefused =>
      rw [if_neg hrefused]
      obtain ⟨rfl, rfl⟩ := EStateM.Result.ok.inj hrun
      rfl

/-! ## Packets -/

theorem blind_ptpusbNewCmdPacket (cmd : PtpCommand) : Blind (ptpusbNewCmdPacket cmd : M σ Int) :=
  blind_runtime (fun _ => rfl) fun _ => (blind_storeData _ _).bind fun _ => blind_pure _

theorem blind_ptpNewCmdPacket (cmd : PtpCommand) : Blind (ptpNewCmdPacket cmd : M σ Int) := by
  refine blind_runtime (fun _ => rfl) fun r => ?_
  split
  · exact blind_runtime (fun _ => rfl) fun _ => (blind_storeData _ _).bind fun _ => blind_pure _
  · exact blind_ptpusbNewCmdPacket cmd

theorem blind_ptpusbNewDataPacket (cmd : PtpCommand) (data : List UInt8) :
    Blind (ptpusbNewDataPacket cmd data : M σ Int) :=
  blind_runtime (fun _ => rfl) fun _ => (blind_intAdd _ _).bind fun _ =>
    (blind_storeData _ _).bind fun _ => (blind_storeData _ _).bind fun _ => blind_pure _

theorem blind_ptpipDataStartPacket (length : Int) : Blind (ptpipDataStartPacket length : M σ Int) :=
  blind_runtime (fun _ => rfl) fun _ => (blind_storeData _ _).bind fun _ => blind_pure _

theorem blind_ptpipDataEndPacket (data : List UInt8) : Blind (ptpipDataEndPacket data : M σ Int) :=
  blind_runtime (fun _ => rfl) fun _ => (blind_intAdd _ _).bind fun _ =>
    (blind_storeData _ _).bind fun _ => (blind_storeData _ _).bind fun _ => blind_pure _

theorem blind_ptpSendPacketBody (length : Int) (sent : Nat) :
    Blind (ptpSendPacketBody B length sent) := by
  refine blind_runtime (fun _ => rfl) fun r => ?_
  dsimp only
  cases bulkEndpoint r.connectionType with
  | none => exact blind_halt _
  | some endpoint =>
      refine (blind_cmdWrite B endpoint _ _).bind fun rc => ?_
      cases rc with
      | none => exact blind_pure _
      | some count => exact .ite (blind_halt _) (.ite (blind_pure _) (blind_pure _))

/-! ## Replies -/

theorem blind_ptpusbReadBody (s : BulkRead) : Blind (ptpusbReadBody B s) := by
  refine blind_runtime (fun _ => rfl) fun r => (blind_intAdd _ _).bind fun need => ?_
  refine (Blind.ite (blind_ptpBufferResize B _) (blind_pure _)).bind fun rc => ?_
  refine .ite (blind_pure _) ?_
  cases bulkEndpoint r.connectionType with
  | none => exact blind_halt _
  | some endpoint =>
      refine (blind_cmdRead B endpoint _ _).bind fun rc => ?_
      refine blind_runtime (fun _ => rfl) fun r => ?_
      refine .ite ((blind_setWait (fun r => r.waitForResponse - 1) fun _ => rfl).bind fun _ =>
        blind_pure _) ?_
      cases rc with
      | none => exact blind_pure _
      | some count =>
          refine .ite (blind_pure _) ((blind_inspect fun _ => rfl).bind fun verdict => ?_)
          cases verdict <;> exact blind_pure _

theorem blind_ptpipReadLength (offset : Int) (wait : Nat) (rc : Option Nat) :
    Blind (ptpipReadLength B offset wait rc) := by
  induction wait generalizing rc with
  | zero => exact blind_pure _
  | succ wait ih =>
      refine (blind_cmdRead B .socket offset 4).bind fun rc => ?_
      exact (blind_setWait (fun _ => wait) fun _ => rfl).bind fun _ => .ite (blind_pure _) (ih rc)

theorem blind_ptpipReadRestBody (offset read : Int) : Blind (ptpipReadRestBody B offset read) := by
  refine (blind_inspect fun _ => rfl).bind fun length => ?_
  refine (blind_cmdRead B .socket _ _).bind fun rc => ?_
  cases rc with
  | none => exact blind_pure _
  | some count =>
      exact (blind_intAdd _ _).bind fun read => (blind_inspect fun _ => rfl).bind fun length =>
        .ite (blind_pure _) (blind_pure _)

theorem blind_ptpipReadPacket (fuel : Nat) (offset : Int) :
    Blind (ptpipReadPacket B fuel offset) := by
  have hrest : Blind (ptpipReadRest B fuel offset) := by
    refine (blind_inspect fun _ => rfl).bind fun length => .ite (blind_pure _) ?_
    refine (blind_intAdd _ _).bind fun front => blind_runtime (fun _ => rfl) fun r => ?_
    refine (Blind.ite (blind_ptpBufferResize B _) (blind_pure _)).bind fun rc => ?_
    exact .ite (blind_pure _) (blind_iterate (blind_ptpipReadRestBody B offset) fuel 4)
  refine blind_runtime (fun _ => rfl) fun r => (blind_ptpipReadLength B offset _ _).bind fun rc => ?_
  refine (blind_setWait (fun r => r.responseWaitDefault) fun _ => rfl).bind fun _ => ?_
  cases rc with
  | none => exact blind_pure _
  | some count => exact .ite (blind_pure _) hrest

theorem blind_ptpipReceiveBulkPackets (fuel : Nat) : Blind (ptpipReceiveBulkPackets B fuel) := by
  have hresponse (third : Int) : Blind (ptpipReceiveResponse B fuel third) :=
    (blind_ptpipReadPacket B fuel third).bind fun rc => .ite (blind_pure _) <|
      (blind_inspect fun _ => rfl).bind fun type => .ite (blind_pure _) <|
        (blind_inspect fun _ => rfl).bind fun _ => blind_pure _
  have hdata (second : Int) : Blind (ptpipReceiveData B fuel second) :=
    (blind_ptpipReadPacket B fuel second).bind fun rc => .ite (blind_pure _) <|
      (blind_inspect fun _ => rfl).bind fun type => .ite (blind_pure _) <|
        (blind_inspect fun _ => rfl).bind fun length => (blind_intAdd _ _).bind fun third =>
          hresponse third
  exact (blind_ptpipReadPacket B fuel 0).bind fun rc => .ite (blind_pure _) <|
    (blind_inspect fun _ => rfl).bind fun type => .ite (hdata rc) <|
      .ite ((blind_inspect fun _ => rfl).bind fun _ => blind_pure _) (blind_pure _)

theorem blind_receiveReply (fuel : Nat) : Blind (receiveReply B fuel) := by
  have husb : Blind (ptpusbReadAllPackets B fuel) :=
    (blind_setWait (fun r => r.responseWaitDefault) fun _ => rfl).bind fun _ =>
      blind_iterate (blind_ptpusbReadBody B) fuel _
  refine Blind.bind ?_ fun rc => .ite (blind_pure _) (blind_pure _)
  refine blind_runtime (fun _ => rfl) fun r => ?_
  cases r.connectionType with
  | ip => exact blind_ptpipReceiveBulkPackets B fuel
  | usb => exact husb
  | ipUsb => exact husb
  | ble => exact blind_halt _

end Libpict
