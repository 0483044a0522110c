import Libpict.BulkReceive

/-! # Scripted devices

A device that answers the reads of its host from a list, whatever the host writes.
Once the list is empty it stays silent. `scriptedCall` is a call of the USB-style
receive loop on a fresh runtime and such a device.
-/

namespace Libpict

open CInt PtpRuntime

/-- A script has one entry for each read; a failed read is `none`. -/
def scripted : Backend (List (Option (List UInt8))) where
  cmdWrite _ bytes script := (some bytes.length, script)
  cmdRead _ size script :=
    match script with
    | [] => (some ⟨[], Nat.zero_le _⟩, [])
    | none :: rest => (none, rest)
    | some bytes :: rest => (some ⟨bytes.take size, List.length_take_le _ _⟩, rest)
  realloc _ _ := true

theorem scripted_afterReads (endpoint : Endpoint) (size : Nat → Nat)
    (script : List (Option (List UInt8))) (k : Nat) :
    scripted.afterReads endpoint size script k = script.drop k := by
  induction k with
  | zero => rfl
  | succ k ih =>
      rw [Backend.afterReads, ih, ← List.drop_drop]
      cases script.drop k with
      | nil => rfl
      | cons entry rest => cases entry <;> rfl

/-- The `k`-th read gets the `k`-th entry, cut to the size it asks for. -/
theorem scripted_reads (endpoint : Endpoint) (size : Nat → Nat) (script : List (Option (List UInt8)))
    {k : Nat} (hk : k < script.length) :
    scripted.reads endpoint size script k = script[k].map (List.take (size k)) := by
  rw [Backend.reads, scripted_afterReads, Backend.readResult, List.drop_eq_getElem_cons hk]
  cases script[k] <;> rfl

/-- A response without parameters to the first transaction. -/
def okResponse : List UInt8 := Container.bytes 3 ⟨0x2001, 0, []⟩

/-- A fresh runtime on a scripted device. -/
def scriptedWorld (maxPacketSize : Int) (script : List (Option (List UInt8))) :
    World (List (Option (List UInt8))) where
  r := { ptpInit (some fun _ => 0) with
    ioKillSwitch := false
    operationKillSwitch := false
    maxPacketSize := maxPacketSize }
  device := script
  reallocs := 0
  log := []

theorem scriptedWorld_ready (maxPacketSize : Int) (script : List (Option (List UInt8))) :
    (scriptedWorld maxPacketSize script).r.Ready ⟨ptpDefaultSize, fun _ => 0⟩ :=
  ⟨rfl, rfl, (by decide : (ptpDefaultSize : Int) ≤ intMax), le_rfl⟩

def scriptedCall (packet : Nat) (script : List (Option (List UInt8))) : BulkCall scripted where
  start := scriptedWorld packet script
  buffer := ⟨ptpDefaultSize, fun _ => 0⟩
  endpoint := .usb
  data := rfl
  dataLength := rfl
  size_le := by decide
  endpoint_eq := rfl
  packet_nonneg := Int.natCast_nonneg packet

@[simp] theorem scriptedCall_packet (packet : Nat) (script : List (Option (List UInt8))) (k : Nat) :
    (scriptedCall packet script).packet k = packet := by
  cases k <;> exact Int.toNat_natCast packet

/-- Chunks that fit in the packet size arrive as they are. -/
theorem scriptedCall_results {packet : Nat} {chunks : List (List UInt8)}
    (hpacket : ∀ chunk ∈ chunks, chunk.length ≤ packet) (k : Nat) (hk : k < chunks.length) :
    (scriptedCall packet (chunks.map some)).results k = some chunks[k] := by
  have hlength : k < (chunks.map some).length := by simpa using hk
  have htake : chunks[k].take packet = chunks[k] :=
    List.take_of_length_le (hpacket _ (List.getElem_mem hk))
  have hreads := scripted_reads .usb (scriptedCall packet (chunks.map some)).packet _ hlength
  rw [scriptedCall_packet, List.getElem_map, Option.map_some, htake] at hreads
  exact hreads

/-- A run returns, and in the given way. -/
def returnsOn {α σ : Type} (x : M σ α) (w : World σ) (how : α → World σ → Bool) : Bool :=
  match x w with
  | .ok a v => how a v
  | .error _ _ => false

theorem run_of_returnsOn {α σ : Type} (x : M σ α) (w : World σ) (how : α → World σ → Bool)
    (hrun : returnsOn x w how = true) : ∃ a v, x w = .ok a v ∧ how a v = true := by
  unfold returnsOn at hrun
  split at hrun
  next a v hx => exact ⟨a, v, hx, hrun⟩
  next => cases hrun

end Libpict
