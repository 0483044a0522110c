import Mathlib.Data.List.Basic
import Mathlib.Tactic.Common

/-! # Streams of read results

The results of successive reads of a stream, indexed by the number of earlier
reads: a read fails or delivers elements, possibly none. `received` is everything
delivered so far and `quiet` counts the reads that delivered nothing. How a given
string is cut into reads only shows in the intermediate values of `received`.
-/

namespace ReadStream

variable {α : Type}

/-- What the `k`-th read delivers; a failed read delivers nothing. -/
def chunk (results : Nat → Option (List α)) (k : Nat) : List α := (results k).getD []

/-- Everything delivered by the first `k` reads. -/
def received (results : Nat → Option (List α)) : Nat → List α
  | 0 => []
  | k + 1 => received results k ++ chunk results k

/-- How many of the first `k` reads delivered nothing. -/
def quiet (results : Nat → Option (List α)) : Nat → Nat
  | 0 => 0
  | k + 1 => if (chunk results k).length = 0 then quiet results k + 1 else quiet results k

variable {results : Nat → Option (List α)}

@[simp] theorem received_zero : received results 0 = [] := rfl

theorem received_succ (k : Nat) :
    received results (k + 1) = received results k ++ chunk results k := rfl

theorem received_length_succ (k : Nat) : (received results (k + 1)).length =
    (received results k).length + (chunk results k).length := by
  rw [received_succ, List.length_append]

@[simp] theorem quiet_zero : quiet results 0 = 0 := rfl

theorem quiet_succ_of_nil {k : Nat} (hnil : chunk results k = []) :
    quiet results (k + 1) = quiet results k + 1 := by
  simp [quiet, hnil]

theorem quiet_succ_of_ne_nil {k : Nat} (hne : chunk results k ≠ []) :
    quiet results (k + 1) = quiet results k := by
  have hlength : (chunk results k).length ≠ 0 := fun h => hne (List.length_eq_zero_iff.mp h)
  simp only [quiet, if_neg hlength]

theorem quiet_succ_le (k : Nat) : quiet results (k + 1) ≤ quiet results k + 1 := by
  by_cases hnil : chunk results k = []
  · exact Nat.le_of_eq (quiet_succ_of_nil hnil)
  · rw [quiet_succ_of_ne_nil hnil]
    exact Nat.le_succ _

theorem quiet_le_succ (k : Nat) : quiet results k ≤ quiet results (k + 1) := by
  by_cases hnil : chunk results k = []
  · rw [quiet_succ_of_nil hnil]
    exact Nat.le_succ _
  · exact Nat.le_of_eq (quiet_succ_of_ne_nil hnil).symm

/-- Every read is quiet or delivers at least one element. -/
theorem le_quiet_add_received (k : Nat) : k ≤ quiet results k + (received results k).length := by
  induction k with
  | zero => exact Nat.zero_le _
  | succ k ih =>
      rw [received_length_succ]
      by_cases hnil : chunk results k = []
      · rw [quiet_succ_of_nil hnil]
        omega
      · have hpos := List.length_pos_iff.mpr hnil
        rw [quiet_succ_of_ne_nil hnil]
        omega

/-! ## Reads behind others -/

theorem received_add (j k : Nat) : received results (j + k) =
    received results j ++ received (fun i => results (j + i)) k := by
  induction k with
  | zero => simp
  | succ k ih =>
      rw [← Nat.add_assoc, received_succ, received_succ, ih, List.append_assoc]
      rfl

theorem quiet_add (j k : Nat) :
    quiet results (j + k) = quiet results j + quiet (fun i => results (j + i)) k := by
  induction k with
  | zero => simp
  | succ k ih =>
      have hsame : chunk (fun i => results (j + i)) k = chunk results (j + k) := rfl
      rw [← Nat.add_assoc, quiet, quiet, ih, hsame]
      split_ifs <;> omega

/-- Reads that deliver nothing are all quiet. -/
theorem idle_reads {k : Nat} (hidle : ∀ j < k, chunk results j = []) :
    received results k = [] ∧ quiet results k = k := by
  induction k with
  | zero => exact ⟨rfl, rfl⟩
  | succ k ih =>
      obtain ⟨hreceived, hquiet⟩ := ih fun j hj => hidle j (by omega)
      have hnil := hidle k (Nat.lt_succ_self k)
      rw [received_succ, quiet_succ_of_nil hnil, hreceived, hquiet, hnil]
      exact ⟨rfl, rfl⟩

/-! ## A string delivered in chunks -/

section Chunks

variable {chunks : List (List α)} (hresults : ∀ k (hk : k < chunks.length),
  results k = some chunks[k])

include hresults

theorem chunk_of_chunks {k : Nat} (hk : k < chunks.length) : chunk results k = chunks[k] := by
  simp only [chunk, hresults k hk, Option.getD_some]

theorem received_of_chunks {k : Nat} (hk : k ≤ chunks.length) :
    received results k = (chunks.take k).flatten := by
  induction k with
  | zero => rfl
  | succ k ih =>
      rw [received_succ, ih (by omega), chunk_of_chunks hresults (by omega),
        List.take_succ_eq_append_getElem (by omega), List.flatten_append]
      simp

theorem received_all_chunks : received results chunks.length = chunks.flatten := by
  rw [received_of_chunks hresults (Nat.le_refl _), List.take_length]

/-- Before its last non-empty chunk a string is not complete. -/
theorem received_strict_prefix (hne : ∀ chunk ∈ chunks, chunk ≠ []) {k : Nat}
    (hk : k < chunks.length) :
    ∃ rest, rest ≠ [] ∧ received results k ++ rest = chunks.flatten := by
  refine ⟨(chunks.drop k).flatten, ?_, ?_⟩
  · rw [List.drop_eq_getElem_cons hk, List.flatten_cons]
    intro hnil
    exact hne _ (List.getElem_mem hk) (List.append_eq_nil_iff.mp hnil).1
  · rw [received_of_chunks hresults (Nat.le_of_lt hk), ← List.flatten_append, List.take_append_drop]

theorem quiet_of_chunks (hne : ∀ chunk ∈ chunks, chunk ≠ []) {k : Nat} (hk : k ≤ chunks.length) :
    quiet results k = 0 := by
  induction k with
  | zero => rfl
  | succ k ih =>
      have hchunk : chunk results k ≠ [] := by
        rw [chunk_of_chunks hresults (by omega)]
        exact hne _ (List.getElem_mem _)
      rw [quiet_succ_of_ne_nil hchunk, ih (by omega)]

end Chunks

end ReadStream
