import Libpict.Accessors
import Libpict.Scripted

/-! # Reassembly of USB-style replies

A well-formed reply is put together the same way however the backend cuts it into
reads, as long as the sizes that the loop computes on the way fit in an `int` and the
allocator has the memory.
-/

namespace Libpict

open Bytes CInt PtpRuntime

variable {σ : Type} {B : Backend σ}

namespace UsbReply

variable {reply : UsbReply}

theorem bulkResponseOffset_bytes (hfits : (reply.bytes.length : Int) ≤ intMax) :
    bulkResponseOffset reply.bytes = reply.front.length := by
  rw [bytes_length, intMax] at hfits
  unfold bulkResponseOffset
  obtain ⟨data, response⟩ := reply
  cases data with
  | none =>
      have htype := field_response_type ⟨none, response⟩
      have hfront : front ⟨none, response⟩ = [] := rfl
      rw [hfront, List.length_nil, Nat.zero_add] at htype
      rw [htype, if_neg (by decide), hfront, List.length_nil]
  | some data =>
      have hbytes : bytes ⟨some data, response⟩ =
          data.bytes ptpPacketTypeData ++ response.bytes ptpPacketTypeResponse := rfl
      have hfront : front ⟨some data, response⟩ = data.bytes ptpPacketTypeData := rfl
      rw [hfront, Container.bytes_length] at hfits
      rw [hbytes, data.field_type _ (by decide), if_pos rfl, data.field_length _ (by omega), hfront,
        Container.bytes_length]

/-- A runtime that holds a reply presents it: the code and transaction of the response
container, and the body of the data container as the payload. -/
structure Presented (reply : UsbReply) (r : PtpRuntime) : Prop where
  code : ptpGetReturnCode r = .ok (reply.response.code.toNat : Int)
  transaction : ptpGetLastTransactionId r = .ok (toInt32 reply.response.transaction.toNat)
  payload : ∀ data, reply.data = some data → ptpGetPayload r = .ok 12 ∧
    ptpGetPayloadLength r = .ok (data.body.length : Int) ∧
    r.load 12 data.body.length = .ok data.body

theorem presented_of_holds {r : PtpRuntime} (hconn : r.connectionType ≠ .ip)
    (hholds : r.Holds reply.bytes) (hfits : (reply.bytes.length : Int) ≤ intMax) :
    reply.Presented r := by
  have hoffset := bulkResponseOffset_bytes hfits
  have hlength := reply.bytes_length
  have hheader : bulkResponseOffset reply.bytes + 12 ≤ reply.bytes.length := by omega
  refine ⟨?_, ?_, ?_⟩
  · rw [ptpGetReturnCode_bulk hconn hholds hheader, hoffset, reply.field_response,
      Container.field_code]
  · rw [ptpGetLastTransactionId_bulk hconn hholds hheader, hoffset, reply.field_response,
      Container.field_transaction]
  · intro data hdata
    have hfront : reply.front = data.bytes ptpPacketTypeData := by rw [front, hdata]; rfl
    have hbytes : reply.bytes =
        data.bytes ptpPacketTypeData ++ reply.response.bytes ptpPacketTypeResponse := by
      rw [bytes, hfront]
    rw [hfront, Container.bytes_length] at hlength
    rw [hlength, intMax] at hfits
    have hfirst : field 4 0 reply.bytes = 12 + data.body.length := by
      rw [hbytes, data.field_length _ (by omega)]
    have htype : field 2 4 reply.bytes = ptpPacketTypeData := by
      rw [hbytes, data.field_type _ (by decide)]
    refine ⟨?_, ?_, ?_⟩
    · rw [ptpGetPayload_bulk hconn hholds hheader, htype, if_neg (by decide)]
    · have hpayload : toInt32 (toUInt32 ((12 + data.body.length : Nat) - 12)) =
          data.body.length := by
        unfold toInt32 toUInt32
        omega
      rw [ptpGetPayloadLength_bulk hconn hholds hheader, hfirst, hpayload]
    · have hload := hholds.load 12 data.body.length (by omega)
      rw [hbytes, data.body_slice] at hload
      exact hload

end UsbReply

namespace BulkCall

variable (c : BulkCall B)

theorem connectionType_ne_ip : c.start.r.connectionType ≠ .ip := by
  intro hip
  have hendpoint := c.endpoint_eq
  rw [hip] at hendpoint
  cases hendpoint

theorem At.connectionType {k : Nat} {w : World σ} (hat : c.At k w) :
    w.r.connectionType = c.start.r.connectionType := by
  obtain ⟨buffer, _, _, hr⟩ := hat.runtime
  rw [hr]

/-- The call returns 0 with the reply at the start of the buffer, after exactly the
reads that delivered the chunks. -/
def Reassembles (reply : UsbReply) (chunks : List (List UInt8)) : Prop :=
  ∃ w, (∃ enough, ∀ fuel ≥ enough, ptpusbReadAllPackets B fuel c.start = .ok 0 w) ∧
    w.log = c.start.log ++ c.calls chunks.length ∧
    w.device = B.afterReads c.endpoint c.packet c.start.device chunks.length ∧
    w.r.Holds reply.bytes ∧ reply.Presented w.r

section Chunks

variable {c} {reply : UsbReply} {chunks : List (List UInt8)}
  (hfits : (reply.bytes.length : Int) ≤ intMax) (hchunks : chunks.flatten = reply.bytes)
  (hne : ∀ chunk ∈ chunks, chunk ≠ [])
  (hresults : ∀ k (hk : k < chunks.length), c.results k = some chunks[k])

include hfits hchunks hne hresults

/-- Whatever chunk completes the reply, the round that reads it is the last one. -/
theorem outcome_of_chunks {k : Nat} (hk : k < chunks.length) :
    c.outcome k = if k + 1 = chunks.length then some 0 else none := by
  have hchunk : ReadStream.chunk c.results k ≠ [] := by
    rw [ReadStream.chunk_of_chunks hresults hk]
    exact hne _ (List.getElem_mem hk)
  have hquiet : c.quiet k = 0 := ReadStream.quiet_of_chunks hresults hne hk.le
  have hread : c.results k ≠ none := by
    rw [hresults k hk]
    simp
  have hwait : ¬(c.wait ≠ 0 ∧ c.wait ≤ c.quiet k) := by omega
  unfold outcome
  rw [if_neg (fun h => hchunk h.1), if_neg hread, if_neg hwait]
  by_cases hlast : k + 1 = chunks.length
  · have hall : c.received (k + 1) = reply.bytes := by
      rw [hlast, received, ReadStream.received_all_chunks hresults, hchunks]
    rw [hall, reply.verdictOf_bytes hfits, if_pos hlast]
  · obtain ⟨rest, hrest, hsplit⟩ := ReadStream.received_strict_prefix hresults hne
      (k := k + 1) (by omega)
    rw [hchunks] at hsplit
    have hmore : verdictOf (c.received (k + 1)) = .more :=
      reply.verdictOf_prefix hfits hsplit hrest
    rw [hmore, if_neg hlast]

end Chunks

end BulkCall

/-- A call that reassembles a reply had room in every round: the first round without
room would have been the last one, and would not have returned 0. -/
theorem BulkCall.Reassembles.room {c : BulkCall B} {reply : UsbReply} {chunks : List (List UInt8)}
    (hreassembles : c.Reassembles reply chunks) (hfits : (reply.bytes.length : Int) ≤ intMax)
    (hchunks : chunks.flatten = reply.bytes) (hne : ∀ chunk ∈ chunks, chunk ≠ [])
    (hresults : ∀ k (hk : k < chunks.length), c.results k = some chunks[k]) :
    ∀ k < chunks.length, c.FitsAt k ∧ c.Allocates k := by
  obtain ⟨w, ⟨enough, hrun⟩, _⟩ := hreassembles
  intro k
  induction k using Nat.strong_induction_on with
  | _ k ih =>
      intro hk
      have hgoesOn : ∀ j < k, c.GoesOn j := by
        intro j hj
        obtain ⟨hfitsAt, hallocates⟩ := ih j hj (by omega)
        refine ⟨hfitsAt, hallocates, ?_⟩
        rw [BulkCall.outcome_of_chunks hfits hchunks hne hresults (by omega), if_neg (by omega)]
      have hfuel : max enough (k + 1) > k := lt_of_lt_of_le (Nat.lt_succ_self k) (le_max_right _ _)
      have hreturns : c.run (max enough (k + 1)) = .ok 0 w := hrun _ (le_max_left _ _)
      by_contra hroom
      by_cases hfitsAt : c.FitsAt k
      · obtain ⟨w', _, hmemory⟩ := c.run_outOfMem hgoesOn hfitsAt fun h => hroom ⟨hfitsAt, h⟩
        rw [hmemory _ hfuel] at hreturns
        cases hreturns
      · obtain ⟨reason, w', _, _, hstuck⟩ := c.run_stuck hgoesOn hfitsAt
        rw [hstuck _ hfuel] at hreturns
        cases hreturns

/-- The USB-style receive loop reassembles a reply from its chunks exactly if the sizes
it computes fit in an `int` and the allocator has the memory for them. -/
theorem ptpusbReadAllPackets_reassembles (c : BulkCall B) (reply : UsbReply)
    (chunks : List (List UInt8)) (hfits : (reply.bytes.length : Int) ≤ intMax)
    (hchunks : chunks.flatten = reply.bytes) (hne : ∀ chunk ∈ chunks, chunk ≠ [])
    (hresults : ∀ k (hk : k < chunks.length), c.results k = some chunks[k]) :
    c.Reassembles reply chunks ↔ ∀ k < chunks.length, c.FitsAt k ∧ c.Allocates k := by
  have houtcome := fun {k} => BulkCall.outcome_of_chunks (k := k) hfits hchunks hne hresults
  constructor
  · intro hreassembles
    exact hreassembles.room hfits hchunks hne hresults
  · intro hroom
    have hnonempty : chunks ≠ [] := by
      rintro rfl
      have hlength := reply.bytes_length
      rw [← hchunks] at hlength
      simp at hlength
      omega
    obtain ⟨n, hn⟩ : ∃ n, chunks.length = n + 1 :=
      Nat.exists_eq_succ_of_ne_zero (by simpa using hnonempty)
    have hgoesOn : ∀ k < n, c.GoesOn k := by
      intro k hk
      obtain ⟨hfitsAt, hallocates⟩ := hroom k (by omega)
      refine ⟨hfitsAt, hallocates, ?_⟩
      rw [houtcome (by omega), if_neg (by omega)]
    obtain ⟨hfitsAt, hallocates⟩ := hroom n (by omega)
    have hstops : c.Stops n 0 :=
      ⟨hgoesOn, hfitsAt, hallocates, by rw [houtcome (by omega), if_pos hn.symm]⟩
    obtain ⟨w, hat, hreturns⟩ := c.run_stops hstops
    have hholds : w.r.Holds reply.bytes := by
      have hholds := c.at_holds hat
      rw [← hn, BulkCall.received, ReadStream.received_all_chunks hresults, hchunks] at hholds
      exact hholds
    have hconn : w.r.connectionType ≠ .ip := by
      rw [hat.connectionType]
      exact c.connectionType_ne_ip
    refine ⟨w, ⟨n + 1, fun fuel hfuel => hreturns fuel hfuel⟩, ?_, ?_, hholds,
      UsbReply.presented_of_holds hconn hholds hfits⟩
    · rw [hn, hat.log]
    · rw [hn, hat.device]

/-- A response container in two halves. -/
def twoHalves : List (List UInt8) := [[12, 0, 0, 0, 3, 0], [1, 32, 7, 0, 0, 0]]

theorem ptpusbReadAllPackets_reassembles_halves :
    (scriptedCall 512 (twoHalves.map some)).Reassembles ⟨none, ⟨0x2001, 7, []⟩⟩ twoHalves :=
  (ptpusbReadAllPackets_reassembles (scriptedCall 512 (twoHalves.map some))
    ⟨none, ⟨0x2001, 7, []⟩⟩ twoHalves (by decide) (by decide) (by decide)
    (scriptedCall_results (by decide))).mpr (by decide)

/-- A reply of `512 * n + 1023` bytes. -/
def longReply (n : Nat) : UsbReply :=
  ⟨some ⟨0x1009, 7, List.replicate (500 + (n * 512 + 499)) 0⟩, ⟨0x2001, 7, []⟩⟩

/-- The same reply in reads of 512 bytes. -/
def longChunks (n : Nat) : List (List UInt8) :=
  (leBytes 4 (12 + (500 + (n * 512 + 499))) ++ [2, 0, 9, 16, 7, 0, 0, 0] ++ List.replicate 500 0) ::
    (List.replicate n (List.replicate 512 0) ++
      [List.replicate 499 0 ++ [12, 0, 0, 0, 3, 0, 1, 32, 7, 0, 0, 0]])

theorem longReply_length (n : Nat) : (longReply n).bytes.length = 512 * n + 1023 := by
  simp [longReply, UsbReply.bytes, UsbReply.front]
  omega

theorem longChunks_flatten (n : Nat) : (longChunks n).flatten = (longReply n).bytes := by
  have hresponse : Container.bytes ptpPacketTypeResponse ⟨0x2001, 7, []⟩ =
      [12, 0, 0, 0, 3, 0, 1, 32, 7, 0, 0, 0] := by decide
  have hheader : leBytes 2 ptpPacketTypeData ++ (leBytes 2 (0x1009 : UInt16).toNat ++
      leBytes 4 (7 : UInt32).toNat) = [2, 0, 9, 16, 7, 0, 0, 0] := by decide
  have hfront : (longReply n).front = leBytes 4 (12 + (500 + (n * 512 + 499))) ++
      ([2, 0, 9, 16, 7, 0, 0, 0] ++ List.replicate (500 + (n * 512 + 499)) 0) := by
    rw [← hheader]
    simp [longReply, UsbReply.front, Container.bytes]
  have hlast : (longReply n).response.bytes ptpPacketTypeResponse =
      [12, 0, 0, 0, 3, 0, 1, 32, 7, 0, 0, 0] := hresponse
  rw [UsbReply.bytes, hfront, hlast, longChunks]
  simp only [List.flatten_cons, List.flatten_append, List.flatten_replicate_replicate,
    List.flatten_nil, List.append_nil, List.replicate_add, List.append_assoc]

theorem longChunks_length (n : Nat) : (longChunks n).length = n + 2 := by
  simp only [longChunks, List.length_cons, List.length_append, List.length_replicate,
    List.length_nil, Nat.zero_add]

theorem length_of_mem_longChunks {n : Nat} {chunk : List UInt8} (hchunk : chunk ∈ longChunks n) :
    0 < chunk.length ∧ chunk.length ≤ 512 := by
  simp only [longChunks, List.mem_cons, List.mem_append, List.mem_replicate, List.not_mem_nil,
    or_false] at hchunk
  rcases hchunk with rfl | ⟨_, rfl⟩ | rfl <;>
    simp only [List.length_append, List.length_replicate, List.length_cons, List.length_nil,
      leBytes_length] <;> omega

theorem longChunks_take (n : Nat) :
    ((longChunks n).take (n + 1)).flatten.length = 512 * (n + 1) := by
  rw [longChunks, List.take_succ_cons, List.take_left' (List.length_replicate ..)]
  simp only [List.flatten_cons, List.flatten_replicate_replicate, List.length_append,
    List.length_replicate, List.length_cons, List.length_nil, leBytes_length]
  omega

/-- The last read of a reply of 2147483647 bytes asks for one byte too many: the reply
fits in an `int`, but the room for a whole packet behind its first part does not. -/
theorem ptpusbReadAllPackets_overflows :
    let chunks := longChunks 4194302
    let c := scriptedCall 512 (chunks.map some)
    ((longReply 4194302).bytes.length : Int) ≤ intMax ∧
      chunks.flatten = (longReply 4194302).bytes ∧ (∀ chunk ∈ chunks, chunk ≠ []) ∧
      (∀ k (hk : k < chunks.length), c.results k = some chunks[k]) ∧
      ¬c.Reassembles (longReply 4194302) chunks := by
  intro chunks c
  have hfits : ((longReply 4194302).bytes.length : Int) ≤ intMax := by
    rw [longReply_length]
    decide
  have hne : ∀ chunk ∈ chunks, chunk ≠ [] := fun chunk hchunk =>
    List.ne_nil_of_length_pos (length_of_mem_longChunks hchunk).1
  have hresults : ∀ k (hk : k < chunks.length), c.results k = some chunks[k] :=
    scriptedCall_results fun chunk hchunk => (length_of_mem_longChunks hchunk).2
  refine ⟨hfits, longChunks_flatten _, hne, hresults, fun hreassembles => ?_⟩
  have hlast : 4194303 < chunks.length := by
    rw [longChunks_length]
    decide
  have hroom := hreassembles.room hfits (longChunks_flatten _) hne hresults 4194303 hlast
  have hneed := hroom.1.1
  rw [BulkCall.received, ReadStream.received_of_chunks hresults hlast.le, longChunks_take]
    at hneed
  exact absurd hneed (by decide)

end Libpict
