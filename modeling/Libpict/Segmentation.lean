import Libpict.Decoder

/-! # Captures cut into frames

Between containers nothing is unfinished, and the decoder takes a container that has a frame of
its own for what it is. Of a data container that is cut it writes all of the data to the raw
file, out of a frame that has only the beginning: so it keeps to its frames exactly on captures
that cut none.
-/

namespace Libpict

open Bytes CInt

/-! ## A container in its frame -/

section Frames

variable {names : CodeNames} {ctx : DecContext} {fileOf length : Nat} {frame : List UInt8}

/-- The header that a frame starts with. -/
def headerOf (frame : List UInt8) : Reported :=
  ⟨field 2 4 frame, field 4 0 frame, field 2 6 frame, field 4 8 frame⟩

/-- A command of a size that the structure can have. -/
def Reported.Admitted (c : Reported) : Prop :=
  c.type = ptpPacketTypeCommand → 12 ≤ c.length ∧ c.length ≤ 32

/-- A field of a frame is found where it is, or the frame is left. -/
theorem frameField_view {β : Type} {size : Nat} {position : Int} (offset : Nat)
    (hat : position = offset) (f : Nat → Reader UInt8 Halt β) :
    (readLe size position >>= f).view 0 frame =
      if offset + size ≤ frame.length then (f (field size offset frame)).view 0 frame else none :=
  readLe_bind_view (hat.trans (Int.zero_add _).symm) f

theorem dumpContainer_view (names : CodeNames) (ctx : DecContext) (fileOf length : Nat)
    (hsize : 12 ≤ frame.length) (hadmitted : (headerOf frame).Admitted) :
    (dumpContainer names ctx fileOf 0 length).view 0 frame =
      (dumpBody names ctx fileOf 0 length (headerOf frame)).view 0 frame := by
  have hcommand : ¬(field 2 4 frame = ptpPacketTypeCommand ∧
      (32 < field 4 0 frame ∨ field 4 0 frame < 12)) := by
    rintro ⟨htype, hlength⟩
    obtain ⟨hlow, hhigh⟩ := hadmitted htype
    change 12 ≤ field 4 0 frame at hlow
    change field 4 0 frame ≤ 32 at hhigh
    omega
  rw [dumpContainer, frameField_view 4 (rfl : (0 : Int) + 4 = (4 : Nat)), if_pos (by omega),
    frameField_view 0 (rfl : (0 : Int) = (0 : Nat)), if_pos (by omega), if_neg hcommand,
    frameField_view 6 (rfl : (0 : Int) + 6 = (6 : Nat)), if_pos (by omega),
    frameField_view 8 (rfl : (0 : Int) + 8 = (8 : Nat)), if_pos (by omega)]
  rfl

/-- A frame without a whole header is left, if the type is there and is not that of a command. -/
theorem dumpContainer_short (hsize : frame.length < 12)
    (htype : 6 ≤ frame.length → field 2 4 frame ≠ ptpPacketTypeCommand) :
    (dumpContainer names ctx fileOf 0 length).view 0 frame = none := by
  rw [dumpContainer, frameField_view 4 (rfl : (0 : Int) + 4 = (4 : Nat))]
  by_cases hfirst : 4 + 2 ≤ frame.length
  · rw [if_pos hfirst, frameField_view 0 (rfl : (0 : Int) = (0 : Nat)), if_pos (by omega),
      if_neg fun h => htype hfirst h.1, frameField_view 6 (rfl : (0 : Int) + 6 = (6 : Nat))]
    by_cases hcode : 6 + 2 ≤ frame.length
    · rw [if_pos hcode, frameField_view 8 (rfl : (0 : Int) + 8 = (8 : Nat)), if_neg (by omega)]
    · rw [if_neg hcode]
  · rw [if_neg hfirst]

theorem dumpParams_view {left i : Nat} (hle : 12 + 4 * (i + left) ≤ frame.length) :
    ∃ params, (dumpParams 0 left i).view 0 frame = some (.ok params) := by
  induction left generalizing i with
  | zero => exact ⟨[], rfl⟩
  | succ left ih =>
      obtain ⟨rest, hrest⟩ := ih (i := i + 1) (by omega)
      refine ⟨field 4 (12 + 4 * i) frame :: rest, ?_⟩
      rw [dumpParams, frameField_view (12 + 4 * i) (Int.zero_add _), if_pos (by omega),
        Reader.view_bind_ok hrest]
      rfl

/-- The data of a container goes to the raw file if all of it is in the frame; otherwise the frame
is left. -/
theorem dumpData_view {written : List UInt8} (hraw : ctx.rawOut = some written)
    (frame : List UInt8) (length containerLength : Nat) :
    (dumpData ctx 0 length containerLength).view 0 frame =
      if 12 + toSize (toInt32 ((containerLength : Int) - 12)) ≤ frame.length then
        some (.ok ((frame.drop 12).take (min (toInt32 ((containerLength : Int) - 12)).toNat 51),
          { ctx with
            unfinishedPacket := if length < containerLength then
              toInt32 ((containerLength : Int) - length) else ctx.unfinishedPacket
            rawOut := some (written ++
              (frame.drop 12).take (toSize (toInt32 ((containerLength : Int) - 12)))) }))
      else none := by
  have hfits := toInt32_fits ((containerLength : Int) - 12)
  unfold dumpData
  rw [hraw]
  generalize toInt32 ((containerLength : Int) - 12) = pl at hfits ⊢
  have hread : ∀ size : Nat, 12 + size ≤ frame.length →
      (Reader.read (0 + (12 : Nat)) size : Reader UInt8 Halt (List UInt8)).view 0 frame =
        some (.ok ((frame.drop 12).take size)) := fun _ hle => Reader.view_read hle
  by_cases hinside : 12 + toSize pl ≤ frame.length
  · -- what is shown of the data is part of what goes to the raw file
    have hpl : min pl.toNat 51 ≤ toSize pl := by
      unfold Fits at hfits
      unfold toSize
      omega
    have hdata := hread (min pl.toNat 51) (by omega)
    rw [if_pos hinside]
    refine (Reader.view_bind_ok (hread _ hinside)).trans ?_
    refine (Reader.view_bind_ok hdata).trans ?_
    rfl
  · have hrequest : ¬Reader.Inside 0 frame.length ((0 : Int) + 12, (toSize pl : Int)) := by
      rintro ⟨-, -, hhigh⟩
      dsimp only at hhigh
      omega
    have hnone : (Reader.read (0 + 12) (toSize pl) : Reader UInt8 Halt (List UInt8)).view 0 frame =
        none := Reader.view_read_outside hrequest
    rw [if_neg hinside]
    dsimp only
    rw [Reader.view_bind, hnone]

end Frames

/-! ## Whole containers -/

section Whole

variable {names : CodeNames} {ctx : DecContext} {fileOf : Nat} {c : Captured}

/-- The data of the container is no longer than an `int` can say. -/
def Captured.Held (c : Captured) : Prop :=
  c.type = ptpPacketTypeData → (c.container.body.length : Int) ≤ intMax

/-- What a container in a frame of its own leaves behind. -/
structure Dumped (ctx : DecContext) (c : Captured) (after : DecContext) : Prop where
  unfinished : after.unfinishedPacket = 0
  reported : after.reported = ctx.reported ++ [c.reported]
  rawOut : after.rawOut = ctx.rawOut.map (· ++ c.payload)

theorem Captured.WellFormed.type_lt (hformed : c.WellFormed) : c.type < 65536 := by
  rcases hformed.type with htype | htype | htype <;> rw [htype] <;> decide

/-- The header of a container is found in every beginning of it that has it. -/
theorem headerOf_starts (hformed : c.WellFormed) {first rest : List UInt8}
    (hsplit : c.bytes = first ++ rest) (hsize : 12 ≤ first.length) : headerOf first = c.reported := by
  have hfield : ∀ size offset : Nat, offset + size ≤ 12 →
      field size offset first = field size offset (c.bytes ++ []) := by
    intro size offset hle
    rw [List.append_nil, hsplit, field_append size offset first rest (by omega)]
  unfold headerOf Captured.reported
  rw [hfield 2 4 (by decide), hfield 4 0 (by decide), hfield 2 6 (by decide),
    hfield 4 8 (by decide), Captured.bytes, Container.field_type _ _ hformed.type_lt,
    Container.field_length _ _ hformed.length, Container.field_code, Container.field_transaction]

theorem admitted_of_formed (hformed : c.WellFormed) : c.reported.Admitted := by
  intro hcommand
  have hdata : c.type ≠ ptpPacketTypeData := by
    change c.type = _ at hcommand
    rw [hcommand]
    decide
  obtain ⟨n, hn, hbody⟩ := hformed.params hdata
  change 12 ≤ 12 + c.container.body.length ∧ 12 + c.container.body.length ≤ 32
  omega

/-- The data of a container are found behind its header. -/
theorem payload_slice (c : Captured) : (c.bytes.drop 12).take c.container.body.length =
    c.container.body := by
  have hslice : ((c.bytes ++ []).drop 12).take c.container.body.length = c.container.body :=
    c.container.body_slice []
  rwa [List.append_nil] at hslice

/-- The last line of a container leaves the count alone, and writes the data. -/
def ItemsDumped (ctx : DecContext) (c : Captured) (written : List UInt8) : Prop :=
  ∃ params data after,
    (dumpItems ctx 0 c.bytes.length c.reported).view 0 c.bytes = some (.ok (params, data, after)) ∧
      after.unfinishedPacket = ctx.unfinishedPacket ∧ after.f = ctx.f ∧
      after.rawOut = some (written ++ c.payload)

variable {written : List UInt8} (hraw : ctx.rawOut = some written)

include hraw

theorem dumpItems_command (hcommand : c.type = ptpPacketTypeCommand) :
    ItemsDumped ctx c written := by
  have hdata : c.type ≠ ptpPacketTypeData := by
    rw [hcommand]
    decide
  have hpayload : c.payload = [] := if_neg hdata
  have hlength : c.bytes.length = 12 + c.container.body.length := Container.bytes_length _ _
  have hroom : 12 + 4 * (0 + (c.reported.length - 12) / 4) ≤ c.bytes.length := by
    change 12 + 4 * (0 + (12 + c.container.body.length - 12) / 4) ≤ _
    omega
  obtain ⟨params, hparams⟩ := dumpParams_view hroom
  have hcode : c.reported.type = ptpPacketTypeCommand := hcommand
  unfold ItemsDumped dumpItems
  rw [if_pos hcode, Reader.view_bind_ok hparams, hpayload, List.append_nil]
  refine ⟨params, [], _, rfl, ?_⟩
  split
  · exact ⟨rfl, rfl, hraw⟩
  · exact ⟨rfl, rfl, hraw⟩

theorem dumpItems_data (hheld : c.Held) (hdata : c.type = ptpPacketTypeData) :
    ItemsDumped ctx c written := by
  have hpayload : c.payload = c.container.body := if_pos hdata
  have hlength : c.bytes.length = 12 + c.container.body.length := Container.bytes_length _ _
  have hsize := hheld hdata
  unfold intMax at hsize
  have hrest : ((12 + c.container.body.length : Nat) : Int) - 12 = c.container.body.length := by
    push_cast
    ring
  have hpl : toInt32 (((12 + c.container.body.length : Nat) : Int) - 12) = c.container.body.length := by
    rw [hrest]
    exact toInt32_of_fits (by unfold Fits; omega)
  have hread : toSize (c.container.body.length : Int) = c.container.body.length := by
    unfold toSize
    omega
  have hview := dumpData_view hraw c.bytes c.bytes.length (12 + c.container.body.length)
  rw [hpl, hread, if_pos hlength.ge, if_neg (by omega), payload_slice] at hview
  have hcommand : c.reported.type ≠ ptpPacketTypeCommand := by
    change c.type ≠ _
    rw [hdata]
    decide
  have hcode : c.reported.type = ptpPacketTypeData := hdata
  unfold ItemsDumped dumpItems
  rw [if_neg hcommand, if_pos hcode, hpayload]
  exact ⟨_, _, _, Reader.view_bind_ok hview, rfl, rfl, rfl⟩

theorem dumpItems_response (hcommand : c.type ≠ ptpPacketTypeCommand)
    (hdata : c.type ≠ ptpPacketTypeData) : ItemsDumped ctx c written := by
  have hpayload : c.payload = [] := if_neg hdata
  have hother : c.reported.type ≠ ptpPacketTypeCommand := hcommand
  have hother' : c.reported.type ≠ ptpPacketTypeData := hdata
  unfold ItemsDumped dumpItems
  rw [if_neg hother, if_neg hother', hpayload, List.append_nil]
  exact ⟨_, _, _, rfl, rfl, rfl, hraw⟩

theorem dumpItems_whole (hheld : c.Held) : ItemsDumped ctx c written := by
  by_cases hcommand : c.type = ptpPacketTypeCommand
  · exact dumpItems_command hraw hcommand
  · by_cases hdata : c.type = ptpPacketTypeData
    · exact dumpItems_data hraw hheld hdata
    · exact dumpItems_response hraw hcommand hdata

/-- A container in a frame of its own is reported, and its data written. -/
theorem ptpDumpPacket_whole (names : CodeNames) (fileOf : Nat)
    (hfinished : ctx.unfinishedPacket = 0) (hformed : c.WellFormed) (hheld : c.Held) : ∃ after,
      (ptpDumpPacket names ctx fileOf c.bytes.length).view 0 c.bytes = some (.ok (0, after)) ∧
        Dumped ctx c after := by
  have hlength : c.bytes.length = 12 + c.container.body.length := Container.bytes_length _ _
  have hheader := headerOf_starts hformed (List.append_nil c.bytes).symm (by omega)
  obtain ⟨params, data, after, hitems, hunfinished, hf, hrawOut⟩ := dumpItems_whole hraw hheld
  have hcontainer := dumpContainer_view names ctx fileOf c.bytes.length
    (show 12 ≤ c.bytes.length by omega) (hheader ▸ admitted_of_formed hformed)
  rw [ptpDumpPacket, if_pos hfinished, hcontainer, hheader, dumpBody, Reader.view_bind_ok hitems]
  refine ⟨_, rfl, ?_, ?_, ?_⟩
  · exact hunfinished.trans hfinished
  · change List.filterMap _ (after.f ++ [_]) = _
    rw [hf, List.filterMap_append]
    rfl
  · change after.rawOut = _
    rw [hrawOut, hraw]
    rfl

/-- A frame that has only the beginning of a data container is left, and so is one that has more
of it than an `int` can say. -/
theorem ptpDumpPacket_cut (names : CodeNames) (fileOf : Nat)
    (hfinished : ctx.unfinishedPacket = 0) (hformed : c.WellFormed) {first rest : List UInt8}
    (hstarts : c.Starts first rest) (hbad : rest ≠ [] ∨ ¬c.Held) :
    (ptpDumpPacket names ctx fileOf first.length).view 0 first = none := by
  obtain ⟨hsplit, -, hrest⟩ := hstarts
  have hdata : c.type = ptpPacketTypeData := by
    rcases hbad with hcut | hheld
    · exact hrest hcut
    · exact Classical.not_imp.mp hheld |>.1
  have hother : c.type ≠ ptpPacketTypeCommand := by
    rw [hdata]
    decide
  have hlength : 12 + c.container.body.length = first.length + rest.length := by
    rw [← List.length_append, ← hsplit]
    exact (Container.bytes_length _ _).symm
  rw [ptpDumpPacket, if_pos hfinished]
  by_cases hsize : 12 ≤ first.length
  · have hheader := headerOf_starts hformed hsplit hsize
    have hcommand : c.reported.type ≠ ptpPacketTypeCommand := hother
    have hcode : c.reported.type = ptpPacketTypeData := hdata
    have hview := dumpData_view hraw first first.length (12 + c.container.body.length)
    -- the copy ends behind the frame, or its size is that of a negative `int`
    have hbehind : ¬12 + toSize (toInt32 (((12 + c.container.body.length : Nat) : Int) - 12)) ≤
        first.length := by
      have htotal := hformed.length
      rcases hbad with hcut | hheld
      · have hpositive := List.length_pos_iff.mpr hcut
        unfold toSize toInt32
        omega
      · have hlarge := (Classical.not_imp.mp hheld).2
        unfold intMax at hlarge
        unfold toSize toInt32
        omega
    rw [if_neg hbehind] at hview
    rw [dumpContainer_view names ctx fileOf first.length hsize (hheader ▸ admitted_of_formed hformed),
      hheader, dumpBody, dumpItems, if_neg hcommand, if_pos hcode]
    have hnone : (dumpData ctx 0 first.length c.reported.length).view 0 first = none := hview
    rw [Reader.view_bind, Reader.view_bind, hnone]
  · apply dumpContainer_short (not_le.mp hsize)
    intro htype
    rw [← field_append 2 4 first rest (by omega), ← hsplit, Captured.bytes,
      ← List.append_nil (Container.bytes _ _), Container.field_type _ _ hformed.type_lt]
    exact hother

end Whole

/-! ## Captures -/

section Captures

variable (names : CodeNames) (header of : Nat) {ctx : DecContext} {c : Captured}
  {containers : List Captured}

theorem packetHandler_whole {written : List UInt8} (hraw : ctx.rawOut = some written)
    (hfinished : ctx.unfinishedPacket = 0) (hformed : c.WellFormed) (hheld : c.Held) :
    ∃ after, packetHandler names header (of, ctx) c.bytes =
      some (of + (header + c.bytes.length), after) ∧ Dumped ctx c after := by
  have hlength : c.bytes.length = 12 + c.container.body.length := Container.bytes_length _ _
  obtain ⟨after, hview, hdumped⟩ := ptpDumpPacket_whole hraw names of hfinished hformed hheld
  refine ⟨after, ?_, hdumped⟩
  rw [packetHandler, if_neg (by omega), hview]

theorem packetHandler_cut {written : List UInt8} (hraw : ctx.rawOut = some written)
    (hfinished : ctx.unfinishedPacket = 0) (hformed : c.WellFormed) {first rest : List UInt8}
    (hstarts : c.Starts first rest) (hbad : rest ≠ [] ∨ ¬c.Held) :
    packetHandler names header (of, ctx) first = none := by
  have hview := ptpDumpPacket_cut hraw names of hfinished hformed hstarts hbad
  have hpositive := List.length_pos_iff.mpr hstarts.2.1
  rw [packetHandler, if_neg (by omega), hview]

/-- Frames with a container each: all are reported, and the data are written one behind the
other. -/
theorem decode_whole {written : List UInt8} (hraw : ctx.rawOut = some written)
    (hfinished : ctx.unfinishedPacket = 0) (hformed : ∀ c ∈ containers, c.WellFormed)
    (hheld : ∀ c ∈ containers, c.Held) :
    ∃ end_ after, (containers.map Captured.bytes).foldlM (packetHandler names header) (of, ctx) =
        some (end_, after) ∧
      after.reported = ctx.reported ++ containers.map Captured.reported ∧
      after.rawOut = some (written ++ containers.flatMap Captured.payload) := by
  induction containers generalizing of ctx written with
  | nil => exact ⟨of, ctx, rfl, (List.append_nil _).symm, by rw [hraw]; simp⟩
  | cons c containers ih =>
      obtain ⟨hc, hformed⟩ := List.forall_mem_cons.mp hformed
      obtain ⟨hc', hheld⟩ := List.forall_mem_cons.mp hheld
      obtain ⟨next, hstep, hunfinished, hreported, hrawOut⟩ :=
        packetHandler_whole names header of hraw hfinished hc hc'
      rw [hraw] at hrawOut
      obtain ⟨end_, after, hrun, hall, hwritten⟩ := ih _ hrawOut hunfinished hformed hheld
      refine ⟨end_, after, ?_, ?_, ?_⟩
      · rw [List.map_cons, List.foldlM_cons, hstep]
        exact hrun
      · rw [hall, hreported, List.append_assoc]
        rfl
      · rw [hwritten, List.append_assoc]
        rfl

/-- With nothing pending the next frame starts the next container. -/
theorem Segmented.frames_of_nil {frames : List (List UInt8)} (hframes : Segmented [] containers frames) :
    containers = [] ∧ frames = [] ∨ ∃ c rest first tail more, containers = c :: more ∧
      frames = first :: tail ∧ c.Starts first rest ∧ Segmented rest more tail := by
  generalize hpending : ([] : List UInt8) = pending at hframes
  cases hframes with
  | done => exact .inl ⟨rfl, rfl⟩
  | start hstarts hrest =>
      subst hpending
      exact .inr ⟨_, _, _, _, _, rfl, rfl, hstarts, hrest⟩
  | goOn hpiece => exact absurd (List.append_eq_nil_iff.mp hpending.symm).1 hpiece

/-- Only a capture that cuts no container is decoded without leaving a frame. -/
theorem frames_of_decoded {written : List UInt8} (hraw : ctx.rawOut = some written)
    (hfinished : ctx.unfinishedPacket = 0) (hformed : ∀ c ∈ containers, c.WellFormed)
    {frames : List (List UInt8)} (hframes : Segmented [] containers frames) {state : Nat × DecContext}
    (hrun : frames.foldlM (packetHandler names header) (of, ctx) = some state) :
    frames = containers.map Captured.bytes ∧ ∀ c ∈ containers, c.Held := by
  induction containers generalizing of ctx written frames with
  | nil =>
      obtain ⟨-, rfl⟩ | ⟨_, _, _, _, _, hcons, -⟩ := hframes.frames_of_nil
      · exact ⟨rfl, fun _ h => nomatch h⟩
      · exact nomatch hcons
  | cons c containers ih =>
      obtain ⟨hnil, -⟩ | ⟨_, rest, first, tail, _, hcons, rfl, hstarts, htail⟩ :=
        hframes.frames_of_nil
      · exact nomatch hnil
      · cases hcons
        obtain ⟨hc, hformed⟩ := List.forall_mem_cons.mp hformed
        rw [List.foldlM_cons] at hrun
        have hgood : ¬(rest ≠ [] ∨ ¬c.Held) := by
          intro hbad
          rw [packetHandler_cut names header of hraw hfinished hc hstarts hbad] at hrun
          exact nomatch hrun
        obtain ⟨hwhole, hheld⟩ := not_or.mp hgood
        obtain rfl := not_not.mp hwhole
        have hfirst : first = c.bytes := by rw [hstarts.1, List.append_nil]
        subst hfirst
        obtain ⟨next, hstep, hunfinished, -, hrawOut⟩ := packetHandler_whole names header of
          hraw hfinished hc (not_not.mp hheld)
        rw [hraw] at hrawOut
        rw [hstep] at hrun
        obtain ⟨hframes, hall⟩ := ih _ hrawOut hunfinished hformed htail hrun
        exact ⟨congrArg (c.bytes :: ·) hframes, List.forall_mem_cons.mpr ⟨not_not.mp hheld, hall⟩⟩

end Captures

/-- The decoder keeps to the frames, reports the containers that it reports when each has a
frame of its own, and writes the same data. -/
def DecodesAlike (names : CodeNames) (header : Nat) (ctx : DecContext) (containers : List Captured)
    (frames : List (List UInt8)) : Prop :=
  ∃ whole cut, decodeFrames names header ctx (containers.map Captured.bytes) = some whole ∧
    decodeFrames names header ctx frames = some cut ∧ cut.reported = whole.reported ∧
    cut.rawOut = whole.rawOut

/-- With a raw file, it does so exactly if no data container is cut, nor longer than an `int` can
say; all containers are then reported and all data written. -/
theorem decodesAlike_iff (names : CodeNames) (header : Nat) (ctx : DecContext) (written : List UInt8)
    (hraw : ctx.rawOut = some written) (hfinished : ctx.unfinishedPacket = 0)
    (containers : List Captured) (hformed : ∀ c ∈ containers, c.WellFormed)
    (frames : List (List UInt8)) (hframes : Segmented [] containers frames) :
    (DecodesAlike names header ctx containers frames ↔
      frames = containers.map Captured.bytes ∧ ∀ c ∈ containers, c.Held) ∧
    ((∀ c ∈ containers, c.Held) → ∃ after,
      decodeFrames names header ctx (containers.map Captured.bytes) = some after ∧
      after.reported = ctx.reported ++ containers.map Captured.reported ∧
      after.rawOut = some (written ++ containers.flatMap Captured.payload)) := by
  have hwhole : (∀ c ∈ containers, c.Held) → ∃ after,
      decodeFrames names header ctx (containers.map Captured.bytes) = some after ∧
      after.reported = ctx.reported ++ containers.map Captured.reported ∧
      after.rawOut = some (written ++ containers.flatMap Captured.payload) := by
    intro hheld
    obtain ⟨of, after, hrun, hreported, hrawOut⟩ :=
      decode_whole names header 0 hraw hfinished hformed hheld
    exact ⟨after, congrArg (Option.map Prod.snd) hrun, hreported, hrawOut⟩
  refine ⟨⟨?_, ?_⟩, hwhole⟩
  · rintro ⟨whole, cut, -, hrun, -, -⟩
    obtain ⟨state, hstate, -⟩ := Option.map_eq_some_iff.mp hrun
    exact frames_of_decoded names header 0 hraw hfinished hformed hframes hstate
  · rintro ⟨rfl, hheld⟩
    obtain ⟨after, hrun, -⟩ := hwhole hheld
    exact ⟨after, after, hrun, hrun, rfl, rfl⟩

/-- A data container with four bytes. -/
def fourBytes : Captured := ⟨ptpPacketTypeData, ⟨0x1004, 1, [1, 2, 3, 4]⟩⟩

theorem fourBytes_wellFormed : fourBytes.WellFormed :=
  ⟨.inr (.inl rfl), by decide, fun h => absurd rfl h⟩

/-- The command in front of it, and the response behind it. -/
def fourBytesRequest : Captured := ⟨ptpPacketTypeCommand, ⟨0x1004, 1, []⟩⟩

def fourBytesResponse : Captured := ⟨ptpPacketTypeResponse, ⟨0x2001, 1, []⟩⟩

theorem fourBytes_whole : DecodesAlike (fun _ _ _ => none) 27 .initial
    [fourBytesRequest, fourBytes, fourBytesResponse]
    [fourBytesRequest.bytes, fourBytes.bytes, fourBytesResponse.bytes] := by
  have hformed : ∀ c ∈ [fourBytesRequest, fourBytes, fourBytesResponse], c.WellFormed := by
    simp only [List.forall_mem_cons]
    exact ⟨⟨.inl rfl, by decide, fun _ => ⟨0, by decide, rfl⟩⟩, fourBytes_wellFormed,
      ⟨.inr (.inr rfl), by decide, fun _ => ⟨0, by decide, rfl⟩⟩, List.forall_mem_nil _⟩
  have hwhole : ∀ (c : Captured) {rest : List Captured} {frames : List (List UInt8)},
      c.bytes ≠ [] → Segmented [] rest frames → Segmented [] (c :: rest) (c.bytes :: frames) :=
    fun c _ _ hne hrest =>
      .start ⟨(List.append_nil _).symm, hne, fun h => absurd rfl h⟩ hrest
  have hframes := hwhole fourBytesRequest (by decide)
    (hwhole fourBytes (by decide) (hwhole fourBytesResponse (by decide) .done))
  refine (decodesAlike_iff (fun _ _ _ => none) 27 .initial [] rfl rfl _ hformed _ hframes).1.mpr
    ⟨rfl, ?_⟩
  simp only [List.forall_mem_cons]
  exact ⟨fun _ => by decide, fun _ => by decide, fun _ => by decide, List.forall_mem_nil _⟩

/-- The first fourteen of its sixteen bytes, and the last two. -/
theorem fourBytes_cut :
    Segmented [] [fourBytes] [fourBytes.bytes.take 14, fourBytes.bytes.drop 14] ∧
    ¬DecodesAlike (fun _ _ _ => none) 27 .initial [fourBytes]
      [fourBytes.bytes.take 14, fourBytes.bytes.drop 14] := by
  have hstarts : fourBytes.Starts (fourBytes.bytes.take 14) (fourBytes.bytes.drop 14) :=
    ⟨rfl, by decide, fun _ => rfl⟩
  have htail : Segmented (fourBytes.bytes.drop 14) [] [fourBytes.bytes.drop 14] :=
    List.append_nil (fourBytes.bytes.drop 14) ▸ .goOn (by decide) .done
  refine ⟨.start hstarts htail, ?_⟩
  rintro ⟨whole, cut, -, hrun, -⟩
  exact nomatch hrun

end Libpict
