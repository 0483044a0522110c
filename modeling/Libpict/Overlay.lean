import Libpict.Base.Raster
import Libpict.BulkReassembly
import Libpict.Objects
import Libpict.Outcome

/-! # The overlay of Magic Lantern

`ptp_ml_get_bmp_lv` asks a camera for its overlay, 960 bytes a row, and makes a frame of it
that has 720 words a row. The bytes that are behind a row of the frame are to be skipped, but
the test lets one of them through.
-/

namespace Libpict

open Bytes CInt Exec Raster

abbrev ptpOcMlLiveBmpRam : UInt16 := 0x9996

/-! `enum PtpMlBmpLvOption`. -/

abbrev ptpMlBmpLvGetFrame : UInt32 := 0

abbrev ptpMlBmpLvGetSpec : UInt32 := 1

/-! The sizes of the frame and of the VRAM. -/

abbrev screenWidth : Nat := 720

abbrev screenHeight : Nat := 480

abbrev bmpVramWidth : Nat := 960

abbrev bmpVramHeight : Nat := 480

/-- `SCREEN_WIDTH * SCREEN_HEIGHT * 4`. -/
abbrev frameSize : Nat := screenWidth * screenHeight * 4

/-- `struct PtpMlLvInfo`. -/
structure PtpMlLvInfo where
  lvPitch : UInt32
  lvWidth : UInt32
  lcdPalette : Vector UInt32 256

/-- The static variables. -/
structure MlStatics where
  lvInfo : PtpMlLvInfo
  yuv2rgbRv : Vector Int 256
  yuv2rgbGu : Vector Int 256
  yuv2rgbGv : Vector Int 256
  yuv2rgbBu : Vector Int 256
  toggle : Int

def MlStatics.initial : MlStatics :=
  ⟨⟨0, 0, .replicate 256 0⟩, .replicate 256 0, .replicate 256 0, .replicate 256 0, .replicate 256 0,
    0⟩

/-! ## Colours -/

/-- An entry of a table. -/
def entryOf {α : Type} (table : Vector α 256) (index : UInt8) : α :=
  table.get ⟨index.toNat, index.toNat_lt⟩

/-- Conversion to `int8_t`. -/
def toInt8 (x : Int) : Int := (x + 128) % 256 - 128

/-- `precompute_yuv2rgb`. -/
def precomputeYuv2rgb (s : MlStatics) : MlStatics :=
  { s with
    yuv2rgbGu := .ofFn fun u => (-352 * toInt8 u).tdiv 1024
    yuv2rgbBu := .ofFn fun u => (1812 * toInt8 u).tdiv 1024
    yuv2rgbRv := .ofFn fun v => (1437 * toInt8 v).tdiv 1024
    yuv2rgbGv := .ofFn fun v => (-731 * toInt8 v).tdiv 1024 }

/-- `coerce`. -/
def coerce (x lo hi : Int) : Int := if x < lo then lo else if x > hi then hi else x

/-- `yuv2rgb`, with R, G and B as its results. -/
def yuv2rgb (s : MlStatics) (Y U V : UInt8) : UInt8 × UInt8 × UInt8 :=
  let R := coerce (Y.toNat + entryOf s.yuv2rgbRv V) 0 255
  let G := coerce (Y.toNat + entryOf s.yuv2rgbGu U + entryOf s.yuv2rgbGv V) 0 255
  let B := coerce (Y.toNat + entryOf s.yuv2rgbBu U) 0 255
  (.ofInt R, .ofInt G, .ofInt B)

/-- What the loop stores for a byte of the VRAM. -/
def overlayWord (s : MlStatics) (color : UInt8) : List UInt8 :=
  let pal := if color = 0 ∨ color = 4 then 0x00FF0000 else entryOf s.lvInfo.lcdPalette color
  let (R, G, B) := yuv2rgb s (pal >>> 16).toUInt8 (pal >>> 8).toUInt8 pal.toUInt8
  let A := if pal = 0x00FF0000 then 0xFF else 0
  [B, G, R, A]

/-! ## The loops -/

/-- `i` and the frame, with a record of the stores: to which word, and for which byte. -/
structure Overlay where
  i : Nat
  frame : Buffer
  stores : List (Nat × Nat)

/-- A store to a word of the frame. -/
def storeWord (frame : Buffer) (word : Nat) (bytes : List UInt8) : Reader UInt8 Halt Buffer :=
  if 4 * word + 4 ≤ frame.size then .done (frame.store (4 * word) bytes) else .stop .undefined

/-- The body of the inner loop. -/
def overlayCell (s : MlStatics) (bmp : Int) (y x : Nat) (o : Overlay) :
    Reader UInt8 Halt Overlay :=
  if x > screenWidth then return { o with i := o.i + 1 }
  else do
    let i2 := index screenWidth x y
    let color ← ptpReadU8 (bmp + o.i)
    let frame ← storeWord o.frame i2 (overlayWord s (UInt8.ofNat color))
    return ⟨o.i + 1, frame, (i2, o.i) :: o.stores⟩

def overlayRow (s : MlStatics) (bmp : Int) (y : Nat) (o : Overlay) : Reader UInt8 Halt Overlay :=
  Reader.upTo (overlayCell s bmp y) bmpVramWidth o

def overlayRows (s : MlStatics) (bmp : Int) (frame : Buffer) : Reader UInt8 Halt Overlay :=
  Reader.upTo (overlayRow s bmp) bmpVramHeight ⟨0, frame, []⟩

/-! ## The calls -/

/-- `memcpy` of a payload to a `struct PtpMlLvInfo`. -/
def readLvInfo (payload : Int) : Reader UInt8 Halt PtpMlLvInfo := do
  let bytes ← Reader.read payload 1032
  return ⟨UInt32.ofNat (field 4 0 bytes), UInt32.ofNat (field 4 4 bytes),
    .ofFn fun color => UInt32.ofNat (field 4 (8 + 4 * color) bytes)⟩

section Calls

variable {σ : Type} (B : Backend σ) (fuel : Nat) (memory : Allocator) (allocations : Nat)

/-- `ptp_ml_init_bmp_lv`. -/
def ptpMlInitBmpLv (s : MlStatics) : M σ (Int × MlStatics) := do
  let s := precomputeYuv2rgb s
  let rc ← ptpSend B fuel (commandOf ptpOcMlLiveBmpRam [ptpMlBmpLvGetSpec] (by decide))
  if rc ≠ 0 then return (rc, s)
  else do
    let lvInfo ← inspect fun r => do
      let payload ← ptpGetPayload r
      (readLvInfo payload).run r.load
    return (0, { s with lvInfo })

/-- Every 100 calls, get the LUT and bmp spec info. -/
def refreshLvInfo (s : MlStatics) : M σ MlStatics := do
  let s := { s with toggle := s.toggle + 1 }
  if s.toggle > 100 then do
    let (_, s) ← ptpMlInitBmpLv B fuel s
    return { s with toggle := 0 }
  else return s

/-- The request of `ptp_ml_get_bmp_lv`. -/
def requestBmpLv (s : MlStatics) : M σ (Int × MlStatics) := do
  let s ← refreshLvInfo B fuel s
  let rc ← ptpSend B fuel (commandOf ptpOcMlLiveBmpRam [ptpMlBmpLvGetFrame] (by decide))
  return (rc, s)

/-- `ptp_ml_get_bmp_lv`; the frame that it hands out, if any. -/
def ptpMlGetBmpLv (s : MlStatics) : M σ (Int × Option Overlay × MlStatics) := do
  let (rc, s) ← requestBmpLv B fuel s
  if rc ≠ 0 then return (rc, none, s)
  else match memory.malloc allocations frameSize with
    | none => return (PtpGeneralError.runtimeErr, none, s)
    | some frame => do
        let o ← inspect fun r => do
          let bmp ← ptpGetPayload r
          (overlayRows s bmp frame).run r.load
        return (0, some o, s)

end Calls

/-! ## What the colours are -/

/-- A channel of a colour. -/
def clamped (x : Int) : UInt8 := .ofInt (max 0 (min 255 x))

/-- The conversion of a byte: fully transparent, or an opaque colour as blue, green and red. -/
def conversion (palette : Vector UInt32 256) (color : UInt8) : List UInt8 :=
  let pal := entryOf palette color
  let Y : Int := (pal >>> 16).toUInt8.toNat
  let U := toInt8 (pal >>> 8).toUInt8.toNat
  let V := toInt8 pal.toUInt8.toNat
  if color = 0 ∨ color = 4 ∨ pal = 0x00FF0000 then [0xFF, 0xFF, 0xFF, 0xFF]
  else [clamped (Y + (1812 * U).tdiv 1024),
    clamped (Y + (-352 * U).tdiv 1024 + (-731 * V).tdiv 1024),
    clamped (Y + (1437 * V).tdiv 1024), 0]

/-- The tables have been computed. -/
def MlStatics.Precomputed (s : MlStatics) : Prop := precomputeYuv2rgb s = s

theorem precomputeYuv2rgb_precomputed (s : MlStatics) : (precomputeYuv2rgb s).Precomputed := by
  simp only [MlStatics.Precomputed, precomputeYuv2rgb]

theorem coerce_clamped (x : Int) : UInt8.ofInt (coerce x 0 255) = clamped x := by
  have hcoerce : coerce x 0 255 = max 0 (min 255 x) := by
    unfold coerce
    omega
  rw [hcoerce, clamped]

theorem entryOf_ofFn {α : Type} (f : Fin 256 → α) (color : UInt8) :
    entryOf (.ofFn f) color = f ⟨color.toNat, color.toNat_lt⟩ :=
  Vector.getElem_ofFn color.toNat_lt

theorem yuv2rgb_precomputed {s : MlStatics} (hprecomputed : s.Precomputed) (Y U V : UInt8) :
    yuv2rgb s Y U V = (clamped (Y.toNat + (1437 * toInt8 V.toNat).tdiv 1024),
      clamped (Y.toNat + (-352 * toInt8 U.toNat).tdiv 1024 + (-731 * toInt8 V.toNat).tdiv 1024),
      clamped (Y.toNat + (1812 * toInt8 U.toNat).tdiv 1024)) := by
  rw [← hprecomputed]
  simp only [yuv2rgb, precomputeYuv2rgb, entryOf_ofFn, coerce_clamped]

theorem overlayWord_eq {s : MlStatics} (hprecomputed : s.Precomputed) (color : UInt8) :
    overlayWord s color = conversion s.lvInfo.lcdPalette color := by
  have htransparent : yuv2rgb s ((0x00FF0000 : UInt32) >>> 16).toUInt8
      ((0x00FF0000 : UInt32) >>> 8).toUInt8 (0x00FF0000 : UInt32).toUInt8 = (0xFF, 0xFF, 0xFF) := by
    rw [yuv2rgb_precomputed hprecomputed]
    decide
  unfold overlayWord conversion
  by_cases hcolor : color = 0 ∨ color = 4
  · have hconversion : color = 0 ∨ color = 4 ∨ entryOf s.lvInfo.lcdPalette color = 0x00FF0000 :=
      or_assoc.mp (.inl hcolor)
    simp only [if_pos hcolor, if_pos hconversion, htransparent, if_true]
  · simp only [if_neg hcolor]
    by_cases hpal : entryOf s.lvInfo.lcdPalette color = 0x00FF0000
    · simp only [hpal, htransparent, or_true, if_true]
    · have hconversion : ¬(color = 0 ∨ color = 4 ∨ entryOf s.lvInfo.lcdPalette color = 0x00FF0000) :=
        fun h => (or_assoc.mpr h).elim hcolor hpal
      simp only [if_neg hpal, if_neg hconversion, yuv2rgb_precomputed hprecomputed]

/-- The four bytes of a word make a word. -/
theorem overlayWord_length (s : MlStatics) (color : UInt8) : (overlayWord s color).length = 4 := rfl

/-! ## The loops cell by cell -/

section Cells

variable {s : MlStatics} {start : Int} {payload : List UInt8} {x y : Nat} {o : Overlay}

/-- What the loops have done when they come to a cell of the VRAM: a cell of the frame that is
before it has its colour, and a store has been made for every cell that passed the test. -/
structure Painted (s : MlStatics) (payload : List UInt8) (x y : Nat) (o : Overlay) : Prop where
  i_eq : o.i = index bmpVramWidth x y
  size_eq : o.frame.size = frameSize
  stores_iff : ∀ word byte, (word, byte) ∈ o.stores ↔ ∃ x' y', x' ≤ screenWidth ∧
    Before x' y' x y ∧ word = index screenWidth x' y' ∧ byte = index bmpVramWidth x' y'
  words : ∀ x' y', x' < screenWidth → Before x' y' x y →
    o.frame.slice (4 * index screenWidth x' y') 4 =
      overlayWord s (payload.getD (index bmpVramWidth x' y') 0)

theorem painted_first {frame : Buffer} (hsize : frame.size = frameSize) :
    Painted s payload 0 0 ⟨0, frame, []⟩ := by
  refine ⟨rfl, hsize, fun word byte => ?_, ?_⟩
  · refine iff_of_false (List.not_mem_nil) ?_
    rintro ⟨x', y', _, hbefore, _⟩
    exact not_before_first hbefore
  · intro x' y' _ hbefore
    exact absurd hbefore not_before_first

/-- The end of a row is the beginning of the next one. -/
theorem Painted.next_row (hpainted : Painted s payload bmpVramWidth y o) :
    Painted s payload 0 (y + 1) o := by
  have hnext : ∀ x' y', x' ≤ screenWidth →
      (Before x' y' bmpVramWidth y ↔ Before x' y' 0 (y + 1)) :=
    fun x' y' hx' => before_next_row (lt_of_le_of_lt hx' (by decide))
  refine ⟨hpainted.i_eq.trans index_width, hpainted.size_eq, fun word byte => ?_, ?_⟩
  · rw [hpainted.stores_iff]
    apply exists₂_congr
    intro x' y'
    exact and_congr_right fun hx' => and_congr_left' (hnext x' y' hx')
  · intro x' y' hx' hbefore
    exact hpainted.words x' y' hx' ((hnext x' y' hx'.le).mpr hbefore)

/-- A cell behind the row of the frame is skipped. -/
theorem Painted.skip (hpainted : Painted s payload x y o) (hx : screenWidth < x) :
    Painted s payload (x + 1) y { o with i := o.i + 1 } := by
  have hsame : ∀ x' y', x' ≤ screenWidth → (Before x' y' (x + 1) y ↔ Before x' y' x y) := by
    intro x' y' hx'
    rw [before_succ, or_iff_left]
    rintro ⟨rfl, _⟩
    exact absurd hx' (not_le.mpr hx)
  refine ⟨?_, hpainted.size_eq, fun word byte => ?_, ?_⟩
  · rw [index_succ, hpainted.i_eq]
  · rw [hpainted.stores_iff]
    apply exists₂_congr
    intro x' y'
    exact and_congr_right fun hx' => and_congr_left' (hsame x' y' hx').symm
  · intro x' y' hx' hbefore
    exact hpainted.words x' y' hx' ((hsame x' y' hx'.le).mp hbefore)

/-- No cell of the frame before the one that is stored to has its word, though that may be the
first word of the next row. -/
theorem index_ne_of_before {x' y' : Nat} (hx' : x' < screenWidth) (hx : x ≤ screenWidth)
    (hbefore : Before x' y' x y) : index screenWidth x' y' ≠ index screenWidth x y := by
  intro heq
  unfold Before at hbefore
  rcases lt_or_eq_of_le hx with hlt | rfl
  · obtain ⟨rfl, rfl⟩ := (index_inj hx' hlt).mp heq
    omega
  · rw [index_width] at heq
    obtain ⟨rfl, rfl⟩ := (index_inj hx' (by decide)).mp heq
    omega

/-- The store for a cell. -/
theorem Painted.store (hpainted : Painted s payload x y o) (hx : x ≤ screenWidth) :
    Painted s payload (x + 1) y
      ⟨o.i + 1, o.frame.store (4 * index screenWidth x y)
        (overlayWord s (payload.getD (index bmpVramWidth x y) 0)),
        (index screenWidth x y, o.i) :: o.stores⟩ := by
  refine ⟨?_, hpainted.size_eq, fun word byte => ?_, ?_⟩
  · rw [index_succ, hpainted.i_eq]
  · -- the stores before, and the one for this cell
    rw [List.mem_cons, hpainted.stores_iff, Prod.mk.injEq, hpainted.i_eq]
    constructor
    · rintro (⟨hword, hbyte⟩ | ⟨x', y', hx', hbefore, hcell⟩)
      · exact ⟨x, y, hx, before_succ.mpr (.inr ⟨rfl, rfl⟩), hword, hbyte⟩
      · exact ⟨x', y', hx', before_succ.mpr (.inl hbefore), hcell⟩
    · rintro ⟨x', y', hx', hbefore, hcell⟩
      rcases before_succ.mp hbefore with hearlier | ⟨rfl, rfl⟩
      · exact .inr ⟨x', y', hx', hearlier, hcell⟩
      · exact .inl hcell
  · intro x' y' hx' hbefore
    rcases before_succ.mp hbefore with hearlier | ⟨rfl, rfl⟩
    · -- an earlier cell of the frame has another word
      have hne := index_ne_of_before hx' hx hearlier
      rw [Buffer.store_slice_disjoint _ _ _ _ _ (by rw [overlayWord_length]; omega)]
      exact hpainted.words x' y' hx' hearlier
    · exact Buffer.store_slice_self _ _ _

theorem ptpReadU8_view {k : Nat} (hk : k < payload.length) :
    (ptpReadU8 (start + k)).view start payload = some (.ok (payload.getD k 0).toNat) := by
  have hfield : field 1 k payload = (payload.getD k 0).toNat := by
    rw [field, List.drop_eq_getElem_cons hk, List.getD_eq_getElem?_getD, List.getElem?_eq_getElem hk]
    exact Nat.add_zero _
  rw [readLe_view, if_pos (Nat.succ_le_of_lt hk), hfield]

/-- A cell up to the one behind a row of the frame is read, and stored if the frame has the word. -/
theorem overlayCell_view (hx : x ≤ screenWidth) (hi : o.i < payload.length) :
    (overlayCell s start y x o).view start payload =
      if 4 * index screenWidth x y + 4 ≤ o.frame.size then
        some (.ok ⟨o.i + 1, o.frame.store (4 * index screenWidth x y)
          (overlayWord s (payload.getD o.i 0)), (index screenWidth x y, o.i) :: o.stores⟩)
      else some (.error .undefined) := by
  unfold overlayCell storeWord
  rw [if_neg (not_lt.mpr hx), Reader.view_bind_ok (ptpReadU8_view hi), UInt8.ofNat_toNat]
  split
  next => rfl
  next => rfl

/-- Every cell but one gets on to the next. -/
theorem overlayCell_painted (hlength : payload.length = bmpVramWidth * bmpVramHeight)
    (hx : x < bmpVramWidth) (hy : y < bmpVramHeight)
    (hlast : ¬(x = screenWidth ∧ y = screenHeight - 1)) (hpainted : Painted s payload x y o) :
    (overlayCell s start y x o).Returns start payload (Painted s payload (x + 1) y) := by
  by_cases hskip : screenWidth < x
  · unfold overlayCell
    rw [if_pos hskip]
    exact (Reader.returns_done _ _).mpr (hpainted.skip hskip)
  · have hx' : x ≤ screenWidth := not_lt.mp hskip
    have hi : o.i < payload.length := by
      rw [hpainted.i_eq, hlength, Nat.mul_comm]
      exact index_lt hx hy
    -- one word too far is still in the frame, unless the row is the last one
    have hroom : 4 * index screenWidth x y + 4 ≤ o.frame.size := by
      rw [hpainted.size_eq]
      change 4 * (y * 720 + x) + 4 ≤ 720 * 480 * 4
      change x ≤ 720 at hx'
      change y < 480 at hy
      change ¬(x = 720 ∧ y = 479) at hlast
      omega
    refine ⟨_, (overlayCell_view hx' hi).trans (if_pos hroom), ?_⟩
    have hstore := hpainted.store hx'
    rwa [← hpainted.i_eq] at hstore

/-- The one behind the last row of the frame does not. -/
theorem overlayCell_last (hlength : payload.length = bmpVramWidth * bmpVramHeight)
    (hpainted : Painted s payload screenWidth (screenHeight - 1) o) :
    (overlayCell s start (screenHeight - 1) screenWidth o).view start payload =
      some (.error .undefined) := by
  have hi : o.i < payload.length := by
    rw [hpainted.i_eq, hlength]
    decide
  have hroom : ¬4 * index screenWidth screenWidth (screenHeight - 1) + 4 ≤ o.frame.size := by
    rw [hpainted.size_eq]
    decide
  exact (overlayCell_view le_rfl hi).trans (if_neg hroom)

/-- The rows of the frame but the last are done. -/
theorem overlayRow_painted (hlength : payload.length = bmpVramWidth * bmpVramHeight)
    (hy : y < screenHeight - 1) (hpainted : Painted s payload 0 y o) :
    (overlayRow s start y o).Returns start payload (Painted s payload 0 (y + 1)) := by
  have hrow : (overlayRow s start y o).Returns start payload (Painted s payload bmpVramWidth y) := by
    apply Reader.returns_upTo (P := fun x => Painted s payload x y) hpainted
    intro x hx o hpainted
    exact overlayCell_painted hlength hx (lt_trans hy (by decide)) (fun h => hy.ne h.2) hpainted
  obtain ⟨o', hview, hpainted'⟩ := hrow
  exact ⟨o', hview, hpainted'.next_row⟩

/-- When the loops come to the store outside, the frame is as it should be. -/
theorem overlay_painted (hlength : payload.length = bmpVramWidth * bmpVramHeight) {frame : Buffer}
    (hsize : frame.size = frameSize) :
    (Reader.upTo (overlayRow s start) (screenHeight - 1) ⟨0, frame, []⟩).Returns start payload
      fun o => (Reader.upTo (overlayCell s start (screenHeight - 1)) screenWidth o).Returns start
        payload (Painted s payload screenWidth (screenHeight - 1)) := by
  have hrows : (Reader.upTo (overlayRow s start) (screenHeight - 1) ⟨0, frame, []⟩).Returns start
      payload (Painted s payload 0 (screenHeight - 1)) := by
    apply Reader.returns_upTo (P := Painted s payload 0) (painted_first hsize)
    intro y hy o hpainted
    exact overlayRow_painted hlength hy hpainted
  obtain ⟨o, hview, hpainted⟩ := hrows
  refine ⟨o, hview, ?_⟩
  apply Reader.returns_upTo (P := fun x => Painted s payload x (screenHeight - 1)) hpainted
  intro x hx o hpainted
  exact overlayCell_painted hlength (lt_trans hx (by decide)) (by decide) (fun h => hx.ne h.1) hpainted

/-- The loops end with a store outside the frame. -/
theorem overlayRows_stops (hlength : payload.length = bmpVramWidth * bmpVramHeight) {frame : Buffer}
    (hsize : frame.size = frameSize) :
    (overlayRows s start frame).view start payload = some (.error .undefined) := by
  obtain ⟨o, hview, o', hview', hpainted⟩ := @overlay_painted s start payload hlength frame hsize
  have hrow : (overlayRow s start (screenHeight - 1) o).view start payload =
      some (.error .undefined) :=
    Reader.upTo_stops (by decide : screenWidth < bmpVramWidth)
      ⟨o', hview', overlayCell_last hlength hpainted⟩
  exact Reader.upTo_stops (by decide : screenHeight - 1 < bmpVramHeight) ⟨o, hview, hrow⟩

end Cells

/-! ## A camera that answers -/

/-- A device that answers every read with the same bytes. -/
def answering (bytes : List UInt8) : Backend Unit where
  cmdWrite _ written device := (some written.length, device)
  cmdRead _ size device := (some ⟨bytes.take size, List.length_take_le _ _⟩, device)
  realloc _ _ := true

theorem answering_accepts (bytes : List UInt8) : (answering bytes).Accepts := by
  intro endpoint written device hne
  exact ⟨written.length, rfl, List.length_pos_of_ne_nil hne, le_rfl⟩

/-- A fresh runtime on such a device. -/
def answeringWorld (packet : Nat) : World Unit :=
  { r := (scriptedWorld packet []).r, device := (), reallocs := 0, log := [] }

/-- The same with the mutex held. -/
def answeringHeld (packet : Nat) (mutex : Option Nat) : World Unit :=
  { answeringWorld packet with r := { (answeringWorld packet).r with mutex } }

/-- A read of the packet size gets the whole reply. -/
theorem BulkCall.receives_answer {reply : UsbReply} (c : BulkCall (answering reply.bytes))
    (hle : reply.bytes.length ≤ c.packet 0) (hpacket : (c.packet 0 : Int) ≤ intMax) :
    ∃ v, (∃ enough, ∀ fuel ≥ enough,
        ptpusbReadAllPackets (answering reply.bytes) fuel c.start = .ok 0 v) ∧
      v.r.Holds reply.bytes ∧ reply.Presented v.r := by
  have hlength := reply.bytes_length
  have hresults : ∀ k (hk : k < [reply.bytes].length), c.results k = some [reply.bytes][k] := by
    intro k hk
    obtain rfl := Nat.lt_one_iff.mp hk
    exact congrArg some (List.take_of_length_le hle)
  have hne : ∀ chunk ∈ [reply.bytes], chunk ≠ [] := by
    intro chunk hchunk
    rw [List.mem_singleton.mp hchunk, ← List.length_pos_iff]
    omega
  have hroom : ∀ k < [reply.bytes].length, c.FitsAt k ∧ c.Allocates k := by
    intro k hk
    obtain rfl := Nat.lt_one_iff.mp hk
    refine ⟨⟨by simpa using hpacket, ?_⟩, fun _ => rfl⟩
    exact c.size_le
  obtain ⟨v, hreceive, -, -, hholds, hpresented⟩ := (ptpusbReadAllPackets_reassembles c reply
    [reply.bytes] (by omega) (by simp) hne hresults).mpr hroom
  exact ⟨v, hreceive, hholds, hpresented⟩

/-- A command to it is answered by the reply. -/
theorem ptpSend_answeringHeld (reply : UsbReply) (hcode : reply.response.code = 0x2001)
    {packet : Nat} (hle : reply.bytes.length ≤ packet) (hpacket : (packet : Int) ≤ intMax)
    (cmd : PtpCommand) (mutex : Option Nat) : ∃ fuel v,
      ptpSend (answering reply.bytes) fuel cmd (answeringHeld packet mutex) = .ok 0 v ∧
        reply.Presented v.r ∧ v.r.Holds reply.bytes := by
  let w₀ : World Unit := { locked (answeringHeld packet mutex) with
    r := { (locked (answeringHeld packet mutex)).r with dataPhaseLength := 0 } }
  have hdata : w₀.r.data = some ⟨ptpDefaultSize, fun _ => 0⟩ := rfl
  have hendpoint : bulkEndpoint w₀.r.connectionType = some .usb := rfl
  have hpositive : 0 < w₀.r.maxPacketSize := by
    have hlength := reply.bytes_length
    change (0 : Int) < packet
    omega
  -- the command is written, and then one read gets the reply
  obtain ⟨buffer, sent, hsize, hwrites, hsent⟩ := transmitCmd_accepts cmd
    (answering_accepts reply.bytes) hdata hendpoint hpositive (by decide)
  obtain ⟨hr, -⟩ := Writes.runtime hwrites
  have hsize' : sent.r.maxPacketSize = packet := (Writes.packet hwrites).elim id id
  let c : BulkCall (answering reply.bytes) :=
    { start := sent
      buffer := buffer
      endpoint := .usb
      data := by rw [hr]
      dataLength := by rw [hr, hsize]; rfl
      size_le := by rw [hsize]; decide
      endpoint_eq := by rw [hr]; rfl
      packet_nonneg := by rw [hsize']; exact Int.natCast_nonneg packet }
  have hfirst : c.packet 0 = packet := by
    have hsame := c.packet_zero
    rw [show c.start.r.maxPacketSize = packet from hsize'] at hsame
    exact_mod_cast hsame
  obtain ⟨v, ⟨enough, hreceive⟩, hholds, hpresented⟩ :=
    c.receives_answer (hfirst.symm ▸ hle) (hfirst.symm ▸ hpacket)
  let fuel := max enough 33
  have hreply : receiveReply (answering reply.bytes) fuel sent = .ok 0 v := by
    have hall : ptpReceiveAllPackets (answering reply.bytes) fuel sent =
        ptpusbReadAllPackets (answering reply.bytes) fuel sent :=
      ptpReceiveAllPackets_bulk c.endpoint_eq
    exact bind_ok (hall.trans (hreceive _ (le_max_left _ _)))
  have hattempt : ptpSendTry (answering reply.bytes) fuel cmd w₀ = .ok 0 v := by
    have hfuel : 32 < fuel := lt_of_lt_of_le (by decide) (le_max_right enough 33)
    rw [ptpSendTry_eq, attemptOf, bind_ok (hsent fuel hfuel), if_pos rfl, hreply]
  have hfinish : finishTransaction v = .ok 0 (finished v) := by
    have hcode' : ptpGetReturnCode { v.r with transaction := v.r.transaction + 1 } = .ok 0x2001 := by
      rw [← show ((0x2001 : UInt16).toNat : Int) = 0x2001 by decide, ← hcode, ← hpresented.code]
      rfl
    have hcount : v.r.transaction = 0 := by
      have hreads := (receiveReply_onlyReads (answering reply.bytes) fuel).of_ok hreply
      rw [hreads.2.runtime, hr]
      rfl
    exact finishTransaction_ok (by rw [hcount]; decide) hcode'
  have hpresented' : reply.Presented (finished v).r := ⟨hpresented.code, hpresented.transaction,
    hpresented.payload⟩
  refine ⟨fuel, finished v, ?_, hpresented', hholds⟩
  unfold ptpSend
  rw [ptpTransaction_run rfl, bind_ok (updateRuntime_run _ _), attemptTwice, bind_ok hattempt]
  exact hfinish

theorem ptpSend_answering (reply : UsbReply) (hcode : reply.response.code = 0x2001)
    {packet : Nat} (hle : reply.bytes.length ≤ packet) (hpacket : (packet : Int) ≤ intMax)
    (cmd : PtpCommand) : ∃ fuel v,
      ptpSend (answering reply.bytes) fuel cmd (answeringWorld packet) = .ok 0 v ∧
        reply.Presented v.r ∧ v.r.Holds reply.bytes :=
  ptpSend_answeringHeld reply hcode hle hpacket cmd (answeringWorld packet).r.mutex

/-- A reply that has a payload gets it into the runtime. -/
theorem UsbReply.Presented.hasPayload {data response : Container} {r : PtpRuntime}
    (hpresented : UsbReply.Presented ⟨some data, response⟩ r)
    (hholds : r.Holds (UsbReply.bytes ⟨some data, response⟩)) :
    r.HasPayload 12 data.body.length data.body := by
  obtain ⟨hstart, hlength, _⟩ := hpresented.payload data rfl
  obtain ⟨header, hheader, hsplit⟩ :=
    data.bytes_split (response.bytes ptpPacketTypeResponse) ptpPacketTypeData
  rw [show UsbReply.bytes ⟨some data, response⟩ = _ from hsplit] at hholds
  have hshows := shows_of_holds hholds
  rw [hheader] at hshows
  exact ⟨hstart, hlength, (Int.toNat_natCast _).symm, hshows⟩

/-- A VRAM of one colour. -/
def plainVram (color : UInt8) : List UInt8 := List.replicate (bmpVramWidth * bmpVramHeight) color

def vramReply (color : UInt8) : UsbReply := ⟨some ⟨0, 0, plainVram color⟩, ⟨0x2001, 0, []⟩⟩

theorem plainVram_length (color : UInt8) :
    (plainVram color).length = bmpVramWidth * bmpVramHeight := List.length_replicate

/-- The overlay of a camera whose VRAM has one colour is requested. -/
theorem requestBmpLv_plain (color : UInt8) : ∃ fuel v,
    requestBmpLv (answering (vramReply color).bytes) fuel (precomputeYuv2rgb .initial)
      (answeringWorld 500000) = .ok (0, { precomputeYuv2rgb .initial with toggle := 1 }) v ∧
      v.r.HasPayload 12 (plainVram color).length (plainVram color) := by
  have hfront : (vramReply color).front.length = 12 + bmpVramWidth * bmpVramHeight := by
    rw [← plainVram_length color]
    exact Container.bytes_length _ _
  have hle : (vramReply color).bytes.length ≤ 500000 := by
    rw [UsbReply.bytes_length, hfront, show (vramReply color).response.body.length = 0 from rfl]
    decide
  obtain ⟨fuel, v, hsend, hpresented, hholds⟩ := ptpSend_answering (vramReply color) rfl hle
    (by decide) (commandOf ptpOcMlLiveBmpRam [ptpMlBmpLvGetFrame] (by decide))
  refine ⟨fuel, v, ?_, hpresented.hasPayload hholds⟩
  have hrefresh : refreshLvInfo (answering (vramReply color).bytes) fuel
      (precomputeYuv2rgb .initial) (answeringWorld 500000) =
        .ok { precomputeYuv2rgb .initial with toggle := 1 } (answeringWorld 500000) := rfl
  exact (bind_ok hrefresh).trans (bind_ok hsend)

/-! ## Overlays -/

/-- The frame has the conversion of the payload. A store has been made for every one of its words,
and no other: to the word of a cell of the frame, and for the byte of that cell in the VRAM. -/
structure Overlay.Converts (palette : Vector UInt32 256) (payload : List UInt8) (o : Overlay) :
    Prop where
  stores : ∀ word byte, (word, byte) ∈ o.stores ↔ ∃ x y, x < screenWidth ∧ y < screenHeight ∧
    word = index screenWidth x y ∧ byte = index bmpVramWidth x y
  words : ∀ x y, x < screenWidth → y < screenHeight →
    o.frame.slice (4 * index screenWidth x y) 4 =
      conversion palette (payload.getD (index bmpVramWidth x y) 0)

/-- The call hands out the overlay that it has been sent. -/
def HandsOutOverlay {σ : Type} (B : Backend σ) (fuel : Nat) (memory : Allocator) (allocations : Nat)
    (s : MlStatics) (payload : List UInt8) (w : World σ) : Prop :=
  ∃ o s' v, ptpMlGetBmpLv B fuel memory allocations s w = .ok (0, some o, s') v ∧
    o.Converts s'.lvInfo.lcdPalette payload

/-- Up to the store outside the frame every word has its colour, but the first word of a row has
been stored to before, for the byte behind the row above. -/
theorem Painted.last {s : MlStatics} {payload : List UInt8} {o : Overlay}
    (hprecomputed : s.Precomputed)
    (hpainted : Painted s payload screenWidth (screenHeight - 1) o) :
    (∀ x y, x < screenWidth → y < screenHeight → o.frame.slice (4 * index screenWidth x y) 4 =
      conversion s.lvInfo.lcdPalette (payload.getD (index bmpVramWidth x y) 0)) ∧
    ∀ y < screenHeight - 1,
      (index screenWidth 0 (y + 1), index bmpVramWidth screenWidth y) ∈ o.stores := by
  constructor
  · intro x y hx hy
    have hbefore : Before x y screenWidth (screenHeight - 1) :=
      (lt_or_eq_of_le (Nat.le_sub_one_of_lt hy)).imp_right fun h => ⟨h, hx⟩
    rw [hpainted.words x y hx hbefore, overlayWord_eq hprecomputed]
  · intro y hy
    exact (hpainted.stores_iff _ _).mpr ⟨screenWidth, y, le_rfl, .inl hy, index_width.symm, rfl⟩

section Calls

variable {σ : Type} {B : Backend σ} {fuel : Nat} {memory : Allocator} {allocations : Nat}
  {s s' : MlStatics} {w v : World σ} {start length : Int} {payload : List UInt8}

/-- With memory for the frame, the call stores outside of it. -/
theorem ptpMlGetBmpLv_undefined (hrequest : requestBmpLv B fuel s w = .ok (0, s') v)
    (hpayload : v.r.HasPayload start length payload)
    (hlength : payload.length = bmpVramWidth * bmpVramHeight)
    (hgranted : (memory allocations frameSize).isSome) :
    ptpMlGetBmpLv B fuel memory allocations s w = .error .undefined v := by
  obtain ⟨contents, hcontents⟩ := Option.isSome_iff_exists.mp hgranted
  have hmalloc : memory.malloc allocations frameSize = some ⟨frameSize, contents⟩ := by
    rw [Allocator.malloc, hcontents, Option.map_some]
  have hstop : (ptpGetPayload v.r >>= fun bmp =>
      (overlayRows s' bmp ⟨frameSize, contents⟩).run v.r.load) = .error .undefined := by
    have hrun : (overlayRows s' start ⟨frameSize, contents⟩).run v.r.load = .error .undefined :=
      Reader.run_of_view hpayload.shows (overlayRows_stops hlength (by rfl))
    exact (ok_bind hpayload.start_eq).trans hrun
  unfold ptpMlGetBmpLv
  rw [bind_ok hrequest]
  dsimp only
  rw [if_neg (not_not.mpr rfl), hmalloc]
  dsimp only
  apply bind_error
  rw [inspect, hstop]

end Calls

/-- No overlay is handed out as it has been sent. -/
theorem not_handsOutOverlay {σ : Type} (B : Backend σ) (fuel : Nat) (memory : Allocator)
    (allocations : Nat) (s s' : MlStatics) (w v : World σ) (start length : Int)
    (payload : List UInt8) (hrequest : requestBmpLv B fuel s w = .ok (0, s') v)
    (hpayload : v.r.HasPayload start length payload)
    (hlength : payload.length = bmpVramWidth * bmpVramHeight) :
    ¬HandsOutOverlay B fuel memory allocations s payload w := by
  rintro ⟨o, t, u, hrun, -⟩
  cases hmemory : memory allocations frameSize with
  | some contents =>
      rw [ptpMlGetBmpLv_undefined hrequest hpayload hlength (Option.isSome_of_eq_some hmemory)] at hrun
      cases hrun
  | none =>
      have hmalloc : memory.malloc allocations frameSize = none := by
        rw [Allocator.malloc, hmemory, Option.map_none]
      unfold ptpMlGetBmpLv at hrun
      rw [bind_ok hrequest] at hrun
      dsimp only at hrun
      rw [if_neg (not_not.mpr rfl), hmalloc] at hrun
      cases hrun

/-- A transparent overlay. -/
theorem not_handsOutOverlay_blank : ∃ fuel, ¬HandsOutOverlay (answering (vramReply 0).bytes) fuel
    zeroedMemory 0 (precomputeYuv2rgb .initial) (plainVram 0) (answeringWorld 500000) := by
  obtain ⟨fuel, v, hrequest, hpayload⟩ := requestBmpLv_plain 0
  exact ⟨fuel, not_handsOutOverlay _ fuel zeroedMemory 0 _ _ _ v 12 _ _ hrequest hpayload
    (plainVram_length 0)⟩

/-- An overlay of the first colour. -/
theorem overlay_stores_outside : ∃ fuel v, v.r.HasPayload 12 (plainVram 1).length (plainVram 1) ∧
    ptpMlGetBmpLv (answering (vramReply 1).bytes) fuel zeroedMemory 0 (precomputeYuv2rgb .initial)
      (answeringWorld 500000) = .error .undefined v ∧
    ¬HandsOutOverlay (answering (vramReply 1).bytes) fuel zeroedMemory 0
      (precomputeYuv2rgb .initial) (plainVram 1) (answeringWorld 500000) := by
  obtain ⟨fuel, v, hrequest, hpayload⟩ := requestBmpLv_plain 1
  have hrun : ptpMlGetBmpLv (answering (vramReply 1).bytes) fuel zeroedMemory 0
      (precomputeYuv2rgb .initial) (answeringWorld 500000) = .error .undefined v :=
    ptpMlGetBmpLv_undefined hrequest hpayload (plainVram_length 1) rfl
  refine ⟨fuel, v, hpayload, hrun, ?_⟩
  rintro ⟨o, s', u, hreturns, -⟩
  rw [hrun] at hreturns
  cases hreturns

end Libpict
