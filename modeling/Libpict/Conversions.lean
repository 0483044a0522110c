import Mathlib.Data.Int.Notation
import Mathlib.Tactic.Common

/-! # Canon property values

Tables of the values that Canon cameras use for shutter speed, ISO, white balance and
aperture and of the library's own values for them, and the search of a table in either
direction. A value that no row has is left as it is.
-/

namespace Libpict

/-- `struct CanonShutterSpeed` and its siblings. -/
structure CanonRow where
  value : Int
  data : Int

/-- Search the table for the camera's value, or with `dir` for the library's. -/
def convertCanon (table : List CanonRow) (data : Int) (dir : Bool) : Int :=
  if dir then ((table.find? fun row => row.value = data).map CanonRow.data).getD data
  else ((table.find? fun row => row.data = data).map CanonRow.value).getD data

/-- `canon_shutter`: value times 100000, and data from camera. -/
def canonShutter : List CanonRow :=
  [⟨0, 0xc⟩, ⟨0, 0x4⟩, ⟨3000000, 0x10⟩, ⟨2500000, 0x13⟩, ⟨2000000, 0x15⟩, ⟨1500000, 0x18⟩,
    ⟨1300000, 0x1b⟩, ⟨1000000, 0x1d⟩, ⟨800000, 0x20⟩, ⟨600000, 0x23⟩, ⟨500000, 0x25⟩,
    ⟨400000, 0x28⟩, ⟨320000, 0x2b⟩, ⟨250000, 0x2d⟩, ⟨200000, 0x30⟩, ⟨160000, 0x33⟩,
    ⟨130000, 0x35⟩, ⟨100000, 0x38⟩, ⟨80000, 0x3b⟩, ⟨60000, 0x3d⟩, ⟨50000, 0x40⟩, ⟨40000, 0x43⟩,
    ⟨30000, 0x45⟩, ⟨25000, 0x48⟩, ⟨20000, 0x4b⟩, ⟨16666, 0x4d⟩, ⟨12500, 0x50⟩,
    ⟨100000 / 10, 0x53⟩, ⟨100000 / 13, 0x55⟩, ⟨100000 / 15, 0x58⟩, ⟨100000 / 20, 0x5b⟩,
    ⟨100000 / 25, 0x5d⟩, ⟨100000 / 30, 0x60⟩, ⟨100000 / 40, 0x63⟩, ⟨100000 / 50, 0x65⟩,
    ⟨100000 / 60, 0x68⟩, ⟨100000 / 80, 0x6b⟩, ⟨100000 / 100, 0x6d⟩, ⟨100000 / 125, 0x70⟩,
    ⟨100000 / 160, 0x73⟩, ⟨100000 / 200, 0x75⟩, ⟨100000 / 250, 0x78⟩, ⟨100000 / 320, 0x7b⟩,
    ⟨100000 / 400, 0x7d⟩, ⟨100000 / 500, 0x80⟩, ⟨100000 / 640, 0x83⟩, ⟨100000 / 800, 0x85⟩,
    ⟨100000 / 1000, 0x88⟩, ⟨100000 / 1250, 0x8b⟩, ⟨100000 / 1600, 0x8d⟩, ⟨100000 / 2000, 0x90⟩,
    ⟨100000 / 2500, 0x93⟩, ⟨100000 / 3200, 0x95⟩, ⟨100000 / 4000, 0x98⟩, ⟨100000 / 5000, 0x9a⟩,
    ⟨100000 / 6400, 0x9d⟩, ⟨100000 / 8000, 0xa0⟩]

/-- `ptp_eos_get_shutter`. -/
def ptpEosGetShutter (data : Int) (dir : Bool) : Int := convertCanon canonShutter data dir

/-- `canon_iso`. -/
def canonIso : List CanonRow :=
  [⟨0, 0⟩, ⟨50, 0x40⟩, ⟨100, 0x48⟩, ⟨125, 0x4b⟩, ⟨160, 0x4d⟩, ⟨200, 0x50⟩, ⟨250, 0x53⟩,
    ⟨320, 0x55⟩, ⟨400, 0x58⟩, ⟨500, 0x5b⟩, ⟨640, 0x5b⟩, ⟨800, 0x60⟩, ⟨1000, 0x63⟩, ⟨1250, 0x65⟩,
    ⟨1600, 0x68⟩, ⟨3200, 0x70⟩, ⟨6400, 0x78⟩, ⟨12800, 0x78 + 8⟩]

/-- `ptp_eos_get_iso`. -/
def ptpEosGetIso (data : Int) (dir : Bool) : Int := convertCanon canonIso data dir

/-- `canon_white_balance`. -/
def canonWhiteBalance : List CanonRow := [⟨0, 0⟩, ⟨1, 1⟩, ⟨2, 8⟩, ⟨3, 3⟩, ⟨4, 4⟩]

/-- `ptp_eos_get_white_balance`: the loop is bounded by the size of one row over the size
of one row, and so only sees the first. -/
def ptpEosGetWhiteBalance (data : Int) (dir : Bool) : Int :=
  convertCanon (canonWhiteBalance.take 1) data dir

/-- `canon_aperture`: scaled by 10. -/
def canonAperture : List CanonRow :=
  [⟨12, 0xd⟩, ⟨14, 0x10⟩, ⟨16, 0x13⟩, ⟨18, 0x15⟩, ⟨20, 0x18⟩, ⟨22, 0x1b⟩, ⟨25, 0x1d⟩, ⟨28, 0x20⟩,
    ⟨32, 0x23⟩, ⟨35, 0x25⟩, ⟨40, 0x28⟩, ⟨45, 0x2b⟩, ⟨50, 0x2d⟩, ⟨56, 0x30⟩, ⟨63, 0x33⟩,
    ⟨71, 0x35⟩, ⟨80, 0x38⟩, ⟨90, 0x3b⟩, ⟨100, 0x3d⟩, ⟨110, 0x40⟩, ⟨130, 0x43⟩, ⟨140, 0x45⟩,
    ⟨160, 0x48⟩, ⟨180, 0x4b⟩, ⟨200, 0x4d⟩, ⟨220, 0x50⟩, ⟨250, 0x53⟩, ⟨290, 0x55⟩, ⟨320, 0x58⟩]

/-- `ptp_eos_get_aperture`. -/
def ptpEosGetAperture (data : Int) (dir : Bool) : Int := convertCanon canonAperture data dir

/-! ## Image formats -/

/-- `enum ImageFormats`. -/
abbrev imgFormatRaw : Int := 1

abbrev imgFormatStd : Int := 2

abbrev imgFormatHigh : Int := 3

abbrev imgFormatRawJpeg : Int := 4

/-- `canon_imgformats`, each row with the first five words of its data. -/
def canonImgformats : List (Int × List Nat) :=
  [(imgFormatRaw, [1, 16, 6, 0, 4]), (imgFormatStd, [1, 16, 1, 0, 2]),
    (imgFormatHigh, [1, 16, 1, 0, 3]), (imgFormatRawJpeg, [2, 16, 6, 0, 4])]

/-- `ptp_eos_get_imgformat_value`, given five words. -/
def ptpEosGetImgformatValue (data : List Nat) : Int :=
  ((canonImgformats.find? fun row => row.2 = data).map Prod.fst).getD 0

end Libpict
