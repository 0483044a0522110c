import Libpict.Base.Slots
import Libpict.Payload

/-! # Strings

Strings travel as a count and UTF-16 characters, as UTF-16 up to a zero, or as bytes up to
a zero. The readers copy them into an array of the caller, the writers take them from one.
-/

namespace Libpict

open Bytes CInt

/-- A store to `array[index]`. -/
def storeAt {α : Type} {n : Nat} (array : Vector α n) (index : Nat) (a : α) :
    Reader UInt8 Halt (Vector α n) :=
  if h : index < n then .done (array.set index a) else .stop .undefined

/-! ## Reading -/

/-- What `ptp_read_string` makes of a character. -/
def printableChar (wchr : Nat) : Nat :=
  if 128 < wchr then 63 else if wchr ≠ 0 ∧ wchr < 32 then 32 else wchr

/-- The loop of `ptp_read_string`, with `left` characters to go and `i` stored: the offset
behind the last one read, how many are stored, the last one and the array. -/
def readChars {n : Nat} (d : Int) (max : Int) : (left i wchr : Nat) → (of : Int) →
    (string : Vector UInt8 n) → Reader UInt8 Halt (Int × Nat × Nat × Vector UInt8 n)
  | 0, i, wchr, of, string => return (of, i, wchr, string)
  | left + 1, i, _, of, string => do
      let found ← ptpReadU16 (d + of)
      let wchr := printableChar found
      let string ← storeAt string i (UInt8.ofNat wchr)
      if max - 1 ≤ (i + 1 : Nat) then return (of + 2, i + 1, wchr, string)
      else readChars d max left (i + 1) wchr (of + 2) string

/-- `ptp_read_string`: the bytes it has read, and the array. -/
def ptpReadString {n : Nat} (d : Int) (string : Vector UInt8 n) (max : Int) :
    Reader UInt8 Halt (Int × Vector UInt8 n) := do
  let length ← ptpReadU8 d
  if length = 0 then do
    let string ← storeAt string 0 0
    return (1, string)
  else do
    let (of, i, wchr, string) ← readChars d max length 0 0 1 string
    -- A string without a terminator only leaves a line in the log.
    if wchr ≠ 0 then return (of, string)
    else do
      let string ← storeAt string i 0
      return (of, string)

/-- `ptp_read_unicode_string`, from the `i`-th byte on; the loop makes at most `fuel` rounds. -/
def readUnicode {n : Nat} (dat : Int) (max : Int) : (fuel i : Nat) → (buffer : Vector UInt8 n) →
    Reader UInt8 Halt (Int × Vector UInt8 n)
  | 0, _, _ => .stop .spent
  | fuel + 1, i, buffer => do
      let found ← ptpReadU8 (dat + i)
      if found = 0 then do
        let buffer ← storeAt buffer (i / 2) 0
        return ((i / 2 : Nat), buffer)
      else do
        let buffer ← storeAt buffer (i / 2) (UInt8.ofNat found)
        if max - 2 ≤ i then do
          let buffer ← storeAt buffer (i / 2 + 1) 0
          return (i, buffer)
        else readUnicode dat max fuel (i + 2) buffer

/-- `ptp_read_unicode_string`: its result and the buffer. -/
def ptpReadUnicodeString {n : Nat} (fuel : Nat) (buffer : Vector UInt8 n) (dat : Int) (max : Int) :
    Reader UInt8 Halt (Int × Vector UInt8 n) :=
  readUnicode dat max fuel 0 buffer

/-- The loop of `ptp_read_utf8_string`: where it ends, and the string. -/
def readUtf8 {n : Nat} (dat : Int) (max : Int) : (fuel x : Nat) → (string : Vector UInt8 n) →
    Reader UInt8 Halt (Nat × Vector UInt8 n)
  | 0, _, _ => .stop .spent
  | fuel + 1, x, string => do
      let found ← ptpReadU8 (dat + x)
      if found = 0 then return (x, string)
      else do
        let string ← storeAt string x (UInt8.ofNat found)
        if max - 1 < (x + 1 : Nat) then return (x + 1, string)
        else readUtf8 dat max fuel (x + 1) string

/-- `ptp_read_utf8_string`: the bytes of the string with its zero, and the array. -/
def ptpReadUtf8String {n : Nat} (fuel : Nat) (dat : Int) (string : Vector UInt8 n) (max : Int) :
    Reader UInt8 Halt (Int × Vector UInt8 n) := do
  let (x, string) ← readUtf8 dat max fuel 0 string
  let string ← storeAt string x 0
  return ((x + 1 : Nat), string)

/-! ## Writing

A writer stores the encoding of a string at an offset of a buffer that must have room for it.
-/

/-- A store of some bytes. -/
def storeBytes (buf : Buffer) (of : Nat) (bytes : List UInt8) : Except Halt Buffer :=
  if of + bytes.length ≤ buf.size then .ok (buf.store of bytes) else .error .undefined

/-- What `ptp_write_string` writes: the length is one byte. -/
def stringBytes (string : List UInt8) : List UInt8 :=
  if string.length = 0 then [0]
  else leBytes 1 (string.length + 1) ++ (string.flatMap fun char => [char, 0]) ++ leBytes 2 0

/-- `ptp_write_string`: the bytes it has written, and the buffer. -/
def ptpWriteString (buf : Buffer) (of : Nat) (string : List UInt8) : Except Halt (Nat × Buffer) := do
  let buf ← storeBytes buf of (stringBytes string)
  return ((stringBytes string).length, buf)

/-- `ptp_write_utf8_string`. -/
def ptpWriteUtf8String (buf : Buffer) (of : Nat) (string : List UInt8) :
    Except Halt (Nat × Buffer) := do
  let buf ← storeBytes buf of (string ++ [0])
  return (string.length + 1, buf)

/-- `ptp_write_unicode_string`, to any buffer: behind the characters it stores only the second
byte of the terminator. -/
def writeUnicodeString (buf : Buffer) (of : Nat) (string : List UInt8) :
    Except Halt (Nat × Buffer) := do
  let buf ← storeBytes buf of (string.flatMap fun char => [char, 0])
  let buf ← storeBytes buf (of + 2 * string.length + 1) [0]
  return (string.length, buf)

end Libpict
