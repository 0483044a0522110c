import Libpict.EvprocCommand

/-! # Packed event procedures

The tokens of a command are packed into two blocks that grow in parallel: one has the name and a
record for each argument, the other the strings. Both start with a counter that is patched for
every argument, and the second block is put behind the first one at the end.
-/

namespace Libpict

open Bytes CInt

/-- `EOS_TOK_INT`. -/
abbrev eosTokInt : Nat := 2

/-- `EOS_TOK_STR`. -/
abbrev eosTokStr : Nat := 4

/-- The size of both blocks. -/
abbrev evprocSize : Nat := 500

/-- `struct EvProcParam`. -/
structure EvProcParam where
  type : Nat
  number : Nat
  p3 : Nat
  p4 : Nat
  size : Nat

def EvProcParam.bytes (param : EvProcParam) : List UInt8 :=
  leBytes 4 param.type ++ leBytes 4 param.number ++ leBytes 4 param.p3 ++ leBytes 4 param.p4 ++
    leBytes 4 param.size

/-- The characters of the string in an array. -/
def arrayText {n : Nat} (string : Vector UInt8 n) : List UInt8 :=
  string.toList.takeWhile (· != 0)

/-- What `strlen` and the copying loops find in an array; they run out of one without a zero. -/
def cText {n : Nat} (string : Vector UInt8 n) : Except Halt (List UInt8) :=
  if 0 ∈ string.toList then .ok (arrayText string) else .error .undefined

/-- `(*counter)++` for a counter in a block. -/
def increment (block : Buffer) (of : Nat) : Except Halt Buffer :=
  storeBytes block of (leBytes 4 (leValue (block.slice of 4) + 1))

/-- The blocks of `canon_evproc_pack` and how much of them is in use. `num_args` points into
`data`, `long_args` to the beginning of the footer. -/
structure Packing where
  data : Buffer
  length : Nat
  numArgs : Nat
  footer : Buffer
  footerLength : Nat

/-- Pack one token behind the first. -/
def packToken (p : Packing) (tok : Token) : Except Halt Packing :=
  match tok.type with
  | .int => do
      let data ← storeBytes p.data p.length
        (EvProcParam.bytes ⟨eosTokInt, toUInt32 tok.integer, 0, 0, 0⟩)
      let data ← increment data p.numArgs
      return { p with data := data, length := p.length + 20 }
  | .str => do
      let string ← cText tok.string
      let data ← storeBytes p.data p.length
        (EvProcParam.bytes ⟨eosTokStr, 0, 0, 0, string.length + 1⟩)
      let footer ← storeBytes p.footer p.footerLength (leBytes 4 0)
      let (written, footer) ← ptpWriteUtf8String footer (p.footerLength + 4) string
      let footer ← increment footer 0
      let data ← increment data p.numArgs
      return { p with
        data := data
        length := p.length + 20
        footer := footer
        footerLength := p.footerLength + 4 + written }
  | .text => return p

/-- `canon_evproc_pack` behind the lexer: the packed block and its length, or `none` for NULL.
The footer has its counter already; the block for the data may be NULL. -/
def packTokens (toks : Tokens) (footer : Buffer) (data : Option Buffer) :
    Except Halt (Option (Buffer × Nat)) :=
  match toks.t.toList.take toks.length with
  -- Error, must have at least 1 parameter.
  | [] => .ok none
  | first :: args =>
      match first.type with
      | .text =>
          match data with
          | none => .error .undefined
          | some data => do
              let name ← cText first.string
              let data ← storeBytes data 0 (name ++ [0])
              let data ← storeBytes data (name.length + 1) (leBytes 4 0)
              let p ← args.foldlM packToken ⟨data, name.length + 1 + 4, name.length + 1, footer, 4⟩
              let data ← storeBytes p.data p.length (p.footer.slice 0 p.footerLength)
              return some (data, p.length + p.footerLength)
      -- Error, first parameter must be plain text.
      | _ => .ok none

/-- `canon_evproc_pack`: the request is in memory, at 0. -/
def canonEvprocPack (overflow : Overflow) (memory : Allocator) (allocations fuel : Nat) :
    Reader UInt8 Halt (Option (Buffer × Nat)) :=
  match memory.malloc allocations evprocSize with
  | none => .stop .undefined
  | some footer => do
      let footer ← Reader.ofExcept (storeBytes footer 0 (leBytes 4 0))
      let toks ← lexEvprocCommand overflow memory (allocations + 1) fuel
      match toks with
      -- The result of the lexer is not looked at.
      | none => .stop .undefined
      | some toks =>
          Reader.ofExcept
            (packTokens toks footer (memory.malloc (allocations + 2) evprocSize))

/-! ## The layout -/

namespace Token

/-- The record of an argument. -/
def record (tok : Token) : List UInt8 :=
  match tok.type with
  | .int => EvProcParam.bytes ⟨eosTokInt, toUInt32 tok.integer, 0, 0, 0⟩
  | .str => EvProcParam.bytes ⟨eosTokStr, 0, 0, 0, (arrayText tok.string).length + 1⟩
  | .text => []

/-- What an argument has in the footer. -/
def long (tok : Token) : List UInt8 :=
  match tok.type with
  | .str => leBytes 4 0 ++ (arrayText tok.string ++ [0])
  | _ => []

/-- Arguments are counted, words behind the name are not. -/
def isArg (tok : Token) : Bool := tok.type != .text

end Token

/-- The first part of a packed command. -/
def headBytes (name : List UInt8) (args : List Token) : List UInt8 :=
  (name ++ [0]) ++ leBytes 4 (args.countP Token.isArg) ++ args.flatMap Token.record

/-- The footer of a packed command. -/
def footerBytes (args : List Token) : List UInt8 :=
  leBytes 4 (args.countP (·.type == .str)) ++ args.flatMap Token.long

/-- The layout of a packed command. -/
def packedBytes (name : List UInt8) (args : List Token) : List UInt8 :=
  headBytes name args ++ footerBytes args

end Libpict
