import Libpict.AvailList
import Libpict.Strings

/-! # Event procedure commands

Event procedures of Canon cameras are called by a line of text: a name, and numbers and quoted
strings behind it. The lexer walks over the line up to its zero and fills a table of tokens.
-/

namespace Libpict

open CInt

/-! ## The table of tokens -/

/-- `enum Types`. -/
inductive TokenType
  | text
  | str
  | int
  deriving DecidableEq, Repr

/-- `MAX_STR`. -/
abbrev maxStr : Nat := 128

/-- `MAX_TOK`. -/
abbrev maxTok : Nat := 10

/-- An entry of `struct Tokens`. -/
structure Token where
  type : TokenType
  string : Vector UInt8 maxStr
  integer : Int
  deriving DecidableEq

/-- `struct Tokens`. -/
structure Tokens where
  t : Vector Token maxTok
  length : Nat
  deriving DecidableEq

/-- `sizeof(struct Tokens)`. -/
def tokensSize : Nat := 1364

/-- An entry after `memset`. -/
def Token.zero : Token := ⟨.text, .replicate maxStr 0, 0⟩

/-- `toks->t[t]`. -/
def tokenAt (toks : Vector Token maxTok) (t : Nat) : Reader UInt8 Halt Token :=
  match toks[t]? with
  | some tok => return tok
  | none => .stop .undefined

/-! ## Characters -/

def alpha (c : UInt8) : Bool := (0x61 ≤ c && c ≤ 0x7A) || (0x41 ≤ c && c ≤ 0x5A) || c == 0x5F

def digit (c : UInt8) : Bool := 0x30 ≤ c && c ≤ 0x39

def hex (c : UInt8) : Bool := digit c || (0x41 ≤ c && c ≤ 0x46) || (0x61 ≤ c && c ≤ 0x66)

def blank (c : UInt8) : Bool := c == 0x20 || c == 0x09

/-- What a digit adds to a number. -/
def digitValue (c : UInt8) : Nat :=
  if digit c then c.toNat - 0x30
  else if 0x41 ≤ c && c ≤ 0x46 then c.toNat - 0x41 + 10
  else if 0x61 ≤ c && c ≤ 0x66 then c.toNat - 0x61 + 10
  else 0

/-- `string[c]`. -/
def charAt (c : Nat) : Reader UInt8 Halt UInt8 := do
  let bytes ← Reader.read c 1
  return bytes.headD 0

/-! ## Numbers -/

/-- What a compiler makes of a signed result that does not fit: the standard leaves it undefined,
with `-fwrapv` it wraps around. Numbers of any size are ordinary input of the lexer. -/
inductive Overflow
  | undefined
  | wraps
  deriving DecidableEq, Repr

/-- A signed result. -/
def Overflow.result (overflow : Overflow) (x : Int) : Reader UInt8 Halt Int :=
  if Fits x then return x
  else match overflow with
    | .undefined => .stop .undefined
    | .wraps => return toInt32 x

/-! ## The lexer

Every loop makes at most `fuel` rounds.
-/

/-- Skip whitespace chars. -/
def skipBlanks : (fuel c : Nat) → Reader UInt8 Halt Nat
  | 0, _ => .stop .spent
  | fuel + 1, c => do
      let char ← charAt c
      if blank char then skipBlanks fuel (c + 1) else return c

/-- The loops over a word and over a quoted string, from the `c`-th character on with `s` stored:
where they end, how much is stored then, and the string. -/
def copyChars (more : UInt8 → Bool) : (fuel c s : Nat) → (string : Vector UInt8 maxStr) →
    Reader UInt8 Halt (Nat × Nat × Vector UInt8 maxStr)
  | 0, _, _, _ => .stop .spent
  | fuel + 1, c, s, string => do
      let char ← charAt c
      if more char then do
        let string ← storeAt string s char
        -- The limit is looked at behind the store.
        if maxStr < s + 1 then return (c + 1, s + 1, string)
        else copyChars more fuel (c + 1) (s + 1) string
      else return (c, s, string)

/-- A word or a quoted string with the zero that it gets. -/
def lexString (more : UInt8 → Bool) (fuel c : Nat) (string : Vector UInt8 maxStr) :
    Reader UInt8 Halt (Nat × Vector UInt8 maxStr) := do
  let (c, s, string) ← copyChars more fuel c 0 string
  let string ← storeAt string s 0
  return (c, string)

/-- The loops over hexadecimal and decimal digits: where they end, and the number. -/
def lexDigits (overflow : Overflow) (base : Nat) (isDigit : UInt8 → Bool) :
    (fuel c : Nat) → (integer : Int) → Reader UInt8 Halt (Nat × Int)
  | 0, _, _ => .stop .spent
  | fuel + 1, c, integer => do
      let char ← charAt c
      if isDigit char then do
        let integer ← overflow.result (integer * base)
        let integer ← overflow.result (integer + digitValue char)
        lexDigits overflow base isDigit fuel (c + 1) integer
      else return (c, integer)

/-- Whether `0x` is at the character. -/
def hexAt (c : Nat) (char : UInt8) : Reader UInt8 Halt Bool :=
  if char = 0x30 then do
    let next ← charAt (c + 1)
    return next == 0x78
  else return false

/-- The branches on the character behind the blanks: where they end and the table, or `none` for
a character that starts no token. -/
def lexToken (overflow : Overflow) (fuel c t : Nat) (toks : Vector Token maxTok) :
    Reader UInt8 Halt (Option (Nat × Vector Token maxTok)) := do
  let char ← charAt c
  if alpha char then do
    let tok ← tokenAt toks t
    let (c, string) ← lexString alpha fuel c tok.string
    return some (c, toks.setIfInBounds t { tok with type := .text, string := string })
  else do
    let isHex ← hexAt c char
    if isHex then do
      let tok ← tokenAt toks t
      let (c, integer) ← lexDigits overflow 16 hex fuel (c + 2) 0
      return some (c, toks.setIfInBounds t { tok with type := .int, integer := integer })
    else if digit char then do
      let tok ← tokenAt toks t
      let (c, integer) ← lexDigits overflow 10 digit fuel c 0
      return some (c, toks.setIfInBounds t { tok with type := .int, integer := integer })
    else if char = 0x27 then do
      let tok ← tokenAt toks t
      let (c, string) ← lexString (· != 0x27) fuel (c + 1) tok.string
      return some (c + 1, toks.setIfInBounds t { tok with type := .str, string := string })
    -- The log gets the character.
    else return none

/-- The loop of `lex_evproc_command`; `none` is NULL. -/
def lexCommand (overflow : Overflow) : (fuel c t : Nat) → (toks : Vector Token maxTok) →
    Reader UInt8 Halt (Option Tokens)
  | 0, _, _, _ => .stop .spent
  | fuel + 1, c, t, toks => do
      let char ← charAt c
      if char = 0 then return some ⟨toks, t⟩
      else do
        let c ← skipBlanks (fuel + 1) c
        let token ← lexToken overflow (fuel + 1) c t toks
        match token with
        -- An unknown character, be it the zero of the line, is skipped.
        | none => lexCommand overflow fuel (c + 1) t toks
        | some (c, toks) =>
            if maxTok ≤ t then return none else lexCommand overflow fuel c (t + 1) toks

/-- `lex_evproc_command`. -/
def lexEvprocCommand (overflow : Overflow) (memory : Allocator) (allocations fuel : Nat) :
    Reader UInt8 Halt (Option Tokens) :=
  match memory.malloc allocations tokensSize with
  -- `memset` through NULL
  | none => .stop .undefined
  | some _ => lexCommand overflow fuel 0 0 (.replicate maxTok .zero)

end Libpict
