import Libpict.EvprocLayout
import Libpict.StringReaders

/-! # Dumped event procedures

The packet decoder reports the event procedures that it finds in a capture. It reads the string of
an argument behind the record of the argument, where the packer puts it only if no other argument
is in between.
-/

namespace Libpict

open Bytes CInt

/-! ## The decoder -/

/-- A line about a parameter. -/
inductive EvprocReport
  | int (val p3 p4 : Nat)
  | str (string : List UInt8)
  | unknown (type : Nat)
  deriving DecidableEq, Repr

/-- What `decode_eos_evproc` prints: the name, the number of parameters and their lines. -/
structure EvprocDump where
  name : List UInt8
  parameters : Nat
  params : List EvprocReport
  deriving DecidableEq, Repr

/-- The loop of `decode_eos_evproc` with `left` parameters to go. -/
def decodeParams (fuel : Nat) : (left : Nat) → (of : Int) → (buffer : Vector UInt8 64) →
    Reader UInt8 Halt (List EvprocReport)
  | 0, _, _ => return []
  | left + 1, of, buffer => do
      let type ← ptpReadU32 of
      if type = 2 then do
        let val ← ptpReadU32 (of + 4)
        let p3 ← ptpReadU32 (of + 8)
        let p4 ← ptpReadU32 (of + 12)
        let _ ← ptpReadU32 (of + 16)
        let rest ← decodeParams fuel left (of + 20) buffer
        return .int val p3 p4 :: rest
      else if type = 4 then do
        let _ ← ptpReadU32 (of + 4)
        let _ ← ptpReadU32 (of + 8)
        let _ ← ptpReadU32 (of + 12)
        let _ ← ptpReadU32 (of + 16)
        let _ ← ptpReadU32 (of + 20)
        let _ ← ptpReadU32 (of + 24)
        let (read, buffer) ← ptpReadUtf8String fuel (of + 28) buffer 64
        let string ← .ofExcept (cText buffer)
        let rest ← decodeParams fuel left (of + 28 + read) buffer
        return .str string :: rest
      else do
        let rest ← decodeParams fuel left (of + 4) buffer
        return .unknown type :: rest

/-- `decode_eos_evproc` on the data at 0; `buffer` is what its array holds before. -/
def decodeEosEvproc (fuel : Nat) (buffer : Vector UInt8 64) : Reader UInt8 Halt EvprocDump := do
  let (of, buffer) ← ptpReadUtf8String fuel 0 buffer 64
  let len ← ptpReadU32 of
  let name ← .ofExcept (cText buffer)
  let params ← decodeParams fuel (toInt32 len).toNat (of + 4) buffer
  return ⟨name, len, params⟩

/-! ## Reading at an offset -/

section Fields

variable {window : List UInt8} {c : Nat} {γ : Type} {post : γ → Prop}

/-- A word of the window. -/
theorem returns_readU32 {value : Nat} {rest : List UInt8} {position : Int} (hat : position = c)
    (hvalue : value < 256 ^ 4) (hdrop : window.drop c = leBytes 4 value ++ rest)
    (f : Nat → Reader UInt8 Halt γ) :
    (ptpReadU32 position >>= f).Returns 0 window post ↔ (f value).Returns 0 window post := by
  have hlength := congrArg List.length hdrop
  rw [List.length_drop, List.length_append, leBytes_length] at hlength
  have hfield : field 4 c window = value := by
    rw [field, hdrop, List.take_left' (leBytes_length _ _), leValue_leBytes_of_lt hvalue]
  have hat' : position = 0 + (c : Int) := by rw [Int.zero_add, hat]
  rw [Reader.Returns, readLe_bind_view hat', if_pos (by omega),
    hfield, Reader.Returns]

/-- What is behind an offset is found there. -/
theorem shows_drop (hle : c ≤ window.length) :
    Reader.Shows (Reader.only .undefined window : Reader.Memory UInt8 Halt) c (window.drop c) := by
  intro offset size hinside
  rw [List.length_drop] at hinside
  have hfound := Reader.only_shows Halt.undefined window (c + offset) size (by omega)
  rw [Int.zero_add, Nat.cast_add] at hfound
  rw [hfound, List.drop_drop]

/-- A string of the window that fits in the array. -/
theorem returns_readUtf8 {fuel : Nat} {chars rest : List UInt8} {position : Int}
    (hat : position = c) (buffer : Vector UInt8 64)
    (hdrop : window.drop c = chars ++ 0 :: rest) (hzero : 0 ∉ chars) (hlength : chars.length < 64)
    (hfuel : 64 < fuel) (f : Int × Vector UInt8 64 → Reader UInt8 Halt γ) :
    (ptpReadUtf8String fuel position buffer 64 >>= f).Returns 0 window post ↔
      (f ((chars.length + 1 : Nat), Slots.put buffer 0 (chars ++ [0]))).Returns 0 window post := by
  have hle : c ≤ window.length := by
    by_contra hgt
    rw [List.drop_eq_nil_of_le (by omega)] at hdrop
    cases chars <;> cases hdrop
  have hrun : (ptpReadUtf8String fuel c buffer 64).run (Reader.only .undefined window) =
      .ok ((chars.length + 1 : Nat), Slots.put buffer 0 (chars ++ [0])) :=
    ptpReadUtf8String_zero buffer (shows_drop hle) hdrop hzero hfuel (Nat.le_refl 64) hlength
  rw [hat, Reader.Returns, Reader.view_bind_ok (Reader.run_only_eq_ok.mp hrun), Reader.Returns]

theorem cText_put {chars : List UInt8} (buffer : Vector UInt8 64) (hzero : 0 ∉ chars)
    (hlength : chars.length < 64) :
    cText (Slots.put buffer 0 (chars ++ [0])) = .ok chars := by
  have hlist : (Slots.put buffer 0 (chars ++ [0])).toList = chars ++ 0 :: buffer.toList.drop
      (chars.length + 1) := by
    rw [Slots.toList_put _ _ (by rw [List.length_append, List.length_singleton]; omega)]
    simp
  rw [cText, hlist, if_pos (by simp), arrayText, hlist, List.takeWhile_append_of_pos]
  · simp
  · exact fun char hchar => bne_iff_ne.mpr (ne_of_mem_of_not_mem hchar hzero)

end Fields

/-! ## Packed parameters -/

namespace Lexeme

/-- An argument whose string the decoder has room for. -/
def IsArg : Lexeme → Prop
  | text _ => False
  | int _ => True
  | str string => 0 ∉ string ∧ string.length < 64

/-- The line that should be printed about an argument. -/
def report : Lexeme → EvprocReport
  | text _ => .unknown 0
  | int value => .int (value % 4294967296) 0 0
  | str string => .str string

def IsInt : Lexeme → Prop
  | int _ => True
  | _ => False

theorem IsArg.sound {arg : Lexeme} (hisArg : arg.IsArg) : arg.Sound := by
  cases arg with
  | text word => exact hisArg.elim
  | int value => trivial
  | str string => exact ⟨hisArg.1, hisArg.2.trans (by decide)⟩

/-- The words of a record: the third and the fourth are zero. -/
theorem IsArg.record_eq {arg : Lexeme} (hisArg : arg.IsArg) : ∃ type number size,
    arg.token.record = leBytes 4 type ++ (leBytes 4 number ++ (leBytes 4 0 ++ (leBytes 4 0 ++
      leBytes 4 size))) ∧ number < 256 ^ 4 ∧ size < 256 ^ 4 ∧
      match arg with
      | text _ => False
      | int value => type = 2 ∧ number = value % 4294967296
      | str _ => type = 4 := by
  cases arg with
  | text word => exact hisArg.elim
  | int value =>
      have hnumber : toUInt32 (toInt32 value) = value % 4294967296 := by
        unfold toUInt32 toInt32
        omega
      refine ⟨2, value % 4294967296, 0, ?_, Nat.mod_lt _ (by decide), by decide, rfl, rfl⟩
      rw [← hnumber]
      simp [Lexeme.token, Token.record, EvProcParam.bytes]
  | str string =>
      have hsize : string.length + 1 < 256 ^ 4 := lt_of_le_of_lt hisArg.2 (by decide)
      refine ⟨4, 0, string.length + 1, ?_, by decide, hsize, rfl⟩
      have hchars := arrayText_put hisArg.1 (hisArg.2.trans (by decide : 64 < maxStr))
      simp [Lexeme.token, Token.record, EvProcParam.bytes, hchars]

end Lexeme

section Params

variable {window : List UInt8} {c fuel : Nat}

theorem drop_word {value : Nat} {rest : List UInt8}
    (hdrop : window.drop c = leBytes 4 value ++ rest) : window.drop (c + 4) = rest := by
  have hnext := drop_length hdrop
  rwa [leBytes_length] at hnext

/-- What is printed about the first of some parameters is the first line. -/
theorem returns_cons {report report' : EvprocReport} {reports : List EvprocReport}
    (x : Reader UInt8 Halt (List EvprocReport)) :
    (x >>= fun rest => return report' :: rest).Returns 0 window (· = report :: reports) ↔
      report' = report ∧ x.Returns 0 window (· = reports) := by
  rw [Reader.returns_bind]
  constructor
  · rintro ⟨rest, hx, hcons⟩
    rw [Reader.pure_eq, Reader.returns_done] at hcons
    obtain ⟨rfl, rfl⟩ := List.cons.inj hcons
    exact ⟨rfl, _, hx, rfl⟩
  · rintro ⟨rfl, rest, hx, rfl⟩
    exact ⟨rest, hx, (Reader.returns_done _ _).mpr rfl⟩

/-- A number is read back, and the next parameter is behind its record. -/
theorem returns_decodeParams_int {value left : Nat} {rest : List UInt8}
    {reports : List EvprocReport} (buffer : Vector UInt8 64)
    (hdrop : window.drop c = (Lexeme.int value).token.record ++ rest) :
    (decodeParams fuel (left + 1) c buffer).Returns 0 window
        (· = (Lexeme.int value).report :: reports) ↔
      (decodeParams fuel left (c + 20 : Nat) buffer).Returns 0 window (· = reports) := by
  obtain ⟨type, number, size, hrecord, hnumber, hsize, rfl, rfl⟩ :=
    @Lexeme.IsArg.record_eq (.int value) trivial
  simp only [hrecord, List.append_assoc] at hdrop
  rw [decodeParams, returns_readU32 rfl (by decide) hdrop, if_pos rfl,
    returns_readU32 (c := c + 4) (by push_cast; rfl) hnumber (drop_word hdrop),
    returns_readU32 (c := c + 8) (by push_cast; rfl) (by decide) (drop_word (drop_word hdrop)),
    returns_readU32 (c := c + 12) (by push_cast; rfl) (by decide)
      (drop_word (drop_word (drop_word hdrop))),
    returns_readU32 (c := c + 16) (by push_cast; rfl) hsize
      (drop_word (drop_word (drop_word (drop_word hdrop)))), returns_cons]
  exact and_iff_right rfl

/-- The string of a parameter is read two words behind its record. -/
theorem returns_decodeParams_str {string chars rest : List UInt8} {first second left : Nat}
    {report : EvprocReport} {reports : List EvprocReport} (buffer : Vector UInt8 64)
    (hisArg : (Lexeme.str string).IsArg) (hfirst : first < 256 ^ 4) (hsecond : second < 256 ^ 4)
    (hdrop : window.drop c = (Lexeme.str string).token.record ++
      (leBytes 4 first ++ (leBytes 4 second ++ (chars ++ 0 :: rest))))
    (hzero : 0 ∉ chars) (hlength : chars.length < 64) (hfuel : 64 < fuel) :
    (decodeParams fuel (left + 1) c buffer).Returns 0 window (· = report :: reports) ↔
      .str chars = report ∧ (decodeParams fuel left (c + 28 + (chars.length + 1) : Nat)
        (Slots.put buffer 0 (chars ++ [0]))).Returns 0 window (· = reports) := by
  obtain ⟨type, number, size, hrecord, hnumber, hsize, rfl⟩ := hisArg.record_eq
  simp only [hrecord, List.append_assoc] at hdrop
  have hsize' := drop_word (drop_word (drop_word (drop_word hdrop)))
  have hchars := drop_word (drop_word (drop_word hsize'))
  rw [decodeParams, returns_readU32 rfl (by decide) hdrop, if_neg (by decide), if_pos rfl,
    returns_readU32 (c := c + 4) (by push_cast; rfl) hnumber (drop_word hdrop),
    returns_readU32 (c := c + 8) (by push_cast; rfl) (by decide) (drop_word (drop_word hdrop)),
    returns_readU32 (c := c + 12) (by push_cast; rfl) (by decide)
      (drop_word (drop_word (drop_word hdrop))),
    returns_readU32 (c := c + 16) (by push_cast; rfl) hsize hsize',
    returns_readU32 (c := c + 20) (by push_cast; rfl) hfirst (drop_word hsize'),
    returns_readU32 (c := c + 24) (by push_cast; rfl) hsecond (drop_word (drop_word hsize')),
    returns_readUtf8 (c := c + 28) (by push_cast; rfl) buffer hchars hzero hlength hfuel]
  dsimp only
  rw [cText_put buffer hzero hlength, Reader.ofExcept, Reader.done_bind, returns_cons]
  push_cast
  rfl

/-- A type that is none is not what should be printed about an argument. -/
theorem not_returns_decodeParams {left : Nat} {rest : List UInt8} {arg : Lexeme}
    {reports : List EvprocReport} (buffer : Vector UInt8 64) (hisArg : arg.IsArg)
    (hdrop : window.drop c = leBytes 4 0 ++ rest) :
    ¬(decodeParams fuel (left + 1) c buffer).Returns 0 window (· = arg.report :: reports) := by
  rw [decodeParams, returns_readU32 rfl (by decide) hdrop, if_neg (by decide), if_neg (by decide),
    returns_cons]
  rintro ⟨hreport, -⟩
  cases arg with
  | text word => exact hisArg
  | int value => cases hreport
  | str string => cases hreport

/-- The decoder finds the parameters exactly if no string has another parameter behind it. -/
theorem returns_decodeParams_iff {args : List Lexeme} (hargs : ∀ arg ∈ args, arg.IsArg)
    {strings : Nat} (hstrings : strings < 256 ^ 4) (hfuel : 64 < fuel) (buffer : Vector UInt8 64)
    (hdrop : window.drop c = args.flatMap (·.token.record) ++
      (leBytes 4 strings ++ args.flatMap (·.token.long))) :
    (decodeParams fuel args.length c buffer).Returns 0 window (· = args.map Lexeme.report) ↔
      ∀ arg ∈ args.dropLast, arg.IsInt := by
  induction args generalizing c buffer with
  | nil => exact iff_of_true ((Reader.returns_done _ _).mpr rfl) (by simp)
  | cons arg args ih =>
      have hisArg := hargs arg List.mem_cons_self
      have hrest : ∀ arg ∈ args, arg.IsArg := fun arg hmem => hargs arg (List.mem_cons_of_mem _ hmem)
      rw [List.flatMap_cons, List.flatMap_cons, List.append_assoc] at hdrop
      cases arg with
      | text word => exact hisArg.elim
      | int value =>
          have hlast : (∀ arg ∈ (Lexeme.int value :: args).dropLast, arg.IsInt) ↔
              ∀ arg ∈ args.dropLast, arg.IsInt := by
            cases args with
            | nil => simp
            | cons next args =>
                rw [List.dropLast_cons_cons, List.forall_mem_cons]
                exact and_iff_right trivial
          have hrecord : (Lexeme.int value).token.record.length = 20 := Token.record_length rfl
          have hlong : (Lexeme.int value).token.long = [] := rfl
          have hnext := drop_length hdrop
          rw [hrecord, hlong, List.nil_append] at hnext
          rw [hlast, List.length_cons, List.map_cons, returns_decodeParams_int buffer hdrop]
          exact ih hrest buffer hnext
      | str string =>
          have hlong : (Lexeme.str string).token.long = leBytes 4 0 ++ (string ++ [0]) := by
            have hchars := arrayText_put hisArg.1 (hisArg.2.trans (by decide : 64 < maxStr))
            simp [Lexeme.token, Token.long, hchars]
          cases args with
          | nil =>
              rw [hlong, List.flatMap_nil, List.nil_append, List.flatMap_nil, List.append_nil]
                at hdrop
              refine iff_of_true ?_ (by simp)
              exact (returns_decodeParams_str buffer hisArg hstrings (by decide) hdrop hisArg.1
                hisArg.2 hfuel).mpr ⟨rfl, (Reader.returns_done _ _).mpr rfl⟩
          | cons next args =>
              refine iff_of_false (fun hreturns => ?_) fun hall => ?_
              · -- the two words are the first ones of the next record, whose third word is zero
                have hnext := hrest next List.mem_cons_self
                obtain ⟨type, number, size, hrecord, hnumber, hsize, htype⟩ := hnext.record_eq
                have htype' : type < 256 ^ 4 := by
                  cases next with
                  | text word => exact hnext.elim
                  | int value => rw [htype.1]; decide
                  | str string => rw [htype]; decide
                have hwords : leBytes 4 0 ++ leBytes 4 0 = [] ++ 0 :: (leBytes 4 0 ++ [0, 0, 0]) :=
                  rfl
                simp only [List.flatMap_cons, hrecord, List.append_assoc] at hdrop
                rw [← List.append_assoc (leBytes 4 0) (leBytes 4 0), hwords, List.append_assoc,
                  List.cons_append, List.append_assoc] at hdrop
                have hread := (returns_decodeParams_str buffer hisArg htype' hnumber hdrop
                  (List.not_mem_nil) (by decide) hfuel).mp hreturns
                have hbehind := drop_word (drop_word (drop_length hdrop))
                rw [Token.record_length rfl] at hbehind
                exact not_returns_decodeParams _ hnext (drop_succ hbehind) hread.2
              · exact hall _ (by rw [List.dropLast_cons_cons]; exact List.mem_cons_self)

end Params

/-! ## Packed commands -/

/-- A command that the packer accepts, with room for its strings in the decoder. -/
structure PackedCommand where
  name : List UInt8
  zero_notMem : 0 ∉ name
  name_length : name.length < 64
  args : List Lexeme
  isArg : ∀ arg ∈ args, arg.IsArg
  args_length : args.length < maxTok
  fits : (packedBytes name (args.map Lexeme.token)).length ≤ evprocSize

namespace PackedCommand

variable (cmd : PackedCommand)

/-- The tokens of the command. -/
def tokens : Tokens := ⟨tableOf (.text cmd.name :: cmd.args), cmd.args.length + 1⟩

/-- What should be printed about the command. -/
def dump : EvprocDump := ⟨cmd.name, cmd.args.length, cmd.args.map Lexeme.report⟩

theorem take_tokens : cmd.tokens.t.toList.take cmd.tokens.length =
    (Lexeme.text cmd.name).token :: cmd.args.map Lexeme.token :=
  take_tableOf (.text cmd.name :: cmd.args) cmd.args_length

theorem terminated : ∀ tok ∈ (Lexeme.text cmd.name).token :: cmd.args.map Lexeme.token,
    tok.Terminated := by
  have hsound : ∀ item ∈ Lexeme.text cmd.name :: cmd.args, item.Sound := by
    rw [List.forall_mem_cons]
    exact ⟨⟨cmd.zero_notMem, cmd.name_length.trans (by decide)⟩, fun arg hmem =>
      (cmd.isArg arg hmem).sound⟩
  intro tok hmem
  obtain ⟨item, hitem, rfl⟩ := List.mem_map.mp (List.map_cons ▸ hmem)
  exact (hsound item hitem).terminated

theorem countP_isArg : (cmd.args.map Lexeme.token).countP Token.isArg = cmd.args.length := by
  rw [← List.length_map Lexeme.token, List.countP_eq_length]
  intro tok hmem
  obtain ⟨arg, harg, rfl⟩ := List.mem_map.mp hmem
  have hisArg := cmd.isArg arg harg
  cases arg with
  | text word => exact hisArg.elim
  | int value => rfl
  | str string => rfl

end PackedCommand

/-- The decoder reads a packed command back exactly if no string has another argument behind it.
It stays inside the packed block. -/
theorem decodeEosEvproc_packed_iff (cmd : PackedCommand) {footer data : Buffer}
    (hfooter : footer.size = evprocSize) (hdata : data.size = evprocSize) {block : Buffer} {n : Nat}
    (hpack : packTokens cmd.tokens (footer.store 0 (leBytes 4 0)) (some data) =
      .ok (some (block, n))) {fuel : Nat} (hfuel : 64 < fuel) (buffer : Vector UInt8 64) :
    (decodeEosEvproc fuel buffer).Returns 0 (block.slice 0 n) (· = cmd.dump) ↔
      ∀ arg ∈ cmd.args.dropLast, arg.IsInt := by
  have hname : arrayText (Lexeme.text cmd.name).token.string = cmd.name :=
    arrayText_put cmd.zero_notMem (cmd.name_length.trans (by decide))
  obtain ⟨block', hpack', hbegins⟩ := packTokens_eq cmd.take_tokens rfl cmd.terminated hfooter
    hdata (by rw [hname]; exact cmd.fits)
  rw [hname] at hpack' hbegins
  obtain ⟨rfl, rfl⟩ := Prod.mk.inj (Option.some.inj (Except.ok.inj (hpack.symm.trans hpack')))
  have hargs : cmd.args.length < 256 ^ 4 := cmd.args_length.trans (by decide)
  have hcount := cmd.countP_isArg
  have hlen : (toInt32 cmd.args.length).toNat = cmd.args.length := by
    have hlimit : cmd.args.length < 10 := cmd.args_length
    have hfits : Fits (cmd.args.length : Int) := ⟨by omega, by omega⟩
    rw [toInt32_of_fits hfits, Int.toNat_natCast]
  rw [hbegins.2]
  set window := packedBytes cmd.name (cmd.args.map Lexeme.token) with hwindow
  have hdrop : window.drop 0 = cmd.name ++ 0 :: (leBytes 4 cmd.args.length ++
      (cmd.args.flatMap (·.token.record) ++
        (leBytes 4 ((cmd.args.map Lexeme.token).countP (·.type == .str)) ++
          cmd.args.flatMap (·.token.long)))) := by
    rw [hwindow, packedBytes, headBytes, footerBytes, hcount]
    simp [List.flatMap_map]
  have hlength := drop_succ (drop_length hdrop)
  have hparams := drop_word hlength
  have hfooter : (footerBytes (cmd.args.map Lexeme.token)).length ≤ evprocSize := by
    have hfits := cmd.fits
    rw [packedBytes_length] at hfits
    omega
  have hstrings := countP_str_lt hfooter
  have hstart : (0 : Int) = ((0 : Nat) : Int) := rfl
  rw [decodeEosEvproc, returns_readUtf8 hstart buffer hdrop cmd.zero_notMem cmd.name_length hfuel]
  dsimp only
  rw [returns_readU32 (c := 0 + cmd.name.length + 1) (by push_cast; ring) hargs hlength,
    cText_put buffer cmd.zero_notMem cmd.name_length, Reader.ofExcept, Reader.done_bind, hlen]
  have hloop := returns_decodeParams_iff cmd.isArg hstrings hfuel
    (Slots.put buffer 0 (cmd.name ++ [0])) hparams
  have hposition : ((cmd.name.length + 1 : Nat) : Int) + 4 =
      ((0 + cmd.name.length + 1 + 4 : Nat) : Int) := by
    push_cast
    ring
  rw [← hloop, hposition, Reader.returns_bind]
  refine Reader.returns_congr fun params => ?_
  rw [Reader.pure_eq, Reader.returns_done, PackedCommand.dump]
  simp

/-- A number and then a string. -/
def packedCommand : PackedCommand where
  name := [0x78]
  zero_notMem := by decide
  name_length := by decide
  args := [.int 7, .str [0x61]]
  isArg := by
    rintro arg hmem
    obtain rfl | rfl := List.mem_pair.mp hmem
    · trivial
    · exact ⟨by decide, by decide⟩
  args_length := by decide
  fits := by decide +kernel

/-- The block that a command is packed into. -/
theorem PackedCommand.packTokens_blank (cmd : PackedCommand) :
    ∃ block n, packTokens cmd.tokens (Buffer.store ⟨evprocSize, fun _ => 0⟩ 0 (leBytes 4 0))
        (some ⟨evprocSize, fun _ => 0⟩) = .ok (some (block, n)) ∧
      block.slice 0 n = packedBytes cmd.name (cmd.args.map Lexeme.token) := by
  have hname : arrayText (Lexeme.text cmd.name).token.string = cmd.name :=
    arrayText_put cmd.zero_notMem (cmd.name_length.trans (by decide))
  obtain ⟨block, hpack, hbegins⟩ := @packTokens_eq _ _ _ ⟨evprocSize, fun _ => 0⟩
    ⟨evprocSize, fun _ => 0⟩ cmd.take_tokens rfl cmd.terminated rfl rfl
    (by rw [hname]; exact cmd.fits)
  rw [hname] at hpack hbegins
  exact ⟨block, _, hpack, hbegins.2⟩

theorem decodeEosEvproc_packed_last :
    ∃ block n, packTokens packedCommand.tokens
        (Buffer.store ⟨evprocSize, fun _ => 0⟩ 0 (leBytes 4 0)) (some ⟨evprocSize, fun _ => 0⟩) =
          .ok (some (block, n)) ∧
      (decodeEosEvproc 65 (.replicate 64 1)).Returns 0 (block.slice 0 n)
        (· = packedCommand.dump) := by
  obtain ⟨block, n, hpack, -⟩ := packedCommand.packTokens_blank
  refine ⟨block, n, hpack, ?_⟩
  refine (decodeEosEvproc_packed_iff packedCommand rfl rfl hpack (by decide) _).mpr ?_
  intro arg hmem
  obtain rfl := List.mem_singleton.mp hmem
  trivial

/-- The string and then the number. -/
def stringFirst : PackedCommand where
  name := [0x78]
  zero_notMem := by decide
  name_length := by decide
  args := [.str [0x61], .int 7]
  isArg := by
    rintro arg hmem
    obtain rfl | rfl := List.mem_pair.mp hmem
    · exact ⟨by decide, by decide⟩
    · trivial
  args_length := by decide
  fits := by decide +kernel

/-- The decoder reports an empty string and an unknown type. -/
theorem decodeEosEvproc_stringFirst :
    ∃ block n, packTokens stringFirst.tokens
        (Buffer.store ⟨evprocSize, fun _ => 0⟩ 0 (leBytes 4 0)) (some ⟨evprocSize, fun _ => 0⟩) =
          .ok (some (block, n)) ∧
      (decodeEosEvproc 65 (.replicate 64 1)).view 0 (block.slice 0 n) =
        some (.ok ⟨[0x78], 2, [.str [], .unknown 0]⟩) ∧
      stringFirst.dump = ⟨[0x78], 2, [.str [0x61], .int 7 0 0]⟩ := by
  obtain ⟨block, n, hpack, hslice⟩ := stringFirst.packTokens_blank
  refine ⟨block, n, hpack, ?_, rfl⟩
  rw [hslice]
  decide +kernel

end Libpict
