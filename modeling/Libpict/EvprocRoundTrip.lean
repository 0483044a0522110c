import Libpict.Base.Json
import Libpict.EvprocLayout

/-! # Printed commands

A command that is printed as callers print it, with its arguments behind the name, is read back
by the lexer, but for the sign of a negative number.
-/

namespace Libpict

open Bytes CInt

/-! ## What callers print -/

/-- An argument: printed with `%d`, as `0x` and hexadecimal digits, or between quotes. -/
inductive EvprocArg
  | int (n : Int) (hfits : Fits n)
  | hex (digits : List UInt8) (hdigits : ∀ char ∈ digits, hex char = true) (hne : digits ≠ [])
      (hvalue : digitsNumber 16 0 digits < 4294967296)
  | str (string : List UInt8) (hquote : 0x27 ∉ string) (hzero : 0 ∉ string)
      (hlength : string.length < maxStr)

namespace EvprocArg

def printed : EvprocArg → List UInt8
  | int n _ => Json.signed n
  | hex digits _ _ _ => 0x30 :: 0x78 :: digits
  | str string _ _ _ => 0x27 :: string ++ [0x27]

/-- The token has the argument. -/
def Held : EvprocArg → Token → Prop
  | int n _, tok => tok.type = .int ∧ toUInt32 tok.integer = toUInt32 n
  | hex digits _ _ _, tok => tok.type = .int ∧ toUInt32 tok.integer = digitsNumber 16 0 digits
  | str string _ _ _, tok => tok.type = .str ∧ arrayText tok.string = string

/-- The arguments that the lexer recovers: numbers without a sign, and the one with a sign that is
its own negative; and the hexadecimal ones that an `int` can have, unless it wraps around. -/
def Kept (overflow : Overflow) : EvprocArg → Prop
  | int n _ => 0 ≤ n ∨ overflow = .wraps ∧ n = -2147483648
  | hex digits _ _ _ => overflow.Allows (digitsNumber 16 0 digits)
  | str _ _ _ _ => True

/-- What the lexer makes of an argument. -/
def lexeme : EvprocArg → Lexeme
  | int n _ => .int n.natAbs
  | hex digits _ _ _ => .int (digitsNumber 16 0 digits)
  | str string _ _ _ => .str string

def Allowed (overflow : Overflow) : EvprocArg → Prop
  | int n _ => overflow.Allows n.natAbs
  | hex digits _ _ _ => overflow.Allows (digitsNumber 16 0 digits)
  | str _ _ _ _ => True

/-- The arguments of a line, a blank in front of each. -/
def line (args : List EvprocArg) : List UInt8 := args.flatMap fun arg => 0x20 :: arg.printed

end EvprocArg

/-- A printed command. -/
structure PrintedCommand where
  name : List UInt8
  name_ne : name ≠ []
  name_alpha : ∀ char ∈ name, alpha char = true
  name_length : name.length < maxStr
  args : List EvprocArg
  args_length : args.length ≤ 9

/-- One TEXT token with the name, then one token per argument, in order. -/
def PrintedCommand.Recovered (cmd : PrintedCommand) (toks : Tokens) : Prop :=
  toks.length = cmd.args.length + 1 ∧
    ∃ first rest, toks.t.toList.take toks.length = first :: rest ∧ first.type = .text ∧
      arrayText first.string = cmd.name ∧ List.Forall₂ EvprocArg.Held cmd.args rest

/-! ## Lexemes in front of others -/

section Lines

variable {overflow : Overflow} {items : List Lexeme} {rest : List UInt8}

theorem command_of_scans_iff {char : UInt8} {tail taken : List UInt8} {item : Option Lexeme}
    {allowed : Prop} (hblank : blank char = false)
    (hscans : ∀ taken' rest' item', char :: tail = taken' ++ rest' ∧
      Scans overflow taken' rest' item' ↔
        taken' = taken ∧ rest' = rest ∧ item' = item ∧ allowed) :
    Command overflow (char :: tail) items ↔
      allowed ∧ ∃ items', items = item.toList ++ items' ∧ Command overflow rest items' := by
  rw [command_piece_iff hblank]
  constructor
  · rintro ⟨_, _, _, hscan, items', hitems, hcommand⟩
    obtain ⟨rfl, rfl, rfl, hallowed⟩ := (hscans _ _ _).mp hscan
    exact ⟨hallowed, items', hitems, hcommand⟩
  · rintro ⟨hallowed, items', hitems, hcommand⟩
    exact ⟨_, _, _, (hscans _ _ _).mpr ⟨rfl, rfl, rfl, hallowed⟩, items', hitems, hcommand⟩

theorem command_text_iff {name : List UInt8} (hne : name ≠ [])
    (hname : ∀ char ∈ name, alpha char = true) (hlength : name.length < maxStr)
    (hend : Apart alpha rest) : Command overflow (name ++ rest) items ↔
      ∃ items', items = .text name :: items' ∧ Command overflow rest items' := by
  obtain ⟨char, more, rfl⟩ := List.exists_cons_of_ne_nil hne
  have halpha := hname char List.mem_cons_self
  obtain ⟨htake, hdrop⟩ := takeWhile_of_apart hname hend
  have hscans := @scans_text_iff overflow char (more ++ rest)
  rw [← List.cons_append, htake, hdrop] at hscans
  refine (command_of_scans_iff (blank_eq_false_of_alpha halpha) fun _ _ _ =>
    hscans halpha).trans ?_
  rw [and_iff_right hlength]
  rfl

theorem command_hex_iff {digits : List UInt8} (hdigits : ∀ char ∈ digits, hex char = true)
    (hend : Apart hex rest) : Command overflow (0x30 :: 0x78 :: digits ++ rest) items ↔
      overflow.Allows (digitsNumber 16 0 digits) ∧
        ∃ items', items = .int (digitsNumber 16 0 digits) :: items' ∧
          Command overflow rest items' := by
  obtain ⟨htake, hdrop⟩ := takeWhile_of_apart hdigits hend
  have hscans := @scans_hex_iff overflow
  have hline := fun taken rest' item => @hscans taken rest' item (digits ++ rest)
  rw [htake, hdrop] at hline
  exact command_of_scans_iff rfl hline

theorem command_number_iff {digits : List UInt8} (hne : digits ≠ [])
    (hdigits : ∀ char ∈ digits, digit char = true) (hend : Apart digit rest)
    (hplain : rest.head? ≠ some 0x78) : Command overflow (digits ++ rest) items ↔
      overflow.Allows (digitsNumber 10 0 digits) ∧
        ∃ items', items = .int (digitsNumber 10 0 digits) :: items' ∧
          Command overflow rest items' := by
  obtain ⟨char, more, rfl⟩ := List.exists_cons_of_ne_nil hne
  have hdigit := hdigits char List.mem_cons_self
  have hnoHex : ¬(char = 0x30 ∧ (more ++ rest).head? = some 0x78) := by
    rintro ⟨-, hhead⟩
    cases more with
    | nil => exact hplain hhead
    | cons next more =>
        obtain rfl := Option.some.inj hhead
        cases hdigits _ (List.mem_cons_of_mem _ List.mem_cons_self)
  obtain ⟨htake, hdrop⟩ := takeWhile_of_apart hdigits hend
  have hscans := fun taken rest' item =>
    @scans_number_iff overflow char (more ++ rest) taken rest' item hdigit hnoHex
  rw [← List.cons_append, htake, hdrop] at hscans
  exact command_of_scans_iff (blank_eq_false_of_digit hdigit) hscans

theorem command_quoted_iff {string : List UInt8} (hquote : 0x27 ∉ string)
    (hlength : string.length < maxStr) :
    Command overflow (0x27 :: string ++ [0x27] ++ rest) items ↔
      ∃ items', items = .str string :: items' ∧ Command overflow rest items' := by
  have hstring : ∀ char ∈ string, (char != 0x27) = true := fun char hchar =>
    bne_iff_ne.mpr (ne_of_mem_of_not_mem hchar hquote)
  obtain ⟨htake, hdrop⟩ := takeWhile_of_apart hstring (apart_cons.mpr rfl : Apart _ (0x27 :: rest))
  have hscans := fun taken rest' item =>
    @scans_quoted_iff overflow (string ++ 0x27 :: rest) taken rest' item
  simp only [htake, hdrop, List.cons.injEq, true_and] at hscans
  have hline : 0x27 :: string ++ [0x27] ++ rest = 0x27 :: (string ++ 0x27 :: rest) := by simp
  rw [hline, command_of_scans_iff rfl fun taken rest' item => by
    rw [hscans, eq_comm (a := rest)], and_iff_right hlength]
  rfl

theorem command_unknown_iff {char : UInt8} (hblank : blank char = false)
    (halpha : alpha char = false) (hdigit : digit char = false) (hquote : char ≠ 0x27) :
    Command overflow (char :: rest) items ↔ Command overflow rest items := by
  have hscans := fun taken rest' item =>
    @scans_unknown_iff overflow char rest taken rest' item hblank halpha hdigit hquote
  have hscans' := fun taken rest' item => (hscans taken rest' item).trans
    (by rw [and_true] : _ ↔ taken = [char] ∧ rest' = rest ∧ item = none ∧ True)
  rw [command_of_scans_iff hblank hscans', true_and]
  constructor
  · rintro ⟨items', rfl, hcommand⟩
    exact hcommand
  · exact fun hcommand => ⟨items, rfl, hcommand⟩

end Lines

/-! ## Decimal numbers -/

theorem digit_of_lt {n : Nat} (hlt : n < 10) :
    digit (UInt8.ofNat (0x30 + n)) = true ∧ digitValue (UInt8.ofNat (0x30 + n)) = n := by
  interval_cases n <;> decide

theorem digitsNumber_reverse (digits : List Nat) (hdigits : ∀ n ∈ digits, n < 10) :
    digitsNumber 10 0 (digits.reverse.map fun n => UInt8.ofNat (0x30 + n)) =
      Nat.ofDigits 10 digits := by
  induction digits with
  | nil => rfl
  | cons n digits ih =>
      have hvalue := (digit_of_lt (hdigits n List.mem_cons_self)).2
      have hrest := ih fun n hmem => hdigits n (List.mem_cons_of_mem _ hmem)
      rw [digitsNumber] at hrest ⊢
      rw [List.reverse_cons, List.map_append, List.foldl_append, hrest, List.map_singleton,
        List.foldl_cons, List.foldl_nil, hvalue, Nat.ofDigits_cons]
      ring

/-- The decimal digits of a number are digits, and those of the number. -/
theorem decimal_digits (n : Nat) : Json.decimal n ≠ [] ∧
    (∀ char ∈ Json.decimal n, digit char = true) ∧ digitsNumber 10 0 (Json.decimal n) = n := by
  unfold Json.decimal
  split
  next hzero =>
    subst hzero
    exact ⟨by decide, List.all_eq_true.mp rfl, by decide⟩
  next hne =>
    have hdigits : ∀ k ∈ Nat.digits 10 n, k < 10 := fun k hk => Nat.digits_lt_base (by decide) hk
    refine ⟨?_, ?_, ?_⟩
    · simpa [Nat.digits_eq_nil_iff_eq_zero] using hne
    · intro char hchar
      obtain ⟨k, hk, rfl⟩ := List.mem_map.mp hchar
      exact (digit_of_lt (hdigits k (List.mem_reverse.mp hk))).1
    · rw [digitsNumber_reverse _ hdigits, Nat.ofDigits_digits]

/-! ## The lines that callers print -/

section Printed

variable {overflow : Overflow}

/-- Behind an argument there is a blank or the end of the line. -/
theorem line_head (args : List EvprocArg) :
    EvprocArg.line args = [] ∨ ∃ rest, EvprocArg.line args = 0x20 :: rest := by
  cases args with
  | nil => exact .inl rfl
  | cons arg args => exact .inr ⟨_, rfl⟩

theorem apart_line {is : UInt8 → Bool} (his : is 0x20 = false) (args : List EvprocArg) :
    Apart is (EvprocArg.line args) := by
  rcases line_head args with hnil | ⟨rest, hline⟩
  · rw [hnil]
    exact Apart.nil is
  · rw [hline]
    exact apart_cons.mpr his

theorem line_head_ne (args : List EvprocArg) : (EvprocArg.line args).head? ≠ some 0x78 := by
  rcases line_head args with hnil | ⟨rest, hline⟩
  · rw [hnil]
    decide
  · rw [hline]
    exact fun h => absurd (Option.some.inj h) (by decide)

/-- A printed argument in front of others. -/
theorem command_printed_iff (arg : EvprocArg) (args : List EvprocArg) {items : List Lexeme} :
    Command overflow (arg.printed ++ EvprocArg.line args) items ↔ arg.Allowed overflow ∧
      ∃ items', items = arg.lexeme :: items' ∧ Command overflow (EvprocArg.line args) items' := by
  cases arg with
  | int n hfits =>
      obtain ⟨hne, hdigits, hnumber⟩ := decimal_digits n.natAbs
      have hdecimal := @command_number_iff overflow items (EvprocArg.line args) _ hne hdigits
        (apart_line rfl args) (line_head_ne args)
      rw [hnumber] at hdecimal
      rw [EvprocArg.printed, Json.signed]
      split
      next => exact (command_unknown_iff rfl rfl rfl (by decide)).trans hdecimal
      next => exact hdecimal
  | hex digits hdigits hne hvalue => exact command_hex_iff hdigits (apart_line rfl args)
  | str string hquote hzero hlength =>
      exact (command_quoted_iff hquote hlength).trans (and_iff_right trivial).symm

theorem command_line_iff (args : List EvprocArg) {items : List Lexeme} :
    Command overflow (EvprocArg.line args) items ↔
      items = args.map EvprocArg.lexeme ∧ ∀ arg ∈ args, arg.Allowed overflow := by
  induction args generalizing items with
  | nil => exact command_nil_iff.trans (and_iff_left (by simp)).symm
  | cons arg args ih =>
      have hne : arg.printed ++ EvprocArg.line args ≠ [] := by
        intro hnil
        have hprinted := (List.append_eq_nil_iff.mp hnil).1
        cases arg with
        | int n hfits =>
            rw [EvprocArg.printed, Json.signed] at hprinted
            split at hprinted
            next => cases hprinted
            next => exact (decimal_digits _).1 hprinted
        | hex digits hdigits hne hvalue => cases hprinted
        | str string hquote hzero hlength => cases hprinted
      have hline : EvprocArg.line (arg :: args) = 0x20 :: (arg.printed ++ EvprocArg.line args) := rfl
      rw [hline, command_blank_iff rfl, and_iff_right hne, command_printed_iff, List.forall_mem_cons]
      constructor
      · rintro ⟨hallowed, items', rfl, hcommand⟩
        obtain ⟨rfl, hrest⟩ := ih.mp hcommand
        exact ⟨rfl, hallowed, hrest⟩
      · rintro ⟨rfl, hallowed, hrest⟩
        exact ⟨hallowed, _, rfl, ih.mpr ⟨rfl, hrest⟩⟩

/-- The lexer keeps what it allows and does not change. -/
theorem EvprocArg.regained_iff (arg : EvprocArg) :
    arg.Kept overflow ↔ arg.Allowed overflow ∧ arg.Held arg.lexeme.token := by
  cases arg with
  | int n hfits =>
      have hheld : (EvprocArg.int n hfits).Held (EvprocArg.int n hfits).lexeme.token ↔
          0 ≤ n ∨ n = -2147483648 := by
        have hreduce : toUInt32 (toInt32 n.natAbs) = toUInt32 n ↔ 0 ≤ n ∨ n = -2147483648 := by
          unfold Fits at hfits
          unfold toUInt32 toInt32
          omega
        exact (and_iff_right rfl).trans hreduce
      rw [hheld, EvprocArg.Kept, EvprocArg.Allowed, Overflow.Allows]
      unfold Fits at hfits
      unfold intMax
      constructor
      · rintro (hle | ⟨hwraps, hn⟩)
        · exact ⟨.inr (by omega), .inl hle⟩
        · exact ⟨.inl hwraps, .inr hn⟩
      · rintro ⟨hwraps | hsmall, hle | hn⟩
        · exact .inl hle
        · exact .inr ⟨hwraps, hn⟩
        · exact .inl hle
        · omega
  | hex digits hdigits hne hvalue =>
      have hheld : toUInt32 (toInt32 (digitsNumber 16 0 digits)) = digitsNumber 16 0 digits :=
        toUInt32_toInt32 hvalue
      exact (and_iff_left ⟨rfl, hheld⟩).symm
  | str string hquote hzero hlength =>
      exact iff_of_true trivial ⟨trivial, rfl, arrayText_put hzero hlength⟩

theorem EvprocArg.zero_notMem_printed (arg : EvprocArg) : 0 ∉ arg.printed := by
  have hdecimal : ∀ n, (0 : UInt8) ∉ Json.decimal n := fun n hmem =>
    absurd ((decimal_digits n).2.1 0 hmem) (by decide)
  cases arg with
  | int n hfits =>
      rw [EvprocArg.printed, Json.signed]
      split
      next =>
        rw [List.mem_cons, not_or]
        exact ⟨by decide, hdecimal _⟩
      next => exact hdecimal _
  | hex digits hdigits hne hvalue =>
      intro hmem
      have hdigit : (0 : UInt8) ∈ digits := by simpa [EvprocArg.printed] using hmem
      cases hdigits 0 hdigit
  | str string hquote hzero hlength => simpa [EvprocArg.printed] using hzero

namespace PrintedCommand

variable (cmd : PrintedCommand)

theorem zero_notMem_chars : 0 ∉ cmd.name ++ EvprocArg.line cmd.args := by
  rw [List.mem_append, not_or]
  constructor
  · exact fun hmem => absurd (cmd.name_alpha 0 hmem) (by decide)
  · intro hmem
    obtain ⟨arg, -, harg⟩ := List.mem_flatMap.mp hmem
    rcases List.mem_cons.mp harg with hblank | hprinted
    · cases hblank
    · exact arg.zero_notMem_printed hprinted

/-- The printed line. -/
def line : CString := ⟨cmd.name ++ EvprocArg.line cmd.args, cmd.zero_notMem_chars⟩

/-- The lexemes of the printed line. -/
theorem command_iff {items : List Lexeme} : Command overflow cmd.line.chars items ↔
    items = .text cmd.name :: cmd.args.map EvprocArg.lexeme ∧
      ∀ arg ∈ cmd.args, arg.Allowed overflow := by
  refine (command_text_iff cmd.name_ne cmd.name_alpha cmd.name_length
    (apart_line rfl cmd.args)).trans ?_
  constructor
  · rintro ⟨items', rfl, hcommand⟩
    obtain ⟨rfl, hallowed⟩ := (command_line_iff cmd.args).mp hcommand
    exact ⟨rfl, hallowed⟩
  · rintro ⟨rfl, hallowed⟩
    exact ⟨_, rfl, (command_line_iff cmd.args).mpr ⟨rfl, hallowed⟩⟩

/-- The table of the lexemes has the arguments that the lexer does not change. -/
theorem recovered_iff : cmd.Recovered
      ⟨tableOf (.text cmd.name :: cmd.args.map EvprocArg.lexeme), cmd.args.length + 1⟩ ↔
    ∀ arg ∈ cmd.args, arg.Held arg.lexeme.token := by
  have hlength : (.text cmd.name :: cmd.args.map EvprocArg.lexeme : List Lexeme).length =
      cmd.args.length + 1 := by rw [List.length_cons, List.length_map]
  have hargs := cmd.args_length
  have htake := take_tableOf (.text cmd.name :: cmd.args.map EvprocArg.lexeme)
    (by rw [hlength]; exact Nat.succ_le_succ hargs)
  have hzero : 0 ∉ cmd.name := fun hmem => absurd (cmd.name_alpha 0 hmem) (by decide)
  rw [hlength, List.map_cons, List.map_map] at htake
  rw [Recovered, htake, and_iff_right rfl]
  have hforall : List.Forall₂ EvprocArg.Held cmd.args
      (cmd.args.map (Lexeme.token ∘ EvprocArg.lexeme)) ↔
        ∀ arg ∈ cmd.args, arg.Held arg.lexeme.token := by
    rw [List.forall₂_map_right_iff, List.forall₂_same]
    rfl
  rw [← hforall]
  constructor
  · rintro ⟨first, rest, htokens, -, -, hheld⟩
    obtain ⟨-, rfl⟩ := List.cons.inj htokens
    exact hheld
  · exact fun hheld => ⟨_, _, rfl, rfl, arrayText_put hzero cmd.name_length, hheld⟩

end PrintedCommand

/-- The lexer recovers the arguments of a printed command exactly if it keeps each of them. -/
theorem lexEvprocCommand_printed_iff {memory : Allocator} {allocations fuel : Nat}
    (cmd : PrintedCommand) (hfuel : cmd.line.chars.length < fuel) :
    (lexEvprocCommand overflow memory allocations fuel).Returns 0 cmd.line.bytes
        (fun toks => ∃ tokens, toks = some tokens ∧ cmd.Recovered tokens) ↔
      (memory allocations tokensSize).isSome ∧ ∀ arg ∈ cmd.args, arg.Kept overflow := by
  by_cases htokens : (memory allocations tokensSize).isSome = true
  · rw [returns_lexEvprocCommand htokens cmd.line hfuel, and_iff_right htokens]
    have hcount := cmd.args_length
    have hlength : ([] ++ (.text cmd.name :: cmd.args.map EvprocArg.lexeme) : List Lexeme).length =
        cmd.args.length + 1 := by simp
    constructor
    · rintro ⟨items, hcommand, -, tokens, htoken, hrecovered⟩ arg harg
      obtain ⟨rfl, hallowed⟩ := cmd.command_iff.mp hcommand
      rw [hlength] at htoken
      obtain rfl := Option.some.inj htoken
      exact arg.regained_iff.mpr ⟨hallowed arg harg, cmd.recovered_iff.mp hrecovered arg harg⟩
    · intro hkept
      refine ⟨_, cmd.command_iff.mpr ⟨rfl, fun arg harg => (arg.regained_iff.mp (hkept arg harg)).1⟩,
        ?_, ⟨_, cmd.args.length + 1⟩, ?_, cmd.recovered_iff.mpr fun arg harg =>
          (arg.regained_iff.mp (hkept arg harg)).2⟩
      · rw [hlength]
        exact Nat.succ_le_succ hcount
      · rw [hlength]
        rfl
  · have hmalloc : memory.malloc allocations tokensSize = none := by
      rwa [← malloc_isSome, Option.not_isSome_iff_eq_none] at htokens
    refine iff_of_false (fun h => ?_) fun h => htokens h.1
    rw [lexEvprocCommand, hmalloc] at h
    exact (Reader.returns_stop _ _).mp h

/-- A command with a number of each kind and a string. -/
def printedCommand (n : Int) (hfits : Fits n) : PrintedCommand where
  name := [0x46, 0x41]
  name_ne := by decide
  name_alpha := List.all_eq_true.mp rfl
  name_length := by decide
  args := [.int n hfits, .hex [0x31, 0x46] (List.all_eq_true.mp rfl) (by decide) (by decide),
    .str [0x68, 0x69] (by decide) (by decide) (by decide)]
  args_length := by simp

theorem lexEvprocCommand_printed_five :
    (lexEvprocCommand .undefined zeroedMemory 0 20).Returns 0
      (printedCommand 5 (by decide)).line.bytes
      (fun toks => ∃ tokens, toks = some tokens ∧
        (printedCommand 5 (by decide)).Recovered tokens) := by
  refine (lexEvprocCommand_printed_iff _ (by decide)).mpr ⟨rfl, ?_⟩
  intro arg harg
  simp only [printedCommand, List.mem_cons, List.not_mem_nil, or_false] at harg
  obtain rfl | rfl | rfl := harg
  · exact .inl (by decide)
  · exact .inr (by decide)
  · trivial

/-- The sign of a number is lost. -/
theorem lexEvprocCommand_printed_negative :
    ∃ tokens, (lexEvprocCommand .wraps zeroedMemory 0 20).view 0
        (printedCommand (-5) (by decide)).line.bytes = some (.ok (some tokens)) ∧
      tokens.t[1].type = .int ∧ toUInt32 tokens.t[1].integer = 5 ∧
      ¬(EvprocArg.int (-5) (by decide)).Held tokens.t[1] := by
  have hreturns : (lexEvprocCommand .wraps zeroedMemory 0 20).Returns 0
      (printedCommand (-5) (by decide)).line.bytes (fun toks => toks =
        some ⟨tableOf [.text [0x46, 0x41], .int 5, .int 0x1F, .str [0x68, 0x69]], 4⟩) := by
    refine (returns_lexEvprocCommand rfl _ (by decide) _).mpr
      ⟨_, (PrintedCommand.command_iff _).mpr ⟨rfl, fun arg harg => ?_⟩, by decide, rfl⟩
    simp only [printedCommand, List.mem_cons, List.not_mem_nil, or_false] at harg
    obtain rfl | rfl | rfl := harg
    · exact .inl rfl
    · exact .inl rfl
    · trivial
  obtain ⟨toks, hview, rfl⟩ := hreturns
  refine ⟨_, hview, rfl, rfl, ?_⟩
  rintro ⟨-, hvalue⟩
  revert hvalue
  decide

end Printed

end Libpict
