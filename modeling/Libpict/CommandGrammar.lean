import Mathlib.Data.List.TakeWhile
import Libpict.EvprocCommand
import Libpict.StringLaws

/-! # The grammar of commands

A line is a sequence of words, numbers, quoted strings and other characters, with blanks between
them and none at its end. The lexer comes to its end on the lines of the grammar and on no other,
and its table holds the lexemes.
-/

namespace Libpict

open CInt

/-! ## Lexemes -/

inductive Lexeme
  | text (word : List UInt8)
  | int (value : Nat)
  | str (string : List UInt8)
  deriving DecidableEq, Repr

/-- The entry of a lexeme. -/
def Lexeme.token : Lexeme → Token
  | text word => { Token.zero with
      type := .text, string := Slots.put Token.zero.string 0 (word ++ [0]) }
  | int value => { Token.zero with type := .int, integer := toInt32 value }
  | str string => { Token.zero with
      type := .str, string := Slots.put Token.zero.string 0 (string ++ [0]) }

/-- The table of some lexemes. -/
def tableOf (items : List Lexeme) : Vector Token maxTok :=
  Slots.put (.replicate maxTok .zero) 0 (items.map Lexeme.token)

/-- A number that the digits of a lexeme may have. -/
def Overflow.Allows (overflow : Overflow) (value : Nat) : Prop :=
  overflow = .wraps ∨ (value : Int) ≤ intMax

instance (overflow : Overflow) (value : Nat) : Decidable (overflow.Allows value) :=
  inferInstanceAs (Decidable (_ ∨ _))

/-- The number of some digits behind the number `n`. -/
def digitsNumber (base n : Nat) (digits : List UInt8) : Nat :=
  digits.foldl (fun n digit => n * base + digitValue digit) n

/-- The class of characters ends in front of the text. -/
def Apart (is : UInt8 → Bool) (text : List UInt8) : Prop := ∀ char ∈ text.head?, is char = false

/-- The lexeme at the beginning of a text, if it is one: what is taken, and what is left. -/
inductive Scans (overflow : Overflow) : (taken rest : List UInt8) → Option Lexeme → Prop
  | text {taken rest : List UInt8} (hne : taken ≠ []) (hword : ∀ char ∈ taken, alpha char = true)
      (hend : Apart alpha rest) (hlength : taken.length < maxStr) :
      Scans overflow taken rest (some (.text taken))
  | hex {digits rest : List UInt8} (hdigits : ∀ char ∈ digits, hex char = true)
      (hend : Apart hex rest) (hvalue : overflow.Allows (digitsNumber 16 0 digits)) :
      Scans overflow (0x30 :: 0x78 :: digits) rest (some (.int (digitsNumber 16 0 digits)))
  | number {digits rest : List UInt8} (hne : digits ≠ [])
      (hdigits : ∀ char ∈ digits, digit char = true) (hend : Apart digit rest)
      (hplain : ¬(digits = [0x30] ∧ rest.head? = some 0x78))
      (hvalue : overflow.Allows (digitsNumber 10 0 digits)) :
      Scans overflow digits rest (some (.int (digitsNumber 10 0 digits)))
  | quoted {string rest : List UInt8} (hquote : 0x27 ∉ string) (hlength : string.length < maxStr) :
      Scans overflow (0x27 :: string ++ [0x27]) rest (some (.str string))
  | unknown {char : UInt8} {rest : List UInt8} (hblank : blank char = false)
      (halpha : alpha char = false) (hdigit : digit char = false) (hquote : char ≠ 0x27) :
      Scans overflow [char] rest none

/-- The lines of the grammar, with their lexemes. -/
inductive Command (overflow : Overflow) : List UInt8 → List Lexeme → Prop
  | nil : Command overflow [] []
  | blank {char : UInt8} {rest : List UInt8} {items : List Lexeme} (hblank : blank char = true)
      (hne : rest ≠ []) (hrest : Command overflow rest items) :
      Command overflow (char :: rest) items
  | piece {line taken rest : List UInt8} {item : Option Lexeme} {items : List Lexeme}
      (hline : line = taken ++ rest) (hscan : Scans overflow taken rest item)
      (hrest : Command overflow rest items) : Command overflow line (item.toList ++ items)

/-! ## Splitting a text -/

theorem Apart.nil (is : UInt8 → Bool) : Apart is [] := by
  rintro char ⟨⟩

theorem apart_cons {is : UInt8 → Bool} {char : UInt8} {rest : List UInt8} :
    Apart is (char :: rest) ↔ is char = false := by
  simp [Apart]

/-- A class of characters is taken in one way. -/
theorem takeWhile_of_apart {is : UInt8 → Bool} {front back : List UInt8}
    (hfront : ∀ char ∈ front, is char = true) (hend : Apart is back) :
    (front ++ back).takeWhile is = front ∧ (front ++ back).dropWhile is = back := by
  rw [List.takeWhile_append_of_pos hfront, List.dropWhile_append_of_pos hfront]
  cases back with
  | nil => simp
  | cons char back =>
      have hchar := apart_cons.mp hend
      simp [hchar]

theorem apart_dropWhile (is : UInt8 → Bool) (text : List UInt8) : Apart is (text.dropWhile is) := by
  intro char hchar
  have hne : text.dropWhile is ≠ [] := by
    intro hnil
    rw [hnil] at hchar
    cases hchar
  have hhead := List.head_dropWhile_not is hne
  rw [Option.mem_def, List.head?_eq_some_head hne] at hchar
  rwa [Option.some.inj hchar] at hhead

/-! ## Numbers -/

theorem le_digitsNumber {base : Nat} (hbase : 0 < base) (n : Nat) (digits : List UInt8) :
    n ≤ digitsNumber base n digits := by
  induction digits generalizing n with
  | nil => exact Nat.le_refl n
  | cons digit digits ih =>
      have hmul := Nat.le_mul_of_pos_right n hbase
      exact (hmul.trans (Nat.le_add_right _ _)).trans (ih _)

namespace Overflow

variable {overflow : Overflow} {n m : Nat}

/-- A compiler that allows a number allows the smaller ones. -/
theorem Allows.mono (hallows : overflow.Allows m) (hle : n ≤ m) : overflow.Allows n := by
  rcases hallows with hwraps | hfits
  · exact .inl hwraps
  · right
    omega

theorem Allows.toInt32_eq (hallows : Overflow.undefined.Allows n) : toInt32 n = n := by
  have hle := hallows.resolve_left (by decide)
  unfold intMax at hle
  exact toInt32_of_fits ⟨by omega, hle⟩

/-- A result that stands for a number. -/
theorem returns_result {window : List UInt8} {γ : Type} {post : γ → Prop} {x : Int}
    (hx : toInt32 x = toInt32 n) (hexact : overflow = .undefined → x = n)
    (f : Int → Reader UInt8 Halt γ) :
    (overflow.result x >>= f).Returns 0 window post ↔
      overflow.Allows n ∧ (f (toInt32 n)).Returns 0 window post := by
  cases overflow with
  | undefined =>
      obtain rfl := hexact rfl
      have hallows : Overflow.undefined.Allows n ↔ Fits (n : Int) := by
        unfold Allows Fits intMax
        constructor
        · intro h
          have hle := h.resolve_left (by decide)
          exact ⟨by omega, hle⟩
        · exact fun h => .inr h.2
      rw [hallows, result]
      by_cases hfits : Fits (n : Int)
      · rw [if_pos hfits, and_iff_right hfits, toInt32_of_fits hfits]
        rfl
      · rw [if_neg hfits]
        exact iff_of_false (Reader.returns_stop _ _).mp fun h => hfits h.1
  | wraps =>
      have hresult : Overflow.wraps.result x = .done (toInt32 n) := by
        rw [result, ← hx]
        split
        next hfits => rw [toInt32_of_fits hfits]; rfl
        next => rfl
      rw [hresult, Reader.done_bind]
      exact (and_iff_right (.inl rfl)).symm

end Overflow

/-! ## Characters that start a lexeme -/

theorem alpha_eq_false_of_digit {char : UInt8} (hdigit : digit char = true) :
    alpha char = false := by
  simp only [digit, alpha, Bool.and_eq_true, decide_eq_true_eq, UInt8.le_iff_toNat_le,
    Bool.or_eq_false_iff, Bool.and_eq_false_iff, decide_eq_false_iff_not, beq_eq_false_iff_ne, ne_eq,
    ← UInt8.toNat_inj] at *
  have hvalues : (0x30 : UInt8).toNat = 48 ∧ (0x39 : UInt8).toNat = 57 ∧
      (0x41 : UInt8).toNat = 65 ∧ (0x5A : UInt8).toNat = 90 ∧ (0x5F : UInt8).toNat = 95 ∧
      (0x61 : UInt8).toNat = 97 ∧ (0x7A : UInt8).toNat = 122 := by decide
  omega

section Starts

variable {overflow : Overflow} {char : UInt8} {tail taken rest : List UInt8} {item : Option Lexeme}

/-- A lexeme that starts with a letter is a word. -/
theorem scans_text_iff (halpha : alpha char = true) :
    char :: tail = taken ++ rest ∧ Scans overflow taken rest item ↔
      taken = (char :: tail).takeWhile alpha ∧ rest = (char :: tail).dropWhile alpha ∧
        item = some (.text ((char :: tail).takeWhile alpha)) ∧
        ((char :: tail).takeWhile alpha).length < maxStr := by
  constructor
  · rintro ⟨hline, hscan⟩
    cases hscan with
    | text hne hword hend hlength =>
        obtain ⟨htaken, hrest⟩ := takeWhile_of_apart hword hend
        rw [hline, htaken, hrest]
        exact ⟨rfl, rfl, rfl, hlength⟩
    | hex hdigits hend hvalue =>
        obtain ⟨rfl, -⟩ := List.cons.inj hline
        cases halpha
    | number hne hdigits hend hplain hvalue =>
        obtain ⟨first, digits, rfl⟩ := List.exists_cons_of_ne_nil hne
        obtain ⟨rfl, -⟩ := List.cons.inj hline
        rw [alpha_eq_false_of_digit (hdigits _ List.mem_cons_self)] at halpha
        cases halpha
    | quoted hquote hlength =>
        obtain ⟨rfl, -⟩ := List.cons.inj hline
        cases halpha
    | unknown hblank halpha' hdigit hquote =>
        obtain ⟨rfl, -⟩ := List.cons.inj hline
        rw [halpha'] at halpha
        cases halpha
  · rintro ⟨rfl, rfl, rfl, hlength⟩
    refine ⟨List.takeWhile_append_dropWhile.symm, .text ?_ ?_ (apart_dropWhile _ _) hlength⟩
    · rw [List.takeWhile_cons_of_pos halpha]
      exact List.cons_ne_nil _ _
    · exact fun char hchar => List.mem_takeWhile_imp hchar

/-- A lexeme that starts with `0x` is a number. -/
theorem scans_hex_iff {digits : List UInt8} :
    0x30 :: 0x78 :: digits = taken ++ rest ∧ Scans overflow taken rest item ↔
      taken = 0x30 :: 0x78 :: digits.takeWhile hex ∧ rest = digits.dropWhile hex ∧
        item = some (.int (digitsNumber 16 0 (digits.takeWhile hex))) ∧
        overflow.Allows (digitsNumber 16 0 (digits.takeWhile hex)) := by
  constructor
  · rintro ⟨hline, hscan⟩
    cases hscan with
    | text hne hword hend hlength =>
        obtain ⟨first, word, rfl⟩ := List.exists_cons_of_ne_nil hne
        obtain ⟨rfl, -⟩ := List.cons.inj hline
        cases hword _ List.mem_cons_self
    | hex hdigits hend hvalue =>
        obtain ⟨-, hline⟩ := List.cons.inj hline
        obtain ⟨-, rfl⟩ := List.cons.inj hline
        obtain ⟨htaken, hrest⟩ := takeWhile_of_apart hdigits hend
        rw [List.append_eq, htaken, hrest]
        exact ⟨rfl, rfl, rfl, hvalue⟩
    | number hne hdigits hend hplain hvalue =>
        obtain ⟨first, more, rfl⟩ := List.exists_cons_of_ne_nil hne
        obtain ⟨rfl, hmore⟩ := List.cons.inj hline
        cases more with
        | nil =>
            have hrest : 0x78 :: digits = rest := hmore
            exact absurd ⟨rfl, by rw [← hrest]; rfl⟩ hplain
        | cons second more =>
            obtain ⟨rfl, -⟩ := List.cons.inj hmore
            cases hdigits _ (List.mem_cons_of_mem _ List.mem_cons_self)
    | quoted hquote hlength =>
        obtain ⟨hchar, -⟩ := List.cons.inj hline
        cases hchar
    | unknown hblank halpha hdigit hquote =>
        obtain ⟨rfl, -⟩ := List.cons.inj hline
        cases hdigit
  · rintro ⟨rfl, rfl, rfl, hvalue⟩
    refine ⟨?_, .hex (fun char hchar => List.mem_takeWhile_imp hchar) (apart_dropWhile _ _) hvalue⟩
    rw [List.cons_append, List.cons_append, List.takeWhile_append_dropWhile]

/-- A lexeme that starts with a digit, not with `0x`, is a number. -/
theorem scans_number_iff (hdigit : digit char = true)
    (hplain : ¬(char = 0x30 ∧ tail.head? = some 0x78)) :
    char :: tail = taken ++ rest ∧ Scans overflow taken rest item ↔
      taken = (char :: tail).takeWhile digit ∧ rest = (char :: tail).dropWhile digit ∧
        item = some (.int (digitsNumber 10 0 ((char :: tail).takeWhile digit))) ∧
        overflow.Allows (digitsNumber 10 0 ((char :: tail).takeWhile digit)) := by
  constructor
  · rintro ⟨hline, hscan⟩
    cases hscan with
    | text hne hword hend hlength =>
        obtain ⟨first, word, rfl⟩ := List.exists_cons_of_ne_nil hne
        obtain ⟨rfl, -⟩ := List.cons.inj hline
        have halpha := hword _ List.mem_cons_self
        rw [alpha_eq_false_of_digit hdigit] at halpha
        cases halpha
    | hex hdigits hend hvalue =>
        obtain ⟨rfl, rfl⟩ := List.cons.inj hline
        exact absurd ⟨rfl, rfl⟩ hplain
    | number hne hdigits hend hplain' hvalue =>
        obtain ⟨htaken, hrest⟩ := takeWhile_of_apart hdigits hend
        rw [hline, htaken, hrest]
        exact ⟨rfl, rfl, rfl, hvalue⟩
    | quoted hquote hlength =>
        obtain ⟨rfl, -⟩ := List.cons.inj hline
        cases hdigit
    | unknown hblank halpha hdigit' hquote =>
        obtain ⟨rfl, -⟩ := List.cons.inj hline
        rw [hdigit'] at hdigit
        cases hdigit
  · rintro ⟨rfl, rfl, rfl, hvalue⟩
    refine ⟨List.takeWhile_append_dropWhile.symm, .number ?_
      (fun char hchar => List.mem_takeWhile_imp hchar) (apart_dropWhile _ _) ?_ hvalue⟩
    · rw [List.takeWhile_cons_of_pos hdigit]
      exact List.cons_ne_nil _ _
    · rw [List.takeWhile_cons_of_pos hdigit, List.dropWhile_cons_of_pos hdigit]
      rintro ⟨hdigits, hhead⟩
      obtain ⟨rfl, htail⟩ := List.cons.inj hdigits
      refine hplain ⟨rfl, ?_⟩
      rw [← List.takeWhile_append_dropWhile (p := digit) (l := tail), htail]
      exact hhead

/-- A lexeme that starts with a quote is a string. -/
theorem scans_quoted_iff :
    0x27 :: tail = taken ++ rest ∧ Scans overflow taken rest item ↔
      taken = 0x27 :: tail.takeWhile (· != 0x27) ++ [0x27] ∧
        tail.dropWhile (· != 0x27) = 0x27 :: rest ∧
        item = some (.str (tail.takeWhile (· != 0x27))) ∧
        (tail.takeWhile (· != 0x27)).length < maxStr := by
  constructor
  · rintro ⟨hline, hscan⟩
    cases hscan with
    | text hne hword hend hlength =>
        obtain ⟨first, word, rfl⟩ := List.exists_cons_of_ne_nil hne
        obtain ⟨rfl, -⟩ := List.cons.inj hline
        cases hword _ List.mem_cons_self
    | hex hdigits hend hvalue =>
        obtain ⟨hchar, -⟩ := List.cons.inj hline
        cases hchar
    | number hne hdigits hend hplain hvalue =>
        obtain ⟨first, digits, rfl⟩ := List.exists_cons_of_ne_nil hne
        obtain ⟨rfl, -⟩ := List.cons.inj hline
        cases hdigits _ List.mem_cons_self
    | @quoted string rest hquote hlength =>
        obtain ⟨-, htail⟩ := List.cons.inj hline
        have htail' : tail = string ++ 0x27 :: rest := by
          rw [htail]
          simp
        have hstring : ∀ char ∈ string, (char != 0x27) = true := fun char hchar =>
          bne_iff_ne.mpr (ne_of_mem_of_not_mem hchar hquote)
        have hend : Apart (· != 0x27) (0x27 :: rest) := apart_cons.mpr rfl
        obtain ⟨htaken, hrest⟩ := takeWhile_of_apart hstring hend
        rw [htail', htaken, hrest]
        exact ⟨rfl, rfl, rfl, hlength⟩
    | unknown hblank halpha hdigit hquote =>
        obtain ⟨rfl, -⟩ := List.cons.inj hline
        exact absurd rfl hquote
  · rintro ⟨rfl, hrest, rfl, hlength⟩
    refine ⟨?_, .quoted (fun hmem => ?_) hlength⟩
    · rw [List.cons_append, List.cons_append, List.append_assoc, List.singleton_append, ← hrest,
        List.takeWhile_append_dropWhile]
    · exact absurd (List.mem_takeWhile_imp hmem) (by decide)

/-- Any other character is taken alone. -/
theorem scans_unknown_iff (hblank : blank char = false) (halpha : alpha char = false)
    (hdigit : digit char = false) (hquote : char ≠ 0x27) :
    char :: tail = taken ++ rest ∧ Scans overflow taken rest item ↔
      taken = [char] ∧ rest = tail ∧ item = none := by
  constructor
  · rintro ⟨hline, hscan⟩
    cases hscan with
    | text hne hword hend hlength =>
        obtain ⟨first, word, rfl⟩ := List.exists_cons_of_ne_nil hne
        obtain ⟨rfl, -⟩ := List.cons.inj hline
        exact absurd (hword _ List.mem_cons_self) (by rw [halpha]; decide)
    | hex hdigits hend hvalue =>
        obtain ⟨rfl, -⟩ := List.cons.inj hline
        cases hdigit
    | number hne hdigits hend hplain hvalue =>
        obtain ⟨first, digits, rfl⟩ := List.exists_cons_of_ne_nil hne
        obtain ⟨rfl, -⟩ := List.cons.inj hline
        exact absurd (hdigits _ List.mem_cons_self) (by rw [hdigit]; decide)
    | quoted hquote' hlength =>
        obtain ⟨rfl, -⟩ := List.cons.inj hline
        exact absurd rfl hquote
    | unknown hblank' halpha' hdigit' hquote' =>
        obtain ⟨rfl, rfl⟩ := List.cons.inj hline
        exact ⟨rfl, rfl, rfl⟩
  · rintro ⟨rfl, rfl, rfl⟩
    exact ⟨rfl, .unknown hblank halpha hdigit hquote⟩

end Starts

/-! ## Walking over the window -/

section Walk

variable {window : List UInt8} {c : Nat} {γ : Type} {post : γ → Prop}

theorem drop_succ {char : UInt8} {rest : List UInt8} (hdrop : window.drop c = char :: rest) :
    window.drop (c + 1) = rest := by
  rw [← List.drop_drop, hdrop]
  rfl

theorem drop_length {front rest : List UInt8} (hdrop : window.drop c = front ++ rest) :
    window.drop (c + front.length) = rest := by
  rw [← List.drop_drop, hdrop, List.drop_left]

/-- A character of the window is found. -/
theorem charAt_view {char : UInt8} {rest : List UInt8} (hdrop : window.drop c = char :: rest)
    (f : UInt8 → Reader UInt8 Halt γ) :
    (charAt c >>= f).view 0 window = (f char).view 0 window := by
  have hlt : c + 1 ≤ window.length := by
    by_contra hlt
    rw [List.drop_eq_nil_of_le (by omega)] at hdrop
    cases hdrop
  have hread := @Reader.view_read UInt8 Halt 0 window c 1 hlt
  rw [Int.zero_add, Nat.cast_one] at hread
  rw [charAt, Reader.bind_assoc, Reader.view_bind_ok hread, hdrop]
  rfl

/-- There is none behind its end. -/
theorem charAt_view_end (hdrop : window.drop c = []) (f : UInt8 → Reader UInt8 Halt γ) :
    (charAt c >>= f).view 0 window = none := by
  have hle := List.drop_eq_nil_iff.mp hdrop
  have hrequest : ¬Reader.Inside 0 window.length ((c : Int), 1) := by
    rintro ⟨_, _, hhigh⟩
    dsimp only at hhigh
    omega
  rw [charAt, Reader.bind_assoc, Reader.view_bind, Reader.view_read_outside hrequest]

theorem returns_charAt {char : UInt8} {rest : List UInt8} (hdrop : window.drop c = char :: rest)
    (f : UInt8 → Reader UInt8 Halt γ) :
    (charAt c >>= f).Returns 0 window post ↔ (f char).Returns 0 window post := by
  rw [Reader.Returns, charAt_view hdrop, Reader.Returns]

theorem not_returns_charAt (hdrop : window.drop c = []) (f : UInt8 → Reader UInt8 Halt γ) :
    ¬(charAt c >>= f).Returns 0 window post := by
  rintro ⟨a, hview, -⟩
  rw [charAt_view_end hdrop] at hview
  cases hview

/-- The blanks are skipped. -/
theorem returns_skipBlanks {rest back : List UInt8} {char : UInt8} (hchar : blank char = false)
    (hdrop : window.drop c = rest ++ char :: back) {fuel : Nat} (hfuel : rest.length < fuel)
    (f : Nat → Reader UInt8 Halt γ) (hblank : ∀ char ∈ rest, blank char = true) :
    (skipBlanks fuel c >>= f).Returns 0 window post ↔
      (f (c + rest.length)).Returns 0 window post := by
  induction rest generalizing c fuel with
  | nil =>
      obtain ⟨fuel, rfl⟩ := Nat.exists_eq_succ_of_ne_zero (Nat.ne_of_gt hfuel)
      rw [skipBlanks, Reader.bind_assoc, returns_charAt hdrop, hchar]
      rfl
  | cons first rest ih =>
      obtain ⟨fuel, rfl⟩ := Nat.exists_eq_succ_of_ne_zero (Nat.ne_of_gt (Nat.zero_lt_of_lt hfuel))
      have hfirst := hblank first List.mem_cons_self
      rw [skipBlanks, Reader.bind_assoc, returns_charAt hdrop, hfirst, if_pos rfl,
        ih (drop_succ hdrop) (Nat.lt_of_succ_lt_succ hfuel)
          fun char hmem => hblank char (List.mem_cons_of_mem _ hmem),
        List.length_cons, Nat.add_right_comm, Nat.add_assoc]

/-- The loop over the characters of a string, up to the one that ends it. -/
theorem returns_copyChars {more : UInt8 → Bool} {front back : List UInt8} {char : UInt8}
    (hfront : ∀ char ∈ front, more char = true) (hchar : more char = false)
    (hdrop : window.drop c = front ++ char :: back) {fuel s : Nat} (hfuel : front.length < fuel)
    (string : Vector UInt8 maxStr) (f : Nat × Nat × Vector UInt8 maxStr → Reader UInt8 Halt γ)
    (hlength : s + front.length ≤ maxStr) :
    (copyChars more fuel c s string >>= f).Returns 0 window post ↔
      (f (c + front.length, s + front.length, Slots.put string s front)).Returns 0 window post := by
  induction front generalizing c fuel s string with
  | nil =>
      obtain ⟨fuel, rfl⟩ := Nat.exists_eq_succ_of_ne_zero (Nat.ne_of_gt hfuel)
      rw [copyChars, Reader.bind_assoc, returns_charAt hdrop, hchar, Slots.put_nil]
      rfl
  | cons first front ih =>
      obtain ⟨fuel, rfl⟩ := Nat.exists_eq_succ_of_ne_zero (Nat.ne_of_gt (Nat.zero_lt_of_lt hfuel))
      rw [List.length_cons] at hfuel hlength
      have hfirst := hfront first List.mem_cons_self
      have hs : s < maxStr := by omega
      rw [copyChars, Reader.bind_assoc, returns_charAt hdrop, hfirst, if_pos rfl,
        storeAt_of_lt hs, Reader.done_bind, if_neg (by omega),
        ih (fun char hmem => hfront char (List.mem_cons_of_mem _ hmem)) (drop_succ hdrop)
          (Nat.lt_of_succ_lt_succ hfuel) _ (by omega),
        Slots.put_cons _ hs, Slots.put_cons _ hs, Slots.put_nil, List.length_cons,
        Nat.add_assoc c, Nat.add_assoc s, Nat.add_comm 1]

/-- A string of too many characters is stored behind its array. -/
theorem not_returns_copyChars {more : UInt8 → Bool} {front back : List UInt8}
    (hfront : ∀ char ∈ front, more char = true) (hdrop : window.drop c = front ++ back)
    {fuel s : Nat} (string : Vector UInt8 maxStr)
    (f : Nat × Nat × Vector UInt8 maxStr → Reader UInt8 Halt γ)
    (hlength : maxStr < s + front.length) (hs : s ≤ maxStr) :
    ¬(copyChars more fuel c s string >>= f).Returns 0 window post := by
  induction front generalizing c fuel s string with
  | nil =>
      rw [List.length_nil] at hlength
      omega
  | cons first front ih =>
      cases fuel with
      | zero => exact (Reader.returns_stop _ _).mp
      | succ fuel =>
          rw [List.length_cons] at hlength
          have hfirst := hfront first List.mem_cons_self
          rw [copyChars, Reader.bind_assoc, returns_charAt hdrop, hfirst, if_pos rfl]
          rcases Nat.lt_or_ge s maxStr with hlt | hge
          · rw [storeAt_of_lt hlt, Reader.done_bind, if_neg (by omega)]
            exact ih (fun char hmem => hfront char (List.mem_cons_of_mem _ hmem))
              (drop_succ hdrop) _ (by omega) hlt
          · rw [storeAt, dif_neg (by omega)]
            exact (Reader.returns_stop _ _).mp

/-- A string that nothing ends is read to the end of the window. -/
theorem not_returns_copyChars_end {more : UInt8 → Bool} {front : List UInt8}
    (hfront : ∀ char ∈ front, more char = true) (hdrop : window.drop c = front)
    {fuel s : Nat} (string : Vector UInt8 maxStr)
    (f : Nat × Nat × Vector UInt8 maxStr → Reader UInt8 Halt γ)
    (hlength : s + front.length ≤ maxStr) :
    ¬(copyChars more fuel c s string >>= f).Returns 0 window post := by
  induction front generalizing c fuel s string with
  | nil =>
      cases fuel with
      | zero => exact (Reader.returns_stop _ _).mp
      | succ fuel =>
          rw [copyChars, Reader.bind_assoc]
          exact not_returns_charAt hdrop _
  | cons first front ih =>
      cases fuel with
      | zero => exact (Reader.returns_stop _ _).mp
      | succ fuel =>
          rw [List.length_cons] at hlength
          have hfirst := hfront first List.mem_cons_self
          rw [copyChars, Reader.bind_assoc, returns_charAt hdrop, hfirst, if_pos rfl,
            storeAt_of_lt (by omega), Reader.done_bind, if_neg (by omega)]
          exact ih (fun char hmem => hfront char (List.mem_cons_of_mem _ hmem))
            (drop_succ hdrop) _ (by omega)

/-- A string and its zero. -/
theorem returns_lexString {more : UInt8 → Bool} {front back : List UInt8} {char : UInt8}
    (hfront : ∀ char ∈ front, more char = true) (hchar : more char = false)
    (hdrop : window.drop c = front ++ char :: back) {fuel : Nat} (hfuel : front.length < fuel)
    (string : Vector UInt8 maxStr) (f : Nat × Vector UInt8 maxStr → Reader UInt8 Halt γ) :
    (lexString more fuel c string >>= f).Returns 0 window post ↔ front.length < maxStr ∧
      (f (c + front.length, Slots.put string 0 (front ++ [0]))).Returns 0 window post := by
  rw [lexString, Reader.bind_assoc]
  rcases Nat.lt_or_ge maxStr front.length with hlong | hshort
  · refine iff_of_false (not_returns_copyChars hfront hdrop string _ ?_ (Nat.zero_le _)) ?_
    · omega
    · rintro ⟨hlength, -⟩
      omega
  · rw [returns_copyChars hfront hchar hdrop hfuel string _ (by omega), Nat.zero_add]
    dsimp only
    rcases Nat.lt_or_ge front.length maxStr with hlt | hge
    · rw [and_iff_right hlt, storeAt_of_lt hlt, Reader.done_bind,
        Slots.put_append _ _ _ (by omega), Nat.zero_add]
      rfl
    · rw [storeAt, dif_neg (by omega)]
      refine iff_of_false (Reader.returns_stop _ _).mp ?_
      rintro ⟨hlength, -⟩
      omega

theorem not_returns_lexString {more : UInt8 → Bool} {front : List UInt8}
    (hfront : ∀ char ∈ front, more char = true) (hdrop : window.drop c = front) {fuel : Nat}
    (string : Vector UInt8 maxStr) (f : Nat × Vector UInt8 maxStr → Reader UInt8 Halt γ) :
    ¬(lexString more fuel c string >>= f).Returns 0 window post := by
  rw [lexString, Reader.bind_assoc]
  rcases Nat.lt_or_ge maxStr front.length with hlong | hshort
  · have hdrop' : window.drop c = front ++ [] := hdrop.trans (List.append_nil _).symm
    exact not_returns_copyChars hfront hdrop' string _ (by omega) (Nat.zero_le _)
  · apply not_returns_copyChars_end hfront hdrop
    omega

/-- The loop over the digits of a number. -/
theorem returns_lexDigits {overflow : Overflow} {base : Nat} {isDigit : UInt8 → Bool}
    {digits back : List UInt8} {char : UInt8} (hbase : 0 < base)
    (hdigits : ∀ char ∈ digits, isDigit char = true) (hchar : isDigit char = false)
    (hdrop : window.drop c = digits ++ char :: back) {fuel n : Nat}
    (hfuel : digits.length < fuel) (hn : overflow.Allows n)
    (f : Nat × Int → Reader UInt8 Halt γ) :
    (lexDigits overflow base isDigit fuel c (toInt32 n) >>= f).Returns 0 window post ↔
      overflow.Allows (digitsNumber base n digits) ∧
        (f (c + digits.length, toInt32 (digitsNumber base n digits))).Returns 0 window post := by
  induction digits generalizing c fuel n with
  | nil =>
      obtain ⟨fuel, rfl⟩ := Nat.exists_eq_succ_of_ne_zero (Nat.ne_of_gt hfuel)
      rw [lexDigits, Reader.bind_assoc, returns_charAt hdrop, hchar]
      exact (and_iff_right hn).symm
  | cons first digits ih =>
      obtain ⟨fuel, rfl⟩ := Nat.exists_eq_succ_of_ne_zero (Nat.ne_of_gt (Nat.zero_lt_of_lt hfuel))
      have hfirst := hdigits first List.mem_cons_self
      have hnext : digitsNumber base n (first :: digits) =
          digitsNumber base (n * base + digitValue first) digits := rfl
      have hmul : toInt32 (toInt32 n * base) = toInt32 ((n * base : Nat) : Int) := by
        rw [toInt32_toInt32_mul, Nat.cast_mul]
      have hadd : toInt32 (toInt32 ((n * base : Nat) : Int) + digitValue first) =
          toInt32 ((n * base + digitValue first : Nat) : Int) := by
        rw [toInt32_toInt32_add, Nat.cast_add]
      rw [lexDigits, Reader.bind_assoc, returns_charAt hdrop, hfirst, if_pos rfl, hnext,
        Reader.bind_assoc, Overflow.returns_result hmul ?_]
      · by_cases hproduct : overflow.Allows (n * base)
        · rw [and_iff_right hproduct, Reader.bind_assoc, Overflow.returns_result hadd ?_]
          · by_cases hvalue : overflow.Allows (n * base + digitValue first)
            · rw [and_iff_right hvalue,
                ih (fun char hmem => hdigits char (List.mem_cons_of_mem _ hmem)) (drop_succ hdrop)
                  (Nat.lt_of_succ_lt_succ hfuel) hvalue,
                List.length_cons, Nat.add_assoc, Nat.add_comm 1]
            · refine iff_of_false (fun h => hvalue h.1) fun h => hvalue ?_
              exact h.1.mono (le_digitsNumber hbase _ _)
          · rintro rfl
            rw [hproduct.toInt32_eq, Nat.cast_add]
        · refine iff_of_false (fun h => hproduct h.1) fun h => hproduct ?_
          exact h.1.mono ((Nat.le_add_right _ _).trans (le_digitsNumber hbase _ _))
      · rintro rfl
        rw [hn.toInt32_eq, Nat.cast_mul]

end Walk

/-! ## The table -/

theorem tokenAt_tableOf {done : List Lexeme} (hlt : done.length < maxTok) :
    tokenAt (tableOf done) done.length = .done Token.zero := by
  have hentry : (tableOf done)[done.length]? = some Token.zero := by
    rw [Vector.getElem?_eq_getElem hlt, tableOf, Slots.getElem_put]
    simp
  rw [tokenAt, hentry]
  rfl

theorem tokenAt_full {toks : Vector Token maxTok} {t : Nat} (hle : maxTok ≤ t) :
    tokenAt toks t = .stop .undefined := by
  rw [tokenAt, Vector.getElem?_eq_none hle]

theorem tableOf_append {done : List Lexeme} (hlt : done.length < maxTok) (item : Lexeme) :
    (tableOf done).setIfInBounds done.length item.token = tableOf (done ++ [item]) := by
  have hlength : (done.map Lexeme.token).length = done.length := List.length_map _
  rw [tableOf, tableOf, List.map_append, Slots.put_append _ _ _ (by rw [hlength]; omega), hlength,
    Nat.zero_add, List.map_singleton, Slots.put_cons _ hlt, Slots.put_nil]
  ext slot hslot
  rw [Vector.getElem_setIfInBounds hslot, Vector.getElem_set]

/-! ## The lexer -/

section Lexer

variable {overflow : Overflow} {window : List UInt8} {c fuel : Nat} {done : List Lexeme}

theorem returns_tokenAt {γ : Type} {post : γ → Prop} (f : Token → Reader UInt8 Halt γ) :
    (tokenAt (tableOf done) done.length >>= f).Returns 0 window post ↔
      done.length < maxTok ∧ (f Token.zero).Returns 0 window post := by
  rcases Nat.lt_or_ge done.length maxTok with hlt | hge
  · rw [tokenAt_tableOf hlt, Reader.done_bind, and_iff_right hlt]
  · rw [tokenAt_full hge]
    exact iff_of_false (Reader.returns_stop _ _).mp fun h => Nat.not_lt.mpr hge h.1

/-- What is behind a class of characters in front of a zero. -/
theorem exists_end (is : UInt8 → Bool) (hzero : is 0 = false) {text : List UInt8}
    (hdrop : window.drop c = text ++ [0]) :
    ∃ char back, window.drop c = text.takeWhile is ++ char :: back ∧ is char = false := by
  have hend := apart_dropWhile is text
  have hsplit := List.takeWhile_append_dropWhile (p := is) (l := text)
  cases hrest : text.dropWhile is with
  | nil =>
      rw [hrest, List.append_nil] at hsplit
      exact ⟨0, [], by rw [hsplit, hdrop], hzero⟩
  | cons char back =>
      rw [hrest] at hend hsplit
      refine ⟨char, back ++ [0], ?_, apart_cons.mp hend⟩
      rw [hdrop, ← List.cons_append, ← List.append_assoc, hsplit]

theorem takeWhile_length_le (is : UInt8 → Bool) (text : List UInt8) :
    (text.takeWhile is).length ≤ text.length := (List.takeWhile_sublist is).length_le

variable {post : Option (Nat × Vector Token maxTok) → Prop}

/-- What is known behind a lexeme. -/
def Behind (c : Nat) (done : List Lexeme) (post : Option (Nat × Vector Token maxTok) → Prop)
    (taken : List UInt8) : Option Lexeme → Prop
  | none => post none
  | some item => done.length < maxTok ∧ post (some (c + taken.length, tableOf (done ++ [item])))

/-- The line starts with a lexeme, and then the property holds. -/
def Found (overflow : Overflow) (c : Nat) (done : List Lexeme)
    (post : Option (Nat × Vector Token maxTok) → Prop) (line : List UInt8) : Prop :=
  ∃ taken rest item, (line = taken ++ rest ∧ Scans overflow taken rest item) ∧
    Behind c done post taken item

theorem found_iff {line taken rest : List UInt8} {item : Lexeme} {allowed : Prop}
    (hscans : ∀ taken' rest' item', line = taken' ++ rest' ∧ Scans overflow taken' rest' item' ↔
      taken' = taken ∧ rest' = rest ∧ item' = some item ∧ allowed) :
    Found overflow c done post line ↔ done.length < maxTok ∧ allowed ∧
      post (some (c + taken.length, (tableOf done).setIfInBounds done.length item.token)) := by
  constructor
  · rintro ⟨_, _, _, hscan, hbehind⟩
    obtain ⟨rfl, rfl, rfl, hallowed⟩ := (hscans _ _ _).mp hscan
    rw [tableOf_append hbehind.1]
    exact ⟨hbehind.1, hallowed, hbehind.2⟩
  · rintro ⟨hlt, hallowed, hpost⟩
    rw [tableOf_append hlt] at hpost
    exact ⟨taken, rest, some item, (hscans _ _ _).mpr ⟨rfl, rfl, rfl, hallowed⟩, hlt, hpost⟩

theorem returns_lexToken_text {char : UInt8} {tail : List UInt8}
    (hdrop : window.drop c = char :: tail ++ [0]) (hfuel : tail.length + 1 < fuel)
    (halpha : alpha char = true) :
    (lexToken overflow fuel c done.length (tableOf done)).Returns 0 window post ↔
      Found overflow c done post (char :: tail) := by
  obtain ⟨next, back, hsplit, hnext⟩ := exists_end alpha rfl hdrop
  have hlength := takeWhile_length_le alpha (char :: tail)
  rw [List.length_cons] at hlength
  rw [lexToken, returns_charAt hdrop, if_pos halpha, returns_tokenAt,
    returns_lexString (fun char hchar => List.mem_takeWhile_imp hchar) hnext hsplit (by omega),
    found_iff fun taken rest item => scans_text_iff halpha]
  exact and_congr_right fun _ => and_congr_right fun _ => Reader.returns_done _ _

/-- A number from its first digit on. -/
theorem returns_lexNumber {γ : Type} {post : γ → Prop} {base : Nat} {is : UInt8 → Bool}
    {text : List UInt8} (hbase : 0 < base) (hzero : is 0 = false)
    (hdrop : window.drop c = text ++ [0]) (hfuel : text.length < fuel)
    (f : Nat × Int → Reader UInt8 Halt γ) :
    (lexDigits overflow base is fuel c 0 >>= f).Returns 0 window post ↔
      overflow.Allows (digitsNumber base 0 (text.takeWhile is)) ∧
        (f (c + (text.takeWhile is).length,
          toInt32 (digitsNumber base 0 (text.takeWhile is)))).Returns 0 window post := by
  obtain ⟨next, back, hsplit, hnext⟩ := exists_end _ hzero hdrop
  exact returns_lexDigits (n := 0) hbase (fun char hchar => List.mem_takeWhile_imp hchar) hnext
    hsplit ((takeWhile_length_le is text).trans_lt hfuel) (.inr (by decide)) f

theorem returns_lexToken_hex {digits : List UInt8}
    (hdrop : window.drop c = 0x30 :: 0x78 :: digits ++ [0]) (hfuel : digits.length + 2 < fuel) :
    (lexToken overflow fuel c done.length (tableOf done)).Returns 0 window post ↔
      Found overflow c done post (0x30 :: 0x78 :: digits) := by
  have hnext : window.drop (c + 1) = 0x78 :: (digits ++ [0]) := drop_succ hdrop
  rw [lexToken, returns_charAt hdrop, if_neg (by decide), hexAt, if_pos rfl, Reader.bind_assoc,
    returns_charAt hnext]
  simp only [beq_self_eq_true, Reader.pure_eq, Reader.done_bind, if_true]
  have hposition : c + (0x30 :: 0x78 :: digits.takeWhile hex).length =
      c + 2 + (digits.takeWhile hex).length := by
    rw [List.length_cons, List.length_cons]
    omega
  rw [returns_tokenAt, returns_lexNumber (by decide) rfl (drop_succ hnext) (by omega),
    found_iff fun taken rest item => scans_hex_iff, hposition]
  exact and_congr_right fun _ => and_congr_right fun _ => Reader.returns_done _ _

/-- `0x` is looked for where a digit is. -/
theorem returns_hexAt {γ : Type} {post : γ → Prop} {char : UInt8} {tail : List UInt8}
    (hdrop : window.drop c = char :: tail ++ [0])
    (hplain : ¬(char = 0x30 ∧ tail.head? = some 0x78)) (f : Bool → Reader UInt8 Halt γ) :
    (hexAt c char >>= f).Returns 0 window post ↔ (f false).Returns 0 window post := by
  rw [hexAt]
  by_cases hchar : char = 0x30
  · rw [if_pos hchar, Reader.bind_assoc]
    cases tail with
    | nil =>
        rw [returns_charAt (drop_succ hdrop)]
        rfl
    | cons next tail =>
        have hnext : next ≠ 0x78 := fun h => hplain ⟨hchar, by rw [h]; rfl⟩
        rw [returns_charAt (drop_succ hdrop), beq_eq_false_iff_ne.mpr hnext]
        rfl
  · rw [if_neg hchar]
    rfl

theorem returns_lexToken_number {char : UInt8} {tail : List UInt8}
    (hdrop : window.drop c = char :: tail ++ [0]) (hfuel : tail.length + 1 < fuel)
    (hdigit : digit char = true) (hplain : ¬(char = 0x30 ∧ tail.head? = some 0x78)) :
    (lexToken overflow fuel c done.length (tableOf done)).Returns 0 window post ↔
      Found overflow c done post (char :: tail) := by
  rw [lexToken, returns_charAt hdrop, alpha_eq_false_of_digit hdigit, if_neg (by decide),
    returns_hexAt hdrop hplain, if_neg (by decide), if_pos hdigit, returns_tokenAt,
    returns_lexNumber (by decide) rfl hdrop (by rwa [List.length_cons]),
    found_iff fun taken rest item => scans_number_iff hdigit hplain]
  exact and_congr_right fun _ => and_congr_right fun _ => Reader.returns_done _ _

theorem returns_lexToken_quoted {tail : List UInt8}
    (hdrop : window.drop c = 0x27 :: tail ++ [0])
    (hfuel : tail.length + 1 < fuel) :
    (lexToken overflow fuel c done.length (tableOf done)).Returns 0 window post ↔
      Found overflow c done post (0x27 :: tail) := by
  have htail : window.drop (c + 1) = tail ++ [0] := drop_succ hdrop
  have hlength := takeWhile_length_le (· != 0x27) tail
  have hsplit := List.takeWhile_append_dropWhile (p := (· != 0x27)) (l := tail)
  have hend := apart_dropWhile (· != 0x27) tail
  rw [lexToken, returns_charAt hdrop, if_neg (by decide),
    returns_hexAt hdrop (fun h => absurd h.1 (by decide)), if_neg (by decide), if_neg (by decide),
    if_pos rfl, returns_tokenAt]
  cases hrest : tail.dropWhile (· != 0x27) with
  | nil =>
      rw [hrest, List.append_nil] at hsplit
      -- the zero of the line is part of the string
      have hall : ∀ char ∈ tail ++ [0], (char != 0x27) = true := by
        intro char hchar
        rcases List.mem_append.mp hchar with hmem | hmem
        · rw [← hsplit] at hmem
          exact List.mem_takeWhile_imp (p := (· != 0x27)) hmem
        · rw [List.mem_singleton.mp hmem]
          decide
      refine iff_of_false (fun h => not_returns_lexString hall htail _ _ h.2) ?_
      rintro ⟨_, rest, _, hscan, _⟩
      have hquoted := (scans_quoted_iff.mp hscan).2.1
      rw [hrest] at hquoted
      cases hquoted
  | cons char rest =>
      rw [hrest] at hend hsplit
      obtain rfl : char = 0x27 := by simpa using apart_cons.mp hend
      have hback : window.drop (c + 1) = tail.takeWhile (· != 0x27) ++ 0x27 :: (rest ++ [0]) := by
        rw [htail, ← List.cons_append, ← List.append_assoc, hsplit]
      have hfound := @found_iff overflow c done post (0x27 :: tail) _ rest _ _
        fun taken rest' item => scans_quoted_iff.trans
          (and_congr_right fun _ => by rw [hrest, List.cons.injEq, and_iff_right rfl, eq_comm])
      have hposition : c + (0x27 :: tail.takeWhile (· != 0x27) ++ [0x27]).length =
          c + 1 + (tail.takeWhile (· != 0x27)).length + 1 := by
        rw [List.length_append, List.length_cons, List.length_singleton]
        omega
      rw [returns_lexString (fun char hchar => List.mem_takeWhile_imp hchar) (by decide) hback
        (by omega), hfound, hposition]
      exact and_congr_right fun _ => and_congr_right fun _ => Reader.returns_done _ _

theorem returns_lexToken_unknown {char : UInt8} {tail : List UInt8}
    (hdrop : window.drop c = char :: tail ++ [0]) (hblank : blank char = false)
    (halpha : alpha char = false) (hdigit : digit char = false) (hquote : char ≠ 0x27) :
    (lexToken overflow fuel c done.length (tableOf done)).Returns 0 window post ↔
      Found overflow c done post (char :: tail) := by
  have hplain : ¬(char = 0x30 ∧ tail.head? = some 0x78) := by
    rintro ⟨rfl, -⟩
    cases hdigit
  rw [lexToken, returns_charAt hdrop, halpha, if_neg (by decide), returns_hexAt hdrop hplain,
    if_neg (by decide), hdigit, if_neg (by decide), if_neg hquote, Reader.pure_eq,
    Reader.returns_done]
  constructor
  · intro hpost
    exact ⟨_, _, _, (scans_unknown_iff hblank halpha hdigit hquote).mpr ⟨rfl, rfl, rfl⟩, hpost⟩
  · rintro ⟨_, _, _, hscan, hbehind⟩
    obtain ⟨rfl, rfl, rfl⟩ := (scans_unknown_iff hblank halpha hdigit hquote).mp hscan
    exact hbehind

/-- The branches of the lexer take the lexemes of the grammar. -/
theorem returns_lexToken {char : UInt8} {tail : List UInt8}
    (hdrop : window.drop c = char :: tail ++ [0])
    (hblank : blank char = false) (hfuel : tail.length + 1 < fuel) :
    (lexToken overflow fuel c done.length (tableOf done)).Returns 0 window post ↔
      Found overflow c done post (char :: tail) := by
  by_cases halpha : alpha char = true
  · exact returns_lexToken_text hdrop hfuel halpha
  by_cases hhex : char = 0x30 ∧ tail.head? = some 0x78
  · obtain ⟨rfl, hhead⟩ := hhex
    obtain ⟨digits, rfl⟩ := List.head?_eq_some_iff.mp hhead
    rw [List.length_cons] at hfuel
    exact returns_lexToken_hex hdrop hfuel
  by_cases hdigit : digit char = true
  · exact returns_lexToken_number hdrop hfuel hdigit hhex
  by_cases hquote : char = 0x27
  · subst hquote
    exact returns_lexToken_quoted hdrop hfuel
  · exact returns_lexToken_unknown hdrop hblank (Bool.not_eq_true _ ▸ halpha)
      (Bool.not_eq_true _ ▸ hdigit) hquote

end Lexer

/-! ## Lines -/

theorem blank_eq_false_of_alpha {char : UInt8} (halpha : alpha char = true) :
    blank char = false := by
  rw [blank, Bool.or_eq_false_iff, beq_eq_false_iff_ne, beq_eq_false_iff_ne]
  constructor
  · rintro rfl
    cases halpha
  · rintro rfl
    cases halpha

theorem blank_eq_false_of_digit {char : UInt8} (hdigit : digit char = true) :
    blank char = false := by
  rw [blank, Bool.or_eq_false_iff, beq_eq_false_iff_ne, beq_eq_false_iff_ne]
  constructor
  · rintro rfl
    cases hdigit
  · rintro rfl
    cases hdigit

/-- A lexeme takes something, and no blank first. -/
theorem Scans.first {overflow : Overflow} {taken rest : List UInt8} {item : Option Lexeme}
    (hscan : Scans overflow taken rest item) :
    ∃ char more, taken = char :: more ∧ blank char = false := by
  cases hscan with
  | text hne hword hend hlength =>
      obtain ⟨char, more, rfl⟩ := List.exists_cons_of_ne_nil hne
      exact ⟨char, more, rfl, blank_eq_false_of_alpha (hword _ List.mem_cons_self)⟩
  | hex hdigits hend hvalue => exact ⟨_, _, rfl, rfl⟩
  | number hne hdigits hend hplain hvalue =>
      obtain ⟨char, more, rfl⟩ := List.exists_cons_of_ne_nil hne
      exact ⟨char, more, rfl, blank_eq_false_of_digit (hdigits _ List.mem_cons_self)⟩
  | quoted hquote hlength => exact ⟨_, _, rfl, rfl⟩
  | unknown hblank halpha hdigit hquote => exact ⟨_, _, rfl, hblank⟩

section Lines

variable {overflow : Overflow} {items : List Lexeme}

theorem command_nil_iff : Command overflow [] items ↔ items = [] := by
  constructor
  · intro hcommand
    cases hcommand with
    | nil => rfl
    | piece hline hscan hrest =>
        obtain ⟨char, more, rfl, -⟩ := hscan.first
        cases hline
  · rintro rfl
    exact .nil

theorem command_blank_iff {char : UInt8} {rest : List UInt8} (hblank : blank char = true) :
    Command overflow (char :: rest) items ↔ rest ≠ [] ∧ Command overflow rest items := by
  constructor
  · intro hcommand
    cases hcommand with
    | blank _ hne hrest => exact ⟨hne, hrest⟩
    | piece hline hscan hrest =>
        obtain ⟨first, more, rfl, hfirst⟩ := hscan.first
        obtain ⟨rfl, -⟩ := List.cons.inj hline
        rw [hfirst] at hblank
        cases hblank
  · exact fun ⟨hne, hrest⟩ => .blank hblank hne hrest

/-- Blanks are skipped if something is behind them. -/
theorem command_dropWhile_iff {line : List UInt8} (hne : line ≠ []) :
    Command overflow line items ↔
      line.dropWhile blank ≠ [] ∧ Command overflow (line.dropWhile blank) items := by
  induction line with
  | nil => exact absurd rfl hne
  | cons char rest ih =>
      by_cases hblank : blank char = true
      · rw [command_blank_iff hblank, List.dropWhile_cons_of_pos hblank]
        cases rest with
        | nil => exact iff_of_false (fun h => h.1 rfl) fun h => h.1 rfl
        | cons next rest => rw [ih (List.cons_ne_nil _ _), and_iff_right (List.cons_ne_nil _ _)]
      · rw [List.dropWhile_cons_of_neg hblank, and_iff_right hne]

theorem command_piece_iff {char : UInt8} {tail : List UInt8} (hblank : blank char = false) :
    Command overflow (char :: tail) items ↔ ∃ taken rest item,
      (char :: tail = taken ++ rest ∧ Scans overflow taken rest item) ∧
        ∃ items', items = item.toList ++ items' ∧ Command overflow rest items' := by
  constructor
  · intro hcommand
    cases hcommand with
    | blank hblank' _ _ =>
        rw [hblank] at hblank'
        cases hblank'
    | piece hline hscan hrest => exact ⟨_, _, _, ⟨hline, hscan⟩, _, rfl, hrest⟩
  · rintro ⟨taken, rest, item, ⟨hline, hscan⟩, items', rfl, hrest⟩
    exact .piece hline hscan hrest

end Lines

section Run

variable {overflow : Overflow} {window : List UInt8}

theorem not_returns_lexCommand {c fuel t : Nat} {toks : Vector Token maxTok}
    {post : Option Tokens → Prop} (hdrop : window.drop c = []) :
    ¬(lexCommand overflow fuel c t toks).Returns 0 window post := by
  cases fuel with
  | zero => exact (Reader.returns_stop _ _).mp
  | succ fuel => exact not_returns_charAt hdrop _

/-- The zero of the line is an unknown character behind blanks. -/
theorem returns_lexToken_end {c fuel t : Nat} {toks : Vector Token maxTok}
    {post : Option (Nat × Vector Token maxTok) → Prop} (hdrop : window.drop c = [0]) :
    (lexToken overflow fuel c t toks).Returns 0 window post ↔ post none := by
  rw [lexToken, returns_charAt hdrop]
  exact Reader.returns_done _ _

/-- The result of the lexer is that of a line of the grammar behind some lexemes. -/
def Lexed (overflow : Overflow) (done : List Lexeme) (post : Option Tokens → Prop)
    (line : List UInt8) : Prop :=
  ∃ items, Command overflow line items ∧ (done ++ items).length ≤ maxTok ∧
    post (some ⟨tableOf (done ++ items), (done ++ items).length⟩)

/-- Behind a lexeme the loop goes on with what is left of the line. -/
theorem behind_iff {taken rest : List UInt8} {item : Option Lexeme} {c : Nat} {done : List Lexeme}
    {loop : (c t : Nat) → Vector Token maxTok → Reader UInt8 Halt (Option Tokens)}
    {post : Option Tokens → Prop} (hscan : Scans overflow taken rest item)
    (hdone : done.length ≤ maxTok)
    (hloop : ∀ done : List Lexeme, done.length ≤ maxTok →
      ((loop (c + taken.length) done.length (tableOf done)).Returns 0 window post ↔
        Lexed overflow done post rest)) :
    Behind c done (fun token => Reader.Returns 0 window (match token with
        | none => loop (c + 1) done.length (tableOf done)
        | some (c, toks) =>
            if maxTok ≤ done.length then return none else loop c (done.length + 1) toks) post)
      taken item ↔
      ∃ items, Command overflow rest items ∧ (done ++ (item.toList ++ items)).length ≤ maxTok ∧
        post (some ⟨tableOf (done ++ (item.toList ++ items)),
          (done ++ (item.toList ++ items)).length⟩) := by
  cases item with
  | none =>
      have htaken : taken.length = 1 := by
        cases hscan
        rfl
      have hnext := hloop done hdone
      rw [htaken] at hnext
      exact hnext
  | some item =>
      rcases Nat.lt_or_ge done.length maxTok with hlt | hge
      · have hlength : (done ++ [item]).length = done.length + 1 := by simp
        have hnext := hloop (done ++ [item]) (by rw [hlength]; omega)
        rw [hlength] at hnext
        simp only [Behind, and_iff_right hlt, if_neg (Nat.not_le.mpr hlt), hnext, Lexed,
          Option.toList_some, List.append_assoc]
      · refine iff_of_false (fun h => Nat.not_lt.mpr hge h.1) ?_
        rintro ⟨items, _, hle, _⟩
        simp only [Option.toList_some, List.length_append, List.length_singleton] at hle
        omega

/-- The loop of the lexer ends on the lines of the grammar that have few enough lexemes. -/
theorem returns_lexCommand {line : List UInt8} {c fuel : Nat} {done : List Lexeme}
    (hdrop : window.drop c = line ++ [0]) (hzero : 0 ∉ line) (hfuel : line.length < fuel)
    (hdone : done.length ≤ maxTok) (post : Option Tokens → Prop) :
    (lexCommand overflow fuel c done.length (tableOf done)).Returns 0 window post ↔
      Lexed overflow done post line := by
  induction fuel generalizing line c done with
  | zero => omega
  | succ fuel ih =>
      cases line with
      | nil =>
          rw [lexCommand, returns_charAt hdrop, if_pos rfl, Reader.pure_eq, Reader.returns_done]
          constructor
          · intro hpost
            refine ⟨[], .nil, ?_, ?_⟩
            · rwa [List.append_nil]
            · rwa [List.append_nil]
          · rintro ⟨items, hcommand, -, hpost⟩
            obtain rfl := command_nil_iff.mp hcommand
            rwa [List.append_nil] at hpost
      | cons first line =>
          have hfirst : first ≠ 0 := fun h => hzero (h ▸ List.mem_cons_self)
          have hsplit := List.takeWhile_append_dropWhile (p := blank) (l := first :: line)
          have hlength := takeWhile_length_le blank (first :: line)
          obtain ⟨next, back, hnext, hnonblank⟩ := exists_end blank rfl hdrop
          rw [lexCommand, returns_charAt hdrop, if_neg hfirst,
            returns_skipBlanks hnonblank hnext (by omega) _
              fun char hchar => List.mem_takeWhile_imp hchar]
          have hrest : window.drop (c + ((first :: line).takeWhile blank).length) =
              (first :: line).dropWhile blank ++ [0] := by
            apply drop_length
            rw [hdrop, ← List.append_assoc, hsplit]
          simp only [Lexed, command_dropWhile_iff (List.cons_ne_nil first line)]
          generalize c + ((first :: line).takeWhile blank).length = c' at hrest
          have hshorter := (List.dropWhile_sublist blank (l := first :: line)).length_le
          have hends := apart_dropWhile blank (first :: line)
          have hzero' : 0 ∉ (first :: line).dropWhile blank := fun hmem =>
            hzero ((List.dropWhile_sublist blank).subset hmem)
          generalize (first :: line).dropWhile blank = line' at hrest hshorter hends hzero'
          rw [Reader.returns_bind]
          cases line' with
          | nil =>
              rw [returns_lexToken_end hrest]
              refine iff_of_false (not_returns_lexCommand (drop_succ hrest)) ?_
              rintro ⟨items, ⟨hne, _⟩, _⟩
              exact hne rfl
          | cons char tail =>
              have hblank := apart_cons.mp hends
              rw [List.length_cons, List.length_cons] at hshorter
              rw [List.length_cons] at hfuel
              rw [returns_lexToken hrest hblank (by omega)]
              have hround : ∀ {taken rest item}, char :: tail = taken ++ rest →
                  Scans overflow taken rest item → _ := fun {taken rest item} hline hscan =>
                @behind_iff overflow window taken rest item c' done
                  (lexCommand overflow fuel) post hscan hdone fun done hdone => by
                    obtain ⟨char', more, htaken, -⟩ := hscan.first
                    have hle : rest.length < fuel := by
                      have htotal := congrArg List.length hline
                      rw [htaken, List.length_append, List.length_cons, List.length_cons] at htotal
                      omega
                    refine ih ?_ (fun hmem => hzero' ?_) hle hdone
                    · apply drop_length
                      rw [hrest, hline, List.append_assoc]
                    · rw [hline]
                      exact List.mem_append_right _ hmem
              constructor
              · rintro ⟨taken, rest, item, ⟨hline, hscan⟩, hbehind⟩
                obtain ⟨items, hcommand, hpost⟩ := (hround hline hscan).mp hbehind
                exact ⟨_, ⟨List.cons_ne_nil _ _, .piece hline hscan hcommand⟩, hpost⟩
              · rintro ⟨_, ⟨_, hcommand⟩, hpost⟩
                obtain ⟨taken, rest, item, ⟨hline, hscan⟩, items, rfl, hrestCommand⟩ :=
                  (command_piece_iff hblank).mp hcommand
                exact ⟨taken, rest, item, ⟨hline, hscan⟩,
                  (hround hline hscan).mpr ⟨items, hrestCommand, hpost⟩⟩

/-- A line, with the zero behind it in memory. -/
structure CString where
  chars : List UInt8
  zero_notMem : 0 ∉ chars

/-- The memory of a line. -/
def CString.bytes (string : CString) : List UInt8 := string.chars ++ [0]

/-- `lex_evproc_command` comes to its end, inside the line and inside its table, exactly on the
lines of the grammar with at most ten lexemes, and finds them. -/
theorem returns_lexEvprocCommand {memory : Allocator} {allocations fuel : Nat}
    (hblock : (memory allocations tokensSize).isSome) (line : CString)
    (hfuel : line.chars.length < fuel) (post : Option Tokens → Prop) :
    (lexEvprocCommand overflow memory allocations fuel).Returns 0 line.bytes post ↔
      Lexed overflow [] post line.chars := by
  obtain ⟨block, hblock⟩ := Option.isSome_iff_exists.mp hblock
  have hmalloc : memory.malloc allocations tokensSize = some ⟨tokensSize, block⟩ := by
    rw [Allocator.malloc, hblock]
    rfl
  have htable : tableOf [] = .replicate maxTok .zero := Slots.put_nil _ _
  rw [lexEvprocCommand, hmalloc, ← htable]
  have hempty : ([] : List Lexeme).length ≤ maxTok := Nat.zero_le _
  exact returns_lexCommand rfl line.zero_notMem hfuel hempty post

end Run

end Libpict
