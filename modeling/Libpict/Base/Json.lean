import Mathlib.Data.Nat.Digits.Lemmas
import Mathlib.Tactic.Common

/-! # JSON texts

A machine that reads a JSON text (RFC 8259) byte by byte: what it may meet next, and the
arrays and objects that are open. A text is well formed if the machine gets through it and
ends behind one value.
-/

namespace Json

/-- What a value lies in. -/
inductive Frame
  | array
  | object
  deriving DecidableEq

/-- Where the machine stands inside a string: between characters, in an escape sequence or in
a character of UTF-8. -/
inductive Inside
  | chars
  | escape
  | hex4
  | hex3
  | hex2
  | hex1
  | tail1
  | tail2
  | tail3
  | afterE0
  | afterED
  | afterF0
  | afterF4
  deriving DecidableEq

/-- The last part of a number so far. -/
inductive Number
  | minus
  | zero
  | int
  | point
  | frac
  | exp
  | sign
  | power
  deriving DecidableEq

/-- What is left of `true`, `false` or `null`. -/
inductive Literal
  | rue
  | ue
  | alse
  | lse
  | se
  | ull
  | ll
  | l
  | e
  deriving DecidableEq

inductive Mode
  /-- A value must follow. -/
  | value
  /-- The first value of an array, or its end. -/
  | first
  | key
  | firstKey
  | colon
  /-- Behind a value. -/
  | done
  | text (isKey : Bool) (inside : Inside)
  | number (part : Number)
  | literal (rest : Literal)
  deriving DecidableEq

structure State where
  mode : Mode
  frames : List Frame
  deriving DecidableEq

def isSpace (b : UInt8) : Bool := b == 0x20 || b == 0x09 || b == 0x0A || b == 0x0D

def isDigit (b : UInt8) : Bool := 0x30 ≤ b && b ≤ 0x39

def isHex (b : UInt8) : Bool := isDigit b || 0x41 ≤ b && b ≤ 0x46 || 0x61 ≤ b && b ≤ 0x66

/-- A character that stands for itself in a string. -/
def isPlain (b : UInt8) : Bool := 0x20 ≤ b && b ≤ 0x7F && b != 0x22 && b != 0x5C

/-- The next byte of a string, except for its closing quote. -/
def Inside.next : Inside → UInt8 → Option Inside
  | .chars, b =>
      if isPlain b then some .chars
      else if b = 0x5C then some .escape
      else if 0xC2 ≤ b ∧ b ≤ 0xDF then some .tail1
      else if b = 0xE0 then some .afterE0
      else if b = 0xED then some .afterED
      else if 0xE1 ≤ b ∧ b ≤ 0xEF then some .tail2
      else if b = 0xF0 then some .afterF0
      else if 0xF1 ≤ b ∧ b ≤ 0xF3 then some .tail3
      else if b = 0xF4 then some .afterF4
      else none
  | .escape, b =>
      if b ∈ [0x22, 0x5C, 0x2F, 0x62, 0x66, 0x6E, 0x72, 0x74] then some .chars
      else if b = 0x75 then some .hex4
      else none
  | .hex4, b => if isHex b then some .hex3 else none
  | .hex3, b => if isHex b then some .hex2 else none
  | .hex2, b => if isHex b then some .hex1 else none
  | .hex1, b => if isHex b then some .chars else none
  | .tail1, b => if 0x80 ≤ b ∧ b ≤ 0xBF then some .chars else none
  | .tail2, b => if 0x80 ≤ b ∧ b ≤ 0xBF then some .tail1 else none
  | .tail3, b => if 0x80 ≤ b ∧ b ≤ 0xBF then some .tail2 else none
  | .afterE0, b => if 0xA0 ≤ b ∧ b ≤ 0xBF then some .tail1 else none
  | .afterED, b => if 0x80 ≤ b ∧ b ≤ 0x9F then some .tail1 else none
  | .afterF0, b => if 0x90 ≤ b ∧ b ≤ 0xBF then some .tail2 else none
  | .afterF4, b => if 0x80 ≤ b ∧ b ≤ 0x8F then some .tail2 else none

/-- The part that a byte continues a number with. -/
def Number.next : Number → UInt8 → Option Number
  | .minus, b => if b = 0x30 then some .zero else if isDigit b then some .int else none
  | .zero, b =>
      if b = 0x2E then some .point else if b = 0x65 ∨ b = 0x45 then some .exp else none
  | .int, b =>
      if isDigit b then some .int
      else if b = 0x2E then some .point
      else if b = 0x65 ∨ b = 0x45 then some .exp
      else none
  | .point, b => if isDigit b then some .frac else none
  | .frac, b =>
      if isDigit b then some .frac else if b = 0x65 ∨ b = 0x45 then some .exp else none
  | .exp, b =>
      if isDigit b then some .power else if b = 0x2B ∨ b = 0x2D then some .sign else none
  | .sign, b => if isDigit b then some .power else none
  | .power, b => if isDigit b then some .power else none

/-- A number may end here. -/
def Number.complete : Number → Bool
  | .zero | .int | .frac | .power => true
  | .minus | .point | .exp | .sign => false

def Literal.next : Literal → UInt8 → Option Mode
  | .rue, b => if b = 0x72 then some (.literal .ue) else none
  | .ue, b => if b = 0x75 then some (.literal .e) else none
  | .alse, b => if b = 0x61 then some (.literal .lse) else none
  | .lse, b => if b = 0x6C then some (.literal .se) else none
  | .se, b => if b = 0x73 then some (.literal .e) else none
  | .ull, b => if b = 0x75 then some (.literal .ll) else none
  | .ll, b => if b = 0x6C then some (.literal .l) else none
  | .l, b => if b = 0x6C then some .done else none
  | .e, b => if b = 0x65 then some .done else none

/-- The first byte of a value. -/
def startValue (frames : List Frame) (b : UInt8) : Option State :=
  if b = 0x7B then some ⟨.firstKey, .object :: frames⟩
  else if b = 0x5B then some ⟨.first, .array :: frames⟩
  else if b = 0x22 then some ⟨.text false .chars, frames⟩
  else if b = 0x2D then some ⟨.number .minus, frames⟩
  else if b = 0x30 then some ⟨.number .zero, frames⟩
  else if isDigit b then some ⟨.number .int, frames⟩
  else if b = 0x74 then some ⟨.literal .rue, frames⟩
  else if b = 0x66 then some ⟨.literal .alse, frames⟩
  else if b = 0x6E then some ⟨.literal .ull, frames⟩
  else none

/-- What may follow a value. -/
def afterValue (frames : List Frame) (b : UInt8) : Option State :=
  if isSpace b then some ⟨.done, frames⟩
  else
    match frames with
    | [] => none
    | .array :: outer =>
        if b = 0x2C then some ⟨.value, frames⟩
        else if b = 0x5D then some ⟨.done, outer⟩
        else none
    | .object :: outer =>
        if b = 0x2C then some ⟨.key, frames⟩
        else if b = 0x7D then some ⟨.done, outer⟩
        else none

def step : State → UInt8 → Option State
  | ⟨.value, frames⟩, b => if isSpace b then some ⟨.value, frames⟩ else startValue frames b
  | ⟨.first, frames⟩, b =>
      if isSpace b then some ⟨.first, frames⟩
      else if b = 0x5D then some ⟨.done, frames.tail⟩
      else startValue frames b
  | ⟨.key, frames⟩, b =>
      if isSpace b then some ⟨.key, frames⟩
      else if b = 0x22 then some ⟨.text true .chars, frames⟩
      else none
  | ⟨.firstKey, frames⟩, b =>
      if isSpace b then some ⟨.firstKey, frames⟩
      else if b = 0x22 then some ⟨.text true .chars, frames⟩
      else if b = 0x7D then some ⟨.done, frames.tail⟩
      else none
  | ⟨.colon, frames⟩, b =>
      if isSpace b then some ⟨.colon, frames⟩
      else if b = 0x3A then some ⟨.value, frames⟩
      else none
  | ⟨.done, frames⟩, b => afterValue frames b
  | ⟨.text isKey inside, frames⟩, b =>
      if inside = .chars ∧ b = 0x22 then some ⟨if isKey then .colon else .done, frames⟩
      else (inside.next b).map fun inside => ⟨.text isKey inside, frames⟩
  | ⟨.number part, frames⟩, b =>
      match part.next b with
      | some part => some ⟨.number part, frames⟩
      | none => if part.complete then afterValue frames b else none
  | ⟨.literal rest, frames⟩, b => (rest.next b).map fun mode => ⟨mode, frames⟩

/-- Read a text. -/
def run (s : State) (text : List UInt8) : Option State := text.foldlM step s

/-- The machine may stop here: behind one value, with nothing open. -/
def State.Final : State → Prop
  | ⟨.done, []⟩ => True
  | ⟨.number part, []⟩ => part.complete = true
  | _ => False

instance : DecidablePred State.Final := fun s => by
  unfold State.Final
  split <;> infer_instance

/-- The text is one JSON value, with space around it. -/
def WellFormed (text : List UInt8) : Prop := ∃ s, run ⟨.value, []⟩ text = some s ∧ s.Final

theorem wellFormed_iff (text : List UInt8) :
    WellFormed text ↔ (run ⟨.value, []⟩ text).any (fun s => decide s.Final) = true := by
  simp [WellFormed, Option.any_eq_true]

instance (text : List UInt8) : Decidable (WellFormed text) :=
  decidable_of_iff _ (wellFormed_iff text).symm

@[simp] theorem run_nil (s : State) : run s [] = some s := rfl

theorem run_cons (s : State) (b : UInt8) (text : List UInt8) :
    run s (b :: text) = (step s b).bind fun s => run s text := by
  simp only [run, List.foldlM_cons]
  rfl

theorem run_append (s : State) (front back : List UInt8) :
    run s (front ++ back) = (run s front).bind fun s => run s back := by
  simp only [run, List.foldlM_append]
  rfl

theorem run_append_of_run {s s' : State} {front : List UInt8} (hfront : run s front = some s')
    (back : List UInt8) : run s (front ++ back) = run s' back := by
  rw [run_append, hfront]
  rfl

theorem run_cons_of_step {s s' : State} {b : UInt8} (hstep : step s b = some s')
    (text : List UInt8) : run s (b :: text) = run s' text := by
  rw [run_cons, hstep]
  rfl

theorem run_cons_of_stuck {s : State} {b : UInt8} (hstep : step s b = none)
    (text : List UInt8) : run s (b :: text) = none := by
  rw [run_cons, hstep]
  rfl

/-! ## Numbers -/

/-- A number in decimal digits. -/
def decimal (n : Nat) : List UInt8 :=
  if n = 0 then [0x30] else (Nat.digits 10 n).reverse.map fun digit => UInt8.ofNat (0x30 + digit)

def signed (i : Int) : List UInt8 :=
  if i < 0 then 0x2D :: decimal i.natAbs else decimal i.natAbs

/-- A byte that ends a number. -/
def endsNumber (b : UInt8) : Bool := !isDigit b && b != 0x2E && b != 0x65 && b != 0x45

/-- A value may start here. -/
def Mode.Starts (mode : Mode) : Prop := mode = .value ∨ mode = .first

/-- A value, whatever it is in. -/
def Reads (item : List UInt8) : Prop :=
  ∀ (mode : Mode) (frames : List Frame) (b : UInt8) (rest : List UInt8), mode.Starts →
    endsNumber b = true → run ⟨mode, frames⟩ (item ++ b :: rest) = run ⟨.done, frames⟩ (b :: rest)

theorem step_digit {digit : Nat} (hdigit : digit < 10) (frames : List Frame) :
    step ⟨.number .int, frames⟩ (UInt8.ofNat (0x30 + digit)) = some ⟨.number .int, frames⟩ ∧
      (digit ≠ 0 → ∀ mode : Mode, mode.Starts ∨ mode = .number .minus →
        step ⟨mode, frames⟩ (UInt8.ofNat (0x30 + digit)) = some ⟨.number .int, frames⟩) := by
  interval_cases digit <;> refine ⟨rfl, fun hne mode hmode => ?_⟩ <;>
    first
    | exact absurd rfl hne
    | rcases hmode with (rfl | rfl) | rfl <;> rfl

theorem run_digits {digits : List Nat} (hdigits : ∀ digit ∈ digits, digit < 10)
    (frames : List Frame) :
    run ⟨.number .int, frames⟩ (digits.map fun digit => UInt8.ofNat (0x30 + digit)) =
      some ⟨.number .int, frames⟩ := by
  induction digits with
  | nil => rfl
  | cons digit digits ih =>
      rw [List.map_cons, run_cons_of_step (step_digit (hdigits _ List.mem_cons_self) frames).1]
      exact ih fun digit hdigit => hdigits digit (List.mem_cons_of_mem _ hdigit)

/-- Decimal digits make a number. -/
theorem run_decimal (n : Nat) {mode : Mode} (hmode : mode.Starts ∨ mode = .number .minus)
    (frames : List Frame) : ∃ part, (part = .zero ∨ part = .int) ∧
      run ⟨mode, frames⟩ (decimal n) = some ⟨.number part, frames⟩ := by
  by_cases hzero : n = 0
  · subst hzero
    refine ⟨.zero, .inl rfl, ?_⟩
    rcases hmode with (rfl | rfl) | rfl <;> rfl
  · have hne : (Nat.digits 10 n).reverse ≠ [] := by
      rw [Ne, List.reverse_eq_nil_iff]
      exact Nat.digits_ne_nil_iff_ne_zero.mpr hzero
    obtain ⟨digit, digits, hcons⟩ := List.exists_cons_of_ne_nil hne
    have hdigits : ∀ d ∈ digit :: digits, d < 10 := by
      intro d hd
      rw [← hcons, List.mem_reverse] at hd
      exact Nat.digits_lt_base (by decide) hd
    have hlast : digit ≠ 0 := by
      have hlast := Nat.getLast_digit_ne_zero 10 hzero
      rw [← List.head_reverse hne] at hlast
      simpa only [hcons, List.head_cons] using hlast
    refine ⟨.int, .inr rfl, ?_⟩
    rw [decimal, if_neg hzero, hcons, List.map_cons,
      run_cons_of_step ((step_digit (hdigits _ List.mem_cons_self) frames).2 hlast mode hmode)]
    exact run_digits (fun d hd => hdigits d (List.mem_cons_of_mem _ hd)) frames

theorem step_number_end {part : Number} (hpart : part = .zero ∨ part = .int) {b : UInt8}
    (hb : endsNumber b = true) (frames : List Frame) :
    step ⟨.number part, frames⟩ b = step ⟨.done, frames⟩ b := by
  simp only [endsNumber, Bool.and_eq_true, Bool.not_eq_true', bne_iff_ne] at hb
  obtain ⟨⟨⟨hdigit, hpoint⟩, hexp⟩, hexp'⟩ := hb
  rcases hpart with rfl | rfl <;>
    simp [step, Number.next, Number.complete, hdigit, hpoint, hexp, hexp']

/-- A number below a power of ten has at most as many digits. -/
theorem decimal_length_le {n k : Nat} (hk : 0 < k) (hn : n < 10 ^ k) : (decimal n).length ≤ k := by
  rw [decimal]
  split
  · exact hk
  · rw [List.length_map, List.length_reverse]
    exact (Nat.digits_length_le_iff (by decide) n).mpr hn

theorem reads_decimal (n : Nat) : Reads (decimal n) := by
  intro mode frames b rest hmode hb
  obtain ⟨part, hpart, hrun⟩ := run_decimal n (.inl hmode) frames
  rw [run_append_of_run hrun, run_cons, run_cons, step_number_end hpart hb]

theorem reads_signed (i : Int) : Reads (signed i) := by
  rw [signed]
  split
  next =>
    intro mode frames b rest hmode hb
    have hminus : step ⟨mode, frames⟩ 0x2D = some ⟨.number .minus, frames⟩ := by
      rcases hmode with rfl | rfl <;> rfl
    obtain ⟨part, hpart, hrun⟩ := run_decimal i.natAbs (.inr rfl) frames
    rw [List.cons_append, run_cons_of_step hminus, run_append_of_run hrun, run_cons, run_cons,
      step_number_end hpart hb]
  next => exact reads_decimal _

/-! ## Strings -/

theorem run_plain {chars : List UInt8} (hplain : ∀ b ∈ chars, isPlain b = true) (isKey : Bool)
    (frames : List Frame) :
    run ⟨.text isKey .chars, frames⟩ chars = some ⟨.text isKey .chars, frames⟩ := by
  induction chars with
  | nil => rfl
  | cons b chars ih =>
      have hb : isPlain b = true := hplain b List.mem_cons_self
      have hquote : b ≠ 0x22 := by
        rintro rfl
        exact absurd hb (by decide)
      have hstep : step ⟨.text isKey .chars, frames⟩ b = some ⟨.text isKey .chars, frames⟩ := by
        simp [step, Inside.next, hquote, hb]
      rw [run_cons_of_step hstep]
      exact ih fun b hb => hplain b (List.mem_cons_of_mem _ hb)

/-- A string of characters that stand for themselves. -/
theorem reads_string {chars : List UInt8} (hplain : ∀ b ∈ chars, isPlain b = true) :
    Reads (0x22 :: (chars ++ [0x22])) := by
  intro mode frames b rest hmode _
  have hopen : step ⟨mode, frames⟩ 0x22 = some ⟨.text false .chars, frames⟩ := by
    rcases hmode with rfl | rfl <;> rfl
  have hclose : step ⟨.text false .chars, frames⟩ 0x22 = some ⟨.done, frames⟩ := rfl
  rw [List.cons_append, run_cons_of_step hopen, List.append_assoc,
    run_append_of_run (run_plain hplain false frames), List.singleton_append,
    run_cons_of_step hclose]

/-! ## Arrays -/

/-- The inside of an array that is not empty. -/
def Fills (body : List UInt8) : Prop :=
  ∀ (mode : Mode) (frames : List Frame) (rest : List UInt8), mode.Starts →
    run ⟨mode, .array :: frames⟩ (body ++ 0x5D :: rest) = run ⟨.done, frames⟩ rest

theorem fills_last {item : List UInt8} (hitem : Reads item) : Fills item := by
  intro mode frames rest hmode
  rw [hitem mode _ _ _ hmode rfl]
  exact run_cons_of_step rfl _

theorem fills_more {item body : List UInt8} (hitem : Reads item) (hbody : Fills body) :
    Fills (item ++ 0x2C :: 0x20 :: body) := by
  intro mode frames rest hmode
  rw [List.append_assoc, List.cons_append, List.cons_append, hitem mode _ _ _ hmode rfl,
    run_cons_of_step (rfl : step ⟨.done, .array :: frames⟩ 0x2C = some ⟨.value, .array :: frames⟩),
    run_cons_of_step (rfl : step ⟨.value, .array :: frames⟩ 0x20 = some ⟨.value, .array :: frames⟩)]
  exact hbody _ _ _ (.inl rfl)

/-- The same with nothing but the comma in between. -/
theorem fills_comma {item body : List UInt8} (hitem : Reads item) (hbody : Fills body) :
    Fills (item ++ 0x2C :: body) := by
  intro mode frames rest hmode
  rw [List.append_assoc, List.cons_append, hitem mode _ _ _ hmode rfl,
    run_cons_of_step (rfl : step ⟨.done, .array :: frames⟩ 0x2C = some ⟨.value, .array :: frames⟩)]
  exact hbody _ _ _ (.inl rfl)

/-- An array with nothing inside, or with what fills it. -/
theorem run_array {body : List UInt8} (hbody : body = [] ∨ Fills body) (frames : List Frame)
    (rest : List UInt8) :
    run ⟨.first, .array :: frames⟩ (body ++ 0x5D :: rest) = run ⟨.done, frames⟩ rest := by
  rcases hbody with rfl | hbody
  · exact run_cons_of_step rfl _
  · exact hbody _ _ _ (.inr rfl)

theorem reads_array {body : List UInt8} (hbody : body = [] ∨ Fills body) :
    Reads (0x5B :: (body ++ [0x5D])) := by
  intro mode frames b rest hmode _
  have hopen : step ⟨mode, frames⟩ 0x5B = some ⟨.first, .array :: frames⟩ := by
    rcases hmode with rfl | rfl <;> rfl
  rw [List.cons_append, run_cons_of_step hopen, List.append_assoc, List.singleton_append,
    run_array hbody]

/-! ## Texts put between quotes as they are -/

/-- Texts that are put into the strings of an object as they are: read from inside a string,
each ends inside a string of an object, the last one where the first began. -/
def StayInside : List (List UInt8) → List Frame → Prop
  | [], frames => frames = []
  | chars :: rest, frames => ∃ frames',
      run ⟨.text false .chars, .object :: frames⟩ chars =
        some ⟨.text false .chars, .object :: frames'⟩ ∧ StayInside rest frames'

/-- The same inside of an object that lies in some frames: the last text ends at their depth. -/
def StayWithin (outer : List Frame) : List (List UInt8) → List Frame → Prop
  | [], frames => frames = outer
  | chars :: rest, frames => ∃ frames',
      run ⟨.text false .chars, .object :: frames⟩ chars =
        some ⟨.text false .chars, .object :: frames'⟩ ∧ StayWithin outer rest frames'

theorem stayWithin_nil_iff {texts : List (List UInt8)} {frames : List Frame} :
    StayWithin [] texts frames ↔ StayInside texts frames := by
  induction texts generalizing frames with
  | nil => exact Iff.rfl
  | cons chars texts ih =>
      apply exists_congr
      intro frames'
      exact and_congr_right fun _ => ih

theorem stayInside_of_plain {texts : List (List UInt8)}
    (hplain : ∀ chars ∈ texts, ∀ b ∈ chars, isPlain b = true) : StayInside texts [] := by
  induction texts with
  | nil => rfl
  | cons chars texts ih =>
      refine ⟨[], run_plain (hplain chars List.mem_cons_self) false _, ?_⟩
      exact ih fun chars hchars => hplain chars (List.mem_cons_of_mem _ hchars)

def isLetter (b : UInt8) : Bool := 0x61 ≤ b && b ≤ 0x7A

theorem afterValue_quote (frames : List Frame) : afterValue frames 0x22 = none := by
  rcases frames with _ | ⟨_ | _, outer⟩ <;> rfl

/-- A quote ends a string, or leaves the machine behind a key or in a string. -/
theorem step_quote_cases {mode : Mode} {frames : List Frame} {s : State}
    (hstep : step ⟨mode, frames⟩ 0x22 = some s) :
    mode = .text false .chars ∧ s = ⟨.done, frames⟩ ∨ s = ⟨.colon, frames⟩ ∨
      ∃ isKey, s = ⟨.text isKey .chars, frames⟩ := by
  cases mode with
  | value => exact .inr (.inr ⟨_, (Option.some.inj hstep).symm⟩)
  | first => exact .inr (.inr ⟨_, (Option.some.inj hstep).symm⟩)
  | key => exact .inr (.inr ⟨_, (Option.some.inj hstep).symm⟩)
  | firstKey => exact .inr (.inr ⟨_, (Option.some.inj hstep).symm⟩)
  | colon => cases hstep
  | done =>
      rw [step, afterValue_quote] at hstep
      cases hstep
  | text isKey inside =>
      cases inside with
      | chars =>
          cases isKey with
          | false => exact .inl ⟨rfl, (Option.some.inj hstep).symm⟩
          | true => exact .inr (.inl (Option.some.inj hstep).symm)
      | escape => exact .inr (.inr ⟨isKey, (Option.some.inj hstep).symm⟩)
      | hex4 | hex3 | hex2 | hex1 | tail1 | tail2 | tail3 | afterE0 | afterED | afterF0 | afterF4 =>
          cases hstep
  | number part =>
      have hnone : step ⟨.number part, frames⟩ 0x22 = none := by
        cases part <;> first | rfl | exact afterValue_quote frames
      rw [hnone] at hstep
      cases hstep
  | literal rest => cases rest <;> cases hstep

theorem stuck_at_letter {k : UInt8} (hk : isLetter k = true) (frames : List Frame) :
    step ⟨.done, frames⟩ k = none ∧ step ⟨.colon, frames⟩ k = none := by
  have hne : ∀ b : UInt8, isLetter b = false → k ≠ b := by
    rintro b hb rfl
    rw [hk] at hb
    cases hb
  have hspace : isSpace k = false := by
    simp [isSpace, hne 0x20 rfl, hne 0x09 rfl, hne 0x0A rfl, hne 0x0D rfl]
  constructor
  · rcases frames with _ | ⟨_ | _, outer⟩ <;>
      simp [step, afterValue, hspace, hne 0x2C rfl, hne 0x5D rfl, hne 0x7D rfl]
  · simp [step, hspace, hne 0x3A rfl]

/-- Inside a string there is no way over some space, a quote and a letter. -/
theorem run_text_stuck {gap : List UInt8} (hgap : ∀ b ∈ gap, isSpace b = true) {k : UInt8}
    (hk : isLetter k = true) (rest : List UInt8) (isKey : Bool) (frames : List Frame) :
    run ⟨.text isKey .chars, frames⟩ (gap ++ 0x22 :: k :: rest) = none := by
  induction gap with
  | nil =>
      obtain ⟨hdone, hcolon⟩ := stuck_at_letter hk frames
      cases isKey with
      | false =>
          exact (run_cons_of_step rfl _).trans (run_cons_of_stuck hdone rest)
      | true =>
          exact (run_cons_of_step rfl _).trans (run_cons_of_stuck hcolon rest)
  | cons b gap ih =>
      have hb : isSpace b = true := hgap b List.mem_cons_self
      simp only [isSpace, Bool.or_eq_true, beq_iff_eq] at hb
      obtain ((rfl | rfl) | rfl) | rfl := hb
      · exact (run_cons_of_step rfl _).trans (ih fun b hb => hgap b (List.mem_cons_of_mem _ hb))
      · exact run_cons_of_stuck rfl _
      · exact run_cons_of_stuck rfl _
      · exact run_cons_of_stuck rfl _

theorem run_space {mode : Mode} (hmode : mode = .value ∨ mode = .key ∨ mode = .done)
    {gap : List UInt8} (hgap : ∀ b ∈ gap, isSpace b = true) (frames : List Frame) :
    run ⟨mode, frames⟩ gap = some ⟨mode, frames⟩ := by
  induction gap with
  | nil => rfl
  | cons b gap ih =>
      have hb : isSpace b = true := hgap b List.mem_cons_self
      have hstep : step ⟨mode, frames⟩ b = some ⟨mode, frames⟩ := by
        rcases hmode with rfl | rfl | rfl <;> simp [step, afterValue, hb]
      rw [run_cons_of_step hstep]
      exact ih fun b hb => hgap b (List.mem_cons_of_mem _ hb)

/-- Behind the end of a string, a comma and the next key, the machine has been inside a
string of an object. -/
theorem inside_of_run_key {s : State} {gap name rest : List UInt8} {k : UInt8}
    (hgap : ∀ b ∈ gap, isSpace b = true) (hk : isLetter k = true)
    (hname : ∀ b ∈ k :: name, isPlain b = true)
    (hrun : run s (0x22 :: 0x2C :: (gap ++ 0x22 :: k :: (name ++ 0x22 :: 0x3A :: rest))) ≠ none) :
    ∃ frames, s = ⟨.text false .chars, .object :: frames⟩ := by
  obtain ⟨mode, frames⟩ := s
  cases hquote : step ⟨mode, frames⟩ 0x22 with
  | none => exact absurd (run_cons_of_stuck hquote _) hrun
  | some s =>
      rw [run_cons_of_step hquote] at hrun
      obtain ⟨rfl, rfl⟩ | rfl | ⟨isKey, rfl⟩ := step_quote_cases hquote
      · rcases frames with _ | ⟨_ | _, outer⟩
        · exact absurd (run_cons_of_stuck rfl _) hrun
        · -- in an array, the key is a value, and no colon may follow
          refine absurd ?_ hrun
          have hstring : (0x22 :: k :: (name ++ 0x22 :: 0x3A :: rest) : List UInt8) =
              (0x22 :: ((k :: name) ++ [0x22])) ++ 0x3A :: rest := by simp
          rw [run_cons_of_step rfl, run_append_of_run (run_space (.inl rfl) hgap _), hstring,
            reads_string hname _ _ _ _ (.inl rfl) rfl]
          exact run_cons_of_stuck rfl _
        · exact ⟨outer, rfl⟩
      · exact absurd (run_cons_of_stuck rfl _) hrun
      · exact absurd ((run_cons_of_step rfl _).trans (run_text_stuck hgap hk _ isKey frames)) hrun

/-- Closing braces complete the text if as many objects are open. -/
theorem run_closers (k : Nat) (frames : List Frame) :
    (∃ s, run ⟨.done, frames⟩ (List.replicate k 0x7D) = some s ∧ s.Final) ↔
      frames = List.replicate k .object := by
  induction k generalizing frames with
  | zero => cases frames <;> simp [State.Final]
  | succ k ih =>
      rw [List.replicate_succ, List.replicate_succ]
      rcases frames with _ | ⟨_ | _, outer⟩
      · simp [run_cons_of_stuck (rfl : step ⟨.done, []⟩ 0x7D = none)]
      · simp [run_cons_of_stuck (rfl : step ⟨.done, .array :: outer⟩ 0x7D = none)]
      · rw [run_cons_of_step (rfl : step ⟨.done, .object :: outer⟩ 0x7D = some ⟨.done, outer⟩), ih]
        simp

/-- Behind the end of a string and of some objects the text is complete if the machine has been
inside a string of the innermost one. -/
theorem closes_iff_inside {s : State} {gap : List UInt8} (hgap : ∀ b ∈ gap, isSpace b = true)
    (k : Nat) :
    (∃ s', run s (0x22 :: (gap ++ List.replicate (k + 1) 0x7D)) = some s' ∧ s'.Final) ↔
      s = ⟨.text false .chars, List.replicate (k + 1) .object⟩ := by
  have hdone : ∀ frames, run ⟨.done, frames⟩ (gap ++ List.replicate (k + 1) 0x7D) =
      run ⟨.done, frames⟩ (List.replicate (k + 1) 0x7D) := fun frames =>
    run_append_of_run (run_space (.inr (.inr rfl)) hgap _) _
  constructor
  · rintro ⟨s', hrun, hfinal⟩
    obtain ⟨mode, frames⟩ := s
    cases hquote : step ⟨mode, frames⟩ 0x22 with
    | none =>
        rw [run_cons_of_stuck hquote] at hrun
        cases hrun
    | some t =>
        rw [run_cons_of_step hquote] at hrun
        obtain ⟨rfl, rfl⟩ | rfl | ⟨isKey, rfl⟩ := step_quote_cases hquote
        · rw [hdone] at hrun
          rw [(run_closers (k + 1) frames).mp ⟨s', hrun, hfinal⟩]
        · -- behind a key there is no brace
          induction gap with
          | nil => cases hrun
          | cons b gap ih =>
              have hb : isSpace b = true := hgap b List.mem_cons_self
              have hstep : step ⟨.colon, frames⟩ b = some ⟨.colon, frames⟩ := by simp [step, hb]
              rw [List.cons_append, run_cons_of_step hstep] at hrun
              refine ih (fun b hb => hgap b (List.mem_cons_of_mem _ hb)) (fun frames => ?_) hrun
              exact run_append_of_run
                (run_space (.inr (.inr rfl)) (fun b hb => hgap b (List.mem_cons_of_mem _ hb)) _) _
        · -- in a string a brace stands for itself
          have hstay : ∀ n, run ⟨.text isKey .chars, frames⟩ (List.replicate n 0x7D) =
              some ⟨.text isKey .chars, frames⟩ := fun n =>
            run_plain (fun b hb => by rw [List.eq_of_mem_replicate hb]; rfl) isKey frames
          clear hdone
          induction gap with
          | nil =>
              rw [List.nil_append, hstay] at hrun
              cases hrun
              exact absurd hfinal id
          | cons b gap ih =>
              have hb : isSpace b = true := hgap b List.mem_cons_self
              simp only [isSpace, Bool.or_eq_true, beq_iff_eq] at hb
              obtain ((rfl | rfl) | rfl) | rfl := hb
              · rw [List.cons_append, run_cons_of_step rfl] at hrun
                exact ih (fun b hb => hgap b (List.mem_cons_of_mem _ hb)) hrun
              · cases hrun
              · cases hrun
              · cases hrun
  · rintro rfl
    have hquote : step ⟨.text false .chars, List.replicate (k + 1) .object⟩ 0x22 =
        some ⟨.done, List.replicate (k + 1) .object⟩ := rfl
    rw [run_cons_of_step hquote, hdone]
    exact (run_closers (k + 1) _).mpr rfl

/-- A line feed leaves the machine in front of a value only if it is there already. -/
theorem step_lineFeed {s : State} {frames : List Frame}
    (hstep : step s 0x0A = some ⟨.value, frames⟩) : s = ⟨.value, frames⟩ := by
  obtain ⟨mode, inner⟩ := s
  cases mode with
  | value =>
      cases hstep
      rfl
  | first | key | firstKey | colon | done => cases hstep
  | text isKey inside => cases inside <;> cases hstep
  | number part => cases part <;> cases hstep
  | literal rest => cases rest <;> cases hstep

/-- The way from inside a string of an object into its next string, and from nowhere else. -/
structure IsLink (link : List UInt8) : Prop where
  run_link : ∀ frames, run ⟨.text false .chars, .object :: frames⟩ link =
    some ⟨.text false .chars, .object :: frames⟩
  inside : ∀ s, run s link ≠ none → ∃ frames, s = ⟨.text false .chars, .object :: frames⟩

/-- Texts put between quotes: some with what comes behind them, and a last one. -/
def quoted (last ending : List UInt8) : List (List UInt8 × List UInt8) → List UInt8
  | [] => last ++ ending
  | (chars, link) :: more => chars ++ (link ++ quoted last ending more)

/-- The rest of an object with such texts, and of the objects that it lies in, is well formed if
they stay inside its strings. -/
theorem quoted_closes_iff (last : List UInt8) (more : List (List UInt8 × List UInt8))
    {gap : List UInt8} (hgap : ∀ b ∈ gap, isSpace b = true) (hmore : ∀ entry ∈ more, IsLink entry.2)
    (k : Nat) (frames : List Frame) :
    (∃ s, run ⟨.text false .chars, .object :: frames⟩
        (quoted last (0x22 :: (gap ++ List.replicate (k + 1) 0x7D)) more) = some s ∧ s.Final) ↔
      StayWithin (List.replicate k .object) (more.map Prod.fst ++ [last]) frames := by
  induction more generalizing frames with
  | nil =>
      rw [quoted, run_append, List.map_nil, List.nil_append, StayWithin]
      cases hlast : run ⟨.text false .chars, .object :: frames⟩ last with
      | none => simp
      | some s =>
          rw [Option.bind_some, closes_iff_inside hgap]
          constructor
          · rintro rfl
            exact ⟨_, rfl, rfl⟩
          · rintro ⟨frames', hs, rfl⟩
            exact Option.some.inj hs
  | cons entry more ih =>
      obtain ⟨chars, link⟩ := entry
      have hlink : IsLink link := hmore _ List.mem_cons_self
      have hrest := ih fun entry hentry => hmore entry (List.mem_cons_of_mem _ hentry)
      rw [quoted, run_append, List.map_cons, List.cons_append, StayWithin]
      cases hchars : run ⟨.text false .chars, .object :: frames⟩ chars with
      | none => simp
      | some s =>
          rw [Option.bind_some]
          constructor
          · rintro ⟨s', hrun, hfinal⟩
            have hinside : run s link ≠ none := by
              intro hnone
              rw [run_append, hnone] at hrun
              cases hrun
            obtain ⟨frames', rfl⟩ := hlink.inside s hinside
            rw [run_append_of_run (hlink.run_link frames')] at hrun
            exact ⟨frames', rfl, (hrest frames').mp ⟨s', hrun, hfinal⟩⟩
          · rintro ⟨frames', hs, hstay⟩
            obtain rfl := Option.some.inj hs
            obtain ⟨s', hrun, hfinal⟩ := (hrest frames').mpr hstay
            exact ⟨s', by rw [run_append_of_run (hlink.run_link frames'), hrun], hfinal⟩

/-- The same for an object that lies in nothing. -/
theorem quoted_final_iff (last : List UInt8) (more : List (List UInt8 × List UInt8))
    {gap : List UInt8} (hgap : ∀ b ∈ gap, isSpace b = true) (hmore : ∀ entry ∈ more, IsLink entry.2)
    (frames : List Frame) :
    (∃ s, run ⟨.text false .chars, .object :: frames⟩
        (quoted last (0x22 :: (gap ++ [0x7D])) more) = some s ∧ s.Final) ↔
      StayInside (more.map Prod.fst ++ [last]) frames :=
  (quoted_closes_iff last more hgap hmore 0 frames).trans stayWithin_nil_iff

theorem isLink_of_key (gap name rest : List UInt8) (k : UInt8)
    (hgap : ∀ b ∈ gap, isSpace b = true) (hk : isLetter k = true)
    (hname : ∀ b ∈ k :: name, isPlain b = true)
    (hrun : ∀ frames, run ⟨.text false .chars, .object :: frames⟩
      (0x22 :: 0x2C :: (gap ++ 0x22 :: k :: (name ++ 0x22 :: 0x3A :: rest))) =
        some ⟨.text false .chars, .object :: frames⟩) :
    IsLink (0x22 :: 0x2C :: (gap ++ 0x22 :: k :: (name ++ 0x22 :: 0x3A :: rest))) :=
  ⟨hrun, fun _ => inside_of_run_key hgap hk hname⟩

/-- The front of a link already shows where it starts. -/
theorem isLink_append {front back : List UInt8}
    (hinside : ∀ s, run s front ≠ none → ∃ frames, s = ⟨.text false .chars, .object :: frames⟩)
    (hrun : ∀ frames, run ⟨.text false .chars, .object :: frames⟩ (front ++ back) =
      some ⟨.text false .chars, .object :: frames⟩) : IsLink (front ++ back) := by
  refine ⟨hrun, fun s hs => hinside s fun hnone => hs ?_⟩
  rw [run_append, hnone]
  rfl

/-! ## Members -/

/-- A value between two texts. -/
theorem run_member {s s' : State} {frames : List Frame} {before item after : List UInt8}
    (hbefore : run s before = some ⟨.value, frames⟩) (hitem : Reads item)
    (hends : after.head?.any endsNumber = true) (hafter : run ⟨.done, frames⟩ after = some s') :
    run s (before ++ item ++ after) = some s' := by
  cases after with
  | nil => cases hends
  | cons b rest => rw [List.append_assoc, run_append_of_run hbefore,
      hitem _ _ _ _ (.inl rfl) hends, hafter]

/-- A text that is read to its end is a value. -/
theorem reads_of_run {item : List UInt8}
    (hrun : ∀ mode frames, mode.Starts → run ⟨mode, frames⟩ item = some ⟨.done, frames⟩) :
    Reads item := fun mode frames _ _ hmode _ => run_append_of_run (hrun mode frames hmode) _

/-- An object whose last member is an array. -/
theorem wellFormed_array {start body : List UInt8}
    (hstart : run ⟨.value, []⟩ start = some ⟨.first, [.array, .object]⟩)
    (hbody : body = [] ∨ Fills body) : WellFormed (start ++ (body ++ [0x5D, 0x7D])) :=
  ⟨⟨.done, []⟩, by rw [run_append_of_run hstart, run_array hbody]; rfl, trivial⟩

/-- Plain characters between two texts. -/
theorem run_quoted {s s' : State} {frames : List Frame} {before chars after : List UInt8}
    (hbefore : run s before = some ⟨.text false .chars, frames⟩)
    (hplain : ∀ b ∈ chars, isPlain b = true)
    (hafter : run ⟨.text false .chars, frames⟩ after = some s') :
    run s (before ++ chars ++ after) = some s' := by
  rw [List.append_assoc, run_append_of_run hbefore,
    run_append_of_run (run_plain hplain false frames), hafter]

end Json
