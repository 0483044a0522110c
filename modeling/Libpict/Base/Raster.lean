import Libpict.Base.Reader

/-! # Loops over a raster

Counted loops of readers, and the cells of a raster in the order of its rows. A cell is a
column and a row, and its index in memory is that of a raster of some width. A column just
behind the last one has an index too: that of the next row's first cell.
-/

namespace Reader

variable {β ε α : Type} {start : Int} {window : List β}

/-- `for (k = 0; k < n; k++)`. -/
def upTo (body : Nat → α → Reader β ε α) : Nat → α → Reader β ε α
  | 0, a => done a
  | n + 1, a => do
      let b ← upTo body n a
      body n b

variable {body : Nat → α → Reader β ε α} {n : Nat} {a : α}

/-- What every round passes on to the next one holds at the end. -/
theorem returns_upTo {P : Nat → α → Prop} (hfirst : P 0 a)
    (hround : ∀ k < n, ∀ b, P k b → (body k b).Returns start window (P (k + 1))) :
    (upTo body n a).Returns start window (P n) := by
  induction n with
  | zero => exact (returns_done a _).mpr hfirst
  | succ n ih =>
      obtain ⟨b, hview, hb⟩ := ih fun k hk => hround k (Nat.lt_succ_of_lt hk)
      rw [upTo, returns_bind]
      exact ⟨b, hview, hround n (Nat.lt_succ_self n) b hb⟩

/-- A loop stops where one of its rounds does. -/
theorem upTo_stops {k : Nat} {reason : ε} (hk : k < n)
    (hstop : (upTo body k a).Returns start window fun b =>
      (body k b).view start window = some (.error reason)) :
    (upTo body n a).view start window = some (.error reason) := by
  induction n with
  | zero => exact absurd hk (Nat.not_lt_zero k)
  | succ n ih =>
      rw [upTo, view_bind]
      rcases Nat.lt_succ_iff_lt_or_eq.mp hk with hlt | rfl
      · rw [ih hlt]
      · obtain ⟨b, hview, hreason⟩ := hstop
        rw [hview]
        exact hreason

end Reader

namespace Raster

/-- The index of a cell in a raster of the width. -/
def index (width column row : Nat) : Nat := row * width + column

/-- A cell comes before another, row by row. -/
def Before (column row column' row' : Nat) : Prop := row < row' ∨ row = row' ∧ column < column'

variable {width height column row column' row' : Nat}

theorem not_before_first : ¬Before column row 0 0 := by
  rintro (hrow | ⟨_, hcolumn⟩)
  · exact Nat.not_lt_zero _ hrow
  · exact Nat.not_lt_zero _ hcolumn

theorem before_succ : Before column row (column' + 1) row' ↔
    Before column row column' row' ∨ column = column' ∧ row = row' := by
  unfold Before
  omega

/-- What comes before the end of a row comes before the next one. -/
theorem before_next_row (hcolumn : column < width) :
    Before column row width row' ↔ Before column row 0 (row' + 1) := by
  unfold Before
  omega

theorem index_succ : index width (column + 1) row = index width column row + 1 := rfl

theorem index_lt (hcolumn : column < width) (hrow : row < height) :
    index width column row < height * width := by
  calc row * width + column < row * width + width := Nat.add_lt_add_left hcolumn _
    _ = (row + 1) * width := (Nat.succ_mul row width).symm
    _ ≤ height * width := Nat.mul_le_mul_right width hrow

theorem index_mod (hcolumn : column < width) : index width column row % width = column := by
  rw [index, Nat.mul_add_mod_self_right, Nat.mod_eq_of_lt hcolumn]

theorem index_div (hcolumn : column < width) : index width column row / width = row := by
  rw [index, Nat.mul_comm, Nat.mul_add_div (Nat.zero_lt_of_lt hcolumn), Nat.div_eq_of_lt hcolumn,
    Nat.add_zero]

/-- The index of a cell is its own. -/
theorem index_inj (hcolumn : column < width) (hcolumn' : column' < width) :
    index width column row = index width column' row' ↔ column = column' ∧ row = row' := by
  constructor
  · intro heq
    constructor
    · exact (index_mod hcolumn).symm.trans ((congrArg (· % width) heq).trans (index_mod hcolumn'))
    · exact (index_div hcolumn).symm.trans ((congrArg (· / width) heq).trans (index_div hcolumn'))
  · rintro ⟨rfl, rfl⟩
    rfl

/-- One column too many is the first one of the next row. -/
theorem index_width : index width width row = index width 0 (row + 1) := by
  rw [index, index, Nat.succ_mul, Nat.add_zero]

end Raster
