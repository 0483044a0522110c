import Mathlib.Data.List.Basic
import Mathlib.Data.Int.Notation
import Mathlib.Tactic.Common

/-! # Computations that read memory

A reader asks for stretches of memory and goes on with what it finds there, until it
has a result or stops. It can be run on a memory, and its requests collected; and it can
be viewed on a window of known contents, where it either comes to an end or asks for
something outside. The view decides both what a run on any memory that shows the window
returns and whether it stays inside.
-/

inductive Reader (β ε α : Type)
  | done (a : α)
  | stop (reason : ε)
  | load (offset size : Int) (next : List β → Reader β ε α)

namespace Reader

variable {β ε α γ : Type}

protected def bind : Reader β ε α → (α → Reader β ε γ) → Reader β ε γ
  | done a, f => f a
  | stop reason, _ => stop reason
  | load offset size next, f => load offset size fun found => (next found).bind f

instance : Monad (Reader β ε) where
  pure := done
  bind := Reader.bind

@[simp] theorem pure_eq (a : α) : (pure a : Reader β ε α) = done a := rfl

@[simp] theorem done_bind (a : α) (f : α → Reader β ε γ) : (done a >>= f) = f a := rfl

@[simp] theorem stop_bind (reason : ε) (f : α → Reader β ε γ) :
    (stop reason >>= f) = stop reason := rfl

@[simp] theorem load_bind (offset size : Int) (next : List β → Reader β ε α)
    (f : α → Reader β ε γ) :
    (load offset size next >>= f) = load offset size fun found => next found >>= f := rfl

theorem bind_assoc {δ : Type} (x : Reader β ε α) (f : α → Reader β ε γ) (g : γ → Reader β ε δ) :
    (x >>= f) >>= g = x >>= fun a => f a >>= g := by
  induction x with
  | done a => rfl
  | stop reason => rfl
  | load offset size next ih =>
      simp only [load_bind]
      congr 1
      funext found
      exact ih found

/-- Read some memory. -/
def read (offset size : Int) : Reader β ε (List β) := load offset size done

def ofExcept : Except ε α → Reader β ε α
  | .ok a => done a
  | .error reason => stop reason

/-! ## Runs -/

/-- A memory answers a request for `size` elements at an offset. -/
abbrev Memory (β ε : Type) := Int → Int → Except ε (List β)

def run (memory : Memory β ε) : Reader β ε α → Except ε α
  | done a => .ok a
  | stop reason => .error reason
  | load offset size next =>
      match memory offset size with
      | .ok found => (next found).run memory
      | .error reason => .error reason

/-- The requests of a run, the last one included that the memory does not answer. -/
def reads (memory : Memory β ε) : Reader β ε α → List (Int × Int)
  | done _ => []
  | stop _ => []
  | load offset size next => (offset, size) ::
      match memory offset size with
      | .ok found => (next found).reads memory
      | .error _ => []

theorem run_read (memory : Memory β ε) (offset size : Int) :
    (read offset size).run memory = memory offset size := by
  rw [read, run.eq_def]
  dsimp only
  cases memory offset size with
  | error reason => rfl
  | ok found => rfl

theorem run_bind (memory : Memory β ε) (x : Reader β ε α) (f : α → Reader β ε γ) :
    (x >>= f).run memory = x.run memory >>= fun a => (f a).run memory := by
  induction x with
  | done a => rfl
  | stop reason => rfl
  | load offset size next ih =>
      simp only [load_bind, run]
      cases memory offset size with
      | error reason => rfl
      | ok found => exact ih found

/-- What a run finds in one memory it finds in every memory that answers at least as much. -/
theorem run_mono {memory memory' : Memory β ε}
    (hanswers : ∀ {offset size found}, memory offset size = .ok found →
      memory' offset size = .ok found) {x : Reader β ε α} {a : α}
    (hrun : x.run memory = .ok a) : x.run memory' = .ok a := by
  induction x with
  | done => exact hrun
  | stop => cases hrun
  | load offset size next ih =>
      rw [run] at hrun ⊢
      cases hload : memory offset size with
      | error reason =>
          rw [hload] at hrun
          cases hrun
      | ok found =>
          rw [hload] at hrun
          rw [hanswers hload]
          exact ih found hrun

/-- The same for a reader that starts with something already read. -/
theorem run_ofExcept_mono {memory memory' : Memory β ε} {x x' : Except ε α}
    {f f' : α → Reader β ε γ} (hx : ∀ {a}, x = .ok a → x' = .ok a)
    (hf : ∀ {a c}, (f a).run memory = .ok c → (f' a).run memory' = .ok c) {c : γ}
    (hrun : (ofExcept x >>= f).run memory = .ok c) : (ofExcept x' >>= f').run memory' = .ok c := by
  cases hfirst : x with
  | error reason =>
      rw [hfirst] at hrun
      cases hrun
  | ok a =>
      rw [hfirst] at hrun
      rw [hx hfirst]
      exact hf hrun

/-! ## Views -/

/-- The request lies in a window of `length` elements. -/
def Inside (start : Int) (length : Nat) (request : Int × Int) : Prop :=
  start ≤ request.1 ∧ 0 ≤ request.2 ∧ request.1 + request.2 ≤ start + length

instance (start : Int) (length : Nat) (request : Int × Int) :
    Decidable (Inside start length request) := inferInstanceAs (Decidable (_ ∧ _))

/-- Run on a window that starts at `start`; `none` is a request outside. -/
def view (start : Int) (window : List β) : Reader β ε α → Option (Except ε α)
  | done a => some (.ok a)
  | stop reason => some (.error reason)
  | load offset size next =>
      if Inside start window.length (offset, size) then
        (next ((window.drop (offset - start).toNat).take size.toNat)).view start window
      else none

/-- The memory has the window at `start`. -/
def Shows (memory : Memory β ε) (start : Int) (window : List β) : Prop :=
  ∀ offset size : Nat, offset + size ≤ window.length →
    memory (start + offset) size = .ok ((window.drop offset).take size)

/-- The memory that has nothing but a window at 0. -/
def only (fault : ε) (window : List β) : Memory β ε := fun offset size =>
  if Inside 0 window.length (offset, size) then
    .ok ((window.drop offset.toNat).take size.toNat)
  else .error fault

theorem only_shows (fault : ε) (window : List β) : Shows (only fault window) 0 window := by
  intro offset size hle
  have hinside : Inside 0 window.length ((0 : Int) + offset, (size : Int)) :=
    ⟨by dsimp only; omega, by dsimp only; omega, by dsimp only; omega⟩
  rw [only, if_pos hinside, Int.zero_add, Int.toNat_natCast, Int.toNat_natCast]

/-- A request inside finds the same in a longer window. -/
theorem only_append {fault : ε} {window : List β} (rest : List β) {size : Nat}
    (hle : size ≤ window.length) : only fault (window ++ rest) 0 size = only fault window 0 size := by
  have hinside : Inside 0 window.length (0, (size : Int)) :=
    ⟨Int.le_refl 0, by dsimp only; omega, by dsimp only; omega⟩
  have hinside' : Inside 0 (window ++ rest).length (0, (size : Int)) :=
    ⟨Int.le_refl 0, by dsimp only; omega, by rw [List.length_append]; dsimp only; omega⟩
  rw [only, only, if_pos hinside, if_pos hinside', Int.toNat_zero, Int.toNat_natCast,
    List.drop_zero, List.drop_zero, List.take_append_of_le_length hle]

section View

variable {start : Int} {window : List β}

@[simp] theorem view_done (a : α) : (done a : Reader β ε α).view start window = some (.ok a) := rfl

@[simp] theorem view_stop (reason : ε) :
    (stop reason : Reader β ε α).view start window = some (.error reason) := rfl

theorem view_bind (x : Reader β ε α) (f : α → Reader β ε γ) :
    (x >>= f).view start window = match x.view start window with
      | some (.ok a) => (f a).view start window
      | some (.error reason) => some (.error reason)
      | none => none := by
  induction x with
  | done a => rfl
  | stop reason => rfl
  | load offset size next ih =>
      simp only [load_bind, view]
      split
      · exact ih _
      · rfl

theorem view_bind_ok {x : Reader β ε α} {f : α → Reader β ε γ} {a : α}
    (hx : x.view start window = some (.ok a)) :
    (x >>= f).view start window = (f a).view start window := by rw [view_bind, hx]

theorem view_bind_eq_ok {x : Reader β ε α} {f : α → Reader β ε γ} {c : γ} :
    (x >>= f).view start window = some (.ok c) ↔
      ∃ a, x.view start window = some (.ok a) ∧ (f a).view start window = some (.ok c) := by
  rw [view_bind]
  constructor
  · intro hview
    split at hview
    next a hx => exact ⟨a, hx, hview⟩
    next => cases hview
    next => cases hview
  · rintro ⟨a, hx, hf⟩
    rw [hx]
    exact hf

/-- On the window the reader ends, with a result that has the property. -/
def Returns (start : Int) (window : List β) (x : Reader β ε α) (post : α → Prop) : Prop :=
  ∃ a, x.view start window = some (.ok a) ∧ post a

@[simp] theorem returns_done (a : α) (post : α → Prop) :
    (done a : Reader β ε α).Returns start window post ↔ post a := by
  constructor
  · rintro ⟨b, hview, hpost⟩
    cases hview
    exact hpost
  · exact fun hpost => ⟨a, rfl, hpost⟩

@[simp] theorem returns_stop (reason : ε) (post : α → Prop) :
    (stop reason : Reader β ε α).Returns start window post ↔ False := by
  constructor
  · rintro ⟨b, hview, _⟩
    cases hview
  · exact False.elim

theorem returns_bind (x : Reader β ε α) (f : α → Reader β ε γ) (post : γ → Prop) :
    (x >>= f).Returns start window post ↔
      x.Returns start window fun a => (f a).Returns start window post := by
  constructor
  · rintro ⟨c, hview, hpost⟩
    obtain ⟨a, hx, hf⟩ := view_bind_eq_ok.mp hview
    exact ⟨a, hx, c, hf, hpost⟩
  · rintro ⟨a, hx, c, hf, hpost⟩
    exact ⟨c, view_bind_eq_ok.mpr ⟨a, hx, hf⟩, hpost⟩

/-- What is said about the result can be replaced by what is as good. -/
theorem returns_congr {x : Reader β ε α} {post post' : α → Prop} (hpost : ∀ a, post a ↔ post' a) :
    x.Returns start window post ↔ x.Returns start window post' := by
  rw [funext fun a => propext (hpost a)]

/-- A request inside finds the elements of the window. -/
theorem view_read {offset size : Nat} (hle : offset + size ≤ window.length) :
    (read (start + offset) size : Reader β ε (List β)).view start window =
      some (.ok ((window.drop offset).take size)) := by
  have hinside : Inside start window.length (start + offset, (size : Int)) :=
    ⟨by dsimp only; omega, by dsimp only; omega, by dsimp only; omega⟩
  simp only [read, view, if_pos hinside]
  rw [show (start + (offset : Int) - start).toNat = offset by omega, Int.toNat_natCast]

theorem view_read_outside {offset size : Int} (houtside : ¬Inside start window.length (offset, size)) :
    (read offset size : Reader β ε (List β)).view start window = none := by
  simp only [read, view, if_neg houtside]

variable {memory : Memory β ε} (hshows : Shows memory start window)

include hshows

theorem Shows.found {offset size : Int} (hinside : Inside start window.length (offset, size)) :
    memory offset size = .ok ((window.drop (offset - start).toNat).take size.toNat) := by
  obtain ⟨hlow, hsize, hhigh⟩ := hinside
  have hfound := hshows (offset - start).toNat size.toNat (by dsimp only at *; omega)
  dsimp only at *
  rwa [show start + ((offset - start).toNat : Int) = offset by omega,
    show ((size.toNat : Nat) : Int) = size by omega] at hfound

/-- On a memory that shows the window, a view that ends is the run. -/
theorem run_of_view {x : Reader β ε α} {result : Except ε α}
    (hview : x.view start window = some result) : x.run memory = result := by
  induction x with
  | done a => exact Option.some.inj hview
  | stop reason => exact Option.some.inj hview
  | load offset size next ih =>
      rw [view] at hview
      split at hview
      next hinside =>
        rw [run, hshows.found hinside]
        exact ih _ hview
      next => cases hview

/-- The run stays inside the window exactly if the view ends. -/
theorem inside_iff_view {x : Reader β ε α} :
    (∀ request ∈ x.reads memory, Inside start window.length request) ↔
      x.view start window ≠ none := by
  induction x with
  | done a => simp [reads]
  | stop reason => simp [reads]
  | load offset size next ih =>
      rw [view, reads, List.forall_mem_cons]
      by_cases hinside : Inside start window.length (offset, size)
      · rw [if_pos hinside, hshows.found hinside, ← ih]
        exact and_iff_right hinside
      · rw [if_neg hinside]
        exact iff_of_false (fun h => hinside h.1) fun h => h rfl

/-- The view is the run and that it stays inside. -/
theorem view_eq_some_iff {x : Reader β ε α} {result : Except ε α} :
    x.view start window = some result ↔
      x.run memory = result ∧ ∀ request ∈ x.reads memory, Inside start window.length request := by
  constructor
  · intro hview
    exact ⟨run_of_view hshows hview, (inside_iff_view hshows).mpr fun h => by rw [hview] at h; cases h⟩
  · rintro ⟨hrun, hinside⟩
    obtain ⟨other, hview⟩ := Option.ne_none_iff_exists'.mp ((inside_iff_view hshows).mp hinside)
    rw [hview, ← run_of_view hshows hview, hrun]

/-- The reader ends on the window exactly if the run returns and stays inside. -/
theorem returns_iff {x : Reader β ε α} {post : α → Prop} :
    x.Returns start window post ↔ ∃ a, x.run memory = .ok a ∧
      (∀ request ∈ x.reads memory, Inside start window.length request) ∧ post a := by
  constructor
  · rintro ⟨a, hview, hpost⟩
    obtain ⟨hrun, hinside⟩ := (view_eq_some_iff hshows).mp hview
    exact ⟨a, hrun, hinside, hpost⟩
  · rintro ⟨a, hrun, hinside, hpost⟩
    exact ⟨a, (view_eq_some_iff hshows).mpr ⟨hrun, hinside⟩, hpost⟩

end View

/-! ## Readers that never look back -/

/-- Every request is at `start` or behind it, whatever the ones in front of it find, and a
result has the property. -/
def Behind (start : Int) (post : α → Prop) : Reader β ε α → Prop
  | done a => post a
  | stop _ => True
  | load offset _ next => start ≤ offset ∧ ∀ found, (next found).Behind start post

section Behind

variable {start : Int} {post : α → Prop} {x : Reader β ε α}

theorem behind_pure {a : α} (hpost : post a) : (pure a : Reader β ε α).Behind start post := hpost

theorem behind_stop (reason : ε) : (stop reason : Reader β ε α).Behind start post := trivial

theorem behind_read {offset size : Int} (hle : start ≤ offset) :
    (read offset size : Reader β ε (List β)).Behind start fun _ => True :=
  ⟨hle, fun _ => trivial⟩

theorem Behind.bind {f : α → Reader β ε γ} {post' : γ → Prop} (hx : x.Behind start post)
    (hf : ∀ a, post a → (f a).Behind start post') : (x >>= f).Behind start post' := by
  induction x with
  | done a => exact hf a hx
  | stop reason => trivial
  | load offset size next ih => exact ⟨hx.1, fun found => ih found (hx.2 found)⟩

/-- Where a memory ends with its window, a run that returns has stayed in the window. -/
theorem Behind.view_of_run {memory : Memory β ε} {window : List β} {a : α}
    (hbehind : x.Behind start post) (hshows : Shows memory start window)
    (hends : ∀ offset size found, memory offset size = .ok found → start ≤ offset →
      Inside start window.length (offset, size))
    (hrun : x.run memory = .ok a) : x.view start window = some (.ok a) := by
  induction x with
  | done b => exact congrArg some hrun
  | stop reason => cases hrun
  | load offset size next ih =>
      rw [run] at hrun
      split at hrun
      next found hfound =>
        have hinside := hends offset size found hfound hbehind.1
        cases hfound.symm.trans (hshows.found hinside)
        rw [view, if_pos hinside]
        exact ih _ (hbehind.2 _) hrun
      next => cases hrun

end Behind

/-- A run on nothing but a window that returns has stayed inside. -/
theorem run_only_eq_ok {fault : ε} {window : List β} {x : Reader β ε α} {a : α} :
    x.run (only fault window) = .ok a ↔ x.view 0 window = some (.ok a) := by
  constructor
  · intro hrun
    induction x with
    | done b => exact congrArg some hrun
    | stop reason => cases hrun
    | load offset size next ih =>
        rw [run] at hrun
        rw [view]
        split at hrun
        next found hfound =>
          rw [only] at hfound
          split at hfound
          next hinside =>
            rw [if_pos hinside]
            cases hfound
            rw [Int.sub_zero]
            exact ih _ hrun
          next => cases hfound
        next => cases hrun
  · exact run_of_view (only_shows fault window)

end Reader
