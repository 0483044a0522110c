import Mathlib.Data.List.Destutter
import Mathlib.Data.List.SplitBy
import Mathlib.Tactic.Common

/-! # Streams of frames

A stream is cut into frames by the sizes that the frames themselves carry, frames are put
into groups by those that start one, and groups that come several times in a row are one
group that was repeated.
-/

namespace Frames

variable {α : Type*}

/-! ## Cutting a stream -/

/-- Cut a stream into frames, and leave what is not a whole frame. `size` reads the size of
the frame at the front, if enough of it has come to tell. -/
def cut (size : List α → Option Nat) (stream : List α) : List (List α) × List α :=
  match size stream with
  | none => ([], stream)
  | some n =>
      if _h : 0 < n ∧ n ≤ stream.length then
        (stream.take n :: (cut size (stream.drop n)).1, (cut size (stream.drop n)).2)
      else ([], stream)
termination_by stream.length
decreasing_by all_goals simp only [List.length_drop]; omega

variable {size : List α → Option Nat}

/-- A frame tells its own size, whatever follows it. -/
structure IsFrame (size : List α → Option Nat) (frame : List α) : Prop where
  ne_nil : frame ≠ []
  size : ∀ rest, size (frame ++ rest) = some frame.length

theorem IsFrame.cut_append {frame : List α} (hframe : IsFrame size frame) (rest : List α) :
    cut size (frame ++ rest) = (frame :: (cut size rest).1, (cut size rest).2) := by
  have hlength : 0 < frame.length ∧ frame.length ≤ (frame ++ rest).length := by
    rw [List.length_append]
    exact ⟨List.length_pos_of_ne_nil hframe.ne_nil, Nat.le_add_right _ _⟩
  rw [cut, hframe.size rest]
  dsimp only
  rw [dif_pos hlength, List.take_left, List.drop_left]

/-- A stream of frames is cut into these frames. -/
theorem cut_flatten_append {frames : List (List α)} (hframes : ∀ frame ∈ frames, IsFrame size frame)
    (rest : List α) :
    cut size (frames.flatten ++ rest) = (frames ++ (cut size rest).1, (cut size rest).2) := by
  induction frames with
  | nil => rfl
  | cons frame frames ih =>
      obtain ⟨hframe, hrest⟩ := List.forall_mem_cons.mp hframes
      rw [List.flatten_cons, List.append_assoc, hframe.cut_append, ih hrest]
      rfl

theorem cut_flatten (hnil : size [] = none) {frames : List (List α)}
    (hframes : ∀ frame ∈ frames, IsFrame size frame) : cut size frames.flatten = (frames, []) := by
  have hcut : cut size [] = ([], []) := by rw [cut, hnil]
  rw [← List.append_nil frames.flatten, cut_flatten_append hframes, hcut, List.append_nil]

/-! ## Groups -/

/-- A group is a frame that starts one and those behind it that do not. -/
def IsGroup (starts : α → Bool) : List α → Prop
  | [] => False
  | frame :: frames => starts frame = true ∧ ∀ next ∈ frames, starts next = false

/-- The groups of a stream of frames. -/
def groups (starts : α → Bool) (frames : List α) : List (List α) :=
  frames.splitBy fun _ next => !starts next

theorem IsGroup.ne_nil {starts : α → Bool} {group : List α} (hgroup : IsGroup starts group) :
    group ≠ [] := by
  rintro rfl
  exact hgroup

theorem IsGroup.isChain {starts : α → Bool} {group : List α} (hgroup : IsGroup starts group) :
    group.IsChain fun _ next => (!starts next) = true := by
  cases group with
  | nil => exact .nil
  | cons frame frames =>
      rw [List.isChain_cons]
      refine ⟨fun next hnext => ?_, ?_⟩
      · rw [hgroup.2 next (List.mem_of_mem_head? hnext)]
        rfl
      · refine List.Pairwise.isChain (List.Pairwise.imp_of_mem (R := fun _ _ => True) ?_ ?_)
        · intro a b _ hb _
          rw [hgroup.2 b hb]
          rfl
        · exact List.pairwise_of_forall fun _ _ => trivial

/-- Groups that follow each other are found again. -/
theorem groups_flatten {starts : α → Bool} {gs : List (List α)}
    (hgroups : ∀ group ∈ gs, IsGroup starts group) : groups starts gs.flatten = gs := by
  refine List.splitBy_flatten (fun hnil => hgroups [] hnil) (fun group h => (hgroups group h).isChain) ?_
  refine List.Pairwise.isChain (List.Pairwise.imp_of_mem (R := fun _ _ => True) ?_ ?_)
  · intro first second hfirst hsecond _
    refine ⟨(hgroups first hfirst).ne_nil, (hgroups second hsecond).ne_nil, ?_⟩
    have hsecond := hgroups second hsecond
    cases second with
    | nil => exact hsecond.elim
    | cons frame frames =>
        rw [List.head_cons, hsecond.1]
        rfl
  · exact List.pairwise_of_forall fun _ _ => trivial

/-! ## Repeats -/

/-- Every item of the first list comes once or twice in the second. -/
inductive Repeated : List α → List α → Prop
  | nil : Repeated [] []
  | once {x : α} {xs ys : List α} : Repeated xs ys → Repeated (x :: xs) (x :: ys)
  | twice {x : α} {xs ys : List α} : Repeated xs ys → Repeated (x :: xs) (x :: x :: ys)

theorem Repeated.forall_mem {p : α → Prop} {xs ys : List α} (hrepeated : Repeated xs ys)
    (hall : ∀ x ∈ xs, p x) : ∀ y ∈ ys, p y := by
  induction hrepeated with
  | nil => exact hall
  | once _ ih =>
      obtain ⟨hfirst, hrest⟩ := List.forall_mem_cons.mp hall
      exact List.forall_mem_cons.mpr ⟨hfirst, ih hrest⟩
  | twice _ ih =>
      obtain ⟨hfirst, hrest⟩ := List.forall_mem_cons.mp hall
      exact List.forall_mem_cons.mpr ⟨hfirst, List.forall_mem_cons.mpr ⟨hfirst, ih hrest⟩⟩

/-- Where no two neighbours are equal, the repeats can be told and dropped. -/
theorem Repeated.destutter [DecidableEq α] {xs ys : List α} (hrepeated : Repeated xs ys)
    (hchain : xs.IsChain (· ≠ ·)) : ys.destutter (· ≠ ·) = xs := by
  have hbehind : ∀ {xs ys : List α} (x : α), Repeated xs ys → (x :: xs).IsChain (· ≠ ·) →
      ys.destutter' (· ≠ ·) x = x :: xs := by
    intro xs ys x hrepeated
    induction hrepeated generalizing x with
    | nil => exact fun _ => rfl
    | @once y xs ys _ ih =>
        intro hchain
        obtain ⟨hne, hrest⟩ := List.isChain_cons_cons.mp hchain
        rw [List.destutter'_cons_pos _ hne, ih y hrest]
    | @twice y xs ys _ ih =>
        intro hchain
        obtain ⟨hne, hrest⟩ := List.isChain_cons_cons.mp hchain
        rw [List.destutter'_cons_pos _ hne, List.destutter'_cons_neg _ (not_not.mpr rfl), ih y hrest]
  cases hrepeated with
  | nil => rfl
  | once hrest =>
      rw [List.destutter_cons']
      exact hbehind _ hrest hchain
  | twice hrest =>
      rw [List.destutter_cons', List.destutter'_cons_neg _ (not_not.mpr rfl)]
      exact hbehind _ hrest hchain

/-- Groups of frames, each sent once or twice, are what the stream says that were sent. -/
theorem destutter_groups_cut [DecidableEq α] (hnil : size [] = none) {starts : List α → Bool}
    {sent : List (List (List α))} {told : List (List (List α))} (hrepeated : Repeated sent told)
    (hframes : ∀ group ∈ sent, ∀ frame ∈ group, IsFrame size frame)
    (hgroups : ∀ group ∈ sent, IsGroup starts group) (hchain : sent.IsChain (· ≠ ·)) :
    (groups starts (cut size told.flatten.flatten).1).destutter (· ≠ ·) = sent := by
  have hall : ∀ frame ∈ told.flatten, IsFrame size frame := by
    intro frame hframe
    obtain ⟨group, hgroup, hmem⟩ := List.mem_flatten.mp hframe
    exact hrepeated.forall_mem hframes group hgroup frame hmem
  rw [cut_flatten hnil hall, groups_flatten (hrepeated.forall_mem hgroups)]
  exact hrepeated.destutter hchain

end Frames
