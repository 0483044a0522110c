import Mathlib.Data.List.Forall2
import Mathlib.Data.List.Induction
import Mathlib.Data.List.Nodup
import Mathlib.Logic.Function.Basic
import Mathlib.Tactic.Common

/-! # Lists of keyed entries

A list whose entries carry a key, searched from the front. An entry is put into it by
replacing the first entry with the same key, or in front of the list if there is none.
What is found after a history of puts is the last entry put under a key.
-/

namespace Keyed

variable {κ α : Type} [DecidableEq κ] (key : α → κ)

/-- The first entry with the key. -/
def find (k : κ) (entries : List α) : Option α := entries.find? fun entry => key entry = k

/-- Put the entry in the place of the first one with its key. -/
def replace (entry : α) : List α → List α
  | [] => []
  | first :: rest => if key first = key entry then entry :: rest else first :: replace entry rest

def put (entry : α) (entries : List α) : List α :=
  if (find key (key entry) entries).isSome then replace key entry entries else entry :: entries

/-- The last entry of a history under the key. -/
def last (k : κ) (history : List α) : Option α := find key k history.reverse

section Find

variable {key} {k : κ} {entry first : α} {entries : List α}

@[simp] theorem find_nil : find key k [] = none := rfl

theorem find_cons :
    find key k (first :: entries) = if key first = k then some first else find key k entries := by
  unfold find
  rw [List.find?_cons]
  split
  next h => rw [if_pos (of_decide_eq_true h)]
  next h => rw [if_neg (of_decide_eq_false h)]

theorem key_of_find (hfind : find key k entries = some entry) : key entry = k := by
  simpa using List.find?_some hfind

theorem mem_of_find (hfind : find key k entries = some entry) : entry ∈ entries :=
  List.mem_of_find?_eq_some hfind

theorem find_eq_none : find key k entries = none ↔ ∀ entry ∈ entries, key entry ≠ k := by
  simp [find]

end Find

/-! ## Putting entries -/

section Put

variable {key} {k : κ} {entry : α} {entries : List α}

@[simp] theorem map_key_replace : (replace key entry entries).map key = entries.map key := by
  induction entries with
  | nil => rfl
  | cons first rest ih =>
      rw [replace]
      split
      next hsame => rw [List.map_cons, List.map_cons, hsame]
      next => rw [List.map_cons, List.map_cons, ih]

theorem find_replace : find key k (replace key entry entries) =
    if key entry = k ∧ (find key k entries).isSome then some entry else find key k entries := by
  induction entries with
  | nil => simp [replace]
  | cons first rest ih =>
      rw [replace]
      split
      next hsame =>
        rw [find_cons, find_cons, hsame]
        split
        next hk => simp [hk]
        next hk => simp [hk]
      next hother =>
        rw [find_cons, find_cons, ih]
        split
        next hk => simp [show key entry ≠ k from fun h => hother (hk.trans h.symm)]
        next => rfl

/-- Putting an entry changes what is found under its key only. -/
theorem find_put : find key k (put key entry entries) =
    if key entry = k then some entry else find key k entries := by
  unfold put
  split
  next hpresent =>
    rw [find_replace]
    by_cases hk : key entry = k
    · subst hk
      rw [if_pos ⟨rfl, hpresent⟩, if_pos rfl]
    · rw [if_neg fun h => hk h.1, if_neg hk]
  next => exact find_cons

theorem put_ne_nil : put key entry entries ≠ [] := by
  intro hempty
  have hfound : find key (key entry) (put key entry entries) = some entry := by
    rw [find_put, if_pos rfl]
  rw [hempty] at hfound
  cases hfound

theorem nodup_put (hdistinct : (entries.map key).Nodup) :
    ((put key entry entries).map key).Nodup := by
  unfold put
  split
  next => rwa [map_key_replace]
  next habsent =>
    rw [Option.not_isSome_iff_eq_none, find_eq_none] at habsent
    rw [List.map_cons, List.nodup_cons]
    refine ⟨fun hmem => ?_, hdistinct⟩
    obtain ⟨other, hother, hsame⟩ := List.mem_map.mp hmem
    exact habsent other hother hsame

theorem mem_of_mem_put {other : α} (hmem : other ∈ put key entry entries) :
    other = entry ∨ other ∈ entries := by
  unfold put at hmem
  split at hmem
  next =>
    induction entries with
    | nil => cases hmem
    | cons first rest ih =>
        rename_i hpresent
        rw [replace] at hmem
        split at hmem
        next => exact (List.mem_cons.mp hmem).imp_right (List.mem_cons_of_mem first)
        next hother =>
          rcases List.mem_cons.mp hmem with rfl | hrest
          · exact .inr List.mem_cons_self
          · rw [find_cons, if_neg hother] at hpresent
            exact (ih hpresent hrest).imp_right (List.mem_cons_of_mem first)
  next => exact List.mem_cons.mp hmem

theorem last_append_singleton {history : List α} :
    last key k (history ++ [entry]) = if key entry = k then some entry else last key k history := by
  rw [last, List.reverse_append, List.reverse_singleton, List.singleton_append, find_cons]
  rfl

/-- Puts make a map in which the last one wins. -/
theorem find_foldl_put {history : List α} :
    find key k (history.foldl (fun entries entry => put key entry entries) []) =
      last key k history := by
  induction history using List.reverseRecOn with
  | nil => rfl
  | append_singleton history entry ih =>
      rw [List.foldl_concat, find_put, last_append_singleton, ih]

theorem nodup_foldl_put {history : List α} :
    ((history.foldl (fun entries entry => put key entry entries) []).map key).Nodup := by
  induction history using List.reverseRecOn with
  | nil => exact List.nodup_nil
  | append_singleton history entry ih =>
      rw [List.foldl_concat]
      exact nodup_put ih

theorem mem_of_mem_foldl_put {history : List α}
    (hmem : entry ∈ history.foldl (fun entries entry => put key entry entries) []) :
    entry ∈ history := by
  induction history using List.reverseRecOn with
  | nil => exact hmem
  | append_singleton history newest ih =>
      rw [List.foldl_concat] at hmem
      rcases mem_of_mem_put hmem with rfl | hold
      · exact List.mem_append_right _ List.mem_cons_self
      · exact List.mem_append_left _ (ih hold)

end Put

/-! ## Related lists -/

section Related

variable {α β : Type} {key : α → κ} {key' : β → κ} {R : α → β → Prop}
  (hkey : ∀ a b, R a b → key a = key' b)

include hkey

/-- Lists of entries that are related one by one find related entries. -/
theorem find_forall₂ {xs : List α} {ys : List β} (hrelated : List.Forall₂ R xs ys) (k : κ) :
    Option.Rel R (find key k xs) (find key' k ys) := by
  induction hrelated with
  | nil => exact .none
  | cons hfirst _ ih =>
      rw [find_cons, find_cons, hkey _ _ hfirst]
      split
      next => exact .some hfirst
      next => exact ih

theorem forall₂_replace {xs : List α} {ys : List β} (hrelated : List.Forall₂ R xs ys) {a : α}
    {b : β} (hnew : R a b) : List.Forall₂ R (replace key a xs) (replace key' b ys) := by
  induction hrelated with
  | nil => exact .nil
  | cons hfirst hrest ih =>
      rw [replace, replace, hkey _ _ hfirst, hkey _ _ hnew]
      split
      next => exact .cons hnew hrest
      next => exact .cons hfirst ih

end Related

end Keyed
