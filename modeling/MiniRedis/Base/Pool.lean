/- GID: MiniRedis/Base/Pool
   generality: G
   digest: Lists as pools to take elements from, and partial functions as tables to update. -/

import Mathlib.Data.List.Perm.Basic
import Mathlib.Logic.Function.Basic

set_option autoImplicit false
set_option relaxedAutoImplicit false

namespace MiniRedis.Base

variable {α : Type}

/-- The element at the position, with the pool that it leaves. -/
def pick : List α → ℕ → Option (α × List α)
  | [], _ => none
  | a :: rest, 0 => some (a, rest)
  | a :: rest, i + 1 => (pick rest i).map (fun taken => (taken.1, a :: taken.2))

theorem pick_perm {l : List α} {i : ℕ} {taken : α × List α} (picked : pick l i = some taken) :
    l.Perm (taken.1 :: taken.2) := by
  induction l generalizing i taken with
  | nil => cases picked
  | cons a rest ih =>
    cases i with
    | zero =>
      cases picked
      exact .refl _
    | succ i =>
      obtain ⟨inner, found, rfl⟩ := Option.map_eq_some_iff.mp picked
      exact ((ih found).cons a).trans (.swap _ _ _)

theorem mem_of_pick {l : List α} {i : ℕ} {taken : α × List α} (picked : pick l i = some taken) :
    taken.1 ∈ l :=
  (pick_perm picked).mem_iff.mpr List.mem_cons_self

theorem mem_of_mem_picked {l : List α} {i : ℕ} {taken : α × List α}
    (picked : pick l i = some taken) {a : α} (remaining : a ∈ taken.2) : a ∈ l :=
  (pick_perm picked).mem_iff.mpr (List.mem_cons_of_mem _ remaining)

theorem eq_or_mem_of_picked {l : List α} {i : ℕ} {taken : α × List α}
    (picked : pick l i = some taken) {a : α} (member : a ∈ l) : a = taken.1 ∨ a ∈ taken.2 :=
  List.mem_cons.mp ((pick_perm picked).mem_iff.mp member)

/-! ### Tables -/

variable {ι β : Type} [DecidableEq ι] {table : ι → Option β} {i j : ι} {entry : Option β} {b : β}

theorem update_eq_some (found : Function.update table i entry j = some b) :
    j = i ∧ entry = some b ∨ j ≠ i ∧ table j = some b := by
  by_cases same : j = i
  · subst same
    rw [Function.update_self] at found
    exact Or.inl ⟨rfl, found⟩
  · rw [Function.update_of_ne same] at found
    exact Or.inr ⟨same, found⟩

theorem update_none_eq_some (found : Function.update table i none j = some b) :
    j ≠ i ∧ table j = some b := by
  rcases update_eq_some found with ⟨-, none⟩ | old
  · cases none
  · exact old

theorem update_none_eq_none (absent : table j = none) : Function.update table i none j = none := by
  by_cases same : j = i
  · rw [same, Function.update_self]
  · rw [Function.update_of_ne same, absent]

end MiniRedis.Base
