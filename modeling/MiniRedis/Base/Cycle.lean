/- GID: MiniRedis/Base/Cycle
   generality: G
   digest: A choice that repeats is taken equally often in every window as long as its period. -/

import Mathlib.Data.List.Basic

set_option autoImplicit false
set_option relaxedAutoImplicit false

namespace MiniRedis.Base

variable {α : Type} {period : ℕ}

theorem countP_range'_of_periodic {choice : ℕ → Bool}
    (periodic : ∀ i, choice (i + period) = choice i) (first : ℕ) :
    (List.range' first period).countP choice = (List.range period).countP choice := by
  induction first with
  | zero => rw [List.range_eq_range']
  | succ first ih =>
    have front : List.range' first (period + 1) = first :: List.range' (first + 1) period :=
      List.range'_succ
    have back : List.range' first (period + 1) = List.range' first period ++ [first + period] :=
      List.range'_1_concat
    have both := congrArg (List.countP choice) (front.symm.trans back)
    rw [List.countP_cons, List.countP_append, List.countP_singleton, periodic first, ih] at both
    omega

theorem window_map_range (f : ℕ → α) {total first size : ℕ} (inside : first + size ≤ total) :
    (((List.range total).map f).drop first).take size = (List.range' first size).map f := by
  obtain ⟨rest, rfl⟩ := Nat.exists_eq_add_of_le inside
  rw [← List.map_drop, ← List.map_take]
  congr 1
  apply List.ext_getElem
  · simp
    omega
  · intro i short _
    simp

/-- A periodic choice of places is taken as often in every window as among the first places. -/
theorem countP_window_of_periodic (f : ℕ → α) (choice : α → Bool)
    (periodic : ∀ i, choice (f (i + period)) = choice (f i)) {total first : ℕ}
    (inside : first + period ≤ total) :
    ((((List.range total).map f).drop first).take period).countP choice =
      (List.range period).countP (fun i => choice (f i)) := by
  rw [window_map_range f inside, List.countP_map]
  exact countP_range'_of_periodic (fun i => periodic i) first

end MiniRedis.Base
