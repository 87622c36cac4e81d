/- GID: MiniRedis/Base/Eviction
   generality: G
   digest: Selecting by least rank again and again removes a shortest sufficient prefix. -/

import Mathlib.Algebra.Order.Ring.Nat
import Mathlib.Data.List.MinMax

set_option autoImplicit false
set_option relaxedAutoImplicit false

namespace MiniRedis.Base

variable {α : Type} {rank rank' : α → ℕ} {l l' : List α}

theorem argmin_eq_some {a : α} (member : a ∈ l) (least : ∀ b ∈ l, b ≠ a → rank a < rank b) :
    l.argmin rank = some a := by
  cases found : l.argmin rank with
  | none => simp [List.argmin_eq_none.mp found] at member
  | some b =>
    have selected := Option.mem_def.mpr found
    by_contra different
    have hne : b ≠ a := fun h => different (by rw [h])
    have hlt := least b (List.argmin_mem selected) hne
    exact absurd (List.le_of_mem_argmin member selected) (not_le.mpr hlt)

/-- Scans of the same elements select the same one where the ranks are distinct and, whatever
their values are, order the elements alike. -/
theorem argmin_congr (perm : l.Perm l')
    (alike : ∀ a ∈ l, ∀ b ∈ l, rank a < rank b → rank' a < rank' b)
    (distinct : ∀ a ∈ l, ∀ b ∈ l, rank a = rank b → a = b) :
    l.argmin rank = l'.argmin rank' := by
  cases found : l.argmin rank with
  | none =>
    have empty := List.argmin_eq_none.mp found
    subst empty
    rw [List.nil_perm.mp perm]
    rfl
  | some a =>
    have selected := Option.mem_def.mpr found
    have member := List.argmin_mem selected
    refine (argmin_eq_some (perm.mem_iff.mp member) (fun b hb hne => ?_)).symm
    have hb' := perm.mem_iff.mpr hb
    refine alike a member b hb' (lt_of_le_of_ne (List.le_of_mem_argmin hb' selected) (fun h => hne ?_))
    exact (distinct a member b hb' h).symm

/-- How many elements a loop drops from the front until the rest, beside a fixed part that
stays, is within the limit. -/
def shortestCut (own limit : ℕ) : List ℕ → ℕ
  | [] => 0
  | size :: sizes => if own + (size :: sizes).sum ≤ limit then 0 else shortestCut own limit sizes + 1

theorem shortestCut_le_length (own limit : ℕ) (sizes : List ℕ) :
    shortestCut own limit sizes ≤ sizes.length := by
  induction sizes with
  | nil => exact le_refl _
  | cons size sizes ih =>
    unfold shortestCut
    split
    · exact Nat.zero_le _
    · exact Nat.succ_le_succ ih

/-- Where the fixed part fits, the loop stops at the shortest prefix that suffices. -/
theorem shortestCut_fits {own limit : ℕ} (possible : own ≤ limit) (sizes : List ℕ) :
    own + (sizes.drop (shortestCut own limit sizes)).sum ≤ limit := by
  induction sizes with
  | nil => simpa [shortestCut] using possible
  | cons size sizes ih =>
    unfold shortestCut
    split
    · assumption
    · exact ih

theorem shortestCut_shortest (own limit : ℕ) (sizes : List ℕ) {n : ℕ}
    (shorter : n < shortestCut own limit sizes) : limit < own + (sizes.drop n).sum := by
  induction sizes generalizing n with
  | nil => simp [shortestCut] at shorter
  | cons size sizes ih =>
    unfold shortestCut at shorter
    split at shorter
    · exact (Nat.not_lt_zero n shorter).elim
    · rename_i exceeds
      cases n with
      | zero => exact not_le.mp exceeds
      | succ n => exact ih (Nat.lt_of_succ_lt_succ shorter)

theorem shortestCut_eq_length {own limit : ℕ} (impossible : limit < own) (sizes : List ℕ) :
    shortestCut own limit sizes = sizes.length := by
  induction sizes with
  | nil => rfl
  | cons size sizes ih =>
    unfold shortestCut
    rw [if_neg (by omega), ih]
    rfl

/-! ### Filling under a limit -/

/-- One size put into a container that is dropped whole once it exceeds the limit beside a
fixed part; what was dropped starts again from nothing. -/
def packed (own limit : ℕ) (held : Option ℕ) (size : ℕ) : Option ℕ :=
  if own + (held.getD 0 + size) ≤ limit then some (held.getD 0 + size) else none

end MiniRedis.Base
