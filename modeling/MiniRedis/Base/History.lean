/- GID: MiniRedis/Base/History
   generality: G
   digest: Histories with one entry for each event: their order, and what they make of a state. -/

import Mathlib.Data.List.Perm.Basic

set_option autoImplicit false
set_option relaxedAutoImplicit false

namespace MiniRedis.Base

variable {α β : Type}

/-- The first event comes before the second. -/
def Before (history : List α) (a b : α) : Prop := [a, b].Sublist history

theorem Before.not_swapped {history : List α} (nodup : history.Nodup) {a b : α}
    (before : Before history a b) : ¬ Before history b a := by
  induction history with
  | nil => cases before
  | cons c history ih =>
    obtain ⟨fresh, nodup⟩ := List.nodup_cons.mp nodup
    intro swapped
    unfold Before at before swapped
    rcases List.sublist_cons_iff.mp before with within | ⟨rest, same, tail⟩
    · rcases List.sublist_cons_iff.mp swapped with within' | ⟨rest', same', -⟩
      · exact ih nodup within within'
      · cases same'
        exact fresh (within.subset (List.mem_cons_of_mem _ List.mem_cons_self))
    · cases same
      rcases List.sublist_cons_iff.mp swapped with within' | ⟨rest', same', -⟩
      · exact fresh (within'.subset (List.mem_cons_of_mem _ List.mem_cons_self))
      · cases same'
        exact fresh (tail.subset List.mem_cons_self)

theorem eq_of_same_order {history history' : List α} (perm : history.Perm history')
    (nodup : history.Nodup) (ordered : ∀ a b, Before history' a b → Before history a b) :
    history = history' := by
  have antisymm : ∀ a b, a ∈ history → b ∈ history' →
      Before history a b → Before history b a → a = b :=
    fun _ _ _ _ before swapped => (before.not_swapped nodup swapped).elim
  exact List.Perm.eq_of_pairwise antisymm (List.pairwise_of_forall_sublist id)
    (List.pairwise_of_forall_sublist (ordered _ _)) perm

/-- Events that leave the state alone may be left out of its history. -/
theorem foldl_filter_of_unchanged {step : β → α → β} {matters : α → Bool}
    (unchanged : ∀ a b, matters a = false → step b a = b) (history : List α) (b : β) :
    (history.filter matters).foldl step b = history.foldl step b := by
  induction history generalizing b with
  | nil => rfl
  | cons a history ih =>
    cases important : matters a with
    | false =>
      rw [List.filter_cons_of_neg (by simp [important]), List.foldl_cons, unchanged a b important]
      exact ih b
    | true =>
      rw [List.filter_cons_of_pos important, List.foldl_cons, List.foldl_cons]
      exact ih (step b a)

end MiniRedis.Base
