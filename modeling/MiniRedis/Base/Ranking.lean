/- GID: MiniRedis/Base/Ranking
   generality: G
   digest: What stands where in a sorted list is told by counting. -/

import Mathlib.Data.List.Sort
import Mathlib.Order.Bounds.Basic

set_option autoImplicit false
set_option relaxedAutoImplicit false

namespace MiniRedis.Base

variable {α : Type} [LinearOrder α]

theorem insertionSort_eq_of_perm {l l' : List α} (perm : l.Perm l') :
    l.insertionSort (· ≤ ·) = l'.insertionSort (· ≤ ·) := by
  have sorted : (l.insertionSort (· ≤ ·)).Perm (l'.insertionSort (· ≤ ·)) :=
    (List.perm_insertionSort _ l).trans (perm.trans (List.perm_insertionSort _ l').symm)
  exact sorted.eq_of_pairwise' (List.pairwise_insertionSort _ l)
    (List.pairwise_insertionSort _ l')

/-! ### Positions -/

omit [LinearOrder α] in
private theorem split_at {l : List α} {i : ℕ} {v : α} (there : l[i]? = some v) :
    ∃ front rest, l = front ++ v :: rest ∧ front.length = i := by
  obtain ⟨inside, rfl⟩ := List.getElem?_eq_some_iff.mp there
  refine ⟨l.take i, l.drop (i + 1), ?_, List.length_take_of_le inside.le⟩
  rw [← List.drop_eq_getElem_cons inside, List.take_append_drop]

private theorem countP_lt_le {l : List α} (sorted : l.Pairwise (· ≤ ·)) {i : ℕ} {v : α}
    (there : l[i]? = some v) : l.countP (· < v) ≤ i := by
  obtain ⟨front, rest, rfl, rfl⟩ := split_at there
  obtain ⟨-, later, -⟩ := List.pairwise_append.mp sorted
  have none : (v :: rest).countP (· < v) = 0 := by
    rw [List.countP_eq_zero]
    intro a member
    rcases List.mem_cons.mp member with rfl | member
    · simp
    · have above := (List.pairwise_cons.mp later).1 a member
      simpa using above
  rw [List.countP_append, none]
  exact List.countP_le_length

private theorem lt_countP_le {l : List α} (sorted : l.Pairwise (· ≤ ·)) {i : ℕ} {v : α}
    (there : l[i]? = some v) : i < l.countP (· ≤ v) := by
  obtain ⟨front, rest, rfl, rfl⟩ := split_at there
  obtain ⟨-, -, below⟩ := List.pairwise_append.mp sorted
  have all : front.countP (· ≤ v) = front.length := by
    rw [List.countP_eq_length]
    intro a member
    exact decide_eq_true (below a member v List.mem_cons_self)
  rw [List.countP_append, all, List.countP_cons, if_pos (decide_eq_true (le_refl v))]
  omega

/-- What stands at a position of the sorted list: as many as the position says, at most, are
smaller, and more are not greater. -/
theorem getElem?_insertionSort_iff {l : List α} {i : ℕ} {v : α} :
    (l.insertionSort (· ≤ ·))[i]? = some v ↔ l.countP (· < v) ≤ i ∧ i < l.countP (· ≤ v) := by
  have perm := List.perm_insertionSort (· ≤ ·) l
  have sorted := List.pairwise_insertionSort (· ≤ ·) l
  rw [← perm.countP_eq, ← perm.countP_eq]
  generalize l.insertionSort (· ≤ ·) = ordered at sorted
  constructor
  · exact fun there => ⟨countP_lt_le sorted there, lt_countP_le sorted there⟩
  · rintro ⟨few, many⟩
    have inside : i < ordered.length := many.trans_le List.countP_le_length
    have there : ordered[i]? = some ordered[i] := List.getElem?_eq_getElem inside
    have few' := countP_lt_le sorted there
    have many' := lt_countP_le sorted there
    rw [there]
    generalize ordered[i] = w at few' many'
    -- Two values that differ cannot both be at one position: all that are not greater than the
    -- one are smaller than the other.
    rcases lt_trichotomy v w with less | rfl | greater
    · have fewer : ordered.countP (· ≤ v) ≤ ordered.countP (· < w) :=
        List.countP_mono_left (fun a _ below =>
          decide_eq_true ((of_decide_eq_true below).trans_lt less))
      omega
    · rfl
    · have fewer : ordered.countP (· ≤ w) ≤ ordered.countP (· < v) :=
        List.countP_mono_left (fun a _ below =>
          decide_eq_true ((of_decide_eq_true below).trans_lt greater))
      omega

/-! ### Searches -/

theorem find?_insertionSort_eq_some_iff {l : List α} {p : α → Bool} {v : α} :
    (l.insertionSort (· ≤ ·)).find? p = some v ↔ IsLeast {a | a ∈ l ∧ p a = true} v := by
  have members : ∀ a, a ∈ l.insertionSort (· ≤ ·) ↔ a ∈ l := fun a => List.mem_insertionSort _
  have first : ∀ w, (l.insertionSort (· ≤ ·)).find? p = some w →
      IsLeast {a | a ∈ l ∧ p a = true} w := by
    intro w found
    obtain ⟨holds, front, rest, split, before⟩ := List.find?_eq_some_iff_append.mp found
    refine ⟨⟨(members w).mp (by simp [split]), holds⟩, ?_⟩
    rintro a ⟨member, also⟩
    have sorted := List.pairwise_insertionSort (· ≤ ·) l
    rw [← members, split] at member
    rw [split] at sorted
    rcases List.mem_append.mp member with early | member
    · have fails := before a early
      simp [also] at fails
    · rcases List.mem_cons.mp member with rfl | late
      · exact le_rfl
      · exact (List.pairwise_cons.mp (List.pairwise_append.mp sorted).2.1).1 a late
  constructor
  · exact first v
  · intro least
    cases found : (l.insertionSort (· ≤ ·)).find? p with
    | none =>
      have fails := List.find?_eq_none.mp found v ((members v).mpr least.1.1)
      exact (fails least.1.2).elim
    | some w => rw [(first w found).unique least]

theorem find?_insertionSort_eq_none_iff {l : List α} {p : α → Bool} :
    (l.insertionSort (· ≤ ·)).find? p = none ↔ ∀ a ∈ l, ¬ p a = true := by
  rw [List.find?_eq_none]
  exact forall_congr' (fun a => by rw [List.mem_insertionSort])

omit [LinearOrder α] in
/-- Two searches of one list agree where the first element that either finds is one that both
find. -/
theorem find?_eq_find?_iff {l : List α} {p q : α → Bool} :
    l.find? p = l.find? q ↔
      ∀ a, l.find? (fun a => p a || q a) = some a → p a = true ∧ q a = true := by
  induction l with
  | nil => simp
  | cons a l ih =>
    cases left : p a <;> cases right : q a
    · simpa [List.find?_cons, left, right] using ih
    · have differ : l.find? p ≠ some a := fun found => by simp [List.find?_some found] at left
      simp [left, right, differ]
    · have differ : some a ≠ l.find? q := fun found => by simp [List.find?_some found.symm] at right
      simp [left, right, differ]
    · simp [left, right]

end MiniRedis.Base
