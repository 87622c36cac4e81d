/- GID: MiniRedis/Base/Deque
   generality: G
   digest: Double-ended queues with a time limit that ends with the last element. -/

import Mathlib.Data.Int.Notation
import Mathlib.Data.List.Basic
import Mathlib.Algebra.Order.Group.Multiset
import MiniRedis.Base.Lockstep

set_option autoImplicit false
set_option relaxedAutoImplicit false

namespace MiniRedis.Base

variable {α : Type}

/-- A double-ended queue; a limit is set on elements, so an empty queue has none. -/
@[ext] structure Deque (α : Type) where
  items : List α
  limited : Bool
  unlimited_empty : items = [] → limited = false

inductive DequeCall (α : Type) where
  | pushFront (values : List α)
  | pushBack (values : List α)
  | popFront
  | popBack
  | range (start stop : ℤ)
  | limit

inductive DequeReply (α : Type) where
  | length (n : ℕ)
  | popped (value : Option α)
  | items (values : List α)
  | applied (done : Bool)

namespace Deque

def empty : Deque α := ⟨[], false, fun _ => rfl⟩

/-- The position an index means, counted from the end when it is negative. -/
def position (items : List α) (index : ℤ) : ℤ := if index < 0 then index + items.length else index

/-- The elements at the positions from `start` to `stop`. -/
def slice (items : List α) (start stop : ℤ) : List α :=
  (items.zipIdx.filter (fun element =>
    position items start ≤ element.2 ∧ (element.2 : ℤ) ≤ position items stop)).map Prod.fst

/-- The values come in one after the other, so the last one is in front. -/
def pushFront (values : List α) (d : Deque α) : Deque α :=
  ⟨values.reverse ++ d.items, d.limited, fun none_left =>
    d.unlimited_empty (List.append_eq_nil_iff.mp none_left).2⟩

def pushBack (values : List α) (d : Deque α) : Deque α :=
  ⟨d.items ++ values, d.limited, fun none_left =>
    d.unlimited_empty (List.append_eq_nil_iff.mp none_left).1⟩

/-- What is left of the elements, without its limit when nothing is left. -/
def keep (rest : List α) (d : Deque α) : Deque α :=
  ⟨rest, d.limited && !rest.isEmpty, fun none_left => by simp [none_left]⟩

def limit (d : Deque α) : Deque α :=
  ⟨d.items, !d.items.isEmpty, fun none_left => by simp [none_left]⟩

def step : DequeCall α → Deque α → DequeReply α × Deque α
  | .pushFront values, d => (.length (d.pushFront values).items.length, d.pushFront values)
  | .pushBack values, d => (.length (d.pushBack values).items.length, d.pushBack values)
  | .popFront, d => (.popped d.items.head?, d.keep d.items.tail)
  | .popBack, d => (.popped d.items.getLast?, d.keep d.items.dropLast)
  | .range start stop, d => (.items (slice d.items start stop), d)
  | .limit, d => (.applied (!d.items.isEmpty), d.limit)

/-! ### Slices -/

private theorem slice_from (items : List α) (first last : ℤ) (offset : ℕ) :
    ((items.zipIdx offset).filter (fun element =>
      first ≤ element.2 ∧ (element.2 : ℤ) ≤ last)).map Prod.fst =
      (items.take (last + 1 - offset).toNat).drop (first - offset).toNat := by
  induction items generalizing offset with
  | nil => simp
  | cons item items ih =>
    have later := ih (offset + 1)
    rw [List.zipIdx_cons, List.filter_cons]
    by_cases inside : first ≤ (offset : ℤ) ∧ (offset : ℤ) ≤ last
    · have none_skipped : (first - offset).toNat = 0 := by omega
      have none_skipped' : (first - ((offset + 1 : ℕ) : ℤ)).toNat = 0 := by omega
      have one_more : (last + 1 - offset).toNat =
          (last + 1 - ((offset + 1 : ℕ) : ℤ)).toNat + 1 := by
        omega
      rw [none_skipped'] at later
      rw [if_pos (by simpa using inside), List.map_cons, later, none_skipped, one_more]
      rfl
    · rw [if_neg (by simpa using inside), later]
      by_cases early : (offset : ℤ) < first
      · have skipped : (first - offset).toNat = (first - ((offset + 1 : ℕ) : ℤ)).toNat + 1 := by
          omega
        by_cases ended : last < offset
        · have nothing : (last + 1 - offset).toNat = 0 := by omega
          have nothing' : (last + 1 - ((offset + 1 : ℕ) : ℤ)).toNat = 0 := by omega
          rw [nothing, nothing']
          simp
        · have one_more : (last + 1 - offset).toNat =
              (last + 1 - ((offset + 1 : ℕ) : ℤ)).toNat + 1 := by omega
          rw [skipped, one_more]
          rfl
      · have nothing : (last + 1 - offset).toNat = 0 := by omega
        have nothing' : (last + 1 - ((offset + 1 : ℕ) : ℤ)).toNat = 0 := by omega
        rw [nothing, nothing']
        simp

theorem slice_eq (items : List α) (start stop : ℤ) :
    slice items start stop =
      (items.take (position items stop + 1).toNat).drop (position items start).toNat := by
  have whole := slice_from items (position items start) (position items stop) 0
  simpa [slice] using whole

theorem slice_clamped (items : List α) (start stop : ℤ) :
    slice items start stop = (items.zipIdx.filter (fun element =>
      max 0 (position items start) ≤ element.2 ∧
        (element.2 : ℤ) ≤ min ((items.length : ℤ) - 1) (position items stop))).map Prod.fst := by
  unfold slice
  congr 1
  apply List.filter_congr
  rintro ⟨item, index⟩ member
  have inside : index < items.length := (List.mem_zipIdx' member).1
  rw [decide_eq_decide]
  constructor
  · rintro ⟨after, before⟩
    constructor <;> omega
  · rintro ⟨after, before⟩
    constructor <;> omega

/-- Windows that follow each other up to the last element make up the whole. -/
theorem slice_windows (items : List α) {a b : ℤ} (first : 0 ≤ a) (ordered : a ≤ b) :
    slice items 0 a ++ slice items (a + 1) b ++ slice items (b + 1) (-1) = items := by
  have position_of_nonneg : ∀ index : ℤ, 0 ≤ index → position items index = index := by
    intro index nonneg
    rw [position, if_neg (by omega)]
  have position_last : position items (-1) + 1 = items.length := by
    rw [position, if_pos (by decide)]
    omega
  have front : (items.take (b + 1).toNat).take (a + 1).toNat = items.take (a + 1).toNat := by
    rw [List.take_take, min_eq_left (by omega)]
  rw [slice_eq, slice_eq, slice_eq, position_last, position_of_nonneg 0 le_rfl,
    position_of_nonneg a first, position_of_nonneg b (by omega),
    position_of_nonneg (a + 1) (by omega), position_of_nonneg (b + 1) (by omega), Int.toNat_zero,
    List.drop_zero, Int.toNat_natCast, List.take_length, ← front, List.take_append_drop,
    List.take_append_drop]

theorem slice_all (items : List α) : slice items 0 (-1) = items := by
  have last : position items (-1) + 1 = items.length := by
    rw [position, if_pos (by decide)]
    omega
  rw [slice_eq, last]
  simp [position]

/-! ### Conservation -/

/-- The values that the calls put in. -/
def pushed : List (DequeCall α) → List α
  | [] => []
  | .pushFront values :: calls | .pushBack values :: calls => values ++ pushed calls
  | _ :: calls => pushed calls

/-- The values that the replies handed out. -/
def taken : List (DequeReply α) → List α
  | [] => []
  | .popped (some value) :: replies => value :: taken replies
  | _ :: replies => taken replies

private theorem step_conserves (call : DequeCall α) (d : Deque α) :
    (pushed [call] ++ d.items).Perm (taken [(step call d).1] ++ (step call d).2.items) := by
  cases call with
  | pushFront values =>
    simp only [pushed, taken, step, pushFront, List.append_nil, List.nil_append]
    exact (List.reverse_perm values).symm.append_right d.items
  | pushBack values =>
    simp only [pushed, taken, step, pushBack, List.append_nil, List.nil_append]
    exact List.perm_append_comm
  | popFront =>
    cases same : d.items with
    | nil => simp [pushed, taken, step, keep, same]
    | cons value rest => simp [pushed, taken, step, keep, same]
  | popBack =>
    rcases List.eq_nil_or_concat d.items with same | ⟨rest, value, same⟩
    · simp [pushed, taken, step, keep, same]
    · rw [List.concat_eq_append] at same
      simp only [pushed, step, keep, same, List.getLast?_concat, List.dropLast_concat, taken,
        List.nil_append]
      exact List.perm_append_singleton value rest
  | range start stop => exact .refl _
  | limit => exact .refl _

private theorem pushed_cons (call : DequeCall α) (calls : List (DequeCall α)) :
    pushed (call :: calls) = pushed [call] ++ pushed calls := by
  cases call <;> simp [pushed]

private theorem taken_cons (reply : DequeReply α) (replies : List (DequeReply α)) :
    taken (reply :: replies) = taken [reply] ++ taken replies := by
  cases reply with
  | popped value => cases value <;> simp [taken]
  | _ => simp [taken]

/-- No element is lost or made: what was there and what was pushed is what was popped and what is
left. -/
theorem conserved (calls : List (DequeCall α)) (d : Deque α) :
    (pushed calls ++ d.items).Perm
      (taken (outcomes step calls d) ++ (after step calls d).items) := by
  induction calls generalizing d with
  | nil => exact .refl _
  | cons call calls ih =>
    rw [pushed_cons, outcomes, taken_cons, after]
    have first := Multiset.coe_eq_coe.mpr (step_conserves call d)
    have later := Multiset.coe_eq_coe.mpr (ih (step call d).2)
    rw [← Multiset.coe_eq_coe]
    simp only [← Multiset.coe_add] at first later ⊢
    rw [add_assoc _ _ (Multiset.ofList (after step calls (step call d).2).items), ← later,
      add_left_comm, ← first, add_left_comm, add_assoc]

end Deque

end MiniRedis.Base
