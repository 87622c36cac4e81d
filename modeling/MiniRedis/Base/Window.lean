/- GID: MiniRedis/Base/Window
   generality: G
   digest: Cleaning the front window of a list again and again clears it iff it can be cut to fit. -/

import Mathlib.Data.List.Basic
import Mathlib.Data.List.Count
import Mathlib.Logic.Function.Iterate

set_option autoImplicit false
set_option relaxedAutoImplicit false

namespace MiniRedis.Base

variable {α : Type} {p : α → Bool} {width : ℕ}

/-- Remove the marked elements among the first `width`; the others keep their place. -/
def cleanFront (p : α → Bool) (width : ℕ) (l : List α) : List α :=
  (l.take width).filter (fun a => !p a) ++ l.drop width

theorem cleanFront_eq_filter [DecidableEq α] {l : List α} (nodup : l.Nodup) :
    cleanFront p width l = l.filter (fun a => !(decide (a ∈ l.take width) && p a)) := by
  have apart : ∀ a ∈ l.drop width, a ∉ l.take width := by
    intro a behind front
    exact List.disjoint_take_drop nodup (Nat.le_refl width) front behind
  conv_rhs => rw [← List.take_append_drop width l, List.filter_append]
  rw [cleanFront, List.take_append_drop]
  congr 1
  · refine List.filter_congr (fun a member => ?_)
    simp [member]
  · refine (List.filter_eq_self.mpr (fun a member => ?_)).symm
    simp [apart a member]

/-- The list can be cut into at most `rounds` blocks, followed by unmarked elements only, each of
which fits into the window beside the `kept` elements and the unmarked ones of earlier blocks. -/
inductive CutsInto (p : α → Bool) (width : ℕ) : ℕ → ℕ → List α → Prop
  | done (kept rounds : ℕ) {rest : List α} (clean : ∀ a ∈ rest, p a = false) :
      CutsInto p width kept rounds rest
  | block {kept rounds : ℕ} {block rest : List α} (fits : kept + block.length ≤ width)
      (later : CutsInto p width (kept + block.countP (fun a => !p a)) rounds rest) :
      CutsInto p width kept (rounds + 1) (block ++ rest)

namespace CutsInto

theorem more_rounds {kept rounds : ℕ} {l : List α} (cuts : CutsInto p width kept rounds l) :
    CutsInto p width kept (rounds + 1) l := by
  induction cuts with
  | done kept rounds clean => exact .done kept _ clean
  | block fits _ ih => exact .block fits ih

theorem advance {kept rounds : ℕ} {front l : List α}
    (cuts : CutsInto p width kept rounds (front ++ l)) :
    CutsInto p width (kept + front.countP (fun a => !p a)) rounds l := by
  generalize whole : front ++ l = list at cuts
  induction cuts generalizing front l with
  | done kept rounds clean =>
    subst whole
    exact .done _ _ (fun a member => clean a (List.mem_append_right front member))
  | @block kept rounds first rest fits later ih =>
    rcases List.append_eq_append_iff.mp whole with ⟨middle, rfl, rfl⟩ | ⟨middle, rfl, rfl⟩
    · -- the passed part ends inside the first block
      rw [List.length_append] at fits
      rw [List.countP_append, ← Nat.add_assoc] at later
      have shorter := List.countP_le_length (l := front) (p := fun a => !p a)
      exact .block (by omega) later
    · rw [List.countP_append, ← Nat.add_assoc]
      exact (ih rfl).more_rounds

end CutsInto

private theorem cleanFront_append {front : List α} (clean : ∀ a ∈ front, p a = false)
    (room : front.length ≤ width) (l : List α) :
    cleanFront p width (front ++ l) =
      (front ++ (l.take (width - front.length)).filter (fun a => !p a)) ++
        l.drop (width - front.length) := by
  have kept : front.filter (fun a => !p a) = front := by
    refine List.filter_eq_self.mpr (fun a member => ?_)
    rw [clean a member]
    rfl
  rw [cleanFront, List.take_append, List.drop_append, List.take_of_length_le room,
    List.drop_of_length_le room, List.filter_append, kept, List.nil_append]

private theorem cleanFront_full {front : List α} (clean : ∀ a ∈ front, p a = false)
    (full : width ≤ front.length) (l : List α) :
    cleanFront p width (front ++ l) = front ++ l := by
  have kept : (front.take width).filter (fun a => !p a) = front.take width := by
    refine List.filter_eq_self.mpr (fun a member => ?_)
    rw [clean a (List.mem_of_mem_take member)]
    rfl
  rw [cleanFront, List.take_append_of_le_length full, List.drop_append_of_le_length full, kept,
    ← List.append_assoc, List.take_append_drop]

/-- One round of cleaning is worth one block, however the blocks were cut. -/
private theorem cutsInto_step {front l : List α} (room : front.length ≤ width) {rounds : ℕ} :
    CutsInto p width
        (front ++ (l.take (width - front.length)).filter (fun a => !p a)).length rounds
        (l.drop (width - front.length)) ↔
      CutsInto p width front.length (rounds + 1) l := by
  rw [List.length_append, ← List.countP_eq_length_filter]
  constructor
  · intro later
    rw [← List.take_append_drop (width - front.length) l]
    refine .block ?_ later
    rw [List.length_take]
    omega
  · intro cuts
    cases cuts with
    | done _ _ clean => exact .done _ _ (fun a member => clean a (List.mem_of_mem_drop member))
    | @block _ _ first rest fits later =>
      have length : first.length ≤ width - front.length := by omega
      rw [List.take_append, List.drop_append, List.take_of_length_le length,
        List.drop_of_length_le length, List.nil_append, List.countP_append, ← Nat.add_assoc]
      refine CutsInto.advance ?_
      rwa [List.take_append_drop]

private theorem iterate_clean_iff {front : List α} (clean : ∀ a ∈ front, p a = false) (rounds : ℕ)
    (l : List α) :
    (∀ a ∈ (cleanFront p width)^[rounds] (front ++ l), p a = false) ↔
      CutsInto p width front.length rounds l := by
  induction rounds generalizing front l with
  | zero =>
    constructor
    · intro all
      exact .done _ _ (fun a member => all a (List.mem_append_right front member))
    · intro cuts a member
      cases cuts with
      | done _ _ rest => exact (List.mem_append.mp member).elim (clean a) (rest a)
  | succ rounds ih =>
    rw [Function.iterate_succ_apply]
    rcases Nat.lt_or_ge width front.length with full | room
    · rw [cleanFront_full clean (Nat.le_of_lt full), ih clean]
      constructor
      · exact CutsInto.more_rounds
      · intro cuts
        cases cuts with
        | done _ _ rest => exact .done _ _ rest
        | block fits _ => omega
    · rw [cleanFront_append clean room, ← cutsInto_step room]
      refine ih (fun a member => ?_) _
      rcases List.mem_append.mp member with before | kept
      · exact clean a before
      · simpa using (List.mem_filter.mp kept).2

/-- Cleaning the window `rounds` times clears the list exactly if it can be cut to fit. -/
theorem iterate_cleanFront_iff (p : α → Bool) (width rounds : ℕ) (l : List α) :
    (∀ a ∈ (cleanFront p width)^[rounds] l, p a = false) ↔ CutsInto p width 0 rounds l :=
  iterate_clean_iff (fun _ member => (List.not_mem_nil member).elim) rounds l

theorem cleanFront_congr {q : α → Bool} {l : List α} (same : ∀ a ∈ l, p a = q a) :
    cleanFront p width l = cleanFront q width l := by
  unfold cleanFront
  congr 1
  refine List.filter_congr (fun a member => ?_)
  rw [same a (List.mem_of_mem_take member)]

theorem mem_of_mem_cleanFront {l : List α} {a : α} (member : a ∈ cleanFront p width l) : a ∈ l := by
  rcases List.mem_append.mp member with front | behind
  · exact List.mem_of_mem_take (List.mem_of_mem_filter front)
  · exact List.mem_of_mem_drop behind

theorem iterate_cleanFront_congr {q : α → Bool} (rounds : ℕ) {l : List α}
    (same : ∀ a ∈ l, p a = q a) : (cleanFront p width)^[rounds] l = (cleanFront q width)^[rounds] l := by
  induction rounds generalizing l with
  | zero => rfl
  | succ rounds ih =>
    rw [Function.iterate_succ_apply, Function.iterate_succ_apply, ← cleanFront_congr same]
    exact ih (fun a member => same a (mem_of_mem_cleanFront member))

theorem countP_take_add_cleanFront (p : α → Bool) (width : ℕ) (l : List α) :
    (l.take width).countP p + (cleanFront p width l).countP p = l.countP p := by
  have gone : ((l.take width).filter (fun a => !p a)).countP p = 0 := by
    rw [List.countP_eq_zero]
    intro a member
    simpa using (List.mem_filter.mp member).2
  rw [cleanFront, List.countP_append, gone, Nat.zero_add, ← List.countP_append,
    List.take_append_drop]

end MiniRedis.Base
