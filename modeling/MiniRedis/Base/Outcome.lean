/- GID: MiniRedis/Base/Outcome
   generality: G
   digest: Computations that may fail, in sequence and along a list. -/

import Mathlib.Data.List.Forall2

set_option autoImplicit false
set_option relaxedAutoImplicit false

namespace MiniRedis.Base

variable {ε α β : Type}

/-! ### One after the other -/

theorem bind_ok (a : α) (f : α → Except ε β) : ((.ok a : Except ε α) >>= f) = f a := rfl

theorem bind_error (e : ε) (f : α → Except ε β) :
    ((.error e : Except ε α) >>= f) = .error e := rfl

theorem exists_ok_of_bind {x : Except ε α} {f : α → Except ε β} {b : β}
    (returned : x >>= f = .ok b) : ∃ a, x = .ok a ∧ f a = .ok b := by
  cases x with
  | error e => cases returned
  | ok a => exact ⟨a, rfl, returned⟩

/-! ### Along a list -/

theorem exists_mapM {m : Type → Type} [Monad m] [LawfulMonad m] {f : α → m β} {R : α → β → Prop}
    {l : List α} (each : ∀ a ∈ l, ∃ b, f a = pure b ∧ R a b) :
    ∃ results, l.mapM f = pure results ∧ List.Forall₂ R l results := by
  induction l with
  | nil => exact ⟨[], List.mapM_nil, .nil⟩
  | cons a l ih =>
    obtain ⟨b, first, related⟩ := each a List.mem_cons_self
    obtain ⟨results, later, all⟩ := ih (fun other member => each other (List.mem_cons_of_mem a member))
    refine ⟨b :: results, ?_, .cons related all⟩
    rw [List.mapM_cons, first, pure_bind, later, pure_bind]

theorem mapM_map_ok {f : α → Except ε β} {g : α → β} {l : List α}
    (each : ∀ a ∈ l, f a = .ok (g a)) : l.mapM f = .ok (l.map g) := by
  induction l with
  | nil => rfl
  | cons a l ih =>
    rw [List.forall_mem_cons] at each
    rw [List.mapM_cons, each.1, ih each.2]
    rfl

theorem forall₂_of_mapM {f : α → Except ε β} {l : List α} {results : List β}
    (returned : l.mapM f = .ok results) : List.Forall₂ (fun a b => f a = .ok b) l results := by
  induction l generalizing results with
  | nil =>
    cases returned
    exact .nil
  | cons a l ih =>
    rw [List.mapM_cons] at returned
    obtain ⟨b, first, returned⟩ := exists_ok_of_bind returned
    obtain ⟨rest, later, returned⟩ := exists_ok_of_bind returned
    cases returned
    exact .cons first (ih later)

end MiniRedis.Base
