/- GID: MiniRedis/Base/Lockstep
   generality: G
   digest: Two machines that answer alike from related states answer alike in a whole run. -/

import Mathlib.Data.List.Basic

set_option autoImplicit false
set_option relaxedAutoImplicit false

namespace MiniRedis.Base

variable {α β γ σ τ : Type} {call : α → σ → β × σ} {call' : α → τ → γ × τ}
  {condition : α → σ → Prop} {same : β → γ → Prop} {R : List α → σ → τ → Prop}

/-- The outcomes of calls made one after the other. -/
def outcomes (call : α → σ → β × σ) : List α → σ → List β
  | [], _ => []
  | a :: rest, s => (call a s).1 :: outcomes call rest (call a s).2

/-- The state that the calls leave. -/
def after (call : α → σ → β × σ) : List α → σ → σ
  | [], s => s
  | a :: rest, s => after call rest (call a s).2

/-- Every call meets the condition in the state in which it finds the machine. -/
def Along (call : α → σ → β × σ) (condition : α → σ → Prop) : List α → σ → Prop
  | [], _ => True
  | a :: rest, s => condition a s ∧ Along call condition rest (call a s).2

instance Along.decidable [∀ a s, Decidable (condition a s)] :
    ∀ (calls : List α) (s : σ), Decidable (Along call condition calls s)
  | [], _ => inferInstanceAs (Decidable True)
  | a :: rest, s =>
    have := Along.decidable rest (call a s).2
    inferInstanceAs (Decidable (condition a s ∧ Along call condition rest (call a s).2))

/-- A relation that may speak of the calls still to come, and that every call keeps under its
condition, makes the outcomes of the two machines alike and holds at the end. -/
theorem outcomes_alike
    (step : ∀ a rest s s', R (a :: rest) s s' → condition a s →
      same (call a s).1 (call' a s').1 ∧ R rest (call a s).2 (call' a s').2)
    {calls : List α} {s : σ} {s' : τ} (start : R calls s s')
    (met : Along call condition calls s) :
    List.Forall₂ same (outcomes call calls s) (outcomes call' calls s') ∧
      R [] (after call calls s) (after call' calls s') := by
  induction calls generalizing s s' with
  | nil => exact ⟨.nil, start⟩
  | cons a rest ih =>
    obtain ⟨alike, next⟩ := step a rest s s' start met.1
    obtain ⟨later, last⟩ := ih next met.2
    exact ⟨.cons alike later, last⟩

/-- Where a call outside its condition shows a difference, the condition is exact. -/
theorem outcomes_alike_iff
    (step : ∀ a rest s s', R (a :: rest) s s' → condition a s →
      same (call a s).1 (call' a s').1 ∧ R rest (call a s).2 (call' a s').2)
    (differs : ∀ a rest s s', R (a :: rest) s s' → ¬ condition a s →
      ¬ same (call a s).1 (call' a s').1)
    {calls : List α} {s : σ} {s' : τ} (start : R calls s s') :
    List.Forall₂ same (outcomes call calls s) (outcomes call' calls s') ↔
      Along call condition calls s := by
  constructor
  · intro alike
    induction calls generalizing s s' with
    | nil => trivial
    | cons a rest ih =>
      obtain ⟨first, later⟩ := List.forall₂_cons.mp alike
      have met : condition a s := not_not.mp (fun fails => differs a rest s s' start fails first)
      exact ⟨met, ih (step a rest s s' start met).2 later⟩
  · intro met
    exact (outcomes_alike step start met).1

private theorem along_probed {probe : α → Prop} (harmless : ∀ a s, probe a → condition a s) {p : α}
    (probing : probe p) {first calls : List α} {s : σ} (part : first <+: calls)
    (met : Along call condition calls s) : Along call condition (first ++ [p]) s := by
  induction first generalizing calls s with
  | nil => exact ⟨harmless p s probing, trivial⟩
  | cons a first ih =>
    obtain ⟨later, rfl⟩ := part
    exact ⟨met.1, ih (List.prefix_append first later) met.2⟩

/-- Where a difference shows at the latest in a harmless call made next, the condition is exact for
being alike at every point of the run, whatever harmless call is made there. -/
theorem probed_alike_iff {probe : α → Prop} {R : σ → τ → Prop}
    (step : ∀ a s s', R s s' → condition a s →
      same (call a s).1 (call' a s').1 ∧ R (call a s).2 (call' a s').2)
    (harmless : ∀ a s, probe a → condition a s)
    (differs : ∀ a s s', R s s' → ¬ condition a s → ∃ p, probe p ∧
      ¬ (same (call a s).1 (call' a s').1 ∧
        same (call p (call a s).2).1 (call' p (call' a s').2).1))
    {calls : List α} {s : σ} {s' : τ} (start : R s s') :
    (∀ first, first <+: calls → ∀ p, probe p →
      List.Forall₂ same (outcomes call (first ++ [p]) s) (outcomes call' (first ++ [p]) s')) ↔
      Along call condition calls s := by
  constructor
  · intro alike
    induction calls generalizing s s' with
    | nil => trivial
    | cons a rest ih =>
      have met : condition a s := by
        by_contra fails
        obtain ⟨p, probing, differ⟩ := differs a s s' start fails
        obtain ⟨now, next⟩ := List.forall₂_cons.mp
          (alike [a] (List.prefix_append [a] rest) p probing)
        exact differ ⟨now, (List.forall₂_cons.mp next).1⟩
      refine ⟨met, ih (step a s s' start met).2 ?_⟩
      intro first part p probing
      have whole := alike (a :: first) ((List.prefix_cons_inj a).mpr part) p probing
      exact (List.forall₂_cons.mp whole).2
  · intro met first part p probing
    exact (outcomes_alike (R := fun _ => R) (fun a _ s s' => step a s s') start
      (along_probed harmless probing part met)).1

end MiniRedis.Base
