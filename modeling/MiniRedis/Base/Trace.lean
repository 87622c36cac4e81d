/- GID: MiniRedis/Base/Trace
   generality: G
   digest: Properties of every state along a run, and the steps that keep them. -/

import Mathlib.Data.List.Basic

set_option autoImplicit false
set_option relaxedAutoImplicit false

namespace MiniRedis.Base

variable {α σ : Type} {step : α → σ → σ} {P I : σ → Prop} {condition : α → σ → Prop}

/-- The property holds before the first step and after each one. -/
def Always (step : α → σ → σ) (P : σ → Prop) : List α → σ → Prop
  | [], s => P s
  | a :: rest, s => P s ∧ Always step P rest (step a s)

/-- Every step meets the condition in the state in which it is taken. -/
def EachStep (step : α → σ → σ) (condition : α → σ → Prop) : List α → σ → Prop
  | [], _ => True
  | a :: rest, s => condition a s ∧ EachStep step condition rest (step a s)

/-- The state at the end of a run. -/
def runAll (step : α → σ → σ) : List α → σ → σ
  | [], s => s
  | a :: rest, s => runAll step rest (step a s)

theorem runAll_append (first later : List α) (s : σ) :
    runAll step (first ++ later) s = runAll step later (runAll step first s) := by
  induction first generalizing s with
  | nil => rfl
  | cons a first ih => exact ih (step a s)

theorem eachStep_append {first later : List α} {s : σ} :
    EachStep step condition (first ++ later) s ↔
      EachStep step condition first s ∧ EachStep step condition later (runAll step first s) := by
  induction first generalizing s with
  | nil => simp [EachStep, runAll]
  | cons a first ih => simp only [List.cons_append, EachStep, runAll, ih, and_assoc]

theorem EachStep.and_legal {legal : α → Prop} {actions : List α} {s : σ}
    (met : EachStep step condition actions s) (allowed : ∀ a ∈ actions, legal a) :
    EachStep step (fun a s => legal a ∧ condition a s) actions s := by
  induction actions generalizing s with
  | nil => trivial
  | cons a rest ih =>
    exact ⟨⟨allowed a List.mem_cons_self, met.1⟩,
      ih met.2 (fun b member => allowed b (List.mem_cons_of_mem a member))⟩

theorem invariant_of_eachStep (invariant : ∀ a s, condition a s → I s → I (step a s))
    {actions : List α} {s : σ} (met : EachStep step condition actions s) (start : I s) :
    I (runAll step actions s) := by
  induction actions generalizing s with
  | nil => exact start
  | cons a rest ih => exact ih met.2 (invariant a s met.1 start)

theorem invariant_of_steps (invariant : ∀ a s, I s → I (step a s)) (actions : List α) {s : σ}
    (start : I s) : I (runAll step actions s) := by
  induction actions generalizing s with
  | nil => exact start
  | cons a rest ih => exact ih (invariant a s start)

instance Always.decidable [∀ s, Decidable (P s)] :
    ∀ (actions : List α) (s : σ), Decidable (Always step P actions s)
  | [], s => inferInstanceAs (Decidable (P s))
  | a :: rest, s =>
    have := Always.decidable rest (step a s)
    inferInstanceAs (Decidable (P s ∧ Always step P rest (step a s)))

instance EachStep.decidable [∀ a s, Decidable (condition a s)] :
    ∀ (actions : List α) (s : σ), Decidable (EachStep step condition actions s)
  | [], _ => inferInstanceAs (Decidable True)
  | a :: rest, s =>
    have := EachStep.decidable rest (step a s)
    inferInstanceAs (Decidable (condition a s ∧ EachStep step condition rest (step a s)))

/-- An invariant of every step holds along every run, with all that follows from it. -/
theorem always_of_invariant (invariant : ∀ a s, I s → I (step a s)) (follows : ∀ s, I s → P s)
    (actions : List α) {s : σ} (start : I s) : Always step P actions s := by
  induction actions generalizing s with
  | nil => exact follows s start
  | cons a rest ih => exact ⟨follows s start, ih (invariant a s start)⟩

theorem always_of_eachStep (invariant : ∀ a s, condition a s → I s → I (step a s))
    (follows : ∀ s, I s → P s) {actions : List α} {s : σ}
    (met : EachStep step condition actions s) (start : I s) : Always step P actions s := by
  induction actions generalizing s with
  | nil => exact follows s start
  | cons a rest ih => exact ⟨follows s start, ih met.2 (invariant a s met.1 start)⟩

/-- A property that a step keeps exactly under its condition, as long as an invariant of all
steps holds, holds along a run exactly when each step meets the condition. -/
theorem always_iff_eachStep (legal : α → Prop)
    (invariant : ∀ a s, legal a → I s → I (step a s))
    (exact_step : ∀ a s, legal a → I s → P s → (P (step a s) ↔ condition a s))
    {actions : List α} {s : σ} (allowed : ∀ a ∈ actions, legal a) (sound : I s) (start : P s) :
    Always step P actions s ↔ EachStep step condition actions s := by
  induction actions generalizing s with
  | nil => exact ⟨fun _ => trivial, fun _ => start⟩
  | cons a rest ih =>
    have here := allowed a List.mem_cons_self
    have next := exact_step a s here sound start
    have later : P (step a s) →
        (Always step P rest (step a s) ↔ EachStep step condition rest (step a s)) :=
      ih (fun b member => allowed b (List.mem_cons_of_mem a member)) (invariant a s here sound)
    constructor
    · rintro ⟨-, along⟩
      have kept : P (step a s) := by
        cases rest with
        | nil => exact along
        | cons b rest => exact along.1
      exact ⟨next.mp kept, (later kept).mp along⟩
    · rintro ⟨met, along⟩
      exact ⟨start, (later (next.mpr met)).mpr along⟩

/-- A property implied by a strong form that a step keeps under its condition, and that fails after
every other step from a state of the strong form, holds along a run exactly when each step meets
the condition. -/
theorem always_iff_eachStep_of_strong (follows : ∀ s, I s → P s)
    (keeps : ∀ a s, condition a s → I s → I (step a s))
    (needs : ∀ a s, I s → P (step a s) → condition a s) {actions : List α} {s : σ} (start : I s) :
    Always step P actions s ↔ EachStep step condition actions s := by
  induction actions generalizing s with
  | nil => exact ⟨fun _ => trivial, fun _ => follows s start⟩
  | cons a rest ih =>
    constructor
    · rintro ⟨-, along⟩
      have kept : P (step a s) := by
        cases rest with
        | nil => exact along
        | cons b rest => exact along.1
      have met := needs a s start kept
      exact ⟨met, (ih (keeps a s met start)).mp along⟩
    · rintro ⟨met, along⟩
      exact ⟨follows s start, (ih (keeps a s met start)).mpr along⟩

end MiniRedis.Base
