/- GID: MiniRedis/Base/Effect
   generality: G
   digest: Computations whose state survives an exception run by sequencing their outcomes. -/

import Mathlib.Tactic.Common

set_option autoImplicit false
set_option relaxedAutoImplicit false

namespace MiniRedis.Base

/-- A computation over a mutable state that may raise. As in an imperative
language, what was written before the exception stays written. -/
abbrev Effect (σ ε : Type) := ExceptT ε (StateM σ)

namespace Effect

variable {σ ε α β : Type}

/-- Run a computation: its result or exception, and the state it leaves. -/
def exec (x : Effect σ ε α) (s : σ) : Except ε α × σ := Id.run ((ExceptT.run x).run s)

@[simp] theorem exec_pure (a : α) (s : σ) : (pure a : Effect σ ε α).exec s = (.ok a, s) := rfl

@[simp] theorem exec_throw (e : ε) (s : σ) :
    (throw e : Effect σ ε α).exec s = (.error e, s) := rfl

@[simp] theorem exec_get (s : σ) : (get : Effect σ ε σ).exec s = (.ok s, s) := rfl

@[simp] theorem exec_set (s s' : σ) : (set s' : Effect σ ε PUnit).exec s = (.ok ⟨⟩, s') := rfl

@[simp] theorem exec_modify (f : σ → σ) (s : σ) :
    (modify f : Effect σ ε PUnit).exec s = (.ok ⟨⟩, f s) := rfl

@[simp] theorem exec_modifyGet (f : σ → α × σ) (s : σ) :
    (modifyGet f : Effect σ ε α).exec s = (.ok (f s).1, (f s).2) := rfl

theorem exec_bind (x : Effect σ ε α) (f : α → Effect σ ε β) (s : σ) :
    (x >>= f).exec s =
      match x.exec s with
      | (.ok a, s') => (f a).exec s'
      | (.error e, s') => (.error e, s') := by
  unfold exec ExceptT.run StateT.run Id.run
  change ExceptT.bindCont f (x s).1 (x s).2 = _
  rcases x s with ⟨result, s'⟩
  cases result <;> rfl

@[simp] theorem exec_map (g : α → β) (x : Effect σ ε α) (s : σ) :
    (g <$> x).exec s = ((x.exec s).1.map g, (x.exec s).2) := by
  rw [map_eq_pure_bind, exec_bind]
  rcases x.exec s with ⟨result, s'⟩
  cases result <;> rfl

theorem exec_bind_pure (x : Effect σ ε α) (g : α → β) (s : σ) :
    (x >>= fun a => pure (g a)).exec s = ((x.exec s).1.map g, (x.exec s).2) := by
  rw [← map_eq_pure_bind, exec_map]

@[simp] theorem lift_ok (a : α) : (liftM (Except.ok a : Except ε α) : Effect σ ε α) = pure a := rfl

@[simp] theorem lift_error (e : ε) :
    (liftM (Except.error e : Except ε α) : Effect σ ε α) = throw e := rfl

theorem exec_bind_of_ok {x : Effect σ ε α} {f : α → Effect σ ε β} {s s' : σ} {a : α}
    (h : x.exec s = (.ok a, s')) : (x >>= f).exec s = (f a).exec s' := by
  rw [exec_bind, h]

theorem exec_bind_of_error {x : Effect σ ε α} {f : α → Effect σ ε β} {s s' : σ} {e : ε}
    (h : x.exec s = (.error e, s')) : (x >>= f).exec s = (.error e, s') := by
  rw [exec_bind, h]

theorem exists_of_exec_bind {x : Effect σ ε α} {f : α → Effect σ ε β} {s s'' : σ} {b : β}
    (h : (x >>= f).exec s = (.ok b, s'')) :
    ∃ a s', x.exec s = (.ok a, s') ∧ (f a).exec s' = (.ok b, s'') := by
  rw [exec_bind] at h
  rcases run : x.exec s with ⟨outcome, s'⟩
  rw [run] at h
  cases outcome with
  | ok a => exact ⟨a, s', rfl, h⟩
  | error e => cases h

theorem exists_of_isOk {x : Effect σ ε α} {s : σ} (returns : (x.exec s).1.isOk = true) :
    ∃ a s', x.exec s = (.ok a, s') := by
  revert returns
  generalize x.exec s = run
  intro returns
  obtain ⟨outcome, s'⟩ := run
  cases outcome with
  | ok a => exact ⟨a, s', rfl⟩
  | error e => cases returns

/-! ### Parts of the state -/

/-- Run a computation on the part of the state that `view` shows and `put` replaces. -/
def zoom {τ : Type} (view : σ → τ) (put : τ → σ → σ) (x : Effect τ ε α) : Effect σ ε α := do
  let outcome ← modifyGet (fun s => ((x.exec (view s)).1, put (x.exec (view s)).2 s))
  liftM outcome

@[simp] theorem exec_zoom {τ : Type} (view : σ → τ) (put : τ → σ → σ) (x : Effect τ ε α) (s : σ) :
    (zoom view put x).exec s = ((x.exec (view s)).1, put (x.exec (view s)).2 s) := by
  rw [zoom, exec_bind, exec_modifyGet]
  cases (x.exec (view s)).1 <;> rfl

/-! ### Runs that return -/

/-- From every state in `P` the computation returns `a` in a state of `Q`. -/
def Runs (P : σ → Prop) (x : Effect σ ε α) (a : α) (Q : σ → Prop) : Prop :=
  ∀ s, P s → ∃ s', x.exec s = (.ok a, s') ∧ Q s'

theorem runs_pure (P : σ → Prop) (a : α) : Runs P (pure a : Effect σ ε α) a P :=
  fun s start => ⟨s, rfl, start⟩

theorem runs_lift (P : σ → Prop) {outcome : Except ε α} {a : α} (returned : outcome = .ok a) :
    Runs P (liftM outcome : Effect σ ε α) a P := by
  subst returned
  exact runs_pure P a

theorem runs_modify {P Q : σ → Prop} {f : σ → σ} (step : ∀ s, P s → Q (f s)) :
    Runs P (modify f : Effect σ ε PUnit) ⟨⟩ Q :=
  fun s start => ⟨f s, rfl, step s start⟩

theorem Runs.bind {P Q R : σ → Prop} {x : Effect σ ε α} {f : α → Effect σ ε β} {a : α} {b : β}
    (first : Runs P x a Q) (rest : Runs Q (f a) b R) : Runs P (x >>= f) b R := by
  intro s start
  obtain ⟨s', run, middle⟩ := first s start
  rw [exec_bind_of_ok run]
  exact rest s' middle

/-! ### What can be raised -/

/-- Everything the computation may raise satisfies `P`. -/
def Raises (P : ε → Prop) (x : Effect σ ε α) : Prop := ∀ s e, (x.exec s).1 = .error e → P e

variable {P : ε → Prop}

theorem raises_pure (a : α) : Raises P (pure a : Effect σ ε α) :=
  (fun _ _ h => by cases h)

theorem raises_get : Raises P (get : Effect σ ε σ) :=
  (fun _ _ h => by cases h)

theorem raises_set (s : σ) : Raises P (set s : Effect σ ε PUnit) :=
  (fun _ _ h => by cases h)

theorem raises_throw {e : ε} (h : P e) : Raises P (throw e : Effect σ ε α) := by
  intro s e' raised
  cases raised
  exact h

theorem Raises.bind {x : Effect σ ε α} {f : α → Effect σ ε β} (hx : Raises P x)
    (hf : ∀ a, Raises P (f a)) : Raises P (x >>= f) := by
  intro s e raised
  have first := hx s
  rw [exec_bind] at raised
  rcases run : x.exec s with ⟨outcome, s'⟩
  rw [run] at raised first
  cases outcome with
  | ok a => exact hf a s' e raised
  | error e' =>
    have same : e' = e := Except.error.inj raised
    exact first e (by rw [same])

/-- From every state in `I` what the computation raises satisfies `P`, and it returns in `I`. -/
def RaisesIn (I : σ → Prop) (P : ε → Prop) (x : Effect σ ε α) : Prop :=
  ∀ s, I s → (∀ e s', x.exec s = (.error e, s') → P e) ∧ ∀ a s', x.exec s = (.ok a, s') → I s'

theorem raisesIn_pure (I : σ → Prop) (a : α) : RaisesIn I P (pure a : Effect σ ε α) := by
  intro s start
  refine ⟨(fun _ _ run => by cases run), fun _ _ run => ?_⟩
  cases run
  exact start

theorem Raises.raisesIn {I : σ → Prop} {x : Effect σ ε α} (raises : Raises P x)
    (returns : ∀ s a s', I s → x.exec s = (.ok a, s') → I s') : RaisesIn I P x :=
  fun s start => ⟨fun e _ run => raises s e (by rw [run]), fun a s' run => returns s a s' start run⟩

theorem RaisesIn.bind {I : σ → Prop} {x : Effect σ ε α} {f : α → Effect σ ε β}
    (first : RaisesIn I P x) (rest : ∀ a, RaisesIn I P (f a)) : RaisesIn I P (x >>= f) := by
  intro s start
  have outcome := first s start
  rw [exec_bind]
  rcases run : x.exec s with ⟨a | a, s'⟩
  · refine ⟨fun e s'' raised => ?_, (fun _ _ returned => by cases returned)⟩
    cases raised
    exact outcome.1 a s' run
  · exact rest a s' (outcome.2 a s' run)

/-! ### What is left behind -/

/-- From every state in `P` the computation ends in `Q`, whether it returns or raises. -/
def Leaves (P : σ → Prop) (x : Effect σ ε α) (Q : σ → Prop) : Prop := ∀ s, P s → Q (x.exec s).2

theorem leaves_pure (P : σ → Prop) (a : α) : Leaves P (pure a : Effect σ ε α) P :=
  fun _ start => start

theorem leaves_throw (P : σ → Prop) (e : ε) : Leaves P (throw e : Effect σ ε α) P :=
  fun _ start => start

theorem leaves_lift (P : σ → Prop) (outcome : Except ε α) :
    Leaves P (liftM outcome : Effect σ ε α) P := by
  cases outcome with
  | ok a => exact leaves_pure P a
  | error e => exact leaves_throw P e

theorem leaves_modifyGet {P Q : σ → Prop} {f : σ → α × σ} (step : ∀ s, P s → Q (f s).2) :
    Leaves P (modifyGet f : Effect σ ε α) Q :=
  fun s start => step s start

/-- Where the first step raises, what it left is what the sequence leaves. -/
theorem Leaves.bind {P M Q : σ → Prop} {x : Effect σ ε α} {f : α → Effect σ ε β}
    (first : Leaves P x M) (raised : ∀ s, M s → Q s) (rest : ∀ a, Leaves M (f a) Q) :
    Leaves P (x >>= f) Q := by
  intro s start
  have middle := first s start
  rw [exec_bind]
  rcases run : x.exec s with ⟨outcome, s'⟩
  rw [run] at middle
  cases outcome with
  | ok a => exact rest a s' middle
  | error e => exact raised s' middle

/-! ### How a computation ends -/

/-- From every state in `P` the computation returns some `a` in a state of `Q a`, or it raises
in a state of `R`. -/
def Ends (P : σ → Prop) (x : Effect σ ε α) (Q : α → σ → Prop) (R : σ → Prop) : Prop :=
  ∀ s, P s → (∃ a s', x.exec s = (.ok a, s') ∧ Q a s') ∨ ∃ e s', x.exec s = (.error e, s') ∧ R s'

theorem ends_pure {P Q R : σ → Prop} (a : α) (step : ∀ s, P s → Q s) :
    Ends P (pure a : Effect σ ε α) (fun _ => Q) R :=
  fun s start => Or.inl ⟨a, s, rfl, step s start⟩

theorem ends_modify {P Q R : σ → Prop} {f : σ → σ} (step : ∀ s, P s → Q (f s)) :
    Ends P (modify f : Effect σ ε PUnit) (fun _ => Q) R :=
  fun s start => Or.inl ⟨⟨⟩, f s, rfl, step s start⟩

theorem ends_lift {P R : σ → Prop} {outcome : Except ε α} {a : α} (returned : outcome = .ok a) :
    Ends P (liftM outcome : Effect σ ε α) (fun _ => P) R := by
  subst returned
  exact fun s start => Or.inl ⟨a, s, rfl, start⟩

theorem Ends.bind {P R : σ → Prop} {M : α → σ → Prop} {Q : β → σ → Prop} {x : Effect σ ε α}
    {f : α → Effect σ ε β} (first : Ends P x M R) (rest : ∀ a, Ends (M a) (f a) Q R) :
    Ends P (x >>= f) Q R := by
  intro s start
  rcases first s start with ⟨a, s', run, middle⟩ | ⟨e, s', run, raised⟩
  · rw [exec_bind_of_ok run]
    exact rest a s' middle
  · exact Or.inr ⟨e, s', exec_bind_of_error run, raised⟩

/-- What the precondition says of no state may be taken out of it. -/
theorem Ends.of_fact {φ : Prop} {P P' R : σ → Prop} {Q : α → σ → Prop} {x : Effect σ ε α}
    (fact : ∀ s, P s → φ ∧ P' s) (ends : φ → Ends P' x Q R) : Ends P x Q R :=
  fun s start => ends (fact s start).1 s (fact s start).2

theorem Ends.mono {P P' R R' : σ → Prop} {Q Q' : α → σ → Prop} {x : Effect σ ε α}
    (ends : Ends P x Q R) (begins : ∀ s, P' s → P s) (returned : ∀ a s, Q a s → Q' a s)
    (raised : ∀ s, R s → R' s) : Ends P' x Q' R' := by
  intro s start
  rcases ends s (begins s start) with ⟨a, s', run, reached⟩ | ⟨e, s', run, reached⟩
  · exact Or.inl ⟨a, s', run, returned a s' reached⟩
  · exact Or.inr ⟨e, s', run, raised s' reached⟩

/-! ### Two runs -/

/-- From related states the computation has the same outcome and ends in related states. -/
def Respects (R : σ → σ → Prop) (x : Effect σ ε α) : Prop :=
  ∀ s s', R s s' → (x.exec s).1 = (x.exec s').1 ∧ R (x.exec s).2 (x.exec s').2

variable {R : σ → σ → Prop}

theorem respects_pure (a : α) : Respects R (pure a : Effect σ ε α) :=
  fun _ _ related => ⟨rfl, related⟩

theorem respects_throw (e : ε) : Respects R (throw e : Effect σ ε α) :=
  fun _ _ related => ⟨rfl, related⟩

theorem respects_lift (outcome : Except ε α) : Respects R (liftM outcome : Effect σ ε α) := by
  cases outcome with
  | ok a => exact respects_pure a
  | error e => exact respects_throw e

theorem respects_modifyGet {f : σ → α × σ}
    (step : ∀ s s', R s s' → (f s).1 = (f s').1 ∧ R (f s).2 (f s').2) :
    Respects R (modifyGet f : Effect σ ε α) := by
  intro s s' related
  obtain ⟨same, related⟩ := step s s' related
  exact ⟨congrArg Except.ok same, related⟩

theorem Respects.bind {x : Effect σ ε α} {f : α → Effect σ ε β} (first : Respects R x)
    (rest : ∀ a, Respects R (f a)) : Respects R (x >>= f) := by
  intro s s' related
  obtain ⟨same, related⟩ := first s s' related
  rw [exec_bind, exec_bind]
  rcases run : x.exec s with ⟨outcome, r⟩
  rcases run' : x.exec s' with ⟨outcome', r'⟩
  rw [run, run'] at same related
  obtain rfl : outcome = outcome' := same
  cases outcome with
  | ok a => exact rest a r r' related
  | error e => exact ⟨rfl, related⟩

/-! ### Two computations -/

/-- Wherever `x` does not raise `e`, it runs as `y` does. -/
def UpTo (e : ε) (x y : Effect σ ε α) : Prop :=
  ∀ s, (x.exec s).1 = .error e ∨ x.exec s = y.exec s

variable {e : ε}

theorem upTo_refl (x : Effect σ ε α) : UpTo e x x := fun _ => Or.inr rfl

theorem upTo_throw (y : Effect σ ε α) : UpTo e (throw e) y := fun _ => Or.inl rfl

theorem UpTo.bind {x y : Effect σ ε α} {f g : α → Effect σ ε β} (first : UpTo e x y)
    (rest : ∀ a, UpTo e (f a) (g a)) : UpTo e (x >>= f) (y >>= g) := by
  intro s
  rcases first s with raised | same
  · refine Or.inl ?_
    rw [exec_bind]
    rcases run : x.exec s with ⟨outcome, s'⟩
    rw [run] at raised
    cases raised
    rfl
  · rw [exec_bind, exec_bind, same]
    rcases y.exec s with ⟨raised | a, s'⟩
    · exact Or.inr rfl
    · exact rest a s'

end Effect

end MiniRedis.Base
