/- GID: MiniRedis/Base/Stream
   generality: G
   digest: Readers that take an exact prefix of what is pending compose by concatenation. -/

import Mathlib.Data.List.Basic
import MiniRedis.Base.Effect

set_option autoImplicit false
set_option relaxedAutoImplicit false

namespace MiniRedis.Base

variable {σ ε τ α β : Type}

/-! ### Loops and lines -/

/-- Run a computation a number of times and collect the results. -/
def Effect.times (p : Effect σ ε α) : ℕ → Effect σ ε (List α)
  | 0 => pure []
  | n + 1 => do
    let a ← p
    let as ← Effect.times p n
    return a :: as

theorem Effect.exists_of_exec_times {p : Effect σ ε α} {n : ℕ} {s s'' : σ} {as : List α}
    (h : (Effect.times p (n + 1)).exec s = (.ok as, s'')) :
    ∃ a s' rest, p.exec s = (.ok a, s') ∧ (Effect.times p n).exec s' = (.ok rest, s'') ∧
      as = a :: rest := by
  obtain ⟨a, s', first, h⟩ := Effect.exists_of_exec_bind h
  obtain ⟨rest, s₂, later, h⟩ := Effect.exists_of_exec_bind h
  cases h
  exact ⟨a, s', rest, first, later, rfl⟩

theorem Effect.RaisesIn.times {I : σ → Prop} {P : ε → Prop} {p : Effect σ ε α}
    (hp : Effect.RaisesIn I P p) (n : ℕ) : Effect.RaisesIn I P (p.times n) := by
  induction n with
  | zero => exact Effect.raisesIn_pure I []
  | succ n ih => exact hp.bind (fun _ => ih.bind (fun _ => Effect.raisesIn_pure I _))

theorem Effect.UpTo.times {e : ε} {p q : Effect σ ε α} (h : Effect.UpTo e p q) (n : ℕ) :
    Effect.UpTo e (p.times n) (q.times n) := by
  induction n with
  | zero => exact Effect.upTo_refl _
  | succ n ih => exact h.bind (fun _ => ih.bind (fun _ => Effect.upTo_refl _))

/-- What stands before and after the first `a` that a `b` follows. -/
def breakAt [DecidableEq τ] (a b : τ) : List τ → Option (List τ × List τ)
  | [] => none
  | [_] => none
  | x :: y :: rest =>
    if x = a ∧ y = b then some ([], rest)
    else (breakAt a b (y :: rest)).map (fun (before, after) => (x :: before, after))

theorem breakAt_unbroken [DecidableEq τ] {a b : τ} (distinct : a ≠ b) {line : List τ}
    (unbroken : breakAt a b line = none) (rest : List τ) :
    breakAt a b (line ++ a :: b :: rest) = some (line, rest) := by
  induction line with
  | nil => simp [breakAt]
  | cons x line ih =>
    cases line with
    | nil => simp [breakAt, distinct]
    | cons y line =>
      rw [breakAt] at unbroken
      split at unbroken
      · cases unbroken
      · rename_i other
        have next := ih (Option.map_eq_none_iff.mp unbroken)
        rw [List.cons_append] at next
        rw [List.cons_append, List.cons_append, breakAt, if_neg other, next]
        rfl

theorem breakAt_eq [DecidableEq τ] {a b : τ} {list before after : List τ}
    (found : breakAt a b list = some (before, after)) : list = before ++ a :: b :: after := by
  induction list generalizing before with
  | nil => cases found
  | cons x list ih =>
    cases list with
    | nil => cases found
    | cons y rest =>
      simp only [breakAt] at found
      split at found
      · rename_i here
        cases found
        rw [here.1, here.2]
        rfl
      · obtain ⟨⟨before', after'⟩, found', same⟩ := Option.map_eq_some_iff.mp found
        cases same
        rw [ih found']
        rfl

theorem breakAt_local [DecidableEq τ] {a b : τ} {list before after : List τ}
    (found : breakAt a b list = some (before, after)) (rest : List τ) :
    breakAt a b (before ++ a :: b :: rest) = some (before, rest) := by
  induction list generalizing before with
  | nil => cases found
  | cons x list ih =>
    cases list with
    | nil => cases found
    | cons y list =>
      simp only [breakAt] at found
      split at found
      · cases found
        rw [List.nil_append, breakAt, if_pos ⟨rfl, rfl⟩]
      · rename_i other
        obtain ⟨⟨before', after'⟩, found', same⟩ := Option.map_eq_some_iff.mp found
        cases same
        have next := ih found'
        obtain ⟨more, starts⟩ : ∃ more, before' ++ a :: b :: rest = y :: more := by
          have whole := breakAt_eq found'
          cases before' with
          | nil => exact ⟨_, by rw [(List.cons.inj whole).1]; rfl⟩
          | cons z before' => exact ⟨_, by rw [(List.cons.inj whole).1]; rfl⟩
        rw [starts] at next
        rw [List.cons_append, starts, breakAt, if_neg other, next]
        rfl

theorem breakAt_eq_none [DecidableEq τ] {a b : τ} {list : List τ} (plain : ¬ [a, b] <:+: list) :
    breakAt a b list = none := by
  cases found : breakAt a b list with
  | none => rfl
  | some split =>
    refine (plain ⟨split.1, split.2, ?_⟩).elim
    rw [breakAt_eq found]
    simp

/-! ### Exact consumption -/

/-- On every state with `used` pending in front, the reader takes exactly `used` and ends with
the outcome. -/
def Consumes (pending : σ → List τ) (p : Effect σ ε α) (used : List τ) (outcome : Except ε α) :
    Prop :=
  ∀ s rest, pending s = used ++ rest → ∃ s', p.exec s = (outcome, s') ∧ pending s' = rest

variable {pending : σ → List τ}

theorem consumes_pure (a : α) : Consumes pending (pure a : Effect σ ε α) [] (.ok a) :=
  fun s _ h => ⟨s, rfl, h⟩

theorem consumes_throw (e : ε) : Consumes pending (throw e : Effect σ ε α) [] (.error e) :=
  fun s _ h => ⟨s, rfl, h⟩

theorem Consumes.bind {p : Effect σ ε α} {f : α → Effect σ ε β} {first second : List τ} {a : α}
    {outcome : Except ε β} (hp : Consumes pending p first (.ok a))
    (hf : Consumes pending (f a) second outcome) :
    Consumes pending (p >>= f) (first ++ second) outcome := by
  intro s rest h
  rw [List.append_assoc] at h
  obtain ⟨s', run, h'⟩ := hp s _ h
  obtain ⟨s'', run', h''⟩ := hf s' _ h'
  exact ⟨s'', by rw [Effect.exec_bind_of_ok run, run'], h''⟩

theorem Consumes.bind_done {p : Effect σ ε α} {f : α → Effect σ ε β} {used : List τ} {a : α}
    {outcome : Except ε β} (hp : Consumes pending p used (.ok a))
    (hf : Consumes pending (f a) [] outcome) : Consumes pending (p >>= f) used outcome := by
  have both := hp.bind hf
  rwa [List.append_nil] at both

theorem Consumes.map {p : Effect σ ε α} {used : List τ} {a : α}
    (hp : Consumes pending p used (.ok a)) (g : α → β) :
    Consumes pending (g <$> p) used (.ok (g a)) := by
  intro s rest h
  obtain ⟨s', run, h'⟩ := hp s rest h
  exact ⟨s', by rw [Effect.exec_map, run]; rfl, h'⟩

/-- A reader that finds each piece in turn collects what the pieces mean. -/
theorem consumes_times {ι : Type} {p : Effect σ ε α} {items : List ι} {code : ι → List τ}
    {meaning : ι → α} (each : ∀ i ∈ items, Consumes pending p (code i) (.ok (meaning i))) :
    Consumes pending (Effect.times p items.length) (items.flatMap code)
      (.ok (items.map meaning)) := by
  induction items with
  | nil => exact consumes_pure []
  | cons i items ih =>
    have first := each i List.mem_cons_self
    have rest := ih (fun j member => each j (List.mem_cons_of_mem i member))
    exact first.bind (rest.bind_done (consumes_pure _))

/-- On every state with `used` pending in front, the reader raises `e`. -/
def RaisesOn (pending : σ → List τ) (p : Effect σ ε α) (used : List τ) (e : ε) : Prop :=
  ∀ s rest, pending s = used ++ rest → (p.exec s).1 = .error e

theorem RaisesOn.bind {p : Effect σ ε α} {used : List τ} {e : ε}
    (raises : RaisesOn pending p used e) (f : α → Effect σ ε β) :
    RaisesOn pending (p >>= f) used e := by
  intro s rest h
  have raised := raises s rest h
  rcases run : p.exec s with ⟨outcome, s'⟩
  rw [run] at raised
  cases raised
  rw [Effect.exec_bind_of_error run]

theorem RaisesOn.append {p : Effect σ ε α} {used : List τ} {e : ε}
    (raises : RaisesOn pending p used e) (more : List τ) : RaisesOn pending p (used ++ more) e :=
  fun s rest h => raises s (more ++ rest) (by rw [h, List.append_assoc])

theorem Consumes.bind_raisesOn {p : Effect σ ε α} {f : α → Effect σ ε β} {first second : List τ}
    {a : α} {e : ε} (hp : Consumes pending p first (.ok a))
    (hf : RaisesOn pending (f a) second e) : RaisesOn pending (p >>= f) (first ++ second) e := by
  intro s rest h
  rw [List.append_assoc] at h
  obtain ⟨s', run, h'⟩ := hp s _ h
  rw [Effect.exec_bind_of_ok run]
  exact hf s' rest h'

/-- A loop over pieces raises at the first of them that cannot be read. -/
theorem raisesOn_times {ι : Type} {p : Effect σ ε α} {items : List ι} {code : ι → List τ}
    {meaning : ι → α} {e : ε}
    (each : ∀ i ∈ items, Consumes pending p (code i) (.ok (meaning i)) ∨
      RaisesOn pending p (code i) e)
    (raising : ∃ i ∈ items, RaisesOn pending p (code i) e) :
    RaisesOn pending (Effect.times p items.length) (items.flatMap code) e := by
  induction items with
  | nil =>
    obtain ⟨_, member, -⟩ := raising
    cases member
  | cons i items ih =>
    rw [List.forall_mem_cons] at each
    rw [List.flatMap_cons]
    rcases each.1 with taken | here
    · rw [List.exists_mem_cons_iff] at raising
      rcases raising with here | later
      · exact (here.bind _).append _
      · exact taken.bind_raisesOn ((ih each.2 later).bind _)
    · exact (here.bind _).append _

/-! ### What was taken -/

/-- A successful reader takes a piece from the front, related to its result. -/
def Takes (p : Effect (List τ) ε α) (P : List τ → α → Prop) : Prop :=
  ∀ s a s', p.exec s = (.ok a, s') → ∃ used, s = used ++ s' ∧ P used a

theorem takes_pure {P : List τ → α → Prop} {a : α} (h : P [] a) :
    Takes (pure a : Effect (List τ) ε α) P := by
  intro s b s' run
  cases run
  exact ⟨[], rfl, h⟩

theorem takes_throw (e : ε) (P : List τ → α → Prop) :
    Takes (throw e : Effect (List τ) ε α) P := by
  intro s a s' run
  cases run

theorem Takes.bind {p : Effect (List τ) ε α} {f : α → Effect (List τ) ε β}
    {P : List τ → α → Prop} {Q : List τ → β → Prop} (first : Takes p P)
    (next : ∀ used a, P used a → Takes (f a) (fun later b => Q (used ++ later) b)) :
    Takes (p >>= f) Q := by
  intro s b s'' run
  obtain ⟨a, s', run, run'⟩ := Effect.exists_of_exec_bind run
  obtain ⟨used, rfl, piece⟩ := first s a s' run
  obtain ⟨later, rfl, pieces⟩ := next used a piece s' b s'' run'
  exact ⟨used ++ later, (List.append_assoc _ _ _).symm, pieces⟩

theorem Takes.mono {p : Effect (List τ) ε α} {P Q : List τ → α → Prop} (h : Takes p P)
    (weaker : ∀ used a, P used a → Q used a) : Takes p Q := by
  intro s a s' run
  obtain ⟨used, taken, piece⟩ := h s a s' run
  exact ⟨used, taken, weaker used a piece⟩

theorem Takes.times {p : Effect (List τ) ε α} {P : List τ → α → Prop} (h : Takes p P) (n : ℕ) :
    Takes (p.times n) (fun used as => as.length = n ∧
      ∃ pieces, used = pieces.flatten ∧ List.Forall₂ P pieces as) := by
  induction n with
  | zero => exact takes_pure ⟨rfl, [], rfl, .nil⟩
  | succ n ih =>
    refine h.bind (fun used a piece => ih.bind (fun later as collected => takes_pure ?_))
    obtain ⟨count, pieces, rfl, related⟩ := collected
    refine ⟨by rw [List.length_cons, count], used :: pieces, ?_, .cons piece related⟩
    rw [List.append_nil, List.flatten_cons]

/-! ### Local reading -/

/-- Where `p` succeeds, what it takes decides that: `q` takes it with the same result, whatever
follows. -/
def ReadsLocally (p q : Effect (List τ) ε α) : Prop :=
  Takes p (fun used a => Consumes id q used (.ok a))

theorem readsLocally_pure (a : α) : ReadsLocally (pure a : Effect (List τ) ε α) (pure a) :=
  takes_pure (consumes_pure a)

theorem readsLocally_throw (e : ε) (q : Effect (List τ) ε α) : ReadsLocally (throw e) q :=
  takes_throw e _

theorem ReadsLocally.bind {p q : Effect (List τ) ε α} {f g : α → Effect (List τ) ε β}
    (first : ReadsLocally p q) (next : ∀ a, ReadsLocally (f a) (g a)) :
    ReadsLocally (p >>= f) (q >>= g) :=
  Takes.bind first (fun _ a taken => (next a).mono (fun _ _ taken' => taken.bind taken'))

theorem ReadsLocally.times {p q : Effect (List τ) ε α} (h : ReadsLocally p q) (n : ℕ) :
    ReadsLocally (p.times n) (q.times n) := by
  induction n with
  | zero => exact readsLocally_pure []
  | succ n ih => exact h.bind (fun _ => ih.bind (fun _ => readsLocally_pure _))

/-- A success is one also when more follows. -/
theorem ReadsLocally.exec_append {p q : Effect (List τ) ε α} (h : ReadsLocally p q) {s s' : List τ}
    {a : α} (run : p.exec s = (.ok a, s')) (more : List τ) :
    q.exec (s ++ more) = (.ok a, s' ++ more) := by
  obtain ⟨used, rfl, taken⟩ := h s a s' run
  obtain ⟨_, run', rfl⟩ := taken (used ++ s' ++ more) (s' ++ more) (List.append_assoc _ _ _)
  exact run'

end MiniRedis.Base
