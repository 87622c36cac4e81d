/- GID: MiniRedis/Base/Starvation
   generality: G
   digest: Readers that fail wherever the input ends before the piece they take. -/

import MiniRedis.Base.Stream

set_option autoImplicit false
set_option relaxedAutoImplicit false

namespace MiniRedis.Base

variable {σ ε τ α β : Type}

/-- Where less than `used` is pending, and less than `bound` elements, the reader fails with an
error of this kind. -/
def Starves (pending : σ → List τ) (kind : ε → Prop) (bound : ℕ) (p : Effect σ ε α)
    (used : List τ) : Prop :=
  ∀ s missing, missing ≠ [] → used = pending s ++ missing → (pending s).length < bound →
    ∃ e s', p.exec s = (.error e, s') ∧ kind e

variable {pending : σ → List τ} {kind : ε → Prop} {bound : ℕ}

theorem starves_nil (p : Effect σ ε α) : Starves pending kind bound p [] := by
  intro s missing some used
  exact (some (List.append_eq_nil_iff.mp used.symm).2).elim

theorem starves_zero (p : Effect σ ε α) (used : List τ) : Starves pending kind 0 p used :=
  fun _ _ _ _ short => (Nat.not_lt_zero _ short).elim

theorem Starves.bind {p : Effect σ ε α} {f : α → Effect σ ε β} {first second : List τ} {a : α}
    (taken : first.length < bound → Consumes pending p first (.ok a))
    (starves : Starves pending kind bound p first)
    (next : Starves pending kind bound (f a) second) :
    Starves pending kind bound (p >>= f) (first ++ second) := by
  intro s missing some front short
  have later : ∀ more, pending s = first ++ more → second = more ++ missing →
      ∃ e s', (p >>= f).exec s = (.error e, s') ∧ kind e := by
    intro more here there
    have length := congrArg List.length here
    rw [List.length_append] at length
    obtain ⟨s', run, left⟩ := taken (by omega) s more here
    obtain ⟨e, s'', run', raised⟩ := next s' missing some (by rw [left, there]) (by rw [left]; omega)
    exact ⟨e, s'', by rw [Effect.exec_bind_of_ok run, run'], raised⟩
  rcases List.append_eq_append_iff.mp front with ⟨more, here, there⟩ | ⟨rest, here, there⟩
  · exact later more here there
  · by_cases whole : rest = []
    · subst whole
      refine later [] ?_ ?_
      · rw [List.append_nil] at here ⊢
        exact here.symm
      · rw [List.nil_append] at there ⊢
        exact there.symm
    · obtain ⟨e, s', run, raised⟩ := starves s rest whole here short
      exact ⟨e, s', Effect.exec_bind_of_error run, raised⟩

theorem Starves.bind_done {p : Effect σ ε α} {used : List τ}
    (starves : Starves pending kind bound p used) (f : α → Effect σ ε β) :
    Starves pending kind bound (p >>= f) used := by
  intro s missing some front short
  obtain ⟨e, s', run, raised⟩ := starves s missing some front short
  exact ⟨e, s', Effect.exec_bind_of_error run, raised⟩

theorem starves_times {ι : Type} {p : Effect σ ε α} {items : List ι} {code : ι → List τ}
    (meaning : ι → α)
    (taken : ∀ i ∈ items, (code i).length < bound → Consumes pending p (code i) (.ok (meaning i)))
    (starves : ∀ i ∈ items, Starves pending kind bound p (code i)) :
    Starves pending kind bound (Effect.times p items.length) (items.flatMap code) := by
  induction items with
  | nil => exact starves_nil _
  | cons i items ih =>
    rw [List.flatMap_cons]
    have rest := ih (fun j member => taken j (List.mem_cons_of_mem i member))
      (fun j member => starves j (List.mem_cons_of_mem i member))
    exact Starves.bind (taken i List.mem_cons_self) (starves i List.mem_cons_self)
      (rest.bind_done _)

theorem Starves.of_head {p : Effect σ ε α} {q : Effect σ ε α} {head : τ} {used : List τ}
    (empty : ∀ s, pending s = [] → ∃ e s', p.exec s = (.error e, s') ∧ kind e)
    (step : ∀ s rest, pending s = head :: rest → ∃ s', p.exec s = q.exec s' ∧ pending s' = rest)
    (next : Starves pending kind bound q used) :
    Starves pending kind (bound + 1) p (head :: used) := by
  intro s missing some front short
  cases here : pending s with
  | nil => exact empty s here
  | cons first rest =>
    rw [here, List.cons_append] at front
    obtain ⟨rfl, rfl⟩ := List.cons.inj front
    obtain ⟨s', run, left⟩ := step s rest here
    rw [here, List.length_cons] at short
    rw [run]
    exact next s' missing some (by rw [left]) (by rw [left]; omega)

end MiniRedis.Base
