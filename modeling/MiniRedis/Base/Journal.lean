/- GID: MiniRedis/Base/Journal
   generality: G
   digest: Computations that only append to a log are specified by what they append. -/

import MiniRedis.Base.Effect

set_option autoImplicit false
set_option relaxedAutoImplicit false

namespace MiniRedis.Base.Effect

variable {ω ε α β ι : Type}

/-- Where the computation returns, what it appended to the log satisfies `Q` with its result,
whatever stood in the log before. -/
def Appends (x : Effect (List ω) ε α) (Q : α → List ω → Prop) : Prop :=
  ∀ log a log', x.exec log = (.ok a, log') → ∃ added, log' = log ++ added ∧ Q a added

theorem appends_pure {Q : α → List ω → Prop} {a : α} (nothing : Q a []) :
    Appends (pure a : Effect (List ω) ε α) Q := by
  intro log a' log' run
  cases run
  exact ⟨[], (List.append_nil log).symm, nothing⟩

theorem Appends.mono {Q Q' : α → List ω → Prop} {x : Effect (List ω) ε α} (appends : Appends x Q)
    (weaker : ∀ a added, Q a added → Q' a added) : Appends x Q' := by
  intro log a log' run
  obtain ⟨added, grown, kept⟩ := appends log a log' run
  exact ⟨added, grown, weaker a added kept⟩

theorem Appends.bind {M : α → List ω → Prop} {Q : β → List ω → Prop} {x : Effect (List ω) ε α}
    {f : α → Effect (List ω) ε β} (first : Appends x M)
    (rest : ∀ a added, M a added → Appends (f a) (fun b later => Q b (added ++ later))) :
    Appends (x >>= f) Q := by
  intro log b log'' run
  obtain ⟨a, log', run, run'⟩ := exists_of_exec_bind run
  obtain ⟨added, rfl, middle⟩ := first log a log' run
  obtain ⟨later, rfl, kept⟩ := rest a added middle _ b log'' run'
  exact ⟨added ++ later, List.append_assoc log added later, kept⟩

/-- A loop appends what its rounds append, where the relation `R` composes. The rounds of an element
`b` are named by `g b`. -/
theorem appends_foldlM {R : List ι → α → α → List ω → Prop} {f : α → β → Effect (List ω) ε α}
    {g : β → List ι} (stay : ∀ a, R [] a a [])
    (compose : ∀ {is js a a' a'' added later}, R is a a' added → R js a' a'' later →
      R (is ++ js) a a'' (added ++ later))
    {l : List β} (round : ∀ b ∈ l, ∀ a, Appends (f a b) (R (g b) a)) (a : α) :
    Appends (l.foldlM f a) (R (l.flatMap g) a) := by
  induction l generalizing a with
  | nil => exact appends_pure (stay a)
  | cons b l ih =>
    rw [List.foldlM_cons]
    apply Appends.bind (round b List.mem_cons_self a)
    intro a' added first
    apply Appends.mono (ih (fun b' member => round b' (List.mem_cons_of_mem b member)) a')
    intro a'' later rest
    exact compose first rest

/-! ### Logs that follow a script -/

section Scripts

variable {κ : Type}

/-- What the computation appends follows a script: it is all of the script where the computation
returns, with a result of `Q`, and a first part of it where the computation raises. -/
def Traces (key : ω → κ) (script : List κ) (x : Effect (List ω) ε α) (Q : α → Prop) : Prop :=
  ∀ log, ∃ added, (x.exec log).2 = log ++ added ∧ added.map key <+: script ∧
    ∀ a, (x.exec log).1 = .ok a → added.map key = script ∧ Q a

variable {key : ω → κ} {script : List κ} {Q : α → Prop}

theorem traces_pure {a : α} (kept : Q a) : Traces key [] (pure a : Effect (List ω) ε α) Q := by
  intro log
  refine ⟨[], (List.append_nil log).symm, List.prefix_rfl, ?_⟩
  intro a' returned
  cases returned
  exact ⟨rfl, kept⟩

theorem traces_throw (e : ε) : Traces key script (throw e : Effect (List ω) ε α) Q :=
  fun log => ⟨[], (List.append_nil log).symm, List.nil_prefix, fun _ returned => nomatch returned⟩

theorem Traces.bind {script' : List κ} {M : α → Prop} {Q : β → Prop} {x : Effect (List ω) ε α}
    {f : α → Effect (List ω) ε β} (first : Traces key script x M)
    (rest : ∀ a, M a → Traces key script' (f a) Q) : Traces key (script ++ script') (x >>= f) Q := by
  intro log
  obtain ⟨added, grown, part, returned⟩ := first log
  rw [exec_bind]
  rcases run : x.exec log with ⟨outcome, log'⟩
  rw [run] at grown returned
  obtain rfl : log' = log ++ added := grown
  cases outcome with
  | error e => exact ⟨added, rfl, part.trans (List.prefix_append _ _), fun _ same => nomatch same⟩
  | ok a =>
    obtain ⟨whole, middle⟩ := returned a rfl
    obtain ⟨later, grown', part', returned'⟩ := rest a middle (log ++ added)
    refine ⟨added ++ later, by rw [← List.append_assoc]; exact grown', ?_, ?_⟩
    · rw [List.map_append, whole]
      exact (List.prefix_append_right_inj script).mpr part'
    · intro b same
      obtain ⟨whole', kept⟩ := returned' b same
      rw [List.map_append, whole, whole']
      exact ⟨rfl, kept⟩

theorem Traces.bind_silent {M : α → Prop} {Q : β → Prop} {x : Effect (List ω) ε α}
    {f : α → Effect (List ω) ε β} (first : Traces key script x M)
    (rest : ∀ a, M a → Traces key [] (f a) Q) : Traces key script (x >>= f) Q := by
  rw [← List.append_nil script]
  exact first.bind rest

theorem Traces.after_append {entry : ω} {f : PUnit → Effect (List ω) ε α}
    (rest : Traces key script (f ⟨⟩) Q) :
    Traces key (key entry :: script) (modify (· ++ [entry]) >>= f) Q := by
  have first : Traces key [key entry] (modify (· ++ [entry]) : Effect (List ω) ε PUnit)
      (fun _ => True) := fun log => ⟨[entry], rfl, List.prefix_rfl, fun _ _ => ⟨rfl, trivial⟩⟩
  exact first.bind (fun _ _ => rest)

theorem Traces.after_lift {β : Type} {outcome : Except ε β} {f : β → Effect (List ω) ε α}
    (rest : ∀ b, outcome = .ok b → Traces key script (f b) Q) :
    Traces key script (liftM outcome >>= f) Q := by
  cases outcome with
  | ok b => exact rest b rfl
  | error e => exact traces_throw e

theorem Traces.mono {Q' : α → Prop} {x : Effect (List ω) ε α} (traces : Traces key script x Q)
    (weaker : ∀ a, Q a → Q' a) : Traces key script x Q' := by
  intro log
  obtain ⟨added, grown, part, returned⟩ := traces log
  exact ⟨added, grown, part, fun a same => ⟨(returned a same).1, weaker a (returned a same).2⟩⟩

theorem Traces.appends {x : Effect (List ω) ε α} (traces : Traces key script x Q) :
    Appends x (fun a added => added.map key = script ∧ Q a) := by
  intro log a log' run
  obtain ⟨added, grown, -, returned⟩ := traces log
  rw [run] at grown returned
  exact ⟨added, grown, returned a rfl⟩

/-- A loop follows the scripts of its rounds, where a script may depend on how many elements came
before. The rounds of an element `b` are named by `g b`, and `I` tells the number. -/
theorem traces_foldlM {S : ℕ → List ι → List κ} {I : ℕ → α → Prop} {f : α → β → Effect (List ω) ε α}
    {g : β → List ι} (stay : ∀ n, S n [] = [])
    (compose : ∀ n is js, S n (is ++ js) = S n is ++ S (n + is.length) js) {l : List β}
    (round : ∀ b ∈ l, ∀ n a, I n a → Traces key (S n (g b)) (f a b) (I (n + (g b).length)))
    (n : ℕ) {a : α} (start : I n a) :
    Traces key (S n (l.flatMap g)) (l.foldlM f a) (I (n + (l.flatMap g).length)) := by
  induction l generalizing n a with
  | nil =>
    rw [List.flatMap_nil, stay]
    exact traces_pure start
  | cons b l ih =>
    rw [List.foldlM_cons, List.flatMap_cons, compose, List.length_append, ← Nat.add_assoc]
    exact (round b List.mem_cons_self n a start).bind
      (fun a' middle => ih (fun b' member => round b' (List.mem_cons_of_mem b member)) _ middle)

end Scripts

end MiniRedis.Base.Effect
