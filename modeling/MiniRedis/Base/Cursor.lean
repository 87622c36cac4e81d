/- GID: MiniRedis/Base/Cursor
   generality: G
   digest: A reader with an index into the whole input follows one that holds what is left of it. -/

import MiniRedis.Base.Stream

set_option autoImplicit false
set_option relaxedAutoImplicit false

namespace MiniRedis.Base

variable {τ ε α β : Type}

/-! ### Line ends -/

/-- The first index from `start` on at which an `a` stands that a `b` follows. -/
def findPair [DecidableEq τ] (a b : τ) (data : List τ) (start : ℕ) : Option ℕ :=
  (List.range' start (data.length - start)).find?
    (fun i => data[i]? = some a ∧ data[i + 1]? = some b)

theorem bounds_of_findPair [DecidableEq τ] {a b : τ} {data : List τ} {start i : ℕ}
    (found : findPair a b data start = some i) : start ≤ i ∧ i + 2 ≤ data.length := by
  refine ⟨(List.mem_range'_1.mp (List.mem_of_find?_eq_some found)).1, ?_⟩
  have pair := List.find?_some found
  rw [decide_eq_true_iff] at pair
  obtain ⟨inside, -⟩ := List.getElem?_eq_some_iff.mp pair.2
  omega

private theorem findPair_step [DecidableEq τ] {a b : τ} {data : List τ} {start : ℕ}
    (inside : start < data.length) :
    findPair a b data start =
      if data[start]? = some a ∧ data[start + 1]? = some b then some start
      else findPair a b data (start + 1) := by
  have range : List.range' start (data.length - start) =
      start :: List.range' (start + 1) (data.length - (start + 1)) := by
    rw [show data.length - start = data.length - (start + 1) + 1 by omega, List.range'_succ]
  rw [findPair, range, List.find?_cons]
  split
  · rename_i here
    rw [if_pos (of_decide_eq_true here)]
  · rename_i here
    rw [if_neg (of_decide_eq_false here), findPair]

theorem breakAt_drop [DecidableEq τ] (a b : τ) (data : List τ) (start : ℕ) :
    breakAt a b (data.drop start) = (findPair a b data start).map
      (fun i => ((data.drop start).take (i - start), data.drop (i + 2))) := by
  induction left : data.length - start generalizing start with
  | zero =>
    rw [List.drop_eq_nil_of_le (by omega), findPair, left]
    rfl
  | succ n ih =>
    have inside : start < data.length := by omega
    have next := ih (start + 1) (by omega)
    rw [findPair_step inside, List.getElem?_eq_getElem inside, List.drop_eq_getElem_cons inside]
    by_cases more : start + 1 < data.length
    · rw [List.drop_eq_getElem_cons more] at next ⊢
      rw [breakAt, List.getElem?_eq_getElem more]
      by_cases here : data[start] = a ∧ data[start + 1] = b
      · rw [if_pos here, if_pos ⟨congrArg some here.1, congrArg some here.2⟩]
        simp
      · rw [if_neg here, if_neg (by rwa [Option.some_inj, Option.some_inj]), next, Option.map_map]
        refine Option.map_congr ?_
        intro i found
        have later := (bounds_of_findPair found).1
        rw [show i - start = i - (start + 1) + 1 by omega]
        rfl
    · rw [List.drop_eq_nil_of_le (by omega)] at next ⊢
      have none_later := Option.map_eq_none_iff.mp next.symm
      have past : data[start + 1]? = none := List.getElem?_eq_none (by omega)
      rw [if_neg (by simp [past]), none_later]
      rfl

/-! ### Readers with an index -/

/-- From index `i` on the reader `p` of the whole input, whose result is `none` where it has not
ended, ends as `q` does on what is left, at least `n` further. -/
structure Follows (data : List τ) (i n : ℕ) (p : ExceptT ε Option (α × ℕ))
    (q : Effect (List τ) ε α) : Prop where
  returned : ∀ a rest, q.exec (data.drop i) = (.ok a, rest) → ∃ j, p.run = some (.ok (a, j)) ∧
    i + n ≤ j ∧ j ≤ data.length ∧ rest = data.drop j
  raised : ∀ e rest, q.exec (data.drop i) = (.error e, rest) → p.run = some (.error e)

variable {data : List τ} {i n m : ℕ}

theorem follows_of_returned {p : ExceptT ε Option (α × ℕ)} {q : Effect (List τ) ε α} {a : α}
    {j : ℕ} (read : q.exec (data.drop i) = (.ok a, data.drop j))
    (run : p.run = some (.ok (a, j))) (far : i + n ≤ j) (inside : j ≤ data.length) :
    Follows data i n p q := by
  refine ⟨?_, ?_⟩
  · intro b rest read'
    rw [read] at read'
    cases read'
    exact ⟨j, run, far, inside, rfl⟩
  · intro e rest read'
    rw [read] at read'
    cases read'

theorem follows_of_raised {p : ExceptT ε Option (α × ℕ)} {q : Effect (List τ) ε α} {e : ε}
    (read : (q.exec (data.drop i)).1 = .error e) (run : p.run = some (.error e)) : Follows data i n p q := by
  refine ⟨?_, ?_⟩
  · intro b rest read'
    rw [read'] at read
    cases read
  · intro e' rest read'
    rw [read'] at read
    cases read
    exact run

theorem follows_pure (inside : i ≤ data.length) (a : α) :
    Follows data i 0 (pure (a, i) : ExceptT ε Option (α × ℕ)) (pure a) :=
  follows_of_returned rfl rfl (Nat.le_refl _) inside

theorem follows_throw (e : ε) :
    Follows data i n (throw e : ExceptT ε Option (α × ℕ)) (throw e) :=
  follows_of_raised rfl rfl

theorem Follows.bind {p : ExceptT ε Option (α × ℕ)} {q : Effect (List τ) ε α}
    {f : α × ℕ → ExceptT ε Option (β × ℕ)} {g : α → Effect (List τ) ε β}
    (first : Follows data i n p q)
    (next : ∀ a j, i + n ≤ j → j ≤ data.length → Follows data j m (f (a, j)) (g a)) :
    Follows data i (n + m) (p >>= f) (q >>= g) := by
  refine ⟨?_, ?_⟩
  · intro b rest run
    obtain ⟨a, s, run, run'⟩ := Effect.exists_of_exec_bind run
    obtain ⟨j, returned, far, inside, rfl⟩ := first.returned a s run
    obtain ⟨k, returned', far', inside', rfl⟩ := (next a j far inside).returned b rest run'
    refine ⟨k, ?_, by omega, inside', rfl⟩
    rw [ExceptT.run_bind, returned]
    exact returned'
  · intro e rest run
    cases outcome : q.exec (data.drop i) with
    | mk result s =>
      cases result with
      | ok a =>
        obtain ⟨j, returned, far, inside, rfl⟩ := first.returned a s outcome
        rw [Effect.exec_bind_of_ok outcome] at run
        rw [ExceptT.run_bind, returned]
        exact (next a j far inside).raised e rest run
      | error e' =>
        rw [Effect.exec_bind_of_error outcome] at run
        cases run
        rw [ExceptT.run_bind, first.raised e _ outcome]
        rfl

theorem Follows.mono {p : ExceptT ε Option (α × ℕ)} {q : Effect (List τ) ε α}
    (h : Follows data i n p q) (le : m ≤ n) : Follows data i m p q := by
  refine ⟨?_, h.raised⟩
  intro a rest run
  obtain ⟨j, returned, far, inside, left⟩ := h.returned a rest run
  exact ⟨j, returned, by omega, inside, left⟩

theorem Follows.run_eq {p : ExceptT ε Option (α × ℕ)} {q : Effect (List τ) ε α}
    (h : Follows data i n p q) : p.run = some ((q.exec (data.drop i)).1.map
      (fun a => (a, data.length - (q.exec (data.drop i)).2.length))) := by
  cases outcome : q.exec (data.drop i) with
  | mk result rest =>
    cases result with
    | ok a =>
      obtain ⟨j, returned, -, inside, rfl⟩ := h.returned a rest outcome
      rw [returned, List.length_drop, Nat.sub_sub_self inside]
      rfl
    | error e => exact h.raised e rest outcome

/-- A reader that has further to go than its input reaches raises. -/
theorem Follows.run_of_short {p : ExceptT ε Option (α × ℕ)} {q : Effect (List τ) ε α} {e : ε}
    {I : List τ → Prop} (h : Follows data i n p q) (raises : Effect.RaisesIn I (· = e) q)
    (start : I (data.drop i)) (short : data.length < i + n) : p.run = some (.error e) := by
  cases outcome : q.exec (data.drop i) with
  | mk result rest =>
    cases result with
    | ok a =>
      obtain ⟨j, -, far, inside, -⟩ := h.returned a rest outcome
      omega
    | error e' =>
      obtain rfl : e' = e := (raises _ start).1 e' rest outcome
      exact h.raised e' rest outcome

theorem Follows.exec_of_run {p : ExceptT ε Option (α × ℕ)} {q : Effect (List τ) ε α}
    (h : Follows data i n p q) {a : α} {j : ℕ} (run : p.run = some (.ok (a, j))) :
    q.exec (data.drop i) = (.ok a, data.drop j) ∧ i + n ≤ j ∧ j ≤ data.length := by
  cases outcome : q.exec (data.drop i) with
  | mk result rest =>
    cases result with
    | ok b =>
      obtain ⟨k, returned, far, inside, rfl⟩ := h.returned b rest outcome
      rw [run] at returned
      cases returned
      exact ⟨rfl, far, inside⟩
    | error e =>
      have raised := h.raised e rest outcome
      rw [run] at raised
      cases raised

/-- Where a reader returns, one of any other input does that agrees up to the index returned. -/
theorem Follows.run_of_agree {p p' : ExceptT ε Option (α × ℕ)} {q q' : Effect (List τ) ε α}
    {data' : List τ} (h : Follows data i n p q) (h' : Follows data' i m p' q')
    (reads : ReadsLocally q q') {a : α} {j : ℕ} (further : 0 < n)
    (run : p.run = some (.ok (a, j))) (agree : ∀ k, i ≤ k → k < j → data'[k]? = data[k]?) :
    p'.run = some (.ok (a, j)) := by
  obtain ⟨read, far, inside⟩ := h.exec_of_run run
  obtain ⟨used, left, consumed⟩ := reads _ _ _ read
  have length : used.length = j - i := by
    have lengths := congrArg List.length left
    rw [List.length_append, List.length_drop, List.length_drop] at lengths
    omega
  have inside' : j ≤ data'.length := by
    have last := agree (j - 1) (by omega) (by omega)
    rw [List.getElem?_eq_getElem (show j - 1 < data.length by omega)] at last
    have := (List.getElem?_eq_some_iff.mp last).1
    omega
  have left' : data'.drop i = used ++ data'.drop j := by
    have part : (data'.drop i).take (j - i) = used := by
      rw [← List.take_left' length, ← left]
      apply List.ext_getElem?
      intro k
      rw [List.getElem?_take, List.getElem?_take, List.getElem?_drop, List.getElem?_drop]
      split
      · exact agree (i + k) (by omega) (by omega)
      · rfl
    rw [← part, show data'.drop j = (data'.drop i).drop (j - i) by
      rw [List.drop_drop, show i + (j - i) = j by omega], List.take_append_drop]
  obtain ⟨rest, read', rfl⟩ := consumed (data'.drop i) (data'.drop j) left'
  obtain ⟨j', run', -, inside'', same⟩ := h'.returned a _ read'
  have lengths := congrArg List.length same
  change (data'.drop j).length = (data'.drop j').length at lengths
  rw [List.length_drop, List.length_drop] at lengths
  rw [run', show j' = j by omega]

end MiniRedis.Base
