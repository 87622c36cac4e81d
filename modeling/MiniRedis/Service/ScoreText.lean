/- GID: MiniRedis/Service/ScoreText
   generality: I
   digest: A score that is an integer is told back exactly where six digits write it. -/

import MiniRedis.Python.FloatText
import MiniRedis.Service.Counting

set_option autoImplicit false
set_option relaxedAutoImplicit false

namespace MiniRedis.Service

open MiniRedis.Base MiniRedis.Python MiniRedis.Protocol MiniRedis.Commands

/-- The text of the score that a `ZADD` gives last to a member. -/
def lastScoreText : List String → String → Option String
  | text :: first :: rest, member =>
    (lastScoreText rest member).or (if first = member then some text else none)
  | _, _ => none

private theorem map_lastScoreText {arguments : List String} {pairs : List (PyFloat × String)}
    (read : readPairs arguments = some pairs) (member : String) :
    (lastScoreText arguments member).map parseFloat = (lastScore pairs member).map some := by
  induction arguments using readPairs.induct generalizing pairs with
  | case1 =>
    cases read
    rfl
  | case2 => cases read
  | case3 score first rest ih =>
    obtain ⟨x, parsed, others⟩ := Option.bind_eq_some_iff.mp read
    obtain ⟨later, read', rfl⟩ := Option.map_eq_some_iff.mp others
    rw [lastScore_cons, lastScoreText, Option.map_or, Option.map_or, ih read']
    split_ifs
    · rw [Option.map_some, Option.map_some, parsed]
    · rfl

private theorem score_of_added {key member : String} {pairs : List (PyFloat × String)}
    {score : PyFloat} {s s' : CommandService} {reply : RespValue} {entry : ValueEntry}
    (listed : lastScore pairs member = some score)
    (added : performTyped key (.zadd pairs) s = (.ok reply, s'))
    (stored : s'.store.get? key = some entry) :
    ∃ scores, entry = .zset scores ∧ scores.get? member = some score := by
  have finished : ∀ (old : Dict String PyFloat) (r : CommandService),
      TypedOp.finish (.zadd pairs) key (.zset old) r = (.ok reply, s') →
      ∃ scores, entry = .zset scores ∧ scores.get? member = some score := by
    intro old r left
    obtain ⟨-, scores⟩ := addScores_spec pairs 0 old
    refine ⟨(TypedOp.addScores pairs (0, old)).2, ?_, by rw [scores, listed, Option.some_or]⟩
    -- The limit may take the key away again, but it changes no value.
    have enforced : s' = ensureMaxMemory [key]
        (touchKey key (mutateEntry key (.zset (TypedOp.addScores pairs (0, old)).2) r)) :=
      (congrArg Prod.snd left).symm
    rw [enforced] at stored
    have before := (ensureMaxMemory_removals [key] _).shrunk.store key entry stored
    rw [touchKey_store, mutateEntry, Dict.get?_set_self] at before
    exact (Option.some.inj before).symm
  unfold performTyped at added
  dsimp only at added
  split at added
  · exact finished Dict.empty _ added
  · rename_i found _
    split at added
    · cases added
    · rename_i typed
      cases found with
      | zset old => exact finished old _ added
      | _ => exact absurd (by simp [ValueEntry.valueType, TypedOp.valueType]) typed

private theorem zscore_told {s : CommandService} {key member : String} {scores : Dict String PyFloat}
    {score : PyFloat} (readings : ℕ → ℚ) (held : liveEntry (readings 0) s key = some (.zset scores))
    (found : scores.get? member = some score) :
    ((execute ⟨"ZSCORE", [key, member]⟩).exec { s with clock := readings }).1 =
      .ok (.blobString (formatG score)) := by
  rw [execute_typed (.zscore member), performTyped_reply, liveEntry_tick, held]
  simp [TypedOp.reply, TypedOp.onEntry, ValueEntry.valueType, TypedOp.valueType,
    ValueEntry.zsetValue, found, blobOrNull]

/-- A member whose last score text in a `ZADD` denotes an integer below `2 ^ 53` is later told, while
the key holds what was left there, in a text that reads as this integer exactly where the integer has
six significant digits at most. -/
theorem score_round_trip_iff {s s₁ s₂ : CommandService} {key member text : String}
    {arguments : List String} {n : ℤ} {reply : RespValue} {entry : ValueEntry}
    (accepted : validate ⟨"ZADD", key :: arguments⟩ = .ok ())
    (listed : lastScoreText arguments member = some text) (denotes : DenotesInteger text n)
    (small : n.natAbs < 2 ^ 53) (readings readings' : ℕ → ℚ)
    (added : (execute ⟨"ZADD", key :: arguments⟩).exec { s with clock := readings } =
      (.ok reply, s₁))
    (stored : s₁.store.get? key = some entry)
    (unchanged : liveEntry (readings' 0) s₂ key = some entry) :
    (∃ score, ((execute ⟨"ZSCORE", [key, member]⟩).exec { s₂ with clock := readings' }).1 =
        .ok (.blobString score) ∧ ReadsAs score n) ↔
      FewDigits n.natAbs := by
  obtain ⟨pairs, read, typed⟩ := zadd_of_accepted accepted
  obtain ⟨negative, parsed, value⟩ := parseFloat_of_denotesInteger denotes small
  have given : lastScore pairs member = some (.finite negative n.natAbs) := by
    have scores := map_lastScoreText read member
    rw [listed, Option.map_some, parsed] at scores
    obtain ⟨score, last, same⟩ := Option.map_eq_some_iff.mp scores.symm
    rw [last, Option.some.inj same]
  rw [execute_typed typed] at added
  obtain ⟨scores, rfl, score⟩ := score_of_added given added stored
  rw [zscore_told readings' unchanged score, ← readsAs_formatG_iff small value]
  constructor
  · rintro ⟨score, same, reads⟩
    cases same
    exact reads
  · exact fun reads => ⟨_, rfl, reads⟩

private def afterZadd (text : String) : Except PyException RespValue × CommandService :=
  (execute ⟨"ZADD", ["rank", text, "alpha"]⟩).exec (CommandService.init (fun _ => 0) none)

theorem round_score_told_back :
    ∃ score, ((execute ⟨"ZSCORE", ["rank", "alpha"]⟩).exec
        { (afterZadd "1500000").2 with clock := fun _ => 0 }).1 = .ok (.blobString score) ∧
      ReadsAs score 1500000 := by
  have returns : (afterZadd "1500000").1.isOk = true := by decide +kernel
  have held : liveEntry 0 (afterZadd "1500000").2 "rank" =
      some (.zset (Dict.empty.set "alpha" (.finite false 1500000))) := by decide +kernel
  have stored : (afterZadd "1500000").2.store.get? "rank" =
      some (.zset (Dict.empty.set "alpha" (.finite false 1500000))) := by decide +kernel
  obtain ⟨reply, s₁, added⟩ := Effect.exists_of_isOk returns
  rw [afterZadd, added] at held stored
  rw [afterZadd, added]
  have accepted : validate ⟨"ZADD", ["rank", "1500000", "alpha"]⟩ = .ok () := by decide +kernel
  have listed : lastScoreText ["1500000", "alpha"] "alpha" = some "1500000" := by decide +kernel
  have denotes : DenotesInteger "1500000" 1500000 :=
    ⟨1500000, by decide +kernel, by decide +kernel⟩
  exact (score_round_trip_iff (s := CommandService.init (fun _ => 0) none) accepted listed denotes
    (by decide) (fun _ => 0) (fun _ => 0) added stored held).mpr ⟨15, 5, by decide, by decide⟩

/-- Of seven digits the last one is lost. -/
theorem seventh_digit_lost :
    validate ⟨"ZADD", ["rank", "1234567", "alpha"]⟩ = .ok () ∧
      DenotesInteger "1234567" 1234567 ∧
      ((execute ⟨"ZSCORE", ["rank", "alpha"]⟩).exec
        { (afterZadd "1234567").2 with clock := fun _ => 0 }).1 = .ok (.blobString "1.23457e+06") ∧
      ¬ ReadsAs "1.23457e+06" 1234567 := by
  refine ⟨by decide +kernel, ⟨1234567, by decide +kernel, by decide +kernel⟩, ?_, ?_⟩
  · have held : liveEntry 0 (afterZadd "1234567").2 "rank" =
        some (.zset (Dict.empty.set "alpha" (.finite false 1234567))) := by decide +kernel
    have text : formatG (.finite false 1234567) = "1.23457e+06" := by decide +kernel
    rw [← text]
    exact zscore_told (fun _ => 0) held (Dict.get?_set_self _ _ _)
  · rintro ⟨x, parsed, equal⟩
    have read : parseFloat "1.23457e+06" = some (.finite false 1234570) := by decide +kernel
    rw [read] at parsed
    cases parsed
    exact absurd equal (by decide +kernel)

end MiniRedis.Service
