/- GID: MiniRedis/Service/Sweeping
   generality: I
   digest: Sweeps look at the front of the deadline table only, so live keys there shield the rest. -/

import MiniRedis.Base.Window
import MiniRedis.Service.Live

set_option autoImplicit false
set_option relaxedAutoImplicit false

namespace MiniRedis.Service

open MiniRedis.Base MiniRedis.Python MiniRedis.Protocol MiniRedis.Commands

variable {t : ℚ} {s : CommandService}

/-! ### One sweep -/

private theorem expiredAt_deleteKey {key other : String} (apart : other ≠ key) :
    expiredAt t (deleteKey key s) other = expiredAt t s other :=
  expiredAt_congr (by simp [deleteKey, Dict.get?_erase, apart])

private theorem sweep_loop (t : ℚ) {keys : List String} (nodup : keys.Nodup) (n : ℕ)
    (s : CommandService) :
    (keys.foldl (sweepKey t) (n, s)).1 = n + keys.countP (expiredAt t s) ∧
    (keys.foldl (sweepKey t) (n, s)).2.ttl.keys =
      s.ttl.keys.filter (fun key => !(decide (key ∈ keys) && expiredAt t s key)) ∧
    (keys.foldl (sweepKey t) (n, s)).2.clock = s.clock := by
  induction keys generalizing n s with
  | nil => simp
  | cons key keys ih =>
    obtain ⟨fresh, nodup⟩ := List.nodup_cons.mp nodup
    rw [List.foldl_cons, sweepKey_eq]
    cases expired : expiredAt t s key with
    | false =>
      obtain ⟨count, left, clock⟩ := ih nodup n s
      rw [if_neg (by simp), count, left, List.countP_cons]
      refine ⟨by simp [expired], List.filter_congr (fun other _ => ?_), clock⟩
      by_cases h : other = key
      · simp [h, expired]
      · simp [h]
    | true =>
      obtain ⟨count, left, clock⟩ := ih nodup (n + 1) (deleteKey key s)
      have same : keys.countP (expiredAt t (deleteKey key s)) = keys.countP (expiredAt t s) := by
        refine List.countP_congr (fun other member => ?_)
        rw [expiredAt_deleteKey (ne_of_mem_of_not_mem member fresh)]
      rw [if_pos rfl, count, left, List.countP_cons, same]
      refine ⟨by simp [expired]; omega, ?_, clock⟩
      change ((s.ttl.erase key).keys.filter _) = _
      rw [Dict.keys_erase, List.filter_filter]
      refine List.filter_congr (fun other _ => ?_)
      by_cases h : other = key
      · simp [h, expired]
      · simp [h, expiredAt_deleteKey h]

private theorem AtTime.sweepOnce_front (moment : AtTime t s) (batchSize : ℕ) :
    (Service.sweepOnce (batchSize : ℤ) s).1 = (s.ttl.keys.take batchSize).countP (expiredAt t s) ∧
    (Service.sweepOnce (batchSize : ℤ) s).2.ttl.keys =
      cleanFront (expiredAt t s) batchSize s.ttl.keys ∧
    AtTime t (Service.sweepOnce (batchSize : ℤ) s).2 := by
  have nodup : s.ttl.keys.Nodup := s.ttl.nodup
  have front : sliceUpTo s.ttl.keys (batchSize : ℤ) = s.ttl.keys.take batchSize := by
    rw [sliceUpTo, if_pos (Int.natCast_nonneg batchSize), Int.toNat_natCast]
  obtain ⟨count, left, clock⟩ := sweep_loop t (nodup.sublist (List.take_sublist batchSize _)) 0 s
  simp only [Service.sweepOnce, moment.now, front]
  exact ⟨by rw [count, Nat.zero_add], left.trans (cleanFront_eq_filter nodup).symm,
    clock.trans moment⟩

/-! ### Consecutive sweeps -/

/-- Calls of `sweep_once` in a row, with the sum of the counts they return. -/
def sweeps (batchSize : ℤ) : ℕ → CommandService → ℕ × CommandService
  | 0, s => (0, s)
  | rounds + 1, s =>
    let (removed, s) := sweepOnce batchSize s
    let (later, s) := sweeps batchSize rounds s
    (removed + later, s)

private theorem Swept.expiredAt_eq {r : CommandService} (swept : Swept t s r) {key : String}
    (kept : key ∈ r.ttl.keys) : expiredAt t r key = expiredAt t s key := by
  rcases swept.tables key with ⟨-, same⟩ | ⟨-, -, gone⟩
  · exact expiredAt_congr same
  · exact ((Dict.get?_eq_none_iff _ _).mp gone kept).elim

private theorem AtTime.sweeps_front (moment : AtTime t s) (batchSize rounds : ℕ) :
    (sweeps (batchSize : ℤ) rounds s).2.ttl.keys =
      (cleanFront (expiredAt t s) batchSize)^[rounds] s.ttl.keys ∧
    (sweeps (batchSize : ℤ) rounds s).1 +
        (sweeps (batchSize : ℤ) rounds s).2.ttl.keys.countP (expiredAt t s) =
      s.ttl.keys.countP (expiredAt t s) ∧
    Swept t s (sweeps (batchSize : ℤ) rounds s).2 := by
  induction rounds generalizing s with
  | zero => exact ⟨rfl, Nat.zero_add _, .refl t s⟩
  | succ rounds ih =>
    obtain ⟨count, left, moment'⟩ := moment.sweepOnce_front batchSize
    have swept := moment.sweepOnce (batchSize : ℤ)
    obtain ⟨keys, total, swept'⟩ := ih moment'
    have same : ∀ key ∈ (Service.sweepOnce (batchSize : ℤ) s).2.ttl.keys,
        expiredAt t (Service.sweepOnce (batchSize : ℤ) s).2 key = expiredAt t s key :=
      fun key kept => swept.expiredAt_eq kept
    have whole := swept.trans swept'
    refine ⟨?_, ?_, whole⟩
    · rw [Function.iterate_succ_apply, ← left, ← iterate_cleanFront_congr rounds same]
      exact keys
    · have left_over : (sweeps (batchSize : ℤ) (rounds + 1) s).2.ttl.keys.countP (expiredAt t s) =
          (sweeps (batchSize : ℤ) (rounds + 1) s).2.ttl.keys.countP
            (expiredAt t (Service.sweepOnce (batchSize : ℤ) s).2) := by
        refine List.countP_congr (fun key kept => ?_)
        rw [← whole.expiredAt_eq kept]
        exact iff_of_eq (congrArg (· = true) (swept'.expiredAt_eq kept))
      have first : (Service.sweepOnce (batchSize : ℤ) s).2.ttl.keys.countP
          (expiredAt t (Service.sweepOnce (batchSize : ℤ) s).2) =
          (cleanFront (expiredAt t s) batchSize s.ttl.keys).countP (expiredAt t s) := by
        rw [← left]
        exact List.countP_congr (fun key kept => by rw [same key kept])
      have split := countP_take_add_cleanFront (expiredAt t s) batchSize s.ttl.keys
      rw [left_over]
      change (Service.sweepOnce (batchSize : ℤ) s).1 + _ + _ = _
      rw [count, Nat.add_assoc, ← split, ← first, ← total]
      rfl

/-- `ceil(n / b)`. -/
def roundsFor (keys batchSize : ℕ) : ℕ := (keys + batchSize - 1) / batchSize

/-- Consecutive sweeps of one moment reach every expired key, and count each once, exactly if the
deadline table can be cut into that many batches, each beside the live keys of the earlier ones. -/
theorem sweeps_reach_all_iff (s : CommandService) (batchSize : ℕ+) (t : ℚ) :
    let rounds := roundsFor s.ttl.size batchSize
    let swept := sweeps (batchSize : ℤ) rounds { s with clock := fun _ => t }
    ((∀ key, expiredAt t s key = true →
        swept.2.store.get? key = none ∧ swept.2.ttl.get? key = none) ∧
      swept.1 = s.ttl.keys.countP (expiredAt t s)) ↔
    CutsInto (expiredAt t s) batchSize 0 rounds s.ttl.keys := by
  intro rounds swept
  have moment : AtTime t { s with clock := fun _ => t } := rfl
  obtain ⟨keys, total, tables⟩ := moment.sweeps_front batchSize rounds
  have left : swept.2.ttl.keys = (cleanFront (expiredAt t s) batchSize)^[rounds] s.ttl.keys := keys
  rw [← iterate_cleanFront_iff, ← left]
  constructor
  · rintro ⟨gone, -⟩ key kept
    by_contra expired
    have removed := (gone key (by simpa using expired)).2
    exact (Dict.get?_eq_none_iff _ _).mp removed kept
  · intro clean
    refine ⟨fun key expired => ?_, ?_⟩
    · rcases tables.tables key with ⟨-, same⟩ | ⟨-, noValue, noDeadline⟩
      · have kept : key ∈ swept.2.ttl.keys := by
          by_contra absent
          rw [← Dict.get?_eq_none_iff] at absent
          have none_before : s.ttl.get? key = none := same.symm.trans absent
          simp [expiredAt, none_before] at expired
        rw [clean key kept] at expired
        cases expired
      · exact ⟨noValue, noDeadline⟩
    · have none_left : swept.2.ttl.keys.countP (expiredAt t s) = 0 := by
        rw [List.countP_eq_zero]
        intro key kept
        simp [clean key kept]
      have whole : swept.1 + swept.2.ttl.keys.countP (expiredAt t s) =
          s.ttl.keys.countP (expiredAt t s) := total
      omega

private def shieldedKey : CommandService :=
  run [.command (fun _ => 0) ⟨"SET", ["a", "1"]⟩, .command (fun _ => 0) ⟨"EXPIRE", ["a", "100"]⟩,
      .command (fun _ => 0) ⟨"SET", ["b", "2"]⟩, .command (fun _ => 0) ⟨"EXPIRE", ["b", "1"]⟩]
    (CommandService.init (fun _ => 0) none)

theorem shielded_key_not_reached :
    let rounds := roundsFor shieldedKey.ttl.size 1
    let swept := sweeps 1 rounds { shieldedKey with clock := fun _ => 5 }
    ¬ ((∀ key, expiredAt 5 shieldedKey key = true →
        swept.2.store.get? key = none ∧ swept.2.ttl.get? key = none) ∧
      swept.1 = shieldedKey.ttl.keys.countP (expiredAt 5 shieldedKey)) := by
  rintro rounds swept ⟨gone, -⟩
  have removed : swept.2.store.get? "b" = none := (gone "b" (by decide +kernel)).1
  have stored : swept.2.store.get? "b" ≠ none := by decide +kernel
  exact stored removed

end MiniRedis.Service
