/- GID: MiniRedis/App/CacheAccounting
   generality: I
   digest: The counters and samples of a run through the cache account for every request of it. -/

import MiniRedis.App.Timeline

set_option autoImplicit false
set_option relaxedAutoImplicit false

namespace MiniRedis.App

open MiniRedis.Base

/-! ### Outcomes -/

/-- How a request through the cache is served. -/
inductive CacheOutcome where
  | hit
  | miss
  | writebackFailure
  | lookupFailure
  deriving DecidableEq

/-- The types of the events that a request writes. -/
def CacheOutcome.sequence : CacheOutcome → List EventType
  | hit => [.requestStarted, .cacheLookupStarted, .cacheLookupCompleted, .cacheHit, .responseSent]
  | miss => [.requestStarted, .cacheLookupStarted, .cacheLookupCompleted, .cacheMiss,
      .dbQueryStarted, .dbQueryCompleted, .cacheSet, .responseSent]
  | writebackFailure => [.requestStarted, .cacheLookupStarted, .cacheLookupCompleted, .cacheMiss,
      .dbQueryStarted, .dbQueryCompleted, .fallbackUsed, .error, .responseSent]
  | lookupFailure => [.requestStarted, .cacheLookupStarted, .fallbackUsed, .error, .dbQueryStarted,
      .dbQueryCompleted, .responseSent]

/-- The outcome that the results of the calls to Redis ask for. -/
def CacheCalls.outcome (calls : CacheCalls) : CacheOutcome :=
  match calls.lookup with
  | .error _ => .lookupFailure
  | .ok (some _) => .hit
  | .ok none =>
    match calls.writeback with
    | .ok _ => .miss
    | .error _ => .writebackFailure

theorem CacheOutcome.sequence_injective : Function.Injective CacheOutcome.sequence := by
  intro outcome outcome' same
  cases outcome <;> cases outcome' <;> first | rfl | cases same

/-- The path of the events that an outcome names. -/
def CacheOutcome.path : CacheOutcome → Path
  | hit => .hit
  | miss => .miss
  | writebackFailure => .writebackFailed
  | lookupFailure => .fallback

private theorem path_outcome (calls : CacheCalls) : calls.path = calls.outcome.path := by
  unfold CacheCalls.path CacheCalls.outcome
  rcases calls.lookup with failure | (_ | value)
  · rfl
  · cases calls.writeback <;> rfl
  · rfl

private theorem CacheOutcome.steps_path (outcome : CacheOutcome) :
    outcome.path.steps.map (fun step => step.2.1) = outcome.sequence := by
  cases outcome <;> rfl

private theorem Block.eventTypes (block : Block) :
    block.events.map FlowEvent.eventType = block.path.steps.map (fun step => step.2.1) := by
  have types := congrArg (List.map Tag.eventType) block.recorded
  simp only [Path.tags, List.map_map] at types
  exact types

/-! ### Samples -/

/-- The bucket of a request through the cache. -/
def Request.bucket? : Request → Option ℤ
  | .cache bucket _ => some bucket
  | .baseline _ | .reference _ => none

namespace CacheTotals

/-- The samples of a bucket. -/
def samplesOf (totals : CacheTotals) (bucket : ℤ) : List ℚ :=
  (totals.bucketSamples.get? bucket).getD []

theorem samplesOf_addSample (bucket other : ℤ) (sample : ℚ) (totals : CacheTotals) :
    (totals.addSample bucket sample).samplesOf other =
      totals.samplesOf other ++ if bucket = other then [sample] else [] := by
  rw [samplesOf, addSample, Dict.get?_set]
  split_ifs with same back back
  · rw [same]
    rfl
  · exact (back same.symm).elim
  · exact (same back.symm).elim
  · exact (List.append_nil _).symm

end CacheTotals

variable (elapsedMs : ℚ → ℚ → ℚ)

/-- The samples of some requests, which are numbered from `start` on. -/
def samplesFrom (calls : ℕ → CacheCalls) (start : ℕ) (requests : List Request) : List ℚ :=
  (requests.zipIdx start).map (fun served => (calls served.2).duration elapsedMs)

/-- The samples of those among some requests that belong to a bucket. -/
def bucketSamplesFrom (calls : ℕ → CacheCalls) (bucket : ℤ) (start : ℕ) (requests : List Request) :
    List ℚ :=
  ((requests.zipIdx start).filter (fun served => served.1.bucket? = some bucket)).map
    (fun served => (calls served.2).duration elapsedMs)

/-- A loop over requests through the cache, which takes a sample of each. -/
structure Timed (calls : ℕ → CacheCalls) (requests : List Request) (totals totals' : CacheTotals) :
    Prop where
  total : totals'.cacheTotal = totals.cacheTotal + requests.length
  samples : totals'.samples = totals.samples ++ samplesFrom elapsedMs calls totals.cacheTotal requests
  buckets : ∀ bucket, totals'.samplesOf bucket =
    totals.samplesOf bucket ++ bucketSamplesFrom elapsedMs calls bucket totals.cacheTotal requests

private theorem timed_nil (calls : ℕ → CacheCalls) (totals : CacheTotals) :
    Timed elapsedMs calls [] totals totals where
  total := rfl
  samples := (List.append_nil _).symm
  buckets := fun _ => (List.append_nil _).symm

variable {elapsedMs}

private theorem timed_append {calls : ℕ → CacheCalls} {requests requests' : List Request}
    {totals totals' totals'' : CacheTotals} (first : Timed elapsedMs calls requests totals totals')
    (rest : Timed elapsedMs calls requests' totals' totals'') :
    Timed elapsedMs calls (requests ++ requests') totals totals'' where
  total := by rw [rest.total, first.total, List.length_append, Nat.add_assoc]
  samples := by
    rw [rest.samples, first.samples, first.total, List.append_assoc]
    simp only [samplesFrom, List.zipIdx_append, List.map_append]
  buckets := by
    intro bucket
    rw [rest.buckets, first.buckets, first.total, List.append_assoc]
    simp only [bucketSamplesFrom, List.zipIdx_append, List.filter_append, List.map_append]

private theorem timed_round {calls : ℕ → CacheCalls} {bucket : ℤ} {index : ℕ}
    {totals totals' : CacheTotals} {added : List FlowEvent}
    (spec : RoundSpec elapsedMs (calls totals.cacheTotal) bucket index totals totals' added) :
    Timed elapsedMs calls [.cache bucket index] totals totals' where
  total := spec.counted.total
  samples := spec.samples
  buckets := by
    intro other
    rw [CacheTotals.samplesOf, spec.bucketSamples]
    refine (CacheTotals.samplesOf_addSample bucket other _ totals).trans ?_
    by_cases same : bucket = other
    · simp [bucketSamplesFrom, Request.bucket?, same]
    · simp [bucketSamplesFrom, Request.bucket?, same]

variable (elapsedMs)

theorem runCache_timed (config : RunConfig) (calls : ℕ → CacheCalls) :
    Effect.Appends (runCache elapsedMs config calls)
      (fun totals _ => Timed elapsedMs calls config.cacheRequests {} totals) :=
  runCache_keeps elapsedMs (R := fun requests totals totals' _ =>
      Timed elapsedMs calls requests totals totals')
    config calls (timed_nil elapsedMs calls) timed_append timed_round

/-! ### The accounts of a run -/

/-- The outcomes of the first requests. -/
def outcomes (calls : ℕ → CacheCalls) (total : ℕ) : List CacheOutcome :=
  (List.range total).map (fun k => (calls k).outcome)

/-- The events of one request: they carry its id, and are one of the four sequences. -/
structure Recorded (request : Request) (outcome : CacheOutcome) (events : List FlowEvent) : Prop where
  own : ∀ event ∈ events, event.requestId = request.id
  sequence : events.map FlowEvent.eventType = outcome.sequence
  only : ∀ other : CacheOutcome, events.map FlowEvent.eventType = other.sequence → other = outcome

/-- The log, the counters and the samples agree with the outcomes of the calls. -/
structure Accounted (config : RunConfig) (calls : ℕ → CacheCalls) (totals : CacheTotals)
    (events : List FlowEvent) : Prop where
  recorded : ∃ blocks : List (List FlowEvent), events = blocks.flatten ∧
    blocks.length = config.cacheRequests.length ∧
    ∀ k request block, config.cacheRequests[k]? = some request → blocks[k]? = some block →
      Recorded request (calls k).outcome block
  samples : totals.cacheTotal = totals.samples.length
  iterations : 0 ≤ config.iterationCount →
    (totals.cacheTotal : ℤ) = config.iterationCount * config.hitRateBuckets.length
  idle : config.iterationCount < 0 → totals.cacheTotal = 0
  served : totals.cacheTotal = totals.cacheHits + totals.redisMissCount +
    (outcomes calls totals.cacheTotal).count .lookupFailure
  fallbacks : totals.fallbackCount = totals.errorCount
  errors : totals.errorCount = (outcomes calls totals.cacheTotal).count .lookupFailure +
    (outcomes calls totals.cacheTotal).count .writebackFailure

private theorem length_eq_tally (outcomes : List CacheOutcome) :
    outcomes.length = (outcomes.map CacheOutcome.path).count .hit +
      (outcomes.map CacheOutcome.path).countP Path.missed + outcomes.count .lookupFailure := by
  induction outcomes with
  | nil => rfl
  | cons outcome outcomes ih =>
    rw [List.length_cons, ih]
    cases outcome <;>
      simp [CacheOutcome.path, Path.missed, -List.countP_map] <;> omega

private theorem countP_failed_outcomes (outcomes : List CacheOutcome) :
    (outcomes.map CacheOutcome.path).countP Path.failed =
      outcomes.count .lookupFailure + outcomes.count .writebackFailure := by
  induction outcomes with
  | nil => rfl
  | cons outcome outcomes ih =>
    rw [List.map_cons, List.countP_cons, ih]
    cases outcome <;>
      simp [CacheOutcome.path, Path.failed] <;> omega

private theorem recorded_of_writes {requests : List Request} {calls : ℕ → CacheCalls}
    {events : List FlowEvent}
    (written : Writes requests ((outcomes calls requests.length).map CacheOutcome.path) events) :
    ∃ blocks : List (List FlowEvent), events = blocks.flatten ∧ blocks.length = requests.length ∧
      ∀ k request block, requests[k]? = some request → blocks[k]? = some block →
        Recorded request (calls k).outcome block := by
  obtain ⟨blocks, rfl, rfl, paths⟩ := written
  refine ⟨blocks.map Block.events, rfl, by simp, ?_⟩
  intro k request events asked found
  rw [List.getElem?_map, Option.map_eq_some_iff] at found
  obtain ⟨block, there, rfl⟩ := found
  have inside : k < blocks.length := (List.getElem?_eq_some_iff.mp there).1
  have path : block.path = (calls k).outcome.path := by
    have same := congrArg (fun paths : List Path => paths[k]?) paths
    simp only [outcomes, List.getElem?_map, there, List.length_map, List.getElem?_range inside,
      Option.map_some] at same
    exact Option.some.inj same
  have types : block.events.map FlowEvent.eventType = (calls k).outcome.sequence := by
    rw [Block.eventTypes, path, CacheOutcome.steps_path]
  obtain rfl : block.request = request := by simpa [there] using asked
  refine ⟨fun event member => Block.requestId_of_mem member, types, ?_⟩
  intro other same
  exact CacheOutcome.sequence_injective (same.symm.trans types)

/-- Every request of a run through the cache is accounted for. -/
theorem cache_run_accounted {config : RunConfig} {calls : ℕ → CacheCalls} {totals : CacheTotals}
    {log log' : List FlowEvent} (bucketed : config.hitRateBuckets ≠ [])
    (returned : (runCache elapsedMs config calls).exec log = (.ok totals, log')) :
    ∃ events, log' = log ++ events ∧ Accounted config calls totals events := by
  obtain ⟨events, rfl, paths, served, written, counted⟩ :=
    runCache_serves elapsedMs config calls log totals log' returned
  obtain ⟨-, -, timed⟩ := runCache_timed elapsedMs config calls log totals _ returned
  have total : totals.cacheTotal = config.cacheRequests.length := timed.total.trans (Nat.zero_add _)
  have paths_eq : paths = (outcomes calls totals.cacheTotal).map CacheOutcome.path := by
    rw [served, total, outcomes, List.map_map, List.range_eq_range']
    exact List.map_congr_left (fun k _ => path_outcome (calls k))
  have length : config.cacheRequests.length =
      config.iterationCount.toNat * config.hitRateBuckets.length := by
    simp [RunConfig.cacheRequests, RunConfig.buckets, bucketed, List.length_flatMap, Nat.mul_comm]
  have hits := counted.hits.trans (Nat.zero_add _)
  have misses := counted.misses.trans (Nat.zero_add _)
  have fallbacks := counted.fallbacks.trans (Nat.zero_add _)
  have errors := counted.errors.trans (Nat.zero_add _)
  rw [paths_eq] at hits misses fallbacks errors written
  rw [countP_failed_outcomes] at fallbacks errors
  refine ⟨events, rfl, ?_, ?_, ?_, ?_, ?_, ?_, ?_⟩
  · rw [total] at written
    exact recorded_of_writes written
  · rw [timed.samples, total]
    simp [samplesFrom]
  · intro counts
    rw [total, length, Nat.cast_mul, Int.toNat_of_nonneg counts]
  · intro negative
    rw [total, length, Int.toNat_of_nonpos negative.le, Nat.zero_mul]
  · rw [hits, misses, ← length_eq_tally]
    simp [outcomes]
  · exact fallbacks.trans errors.symm
  · exact errors

-- One request of each outcome: the key is there, it is not, it cannot be stored, it cannot be read.
private def mixedCalls (k : ℕ) : CacheCalls where
  cancelled := false
  prepare _ := .ok ()
  clock _ := 0
  lookup := if k = 0 then .ok (some "cached") else if k = 3 then .error (.miniRedisError "lost")
    else .ok none
  fetch := .ok ()
  writeback := if k = 2 then .error (.miniRedisError "lost") else .ok ()

private def twoBuckets : RunConfig := ⟨"detail_page", 2, 1, [0, 100], 30, false⟩

private theorem mixed_run_returns :
    ∃ totals log, (runCache (fun _ _ => 0) twoBuckets mixedCalls).exec [] = (.ok totals, log) :=
  Effect.exists_of_isOk (by decide +kernel)

theorem mixed_run_accounted :
    ∃ totals log, (runCache (fun _ _ => 0) twoBuckets mixedCalls).exec [] = (.ok totals, log) ∧
      ∃ events, log = [] ++ events ∧ Accounted twoBuckets mixedCalls totals events := by
  obtain ⟨totals, log, returned⟩ := mixed_run_returns
  exact ⟨totals, log, returned, cache_run_accounted (fun _ _ => 0) (by decide) returned⟩

end MiniRedis.App
