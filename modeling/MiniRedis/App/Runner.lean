/- GID: MiniRedis/App/Runner
   generality: I
   digest: The three loops of a benchmark run with the events and counters they write. -/

import MiniRedis.App.RunConfig
import MiniRedis.Base.Effect
import MiniRedis.Base.Grouping

set_option autoImplicit false
set_option relaxedAutoImplicit false

namespace MiniRedis.App

open MiniRedis.Base

/-! ### Events -/

inductive Mode where
  | dbOnly
  | cacheAside
  | redisOnlyReference
  deriving DecidableEq

inductive EventType where
  | requestStarted
  | cacheLookupStarted
  | cacheLookupCompleted
  | cacheHit
  | cacheMiss
  | cacheSet
  | dbQueryStarted
  | dbQueryCompleted
  | fallbackUsed
  | error
  | responseSent
  deriving DecidableEq

inductive Stage where
  | request
  | redisLookup
  | dbLookup
  | writeback
  | response
  deriving DecidableEq

/-- The statuses of a request: those that a response carries, and two that are inferred only. -/
inductive CacheStatus where
  | hit
  | miss
  | missWritebackFailed
  | fallback
  | referenceHit
  | error
  | dbOnly
  deriving DecidableEq

/-- The metadata of an event, with the keys that it has. -/
structure Metadata where
  recordId : Option String := none
  bucket : Option ℤ := none
  key : Option String := none
  reason : Option String := none
  message : Option String := none
  ttlSeconds : Option ℤ := none
  totalDurationMs : Option ℚ := none
  cacheStatus : Option CacheStatus := none

structure FlowEvent where
  eventId : String
  requestId : String
  timestamp : ℚ
  mode : Mode
  eventType : EventType
  stage : Stage
  durationMs : ℚ
  metadata : Metadata

/-! ### What a run meets -/

/-- What a Redis call raises: the error the run expects, or another exception. -/
inductive RedisFailure where
  | miniRedisError (message : String)
  | other (message : String)

def RedisFailure.text : RedisFailure → String
  | miniRedisError message | other message => message

/-- The checks before the first stage; the baseline client need not have a health check. -/
structure BootstrapCalls where
  cancelled : Bool
  redisHealth : Except String Bool
  baselineCancelled : Bool
  baselineHealth : Option (Except String Bool)

/-- A request to the database alone, with the readings of `perf_counter` in order. A call that
raises does so with its text. -/
structure BaselineCalls where
  cancelled : Bool
  clock : ℕ → ℚ
  fetch : Except String Unit

/-- A request through the cache. `prepare` stands for the calls that store or delete the key first,
`writeback` for the two calls that store it afterwards. -/
structure CacheCalls where
  cancelled : Bool
  prepare : Bool → Except RedisFailure Unit
  clock : ℕ → ℚ
  lookup : Except RedisFailure (Option String)
  fetch : Except String Unit
  writeback : Except RedisFailure Unit

structure ReferenceCalls where
  cancelled : Bool
  prepare : Except RedisFailure Unit
  clock : ℕ → ℚ
  get : Except RedisFailure Unit

/-- All that a run reads from outside, by the number of the request. -/
structure Environment where
  bootstrap : BootstrapCalls
  warmup : ℕ → Bool × Except String Unit
  baseline : ℕ → BaselineCalls
  cache : ℕ → CacheCalls
  reference : ℕ → ReferenceCalls
  aggregationCancelled : Bool

/-! ### `BenchmarkRunner` -/

inductive RunFailure where
  | cancelled
  | failed (message : String)
  deriving DecidableEq

/-- The run's event log, where an exception ends the run. -/
abbrev RunnerM := Effect (List FlowEvent) RunFailure

def ensureNotCancelled (cancelled : Bool) : RunnerM Unit :=
  if cancelled then throw .cancelled else pure ()

def fetchDetail (outcome : Except String Unit) : RunnerM Unit :=
  liftM (outcome.mapError RunFailure.failed)

def redisCall {α : Type} (outcome : Except RedisFailure α) : RunnerM α :=
  liftM (outcome.mapError (fun failure => RunFailure.failed failure.text))

def healthCheck (outcome : Except String Bool) (message : String) : RunnerM Unit := do
  let healthy ← liftM (outcome.mapError RunFailure.failed)
  if healthy then pure () else throw (.failed message)

/-- The event of a request whose id ends in the given name. -/
def appendEvent (requestId name : String) (timestamp : ℚ) (mode : Mode) (eventType : EventType)
    (stage : Stage) (durationMs : ℚ) (metadata : Metadata) : RunnerM Unit :=
  modify (· ++ [⟨requestId ++ "-" ++ name, requestId, timestamp, mode, eventType, stage, durationMs,
    metadata⟩])

def warmup (config : RunConfig) (calls : ℕ → Bool × Except String Unit) : RunnerM Unit :=
  (List.range (min 3 config.iterationCount.toNat)).forM fun index => do
    ensureNotCancelled (calls index).1
    fetchDetail (calls index).2

section

-- `elapsed_ms`: the milliseconds between two readings, rounded to two places.
variable (elapsedMs : ℚ → ℚ → ℚ)

/-- One round of `_run_baseline`, with the duration it adds to the samples. -/
def baselineRequest (calls : BaselineCalls) (index : ℕ) : RunnerM ℚ := do
  ensureNotCancelled calls.cancelled
  let requestId := "baseline-" ++ toString index
  let recordId := toString index
  let started := calls.clock 0
  appendEvent requestId "start" (elapsedMs started started) .dbOnly .requestStarted .request 0
    { recordId }
  let dbStarted := calls.clock 1
  appendEvent requestId "db-start" (elapsedMs started dbStarted) .dbOnly .dbQueryStarted .dbLookup 0
    { recordId }
  fetchDetail calls.fetch
  let dbFinished := calls.clock 2
  let totalDurationMs := elapsedMs started dbFinished
  appendEvent requestId "db-finish" (elapsedMs started dbFinished) .dbOnly .dbQueryCompleted .dbLookup
    (elapsedMs dbStarted dbFinished) { recordId }
  appendEvent requestId "response" (elapsedMs started dbFinished) .dbOnly .responseSent .response 0
    { totalDurationMs }
  return totalDurationMs

def runBaseline (config : RunConfig) (calls : ℕ → BaselineCalls) : RunnerM (List ℚ) :=
  (List.range config.iterationCount.toNat).foldlM (fun samples index => do
    let sample ← baselineRequest elapsedMs (calls index) index
    return samples ++ [sample]) []

/-- What `_run_cache` accumulates. -/
structure CacheTotals where
  samples : List ℚ := []
  bucketSamples : Dict ℤ (List ℚ) := Dict.empty
  cacheHits : ℕ := 0
  cacheTotal : ℕ := 0
  redisMissCount : ℕ := 0
  fallbackCount : ℕ := 0
  errorCount : ℕ := 0

/-- A duration goes to all samples, and to those of its bucket. -/
def CacheTotals.addSample (bucket : ℤ) (totalDurationMs : ℚ) (totals : CacheTotals) : CacheTotals :=
  { totals with
    samples := totals.samples ++ [totalDurationMs]
    bucketSamples := totals.bucketSamples.set bucket
      ((totals.bucketSamples.get? bucket).getD [] ++ [totalDurationMs]) }

/-- `max(0, min(count, round(count * bucket / 100)))`, where a tie goes to the even number. -/
def targetHitCount (iterationCount bucket : ℤ) : ℤ :=
  let quotient := iterationCount * bucket / 100
  let rest := iterationCount * bucket % 100
  let rounded :=
    if rest < 50 then quotient
    else if 50 < rest then quotient + 1
    else if quotient % 2 = 0 then quotient else quotient + 1
  max 0 (min iterationCount rounded)

/-- One round of `_run_cache`. -/
def cacheRequest (config : RunConfig) (calls : CacheCalls) (bucket : ℤ) (totals : CacheTotals)
    (index : ℕ) : RunnerM CacheTotals := do
  ensureNotCancelled calls.cancelled
  let totals := { totals with cacheTotal := totals.cacheTotal + 1 }
  let recordId := toString bucket ++ "-" ++ toString index
  let key := "benchmark:detail:" ++ recordId
  let requestId := "cache-" ++ toString bucket ++ "-" ++ toString index
  let shouldHit : Bool := (index : ℤ) < targetHitCount config.iterationCount bucket
  redisCall (calls.prepare shouldHit)
  let started := calls.clock 0
  appendEvent requestId "start" 0 .cacheAside .requestStarted .request 0 { recordId, bucket }
  let lookupStarted := calls.clock 1
  appendEvent requestId "lookup-start" (elapsedMs started lookupStarted) .cacheAside
    .cacheLookupStarted .redisLookup 0 { key, bucket }
  let lookupFinished := calls.clock 2
  let lookupDuration := elapsedMs lookupStarted lookupFinished
  match calls.lookup with
  | .error (.other message) => throw (.failed message)
  | .error (.miniRedisError reason) =>
    let totals := { totals with
      errorCount := totals.errorCount + 1, fallbackCount := totals.fallbackCount + 1 }
    appendEvent requestId "fallback" (elapsedMs started lookupFinished) .cacheAside .fallbackUsed
      .redisLookup lookupDuration { reason, key, bucket }
    appendEvent requestId "error" (elapsedMs started lookupFinished) .cacheAside .error .redisLookup 0
      { message := reason }
    let dbStarted := calls.clock 3
    appendEvent requestId "db-start" (elapsedMs started dbStarted) .cacheAside .dbQueryStarted
      .dbLookup 0 { recordId, bucket }
    fetchDetail calls.fetch
    let dbFinished := calls.clock 4
    let totalDurationMs := elapsedMs started dbFinished
    appendEvent requestId "db-finish" (elapsedMs started dbFinished) .cacheAside .dbQueryCompleted
      .dbLookup (elapsedMs dbStarted dbFinished) { recordId, bucket }
    appendEvent requestId "response" (elapsedMs started dbFinished) .cacheAside .responseSent .response
      0 { totalDurationMs, cacheStatus := some .fallback }
    return totals.addSample bucket totalDurationMs
  | .ok cachedValue =>
    appendEvent requestId "lookup-finish" (elapsedMs started lookupFinished) .cacheAside
      .cacheLookupCompleted .redisLookup lookupDuration { key, bucket }
    if cachedValue.isSome then
      let finished := calls.clock 3
      let totalDurationMs := elapsedMs started finished
      appendEvent requestId "hit" (elapsedMs started lookupFinished) .cacheAside .cacheHit .redisLookup
        lookupDuration { key, bucket }
      appendEvent requestId "response" (elapsedMs started finished) .cacheAside .responseSent .response
        0 { totalDurationMs, cacheStatus := some .hit }
      return { totals with cacheHits := totals.cacheHits + 1 }.addSample bucket totalDurationMs
    else
      let totals := { totals with redisMissCount := totals.redisMissCount + 1 }
      appendEvent requestId "miss" (elapsedMs started lookupFinished) .cacheAside .cacheMiss
        .redisLookup lookupDuration { key, bucket }
      let dbStarted := calls.clock 3
      appendEvent requestId "db-start" (elapsedMs started dbStarted) .cacheAside .dbQueryStarted
        .dbLookup 0 { recordId, bucket }
      fetchDetail calls.fetch
      let dbFinished := calls.clock 4
      appendEvent requestId "db-finish" (elapsedMs started dbFinished) .cacheAside .dbQueryCompleted
        .dbLookup (elapsedMs dbStarted dbFinished) { recordId, bucket }
      let writebackStarted := calls.clock 5
      let writebackFinished := calls.clock 6
      let finished := calls.clock 7
      let totalDurationMs := elapsedMs started finished
      match calls.writeback with
      | .error (.other message) => throw (.failed message)
      | .ok () =>
        appendEvent requestId "cache-set" (elapsedMs started writebackFinished) .cacheAside .cacheSet
          .writeback (elapsedMs writebackStarted writebackFinished)
          { key, ttlSeconds := config.ttlSeconds }
        appendEvent requestId "response" (elapsedMs started finished) .cacheAside .responseSent
          .response 0 { totalDurationMs, cacheStatus := some .miss }
        return totals.addSample bucket totalDurationMs
      | .error (.miniRedisError reason) =>
        appendEvent requestId "writeback-fallback" (elapsedMs started writebackFinished) .cacheAside
          .fallbackUsed .writeback (elapsedMs writebackStarted writebackFinished)
          { reason, key, bucket }
        appendEvent requestId "writeback-error" (elapsedMs started writebackFinished) .cacheAside .error
          .writeback 0 { message := reason }
        appendEvent requestId "response" (elapsedMs started finished) .cacheAside .responseSent
          .response 0 { totalDurationMs, cacheStatus := some .missWritebackFailed }
        return { totals with
          errorCount := totals.errorCount + 1
          fallbackCount := totals.fallbackCount + 1 }.addSample bucket totalDurationMs

/-- The number of a request is the total before it. -/
def runCache (config : RunConfig) (calls : ℕ → CacheCalls) : RunnerM CacheTotals :=
  let buckets := if config.hitRateBuckets = [] then [50] else config.hitRateBuckets
  buckets.foldlM (fun totals bucket =>
    (List.range config.iterationCount.toNat).foldlM (fun totals index =>
      cacheRequest elapsedMs config (calls totals.cacheTotal) bucket totals index) totals) {}

/-- One round of `_run_reference`, with the duration it adds to the samples. -/
def referenceRequest (calls : ReferenceCalls) (index : ℕ) : RunnerM ℚ := do
  ensureNotCancelled calls.cancelled
  let recordId := "reference-" ++ toString index
  let key := "benchmark:detail:" ++ recordId
  let requestId := "reference-" ++ toString index
  redisCall calls.prepare
  let started := calls.clock 0
  appendEvent requestId "start" 0 .redisOnlyReference .requestStarted .request 0 { recordId }
  let lookupStarted := calls.clock 1
  redisCall calls.get
  let lookupFinished := calls.clock 2
  appendEvent requestId "hit" (elapsedMs started lookupFinished) .redisOnlyReference .cacheHit
    .redisLookup (elapsedMs lookupStarted lookupFinished) { key }
  let finished := calls.clock 3
  let totalDurationMs := elapsedMs started finished
  appendEvent requestId "response" (elapsedMs started finished) .redisOnlyReference .responseSent
    .response 0 { totalDurationMs, cacheStatus := some .referenceHit }
  return totalDurationMs

def runReference (config : RunConfig) (calls : ℕ → ReferenceCalls) : RunnerM (List ℚ) :=
  (List.range config.iterationCount.toNat).foldlM (fun samples index => do
    let sample ← referenceRequest elapsedMs (calls index) index
    return samples ++ [sample]) []

/-- What a run hands to `build_summary`. -/
structure RunTotals where
  baselineSamples : List ℚ
  cache : CacheTotals
  referenceSamples : List ℚ

/-- The stage that a run takes only where its configuration asks for it. -/
def referenceStage (config : RunConfig) (calls : ℕ → ReferenceCalls) : RunnerM (List ℚ) :=
  if config.includeReference then runReference elapsedMs config calls else pure []

/-- What follows the warm-up. -/
def runStages (config : RunConfig) (env : Environment) : RunnerM RunTotals := do
  let baselineSamples ← runBaseline elapsedMs config env.baseline
  let cache ← runCache elapsedMs config env.cache
  let referenceSamples ← referenceStage elapsedMs config env.reference
  ensureNotCancelled env.aggregationCancelled
  return ⟨baselineSamples, cache, referenceSamples⟩

/-- The work of `BenchmarkRunner.run` from its checks to the summary. -/
def run (config : RunConfig) (env : Environment) : RunnerM RunTotals := do
  ensureNotCancelled env.bootstrap.cancelled
  healthCheck env.bootstrap.redisHealth "mini-redis health check failed"
  match env.bootstrap.baselineHealth with
  | none => pure ()
  | some health =>
    ensureNotCancelled env.bootstrap.baselineCancelled
    healthCheck health "baseline database health check failed"
  warmup config env.warmup
  runStages elapsedMs config env

end

/-- The counts of a `RunSummary`, and its reference average where there is one. -/
structure RunSummary where
  dbOnlyCount : ℕ
  redisHitCount : ℕ
  redisMissCount : ℕ
  fallbackCount : ℕ
  errorCount : ℕ
  referenceAvgMs : Option ℚ

/-- `build_summary`; `average` is the rounded mean of some durations. -/
def buildSummary (average : List ℚ → ℚ) (totals : RunTotals) : RunSummary where
  dbOnlyCount := totals.baselineSamples.length
  redisHitCount := totals.cache.cacheHits
  redisMissCount := totals.cache.redisMissCount
  fallbackCount := totals.cache.fallbackCount
  errorCount := totals.cache.errorCount
  referenceAvgMs :=
    if totals.referenceSamples = [] then none else some (average totals.referenceSamples)

end MiniRedis.App
