/- GID: MiniRedis/App/EventLog
   generality: I
   digest: A completed run writes one block of events for each of its requests, in order. -/

import MiniRedis.App.Runner
import MiniRedis.Base.Journal

set_option autoImplicit false
set_option relaxedAutoImplicit false

namespace MiniRedis.App

open MiniRedis.Base

/-! ### Requests and the paths they take -/

inductive Request where
  | baseline (index : ℕ)
  | cache (bucket : ℤ) (index : ℕ)
  | reference (index : ℕ)
  deriving DecidableEq

namespace Request

def id : Request → String
  | baseline index => "baseline-" ++ toString index
  | cache bucket index => "cache-" ++ toString bucket ++ "-" ++ toString index
  | reference index => "reference-" ++ toString index

def mode : Request → Mode
  | baseline _ => .dbOnly
  | cache _ _ => .cacheAside
  | reference _ => .redisOnlyReference

end Request

namespace RunConfig

/-- `config.hit_rate_buckets or [50]`. -/
def buckets (config : RunConfig) : List ℤ :=
  if config.hitRateBuckets = [] then [50] else config.hitRateBuckets

def baselineRequests (config : RunConfig) : List Request :=
  (List.range config.iterationCount.toNat).map .baseline

def cacheRequests (config : RunConfig) : List Request :=
  config.buckets.flatMap (fun bucket => (List.range config.iterationCount.toNat).map (.cache bucket))

def referenceRequests (config : RunConfig) : List Request :=
  if config.includeReference then (List.range config.iterationCount.toNat).map .reference else []

/-- The requests that a run executes, in order. -/
def requests (config : RunConfig) : List Request :=
  config.baselineRequests ++ (config.cacheRequests ++ config.referenceRequests)

end RunConfig

/-- The ways in which a request can be served. -/
inductive Path where
  | dbOnly
  | hit
  | miss
  | writebackFailed
  | fallback
  | reference
  deriving DecidableEq

/-- The way that a request through the cache takes. -/
def CacheCalls.path (calls : CacheCalls) : Path :=
  match calls.lookup, calls.writeback with
  | .error _, _ => .fallback
  | .ok (some _), _ => .hit
  | .ok none, .ok _ => .miss
  | .ok none, .error _ => .writebackFailed

/-- What names an event and decides its place in a timeline. -/
structure Tag where
  eventId : String
  requestId : String
  mode : Mode
  eventType : EventType
  cacheStatus : Option CacheStatus
  deriving DecidableEq

def FlowEvent.tag (event : FlowEvent) : Tag :=
  ⟨event.eventId, event.requestId, event.mode, event.eventType, event.metadata.cacheStatus⟩

namespace Path

/-- The events of a path: how their ids end, their types and the statuses they carry. -/
def steps : Path → List (String × EventType × Option CacheStatus)
  | dbOnly => [("start", .requestStarted, none), ("db-start", .dbQueryStarted, none),
      ("db-finish", .dbQueryCompleted, none), ("response", .responseSent, none)]
  | hit => [("start", .requestStarted, none), ("lookup-start", .cacheLookupStarted, none),
      ("lookup-finish", .cacheLookupCompleted, none), ("hit", .cacheHit, none),
      ("response", .responseSent, some .hit)]
  | miss => [("start", .requestStarted, none), ("lookup-start", .cacheLookupStarted, none),
      ("lookup-finish", .cacheLookupCompleted, none), ("miss", .cacheMiss, none),
      ("db-start", .dbQueryStarted, none), ("db-finish", .dbQueryCompleted, none),
      ("cache-set", .cacheSet, none), ("response", .responseSent, some .miss)]
  | writebackFailed => [("start", .requestStarted, none),
      ("lookup-start", .cacheLookupStarted, none), ("lookup-finish", .cacheLookupCompleted, none),
      ("miss", .cacheMiss, none), ("db-start", .dbQueryStarted, none),
      ("db-finish", .dbQueryCompleted, none), ("writeback-fallback", .fallbackUsed, none),
      ("writeback-error", .error, none), ("response", .responseSent, some .missWritebackFailed)]
  | fallback => [("start", .requestStarted, none), ("lookup-start", .cacheLookupStarted, none),
      ("fallback", .fallbackUsed, none), ("error", .error, none),
      ("db-start", .dbQueryStarted, none), ("db-finish", .dbQueryCompleted, none),
      ("response", .responseSent, some .fallback)]
  | reference => [("start", .requestStarted, none), ("hit", .cacheHit, none),
      ("response", .responseSent, some .referenceHit)]

def mode : Path → Mode
  | dbOnly => .dbOnly
  | hit | miss | writebackFailed | fallback => .cacheAside
  | reference => .redisOnlyReference

def tags (path : Path) (request : Request) : List Tag :=
  path.steps.map (fun step =>
    ⟨request.id ++ "-" ++ step.1, request.id, request.mode, step.2.1, step.2.2⟩)

/-- Redis was asked and did not have the key. -/
def missed (path : Path) : Bool := path = miss || path = writebackFailed

/-- A Redis call failed on the way. -/
def failed (path : Path) : Bool := path = fallback || path = writebackFailed

end Path

theorem CacheCalls.mode_path (calls : CacheCalls) : calls.path.mode = .cacheAside := by
  unfold CacheCalls.path
  split <;> rfl

/-! ### Blocks of events -/

/-- The events of one request, as its path writes them. -/
structure Block where
  request : Request
  path : Path
  events : List FlowEvent
  suits : path.mode = request.mode
  recorded : events.map FlowEvent.tag = path.tags request

/-- The events are those of the requests, one after the other, each along its path. -/
def Writes (requests : List Request) (paths : List Path) (events : List FlowEvent) : Prop :=
  ∃ blocks : List Block, events = blocks.flatMap Block.events ∧
    blocks.map Block.request = requests ∧ blocks.map Block.path = paths

theorem writes_nil : Writes [] [] [] := ⟨[], rfl, rfl, rfl⟩

theorem writes_one {request : Request} {path : Path} {events : List FlowEvent}
    (suits : path.mode = request.mode) (recorded : events.map FlowEvent.tag = path.tags request) :
    Writes [request] [path] events :=
  ⟨[⟨request, path, events, suits, recorded⟩], (List.append_nil events).symm, rfl, rfl⟩

theorem Writes.append {requests requests' : List Request} {paths paths' : List Path}
    {events events' : List FlowEvent} (first : Writes requests paths events)
    (rest : Writes requests' paths' events') :
    Writes (requests ++ requests') (paths ++ paths') (events ++ events') := by
  obtain ⟨blocks, rfl, rfl, rfl⟩ := first
  obtain ⟨blocks', rfl, rfl, rfl⟩ := rest
  exact ⟨blocks ++ blocks', List.flatMap_append.symm, List.map_append, List.map_append⟩

/-! ### What a request writes -/

/-- An event with what decides its place in a timeline. -/
def FlowEvent.mark (event : FlowEvent) : Tag × ℚ := (event.tag, event.timestamp)

/-- The marks of the events of a path with their times. -/
def Path.marks (path : Path) (request : Request) (times : List ℚ) : List (Tag × ℚ) :=
  (path.tags request).zip times

private theorem tags_of_marks {path : Path} {request : Request} {times : List ℚ}
    {events : List FlowEvent} (timed : path.steps.length = times.length)
    (marked : events.map FlowEvent.mark = path.marks request times) :
    events.map FlowEvent.tag = path.tags request := by
  have tags := congrArg (List.map Prod.fst) marked
  rw [List.map_map, Path.marks, List.map_fst_zip (by simp [Path.tags, timed])] at tags
  exact tags

section

variable {α : Type} {script : List (Tag × ℚ)} {Q : α → Prop}

theorem traces_ensureNotCancelled (cancelled : Bool) :
    Effect.Traces FlowEvent.mark [] (ensureNotCancelled cancelled) (fun _ => True) := by
  unfold ensureNotCancelled
  cases cancelled with
  | true => exact Effect.traces_throw _
  | false => exact Effect.traces_pure trivial

theorem after_ensureNotCancelled {cancelled : Bool} {f : Unit → RunnerM α}
    (rest : Effect.Traces FlowEvent.mark script (f ()) Q) :
    Effect.Traces FlowEvent.mark script (ensureNotCancelled cancelled >>= f) Q :=
  (traces_ensureNotCancelled cancelled).bind (fun _ _ => rest)

theorem after_fetchDetail {outcome : Except String Unit} {f : Unit → RunnerM α}
    (rest : Effect.Traces FlowEvent.mark script (f ()) Q) :
    Effect.Traces FlowEvent.mark script (fetchDetail outcome >>= f) Q :=
  Effect.Traces.after_lift (fun _ _ => rest)

private theorem after_redisCall {outcome : Except RedisFailure Unit} {f : Unit → RunnerM α}
    (rest : Effect.Traces FlowEvent.mark script (f ()) Q) :
    Effect.Traces FlowEvent.mark script (redisCall outcome >>= f) Q :=
  Effect.Traces.after_lift (fun _ _ => rest)

end

variable (elapsedMs : ℚ → ℚ → ℚ)

/-- What a request to the database takes from its start to its response. -/
def BaselineCalls.duration (calls : BaselineCalls) : ℚ := elapsedMs (calls.clock 0) (calls.clock 2)

/-- The times of the events of a request to the database. -/
def BaselineCalls.times (calls : BaselineCalls) : List ℚ :=
  [0, 1, 2, 2].map (fun reading => elapsedMs (calls.clock 0) (calls.clock reading))

def ReferenceCalls.duration (calls : ReferenceCalls) : ℚ := elapsedMs (calls.clock 0) (calls.clock 3)

def ReferenceCalls.times (calls : ReferenceCalls) : List ℚ :=
  0 :: [2, 3].map (fun reading => elapsedMs (calls.clock 0) (calls.clock reading))

/-- What a request through the cache takes from its start to its response. -/
def CacheCalls.duration (calls : CacheCalls) : ℚ :=
  elapsedMs (calls.clock 0) (calls.clock (match calls.lookup with
    | .error _ => 4
    | .ok (some _) => 3
    | .ok none => 7))

/-- The times of the events of a request through the cache. -/
def CacheCalls.times (calls : CacheCalls) : List ℚ :=
  0 :: (match calls.path with
    | .hit => [1, 2, 2, 3]
    | .miss => [1, 2, 2, 3, 4, 6, 7]
    | .writebackFailed => [1, 2, 2, 3, 4, 6, 6, 7]
    | _ => [1, 2, 2, 3, 4, 4]).map (fun reading => elapsedMs (calls.clock 0) (calls.clock reading))

theorem baselineRequest_traces (calls : BaselineCalls) (index : ℕ) :
    Effect.Traces FlowEvent.mark (Path.dbOnly.marks (.baseline index) (calls.times elapsedMs))
      (baselineRequest elapsedMs calls index) (· = calls.duration elapsedMs) := by
  unfold baselineRequest
  apply after_ensureNotCancelled
  apply Effect.Traces.after_append
  apply Effect.Traces.after_append
  apply after_fetchDetail
  apply Effect.Traces.after_append
  apply Effect.Traces.after_append
  exact Effect.traces_pure rfl

theorem referenceRequest_traces (calls : ReferenceCalls) (index : ℕ) :
    Effect.Traces FlowEvent.mark (Path.reference.marks (.reference index) (calls.times elapsedMs))
      (referenceRequest elapsedMs calls index) (· = calls.duration elapsedMs) := by
  unfold referenceRequest
  apply after_ensureNotCancelled
  apply after_redisCall
  apply Effect.Traces.after_append
  apply after_redisCall
  apply Effect.Traces.after_append
  apply Effect.Traces.after_append
  exact Effect.traces_pure rfl

/-- A request outside the cache as a whole: its events and its sample. -/
structure SampleSpec (path : Path) (request : Request) (duration sample : ℚ)
    (added : List FlowEvent) : Prop where
  recorded : added.map FlowEvent.tag = path.tags request
  sample : sample = duration

theorem baselineRequest_appends (calls : BaselineCalls) (index : ℕ) :
    Effect.Appends (baselineRequest elapsedMs calls index)
      (SampleSpec .dbOnly (.baseline index) (calls.duration elapsedMs)) :=
  (baselineRequest_traces elapsedMs calls index).appends.mono
    (fun _ _ ⟨marked, sample⟩ => ⟨tags_of_marks rfl marked, sample⟩)

theorem referenceRequest_appends (calls : ReferenceCalls) (index : ℕ) :
    Effect.Appends (referenceRequest elapsedMs calls index)
      (SampleSpec .reference (.reference index) (calls.duration elapsedMs)) :=
  (referenceRequest_traces elapsedMs calls index).appends.mono
    (fun _ _ ⟨marked, sample⟩ => ⟨tags_of_marks rfl marked, sample⟩)

/-- The counters of some totals after requests along some paths. -/
structure Counted (paths : List Path) (totals totals' : CacheTotals) : Prop where
  total : totals'.cacheTotal = totals.cacheTotal + paths.length
  hits : totals'.cacheHits = totals.cacheHits + paths.count .hit
  misses : totals'.redisMissCount = totals.redisMissCount + paths.countP Path.missed
  fallbacks : totals'.fallbackCount = totals.fallbackCount + paths.countP Path.failed
  errors : totals'.errorCount = totals.errorCount + paths.countP Path.failed

/-- What a request through the cache does to the counters and to the two collections of samples. -/
structure RoundTotals (calls : CacheCalls) (bucket : ℤ) (totals totals' : CacheTotals) : Prop where
  counted : Counted [calls.path] totals totals'
  samples : totals'.samples = (totals.addSample bucket (calls.duration elapsedMs)).samples
  bucketSamples : totals'.bucketSamples =
    (totals.addSample bucket (calls.duration elapsedMs)).bucketSamples

theorem cacheRequest_traces (config : RunConfig) (calls : CacheCalls) (bucket : ℤ)
    (totals : CacheTotals) (index : ℕ) :
    Effect.Traces FlowEvent.mark (calls.path.marks (.cache bucket index) (calls.times elapsedMs))
      (cacheRequest elapsedMs config calls bucket totals index)
      (RoundTotals elapsedMs calls bucket totals) := by
  suffices traced : Effect.Traces FlowEvent.mark
      (calls.path.marks (.cache bucket index) (calls.times elapsedMs))
      (cacheRequest elapsedMs config calls bucket totals index)
      (fun totals' => Counted [calls.path] totals totals' ∧
        totals'.samples = (totals.addSample bucket (calls.duration elapsedMs)).samples ∧
        totals'.bucketSamples =
          (totals.addSample bucket (calls.duration elapsedMs)).bucketSamples) from
    traced.mono (fun _ ⟨counted, samples, buckets⟩ => ⟨counted, samples, buckets⟩)
  unfold cacheRequest CacheCalls.times CacheCalls.path CacheCalls.duration
  rcases calls.lookup with (reason | message) | (_ | value)
  · apply after_ensureNotCancelled
    apply after_redisCall
    repeat apply Effect.Traces.after_append
    apply after_fetchDetail
    repeat apply Effect.Traces.after_append
    exact Effect.traces_pure ⟨⟨rfl, rfl, rfl, rfl, rfl⟩, rfl, rfl⟩
  · apply after_ensureNotCancelled
    apply after_redisCall
    apply Effect.Traces.after_append
    apply Effect.Traces.after_append
    exact Effect.traces_throw _
  · rcases calls.writeback with (reason | message) | _
    · apply after_ensureNotCancelled
      apply after_redisCall
      repeat apply Effect.Traces.after_append
      apply after_fetchDetail
      repeat apply Effect.Traces.after_append
      exact Effect.traces_pure ⟨⟨rfl, rfl, rfl, rfl, rfl⟩, rfl, rfl⟩
    · apply after_ensureNotCancelled
      apply after_redisCall
      repeat apply Effect.Traces.after_append
      apply after_fetchDetail
      apply Effect.Traces.after_append
      exact Effect.traces_throw _
    · apply after_ensureNotCancelled
      apply after_redisCall
      repeat apply Effect.Traces.after_append
      apply after_fetchDetail
      repeat apply Effect.Traces.after_append
      exact Effect.traces_pure ⟨⟨rfl, rfl, rfl, rfl, rfl⟩, rfl, rfl⟩
  · apply after_ensureNotCancelled
    apply after_redisCall
    repeat apply Effect.Traces.after_append
    exact Effect.traces_pure ⟨⟨rfl, rfl, rfl, rfl, rfl⟩, rfl, rfl⟩

/-- A request through the cache as a whole: its events, and what it does to the totals. -/
structure RoundSpec (calls : CacheCalls) (bucket : ℤ) (index : ℕ) (totals totals' : CacheTotals)
    (added : List FlowEvent) : Prop extends RoundTotals elapsedMs calls bucket totals totals' where
  recorded : added.map FlowEvent.tag = calls.path.tags (.cache bucket index)

theorem CacheCalls.length_times (calls : CacheCalls) :
    calls.path.steps.length = (calls.times elapsedMs).length := by
  unfold CacheCalls.times CacheCalls.path
  rcases calls.lookup with failure | (_ | value)
  · rfl
  · cases calls.writeback <;> rfl
  · rfl

theorem cacheRequest_appends (config : RunConfig) (calls : CacheCalls) (bucket : ℤ)
    (totals : CacheTotals) (index : ℕ) :
    Effect.Appends (cacheRequest elapsedMs config calls bucket totals index)
      (RoundSpec elapsedMs calls bucket index totals) :=
  (cacheRequest_traces elapsedMs config calls bucket totals index).appends.mono
    (fun _ _ ⟨marked, kept⟩ => ⟨kept, tags_of_marks (calls.length_times elapsedMs) marked⟩)

/-! ### What a run writes -/

/-- A loop over requests along one path, which adds a sample for each. -/
def Sampled (path : Path) (requests : List Request) (samples samples' : List ℚ)
    (added : List FlowEvent) : Prop :=
  Writes requests (requests.map (fun _ => path)) added ∧
    samples'.length = samples.length + requests.length

/-- A loop over requests through the cache, which counts them. -/
def Served (calls : ℕ → CacheCalls) (requests : List Request) (totals totals' : CacheTotals)
    (added : List FlowEvent) : Prop :=
  ∃ paths, paths = (List.range' totals.cacheTotal requests.length).map (fun k => (calls k).path) ∧
    Writes requests paths added ∧ Counted paths totals totals'

private theorem sampled_append {path : Path} {requests requests' : List Request}
    {samples samples' samples'' : List ℚ} {added later : List FlowEvent}
    (first : Sampled path requests samples samples' added)
    (rest : Sampled path requests' samples' samples'' later) :
    Sampled path (requests ++ requests') samples samples'' (added ++ later) := by
  obtain ⟨written, length⟩ := first
  obtain ⟨written', length'⟩ := rest
  refine ⟨?_, by rw [List.length_append]; omega⟩
  rw [List.map_append]
  exact written.append written'

private theorem counted_append {paths paths' : List Path} {totals totals' totals'' : CacheTotals}
    (first : Counted paths totals totals') (rest : Counted paths' totals' totals'') :
    Counted (paths ++ paths') totals totals'' where
  total := by rw [rest.total, first.total, List.length_append, Nat.add_assoc]
  hits := by rw [rest.hits, first.hits, List.count_append, Nat.add_assoc]
  misses := by rw [rest.misses, first.misses, List.countP_append, Nat.add_assoc]
  fallbacks := by rw [rest.fallbacks, first.fallbacks, List.countP_append, Nat.add_assoc]
  errors := by rw [rest.errors, first.errors, List.countP_append, Nat.add_assoc]

private theorem served_append {calls : ℕ → CacheCalls} {requests requests' : List Request}
    {totals totals' totals'' : CacheTotals} {added later : List FlowEvent}
    (first : Served calls requests totals totals' added)
    (rest : Served calls requests' totals' totals'' later) :
    Served calls (requests ++ requests') totals totals'' (added ++ later) := by
  obtain ⟨paths, served, written, counted⟩ := first
  obtain ⟨paths', served', written', counted'⟩ := rest
  have length : paths.length = requests.length := by simp [served]
  refine ⟨paths ++ paths', ?_, written.append written', counted_append counted counted'⟩
  rw [served, served', counted.total, length, ← List.map_append, List.range'_append_1,
    List.length_append]

private theorem sampleLoop_keeps {R : List Request → List ℚ → List ℚ → List FlowEvent → Prop}
    {request : ℕ → Request} {round : ℕ → RunnerM ℚ} {S : ℕ → ℚ → List FlowEvent → Prop}
    (specified : ∀ index, Effect.Appends (round index) (S index))
    (stay : ∀ samples, R [] samples samples [])
    (compose : ∀ {is js samples samples' samples'' added later}, R is samples samples' added →
      R js samples' samples'' later → R (is ++ js) samples samples'' (added ++ later))
    (step : ∀ {index samples sample added}, S index sample added →
      R [request index] samples (samples ++ [sample]) added) (indices : List ℕ) :
    Effect.Appends
      (indices.foldlM (fun samples index => do
        let sample ← round index
        return samples ++ [sample]) [])
      (R (indices.map request) []) := by
  rw [List.map_eq_flatMap]
  apply Effect.appends_foldlM stay compose
  intro index _ samples
  apply Effect.Appends.bind (specified index)
  intro sample added spec
  apply Effect.appends_pure
  rw [List.append_nil]
  exact step spec

section Loops

variable {R : List Request → List ℚ → List ℚ → List FlowEvent → Prop}

theorem runBaseline_keeps (config : RunConfig) (calls : ℕ → BaselineCalls)
    (stay : ∀ samples, R [] samples samples [])
    (compose : ∀ {is js samples samples' samples'' added later}, R is samples samples' added →
      R js samples' samples'' later → R (is ++ js) samples samples'' (added ++ later))
    (round : ∀ {index samples sample added},
      SampleSpec .dbOnly (.baseline index) ((calls index).duration elapsedMs) sample added →
      R [.baseline index] samples (samples ++ [sample]) added) :
    Effect.Appends (runBaseline elapsedMs config calls) (R config.baselineRequests []) :=
  sampleLoop_keeps (fun index => baselineRequest_appends elapsedMs (calls index) index)
    stay compose round _

theorem runReference_keeps (config : RunConfig) (calls : ℕ → ReferenceCalls)
    (stay : ∀ samples, R [] samples samples [])
    (compose : ∀ {is js samples samples' samples'' added later}, R is samples samples' added →
      R js samples' samples'' later → R (is ++ js) samples samples'' (added ++ later))
    (round : ∀ {index samples sample added},
      SampleSpec .reference (.reference index) ((calls index).duration elapsedMs) sample added →
      R [.reference index] samples (samples ++ [sample]) added) :
    Effect.Appends (referenceStage elapsedMs config calls) (R config.referenceRequests []) := by
  unfold referenceStage RunConfig.referenceRequests
  split
  · exact sampleLoop_keeps (fun index => referenceRequest_appends elapsedMs (calls index) index)
      stay compose round _
  · exact Effect.appends_pure (stay [])

end Loops

private theorem sampled_nil (path : Path) (samples : List ℚ) : Sampled path [] samples samples [] :=
  ⟨writes_nil, rfl⟩

private theorem sampled_one {path : Path} {request : Request} {samples : List ℚ}
    {duration sample : ℚ} {added : List FlowEvent} (suits : path.mode = request.mode)
    (spec : SampleSpec path request duration sample added) :
    Sampled path [request] samples (samples ++ [sample]) added :=
  ⟨writes_one suits spec.recorded, List.length_append⟩

theorem runCache_keeps {R : List Request → CacheTotals → CacheTotals → List FlowEvent → Prop}
    (config : RunConfig) (calls : ℕ → CacheCalls) (stay : ∀ totals, R [] totals totals [])
    (compose : ∀ {is js totals totals' totals'' added later}, R is totals totals' added →
      R js totals' totals'' later → R (is ++ js) totals totals'' (added ++ later))
    (round : ∀ {bucket index totals totals' added},
      RoundSpec elapsedMs (calls totals.cacheTotal) bucket index totals totals' added →
      R [.cache bucket index] totals totals' added) :
    Effect.Appends (runCache elapsedMs config calls) (R config.cacheRequests {}) := by
  apply Effect.appends_foldlM stay compose
  intro bucket _ totals
  rw [List.map_eq_flatMap]
  apply Effect.appends_foldlM stay compose
  intro index _ totals
  apply Effect.Appends.mono (cacheRequest_appends elapsedMs config _ bucket totals index)
  intro totals' added spec
  exact round spec

theorem runCache_serves (config : RunConfig) (calls : ℕ → CacheCalls) :
    Effect.Appends (runCache elapsedMs config calls) (Served calls config.cacheRequests {}) := by
  apply runCache_keeps elapsedMs config calls
  · exact fun totals => ⟨[], rfl, writes_nil, rfl, rfl, rfl, rfl, rfl⟩
  · exact served_append
  · intro bucket index totals totals' added spec
    exact ⟨_, rfl, writes_one (CacheCalls.mode_path _) spec.recorded, spec.counted⟩

/-- The paths of the requests through the cache. -/
def cachePaths (config : RunConfig) (calls : ℕ → CacheCalls) : List Path :=
  (List.range config.cacheRequests.length).map (fun k => (calls k).path)

/-- What is known of a completed run. -/
structure Completed (config : RunConfig) (env : Environment) (totals : RunTotals)
    (events : List FlowEvent) : Prop where
  written : Writes config.requests (config.baselineRequests.map (fun _ => .dbOnly) ++
    (cachePaths config env.cache ++ config.referenceRequests.map (fun _ => .reference))) events
  counted : Counted (cachePaths config env.cache) {} totals.cache
  baselineSamples : totals.baselineSamples.length = config.baselineRequests.length
  referenceSamples : totals.referenceSamples.length = config.referenceRequests.length

private theorem traces_healthCheck (outcome : Except String Bool) (message : String) :
    Effect.Traces FlowEvent.mark [] (healthCheck outcome message) (fun _ => True) := by
  apply Effect.Traces.after_lift
  intro healthy _
  cases healthy with
  | true => exact Effect.traces_pure trivial
  | false => exact Effect.traces_throw _

private theorem traces_warmup (config : RunConfig) (calls : ℕ → Bool × Except String Unit) :
    Effect.Traces FlowEvent.mark [] (warmup config calls) (fun _ => True) := by
  unfold warmup
  generalize List.range (min 3 config.iterationCount.toNat) = indices
  induction indices with
  | nil => exact Effect.traces_pure trivial
  | cons index indices ih =>
    rw [List.forM_eq_forM, List.forM_cons, bind_assoc]
    apply after_ensureNotCancelled
    apply after_fetchDetail
    exact ih

theorem run_eq_after_checks (config : RunConfig) (env : Environment) :
    ∃ checks : RunnerM Unit, Effect.Traces FlowEvent.mark [] checks (fun _ => True) ∧
      run elapsedMs config env = checks >>= fun _ => runStages elapsedMs config env := by
  unfold run
  cases env.bootstrap.baselineHealth with
  | none =>
    refine ⟨do
      ensureNotCancelled env.bootstrap.cancelled
      healthCheck env.bootstrap.redisHealth "mini-redis health check failed"
      warmup config env.warmup, ?_, ?_⟩
    · apply after_ensureNotCancelled
      exact (traces_healthCheck _ _).bind (fun _ _ => traces_warmup config env.warmup)
    · simp only [bind_assoc]
  | some health =>
    refine ⟨do
      ensureNotCancelled env.bootstrap.cancelled
      healthCheck env.bootstrap.redisHealth "mini-redis health check failed"
      ensureNotCancelled env.bootstrap.baselineCancelled
      healthCheck health "baseline database health check failed"
      warmup config env.warmup, ?_, ?_⟩
    · apply after_ensureNotCancelled
      apply (traces_healthCheck _ _).bind
      intro _ _
      apply after_ensureNotCancelled
      exact (traces_healthCheck _ _).bind (fun _ _ => traces_warmup config env.warmup)
    · simp only [bind_assoc]

/-- What the three stages keep, one after the other. -/
def Staged (B : List ℚ → List FlowEvent → Prop) (C : CacheTotals → List FlowEvent → Prop)
    (D : List ℚ → List FlowEvent → Prop) (totals : RunTotals) (events : List FlowEvent) : Prop :=
  ∃ first second third, events = first ++ (second ++ third) ∧ B totals.baselineSamples first ∧
    C totals.cache second ∧ D totals.referenceSamples third

private theorem runStages_keeps {B : List ℚ → List FlowEvent → Prop}
    {C : CacheTotals → List FlowEvent → Prop} {D : List ℚ → List FlowEvent → Prop}
    {config : RunConfig} {env : Environment}
    (baseline : Effect.Appends (runBaseline elapsedMs config env.baseline) B)
    (cache : Effect.Appends (runCache elapsedMs config env.cache) C)
    (reference : Effect.Appends (referenceStage elapsedMs config env.reference) D) :
    Effect.Appends (runStages elapsedMs config env) (Staged B C D) := by
  apply Effect.Appends.bind baseline
  intro baselineSamples first kept
  apply Effect.Appends.bind cache
  intro totals second kept'
  apply Effect.Appends.bind reference
  intro referenceSamples third kept''
  apply Effect.Appends.bind (traces_ensureNotCancelled env.aggregationCancelled).appends
  rintro _ added ⟨nothing, -⟩
  obtain rfl := List.map_eq_nil_iff.mp nothing
  apply Effect.appends_pure
  rw [List.append_nil, List.append_nil]
  exact ⟨first, second, third, rfl, kept, kept', kept''⟩

theorem run_keeps {B : List ℚ → List FlowEvent → Prop}
    {C : CacheTotals → List FlowEvent → Prop} {D : List ℚ → List FlowEvent → Prop}
    {config : RunConfig} {env : Environment} {totals : RunTotals} {events : List FlowEvent}
    (baseline : Effect.Appends (runBaseline elapsedMs config env.baseline) B)
    (cache : Effect.Appends (runCache elapsedMs config env.cache) C)
    (reference : Effect.Appends (referenceStage elapsedMs config env.reference) D)
    (completed : (run elapsedMs config env).exec [] = (.ok totals, events)) :
    Staged B C D totals events := by
  obtain ⟨checks, silent, split⟩ := run_eq_after_checks elapsedMs config env
  rw [split] at completed
  have appends : Effect.Appends (checks >>= fun _ => runStages elapsedMs config env)
      (Staged B C D) := by
    apply Effect.Appends.bind silent.appends
    rintro _ added ⟨nothing, -⟩
    obtain rfl := List.map_eq_nil_iff.mp nothing
    exact runStages_keeps elapsedMs baseline cache reference
  obtain ⟨added, rfl, kept⟩ := appends [] totals events completed
  exact kept

/-- A completed run has written the blocks of its requests and counted their paths. -/
theorem completed_of_run {config : RunConfig} {env : Environment} {totals : RunTotals}
    {events : List FlowEvent} (completed : (run elapsedMs config env).exec [] = (.ok totals, events)) :
    Completed config env totals events := by
  have baseline := runBaseline_keeps elapsedMs config env.baseline (sampled_nil .dbOnly)
    sampled_append (sampled_one rfl)
  have reference := runReference_keeps elapsedMs config env.reference (sampled_nil .reference)
    sampled_append (sampled_one rfl)
  obtain ⟨first, second, third, rfl, ⟨written, sampled⟩, ⟨paths, served, written', counted⟩,
    written'', sampled'⟩ :=
    run_keeps elapsedMs baseline (runCache_serves elapsedMs config env.cache) reference completed
  rw [← List.range_eq_range'] at served
  subst served
  refine ⟨written.append (written'.append written''), counted, ?_, ?_⟩
  · simpa using sampled
  · simpa using sampled'

end MiniRedis.App
