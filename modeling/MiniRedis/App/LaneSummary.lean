/- GID: MiniRedis/App/LaneSummary
   generality: I
   digest: The dashboard counts what the run counted exactly where no write-back failed. -/

import MiniRedis.App.RequestIdentity

set_option autoImplicit false
set_option relaxedAutoImplicit false

namespace MiniRedis.App

open MiniRedis.Base

/-! ### `_build_lane_summary` -/

structure LaneEntry where
  mode : Mode
  label : String
  requestCount : ℕ
  avgDurationMs : Option ℚ
  hitCount : ℕ
  missCount : ℕ
  fallbackCount : ℕ
  errorCount : ℕ

def laneLabel : Mode → String
  | .dbOnly => "DB Only"
  | .cacheAside => "Redis + DB"
  | .redisOnlyReference => "Redis Only Reference"

def countCacheStatus (requests : List RequestTimeline) (status : CacheStatus) : ℕ :=
  requests.countP (fun request => request.cacheStatus = status)

section

-- The rounded mean of some durations.
variable (average : List ℚ → ℚ)

def averageDuration (requests : List RequestTimeline) : Option ℚ :=
  if requests.isEmpty then none else some (average (requests.map RequestTimeline.totalDurationMs))

def buildLaneEntry (mode : Mode) (requests : List RequestTimeline) : LaneEntry where
  mode := mode
  label := laneLabel mode
  requestCount := requests.length
  avgDurationMs := averageDuration average requests
  hitCount := countCacheStatus requests .hit + countCacheStatus requests .referenceHit
  missCount := countCacheStatus requests .miss + countCacheStatus requests .missWritebackFailed
  fallbackCount := countCacheStatus requests .fallback
  errorCount := requests.countP RequestTimeline.hasError

/-- The lanes in order. The reference lane is left out where the run had none. -/
def buildLaneSummary (summary : Option RunSummary) (timelines : List RequestTimeline) : List LaneEntry :=
  [Mode.dbOnly, .cacheAside, .redisOnlyReference].filterMap (fun mode =>
    let requests := timelines.filter (fun timeline => timeline.mode = mode)
    if requests.isEmpty && mode = .redisOnlyReference && (summary.bind RunSummary.referenceAvgMs).isNone
    then none else some (buildLaneEntry average mode requests))

/-- The lane summary of `build_presentation_payload`. -/
def laneSummary (round2 : ℚ → ℚ) (summary : Option RunSummary) (events : List FlowEvent) :
    Option (List LaneEntry) := do
  let timelines ← buildRequestTimelines round2 events
  return buildLaneSummary average summary timelines

/-- The lane through the cache has the counts of the run. -/
def AgreesWithSummary (round2 : ℚ → ℚ) (totals : RunTotals) (events : List FlowEvent) : Prop :=
  ∃ lanes entry, laneSummary average round2 (some (buildSummary average totals)) events = some lanes ∧
    lanes.find? (fun entry => entry.mode = .cacheAside) = some entry ∧
    entry.requestCount = totals.cache.cacheTotal ∧
    entry.hitCount = (buildSummary average totals).redisHitCount ∧
    entry.missCount = (buildSummary average totals).redisMissCount ∧
    entry.fallbackCount = (buildSummary average totals).fallbackCount ∧
    entry.errorCount = (buildSummary average totals).errorCount

end

private theorem find?_cacheAside (average : List ℚ → ℚ) (summary : Option RunSummary)
    (timelines : List RequestTimeline) :
    (buildLaneSummary average summary timelines).find? (fun entry => entry.mode = .cacheAside) =
      some (buildLaneEntry average .cacheAside
        (timelines.filter (fun timeline => timeline.mode = .cacheAside))) := by
  simp [buildLaneSummary, buildLaneEntry]

/-! ### Counting the timelines of the cache -/

private theorem countP_of_forall₂ {α β : Type} {R : α → β → Prop} {p : α → Bool} {q : β → Bool}
    {l : List α} {l' : List β} (related : List.Forall₂ R l l') (same : ∀ a b, R a b → p a = q b) :
    l.countP p = l'.countP q := by
  induction related with
  | nil => rfl
  | cons head _ ih => rw [List.countP_cons, List.countP_cons, ih, same _ _ head]

private theorem countP_timelines {config : RunConfig} {env : Environment} {blocks : List Block}
    {timelines : List RequestTimeline}
    (paths : blocks.map Block.path = config.baselineRequests.map (fun _ => .dbOnly) ++
      (cachePaths config env.cache ++ config.referenceRequests.map (fun _ => .reference)))
    (shows : List.Forall₂ Block.Shows blocks timelines) {q : RequestTimeline → Bool} {p : Path → Bool}
    (same : ∀ block timeline, Block.Shows block timeline → block.path.mode = .cacheAside →
      p block.path = q timeline) :
    (timelines.filter (fun timeline => timeline.mode = .cacheAside)).countP q =
      (cachePaths config env.cache).countP p := by
  have pointwise : ∀ block timeline, Block.Shows block timeline →
      (p block.path && decide (block.path.mode = .cacheAside)) =
        (q timeline && decide (timeline.mode = .cacheAside)) := by
    intro block timeline shown
    rw [shown.mode, ← block.suits]
    by_cases cached : block.path.mode = .cacheAside
    · rw [same block timeline shown cached]
    · simp [cached]
  have cached : ∀ path ∈ cachePaths config env.cache, path.mode = .cacheAside := by
    intro path member
    obtain ⟨k, -, rfl⟩ := List.mem_map.mp member
    exact CacheCalls.mode_path _
  rw [List.countP_filter, ← countP_of_forall₂ shows pointwise,
    ← Function.comp_def (fun path => p path && decide (path.mode = .cacheAside)) Block.path,
    ← List.countP_map, paths, List.countP_append, List.countP_append]
  have baseline : (config.baselineRequests.map (fun _ => Path.dbOnly)).countP
      (fun path => p path && decide (path.mode = .cacheAside)) = 0 := by
    simp [List.countP_eq_zero, Path.mode]
  have reference : (config.referenceRequests.map (fun _ => Path.reference)).countP
      (fun path => p path && decide (path.mode = .cacheAside)) = 0 := by
    simp [List.countP_eq_zero, Path.mode]
  rw [baseline, reference, Nat.zero_add, Nat.add_zero]
  apply List.countP_congr
  intro path member
  simp [cached path member]

private theorem Path.carries {path : Path} (cached : path.mode = .cacheAside) :
    ∃ status, path.status = some status := by
  cases path with
  | dbOnly | reference => cases cached
  | hit | miss | writebackFailed | fallback => exact ⟨_, rfl⟩

/-! ### Counting paths -/

private theorem countP_split {p q r : Path → Bool}
    (split : ∀ path, (if p path then 1 else 0) = (if q path then 1 else 0) + (if r path then 1 else 0))
    (paths : List Path) : paths.countP p = paths.countP q + paths.countP r := by
  induction paths with
  | nil => rfl
  | cons path paths ih =>
    rw [List.countP_cons, List.countP_cons, List.countP_cons, ih, split path]
    omega

private def Path.answers (status : CacheStatus) (path : Path) : Bool :=
  path.mode = .cacheAside && path.status = some status

private theorem count_hit (paths : List Path) : paths.count .hit =
    paths.countP (Path.answers .hit) + paths.countP (Path.answers .referenceHit) :=
  countP_split (fun path => by cases path <;> rfl) paths

private theorem countP_missed (paths : List Path) : paths.countP Path.missed =
    paths.countP (Path.answers .miss) + paths.countP (Path.answers .missWritebackFailed) :=
  countP_split (fun path => by cases path <;> rfl) paths

private theorem countP_failed (paths : List Path) : paths.countP Path.failed =
    paths.countP (Path.answers .fallback) + paths.countP (fun path => path = .writebackFailed) :=
  countP_split (fun path => by cases path <;> rfl) paths

private theorem path_eq_writebackFailed_iff (calls : CacheCalls) :
    calls.path = .writebackFailed ↔ calls.lookup = .ok none ∧ calls.writeback ≠ .ok () := by
  unfold CacheCalls.path
  split <;> simp_all

/-! ### Agreement -/

private theorem laneSummary_of_completed (average : List ℚ → ℚ) (round2 : ℚ → ℚ) {config : RunConfig}
    {env : Environment} {totals : RunTotals} {events : List FlowEvent}
    (completed : Completed config env totals events) (distinct : config.buckets.Nodup)
    (summary : Option RunSummary) :
    ∃ lanes entry, laneSummary average round2 summary events = some lanes ∧
      lanes.find? (fun entry => entry.mode = .cacheAside) = some entry ∧
      entry.requestCount = totals.cache.cacheTotal ∧ entry.hitCount = totals.cache.cacheHits ∧
      entry.missCount = totals.cache.redisMissCount ∧
      entry.fallbackCount + (cachePaths config env.cache).countP (fun path => path = .writebackFailed) =
        totals.cache.fallbackCount ∧
      entry.errorCount = totals.cache.errorCount := by
  obtain ⟨blocks, rfl, executed, paths⟩ := completed.written
  have ids : (blocks.map (fun block => block.request.id)).Nodup := by
    rw [← Function.comp_def Request.id Block.request, ← List.map_map, executed]
    exact (nodup_requests distinct).map Request.id_injective
  obtain ⟨timelines, built, shows⟩ := buildRequestTimelines_shows round2 ids
  have status : ∀ status, countCacheStatus
      (timelines.filter (fun timeline => timeline.mode = .cacheAside)) status =
      (cachePaths config env.cache).countP (Path.answers status) := by
    intro status
    apply countP_timelines paths shows
    intro block timeline shown cached
    obtain ⟨carried, known⟩ := Path.carries cached
    simp [Path.answers, cached, known, shown.status carried known]
  have every : (timelines.filter (fun timeline => timeline.mode = .cacheAside)).length =
      (cachePaths config env.cache).length := by
    have counted := countP_timelines (q := fun _ => true) (p := fun _ => true) paths shows
      (fun _ _ _ _ => rfl)
    rwa [List.countP_true, List.countP_true] at counted
  have errors : (timelines.filter (fun timeline => timeline.mode = .cacheAside)).countP
      RequestTimeline.hasError = (cachePaths config env.cache).countP Path.failed :=
    countP_timelines paths shows (fun _ _ shown _ => shown.failed.symm)
  refine ⟨_, _, by rw [laneSummary, built]; rfl, find?_cacheAside average summary timelines, ?_⟩
  simp only [buildLaneEntry, status, every, errors, completed.counted.total, completed.counted.hits,
    completed.counted.misses, completed.counted.fallbacks, completed.counted.errors, Nat.zero_add]
  exact ⟨trivial, (count_hit _).symm, (countP_missed _).symm, (countP_failed _).symm, trivial⟩

/-- The dashboard agrees with a run exactly where every write-back that was tried succeeded. -/
theorem agrees_with_summary_iff (elapsedMs : ℚ → ℚ → ℚ) (average : List ℚ → ℚ) (round2 : ℚ → ℚ)
    {config : RunConfig} {env : Environment} {totals : RunTotals} {events : List FlowEvent}
    (completed : (run elapsedMs config env).exec [] = (.ok totals, events))
    (distinct : config.hitRateBuckets.Nodup) :
    AgreesWithSummary average round2 totals events ↔
      ∀ k < config.cacheRequests.length,
        (env.cache k).lookup = .ok none → (env.cache k).writeback = .ok () := by
  have buckets : config.buckets.Nodup := by
    unfold RunConfig.buckets
    split
    · exact List.nodup_singleton 50
    · exact distinct
  obtain ⟨lanes, entry, shown, found, total, hits, misses, fallbacks, errors⟩ :=
    laneSummary_of_completed average round2 (completed_of_run elapsedMs completed) buckets
      (some (buildSummary average totals))
  have none_failed : (cachePaths config env.cache).countP (fun path => path = .writebackFailed) = 0 ↔
      ∀ k < config.cacheRequests.length,
        (env.cache k).lookup = .ok none → (env.cache k).writeback = .ok () := by
    rw [List.countP_eq_zero]
    constructor
    · intro kept k inside missed
      by_contra failed
      apply kept _ (List.mem_map_of_mem (List.mem_range.mpr inside))
      rw [decide_eq_true_iff, path_eq_writebackFailed_iff]
      exact ⟨missed, failed⟩
    · intro kept path member failed
      obtain ⟨k, inside, rfl⟩ := List.mem_map.mp member
      rw [decide_eq_true_iff, path_eq_writebackFailed_iff] at failed
      exact failed.2 (kept k (List.mem_range.mp inside) failed.1)
  rw [← none_failed]
  constructor
  · rintro ⟨lanes', entry', shown', found', -, -, -, agreed, -⟩
    rw [shown] at shown'
    cases shown'
    rw [found] at found'
    cases found'
    have same : entry.fallbackCount = totals.cache.fallbackCount := agreed
    omega
  · intro none
    exact ⟨lanes, entry, shown, found, total, hits, misses, by rw [none] at fallbacks; exact fallbacks,
      errors⟩

/-- One request through the cache, as in `calmEnvironment` up to its write-back. -/
def writebackEnvironment (writeback : Except RedisFailure Unit) : Environment :=
  { calmEnvironment with
    cache := fun _ => ⟨false, fun _ => .ok (), fun _ => 0, .ok none, .ok (), writeback⟩ }

theorem written_back_run_agrees :
    ∃ totals, (run exactMs (bucketsConfig [0]) (writebackEnvironment (.ok ()))).exec [] =
        (.ok totals, ((run exactMs (bucketsConfig [0]) (writebackEnvironment (.ok ()))).exec []).2) ∧
      AgreesWithSummary (fun _ => 0) id totals
        ((run exactMs (bucketsConfig [0]) (writebackEnvironment (.ok ()))).exec []).2 := by
  obtain ⟨totals, _, completed⟩ := Effect.exists_of_isOk
    (x := run exactMs (bucketsConfig [0]) (writebackEnvironment (.ok ()))) (s := [])
    (by decide +kernel)
  obtain rfl := congrArg Prod.snd completed
  refine ⟨totals, completed, ?_⟩
  exact (agrees_with_summary_iff exactMs (fun _ => 0) id completed (by decide)).mpr (fun _ _ _ => rfl)

/-- A run whose only write-back fails. -/
def unwrittenRun : Except RunFailure RunTotals × List FlowEvent :=
  (run exactMs (bucketsConfig [0]) (writebackEnvironment (.error (.miniRedisError "timed out")))).exec []

/-- The run counts its failed write-back as a fallback, the dashboard does not. -/
theorem failed_writeback_disagrees :
    (bucketsConfig [0]).hitRateBuckets.Nodup ∧
    ∃ totals, unwrittenRun = (.ok totals, unwrittenRun.2) ∧
      ¬ AgreesWithSummary (fun _ => 0) id totals unwrittenRun.2 := by
  obtain ⟨totals, _, completed⟩ := Effect.exists_of_isOk (x := run exactMs (bucketsConfig [0])
    (writebackEnvironment (.error (.miniRedisError "timed out")))) (s := []) (by decide +kernel)
  obtain rfl := congrArg Prod.snd completed
  refine ⟨by decide, totals, completed, ?_⟩
  rintro ⟨lanes, entry, shown, found, -, -, -, agreed, -⟩
  have counted : (unwrittenRun.1.map (fun totals => totals.cache.fallbackCount)).toOption = some 1 := by
    decide +kernel
  have listed : (buildRequestTimelines id unwrittenRun.2).map (fun timelines => countCacheStatus
      (timelines.filter (fun timeline => timeline.mode = .cacheAside)) .fallback) = some 0 := by
    decide +kernel
  have one : totals.cache.fallbackCount = 1 := by
    rw [unwrittenRun, completed] at counted
    exact Option.some.inj counted
  rw [laneSummary] at shown
  cases built : buildRequestTimelines id unwrittenRun.2 with
  | none => rw [built] at listed; cases listed
  | some timelines =>
    rw [built] at shown listed
    cases shown
    rw [find?_cacheAside] at found
    cases found
    have zero : (totals.cache.fallbackCount : ℕ) = 0 := agreed.symm.trans (Option.some.inj listed)
    omega

end MiniRedis.App
