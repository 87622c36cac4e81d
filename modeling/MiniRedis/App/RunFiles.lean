/- GID: MiniRedis/App/RunFiles
   generality: I
   digest: The run store as text files: records as indented JSON, events and logs as lines. -/

import MiniRedis.App.Controller
import MiniRedis.App.EventGroups
import MiniRedis.App.JsonRoundTrip
import MiniRedis.Base.Ranking
import MiniRedis.Python.Lines
import Mathlib.Data.String.Basic

set_option autoImplicit false
set_option relaxedAutoImplicit false

namespace MiniRedis.App.RunFiles

open MiniRedis.Base MiniRedis.Python JsonText

/-! ### Records -/

structure RunSummary where
  dbAvgMs : PyFloat
  redisAvgMs : PyFloat
  referenceAvgMs : Option PyFloat
  p95DbMs : PyFloat
  p95RedisMs : PyFloat
  p95ReferenceMs : Option PyFloat
  speedupRatio : PyFloat
  improvementPercent : PyFloat
  breakEvenHitRate : Option ℤ
  cacheHitRate : PyFloat
  dbOnlyCount : ℤ
  redisHitCount : ℤ
  redisMissCount : ℤ
  fallbackCount : ℤ
  errorCount : ℤ
  deriving DecidableEq

structure RunRecord where
  runId : String
  status : RunStatus
  config : RunConfig
  createdAt : String
  updatedAt : String
  startedAt : Option String := none
  finishedAt : Option String := none
  summary : Option RunSummary := none
  errorMessage : Option String := none
  miniRedisCommit : Option String := none
  appCommit : Option String := none
  deriving DecidableEq

/-- The texts of the statuses. -/
def statusTexts : List (RunStatus × String) :=
  [(.queued, "queued"), (.bootstrapping, "bootstrapping"), (.warmingUp, "warming_up"),
    (.runningBaseline, "running_baseline"), (.runningCache, "running_cache"),
    (.runningReference, "running_reference"), (.aggregating, "aggregating"),
    (.cancelling, "cancelling"), (.completed, "completed"), (.failed, "failed"),
    (.cancelled, "cancelled")]

def statusText (status : RunStatus) : String := (statusTexts.lookup status).getD ""

def statusOf (text : String) : Option RunStatus :=
  (statusTexts.find? (fun entry => entry.2 = text)).map Prod.fst

/-! ### To dictionaries -/

def optional {α : Type} (wrap : α → JsonValue) : Option α → JsonValue
  | none => .null
  | some value => wrap value

def configToDict (config : RunConfig) : JsonValue :=
  .object [("scenario", .string config.scenario), ("iteration_count", .int config.iterationCount),
    ("concurrency", .int config.concurrency),
    ("hit_rate_buckets", .array (config.hitRateBuckets.map .int)),
    ("ttl_seconds", .int config.ttlSeconds), ("include_reference", .bool config.includeReference)]

def summaryToDict (summary : RunSummary) : JsonValue :=
  .object [("db_avg_ms", .float summary.dbAvgMs), ("redis_avg_ms", .float summary.redisAvgMs),
    ("reference_avg_ms", optional .float summary.referenceAvgMs),
    ("p95_db_ms", .float summary.p95DbMs), ("p95_redis_ms", .float summary.p95RedisMs),
    ("p95_reference_ms", optional .float summary.p95ReferenceMs),
    ("speedup_ratio", .float summary.speedupRatio),
    ("improvement_percent", .float summary.improvementPercent),
    ("break_even_hit_rate", optional .int summary.breakEvenHitRate),
    ("cache_hit_rate", .float summary.cacheHitRate), ("db_only_count", .int summary.dbOnlyCount),
    ("redis_hit_count", .int summary.redisHitCount), ("redis_miss_count", .int summary.redisMissCount),
    ("fallback_count", .int summary.fallbackCount), ("error_count", .int summary.errorCount)]

def toDict (record : RunRecord) : JsonValue :=
  .object [("run_id", .string record.runId), ("status", .string (statusText record.status)),
    ("config", configToDict record.config), ("created_at", .string record.createdAt),
    ("updated_at", .string record.updatedAt), ("started_at", optional .string record.startedAt),
    ("finished_at", optional .string record.finishedAt),
    ("summary", optional summaryToDict record.summary),
    ("error_message", optional .string record.errorMessage),
    ("mini_redis_commit", optional .string record.miniRedisCommit),
    ("app_commit", optional .string record.appCommit)]

/-! ### From dictionaries -/

/-- What reading a run raises: that there is no file, or any exception about what the file holds. -/
inductive ReadError where
  | fileNotFound
  | unreadable
  deriving DecidableEq

/-- `payload.get(name)`; what is no dictionary has no such method. -/
def get? (payload : JsonValue) (name : String) : Except ReadError (Option JsonValue) :=
  match payload with
  | .object entries => .ok (entries.lookup name)
  | _ => .error .unreadable

/-- `payload[name]`. -/
def field (payload : JsonValue) (name : String) : Except ReadError JsonValue := do
  match ← get? payload name with
  | some value => return value
  | none => throw .unreadable

def asString : JsonValue → Except ReadError String
  | .string value => .ok value
  | _ => .error .unreadable

def asInt : JsonValue → Except ReadError ℤ
  | .int value => .ok value
  | _ => .error .unreadable

def asFloat : JsonValue → Except ReadError PyFloat
  | .float value => .ok value
  | _ => .error .unreadable

def asBool : JsonValue → Except ReadError Bool
  | .bool value => .ok value
  | _ => .error .unreadable

def asList : JsonValue → Except ReadError (List JsonValue)
  | .array items => .ok items
  | _ => .error .unreadable

def asOptional {α : Type} (read : JsonValue → Except ReadError α) :
    JsonValue → Except ReadError (Option α)
  | .null => .ok none
  | value => (read value).map some

def asStatus (value : JsonValue) : Except ReadError RunStatus := do
  match statusOf (← asString value) with
  | some status => return status
  | none => throw .unreadable

/-- An optional field that may be missing. -/
def optionalField {α : Type} (read : JsonValue → Except ReadError α) (payload : JsonValue)
    (name : String) : Except ReadError (Option α) := do
  asOptional read ((← get? payload name).getD .null)

/-- A call `Class(**payload)` takes no names that the class does not have. -/
def onlyNames (names : List String) (payload : JsonValue) : Except ReadError Unit :=
  match payload with
  | .object entries =>
    if entries.all (fun entry => entry.1 ∈ names) then .ok () else .error .unreadable
  | _ => .error .unreadable

/-- `RunConfig(**payload)`. -/
def configOf (payload : JsonValue) : Except ReadError RunConfig := do
  onlyNames ["scenario", "iteration_count", "concurrency", "hit_rate_buckets", "ttl_seconds",
    "include_reference"] payload
  let scenario ← asString (← field payload "scenario")
  let iterationCount ← asInt (← field payload "iteration_count")
  let concurrency ← asInt (← field payload "concurrency")
  let hitRateBuckets ← (← asList (← field payload "hit_rate_buckets")).mapM asInt
  let ttlSeconds ← asInt (← field payload "ttl_seconds")
  let includeReference ← asBool ((← get? payload "include_reference").getD (.bool false))
  return { scenario, iterationCount, concurrency, hitRateBuckets, ttlSeconds, includeReference }

/-- `RunSummary(**payload)`. -/
def summaryOf (payload : JsonValue) : Except ReadError RunSummary := do
  onlyNames ["db_avg_ms", "redis_avg_ms", "reference_avg_ms", "p95_db_ms", "p95_redis_ms",
    "p95_reference_ms", "speedup_ratio", "improvement_percent", "break_even_hit_rate",
    "cache_hit_rate", "db_only_count", "redis_hit_count", "redis_miss_count", "fallback_count",
    "error_count"] payload
  let dbAvgMs ← asFloat (← field payload "db_avg_ms")
  let redisAvgMs ← asFloat (← field payload "redis_avg_ms")
  let referenceAvgMs ← asOptional asFloat (← field payload "reference_avg_ms")
  let p95DbMs ← asFloat (← field payload "p95_db_ms")
  let p95RedisMs ← asFloat (← field payload "p95_redis_ms")
  let p95ReferenceMs ← asOptional asFloat (← field payload "p95_reference_ms")
  let speedupRatio ← asFloat (← field payload "speedup_ratio")
  let improvementPercent ← asFloat (← field payload "improvement_percent")
  let breakEvenHitRate ← asOptional asInt (← field payload "break_even_hit_rate")
  let cacheHitRate ← asFloat (← field payload "cache_hit_rate")
  let dbOnlyCount ← asInt (← field payload "db_only_count")
  let redisHitCount ← asInt (← field payload "redis_hit_count")
  let redisMissCount ← asInt (← field payload "redis_miss_count")
  let fallbackCount ← asInt (← field payload "fallback_count")
  let errorCount ← asInt (← field payload "error_count")
  return {
    dbAvgMs, redisAvgMs, referenceAvgMs, p95DbMs, p95RedisMs, p95ReferenceMs, speedupRatio,
    improvementPercent, breakEvenHitRate, cacheHitRate, dbOnlyCount, redisHitCount, redisMissCount,
    fallbackCount, errorCount }

/-- An empty summary counts as none. -/
def summaryOrNone (payload : JsonValue) : Except ReadError (Option RunSummary) :=
  if payload.truthy then (summaryOf payload).map some else .ok none

def recordOf (payload : JsonValue) : Except ReadError RunRecord := do
  let config ← configOf (← field payload "config")
  let summary ← summaryOrNone ((← get? payload "summary").getD .null)
  let runId ← asString (← field payload "run_id")
  let status ← asStatus (← field payload "status")
  let createdAt ← asString (← field payload "created_at")
  let updatedAt ← asString (← field payload "updated_at")
  let startedAt ← optionalField asString payload "started_at"
  let finishedAt ← optionalField asString payload "finished_at"
  let errorMessage ← optionalField asString payload "error_message"
  let miniRedisCommit ← optionalField asString payload "mini_redis_commit"
  let appCommit ← optionalField asString payload "app_commit"
  return {
    runId, status, config, createdAt, updatedAt, startedAt, finishedAt, summary, errorMessage,
    miniRedisCommit, appCommit }

/-! ### `RunStore` -/

/-- The directory of a store: the text of each file by its name. -/
abbrev Files := Dict String String

def runPath (runId : String) : String := runId ++ ".json"

def eventsPath (runId : String) : String := runId ++ ".events.jsonl"

def logsPath (runId : String) : String := runId ++ ".logs.jsonl"

def readText (path : String) (files : Files) : Option String :=
  (files.get? path).map (fun text => String.ofList (universalNewlines text.toList))

/-- A file that is not there is made. -/
def appendText (path text : String) (files : Files) : Files :=
  files.set path ((files.get? path).getD "" ++ text)

/-- `json.loads(text)`. -/
def payloadOf (text : String) : Except ReadError JsonValue :=
  match loads text with
  | some payload => .ok payload
  | none => .error .unreadable

def writeRun (record : RunRecord) (files : Files) : Files :=
  files.set (runPath record.runId) (dumps (some 2) (toDict record))

def readRun (runId : String) (files : Files) : Except ReadError RunRecord :=
  match readText (runPath runId) files with
  | none => .error .fileNotFound
  | some text => payloadOf text >>= recordOf

def appendEvent (runId : String) (event : JsonValue) (files : Files) : Files :=
  appendText (eventsPath runId) (dumps none event ++ "\n") files

/-- The values in the lines of a file; a file that is not there has none. -/
def readLines (path : String) (files : Files) : Except ReadError (List JsonValue) :=
  match readText path files with
  | none => .ok []
  | some text =>
    ((splitlines text.toList).filter (· ≠ [])).mapM (fun line => payloadOf (String.ofList line))

def readEvents (runId : String) (files : Files) : Except ReadError (List JsonValue) :=
  readLines (eventsPath runId) files

/-- `float(event.get("timestamp", 0)) > after`. -/
def isLater (after : PyFloat) (event : JsonValue) : Except ReadError Bool := do
  match EventGroups.toFloat ((← get? event "timestamp").getD (.int 0)) with
  | .ok timestamp => return after.lt timestamp
  | .error _ => throw .unreadable

def readEventsAfter (runId : String) (after : Option PyFloat) (files : Files) :
    Except ReadError (List JsonValue) := do
  let events ← readEvents runId files
  match after with
  | none => return events
  | some after => events.filterM (isLater after)

structure LogEntry where
  timestamp : PyFloat
  level : String
  stage : String
  message : String
  metadata : List (String × JsonValue) := []

def LogEntry.toDict (entry : LogEntry) : JsonValue :=
  .object [("timestamp", .float entry.timestamp), ("level", .string entry.level),
    ("stage", .string entry.stage), ("message", .string entry.message),
    ("metadata", .object entry.metadata)]

def appendLog (runId : String) (entry : LogEntry) (files : Files) : Files :=
  appendText (logsPath runId) (dumps none entry.toDict ++ "\n") files

def readLogs (runId : String) (files : Files) : Except ReadError (List JsonValue) :=
  readLines (logsPath runId) files

/-- The pattern `run_*.json`. -/
def isRunFile (name : String) : Bool :=
  "run_".toList.isPrefixOf name.toList && ".json".toList.isSuffixOf name.toList

def serializeRunListItem (payload : JsonValue) : Except ReadError JsonValue := do
  let runId ← field payload "run_id"
  let status ← field payload "status"
  let scenario ← field (← field payload "config") "scenario"
  let createdAt ← field payload "created_at"
  let updatedAt ← field payload "updated_at"
  return .object [("run_id", runId), ("status", status), ("scenario", scenario),
    ("created_at", createdAt), ("updated_at", updatedAt)]

/-- The item of one file. -/
def readItem (files : Files) (path : String) : Except ReadError JsonValue :=
  match readText path files with
  | none => .error .fileNotFound
  | some text => payloadOf text >>= serializeRunListItem

/-- The newest run comes first as far as the names tell. -/
def listRuns (files : Files) : Except ReadError (List JsonValue) :=
  ((files.keys.filter isRunFile).insertionSort (· ≤ ·)).reverse.mapM (readItem files)

/-- `run["status"] in active_statuses`. -/
def isActiveItem (item : JsonValue) : Except ReadError Bool := do
  match ← field item "status" with
  | .string status => return status ∈ activeStatuses.map statusText
  | .array _ | .object _ => throw .unreadable
  | _ => return false

def hasActiveRun (files : Files) : Except ReadError Bool := do
  (← listRuns files).anyM isActiveItem

/-! ### What a store does -/

inductive Operation where
  | writeRun (record : RunRecord)
  | appendEvent (runId : String) (event : JsonValue)
  | appendLog (runId : String) (entry : LogEntry)

def Operation.apply : Operation → Files → Files
  | .writeRun record => RunFiles.writeRun record
  | .appendEvent runId event => RunFiles.appendEvent runId event
  | .appendLog runId entry => RunFiles.appendLog runId entry

/-- What an operation writes is JSON that Python can hold. -/
def Operation.Plain : Operation → Prop
  | .writeRun record => JsonText.Plain (toDict record)
  | .appendEvent _ event => JsonText.Plain event
  | .appendLog _ entry => JsonText.Plain entry.toDict

def perform (operations : List Operation) (files : Files) : Files :=
  operations.foldl (fun files operation => operation.apply files) files

/-! ### What a store is for -/

/-- The last record of every run, and all its events and log entries in the order they came. -/
structure Journal where
  runs : Dict String RunRecord := Dict.empty
  events : String → List JsonValue := fun _ => []
  logs : String → List JsonValue := fun _ => []

namespace Journal

def apply : Operation → Journal → Journal
  | .writeRun record, journal => { journal with runs := journal.runs.set record.runId record }
  | .appendEvent runId event, journal =>
    { journal with events := Function.update journal.events runId (journal.events runId ++ [event]) }
  | .appendLog runId entry, journal =>
    { journal with logs := Function.update journal.logs runId (journal.logs runId ++ [entry.toDict]) }

def perform (operations : List Operation) (journal : Journal) : Journal :=
  operations.foldl (fun journal operation => apply operation journal) journal

end Journal

/-! ### A record comes back from its dictionary -/

private theorem mapM_asInt (values : List ℤ) : (values.map JsonValue.int).mapM asInt = .ok values := by
  have each : ∀ value ∈ values, asInt (.int value) = .ok value := fun _ _ => rfl
  rw [List.mapM_map]
  exact (mapM_map_ok (g := id) each).trans (by rw [List.map_id])

theorem configOf_configToDict (config : RunConfig) : configOf (configToDict config) = .ok config := by
  change ((config.hitRateBuckets.map JsonValue.int).mapM asInt >>= fun hitRateBuckets =>
    Except.ok { config with hitRateBuckets }) = _
  rw [mapM_asInt]
  rfl

theorem summaryOf_summaryToDict (summary : RunSummary) :
    summaryOf (summaryToDict summary) = .ok summary := by
  obtain ⟨_, _, referenceAvgMs, _, _, p95ReferenceMs, _, _, breakEvenHitRate, _⟩ := summary
  cases referenceAvgMs <;> cases p95ReferenceMs <;> cases breakEvenHitRate <;> rfl

private theorem asStatus_statusText (status : RunStatus) :
    asStatus (.string (statusText status)) = .ok status := by
  cases status <;> rfl

private theorem asOptional_string (value : Option String) :
    asOptional asString (optional .string value) = .ok value := by
  cases value <;> rfl

private theorem summaryOrNone_optional (summary : Option RunSummary) :
    summaryOrNone (optional summaryToDict summary) = .ok summary := by
  cases summary with
  | none => rfl
  | some summary =>
    change (summaryOf (summaryToDict summary)).map some = _
    rw [summaryOf_summaryToDict]
    rfl

theorem recordOf_toDict (record : RunRecord) : recordOf (toDict record) = .ok record := by
  have startedAt : optionalField asString (toDict record) "started_at" = .ok record.startedAt :=
    asOptional_string _
  have finishedAt : optionalField asString (toDict record) "finished_at" = .ok record.finishedAt :=
    asOptional_string _
  have errorMessage : optionalField asString (toDict record) "error_message" =
      .ok record.errorMessage := asOptional_string _
  have miniRedisCommit : optionalField asString (toDict record) "mini_redis_commit" =
      .ok record.miniRedisCommit := asOptional_string _
  have appCommit : optionalField asString (toDict record) "app_commit" = .ok record.appCommit :=
    asOptional_string _
  change (configOf (configToDict record.config) >>= fun config =>
    summaryOrNone (optional summaryToDict record.summary) >>= fun summary =>
    asStatus (.string (statusText record.status)) >>= fun status =>
    optionalField asString (toDict record) "started_at" >>= fun startedAt =>
    optionalField asString (toDict record) "finished_at" >>= fun finishedAt =>
    optionalField asString (toDict record) "error_message" >>= fun errorMessage =>
    optionalField asString (toDict record) "mini_redis_commit" >>= fun miniRedisCommit =>
    optionalField asString (toDict record) "app_commit" >>= fun appCommit =>
    Except.ok { record with
      status, config, startedAt, finishedAt, summary, errorMessage, miniRedisCommit, appCommit }) = _
  rw [configOf_configToDict, summaryOrNone_optional, asStatus_statusText, startedAt, finishedAt,
    errorMessage, miniRedisCommit, appCommit]
  rfl

end MiniRedis.App.RunFiles
