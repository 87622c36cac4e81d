/- GID: MiniRedis/App/ClearRedis
   generality: I
   digest: Clearing Redis deletes the keys that a run may have set, as far as the runs tell. -/

import MiniRedis.App.RunJournal

set_option autoImplicit false
set_option relaxedAutoImplicit false

namespace MiniRedis.App.RunFiles

open MiniRedis.Base MiniRedis.Python JsonText

/-! ### The keys of a benchmark -/

def benchmarkKey (recordId : String) : String := "benchmark:detail:" ++ recordId

def stringOf : Option JsonValue → Option String
  | some (.string value) => some value
  | _ => none

/-- `event.get("metadata", {}).get("record_id")`, where it is a string. -/
def recordIdOf (event : JsonValue) : Except ReadError (Option String) := do
  let metadata := (← get? event "metadata").getD (.object [])
  return stringOf (← get? metadata "record_id")

/-- The keys that the events of a listed run name. -/
def loggedKeys (files : Files) (run : JsonValue) : Except ReadError (List String) := do
  match stringOf (← get? run "run_id") with
  | some runId =>
    let recordIds ← (← readEvents runId files).mapM recordIdOf
    return (recordIds.filterMap id).map benchmarkKey
  | none => return []

def cappedIterationCount (iterationCount : ℤ) : ℕ := (min (max iterationCount 1) 5000).toNat

/-- The buckets that are percentages, or three of their own. -/
def chosenBuckets (hitRateBuckets : List ℤ) : List ℤ :=
  let buckets := hitRateBuckets.filter (fun bucket => 0 ≤ bucket ∧ bucket ≤ 100)
  if buckets = [] then [0, 50, 100] else buckets

/-- The keys that a run of these settings sets. -/
def settingsKeys (iterationCount : ℤ) (hitRateBuckets : List ℤ) : List String :=
  let indices := List.range (cappedIterationCount iterationCount)
  (chosenBuckets hitRateBuckets).flatMap (fun bucket =>
    indices.map fun index => benchmarkKey (toString bucket ++ "-" ++ toString index)) ++
  indices.map fun index => benchmarkKey ("reference-" ++ toString index)

/-- The set of the keys, in order. -/
def collectBenchmarkKeys (iterationCount : ℤ) (hitRateBuckets : List ℤ) (files : Files) :
    Except ReadError (List String) := do
  let logged ← ((← listRuns files).take 20).mapM (loggedKeys files)
  return (settingsKeys iterationCount hitRateBuckets ++ logged.flatten).dedup.insertionSort (· ≤ ·)

/-! ### Clearing them -/

/-- A call that raises `MiniRedisError`, although the server may have deleted the key. -/
structure Fault where
  message : String
  deleted : Bool

section

-- What the call for each key meets. No key is deleted twice.
variable (fault : String → Option Fault)

def deleteKey (key : String) (redis : Dict String String) : Except String ℕ × Dict String String :=
  match fault key with
  | none => (.ok (if key ∈ redis.keys then 1 else 0), redis.erase key)
  | some fault => (.error fault.message, if fault.deleted then redis.erase key else redis)

/-- The loop ends at the first error. -/
def clearKeys : List String → ℕ → Dict String String → (ℕ × Option String) × Dict String String
  | [], removed, redis => ((removed, none), redis)
  | key :: keys, removed, redis =>
    match deleteKey fault key redis with
    | (.ok count, redis) => clearKeys keys (removed + count) redis
    | (.error message, redis) => ((removed, some message), redis)

/-- The HTTP status and the body of the answer. -/
def clearResponse (candidateKeyCount removed : ℕ) (error : Option String) : ℕ × JsonValue :=
  (if error = none then 200 else 502,
    .object [("status", .string (if error = none then "ok" else "partial")),
      ("action", .string "clear-redis"), ("candidate_key_count", .int candidateKeyCount),
      ("removed", .int removed), ("error", optional .string error)])

/-- `_handle_clear_redis`, once the body is read. -/
def clearRedis (iterationCount : ℤ) (hitRateBuckets : List ℤ) (files : Files)
    (redis : Dict String String) : Except ReadError ((ℕ × JsonValue) × Dict String String) := do
  let keys ← collectBenchmarkKeys iterationCount hitRateBuckets files
  let ((removed, error), redis) := clearKeys fault keys 0 redis
  return (clearResponse keys.length removed error, redis)

/-! ### What the loop deletes -/

/-- The keys that are deleted before any error. -/
def reached (keys : List String) : List String := keys.takeWhile (fun key => (fault key).isNone)

def firstError (keys : List String) : Option String :=
  keys.findSome? (fun key => (fault key).map Fault.message)

/-- What clearing some keys leaves of a store. -/
structure Clears (keys : List String) (redis after : Dict String String) : Prop where
  gone : ∀ key ∈ reached fault keys, after.get? key = none
  kept : ∀ key, key ∉ reached fault keys → (key ∈ keys → fault key = none) →
    after.get? key = redis.get? key

variable {fault}

theorem clearKeys_spec {keys : List String} (distinct : keys.Nodup) (removed : ℕ)
    (redis : Dict String String) :
    ∃ after, clearKeys fault keys removed redis =
        ((removed + ((reached fault keys).filter (· ∈ redis.keys)).length, firstError fault keys),
          after) ∧
      Clears fault keys redis after := by
  induction keys generalizing removed redis with
  | nil => exact ⟨redis, rfl, ⟨fun _ member => (nomatch member), fun _ _ _ => rfl⟩⟩
  | cons key keys ih =>
    rw [List.nodup_cons] at distinct
    obtain ⟨fresh, distinct⟩ := distinct
    cases met : fault key with
    | some raised =>
      have none_reached : reached fault (key :: keys) = [] := by
        rw [reached, List.takeWhile_cons, met]
        rfl
      refine ⟨if raised.deleted then redis.erase key else redis, ?_, ?_, ?_⟩
      · rw [clearKeys, deleteKey, met, none_reached, firstError, List.findSome?_cons, met]
        rfl
      · rw [none_reached]
        exact fun _ member => nomatch member
      · intro other _ calm
        have different : other ≠ key := by
          rintro rfl
          rw [calm List.mem_cons_self] at met
          cases met
        split_ifs
        · rw [Dict.get?_erase, if_neg different]
        · rfl
    | none =>
      have first : reached fault (key :: keys) = key :: reached fault keys := by
        rw [reached, List.takeWhile_cons, met]
        rfl
      obtain ⟨after, cleared, clears⟩ := ih distinct (removed + if key ∈ redis.keys then 1 else 0)
        (redis.erase key)
      have untouched : key ∉ reached fault keys :=
        fun member => fresh (List.takeWhile_subset _ member)
      refine ⟨after, ?_, ?_, ?_⟩
      · have sameError : firstError fault (key :: keys) = firstError fault keys := by
          rw [firstError, List.findSome?_cons, met]
          rfl
        have sameKeys : (reached fault keys).filter (· ∈ (redis.erase key).keys) =
            (reached fault keys).filter (· ∈ redis.keys) := by
          apply List.filter_congr
          intro other member
          have different : other ≠ key := fun same => untouched (same ▸ member)
          rw [decide_eq_decide, Dict.mem_keys_iff, Dict.mem_keys_iff, Dict.get?_erase,
            if_neg different]
        rw [clearKeys, deleteKey, met]
        dsimp only
        rw [cleared, sameKeys, sameError, first, List.filter_cons, Nat.add_assoc]
        by_cases held : key ∈ redis.keys
        · rw [if_pos held, if_pos (decide_eq_true held), List.length_cons, Nat.add_comm 1]
        · rw [if_neg held, if_neg (by rwa [decide_eq_true_iff]), Nat.zero_add]
      · rw [first, List.forall_mem_cons]
        refine ⟨?_, clears.gone⟩
        rw [clears.kept key untouched (fun _ => met), Dict.get?_erase, if_pos rfl]
      · intro other missed calm
        rw [first, List.mem_cons, not_or] at missed
        rw [clears.kept other missed.2 (fun member => calm (List.mem_cons_of_mem _ member)),
          Dict.get?_erase, if_neg missed.1]

end

/-! ### Which keys are collected -/

/-- The record that an event names. -/
def namedRecord : JsonValue → Option String
  | .object entries =>
    match entries.lookup "metadata" with
    | some (.object fields) => stringOf (fields.lookup "record_id")
    | _ => none
  | _ => none

/-- A dictionary with a dictionary of metadata, as every event of a run is. -/
def IsEvent (event : JsonValue) : Prop :=
  ∃ entries fields, event = .object entries ∧ entries.lookup "metadata" = some (.object fields)

theorem recordIdOf_event {event : JsonValue} (isEvent : IsEvent event) :
    recordIdOf event = .ok (namedRecord event) := by
  obtain ⟨entries, fields, rfl, metadata⟩ := isEvent
  have found : get? (.object entries) "metadata" = .ok (some (.object fields)) := by
    rw [get?, metadata]
  have named : namedRecord (.object entries) = stringOf (fields.lookup "record_id") := by
    rw [namedRecord, metadata]
  rw [recordIdOf, found, named]
  rfl

namespace Shows

variable {files : Files} {journal : Journal}

private theorem loggedKeys_runListItem (shows_ : Shows files journal)
    (logged : ∀ runId, ∀ event ∈ journal.events runId, IsEvent event) (record : RunRecord) :
    loggedKeys files (runListItem record) =
      .ok (((journal.events record.runId).filterMap namedRecord).map benchmarkKey) := by
  have recordIds : (journal.events record.runId).mapM recordIdOf =
      .ok ((journal.events record.runId).map namedRecord) :=
    mapM_map_ok (fun event member => recordIdOf_event (logged _ event member))
  change (RunFiles.readEvents record.runId files >>= fun events =>
    events.mapM recordIdOf >>= fun recordIds =>
    Except.ok ((recordIds.filterMap id).map benchmarkKey)) = _
  rw [shows_.readEvents, bind_ok, recordIds, bind_ok, List.filterMap_map]
  rfl

theorem collectBenchmarkKeys (shows_ : Shows files journal)
    (logged : ∀ runId, ∀ event ∈ journal.events runId, IsEvent event) (iterationCount : ℤ)
    (hitRateBuckets : List ℤ) :
    ∃ keys, RunFiles.collectBenchmarkKeys iterationCount hitRateBuckets files = .ok keys ∧
      keys.Pairwise (· < ·) ∧
      ∀ key, key ∈ keys ↔ key ∈ settingsKeys iterationCount hitRateBuckets ∨
        ∃ record ∈ journal.newestFirst.take 20, ∃ event ∈ journal.events record.runId,
          ∃ recordId, namedRecord event = some recordId ∧ benchmarkKey recordId = key := by
  have collected : ((journal.newestFirst.map runListItem).take 20).mapM (loggedKeys files) =
      .ok ((journal.newestFirst.take 20).map fun record =>
        ((journal.events record.runId).filterMap namedRecord).map benchmarkKey) := by
    rw [← List.map_take, List.mapM_map]
    exact mapM_map_ok (fun record _ => shows_.loggedKeys_runListItem logged record)
  refine ⟨_, by rw [RunFiles.collectBenchmarkKeys, shows_.listRuns, bind_ok, collected, bind_ok]; rfl,
    ?_, ?_⟩
  · have distinct := (List.perm_insertionSort (· ≤ ·) _).nodup_iff.mpr (List.nodup_dedup
      (settingsKeys iterationCount hitRateBuckets ++ ((journal.newestFirst.take 20).map fun record =>
        ((journal.events record.runId).filterMap namedRecord).map benchmarkKey).flatten))
    exact ((List.pairwise_insertionSort _ _).and distinct).imp
      (fun ordered => lt_of_le_of_ne ordered.1 ordered.2)
  · intro key
    rw [List.mem_insertionSort, List.mem_dedup, List.mem_append]
    apply or_congr_right
    simp only [List.mem_flatten, List.mem_map, exists_exists_and_eq_and, List.mem_filterMap]
    constructor
    · rintro ⟨record, listed, recordId, ⟨event, member, names⟩, same⟩
      exact ⟨record, listed, event, member, recordId, names, same⟩
    · rintro ⟨record, listed, event, member, recordId, names, same⟩
      exact ⟨record, listed, recordId, ⟨event, member, names⟩, same⟩

end Shows

/-! ### What clearing does -/

/-- The events that a store was given are those of runs. -/
def Operation.OfRun : Operation → Prop
  | .appendEvent _ event => IsEvent event
  | _ => True

private theorem isEvent_of_appended {operations : List Operation}
    (ofRuns : ∀ operation ∈ operations, operation.OfRun) (runId : String) :
    ∀ event ∈ operations.filterMap (Operation.eventFor runId), IsEvent event := by
  intro event member
  obtain ⟨operation, performed, appended⟩ := List.mem_filterMap.mp member
  have given := ofRuns operation performed
  cases operation with
  | writeRun record => cases appended
  | appendLog id entry => cases appended
  | appendEvent id other =>
    rw [Operation.eventFor] at appended
    split_ifs at appended
    cases appended
    exact given

/-- Clearing Redis deletes, in order and up to the first error, the keys of the settings and those
that the events of the twenty newest runs name, and no others. -/
theorem clear_redis_deletes_named_keys (fault : String → Option Fault) (operations : List Operation)
    (plain : ∀ operation ∈ operations, operation.Plain)
    (ofRuns : ∀ operation ∈ operations, operation.OfRun) (iterationCount : ℤ)
    (hitRateBuckets : List ℤ) (redis : Dict String String) :
    ∃ keys after,
      clearRedis fault iterationCount hitRateBuckets (perform operations Dict.empty) redis =
        .ok (clearResponse keys.length ((reached fault keys).filter (· ∈ redis.keys)).length
          (firstError fault keys), after) ∧
      Clears fault keys redis after ∧
      keys.Pairwise (· < ·) ∧
      ∀ key, key ∈ keys ↔ key ∈ settingsKeys iterationCount hitRateBuckets ∨
        ∃ record ∈ (Journal.perform operations {}).newestFirst.take 20,
          ∃ event ∈ operations.filterMap (Operation.eventFor record.runId),
            ∃ recordId, namedRecord event = some recordId ∧ benchmarkKey recordId = key := by
  have shows_ : Shows (perform operations Dict.empty) (Journal.perform operations {}) :=
    shows_empty.perform plain
  have events : ∀ runId, (Journal.perform operations {}).events runId =
      operations.filterMap (Operation.eventFor runId) :=
    fun runId => Journal.events_perform runId operations {}
  obtain ⟨keys, collected, ascending, member⟩ := shows_.collectBenchmarkKeys
    (fun runId => by rw [events]; exact isEvent_of_appended ofRuns runId) iterationCount hitRateBuckets
  obtain ⟨after, cleared, clears⟩ := clearKeys_spec (ascending.imp ne_of_lt) 0 redis
  refine ⟨keys, after, ?_, clears, ascending, ?_⟩
  · rw [clearRedis, collected, bind_ok, cleared, Nat.zero_add]
    rfl
  · intro key
    simp only [member, events]

private def namingEvent : JsonValue :=
  .object [("event_type", .string "request_started"),
    ("metadata", .object [("record_id", .string "70-3")])]

private def namedKeyRun : List Operation :=
  [.writeRun (queuedRun "run_1"), .appendEvent "run_1" namingEvent]

private def twoKeys : Dict String String :=
  (Dict.empty.set (benchmarkKey "70-3") "cached:70-3").set "session:1" "open"

private theorem plain_namedKeyRun : ∀ operation ∈ namedKeyRun, operation.Plain := by
  rw [namedKeyRun, List.forall_mem_cons, List.forall_mem_singleton]
  refine ⟨plain_queuedRun "run_1" .queued, ?_⟩
  simp [Operation.Plain, namingEvent, Plain, PlainEntries]

private theorem ofRuns_namedKeyRun : ∀ operation ∈ namedKeyRun, operation.OfRun := by
  rw [namedKeyRun, List.forall_mem_cons, List.forall_mem_singleton]
  exact ⟨trivial, _, _, rfl, rfl⟩

theorem named_key_cleared : ∃ count removed after,
    clearRedis (fun _ => none) 1 [50] (perform namedKeyRun Dict.empty) twoKeys =
      .ok (clearResponse count removed none, after) ∧
    after.get? (benchmarkKey "70-3") = none ∧ after.get? "session:1" = some "open" := by
  obtain ⟨keys, after, cleared, clears, -, member⟩ := clear_redis_deletes_named_keys (fun _ => none)
    namedKeyRun plain_namedKeyRun ofRuns_namedKeyRun 1 [50] twoKeys
  have calm : firstError (fun _ => none) keys = none := by
    rw [firstError, List.findSome?_eq_none_iff]
    exact fun _ _ => rfl
  have all : reached (fun _ => none) keys = keys := by
    rw [reached, List.takeWhile_eq_self_iff]
    exact fun _ _ => rfl
  rw [calm] at cleared
  refine ⟨_, _, after, cleared, clears.gone _ ?_, ?_⟩
  · have newest : (Journal.perform namedKeyRun {}).newestFirst = [queuedRun "run_1"] := rfl
    rw [all, member, newest]
    exact Or.inr ⟨_, List.mem_singleton_self _, namingEvent, List.mem_singleton_self _, "70-3", rfl,
      rfl⟩
  · rw [clears.kept _ ?_ (fun _ => rfl)]
    · rfl
    · rw [all, member]
      rintro (generated | ⟨_, -, _, -, recordId, -, same⟩)
      · exact absurd generated (by decide)
      · have first := congrArg (fun key => key.toList.head?) same
        simp [benchmarkKey] at first

end MiniRedis.App.RunFiles
