/- GID: MiniRedis/App/EventGroups
   generality: I
   digest: The timelines of stored events, whatever was stored, together hold every event once. -/

import MiniRedis.App.RunConfig
import MiniRedis.Base.Grouping
import MiniRedis.Python.FloatRepr
import Mathlib.Data.List.Sort

set_option autoImplicit false
set_option relaxedAutoImplicit false

namespace MiniRedis.App.EventGroups

open MiniRedis.Base MiniRedis.Python

/-! ### `normalize_event_entry` -/

inductive EventError where
  | keyError (field : String)
  | valueError
  | typeError
  | overflowError
  | indexError
  deriving DecidableEq

structure EventEntry where
  eventId : String
  requestId : String
  timestamp : PyFloat
  mode : String
  eventType : String
  stage : String
  durationMs : PyFloat
  metadata : Dict String JsonValue

def hexEscape (mark : Char) (width n : ℕ) : String :=
  String.ofList ('\\' :: mark ::
    (List.range width).reverse.map (fun i => Nat.digitChar (n / 16 ^ i % 16)))

-- Which characters beyond ASCII are shown depends on the interpreter's version of Unicode.
variable (isPrintable : Char → Bool)

def reprChar (quote c : Char) : String :=
  if c = quote ∨ c = '\\' then String.ofList ['\\', c]
  else if c = '\n' then "\\n"
  else if c = '\r' then "\\r"
  else if c = '\t' then "\\t"
  else if c.toNat < 0x20 ∨ c.toNat = 0x7F then hexEscape 'x' 2 c.toNat
  else if c.toNat < 0x7F ∨ isPrintable c then c.toString
  else if c.toNat < 0x100 then hexEscape 'x' 2 c.toNat
  else if c.toNat < 0x10000 then hexEscape 'u' 4 c.toNat
  else hexEscape 'U' 8 c.toNat

/-- `repr` of a text, in double quotes where it has a single one and no double one. -/
def reprString (s : String) : String :=
  let quote := if '\x27' ∈ s.toList ∧ '"' ∉ s.toList then '"' else '\x27'
  String.join ([quote.toString] ++ s.toList.map (reprChar isPrintable quote) ++ [quote.toString])

mutual

/-- `repr(value)`. -/
def reprValue : JsonValue → String
  | .null => "None"
  | .bool value => if value then "True" else "False"
  | .int value => toString value
  | .float value => reprFloat value
  | .string value => reprString isPrintable value
  | .array items => "[" ++ ", ".intercalate (reprItems items) ++ "]"
  | .object entries => "\x7b" ++ ", ".intercalate (reprEntries entries) ++ "\x7d"

def reprItems : List JsonValue → List String
  | [] => []
  | item :: items => reprValue item :: reprItems items

def reprEntries : List (String × JsonValue) → List String
  | [] => []
  | (key, value) :: entries =>
    (reprString isPrintable key ++ ": " ++ reprValue value) :: reprEntries entries

end

/-- `str(value)`. -/
def toStr : JsonValue → String
  | .string value => value
  | value => reprValue isPrintable value

/-- `float(value)`. -/
def toFloat : JsonValue → Except EventError PyFloat
  | .null | .array _ | .object _ => .error .typeError
  | .bool value => .ok (.finite false (if value then 1 else 0))
  | .float value => .ok value
  | .int value =>
    let nearest := roundBinary64 (value < 0) value.natAbs
    if nearest.isFinite then .ok nearest else .error .overflowError
  | .string value =>
    match parseFloat value with
    | some x => .ok x
    | none => .error .valueError

/-- One of the pairs that `dict` is given. -/
def pairOf : JsonValue → Except EventError (JsonValue × JsonValue)
  | .array [key, value] => .ok (key, value)
  | .string text =>
    match text.toList with
    | [key, value] => .ok (.string key.toString, .string value.toString)
    | _ => .error .valueError
  | .object [(key, _), (value, _)] => .ok (.string key, .string value)
  | .array _ | .object _ => .error .valueError
  | .null | .bool _ | .int _ | .float _ => .error .typeError

/-- `dict` of a list. An entry whose key is no text is left out: nothing looks at it. -/
def dictOfPairs (items : List JsonValue) : Except EventError (Dict String JsonValue) :=
  items.foldlM (fun entries item => do
    match ← pairOf item with
    | (.string key, value) => return entries.set key value
    | (.array _, _) | (.object _, _) => throw .typeError
    | _ => return entries) Dict.empty

/-- `dict(value or {})`, where the key may be missing. -/
def toDict (value : Option JsonValue) : Except EventError (Dict String JsonValue) :=
  match value with
  | none => .ok Dict.empty
  | some value =>
    if !value.truthy then .ok Dict.empty
    else
      match value with
      | .object entries => .ok (entries.foldl (fun d entry => d.set entry.1 entry.2) Dict.empty)
      | .array items => dictOfPairs items
      | .string _ => .error .valueError
      | .null | .bool _ | .int _ | .float _ => .error .typeError

/-- `entry[field]`. -/
def field (entry : Dict String JsonValue) (name : String) : Except EventError JsonValue :=
  match entry.get? name with
  | some value => .ok value
  | none => .error (.keyError name)

def normalizeEventEntry (entry : Dict String JsonValue) : Except EventError EventEntry := do
  let eventId := toStr isPrintable (← field entry "event_id")
  let requestId := toStr isPrintable (← field entry "request_id")
  let timestamp ← toFloat (← field entry "timestamp")
  let mode := toStr isPrintable (← field entry "mode")
  let eventType := toStr isPrintable (← field entry "event_type")
  let stage := toStr isPrintable (← field entry "stage")
  let durationMs ← toFloat (← field entry "duration_ms")
  let metadata ← toDict (entry.get? "metadata")
  return { eventId, requestId, timestamp, mode, eventType, stage, durationMs, metadata }

/-! ### `build_request_timelines` -/

/-- `_event_sort_key(a) < _event_sort_key(b)`: tuples are compared where they first differ. -/
def keyLt (a b : EventEntry) : Bool :=
  if a.timestamp.eq b.timestamp then a.eventId < b.eventId else a.timestamp.lt b.timestamp

structure EventTimeline where
  requestId : String
  mode : String
  startedAtMs : PyFloat
  finishedAtMs : PyFloat
  totalDurationMs : PyFloat
  cacheStatus : String
  pathSummary : String
  hasError : Bool
  stageDurations : Dict String PyFloat
  eventCount : ℕ
  events : List EventEntry

def aggregateStageDurations (events : List EventEntry) : Dict String PyFloat :=
  events.foldl (fun durations event =>
    let spent := (durations.get? event.stage).getD (.finite false 0)
    durations.set event.stage (spent.add event.durationMs).round2) Dict.empty

/-- The last response of some events. -/
def responseEvent (events : List EventEntry) : Option EventEntry :=
  events.reverse.find? (fun event => event.eventType = "response_sent")

def inferCacheStatus (events : List EventEntry) : String :=
  let carried := (responseEvent events).bind (fun event => event.metadata.get? "cache_status")
  match carried.filter JsonValue.truthy with
  | some status => toStr isPrintable status
  | none =>
    let eventTypes := events.map EventEntry.eventType
    if "cache_hit" ∈ eventTypes then "hit"
    else if "cache_miss" ∈ eventTypes then "miss"
    else if "fallback_used" ∈ eventTypes then "fallback"
    else if "error" ∈ eventTypes then "error"
    else if events.any (fun event => event.mode = "redis_only_reference") then "reference_hit"
    else "db_only"

def isNull : JsonValue → Bool
  | .null => true
  | _ => false

def inferTotalDurationMs (events : List EventEntry) (finishedAtMs : PyFloat) :
    Except EventError PyFloat :=
  let carried := (responseEvent events).bind (fun event => event.metadata.get? "total_duration_ms")
  match carried.filter (fun value => !isNull value) with
  | some totalDuration => (toFloat totalDuration).map PyFloat.round2
  | none => .ok finishedAtMs.round2

def buildPathSummary (mode cacheStatus : String) (hasError : Bool) : String :=
  if mode = "db_only" then "App -> DB -> Response"
  else if mode = "redis_only_reference" then "App -> Redis -> Response"
  else if hasError ∧ cacheStatus ∈ ["fallback", "miss_writeback_failed"] then
    "App -> Redis -> DB -> Response"
  else if cacheStatus = "hit" then "App -> Redis -> Response"
  else if cacheStatus ∈ ["miss", "miss_writeback_failed"] then
    "App -> Redis -> DB -> Redis -> Response"
  else "App -> Redis -> DB -> Response"

/-- The sort keeps the order of equal keys. Where a time is no number, it promises no order. -/
def buildRequestTimeline (requestId : String) (events : List EventEntry) :
    Except EventError EventTimeline :=
  let orderedEvents := events.insertionSort (fun a b => keyLt b a = false)
  match orderedEvents.head?, orderedEvents.getLast? with
  | some firstEvent, some lastEvent => do
    let cacheStatus := inferCacheStatus isPrintable orderedEvents
    let hasError := orderedEvents.any (fun event => event.eventType = "error")
    let totalDurationMs ← inferTotalDurationMs orderedEvents lastEvent.timestamp
    return {
      requestId
      mode := firstEvent.mode
      startedAtMs := firstEvent.timestamp
      finishedAtMs := lastEvent.timestamp
      totalDurationMs
      cacheStatus
      pathSummary := buildPathSummary firstEvent.mode cacheStatus hasError
      hasError
      stageDurations := aggregateStageDurations orderedEvents
      eventCount := orderedEvents.length
      events := orderedEvents }
  | _, _ => .error .indexError

/-- The dictionary of the groups has its keys in the order of the separate list. -/
def buildRequestTimelines (events : List (Dict String JsonValue)) :
    Except EventError (List EventTimeline) := do
  let normalized ← events.mapM (normalizeEventEntry isPrintable)
  (groupBy EventEntry.requestId normalized).entries.mapM (fun entry =>
    buildRequestTimeline isPrintable entry.1 entry.2)

/-! ### What the timelines hold -/

variable {isPrintable}

private theorem events_of_built {requestId : String} {events : List EventEntry}
    {timeline : EventTimeline}
    (built : buildRequestTimeline isPrintable requestId events = .ok timeline) :
    timeline.requestId = requestId ∧ timeline.events.Perm events ∧
      timeline.eventCount = events.length := by
  have perm := List.perm_insertionSort (fun a b => keyLt b a = false) events
  unfold buildRequestTimeline at built
  generalize events.insertionSort (fun a b => keyLt b a = false) = ordered at built perm
  dsimp only at built
  split at built
  · obtain ⟨totalDurationMs, -, built⟩ := exists_ok_of_bind built
    cases built
    exact ⟨rfl, perm, perm.length_eq⟩
  · cases built

private theorem timelines_of_groups {entries : List EventEntry} {timelines : List EventTimeline}
    (built : (groupBy EventEntry.requestId entries).entries.mapM (fun group =>
      buildRequestTimeline isPrintable group.1 group.2) = .ok timelines) :
    timelines.map EventTimeline.requestId = (entries.map EventEntry.requestId).eraseDups ∧
      ∀ timeline ∈ timelines,
        timeline.events.Perm (entries.filter (fun entry => entry.requestId = timeline.requestId)) ∧
        timeline.eventCount =
          (entries.filter (fun entry => entry.requestId = timeline.requestId)).length := by
  have each := forall₂_of_mapM built
  rw [entries_groupBy, List.forall₂_map_left_iff] at each
  generalize (entries.map EventEntry.requestId).eraseDups = ids at each ⊢
  clear built
  induction each with
  | nil => exact ⟨rfl, fun _ member => by cases member⟩
  | cons built _ ih =>
    obtain ⟨same, perm, count⟩ := events_of_built built
    obtain ⟨others, rest⟩ := ih
    refine ⟨by rw [List.map_cons, same, others], ?_⟩
    intro timeline member
    rcases List.mem_cons.mp member with rfl | member
    · rw [same]
      exact ⟨perm, count⟩
    · exact rest timeline member

/-- The timelines hold every entry once, each in the timeline of its request, and stand in the order
in which their requests come first. -/
structure Partitions (entries : List EventEntry) (timelines : List EventTimeline) : Prop where
  inhabited : ∀ timeline ∈ timelines, timeline.events ≠ []
  all : (timelines.flatMap EventTimeline.events).Perm entries
  own : ∀ timeline ∈ timelines,
    timeline.events.Perm (entries.filter (fun entry => entry.requestId = timeline.requestId))
  ordered : timelines.map EventTimeline.requestId = (entries.map EventEntry.requestId).eraseDups
  distinct : (timelines.map EventTimeline.requestId).Nodup

theorem timelines_partition_events {events : List (Dict String JsonValue)}
    {timelines : List EventTimeline} (returned : buildRequestTimelines isPrintable events = .ok timelines) :
    ∃ entries,
      List.Forall₂ (fun event entry => normalizeEventEntry isPrintable event = .ok entry) events entries ∧
      Partitions entries timelines ∧
      (timelines.map EventTimeline.eventCount).sum = events.length := by
  obtain ⟨entries, normalized, built⟩ := exists_ok_of_bind returned
  have each := forall₂_of_mapM normalized
  obtain ⟨ordered, groups⟩ := timelines_of_groups built
  have distinct : (timelines.map EventTimeline.requestId).Nodup := by
    rw [ordered, ← keys_groupBy]
    exact (groupBy EventEntry.requestId entries).nodup
  have covered : (timelines.flatMap (fun timeline =>
      entries.filter (fun entry => entry.requestId = timeline.requestId))).Perm entries := by
    rw [← List.flatMap_map EventTimeline.requestId
      (fun id => entries.filter (fun entry => entry.requestId = id))]
    apply flatMap_groups_perm EventEntry.requestId distinct
    intro entry member
    rw [ordered, List.mem_eraseDups]
    exact List.mem_map_of_mem member
  have all : (timelines.flatMap EventTimeline.events).Perm entries :=
    (List.Perm.flatMap_left timelines (fun timeline member => (groups timeline member).1)).trans covered
  refine ⟨entries, each, ⟨?_, all, fun timeline member => (groups timeline member).1, ordered, distinct⟩,
    ?_⟩
  · intro timeline member empty
    have named : timeline.requestId ∈ entries.map EventEntry.requestId := by
      rw [← List.mem_eraseDups, ← ordered]
      exact List.mem_map_of_mem member
    obtain ⟨entry, inside, same⟩ := List.mem_map.mp named
    have kept : entry ∈ timeline.events :=
      (groups timeline member).1.mem_iff.mpr (List.mem_filter.mpr ⟨inside, decide_eq_true same⟩)
    rw [empty] at kept
    cases kept
  · rw [each.length_eq, ← covered.length_eq, List.length_flatMap]
    congr 1
    exact List.map_congr_left (fun timeline member => (groups timeline member).2)

private def storedEvent (eventId : String) (requestId : JsonValue) (eventType : String) :
    Dict String JsonValue :=
  (((((((Dict.empty.set "event_id" (.string eventId)).set "request_id" requestId).set
    "timestamp" (.string "1.5")).set "mode" (.string "db_only")).set
    "event_type" (.string eventType)).set "stage" (.string "request")).set "duration_ms" (.int 0)).set
    "metadata" .null

-- The requests take turns, and one of them is stored as a number.
private def storedEvents : List (Dict String JsonValue) :=
  [storedEvent "b" (.int 1) "request_started", storedEvent "c" (.string "2") "request_started",
    storedEvent "a" (.string "1") "response_sent"]

theorem interleaved_events_partition :
    ∃ timelines, buildRequestTimelines Char.isAlpha storedEvents = .ok timelines ∧
      ∃ entries, List.Forall₂ (fun event entry => normalizeEventEntry Char.isAlpha event = .ok entry)
          storedEvents entries ∧
        Partitions entries timelines ∧
        (timelines.map EventTimeline.eventCount).sum = storedEvents.length := by
  have returns : (buildRequestTimelines Char.isAlpha storedEvents).isOk = true := by decide +kernel
  cases outcome : buildRequestTimelines Char.isAlpha storedEvents with
  | error e =>
    rw [outcome] at returns
    cases returns
  | ok timelines => exact ⟨timelines, rfl, timelines_partition_events outcome⟩

end MiniRedis.App.EventGroups
