/- GID: MiniRedis/App/Timeline
   generality: I
   digest: The timelines of a log's requests, with the mode, status and errors they show. -/

import MiniRedis.App.EventLog
import MiniRedis.Base.Grouping
import MiniRedis.Base.Outcome
import Mathlib.Data.List.Sort

set_option autoImplicit false
set_option relaxedAutoImplicit false

namespace MiniRedis.App

open MiniRedis.Base

/-! ### `build_request_timelines` -/

/-- The order of `_event_sort_key`: by time, and by event id at one time. -/
def sortsBefore (a b : FlowEvent) : Prop :=
  a.timestamp < b.timestamp ∨ a.timestamp = b.timestamp ∧ a.eventId ≤ b.eventId

instance : DecidableRel sortsBefore := fun a b =>
  inferInstanceAs (Decidable (a.timestamp < b.timestamp ∨ a.timestamp = b.timestamp ∧ a.eventId ≤ b.eventId))

structure RequestTimeline where
  requestId : String
  mode : Mode
  startedAtMs : ℚ
  finishedAtMs : ℚ
  totalDurationMs : ℚ
  cacheStatus : CacheStatus
  pathSummary : String
  hasError : Bool
  stageDurations : Dict Stage ℚ
  eventCount : ℕ
  events : List FlowEvent

/-- The last response of some events. -/
def responseEvent (events : List FlowEvent) : Option FlowEvent :=
  events.reverse.find? (fun event => event.eventType = .responseSent)

def hasType (events : List FlowEvent) (eventType : EventType) : Bool :=
  events.any (fun event => event.eventType = eventType)

def inferCacheStatus (events : List FlowEvent) : CacheStatus :=
  match (responseEvent events).bind (fun event => event.metadata.cacheStatus) with
  | some status => status
  | none =>
    if hasType events .cacheHit then .hit
    else if hasType events .cacheMiss then .miss
    else if hasType events .fallbackUsed then .fallback
    else if hasType events .error then .error
    else if events.any (fun event => event.mode = .redisOnlyReference) then .referenceHit
    else .dbOnly

def buildPathSummary (mode : Mode) (cacheStatus : CacheStatus) (hasError : Bool) : String :=
  if mode = .dbOnly then "App -> DB -> Response"
  else if mode = .redisOnlyReference then "App -> Redis -> Response"
  else if hasError ∧ (cacheStatus = .fallback ∨ cacheStatus = .missWritebackFailed) then
    "App -> Redis -> DB -> Response"
  else if cacheStatus = .hit then "App -> Redis -> Response"
  else if cacheStatus = .miss ∨ cacheStatus = .missWritebackFailed then
    "App -> Redis -> DB -> Redis -> Response"
  else "App -> Redis -> DB -> Response"

section

-- `round(value, 2)`.
variable (round2 : ℚ → ℚ)

def aggregateStageDurations (events : List FlowEvent) : Dict Stage ℚ :=
  events.foldl (fun durations event => durations.set event.stage
    (round2 ((durations.get? event.stage).getD 0 + event.durationMs))) Dict.empty

def inferTotalDurationMs (events : List FlowEvent) (finishedAtMs : ℚ) : ℚ :=
  match (responseEvent events).bind (fun event => event.metadata.totalDurationMs) with
  | some totalDuration => round2 totalDuration
  | none => round2 finishedAtMs

/-- There is no timeline of no events. -/
def buildRequestTimeline (requestId : String) (events : List FlowEvent) : Option RequestTimeline := do
  let orderedEvents := events.insertionSort sortsBefore
  let firstEvent ← orderedEvents.head?
  let lastEvent ← orderedEvents.getLast?
  let cacheStatus := inferCacheStatus orderedEvents
  let hasError := hasType orderedEvents .error
  return {
    requestId
    mode := firstEvent.mode
    startedAtMs := firstEvent.timestamp
    finishedAtMs := lastEvent.timestamp
    totalDurationMs := inferTotalDurationMs round2 orderedEvents lastEvent.timestamp
    cacheStatus
    pathSummary := buildPathSummary firstEvent.mode cacheStatus hasError
    hasError
    stageDurations := aggregateStageDurations round2 orderedEvents
    eventCount := orderedEvents.length
    events := orderedEvents }

def buildRequestTimelines (events : List FlowEvent) : Option (List RequestTimeline) :=
  (groupBy FlowEvent.requestId events).entries.mapM (fun entry =>
    buildRequestTimeline round2 entry.1 entry.2)

end

/-- A timeline has its events in sorted order, and shows what they say. -/
structure RequestTimeline.Holds (timeline : RequestTimeline) (requestId : String)
    (events : List FlowEvent) : Prop where
  requestId : timeline.requestId = requestId
  sorted : timeline.events = events.insertionSort sortsBefore
  mode : ∃ event ∈ events, timeline.mode = event.mode
  status : timeline.cacheStatus = inferCacheStatus timeline.events
  failed : timeline.hasError = hasType timeline.events .error

theorem buildRequestTimeline_holds (round2 : ℚ → ℚ) (requestId : String) {events : List FlowEvent}
    (inhabited : events ≠ []) :
    ∃ timeline, buildRequestTimeline round2 requestId events = some timeline ∧
      timeline.Holds requestId events := by
  have perm := List.perm_insertionSort sortsBefore events
  have some_event : events.insertionSort sortsBefore ≠ [] := fun empty => inhabited (by
    rw [empty] at perm
    exact perm.symm.eq_nil)
  unfold buildRequestTimeline
  simp only [List.head?_eq_some_head some_event, List.getLast?_eq_some_getLast some_event,
    Option.bind_eq_bind, Option.bind_some, Option.pure_def]
  refine ⟨_, rfl, rfl, rfl, ⟨_, ?_, rfl⟩, rfl, rfl⟩
  exact perm.mem_iff.mp (List.head_mem some_event)

/-! ### The timeline of a block -/

/-- The status that the response of a path carries. -/
def Path.status : Path → Option CacheStatus
  | dbOnly => none
  | hit => some .hit
  | miss => some .miss
  | writebackFailed => some .missWritebackFailed
  | fallback => some .fallback
  | reference => some .referenceHit

private theorem Path.status_of_response {path : Path} {step : String × EventType × Option CacheStatus}
    (member : step ∈ path.steps) (response : step.2.1 = .responseSent) : step.2.2 = path.status := by
  revert step
  cases path <;> decide

private theorem Path.responds (path : Path) : ∃ step ∈ path.steps, step.2.1 = .responseSent := by
  cases path <;> decide

private theorem Path.failed_iff (path : Path) :
    (∃ step ∈ path.steps, step.2.1 = .error) ↔ path.failed = true := by
  cases path <;> decide

namespace Block

theorem step_of_mem {block : Block} {event : FlowEvent} (member : event ∈ block.events) :
    ∃ step ∈ block.path.steps, event.tag =
      ⟨block.request.id ++ "-" ++ step.1, block.request.id, block.request.mode, step.2.1, step.2.2⟩ := by
  have tagged : event.tag ∈ block.path.tags block.request := by
    rw [← block.recorded]
    exact List.mem_map_of_mem member
  obtain ⟨step, member, same⟩ := List.mem_map.mp tagged
  exact ⟨step, member, same.symm⟩

theorem event_of_step {block : Block} {step : String × EventType × Option CacheStatus}
    (member : step ∈ block.path.steps) :
    ∃ event ∈ block.events, event.tag =
      ⟨block.request.id ++ "-" ++ step.1, block.request.id, block.request.mode, step.2.1, step.2.2⟩ := by
  have tagged : _ ∈ block.path.tags block.request := List.mem_map_of_mem member
  rw [← block.recorded] at tagged
  exact List.mem_map.mp tagged

theorem requestId_of_mem {block : Block} {event : FlowEvent} (member : event ∈ block.events) :
    event.requestId = block.request.id := by
  obtain ⟨step, -, tagged⟩ := step_of_mem member
  exact congrArg Tag.requestId tagged

theorem mode_of_mem {block : Block} {event : FlowEvent} (member : event ∈ block.events) :
    event.mode = block.request.mode := by
  obtain ⟨step, -, tagged⟩ := step_of_mem member
  exact congrArg Tag.mode tagged

theorem events_ne_nil (block : Block) : block.events ≠ [] := by
  obtain ⟨step, member, -⟩ := block.path.responds
  obtain ⟨event, member, -⟩ := event_of_step member
  exact List.ne_nil_of_mem member

private theorem inferCacheStatus_of_perm {block : Block} {events : List FlowEvent}
    (perm : events.Perm block.events) {status : CacheStatus} (carried : block.path.status = some status) :
    inferCacheStatus events = status := by
  have found : (responseEvent events).isSome := by
    obtain ⟨step, member, response⟩ := block.path.responds
    obtain ⟨event, member, tagged⟩ := event_of_step member
    rw [responseEvent, List.find?_isSome]
    refine ⟨event, List.mem_reverse.mpr (perm.mem_iff.mpr member), ?_⟩
    rw [decide_eq_true_iff, ← response]
    exact congrArg Tag.eventType tagged
  obtain ⟨event, found⟩ := Option.isSome_iff_exists.mp found
  have member := perm.mem_iff.mp (List.mem_reverse.mp (List.mem_of_find?_eq_some found))
  have response : event.eventType = .responseSent := by simpa using List.find?_some found
  obtain ⟨step, member, tagged⟩ := step_of_mem member
  have known : event.metadata.cacheStatus = some status := by
    rw [← carried, ← Path.status_of_response member ((congrArg Tag.eventType tagged).symm.trans response)]
    exact congrArg Tag.cacheStatus tagged
  rw [inferCacheStatus, found, Option.bind_some, known]

private theorem hasType_error_of_perm {block : Block} {events : List FlowEvent}
    (perm : events.Perm block.events) : hasType events .error = block.path.failed := by
  rw [Bool.eq_iff_iff, ← Path.failed_iff, hasType, List.any_eq_true]
  constructor
  · rintro ⟨event, member, error⟩
    obtain ⟨step, member, tagged⟩ := step_of_mem (perm.mem_iff.mp member)
    exact ⟨step, member, (congrArg Tag.eventType tagged).symm.trans (of_decide_eq_true error)⟩
  · rintro ⟨step, member, error⟩
    obtain ⟨event, member, tagged⟩ := event_of_step member
    refine ⟨event, perm.mem_iff.mpr member, ?_⟩
    rw [decide_eq_true_iff, ← error]
    exact congrArg Tag.eventType tagged

/-- What a timeline shows of the block it is built from. -/
structure Shows (block : Block) (timeline : RequestTimeline) : Prop where
  requestId : timeline.requestId = block.request.id
  mode : timeline.mode = block.request.mode
  status : ∀ status, block.path.status = some status → timeline.cacheStatus = status
  failed : timeline.hasError = block.path.failed

theorem buildRequestTimeline_shows (round2 : ℚ → ℚ) (block : Block) :
    ∃ timeline, buildRequestTimeline round2 block.request.id block.events = some timeline ∧
      block.Shows timeline := by
  obtain ⟨timeline, built, holds⟩ :=
    App.buildRequestTimeline_holds round2 block.request.id block.events_ne_nil
  have perm : timeline.events.Perm block.events := by
    rw [holds.sorted]
    exact List.perm_insertionSort sortsBefore block.events
  refine ⟨timeline, built, holds.requestId, ?_, ?_, ?_⟩
  · obtain ⟨event, member, mode⟩ := holds.mode
    rw [mode, mode_of_mem member]
  · intro status carried
    rw [holds.status, inferCacheStatus_of_perm perm carried]
  · rw [holds.failed, hasType_error_of_perm perm]

end Block

/-- Where no two blocks have one id, there is one timeline for each block. -/
theorem buildRequestTimelines_shows (round2 : ℚ → ℚ) {blocks : List Block}
    (distinct : (blocks.map (fun block => block.request.id)).Nodup) :
    ∃ timelines, buildRequestTimelines round2 (blocks.flatMap Block.events) = some timelines ∧
      List.Forall₂ Block.Shows blocks timelines := by
  have grouped : (groupBy FlowEvent.requestId (blocks.flatMap Block.events)).entries =
      blocks.map (fun block => (block.request.id, block.events)) := by
    have log : blocks.flatMap Block.events =
        (blocks.map (fun block => (block.request.id, block.events))).flatMap Prod.snd := by
      rw [List.flatMap_map]
    rw [log]
    apply entries_groupBy_flatMap
    · rw [List.map_map]
      exact distinct
    · intro entry member event inside
      obtain ⟨block, -, rfl⟩ := List.mem_map.mp member
      exact Block.requestId_of_mem inside
    · intro entry member
      obtain ⟨block, -, rfl⟩ := List.mem_map.mp member
      exact block.events_ne_nil
  rw [buildRequestTimelines, grouped, List.mapM_map]
  exact exists_mapM (fun block _ => block.buildRequestTimeline_shows round2)

end MiniRedis.App
