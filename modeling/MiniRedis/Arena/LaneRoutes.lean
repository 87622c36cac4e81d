/- GID: MiniRedis/Arena/LaneRoutes
   generality: I
   digest: The HTTP routes of the two lane servers: payload checks, execution, reset and seed. -/

import MiniRedis.Arena.Lanes

set_option autoImplicit false
set_option relaxedAutoImplicit false

namespace MiniRedis.Arena

open MiniRedis.Base MiniRedis.Python

/-! ### Payloads -/

def CommandName.requiresField : CommandName → Bool
  | .hset | .hget => true
  | .set | .get | .del | .hgetall => false

def CommandName.requiresValue : CommandName → Bool
  | .set | .hset => true
  | .get | .del | .hget | .hgetall => false

/-- `Field(default=None, gt=0)`. -/
def optionalPositive : Option PyFloat → Bool
  | none => true
  | some seconds => PyFloat.lt (.finite false 0) seconds

/-- `ExecutePayload`, which both lanes declare; `none` is a response with status 422. -/
def ArenaRequest.validatePayload (request : ArenaRequest) : Option ArenaRequest :=
  if request.requestId = "" ∨ request.key = "" ∨ optionalPositive request.ttlSeconds = false then
    none
  else if request.command.requiresField ∧ request.field.getD "" = "" then none
  else if request.command.requiresValue ∧ request.value = none then none
  else some { request with
    field := if request.command.requiresField then request.field else none
    value := if request.command.requiresValue then request.value else none }

/-- What the gateway posts to a lane: `/execute`, `/reset` (always in full), `/seed` and
`/control/memory`. -/
inductive Post where
  | execute (request : ArenaRequest)
  | fullReset
  | seed (seedInput : SeedStateInput)
  | configureMemory (profileKey : String) (maxMemoryBytes : ℤ)

/-- A response: the result of an execution, another response with status 200, or an HTTP error,
which the gateway's client raises. -/
inductive LaneReply where
  | executed (result : LaneResult)
  | done
  | httpError
  deriving DecidableEq

def LaneReply.arrived : LaneReply → Bool
  | .httpError => false
  | .executed _ | .done => true

/-- The lane did what it was asked: an execution that it had to report as failed did not. -/
def LaneReply.succeeded : LaneReply → Bool
  | .executed result => result.status = .ok
  | .done => true
  | .httpError => false

def LaneReply.ofOutcome {α : Type} : Except String α → LaneReply
  | .ok _ => .done
  | .error _ => .httpError

/-! ### Lane A -/

namespace RedisDBLaneAdapter

variable {σ : Type} [MiniRedisClient σ]

/-- The branch of `reset_lane` for a full reset. -/
def resetLane : Effect (RedisDBLaneAdapter σ) String Unit := do
  withRepository InMemoryMongoRepository.clear
  withClient MiniRedisClient.flushdb

def respond {α : Type} (handler : Effect (RedisDBLaneAdapter σ) String α)
    (lane : RedisDBLaneAdapter σ) : LaneReply × RedisDBLaneAdapter σ :=
  (LaneReply.ofOutcome (handler.exec lane).1, (handler.exec lane).2)

/-- One request of the gateway, handled without suspension. -/
def handle (defaultTtl : Except String PyFloat) (post : Post) (lane : RedisDBLaneAdapter σ) :
    LaneReply × RedisDBLaneAdapter σ :=
  match post with
  | .execute request =>
    match request.validatePayload with
    | none => (.httpError, lane)
    | some request => ((execute defaultTtl request lane).map .executed id)
  | .fullReset => respond resetLane lane
  | .seed seedInput =>
    if optionalPositive seedInput.ttlSeconds then respond (seed defaultTtl seedInput) lane
    else (.httpError, lane)
  | .configureMemory profileKey maxMemoryBytes =>
    if profileKey = "" ∨ maxMemoryBytes < 0 then (.httpError, lane)
    else respond (configureMemory profileKey maxMemoryBytes) lane

variable {defaultTtl : Except String PyFloat} {request valid : ArenaRequest}
  {lane : RedisDBLaneAdapter σ}

theorem handle_refused (refused : request.validatePayload = none) :
    handle defaultTtl (.execute request) lane = (.httpError, lane) := by
  simp only [handle, refused]

theorem handle_execute (accepted : request.validatePayload = some valid) :
    handle defaultTtl (.execute request) lane =
      (.executed (execute defaultTtl valid lane).1, (execute defaultTtl valid lane).2) := by
  simp only [handle, accepted]
  rfl

end RedisDBLaneAdapter

/-! ### Lane B -/

/-- The payloads of lane B declare no TTL for a seed, and it has no route for memory. -/
def DBOnlyLaneAdapter.handle (post : Post) (lane : DBOnlyLaneAdapter) :
    LaneReply × DBOnlyLaneAdapter :=
  match post with
  | .execute request =>
    match request.validatePayload with
    | none => (.httpError, lane)
    | some request => ((DBOnlyLaneAdapter.execute request lane).map .executed id)
  | .fullReset => (.done, lane.clear [] true)
  | .seed seedInput => (.done, lane.seed seedInput)
  | .configureMemory _ _ => (.httpError, lane)

namespace DBOnlyLaneAdapter

variable {request valid : ArenaRequest} {lane : DBOnlyLaneAdapter}

theorem handle_refused (refused : request.validatePayload = none) :
    handle (.execute request) lane = (.httpError, lane) := by
  simp only [handle, refused]

theorem handle_execute (accepted : request.validatePayload = some valid) :
    handle (.execute request) lane = (.executed (execute valid lane).1, (execute valid lane).2) := by
  simp only [handle, accepted]
  rfl

end DBOnlyLaneAdapter

end MiniRedis.Arena
