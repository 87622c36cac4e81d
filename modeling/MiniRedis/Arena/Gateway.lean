/- GID: MiniRedis/Arena/Gateway
   generality: I
   digest: The gateway, its scenario runner, its posts in flight and the two lanes, step by step. -/

import Mathlib.Logic.Function.Basic
import MiniRedis.Arena.LaneRoutes
import MiniRedis.Arena.Workloads
import MiniRedis.Base.Pool
import MiniRedis.Base.Trace

set_option autoImplicit false
set_option relaxedAutoImplicit false

namespace MiniRedis.Arena

open MiniRedis.Base MiniRedis.Python

/-! ### Control profiles -/

inductive MemoryProfile where
  | small
  | medium
  | large
  | xlarge
  deriving DecidableEq

namespace MemoryProfile

def key : MemoryProfile → String
  | small => "small"
  | medium => "medium"
  | large => "large"
  | xlarge => "xlarge"

def maxMemoryBytes : MemoryProfile → ℤ
  | small => 256
  | medium => 512
  | large => 1024
  | xlarge => 2048

/-- `MEMORY_PROFILES[profile_key]`; `none` is an unsupported key. -/
def ofKey? (profileKey : String) : Option MemoryProfile :=
  [small, medium, large, xlarge].find? (fun profile => profile.key = profileKey)

end MemoryProfile

inductive TtlProfile where
  | shortest
  | short
  | medium
  | steady
  | long
  | xlong
  deriving DecidableEq

namespace TtlProfile

def key : TtlProfile → String
  | shortest => "shortest"
  | short => "short"
  | medium => "medium"
  | steady => "steady"
  | long => "long"
  | xlong => "xlong"

def ttlSeconds : TtlProfile → PyFloat
  | shortest => .ofRat (mkRat 1 2)
  | short => .ofRat 1
  | medium => .ofRat 2
  | steady => .ofRat 3
  | long => .ofRat 5
  | xlong => .ofRat 10

def ofKey? (profileKey : String) : Option TtlProfile :=
  [shortest, short, medium, steady, long, xlong].find? (fun profile => profile.key = profileKey)

end TtlProfile

/-! ### `ArenaGatewayService` -/

structure ManualCommandInput where
  command : CommandName
  key : String
  field : Option String := none
  value : Option String := none
  ttlEnabled : Bool := false
  ttlSeconds : Option PyFloat := none

structure ArenaGatewayService where
  selectedMemoryProfile : MemoryProfile := .medium
  selectedTtlProfile : Option TtlProfile := some .medium
  memoryLocked : Bool := false

namespace ArenaGatewayService

def selectedTtlSeconds (g : ArenaGatewayService) : Option PyFloat :=
  g.selectedTtlProfile.map TtlProfile.ttlSeconds

def buildRequest (requestId : String) (input : ManualCommandInput) (g : ArenaGatewayService) :
    ArenaRequest :=
  let fromProfile := input.ttlEnabled && input.ttlSeconds.isNone
  let ttlSeconds := if fromProfile then g.selectedTtlSeconds else input.ttlSeconds
  { requestId := "req-" ++ requestId
    command := input.command
    key := input.key
    field := input.field
    value := input.value
    ttlEnabled := if fromProfile then g.selectedTtlSeconds.isSome else input.ttlEnabled
    ttlSeconds := ttlSeconds }

/-- The message of `_apply_selected_memory_profile`. -/
def applySelectedMemoryProfile (g : ArenaGatewayService) : Post :=
  .configureMemory g.selectedMemoryProfile.key g.selectedMemoryProfile.maxMemoryBytes

def setTtlProfile (profileKey : Option String) (g : ArenaGatewayService) : ArenaGatewayService :=
  match profileKey with
  | none => { g with selectedTtlProfile := none }
  | some profileKey =>
    match TtlProfile.ofKey? profileKey with
    | none => g
    | some profile => { g with selectedTtlProfile := some profile }

@[simp] theorem setTtlProfile_memoryLocked (profileKey : Option String) (g : ArenaGatewayService) :
    (g.setTtlProfile profileKey).memoryLocked = g.memoryLocked := by
  cases profileKey with
  | none => rfl
  | some profileKey =>
    simp only [setTtlProfile]
    cases TtlProfile.ofKey? profileKey <;> rfl

end ArenaGatewayService

/-- What a coroutine of the gateway or of its runner does until it awaits the lanes. -/
inductive Segment where
  /-- `execute_manual_command` or `execute_scenario_command`. -/
  | execute (input : ManualCommandInput)
  /-- `seed_state`, as the runner calls it. -/
  | seed (documents : Dict String String)
  /-- The first half of `reset_state`; the runner's reset empties its set of tasks before it. -/
  | clearLanes (forgetTasks : Bool)
  /-- The second half of `reset_state`. -/
  | restoreMemory

/-- What the segment makes of the gateway, and its post. -/
def Segment.run (requestId : String) (g : ArenaGatewayService) :
    Segment → ArenaGatewayService × Post
  | .execute input =>
    ({ g with memoryLocked := true }, .execute (g.buildRequest requestId input))
  | .seed documents => (g, .seed { documents := documents })
  | .clearLanes _ => (g, .fullReset)
  | .restoreMemory => ({ g with memoryLocked := false }, g.applySelectedMemoryProfile)

/-- Whether the runner's set of tasks is emptied. -/
def Segment.forgets : Segment → Bool
  | .clearLanes forgetTasks => forgetTasks
  | .execute _ | .seed _ | .restoreMemory => false

/-- The segments of `reset_state`. -/
def resetSegments (forgetTasks : Bool) : List Segment :=
  [.clearLanes forgetTasks, .restoreMemory]

/-- The segments of `_run_plan`, which awaits the seed before it waits for its first action. -/
def ScenarioRunInput.segments (input : ScenarioRunInput) : List Segment :=
  match input.plan with
  | .error _ => []
  | .ok plan =>
    (if plan.seedDocuments.entries = [] then [] else [.seed plan.seedDocuments]) ++
      plan.actions.map (fun action => .execute
        { command := action.command
          key := action.key
          value := action.value
          ttlEnabled := input.ttlEnabled
          ttlSeconds := input.ttlSeconds })

/-! ### The running system -/

/-- A coroutine: whether the runner's set of tasks holds it, how many answers it awaits, and
the segments before it. -/
structure Task where
  tracked : Bool
  awaited : ℕ
  rest : List Segment

/-- A post on its way to a lane. It can be recalled until a thread has taken it. The two copies
of one request have one serial number. -/
structure Message where
  serial : ℕ
  task : ℕ
  lane : LaneName
  post : Post
  started : Bool

/-- A post that a lane has handled. -/
structure Handled where
  serial : ℕ
  post : Post
  reply : LaneReply

/-- The lanes a post is sent to: lane B has no memory to configure. -/
def Post.lanes : Post → List LaneName
  | .configureMemory _ _ => [.redisDb]
  | .execute _ | .fullReset | .seed _ => [.redisDb, .dbOnly]

/-- Serial numbers and task numbers are given in the order of creation; `requestIds` are the
random parts of request ids, by serial number. What was issued, handled and returned is kept in
order. -/
structure ArenaSystem (σ : Type) where
  gateway : ArenaGatewayService
  laneA : RedisDBLaneAdapter σ
  laneB : DBOnlyLaneAdapter
  requestIds : ℕ → String
  tasks : ℕ → Option Task
  nextTask : ℕ
  nextSerial : ℕ
  inFlight : List Message
  replies : List (ℕ × Bool)
  returned : List ℕ
  issued : List (ℕ × Post)
  handledA : List Handled
  handledB : List Handled

namespace ArenaSystem

variable {σ : Type}

/-- A gateway without calls before two lanes. -/
def start (gateway : ArenaGatewayService) (laneA : RedisDBLaneAdapter σ)
    (laneB : DBOnlyLaneAdapter) (requestIds : ℕ → String) : ArenaSystem σ where
  gateway := gateway
  laneA := laneA
  laneB := laneB
  requestIds := requestIds
  tasks := fun _ => none
  nextTask := 0
  nextSerial := 0
  inFlight := []
  replies := []
  returned := []
  issued := []
  handledA := []
  handledB := []

/-- The same before two lanes in memory that hold nothing yet. -/
def idleArena : ArenaSystem InMemoryMiniRedisClient :=
  start {} (.init (fun _ => 0) none) .init (fun _ => "00000000")

def handled (lane : LaneName) (s : ArenaSystem σ) : List Handled :=
  match lane with
  | .redisDb => s.handledA
  | .dbOnly => s.handledB

/-! #### Tasks -/

def setTask (id : ℕ) (task : Option Task) (s : ArenaSystem σ) : ArenaSystem σ :=
  { s with tasks := Function.update s.tasks id task }

def beginTask (tracked : Bool) (rest : List Segment) (s : ArenaSystem σ) : ArenaSystem σ :=
  { s with
    tasks := Function.update s.tasks s.nextTask (some ⟨tracked, 0, rest⟩)
    nextTask := s.nextTask + 1 }

/-- The coroutine returns. -/
def finish (id : ℕ) (s : ArenaSystem σ) : ArenaSystem σ :=
  { s with
    tasks := Function.update s.tasks id none
    returned := s.returned ++ [id] }

/-- The coroutine hands the copies of a post to the thread pool and awaits their answers. -/
def send (id : ℕ) (task : Task) (post : Post) (s : ArenaSystem σ) : ArenaSystem σ :=
  { s with
    tasks := Function.update s.tasks id (some { task with awaited := post.lanes.length })
    nextSerial := s.nextSerial + 1
    inFlight := s.inFlight ++ post.lanes.map (fun lane => ⟨s.nextSerial, id, lane, post, false⟩)
    issued := s.issued ++ [(s.nextSerial, post)] }

def setGateway (gateway : ArenaGatewayService) (s : ArenaSystem σ) : ArenaSystem σ :=
  { s with gateway := gateway }

/-- `self._tasks.clear()`, where it is called. -/
def forgetTasks (forget : Bool) (s : ArenaSystem σ) : ArenaSystem σ :=
  { s with tasks := fun id =>
      (s.tasks id).map (fun task => { task with tracked := task.tracked && !forget }) }

def isTracked (s : ArenaSystem σ) (id : ℕ) : Bool := (s.tasks id).any Task.tracked

/-- The runner cancels the tasks that it holds: posts that no thread has taken are recalled,
the others stay on their way. -/
def cancelTracked (s : ArenaSystem σ) : ArenaSystem σ :=
  { s with
    tasks := fun id => (s.tasks id).filter (fun task => !task.tracked)
    inFlight := s.inFlight.filter (fun message => message.started || !s.isTracked message.task) }

def runSegment (id : ℕ) (task : Task) (segment : Segment) (rest : List Segment)
    (s : ArenaSystem σ) : ArenaSystem σ :=
  let ran := segment.run (s.requestIds s.nextSerial) s.gateway
  send id { task with rest := rest } ran.2 (setGateway ran.1 (forgetTasks segment.forgets s))

/-- A coroutine that awaits nothing runs to its next suspension. -/
def resume (id : ℕ) (s : ArenaSystem σ) : ArenaSystem σ :=
  match s.tasks id with
  | none => s
  | some task =>
    if task.awaited = 0 then
      match task.rest with
      | [] => finish id s
      | segment :: rest => runSegment id task segment rest s
    else s

/-- `set_memory_profile`, which raises for an unsupported key and while the profile is locked. -/
def setMemoryProfile (profileKey : String) (s : ArenaSystem σ) : ArenaSystem σ :=
  match MemoryProfile.ofKey? profileKey with
  | none => s
  | some profile =>
    if s.gateway.memoryLocked then s
    else
      let gateway := { s.gateway with selectedMemoryProfile := profile }
      send s.nextTask ⟨false, 0, []⟩ gateway.applySelectedMemoryProfile
        { s with
          gateway := gateway
          nextTask := s.nextTask + 1 }

/-! #### Messages -/

variable [MiniRedisClient σ] (defaultTtl : Except String PyFloat)

/-- The lane of the message handles it. -/
def handle (message : Message) (s : ArenaSystem σ) : ArenaSystem σ :=
  match message.lane with
  | .redisDb =>
    let (reply, lane) := s.laneA.handle defaultTtl message.post
    { s with
      laneA := lane
      handledA := s.handledA ++ [⟨message.serial, message.post, reply⟩]
      replies := s.replies ++ [(message.task, reply.arrived)] }
  | .dbOnly =>
    let (reply, lane) := s.laneB.handle message.post
    { s with
      laneB := lane
      handledB := s.handledB ++ [⟨message.serial, message.post, reply⟩]
      replies := s.replies ++ [(message.task, reply.arrived)] }

/-- A thread takes the post. -/
def startMessage (index : ℕ) (s : ArenaSystem σ) : ArenaSystem σ :=
  match pick s.inFlight index with
  | none => s
  | some (message, others) => { s with inFlight := { message with started := true } :: others }

def deliver (index : ℕ) (s : ArenaSystem σ) : ArenaSystem σ :=
  match pick s.inFlight index with
  | none => s
  | some (message, others) =>
    if message.started then handle defaultTtl message { s with inFlight := others } else s

/-- The connection breaks before the lane has the post, and the call that awaits it raises. -/
def lose (index : ℕ) (s : ArenaSystem σ) : ArenaSystem σ :=
  match pick s.inFlight index with
  | none => s
  | some (message, others) =>
    if message.started then setTask message.task none { s with inFlight := others } else s

/-- An answer reaches the call that awaits it, if it still does; an HTTP error is raised. -/
def receive (index : ℕ) (s : ArenaSystem σ) : ArenaSystem σ :=
  match pick s.replies index with
  | none => s
  | some ((id, arrived), others) =>
    match s.tasks id with
    | none => { s with replies := others }
    | some task =>
      setTask id (if arrived then some { task with awaited := task.awaited - 1 } else none)
        { s with replies := others }

/-- What can happen next. `fail` is a timeout: the call raises, its posts stay on their way. -/
inductive Action where
  | executeCommand (input : ManualCommandInput)
  | runScenario (input : ScenarioRunInput)
  | resetScenarios
  | resetState
  | setMemoryProfile (profileKey : String)
  | setTtlProfile (profileKey : Option String)
  | resume (task : ℕ)
  | start (index : ℕ)
  | deliver (index : ℕ)
  | receive (index : ℕ)
  | lose (index : ℕ)
  | fail (task : ℕ)

def step : Action → ArenaSystem σ → ArenaSystem σ
  | .executeCommand input, s => resume s.nextTask (beginTask false [.execute input] s)
  | .runScenario input, s => beginTask true input.segments s
  | .resetScenarios, s => beginTask false (resetSegments true) (cancelTracked s)
  | .resetState, s => resume s.nextTask (beginTask false (resetSegments false) s)
  | .setMemoryProfile profileKey, s => setMemoryProfile profileKey s
  | .setTtlProfile profileKey, s => { s with gateway := s.gateway.setTtlProfile profileKey }
  | .resume id, s => resume id s
  | .start index, s => startMessage index s
  | .deliver index, s => deliver defaultTtl index s
  | .receive index, s => receive index s
  | .lose index, s => lose index s
  | .fail id, s => setTask id none s

/-- The states that the gateway and its lanes can reach. -/
def Reachable (s : ArenaSystem σ) : Prop :=
  ∃ gateway laneA laneB requestIds actions,
    runAll (step defaultTtl) actions (start gateway laneA laneB requestIds) = s

end ArenaSystem

end MiniRedis.Arena
