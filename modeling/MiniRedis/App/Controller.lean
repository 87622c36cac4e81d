/- GID: MiniRedis/App/Controller
   generality: I
   digest: The benchmark controller: run store, run threads and stop requests, one atomic step at a time. -/

import MiniRedis.App.RunConfig
import MiniRedis.Base.Dict
import MiniRedis.Base.Trace

set_option autoImplicit false
set_option relaxedAutoImplicit false

namespace MiniRedis.App

open MiniRedis.Base

/-! ### Runs -/

inductive RunStatus where
  | queued
  | bootstrapping
  | warmingUp
  | runningBaseline
  | runningCache
  | runningReference
  | aggregating
  | cancelling
  | completed
  | failed
  | cancelled
  deriving DecidableEq

/-- The statuses with which `stop_run` leaves a run alone. -/
def RunStatus.isFinal : RunStatus → Bool
  | .completed | .failed | .cancelled => true
  | _ => false

/-- The set in `RunStore.has_active_run`. -/
def activeStatuses : List RunStatus :=
  [.queued, .bootstrapping, .warmingUp, .runningBaseline, .runningCache, .runningReference,
    .aggregating, .cancelling]

structure RunRecord where
  runId : String
  status : RunStatus
  config : RunConfig
  errorMessage : Option String := none
  deriving DecidableEq

/-- The files of a store: each record under its own id. -/
structure RunStore where
  runs : Dict String RunRecord
  keyed : ∀ id record, runs.get? id = some record → record.runId = id

namespace RunStore

def empty : RunStore := ⟨Dict.empty, by simp⟩

def writeRun (record : RunRecord) (store : RunStore) : RunStore where
  runs := store.runs.set record.runId record
  keyed := by
    intro id found stored
    rw [Dict.get?_set] at stored
    split at stored
    · rename_i same
      cases stored
      exact same.symm
    · exact store.keyed id found stored

/-- `none` is the `FileNotFoundError` of a missing record. -/
def readRun (runId : String) (store : RunStore) : Option RunRecord := store.runs.get? runId

theorem readRun_writeRun (record : RunRecord) (store : RunStore) (id : String) :
    (store.writeRun record).readRun id =
      if id = record.runId then some record else store.readRun id :=
  Dict.get?_set _ _ _ _

def hasActiveRun (store : RunStore) : Bool :=
  store.runs.entries.any (fun run => run.2.status ∈ activeStatuses)

end RunStore

def buildRunId (milliseconds : ℕ) : String := "run_" ++ toString milliseconds

/-! ### Run threads -/

/-- How far `BenchmarkRunner.run` has come; a record is its own copy in memory. -/
inductive Phase where
  | starting
  /-- The record is read and not yet written. -/
  | loaded (record : RunRecord)
  /-- The record was written with the status of a stage that is under way. -/
  | working (record : RunRecord)
  /-- The record was written as completed, its last log entries not yet. -/
  | reporting (record : RunRecord)
  /-- Nothing is left but the release. -/
  | finished
  deriving DecidableEq

structure RunThread where
  runId : String
  phase : Phase
  deriving DecidableEq

/-- How a stage ends: with its work done, at a check of the cancel event, or by an exception. -/
inductive Outcome where
  | done
  | cancelled
  | failed (message : String)
  deriving DecidableEq

/-- The status that the run writes after a stage. -/
def nextStatus (config : RunConfig) : RunStatus → RunStatus
  | .bootstrapping => .warmingUp
  | .warmingUp => .runningBaseline
  | .runningBaseline => .runningCache
  | .runningCache => if config.includeReference then .runningReference else .aggregating
  | .runningReference => .aggregating
  | .aggregating => .completed
  | status => status

/-- A stop request after its locked section: about to read the record, or holding a copy of it. -/
inductive StopCall where
  | requested (runId : String)
  | loaded (record : RunRecord)
  deriving DecidableEq

/-! ### The controller -/

/-- `BenchmarkApplication` with its store, the threads it started and the stop requests in
progress. A cancel event is whether it is set. -/
structure Controller where
  store : RunStore
  activeRunId : Option String
  cancelEvents : Dict String Bool
  threads : List RunThread
  stops : List StopCall

namespace Controller

/-- `BenchmarkApplication.__init__`. -/
def init (store : RunStore) : Controller := ⟨store, none, Dict.empty, [], []⟩

/-- The locked section of `create_run`; the id was drawn before. -/
def createRun (milliseconds : ℕ) (config : RunConfig) (s : Controller) :
    Option RunRecord × Controller :=
  let record : RunRecord := { runId := buildRunId milliseconds, status := .queued, config }
  if s.activeRunId ≠ none ∨ s.store.hasActiveRun then (none, s)
  else
    (some record, { s with
      activeRunId := some record.runId
      cancelEvents := s.cancelEvents.set record.runId false
      store := s.store.writeRun record
      threads := s.threads ++ [⟨record.runId, .starting⟩] })

/-- The locked section of `stop_run` with what it returns if it ends there. -/
def stopRun (runId : String) (s : Controller) : Option (Bool × String) × Controller :=
  match s.cancelEvents.get? runId with
  | none => (some (false, "run is not active"), s)
  | some isSet =>
    if s.activeRunId ≠ some runId then (some (false, "run is not active"), s)
    else if isSet then (some (false, "run is already cancelling"), s)
    else
      (none, { s with
        cancelEvents := s.cancelEvents.set runId true
        stops := s.stops ++ [.requested runId] })

/-- The `read_run` of a stop request. A missing record ends the request with an exception. -/
def stopRead (call : ℕ) (s : Controller) : Controller :=
  match s.stops[call]? with
  | some (.requested runId) =>
    match s.store.readRun runId with
    | some record => { s with stops := s.stops.set call (.loaded record) }
    | none => { s with stops := s.stops.eraseIdx call }
  | _ => s

/-- The end of a stop request: it writes its copy back unless that copy says the run is over. -/
def stopWrite (call : ℕ) (s : Controller) : Controller :=
  match s.stops[call]? with
  | some (.loaded record) =>
    if record.status.isFinal then { s with stops := s.stops.eraseIdx call }
    else { s with
      store := s.store.writeRun { record with status := .cancelling }
      stops := s.stops.eraseIdx call }
  | _ => s

/-- The record that a run writes next, and the phase it is in then; `none` where a cancel event
that is not set lets the stage go on. -/
def advance (isSet : Bool) (outcome : Outcome) (record : RunRecord) : Option (RunRecord × Phase) :=
  match outcome with
  | .done =>
    let record := { record with status := nextStatus record.config record.status }
    some (record, if record.status = .completed then .reporting record else .working record)
  | .cancelled =>
    if isSet then some ({ record with status := .cancelled, errorMessage := none }, .finished)
    else none
  | .failed message =>
    some ({ record with status := .failed, errorMessage := some message }, .finished)

/-- One atomic step of a run thread: a read, a write with the work before it, or the locked
release of `_run_and_release`. -/
def runStep (index : ℕ) (outcome : Outcome) (s : Controller) : Controller :=
  match s.threads[index]? with
  | none => s
  | some ⟨runId, .starting⟩ =>
    match s.store.readRun runId with
    | some record => { s with threads := s.threads.set index ⟨runId, .loaded record⟩ }
    | none => { s with threads := s.threads.set index ⟨runId, .finished⟩ }
  | some ⟨runId, .loaded record⟩ =>
    let record := { record with status := .bootstrapping }
    { s with
      store := s.store.writeRun record
      threads := s.threads.set index ⟨runId, .working record⟩ }
  | some ⟨runId, .working record⟩ =>
    match advance ((s.cancelEvents.get? runId).getD false) outcome record with
    | none => s
    | some (written, phase) => { s with
        store := s.store.writeRun written
        threads := s.threads.set index ⟨runId, phase⟩ }
  | some ⟨runId, .reporting record⟩ =>
    match outcome with
    | .failed message => { s with
        store := s.store.writeRun { record with status := .failed, errorMessage := some message }
        threads := s.threads.set index ⟨runId, .finished⟩ }
    | _ => { s with threads := s.threads.set index ⟨runId, .finished⟩ }
  | some ⟨runId, .finished⟩ => { s with
      activeRunId := if s.activeRunId = some runId then none else s.activeRunId
      cancelEvents := s.cancelEvents.erase runId
      threads := s.threads.eraseIdx index }

end Controller

/-- What can happen next, in any order. An action that is not possible changes nothing. -/
inductive Action where
  | createRun (milliseconds : ℕ) (config : RunConfig)
  | stopRun (runId : String)
  | stopRead (call : ℕ)
  | stopWrite (call : ℕ)
  | runStep (index : ℕ) (outcome : Outcome)
  deriving DecidableEq

def Action.step : Action → Controller → Controller
  | .createRun milliseconds config, s => (s.createRun milliseconds config).2
  | .stopRun runId, s => (s.stopRun runId).2
  | .stopRead call, s => s.stopRead call
  | .stopWrite call, s => s.stopWrite call
  | .runStep index outcome, s => s.runStep index outcome

/-! ### What a step can do -/

/-- The step of a thread that goes on: the store and the phase it leaves. -/
inductive ThreadMove (store : RunStore) (runId : String) : Phase → RunStore → Phase → Prop
  | read {record : RunRecord} (stored : store.readRun runId = some record) :
      ThreadMove store runId .starting store (.loaded record)
  | lost (missing : store.readRun runId = none) : ThreadMove store runId .starting store .finished
  | begin (record : RunRecord) :
      ThreadMove store runId (.loaded record)
        (store.writeRun { record with status := .bootstrapping })
        (.working { record with status := .bootstrapping })
  | stage {isSet : Bool} {outcome : Outcome} {record written : RunRecord} {phase : Phase}
      (advanced : Controller.advance isSet outcome record = some (written, phase)) :
      ThreadMove store runId (.working record) (store.writeRun written) phase
  | close (record : RunRecord) : ThreadMove store runId (.reporting record) store .finished
  | spoil (record : RunRecord) (message : String) :
      ThreadMove store runId (.reporting record)
        (store.writeRun { record with status := .failed, errorMessage := some message }) .finished

/-- A thread does nothing, goes on or releases its run. -/
theorem runStep_cases (index : ℕ) (outcome : Outcome) (s : Controller) :
    s.runStep index outcome = s ∨
    ∃ thread, s.threads[index]? = some thread ∧
      ((∃ store phase, ThreadMove s.store thread.runId thread.phase store phase ∧
        s.runStep index outcome =
          { s with store, threads := s.threads.set index ⟨thread.runId, phase⟩ }) ∨
      thread.phase = .finished ∧
        s.runStep index outcome = { s with
          activeRunId := if s.activeRunId = some thread.runId then none else s.activeRunId
          cancelEvents := s.cancelEvents.erase thread.runId
          threads := s.threads.eraseIdx index }) := by
  cases found : s.threads[index]? with
  | none =>
    left
    simp [Controller.runStep, found]
  | some thread =>
    obtain ⟨runId, phase⟩ := thread
    cases phase with
    | starting =>
      right
      refine ⟨_, rfl, Or.inl ?_⟩
      cases stored : s.store.readRun runId with
      | some record => exact ⟨_, _, .read stored, by simp [Controller.runStep, found, stored]⟩
      | none => exact ⟨_, _, .lost stored, by simp [Controller.runStep, found, stored]⟩
    | loaded record =>
      right
      exact ⟨_, rfl, Or.inl ⟨_, _, .begin record, by simp [Controller.runStep, found]⟩⟩
    | working record =>
      cases advanced : Controller.advance ((s.cancelEvents.get? runId).getD false) outcome record with
      | none =>
        left
        simp [Controller.runStep, found, advanced]
      | some next =>
        right
        exact ⟨_, rfl, Or.inl ⟨_, _, .stage advanced, by simp [Controller.runStep, found, advanced]⟩⟩
    | reporting record =>
      right
      refine ⟨_, rfl, Or.inl ?_⟩
      cases outcome with
      | failed message => exact ⟨_, _, .spoil record message, by simp [Controller.runStep, found]⟩
      | done => exact ⟨_, _, .close record, by simp [Controller.runStep, found]⟩
      | cancelled => exact ⟨_, _, .close record, by simp [Controller.runStep, found]⟩
    | finished =>
      right
      exact ⟨_, rfl, Or.inr ⟨rfl, by simp [Controller.runStep, found]⟩⟩

/-- What an action leaves of the store and the threads. -/
inductive StepEffect (s : Controller) : Action → RunStore → List RunThread → Prop
  | quiet {action : Action} : StepEffect s action s.store s.threads
  | created (milliseconds : ℕ) (config : RunConfig) :
      StepEffect s (.createRun milliseconds config)
        (s.store.writeRun { runId := buildRunId milliseconds, status := .queued, config })
        (s.threads ++ [⟨buildRunId milliseconds, .starting⟩])
  | stopped {call : ℕ} {record : RunRecord} (held : s.stops[call]? = some (.loaded record))
      (unfinished : record.status.isFinal = false) :
      StepEffect s (.stopWrite call) (s.store.writeRun { record with status := .cancelling }) s.threads
  | moved {action : Action} {index : ℕ} {thread : RunThread} {store : RunStore} {phase : Phase}
      (found : s.threads[index]? = some thread)
      (move : ThreadMove s.store thread.runId thread.phase store phase) :
      StepEffect s action store (s.threads.set index ⟨thread.runId, phase⟩)
  | released {action : Action} {index : ℕ} {thread : RunThread}
      (found : s.threads[index]? = some thread) (finished : thread.phase = .finished) :
      StepEffect s action s.store (s.threads.eraseIdx index)

theorem step_effect (action : Action) (s : Controller) :
    StepEffect s action (action.step s).store (action.step s).threads := by
  cases action with
  | createRun milliseconds config =>
    simp only [Action.step, Controller.createRun]
    split
    · exact .quiet
    · exact .created milliseconds config
  | stopRun runId =>
    simp only [Action.step, Controller.stopRun]
    split
    · exact .quiet
    · split
      · exact .quiet
      · split <;> exact .quiet
  | stopRead call =>
    simp only [Action.step, Controller.stopRead]
    split
    · split <;> exact .quiet
    · exact .quiet
  | stopWrite call =>
    simp only [Action.step, Controller.stopWrite]
    split
    · rename_i record held
      split
      · exact .quiet
      · rename_i unfinished
        exact .stopped held (Bool.not_eq_true _ ▸ unfinished)
    · exact .quiet
  | runStep index outcome =>
    simp only [Action.step]
    rcases runStep_cases index outcome s with same | ⟨thread, found, moves | ⟨finished, freed⟩⟩
    · rw [same]
      exact .quiet
    · obtain ⟨store, phase, move, moved⟩ := moves
      rw [moved]
      exact .moved found move
    · rw [freed]
      exact .released found finished

end MiniRedis.App
