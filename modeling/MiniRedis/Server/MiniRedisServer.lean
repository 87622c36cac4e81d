/- GID: MiniRedis/Server/MiniRedisServer
   generality: I
   digest: One connection after the other, and a cache in the order of last use behind them. -/

import MiniRedis.Server.SessionHandler
import MiniRedis.Service.LruStore

set_option autoImplicit false
set_option relaxedAutoImplicit false

namespace MiniRedis.Server

open MiniRedis.Base MiniRedis.Python MiniRedis.Protocol MiniRedis.Commands MiniRedis.Service

/-! ### What a session is given -/

/-- The command service as its sessions and the sweeper call it, at a time. -/
structure Backend (σ : Type) where
  execute : ℚ → Command → σ → Except PyException RespValue × σ
  sweep : ℚ → σ → σ

/-- The tables with their sweeper. -/
def tables (sweepBatchSize : ℤ) : Backend CommandService where
  execute t command s := (execute command).exec { s with clock := fun _ => t }
  sweep t s := (sweepOnce sweepBatchSize { s with clock := fun _ => t }).2

structure Metrics where
  connectionsTotal : ℕ := 0
  activeConnections : ℕ := 0
  requestsTotal : ℕ := 0
  errorsTotal : ℕ := 0

namespace Metrics

def incrementConnections (m : Metrics) : Metrics :=
  { m with connectionsTotal := m.connectionsTotal + 1 }

def incrementActiveConnections (m : Metrics) : Metrics :=
  { m with activeConnections := m.activeConnections + 1 }

def decrementActiveConnections (m : Metrics) : Metrics :=
  if m.activeConnections > 0 then { m with activeConnections := m.activeConnections - 1 } else m

def incrementRequests (m : Metrics) : Metrics := { m with requestsTotal := m.requestsTotal + 1 }

def incrementErrors (m : Metrics) : Metrics := { m with errorsTotal := m.errorsTotal + 1 }

end Metrics

/-- What the server reads of its configuration. -/
structure RuntimeConfig where
  maxConnections : ℤ
  maxRequestSizeBytes : ℕ
  maxMemoryBytes : Option ℤ
  expirationSweepBatchSize : ℤ
  expirationSweepEnabled : Bool
  gracefulShutdownSeconds : ℚ

structure ServerState (σ : Type) where
  service : σ
  metrics : Metrics := {}
  shutdownRequested : Bool := false

namespace ServerState

variable {σ : Type}

/-- `stop`: a second call does nothing, and the first one waits for nobody. -/
def stop (s : ServerState σ) : ServerState σ := { s with shutdownRequested := true }

def countError (s : ServerState σ) : ServerState σ := { s with metrics := s.metrics.incrementErrors }

/-- What the sweeper, and another thread that calls `stop`, do while the server waits. -/
def meanwhile (backend : Backend σ) (config : RuntimeConfig) (sweeps : List ℚ) (stopped : Bool)
    (s : ServerState σ) : ServerState σ :=
  { s with
    service :=
      if config.expirationSweepEnabled then sweeps.foldl (fun r t => backend.sweep t r) s.service
      else s.service
    shutdownRequested := s.shutdownRequested || stopped }

end ServerState

/-! ### A connection -/

/-- `_apply_session_state`. -/
def appliedSessionState (command : Command) (context : SessionContext) :
    Except PyException SessionContext := do
  if command.name = "SELECT" then
    let selectedDb ← toInt (← argument command.arguments 0)
    return { context with selectedDb }
  else if command.name = "CLIENT" then
    let subcommand := upper (← argument command.arguments 0)
    if subcommand = "SETNAME" then
      return { context with clientName := some (← argument command.arguments 1) }
    else if subcommand = "SETINFO" then
      let key ← argument command.arguments 1
      let value ← argument command.arguments 2
      return { context with clientInfo := context.clientInfo.set key value }
  return context

/-- A command error is a result too. -/
def resultOf : Except PyException RespValue → Except PyException RespValue
  | .error (.commandError message) => .ok (.simpleError message)
  | outcome => outcome

/-- `_process_request` at a time. -/
def processOn {σ : Type} (backend : Backend σ) (t : ℚ) (request : Bytes) (context : SessionContext)
    (s : σ) : Except PyException Bytes × SessionContext × σ :=
  match handleWithErrorResponse request with
  | .error e => (.error e, context, s)
  | .ok (.response response version) =>
    let context := { context with protocolVersion := version.getD context.protocolVersion }
    (.ok (encode context.protocolVersion response), context, s)
  | .ok (.command command) =>
    let (outcome, s) := backend.execute t command s
    match resultOf outcome with
    | .error e => (.error e, context, s)
    | .ok value =>
      match appliedSessionState command context with
      | .error e => (.error e, context, s)
      | .ok context => (.ok (encode context.protocolVersion value), context, s)

/-- How `recv` ends. -/
inductive Received where
  | data (chunk : Bytes)
  | timedOut
  | failed
  | interrupted

/-- How `sendall` ends, and how much of the response it delivered where it failed. -/
inductive Sent where
  | all
  | timedOut (delivered : ℕ)
  | failed (delivered : ℕ)
  | interrupted (delivered : ℕ)

/-- One round of a session: what happened while it waited, and what its socket did. -/
structure Turn where
  sweeps : List ℚ := []
  stopped : Bool := false
  received : Received
  time : ℚ
  sent : Sent := .all

/-- A session that is over: what it left, what its client got, and whether an interrupt ended it. -/
structure Handled (σ : Type) where
  state : ServerState σ
  sent : Bytes
  interrupted : Bool

/-- `SessionHandler.handle`. -/
def handleConnection {σ : Type} (backend : Backend σ) (config : RuntimeConfig) :
    List Turn → SessionContext → ServerState σ → Handled σ
  | [], _, s => ⟨s, [], false⟩
  | turn :: turns, context, s =>
    let s := s.meanwhile backend config turn.sweeps turn.stopped
    match turn.received with
    | .timedOut => ⟨s, [], false⟩
    | .failed => ⟨s.countError, [], false⟩
    | .interrupted => ⟨s, [], true⟩
    | .data chunk =>
      if chunk = [] then ⟨s, [], false⟩
      else if isRequestSizeAllowed config.maxRequestSizeBytes chunk.length = false then
        ⟨s.countError, [], false⟩
      else
        let (outcome, context, service) := processOn backend turn.time chunk context s.service
        let s := { s with service, metrics := s.metrics.incrementRequests }
        match outcome, turn.sent with
        | .error _, _ => ⟨s.countError, [], false⟩
        | .ok response, .all =>
          let later := handleConnection backend config turns context s
          { later with sent := response ++ later.sent }
        | .ok response, .timedOut delivered => ⟨s, response.take delivered, false⟩
        | .ok response, .failed delivered => ⟨s.countError, response.take delivered, false⟩
        | .ok response, .interrupted delivered => ⟨s, response.take delivered, true⟩

/-! ### The server -/

/-- How a call of `accept` ends. -/
inductive Accepted where
  | timedOut
  | failed
  | interrupted
  | connection (turns : List Turn)

def Accepted.isConnection : Accepted → Bool
  | .connection _ => true
  | _ => false

structure Accept where
  sweeps : List ℚ := []
  stopped : Bool := false
  accepted : Accepted

/-- How the loop ended, if it did. -/
inductive Ending where
  | serving
  | stopped
  | raised
  deriving DecidableEq

/-- What the loop left, and what the clients of its connections got. -/
structure Served (σ : Type) where
  state : ServerState σ
  connections : List Bytes := []
  ending : Ending

/-- `ResourceGuard.is_connection_allowed`. -/
def isConnectionAllowed (maxConnections : ℤ) (activeConnections : ℕ) : Bool :=
  (activeConnections : ℤ) < maxConnections

/-- The session of an accepted connection, with the counters around it. -/
def serveConnection {σ : Type} (backend : Backend σ) (config : RuntimeConfig) (turns : List Turn)
    (s : ServerState σ) : Handled σ :=
  let handled := handleConnection backend config turns {}
    { s with metrics := s.metrics.incrementConnections.incrementActiveConnections }
  { handled with state := { handled.state with
      metrics := handled.state.metrics.decrementActiveConnections } }

/-- One round of the loop: what it leaves, what a client got, and the end it puts to the loop. -/
structure Round (σ : Type) where
  state : ServerState σ
  client : Option Bytes := none
  ending : Option Ending := none

/-- The body of the loop of `MiniRedisServer.run`. -/
def acceptOnce {σ : Type} (backend : Backend σ) (config : RuntimeConfig) (accept : Accept)
    (s : ServerState σ) : Round σ :=
  let s := s.meanwhile backend config accept.sweeps accept.stopped
  match accept.accepted with
  | .timedOut => { state := s }
  | .failed => { state := s, ending := some (if s.shutdownRequested then .stopped else .raised) }
  | .interrupted => { state := s.stop, ending := some .stopped }
  | .connection turns =>
    if isConnectionAllowed config.maxConnections s.metrics.activeConnections = false then
      { state := s.countError }
    else
      let handled := serveConnection backend config turns s
      if handled.interrupted then
        { state := handled.state.stop, client := some handled.sent, ending := some .stopped }
      else { state := handled.state, client := some handled.sent }

/-- The loop of `MiniRedisServer.run`, on what `accept` returns in turn. -/
def serve {σ : Type} (backend : Backend σ) (config : RuntimeConfig) :
    List Accept → ServerState σ → Served σ
  | [], s => { state := s, ending := if s.shutdownRequested then .stopped else .serving }
  | accept :: rest, s =>
    if s.shutdownRequested then { state := s, ending := .stopped }
    else
      let round := acceptOnce backend config accept s
      match round.ending with
      | some ending => { state := round.state, connections := round.client.toList, ending }
      | none =>
        let later := serve backend config rest round.state
        { later with connections := round.client.toList ++ later.connections }

/-- How often `_wait_for_active_connections` sleeps, by the readings of its clock. -/
def waitForActiveConnections (config : RuntimeConfig) (metrics : Metrics) : List ℚ → ℕ
  | [] => 0
  | start :: readings =>
    let deadline := start + config.gracefulShutdownSeconds
    (readings.takeWhile (fun now => metrics.activeConnections > 0 ∧ now < deadline)).length

/-! ### The same process as on one connection alone -/

private theorem appliedSessionState_exec (command : Command) (s : SessionState) :
    (applySessionState command).exec s =
      match appliedSessionState command s.context with
      | .error e => (.error e, s)
      | .ok context => (.ok ⟨⟩, { s with context }) := by
  rw [applySessionState, appliedSessionState]
  by_cases select : command.name = "SELECT"
  · rw [if_pos select, if_pos select]
    cases argument command.arguments 0 with
    | error e => rfl
    | ok text =>
      simp only [Effect.lift_ok, pure_bind, bind_ok]
      cases toInt text <;> rfl
  · rw [if_neg select, if_neg select]
    by_cases client : command.name = "CLIENT"
    · rw [if_pos client, if_pos client]
      cases argument command.arguments 0 with
      | error e => rfl
      | ok subcommand =>
        simp only [Effect.lift_ok, pure_bind, bind_ok]
        split_ifs
        · cases argument command.arguments 1 <;> rfl
        · cases argument command.arguments 1 with
          | error e => rfl
          | ok key =>
            simp only [Effect.lift_ok, pure_bind, bind_ok]
            cases argument command.arguments 2 <;> rfl
        · rfl
    · rw [if_neg client, if_neg client]
      rfl

theorem processOn_tables (sweepBatchSize : ℤ) (t : ℚ) (request : Bytes) (context : SessionContext)
    (s : CommandService) :
    let here := processOn (tables sweepBatchSize) t request context s
    let alone := (processRequest request).exec ⟨{ s with clock := fun _ => t }, context⟩
    here.1 = alone.1 ∧ here.2.1 = alone.2.context ∧
      ∀ clock, { here.2.2 with clock := clock } = { alone.2.service with clock := clock } := by
  rw [processOn, processRequest, encoded, answer]
  cases handleWithErrorResponse request with
  | error e => exact ⟨rfl, rfl, fun _ => rfl⟩
  | ok result =>
    cases result with
    | response response version => cases version <;> exact ⟨rfl, rfl, fun _ => rfl⟩
    | command command =>
      simp only [answerResult, Effect.lift_ok, pure_bind, executeCommand, Effect.exec_bind,
        Effect.exec_modifyGet, tables]
      generalize (execute command).exec { s with clock := fun _ => t } = result
      obtain ⟨outcome, service⟩ := result
      have applied := appliedSessionState_exec command ⟨service, context⟩
      rcases outcome with error | value
      · cases error with
        | commandError message =>
          simp only [resultOf, Effect.exec_pure, applied]
          cases appliedSessionState command context <;> exact ⟨rfl, rfl, fun _ => rfl⟩
        | indexError | valueError | overflowError | recursionError => exact ⟨rfl, rfl, fun _ => rfl⟩
      · simp only [resultOf, Effect.exec_pure, applied]
        cases appliedSessionState command context <;> exact ⟨rfl, rfl, fun _ => rfl⟩

/-! ### Counters and shutdown -/

section Counters

variable {σ : Type} (backend : Backend σ) (config : RuntimeConfig)

private theorem handleConnection_counts (turns : List Turn) (context : SessionContext)
    (s : ServerState σ) :
    let metrics := (handleConnection backend config turns context s).state.metrics
    metrics.connectionsTotal = s.metrics.connectionsTotal ∧
      metrics.activeConnections = s.metrics.activeConnections ∧
      metrics.errorsTotal ≤ s.metrics.errorsTotal + 1 := by
  induction turns generalizing context s with
  | nil => exact ⟨rfl, rfl, Nat.le_succ _⟩
  | cons turn turns ih =>
    unfold handleConnection
    dsimp only
    cases turn.received with
    | timedOut | interrupted => exact ⟨rfl, rfl, Nat.le_succ _⟩
    | failed => exact ⟨rfl, rfl, le_rfl⟩
    | data chunk =>
      dsimp only
      split_ifs
      · exact ⟨rfl, rfl, Nat.le_succ _⟩
      · exact ⟨rfl, rfl, le_rfl⟩
      · split
        · exact ⟨rfl, rfl, le_rfl⟩
        · exact ih _ _
        · exact ⟨rfl, rfl, Nat.le_succ _⟩
        · exact ⟨rfl, rfl, le_rfl⟩
        · exact ⟨rfl, rfl, Nat.le_succ _⟩

private theorem serveConnection_counts (turns : List Turn) {s : ServerState σ}
    (idle : s.metrics.activeConnections = 0) :
    let metrics := (serveConnection backend config turns s).state.metrics
    metrics.connectionsTotal = s.metrics.connectionsTotal + 1 ∧ metrics.activeConnections = 0 ∧
      metrics.errorsTotal ≤ s.metrics.errorsTotal + 1 := by
  obtain ⟨total, active, errors⟩ := handleConnection_counts backend config turns {}
    { s with metrics := s.metrics.incrementConnections.incrementActiveConnections }
  have one : (handleConnection backend config turns {} { s with
      metrics := s.metrics.incrementConnections.incrementActiveConnections
      }).state.metrics.activeConnections = 1 := by
    exact active.trans (congrArg (· + 1) idle)
  simp only [serveConnection, Metrics.decrementActiveConnections, one]
  exact ⟨total, rfl, errors⟩

/-- What a round does to an idle server. -/
private structure RoundCounts (accept : Accept) (s : ServerState σ) (round : Round σ) : Prop where
  idle : round.state.metrics.activeConnections = 0
  total : round.state.metrics.connectionsTotal =
    s.metrics.connectionsTotal + round.client.toList.length
  errors : round.state.metrics.errorsTotal ≤ s.metrics.errorsTotal + 1
  refused : config.maxConnections ≤ 0 → round.client = none
  admitted : 0 < config.maxConnections →
    round.client.toList.length = [accept].countP (·.accepted.isConnection)
  ends : round.ending ≠ some .serving
  stopped : ∀ ending, round.ending = some ending →
    (ending = .stopped ↔ round.state.shutdownRequested = true)

private theorem acceptOnce_counts (accept : Accept) {s : ServerState σ}
    (idle : s.metrics.activeConnections = 0) :
    RoundCounts config accept s (acceptOnce backend config accept s) := by
  have waited : (s.meanwhile backend config accept.sweeps accept.stopped).metrics = s.metrics := rfl
  unfold acceptOnce
  dsimp only
  generalize s.meanwhile backend config accept.sweeps accept.stopped = r at waited ⊢
  have idle' : r.metrics.activeConnections = 0 := by rw [waited, idle]
  cases accepted : accept.accepted with
  | timedOut =>
    exact ⟨idle', by rw [waited]; rfl, by rw [waited]; exact Nat.le_succ _, fun _ => rfl,
      fun _ => by simp [accepted, Accepted.isConnection], nofun, nofun⟩
  | failed =>
    refine ⟨idle', by rw [waited]; rfl, by rw [waited]; exact Nat.le_succ _, fun _ => rfl,
      fun _ => by simp [accepted, Accepted.isConnection], ?_, ?_⟩
    · dsimp only
      split_ifs <;> nofun
    · rintro ending same
      cases same
      dsimp only
      split_ifs with requested
      · exact ⟨fun _ => requested, fun _ => rfl⟩
      · exact ⟨nofun, fun now => (requested now).elim⟩
  | interrupted =>
    refine ⟨idle', by rw [← waited]; rfl, by rw [← waited]; exact Nat.le_succ _, fun _ => rfl,
      fun _ => by simp [accepted, Accepted.isConnection], nofun, ?_⟩
    rintro ending same
    cases same
    exact ⟨fun _ => rfl, fun _ => rfl⟩
  | connection turns =>
    obtain ⟨total, active, errors⟩ := serveConnection_counts backend config turns idle'
    rw [waited] at total errors
    have allowed : isConnectionAllowed config.maxConnections r.metrics.activeConnections =
        decide (0 < config.maxConnections) := by rw [idle']; rfl
    dsimp only
    rw [allowed]
    by_cases positive : 0 < config.maxConnections
    · rw [if_neg (by simpa using positive)]
      split_ifs
      · refine ⟨active, total, errors, fun none => absurd positive (not_lt.mpr none),
          fun _ => by simp [accepted, Accepted.isConnection], nofun, ?_⟩
        rintro ending same
        cases same
        exact ⟨fun _ => rfl, fun _ => rfl⟩
      · exact ⟨active, total, errors, fun none => absurd positive (not_lt.mpr none),
          fun _ => by simp [accepted, Accepted.isConnection], nofun, nofun⟩
    · rw [if_pos (by simpa using positive)]
      refine ⟨idle', by rw [← waited]; rfl, by rw [← waited]; exact le_rfl, fun _ => rfl,
        fun some => absurd some positive, nofun, nofun⟩

/-- What a run of the loop does to an idle server. -/
private structure RunCounts (accepts : List Accept) (s : ServerState σ) (out : Served σ) :
    Prop where
  idle : out.state.metrics.activeConnections = 0
  total : out.state.metrics.connectionsTotal = s.metrics.connectionsTotal + out.connections.length
  errors : out.state.metrics.errorsTotal ≤ s.metrics.errorsTotal + accepts.length
  refused : config.maxConnections ≤ 0 → out.connections = []
  admitted : 0 < config.maxConnections → out.ending = .serving →
    out.connections.length = accepts.countP (·.accepted.isConnection)
  stopped : out.ending = .stopped ↔ out.state.shutdownRequested = true

private theorem serve_counts (accepts : List Accept) {s : ServerState σ}
    (idle : s.metrics.activeConnections = 0) :
    RunCounts config accepts s (serve backend config accepts s) := by
  induction accepts generalizing s with
  | nil =>
    refine ⟨idle, rfl, le_rfl, fun _ => rfl, fun _ _ => rfl, ?_⟩
    rw [serve]
    split_ifs with requested
    · exact ⟨fun _ => requested, fun _ => rfl⟩
    · exact ⟨nofun, fun now => (requested now).elim⟩
  | cons accept rest ih =>
    rw [serve]
    by_cases requested : s.shutdownRequested = true
    · rw [if_pos requested]
      exact ⟨idle, rfl, Nat.le_add_right _ _, fun _ => rfl, nofun,
        fun _ => requested, fun _ => rfl⟩
    rw [if_neg requested]
    have round := acceptOnce_counts backend config accept idle
    generalize acceptOnce backend config accept s = r at round ⊢
    cases ends : r.ending with
    | some ending =>
      simp only [ends]
      refine ⟨round.idle, round.total, round.errors.trans ?_, ?_, ?_, round.stopped ending ends⟩
      · exact Nat.add_le_add_left (Nat.succ_le_succ (Nat.zero_le _)) _
      · intro none
        rw [round.refused none]
        rfl
      · rintro - rfl
        exact (round.ends ends).elim
    | none =>
      simp only [ends]
      have later := ih round.idle
      refine ⟨later.idle, ?_, ?_, ?_, ?_, later.stopped⟩
      · rw [later.total, round.total, List.length_append, Nat.add_assoc]
      · refine later.errors.trans ((Nat.add_le_add_right round.errors _).trans_eq ?_)
        rw [List.length_cons]
        omega
      · intro none
        rw [round.refused none, later.refused none]
        rfl
      · intro some serving
        rw [List.length_append, round.admitted some, later.admitted some serving,
          ← List.countP_append]
        rfl

private theorem serve_append {accepts : List Accept} {s : ServerState σ}
    (ended : (serve backend config accepts s).ending ≠ .serving) (rest : List Accept) :
    serve backend config (accepts ++ rest) s = serve backend config accepts s := by
  induction accepts generalizing s with
  | nil =>
    by_cases requested : s.shutdownRequested = true
    · cases rest with
      | nil => rfl
      | cons accept rest => rw [List.nil_append, serve, serve, if_pos requested, if_pos requested]
    · rw [serve, if_neg requested] at ended
      exact (ended rfl).elim
  | cons accept accepts ih =>
    rw [List.cons_append, serve, serve]
    by_cases requested : s.shutdownRequested = true
    · rw [if_pos requested, if_pos requested]
    · rw [serve, if_neg requested] at ended
      rw [if_neg requested, if_neg requested]
      generalize acceptOnce backend config accept s = r at ended ⊢
      dsimp only at ended ⊢
      cases ends : r.ending with
      | some ending => rfl
      | none =>
        simp only [ends] at ended ⊢
        rw [ih ended]

/-- No connection is open while the server waits for the next one, so the limit refuses every
connection or none; a shutdown waits for nobody, and like a failure it is final; and every
connection is counted. -/
theorem server_accounts_for_clients (accepts : List Accept) {s : ServerState σ}
    (idle : s.metrics.activeConnections = 0) :
    let out := serve backend config accepts s
    (out.state.metrics.activeConnections = 0 ∧
      ∀ readings, waitForActiveConnections config out.state.metrics readings = 0) ∧
    out.state.metrics.connectionsTotal = s.metrics.connectionsTotal + out.connections.length ∧
    out.state.metrics.errorsTotal ≤ s.metrics.errorsTotal + accepts.length ∧
    (config.maxConnections ≤ 0 → out.connections = []) ∧
    (0 < config.maxConnections → out.ending = .serving →
      out.connections.length = accepts.countP (·.accepted.isConnection)) ∧
    (out.ending = .stopped ↔ out.state.shutdownRequested = true) ∧
    (out.ending ≠ .serving → ∀ rest, serve backend config (accepts ++ rest) s = out) := by
  have counts := serve_counts backend config accepts idle
  refine ⟨⟨counts.idle, fun readings => ?_⟩, counts.total, counts.errors, counts.refused,
    counts.admitted, counts.stopped, fun ended rest => serve_append backend config ended rest⟩
  cases readings with
  | nil => rfl
  | cons start readings =>
    cases readings <;> simp [waitForActiveConnections, counts.idle]

end Counters

private def request (time : ℚ) (text : String) : Turn :=
  { received := .data (encodeUtf8 text), time }

private def smallConfig : RuntimeConfig := ⟨1, 4096, some 4, 10, true, 5⟩

/-- Two connections around a sweep; a shutdown comes in the second one, before its last reply. -/
private def twoConnections : List Accept :=
  [{ accepted := .connection [request 0 "*3\r\n$3\r\nSET\r\n$1\r\nk\r\n$1\r\nv\r\n",
      request 1 "*2\r\n$3\r\nGET\r\n$1\r\nk\r\n"] },
    { sweeps := [2], accepted := .timedOut },
    { accepted := .connection [{ request 3 "*2\r\n$3\r\nGET\r\n$1\r\nl\r\n" with stopped := true }] },
    { accepted := .connection [request 4 "*1\r\n$4\r\nPING\r\n"] }]

private def firstState : ServerState CommandService :=
  { service := CommandService.init (fun _ => 0) (some 4) }

theorem two_connections_accounted_for :
    (serve (tables 10) smallConfig twoConnections firstState).state.metrics.activeConnections = 0 ∧
    (serve (tables 10) smallConfig twoConnections firstState).state.metrics.connectionsTotal =
      firstState.metrics.connectionsTotal +
        (serve (tables 10) smallConfig twoConnections firstState).connections.length := by
  have counts := server_accounts_for_clients (tables 10) smallConfig twoConnections
    (s := firstState) rfl
  exact ⟨counts.1.1, counts.2.1⟩

/-! ### Two backends that answer alike -/

namespace Accept

/-- The times of a session's sweeps and requests, in order. -/
def turnTimes (turns : List Turn) : List ℚ := turns.flatMap (fun turn => turn.sweeps ++ [turn.time])

def connectionTimes : Accepted → List ℚ
  | .connection turns => turnTimes turns
  | _ => []

/-- The times of all that the server does, in order. -/
def times (accepts : List Accept) : List ℚ :=
  accepts.flatMap (fun accept => accept.sweeps ++ connectionTimes accept.accepted)

end Accept

/-- A relation between two backends, at a time, that time and all calls keep. -/
structure Simulates {σ τ : Type} (backend : Backend σ) (backend' : Backend τ)
    (R : ℚ → σ → τ → Prop) : Prop where
  later : ∀ {t t' s s'}, t ≤ t' → R t s s' → R t' s s'
  execute : ∀ {t s s' command}, R t s s' → validate command = .ok () →
    (backend.execute t command s).1 = (backend'.execute t command s').1 ∧
      R t (backend.execute t command s).2 (backend'.execute t command s').2
  sweep : ∀ {t s s'}, R t s s' → R t (backend.sweep t s) (backend'.sweep t s')

namespace Simulates

variable {σ τ : Type} {backend : Backend σ} {backend' : Backend τ} {R : ℚ → σ → τ → Prop}

/-- Servers that agree on all but their services, which are related. -/
structure Alike (R : ℚ → σ → τ → Prop) (t : ℚ) (s : ServerState σ) (s' : ServerState τ) : Prop where
  service : R t s.service s'.service
  metrics : s.metrics = s'.metrics
  shutdownRequested : s.shutdownRequested = s'.shutdownRequested

private theorem accepted_of_handled {request : Bytes} {command : Command}
    (handled : handleWithErrorResponse request = .ok (.command command)) :
    validate command = .ok () := by
  have passed : protocolHandle request = .ok (.command command) := by
    unfold handleWithErrorResponse withErrorResponse at handled
    split at handled
    · cases handled
    · exact handled
  obtain ⟨_, _, passed⟩ := exists_ok_of_bind passed
  obtain ⟨items, _, passed⟩ := exists_ok_of_bind passed
  obtain ⟨parsed, _, passed⟩ := exists_ok_of_bind passed
  obtain ⟨_, accepted, passed⟩ := exists_ok_of_bind passed
  split at passed
  · obtain ⟨_, _, passed⟩ := exists_ok_of_bind passed
    obtain ⟨_, _, passed⟩ := exists_ok_of_bind passed
    cases passed
  · cases passed
    exact accepted

theorem processOn (simulates : Simulates backend backend' R) {t : ℚ} {s : σ} {s' : τ}
    (related : R t s s') (request : Bytes) (context : SessionContext) :
    let here := Server.processOn backend t request context s
    let there := Server.processOn backend' t request context s'
    here.1 = there.1 ∧ here.2.1 = there.2.1 ∧ R t here.2.2 there.2.2 := by
  unfold Server.processOn
  cases handled : handleWithErrorResponse request with
  | error e => exact ⟨rfl, rfl, related⟩
  | ok result =>
    cases result with
    | response response version => exact ⟨rfl, rfl, related⟩
    | command command =>
      obtain ⟨same, next⟩ := simulates.execute related (accepted_of_handled handled)
      dsimp only
      rw [← same]
      cases resultOf (backend.execute t command s).1 with
      | error e => exact ⟨rfl, rfl, next⟩
      | ok value => cases appliedSessionState command context <;> exact ⟨rfl, rfl, next⟩

private theorem Alike.later (simulates : Simulates backend backend' R) {t t' : ℚ}
    {s : ServerState σ} {s' : ServerState τ} (alike : Alike R t s s') (le : t ≤ t') :
    Alike R t' s s' :=
  ⟨simulates.later le alike.service, alike.metrics, alike.shutdownRequested⟩

private theorem sweeps (simulates : Simulates backend backend' R) {sweeps : List ℚ} {t : ℚ}
    {s : σ} {s' : τ} (related : R t s s') (ordered : (t :: sweeps).Pairwise (· ≤ ·)) {final : ℚ}
    (bound : ∀ time ∈ t :: sweeps, time ≤ final) :
    R final (sweeps.foldl (fun r time => backend.sweep time r) s)
      (sweeps.foldl (fun r time => backend'.sweep time r) s') := by
  induction sweeps generalizing t s s' with
  | nil => exact simulates.later (bound t List.mem_cons_self) related
  | cons time sweeps ih =>
    obtain ⟨first, rest⟩ := List.pairwise_cons.mp ordered
    have here := simulates.later (first time List.mem_cons_self) related
    exact ih (simulates.sweep here) rest (fun t' member => bound t' (List.mem_cons_of_mem t member))

private theorem meanwhile (simulates : Simulates backend backend' R) (config : RuntimeConfig) {t : ℚ}
    {sweeps : List ℚ} {s : ServerState σ} {s' : ServerState τ} (alike : Alike R t s s')
    (ordered : (t :: sweeps).Pairwise (· ≤ ·)) (stopped : Bool) {final : ℚ}
    (bound : ∀ time ∈ t :: sweeps, time ≤ final) :
    Alike R final (s.meanwhile backend config sweeps stopped)
      (s'.meanwhile backend' config sweeps stopped) := by
  refine ⟨?_, alike.metrics, congrArg (· || stopped) alike.shutdownRequested⟩
  unfold ServerState.meanwhile
  dsimp only
  split
  · exact simulates.sweeps alike.service ordered bound
  · exact simulates.later (bound t List.mem_cons_self) alike.service

private theorem turn_ordered {t time : ℚ} {sweeps rest : List ℚ}
    (ordered : (t :: (sweeps ++ [time] ++ rest)).Pairwise (· ≤ ·)) :
    (t :: sweeps).Pairwise (· ≤ ·) ∧ (∀ earlier ∈ t :: sweeps, earlier ≤ time) ∧
      (time :: rest).Pairwise (· ≤ ·) := by
  rw [List.append_assoc, ← List.cons_append, List.pairwise_append] at ordered
  exact ⟨ordered.1, fun earlier member => ordered.2.2 earlier member time List.mem_cons_self,
    ordered.2.1⟩

theorem handleConnection (simulates : Simulates backend backend' R) (config : RuntimeConfig)
    {turns : List Turn} {t : ℚ} {s : ServerState σ} {s' : ServerState τ} (alike : Alike R t s s')
    (ordered : (t :: Accept.turnTimes turns).Pairwise (· ≤ ·)) (context : SessionContext) :
    let here := Server.handleConnection backend config turns context s
    let there := Server.handleConnection backend' config turns context s'
    here.sent = there.sent ∧ here.interrupted = there.interrupted ∧
      ∀ final, (∀ time ∈ t :: Accept.turnTimes turns, time ≤ final) →
        Alike R final here.state there.state := by
  induction turns generalizing t s s' context with
  | nil => exact ⟨rfl, rfl, fun final bound => alike.later simulates (bound t List.mem_cons_self)⟩
  | cons turn turns ih =>
    obtain ⟨waiting, reached, ordered⟩ := @turn_ordered _ _ _ (Accept.turnTimes turns) ordered
    have here := simulates.meanwhile config alike waiting turn.stopped reached
    have late : ∀ final, (∀ time ∈ t :: Accept.turnTimes (turn :: turns), time ≤ final) →
        turn.time ≤ final := by
      intro final bound
      exact bound _ (by simp [Accept.turnTimes])
    unfold Server.handleConnection
    dsimp only
    generalize s.meanwhile backend config turn.sweeps turn.stopped = s at here ⊢
    generalize s'.meanwhile backend' config turn.sweeps turn.stopped = s' at here ⊢
    have counted : Alike R turn.time s.countError s'.countError :=
      ⟨here.service, congrArg Metrics.incrementErrors here.metrics, here.shutdownRequested⟩
    cases turn.received with
    | timedOut | interrupted =>
      exact ⟨rfl, rfl, fun final bound => here.later simulates (late final bound)⟩
    | failed => exact ⟨rfl, rfl, fun final bound => counted.later simulates (late final bound)⟩
    | data chunk =>
      dsimp only
      split_ifs
      · exact ⟨rfl, rfl, fun final bound => here.later simulates (late final bound)⟩
      · exact ⟨rfl, rfl, fun final bound => counted.later simulates (late final bound)⟩
      · obtain ⟨same, context', next⟩ := simulates.processOn here.service chunk context
        rw [← same, ← context']
        generalize Server.processOn backend turn.time chunk context s.service = result at *
        generalize Server.processOn backend' turn.time chunk context s'.service = result' at *
        obtain ⟨outcome, context, service⟩ := result
        obtain ⟨_, _, service'⟩ := result'
        have requests := congrArg Metrics.incrementRequests here.metrics
        have processed : Alike R turn.time
            { s with service, metrics := s.metrics.incrementRequests }
            { s' with service := service', metrics := s'.metrics.incrementRequests } :=
          ⟨next, requests, here.shutdownRequested⟩
        have failed : Alike R turn.time
            ({ s with service, metrics := s.metrics.incrementRequests }).countError
            ({ s' with service := service', metrics := s'.metrics.incrementRequests }).countError :=
          ⟨next, congrArg Metrics.incrementErrors requests, here.shutdownRequested⟩
        cases outcome with
        | error e => exact ⟨rfl, rfl, fun final bound => failed.later simulates (late final bound)⟩
        | ok response =>
          cases turn.sent with
          | all =>
            obtain ⟨sent, interrupted, left⟩ := ih processed ordered context
            refine ⟨congrArg (response ++ ·) sent, interrupted, fun final bound => ?_⟩
            refine left final (fun time member => bound time ?_)
            rw [Accept.turnTimes, List.flatMap_cons, List.append_assoc]
            exact List.mem_cons_of_mem t (List.mem_append_right _ member)
          | timedOut | interrupted =>
            exact ⟨rfl, rfl, fun final bound => processed.later simulates (late final bound)⟩
          | failed => exact ⟨rfl, rfl, fun final bound => failed.later simulates (late final bound)⟩

theorem serveConnection (simulates : Simulates backend backend' R) (config : RuntimeConfig)
    {turns : List Turn} {t : ℚ} {s : ServerState σ} {s' : ServerState τ} (alike : Alike R t s s')
    (ordered : (t :: Accept.turnTimes turns).Pairwise (· ≤ ·)) :
    let here := Server.serveConnection backend config turns s
    let there := Server.serveConnection backend' config turns s'
    here.sent = there.sent ∧ here.interrupted = there.interrupted ∧
      ∀ final, (∀ time ∈ t :: Accept.turnTimes turns, time ≤ final) →
        Alike R final here.state there.state := by
  have opened : Alike R t
      { s with metrics := s.metrics.incrementConnections.incrementActiveConnections }
      { s' with metrics := s'.metrics.incrementConnections.incrementActiveConnections } :=
    ⟨alike.service, congrArg (fun m => m.incrementConnections.incrementActiveConnections)
      alike.metrics, alike.shutdownRequested⟩
  obtain ⟨sent, interrupted, left⟩ := simulates.handleConnection config opened ordered {}
  refine ⟨sent, interrupted, fun final bound => ?_⟩
  have closed := left final bound
  exact ⟨closed.service, congrArg Metrics.decrementActiveConnections closed.metrics,
    closed.shutdownRequested⟩

private theorem exists_latest {t : ℚ} {front rest : List ℚ}
    (ordered : (t :: (front ++ rest)).Pairwise (· ≤ ·)) :
    ∃ u ∈ t :: front, (∀ time ∈ t :: front, time ≤ u) ∧ (u :: rest).Pairwise (· ≤ ·) := by
  induction front generalizing t with
  | nil => exact ⟨t, List.mem_cons_self, by simp, ordered⟩
  | cons time front ih =>
    obtain ⟨first, ordered⟩ := List.pairwise_cons.mp ordered
    obtain ⟨u, member, latest, ordered⟩ := ih ordered
    refine ⟨u, List.mem_cons_of_mem t member, ?_, ordered⟩
    rintro earlier (_ | ⟨_, later⟩)
    · exact (first time (by simp)).trans (latest time List.mem_cons_self)
    · exact latest earlier later

theorem acceptOnce (simulates : Simulates backend backend' R) (config : RuntimeConfig)
    (accept : Accept) {t : ℚ} {s : ServerState σ} {s' : ServerState τ} (alike : Alike R t s s')
    (ordered : (t :: (accept.sweeps ++ Accept.connectionTimes accept.accepted)).Pairwise (· ≤ ·)) :
    let here := Server.acceptOnce backend config accept s
    let there := Server.acceptOnce backend' config accept s'
    here.client = there.client ∧ here.ending = there.ending ∧
      ∀ final, (∀ time ∈ t :: (accept.sweeps ++ Accept.connectionTimes accept.accepted),
        time ≤ final) → Alike R final here.state there.state := by
  obtain ⟨u, latest, waiting, later⟩ := exists_latest ordered
  have here := simulates.meanwhile config alike
    (ordered.sublist ((List.sublist_append_left ..).cons_cons t)) accept.stopped waiting
  have late : ∀ final, (∀ time ∈ t :: (accept.sweeps ++ Accept.connectionTimes accept.accepted),
      time ≤ final) → ∀ time ∈ u :: Accept.connectionTimes accept.accepted, time ≤ final := by
    rintro final bound time (_ | ⟨_, member⟩)
    · exact bound u (List.mem_append_left _ latest)
    · exact bound time (List.mem_append_right (t :: accept.sweeps) member)
  have left : ∀ {r r'}, Alike R u r r' → ∀ final, (∀ time ∈ t :: (accept.sweeps ++
      Accept.connectionTimes accept.accepted), time ≤ final) → Alike R final r r' :=
    fun alike final bound => alike.later simulates (late final bound u List.mem_cons_self)
  unfold Server.acceptOnce
  dsimp only
  generalize s.meanwhile backend config accept.sweeps accept.stopped = s at here ⊢
  generalize s'.meanwhile backend' config accept.sweeps accept.stopped = s' at here ⊢
  generalize accept.accepted = accepted at later late left ⊢
  cases accepted with
  | timedOut => exact ⟨rfl, rfl, left here⟩
  | failed => exact ⟨rfl, by simp only [here.shutdownRequested], left here⟩
  | interrupted => exact ⟨rfl, rfl, left ⟨here.service, here.metrics, rfl⟩⟩
  | connection turns =>
    dsimp only
    rw [← here.metrics]
    by_cases allowed : isConnectionAllowed config.maxConnections s.metrics.activeConnections = false
    · rw [if_pos allowed, if_pos allowed]
      exact ⟨rfl, rfl, left ⟨here.service, congrArg Metrics.incrementErrors here.metrics,
        here.shutdownRequested⟩⟩
    · rw [if_neg allowed, if_neg allowed]
      obtain ⟨sent, interrupted, handled⟩ := simulates.serveConnection config here later
      rw [← interrupted, ← sent]
      split_ifs
      · refine ⟨rfl, rfl, fun final bound => ?_⟩
        have stopped := handled final (late final bound)
        exact ⟨stopped.service, stopped.metrics, rfl⟩
      · exact ⟨rfl, rfl, fun final bound => handled final (late final bound)⟩

theorem serve (simulates : Simulates backend backend' R) (config : RuntimeConfig)
    (accepts : List Accept) {t : ℚ} {s : ServerState σ} {s' : ServerState τ} (alike : Alike R t s s')
    (ordered : (t :: Accept.times accepts).Pairwise (· ≤ ·)) :
    let here := Server.serve backend config accepts s
    let there := Server.serve backend' config accepts s'
    here.connections = there.connections ∧ here.ending = there.ending ∧
      ∀ final, (∀ time ∈ t :: Accept.times accepts, time ≤ final) →
        Alike R final here.state there.state := by
  induction accepts generalizing t s s' with
  | nil =>
    refine ⟨rfl, ?_, fun final bound => alike.later simulates (bound t List.mem_cons_self)⟩
    rw [Server.serve, Server.serve, alike.shutdownRequested]
  | cons accept rest ih =>
    obtain ⟨u, latest, reached, later⟩ := @exists_latest _ _ (Accept.times rest) ordered
    obtain ⟨client, ending, handled⟩ := simulates.acceptOnce config accept alike
      (ordered.sublist ((List.sublist_append_left ..).cons_cons t))
    have here := handled u reached
    have late : ∀ final, (∀ time ∈ t :: Accept.times (accept :: rest), time ≤ final) →
        ∀ time ∈ u :: Accept.times rest, time ≤ final := by
      rintro final bound time (_ | ⟨_, member⟩)
      · exact bound u (List.mem_append_left (Accept.times rest) latest)
      · exact bound time (List.mem_cons_of_mem t (List.mem_append_right _ member))
    unfold Server.serve
    dsimp only
    rw [← alike.shutdownRequested]
    by_cases requested : s.shutdownRequested = true
    · rw [if_pos requested, if_pos requested]
      exact ⟨rfl, rfl, fun final bound => alike.later simulates (bound t List.mem_cons_self)⟩
    · rw [if_neg requested, if_neg requested, ← ending, ← client]
      cases (Server.acceptOnce backend config accept s).ending with
      | some ending =>
        refine ⟨rfl, rfl, fun final bound => ?_⟩
        exact here.later simulates (late final bound u List.mem_cons_self)
      | none =>
        obtain ⟨connections, ending, left⟩ := ih here later
        exact ⟨congrArg (_ ++ ·) connections, ending,
          fun final bound => left final (late final bound)⟩

end Simulates

/-! ### The server as a cache -/

/-- The cache in the order of last use: it needs no sweeper. -/
def lruCache : Backend LruStore where
  execute := LruStore.execute
  sweep _ c := c

/-- At a time the tables show what the cache holds. -/
def ShowsCache (t : ℚ) (s : CommandService) (c : LruStore) : Prop :=
  Represents t s (c.expire t) ∧ Consistent s

theorem tables_simulate_lruCache (sweepBatchSize : ℤ) :
    Simulates (tables sweepBatchSize) lruCache ShowsCache where
  later le shows := ⟨shows.1.later_expired le, shows.2⟩
  execute shows accepted := by
    obtain ⟨reply, shown, next⟩ := shows.1.execute shows.2 accepted
    exact ⟨reply, shown, next⟩
  sweep shows := shows.1.sweep shows.2 sweepBatchSize

/-- Whatever the sockets, the sweeper and a shutdown do, every client of the server gets the bytes
that a server without tables and sweeper would send, whose service is the cache in the order of
last use. -/
theorem server_serves_lru_cache (clock : ℕ → ℚ) (config : RuntimeConfig) (accepts : List Accept)
    (ordered : (Accept.times accepts).Pairwise (· ≤ ·)) :
    let here := serve (tables config.expirationSweepBatchSize) config accepts
      { service := CommandService.init clock config.maxMemoryBytes }
    let cached := serve lruCache config accepts { service := LruStore.init config.maxMemoryBytes }
    here.connections = cached.connections ∧ here.ending = cached.ending ∧
      here.state.metrics = cached.state.metrics ∧
      ∀ t, (∀ time ∈ Accept.times accepts, time ≤ t) →
        Represents t here.state.service (cached.state.service.expire t) := by
  have start : ∀ t, Simulates.Alike ShowsCache t
      { service := CommandService.init clock config.maxMemoryBytes }
      { service := LruStore.init config.maxMemoryBytes } :=
    fun t => ⟨⟨Represents.init t clock _, Consistent.init clock _⟩, rfl, rfl⟩
  have simulated := fun t =>
    (tables_simulate_lruCache config.expirationSweepBatchSize).serve config accepts (start t)
  generalize Accept.times accepts = times at ordered simulated ⊢
  cases times with
  | nil =>
    obtain ⟨connections, ending, left⟩ := simulated 0 (List.pairwise_singleton _ _)
    refine ⟨connections, ending, (left 0 (by simp)).metrics, fun t _ => ?_⟩
    obtain ⟨-, -, left⟩ := simulated t (List.pairwise_singleton _ _)
    exact (left t (by simp)).service.1
  | cons first rest =>
    have ordered' : (first :: first :: rest).Pairwise (· ≤ ·) := by
      refine List.pairwise_cons.mpr ⟨?_, ordered⟩
      rintro time (_ | ⟨_, member⟩)
      · exact le_rfl
      · exact (List.pairwise_cons.mp ordered).1 time member
    obtain ⟨connections, ending, left⟩ := simulated first ordered'
    obtain ⟨last, -, latest, -⟩ := @Simulates.exists_latest first (first :: rest) []
      (by rwa [List.append_nil])
    refine ⟨connections, ending, (left last latest).metrics, fun t bound => (left t ?_).service.1⟩
    exact List.forall_mem_cons.mpr ⟨bound first List.mem_cons_self, bound⟩

theorem two_connections_served_from_cache :
    (serve (tables 10) smallConfig twoConnections firstState).connections =
    (serve lruCache smallConfig twoConnections
      { service := LruStore.init (some 4) }).connections :=
  (server_serves_lru_cache (fun _ => 0) smallConfig twoConnections (by decide +kernel)).1

example : (serve (tables 10) smallConfig twoConnections firstState).connections =
    [encodeUtf8 "+OK\r\n$1\r\nv\r\n", encodeUtf8 "$-1\r\n"] := by decide +kernel

end MiniRedis.Server
