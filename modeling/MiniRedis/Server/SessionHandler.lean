/- GID: MiniRedis/Server/SessionHandler
   generality: I
   digest: One connection: a request for each receive, a reply for each request. -/

import MiniRedis.Protocol.RequestDecoder
import MiniRedis.Protocol.ResponseEncoder
import MiniRedis.Service.CommandService

set_option autoImplicit false
set_option relaxedAutoImplicit false

namespace MiniRedis.Server

open MiniRedis.Base MiniRedis.Python MiniRedis.Protocol MiniRedis.Commands MiniRedis.Service

/-! ### The protocol handler -/

/-- `HelloHandler.handle`. -/
def helloHandle (version : ℤ) : RespValue :=
  if version ≠ 2 ∧ version ≠ 3 then .simpleError ERR_UNSUPPORTED_PROTOCOL_VERSION
  else
    .map [(.simpleString "server", .simpleString "mini-redis"),
      (.simpleString "version", .simpleString "1.0"),
      (.simpleString "proto", .number version)]

/-- A command for the service, or a response that needs no service. -/
inductive ProtocolHandlerResult where
  | command (command : Command)
  | response (response : RespValue) (protocolVersion : Option ℤ)

/-- What `RespRequestDecoder.decode` returns is an array. -/
def requestItems : RespValue → Except PyException (List RespValue)
  | .array items => .ok items
  | _ => .error (.commandError ERR_PROTOCOL_ERROR)

/-- `ProtocolHandler.handle` after the decoder. -/
def handleItems (items : List RespValue) : Except PyException ProtocolHandlerResult := do
  let command ← parse items
  validate command
  if command.name = "HELLO" then
    let version ← toInt (← argument command.arguments 0)
    return .response (helloHandle version) (some version)
  else return .command command

/-- `ProtocolHandler.handle`. -/
def protocolHandle (data : Bytes) : Except PyException ProtocolHandlerResult := do
  handleItems (← requestItems (← decode data))

/-- A command error is a response too. -/
def withErrorResponse (result : Except PyException ProtocolHandlerResult) :
    Except PyException ProtocolHandlerResult :=
  match result with
  | .error (.commandError message) => .ok (.response (.simpleError message) none)
  | result => result

/-- `ProtocolHandler.handle_with_error_response`. -/
def handleWithErrorResponse (data : Bytes) : Except PyException ProtocolHandlerResult :=
  withErrorResponse (protocolHandle data)

/-! ### The session -/

structure SessionContext where
  protocolVersion : ℤ := 2
  selectedDb : ℤ := 0
  clientName : Option String := none
  clientInfo : Dict String String := Dict.empty

/-- The service behind a connection, and what the connection remembers. -/
structure SessionState where
  service : CommandService
  context : SessionContext := {}

abbrev SessionM := Effect SessionState PyException

/-- `_apply_session_state`. -/
def applySessionState (command : Command) : SessionM PUnit := do
  if command.name = "SELECT" then
    let selectedDb ← toInt (← argument command.arguments 0)
    modify (fun s => { s with context := { s.context with selectedDb } })
  else if command.name = "CLIENT" then
    let subcommand := upper (← argument command.arguments 0)
    if subcommand = "SETNAME" then
      let clientName ← argument command.arguments 1
      modify (fun s => { s with context := { s.context with clientName := some clientName } })
    else if subcommand = "SETINFO" then
      let key ← argument command.arguments 1
      let value ← argument command.arguments 2
      modify (fun s => { s with
        context := { s.context with clientInfo := s.context.clientInfo.set key value } })

/-- The service's result, where a command error is a result too. -/
def executeCommand (command : Command) : SessionM RespValue := do
  let outcome ← modifyGet (fun s =>
    (((execute command).exec s.service).1,
      { s with service := ((execute command).exec s.service).2 }))
  match outcome with
  | .ok value => return value
  | .error (.commandError message) => return .simpleError message
  | .error error => throw error

/-- The value with which a session follows a result of the protocol handler. -/
def answerResult (result : Except PyException ProtocolHandlerResult) : SessionM RespValue := do
  match ← result with
  | .response response none => return response
  | .response response (some version) =>
    modify (fun s => { s with context := { s.context with protocolVersion := version } })
    return response
  | .command command =>
    let value ← executeCommand command
    applySessionState command
    return value

/-- The value with which a session answers a request. -/
def answer (request : Bytes) : SessionM RespValue := answerResult (handleWithErrorResponse request)

/-- A value in the bytes of the session's version. -/
def encoded (value : SessionM RespValue) : SessionM Bytes := do
  let value ← value
  return encode (← get).context.protocolVersion value

/-- `_process_request`: both branches encode their value for the version of the session. -/
def processRequest (request : Bytes) : SessionM Bytes := encoded (answer request)

/-- `ResourceGuard.is_request_size_allowed`. -/
def isRequestSizeAllowed (maxRequestSizeBytes sizeBytes : ℕ) : Bool :=
  sizeBytes ≤ maxRequestSizeBytes

/-- A connection with the bytes sent so far and the counters it moves. -/
structure Session where
  state : SessionState
  sent : Bytes := []
  requestsTotal : ℕ := 0
  errorsTotal : ℕ := 0

/-- A session on an empty store, at time 0. -/
def firstSession : Session := { state := ⟨CommandService.init (fun _ => 0) none, {}⟩ }

/-- `SessionHandler.handle` on what `recv` returns in turn, until the stream ends. An exception
ends the session without a reply. -/
def handle (maxRequestSizeBytes : ℕ) : List Bytes → Session → Session
  | [], s => s
  | chunk :: chunks, s =>
    if chunk = [] then s
    else if isRequestSizeAllowed maxRequestSizeBytes chunk.length = false then
      { s with errorsTotal := s.errorsTotal + 1 }
    else
      match (processRequest chunk).exec s.state with
      | (.ok response, state) =>
        handle maxRequestSizeBytes chunks
          { s with state, sent := s.sent ++ response, requestsTotal := s.requestsTotal + 1 }
      | (.error _, state) =>
        { s with state, requestsTotal := s.requestsTotal + 1, errorsTotal := s.errorsTotal + 1 }

end MiniRedis.Server
