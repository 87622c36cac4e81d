/- GID: MiniRedis/Server/Negotiation
   generality: I
   digest: A session keeps to the version it agreed on exactly if no greeting asks for another. -/

import MiniRedis.Server.Replies

set_option autoImplicit false
set_option relaxedAutoImplicit false

namespace MiniRedis.Server

open MiniRedis.Base MiniRedis.Python MiniRedis.Protocol MiniRedis.Commands MiniRedis.Service

/-! ### The log of a session -/

/-- What `recv` returns, and what other connections and the sweeper do to the service before. -/
structure Arrival where
  chunk : Bytes
  meanwhile : CommandService → CommandService

/-- One request with its outcome and the context around it. -/
structure Exchange where
  request : Bytes
  reply : Except PyException RespValue
  before : SessionContext
  after : SessionContext

/-- The exchanges of `SessionHandler.handle`, in order. -/
def exchanges (maxRequestSizeBytes : ℕ) : List Arrival → SessionState → List Exchange
  | [], _ => []
  | ⟨chunk, meanwhile⟩ :: rest, s =>
    if chunk = [] then []
    else if isRequestSizeAllowed maxRequestSizeBytes chunk.length = false then []
    else
      match (answer chunk).exec { s with service := meanwhile s.service } with
      | (.ok value, s') =>
        ⟨chunk, .ok value, s.context, s'.context⟩ :: exchanges maxRequestSizeBytes rest s'
      | (.error e, s') => [⟨chunk, .error e, s.context, s'.context⟩]

/-- What an exchange puts on the wire. -/
def Exchange.bytes (e : Exchange) : Bytes :=
  match e.reply with
  | .ok value => encode e.after.protocolVersion value
  | .error _ => []

/-- The log accounts for all that a session sends and remembers. -/
theorem handle_exchanges (maxRequestSizeBytes : ℕ) (chunks : List Bytes) (s : Session) :
    let log := exchanges maxRequestSizeBytes (chunks.map (⟨·, id⟩)) s.state
    (handle maxRequestSizeBytes chunks s).sent = s.sent ++ log.flatMap Exchange.bytes ∧
      (handle maxRequestSizeBytes chunks s).requestsTotal = s.requestsTotal + log.length ∧
      (handle maxRequestSizeBytes chunks s).state.context =
        (log.getLast?.map Exchange.after).getD s.state.context := by
  induction chunks generalizing s with
  | nil => simp [exchanges, handle]
  | cons chunk chunks ih =>
    unfold handle
    simp only [List.map_cons, exchanges, id_eq]
    split
    · simp
    · split
      · simp
      · cases run : (answer chunk).exec s.state with
        | mk outcome state =>
          cases outcome with
          | ok value =>
            rw [processRequest, exec_encoded run]
            obtain ⟨sent, total, context⟩ := ih { s with
              state, sent := s.sent ++ encode state.context.protocolVersion value,
              requestsTotal := s.requestsTotal + 1 }
            refine ⟨?_, ?_, ?_⟩
            · rw [sent, List.flatMap_cons, List.append_assoc]
              rfl
            · rw [total, List.length_cons]
              dsimp only
              omega
            · rw [context, List.getLast?_cons]
              cases (exchanges maxRequestSizeBytes (chunks.map (⟨·, id⟩)) state).getLast? <;> rfl
          | error e =>
            rw [processRequest, exec_encoded_error run]
            simp [Exchange.bytes]

/-! ### Greetings -/

/-- The version that a request asks for, if it is a greeting. -/
def requestedVersion (request : Bytes) : Option ℤ :=
  match decode request >>= requestItems >>= parse with
  | .ok command => helloVersion command
  | .error _ => none

/-- The version of the latest greeting that was answered with a map. -/
def negotiatedFrom (version : ℤ) (log : List Exchange) : ℤ :=
  log.foldl (fun version e =>
    match requestedVersion e.request, e.reply with
    | some asked, .ok (.map _) => asked
    | _, _ => version) version

def negotiated (log : List Exchange) : ℤ := negotiatedFrom 2 log

/-- After each request the session has a known version, the one negotiated last, and an error
reply has left the context alone. -/
def KeepsToNegotiation (log : List Exchange) : Prop :=
  ∀ earlier e later, log = earlier ++ e :: later →
    (e.after.protocolVersion = 2 ∨ e.after.protocolVersion = 3) ∧
    e.after.protocolVersion = negotiated (earlier ++ [e]) ∧
    ((∃ message, e.reply = .ok (.simpleError message)) → e.after = e.before)

/-- No greeting asks for a version that the server does not know. -/
def AsksForKnownVersions (log : List Exchange) : Prop :=
  ∀ e ∈ log, ∀ version ∈ requestedVersion e.request, version = 2 ∨ version = 3

/-! ### One exchange -/

private theorem requestedVersion_of_decoded {request : Bytes} {items : List RespValue}
    (decodes : decode request = .ok (.array items)) :
    requestedVersion request =
      match parse items with
      | .ok command => helloVersion command
      | .error _ => none := by
  rw [requestedVersion, decodes]
  rfl

private theorem unchanged_of_error {command : Command} (accepted : validate command = .ok ())
    {before after : SessionContext} (remembers : Remembers command before after)
    {s : CommandService} {message : String}
    (result : ((execute command).exec s).1 = .ok (.simpleError message) ∨
      ((execute command).exec s).1 = .error (.commandError message)) : after = before := by
  have fine : (command.name = "SELECT" ∨ command.name = "CLIENT") →
      ((execute command).exec s).1 = .ok (.simpleString "OK") := by
    intro name
    obtain ⟨op, denotes⟩ := accepted_denotes accepted
    rw [execute_denotes denotes]
    cases denotes with
    | select | client => rfl
    | typed _ denotesTyped => cases denotesTyped <;> simp at name
    | _ => simp at name
  have refused : ((execute command).exec s).1 ≠ .ok (.simpleString "OK") := by
    rcases result with result | result <;> rw [result] <;> simp
  exact remembers.other (fun name => refused (fine (Or.inl name)))
    (fun name => refused (fine (Or.inr name)))

private theorem answerItems_hello {items : List RespValue} {command : Command} {version : ℤ}
    (parsed : parse items = .ok command) (hello : helloVersion command = some version)
    (s : SessionState) :
    (answerItems items).exec s = (.ok (helloHandle version), { s with
      context := { s.context with protocolVersion := version } }) := by
  obtain ⟨name, arguments⟩ := command
  have shape : ∃ text, arguments = [text] ∧ name = "HELLO" ∧ parseInt text = some version := by
    unfold helloVersion at hello
    split at hello
    · rename_i text given
      split at hello
      · exact ⟨text, given, ‹_›, hello⟩
      · cases hello
    · cases hello
  obtain ⟨text, rfl, rfl, read⟩ := shape
  have accepted : validate ⟨"HELLO", [text]⟩ = .ok () := by
    have arity : validateArity ⟨"HELLO", [text]⟩ = .ok () := rfl
    have valid : validateIntegerArgument text = .ok version := by rw [validateIntegerArgument, read]
    rw [validate, arity, bind_ok]
    dsimp only [argument, List.getElem?_cons_zero]
    rw [bind_ok, valid]
    rfl
  have number : toInt text = .ok version := by rw [toInt, read]
  have handled : handleItems items = .ok (.response (helloHandle version) (some version)) := by
    rw [handleItems, parsed, bind_ok, accepted, bind_ok, if_pos rfl]
    dsimp only [argument, List.getElem?_cons_zero]
    rw [bind_ok, number]
    rfl
  rw [answerItems, handled]
  rfl

private theorem answer_cases (request : Bytes) (s : SessionState) :
    (requestedVersion request = none ∧
      ((answer request).exec s).2.context.protocolVersion = s.context.protocolVersion ∧
      ∀ message, ((answer request).exec s).1 = .ok (.simpleError message) →
        ((answer request).exec s).2.context = s.context) ∨
    ∃ version, requestedVersion request = some version ∧
      (answer request).exec s = (.ok (helloHandle version), { s with
        context := { s.context with protocolVersion := version } }) := by
  cases decodes : decode request with
  | error e =>
    left
    rw [answer_of_refused decodes, Effect.exec_pure]
    refine ⟨?_, rfl, fun _ _ => rfl⟩
    rw [requestedVersion, decodes]
    rfl
  | ok decoded =>
    obtain ⟨items, rfl⟩ := decode_array decodes
    rw [answer_of_decoded decodes]
    have asked := requestedVersion_of_decoded decodes
    cases hello : requestedVersion request with
    | some version =>
      right
      rw [hello] at asked
      cases parsed : parse items with
      | error e =>
        rw [parsed] at asked
        cases asked
      | ok command =>
        rw [parsed] at asked
        exact ⟨version, rfl, answerItems_hello parsed asked.symm s⟩
    | none =>
      left
      refine ⟨rfl, ?_⟩
      rcases answerItems_cases (refuses_parse items) (List.subset_cons_self _ _) s with
        ⟨message, _, h⟩ | ⟨command, version, parsed, asks, _⟩ |
          ⟨command, _, accepted, _, ⟨value, context, remembers, result, h⟩ | ⟨e, _, _, h⟩⟩
      · rw [h]
        exact ⟨rfl, fun _ _ => rfl⟩
      · rw [hello, parsed] at asked
        cases asked.trans asks
      · rw [h]
        refine ⟨remembers.version, fun message error => ?_⟩
        cases error
        have refused : ((execute command).exec s.service).1 = .ok (.simpleError message) ∨
            ((execute command).exec s.service).1 = .error (.commandError message) := by
          rcases result with result | ⟨text, result, same⟩
          · exact Or.inl result
          · cases same
            exact Or.inr result
        exact unchanged_of_error accepted remembers refused
      · rw [h]
        refine ⟨rfl, fun message error => ?_⟩
        cases error

private def Kept (version : ℤ) (e : Exchange) : Prop :=
  (e.after.protocolVersion = 2 ∨ e.after.protocolVersion = 3) ∧
    e.after.protocolVersion = negotiatedFrom version [e] ∧
    ((∃ message, e.reply = .ok (.simpleError message)) → e.after = e.before)

private theorem negotiatedFrom_single (version : ℤ) (e : Exchange) :
    negotiatedFrom version [e] =
      match requestedVersion e.request, e.reply with
      | some asked, .ok (.map _) => asked
      | _, _ => version := rfl

private theorem kept_iff {request : Bytes} {s s' : SessionState} {reply : Except PyException RespValue}
    (run : (answer request).exec s = (reply, s'))
    (known : s.context.protocolVersion = 2 ∨ s.context.protocolVersion = 3) :
    Kept s.context.protocolVersion ⟨request, reply, s.context, s'.context⟩ ↔
      ∀ version ∈ requestedVersion request, version = 2 ∨ version = 3 := by
  unfold Kept
  rw [negotiatedFrom_single]
  rcases answer_cases request s with ⟨other, same, errors⟩ | ⟨asked, greeting, answered⟩
  · rw [run] at same errors
    simp only [other, Option.not_mem_none, false_implies, implies_true, iff_true]
    refine ⟨same ▸ known, same, ?_⟩
    rintro ⟨message, error⟩
    exact errors message error
  · rw [run] at answered
    obtain ⟨rfl, rfl⟩ := Prod.mk.inj answered
    simp only [greeting, Option.mem_some_iff, forall_eq']
    constructor
    · exact fun kept => kept.1
    · intro supported
      have map : ∃ entries, helloHandle asked = .map entries := by
        rcases supported with rfl | rfl <;> exact ⟨_, rfl⟩
      obtain ⟨entries, map⟩ := map
      rw [map]
      refine ⟨supported, rfl, ?_⟩
      rintro ⟨message, error⟩
      cases error

/-! ### Whole sessions -/

private def KeepsFrom (version : ℤ) (log : List Exchange) : Prop :=
  ∀ earlier e later, log = earlier ++ e :: later →
    (e.after.protocolVersion = 2 ∨ e.after.protocolVersion = 3) ∧
    e.after.protocolVersion = negotiatedFrom version (earlier ++ [e]) ∧
    ((∃ message, e.reply = .ok (.simpleError message)) → e.after = e.before)

private theorem keepsFrom_nil (version : ℤ) : KeepsFrom version [] := by
  intro earlier e later split
  simp at split

private theorem keepsFrom_cons {version : ℤ} {e : Exchange} {log : List Exchange} :
    KeepsFrom version (e :: log) ↔ Kept version e ∧ KeepsFrom e.after.protocolVersion log := by
  constructor
  · intro keeps
    have first : Kept version e := keeps [] e log rfl
    refine ⟨first, fun earlier last later split => ?_⟩
    rw [first.2.1]
    exact keeps (e :: earlier) last later (by rw [split, List.cons_append])
  · rintro ⟨first, rest⟩ earlier last later split
    cases earlier with
    | nil =>
      obtain ⟨rfl, rfl⟩ := List.cons.inj split
      exact first
    | cons head earlier =>
      obtain ⟨rfl, tail⟩ := List.cons.inj split
      rw [first.2.1] at rest
      exact rest earlier last later tail

private theorem asksForKnownVersions_cons {e : Exchange} {log : List Exchange} :
    AsksForKnownVersions (e :: log) ↔
      (∀ version ∈ requestedVersion e.request, version = 2 ∨ version = 3) ∧
        AsksForKnownVersions log :=
  List.forall_mem_cons

private theorem keepsFrom_iff (maxRequestSizeBytes : ℕ) (arrivals : List Arrival) (s : SessionState)
    (known : s.context.protocolVersion = 2 ∨ s.context.protocolVersion = 3) :
    KeepsFrom s.context.protocolVersion (exchanges maxRequestSizeBytes arrivals s) ↔
      AsksForKnownVersions (exchanges maxRequestSizeBytes arrivals s) := by
  have nothing : KeepsFrom s.context.protocolVersion [] ↔ AsksForKnownVersions [] :=
    iff_of_true (keepsFrom_nil _) (List.forall_mem_nil _)
  induction arrivals generalizing s with
  | nil => exact nothing
  | cons arrival rest ih =>
    obtain ⟨chunk, meanwhile⟩ := arrival
    unfold exchanges
    split
    · exact nothing
    · split
      · exact nothing
      · cases run : (answer chunk).exec { s with service := meanwhile s.service } with
        | mk reply s' =>
          have kept := kept_iff run known
          cases reply with
          | ok value =>
            dsimp only
            rw [keepsFrom_cons, asksForKnownVersions_cons, ← kept]
            refine and_congr_right (fun first => ?_)
            exact ih s' first.1 (iff_of_true (keepsFrom_nil _) (List.forall_mem_nil _))
          | error e =>
            dsimp only
            rw [keepsFrom_cons, asksForKnownVersions_cons, ← kept]
            exact and_congr_right (fun _ => iff_of_true (keepsFrom_nil _) (List.forall_mem_nil _))

/-- A session keeps to the version negotiated last exactly if every greeting it gets asks for a
version that the server knows. -/
theorem keeps_to_negotiation_iff (maxRequestSizeBytes : ℕ) (arrivals : List Arrival)
    (service : CommandService) :
    KeepsToNegotiation (exchanges maxRequestSizeBytes arrivals ⟨service, {}⟩) ↔
      AsksForKnownVersions (exchanges maxRequestSizeBytes arrivals ⟨service, {}⟩) :=
  keepsFrom_iff maxRequestSizeBytes arrivals ⟨service, {}⟩ (Or.inl rfl)

/-- A client that greets with version 4 gets an error and leaves the session in version 4. -/
theorem unknown_version_not_kept :
    ¬ KeepsToNegotiation (exchanges 4096 [⟨Client.Cli.buildCommandFrame "HELLO" ["4"], id⟩]
      ⟨CommandService.init (fun _ => 0) none, {}⟩) := by
  intro keeps
  have versions : (exchanges 4096 [⟨Client.Cli.buildCommandFrame "HELLO" ["4"], id⟩]
      ⟨CommandService.init (fun _ => 0) none, {}⟩).map (fun e => e.after.protocolVersion) = [4] := by
    decide +kernel
  obtain ⟨e, later, log, version, -⟩ := List.map_eq_cons_iff.mp versions
  have known := (keeps [] e later log).1
  rw [version] at known
  omega

end MiniRedis.Server
