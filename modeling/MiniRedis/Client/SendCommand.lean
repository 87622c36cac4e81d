/- GID: MiniRedis/Client/SendCommand
   generality: I
   digest: A command is sent once more after a lost connection, and its value is always its own. -/

import MiniRedis.Client.CutReplies
import MiniRedis.Server.Replies

set_option autoImplicit false
set_option relaxedAutoImplicit false

namespace MiniRedis.Client.Benchmark

open MiniRedis.Base MiniRedis.Python MiniRedis.Protocol MiniRedis.Commands MiniRedis.Service
open MiniRedis.Server

/-! ### A client, its connection and the server -/

/-- An open connection: what the server remembers of it, and the bytes the client has not read. -/
structure Link where
  context : SessionContext := {}
  pending : Bytes := []

structure World where
  service : CommandService
  sock : Option Link := none

/-- What becomes of a command that is sent. A socket error has a text; where the connection ends
after some bytes of the reply, the pieces in which they come are told too. -/
inductive Fate where
  | unsent (message : String)
  | hungUp
  | unanswered (message : String)
  | replied (delivered : ℕ) (ready : ℕ → ℕ)

/-- What an attempt meets: others at the service, a connection if it needs one, and its fate. -/
structure Attempt where
  meanwhile : CommandService → CommandService := id
  connects : Except String Unit := .ok ()
  fate : Fate

/-- What the server said to a command, if it did not hang up over it. -/
structure Said where
  version : ℤ
  value : Option RespValue

/-- An attempt or a call: its outcome, what it left, and what the server said on the way. -/
structure Sent where
  outcome : Except ClientFailure ReplyValue
  world : World
  said : List Said := []

/-- `_is_retryable_connection_error`. -/
def isRetryableConnectionError (message : String) : Bool :=
  ["empty response", "connection closed", "broken pipe", "reset by peer"].any
    (fun fragment => fragment.toList <:+: (lower message).toList)

/-- The text of an error that `_send_command` catches: an `OSError` or a `MiniRedisError`. -/
def caughtMessage : ClientFailure → Option String
  | .connectionError message => some message
  | .miniRedisError message => some message
  | _ => none

def closeSocket (w : World) : World := { w with sock := none }

/-- The server reads a whole command: what it says and the bytes it sends, none if it hangs up. -/
def served (request : Bytes) (link : Link) (service : CommandService) : Said × Bytes × Link × CommandService :=
  match (answer request).exec ⟨service, link.context⟩ with
  | (.ok value, s) =>
    let version := s.context.protocolVersion
    (⟨version, some value⟩, encode version value, { link with context := s.context }, s.service)
  | (.error _, s) =>
    (⟨s.context.protocolVersion, none⟩, [], { link with context := s.context }, s.service)

/-- `_parse_resp` on what the connection has delivered before it ends. -/
def receive (delivered : Bytes) (ready : ℕ → ℕ) (link : Link) :
    Except ClientFailure ReplyValue × Link :=
  let (outcome, sock) := response.exec ⟨delivered, ready⟩
  (outcome, { link with pending := sock.pending })

/-- A command on an open connection. -/
def exchange (parts : List Part) (fate : Fate) (link : Link) (service : CommandService) : Sent :=
  match fate with
  | .unsent message => { outcome := .error (.connectionError message), world := ⟨service, some link⟩ }
  | .hungUp =>
    let (outcome, link) := receive link.pending (fun _ => 0) link
    { outcome, world := ⟨service, some link⟩ }
  | .unanswered message =>
    let (said, _, link, service) := served (encodeCommand parts) link service
    { outcome := .error (.connectionError message), world := ⟨service, some link⟩, said := [said] }
  | .replied delivered ready =>
    let (said, bytes, link, service) := served (encodeCommand parts) link service
    let (outcome, link) := receive (link.pending ++ bytes.take delivered) ready link
    { outcome, world := ⟨service, some link⟩, said := [said] }

/-- The body of the loop of `_send_command`. -/
def sendOnce (parts : List Part) (attempt : Attempt) (w : World) : Sent :=
  let service := attempt.meanwhile w.service
  match w.sock, attempt.connects with
  | none, .error message => { outcome := .error (.miniRedisError message), world := ⟨service, none⟩ }
  | none, .ok () => exchange parts attempt.fate {} service
  | some link, _ => exchange parts attempt.fate link service

/-- `_send_command`. -/
def sendCommand (parts : List Part) (first second : Attempt) (w : World) : Sent :=
  let once := sendOnce parts first w
  match once.outcome with
  | .ok _ => once
  | .error failure =>
    match caughtMessage failure with
    | none => once
    | some message =>
      if isRetryableConnectionError message then
        let twice := sendOnce parts second (closeSocket once.world)
        let said := once.said ++ twice.said
        match twice.outcome with
        | .ok _ => { twice with said }
        | .error failure =>
          match caughtMessage failure with
          | none => { twice with said }
          | some message =>
            { outcome := .error (.miniRedisError message), world := closeSocket twice.world, said }
      else { once with
        outcome := .error (.miniRedisError message), world := closeSocket once.world }

/-- A call with the attempts it may make. -/
structure Call where
  parts : List Part
  first : Attempt
  second : Attempt

/-- The calls of a client in turn, each with the world it met. -/
def calls : List Call → World → List (World × Sent)
  | [], _ => []
  | call :: rest, w =>
    let sent := sendCommand call.parts call.first call.second w
    (w, sent) :: calls rest sent.world

/-! ### One attempt -/

/-- No byte of an earlier reply is left on the connection. -/
def Quiet (w : World) : Prop := ∀ link ∈ w.sock, link.pending = []

/-- What a value that the server said is to the client. -/
def Said.Means (said : Said) (outcome : Except ClientFailure ReplyValue) : Prop :=
  ∃ value ∈ said.value, outcome = Benchmark.outcome said.version value

def Said.Readable (said : Said) : Prop := ∀ value ∈ said.value, Client.Readable value

private theorem served_bytes (request : Bytes) (link : Link) (service : CommandService) :
    let result := served request link service
    (result.1.value = none ∧ result.2.1 = [] ∨
      ∃ value, result.1.value = some value ∧ Reply value ∧
        result.2.1 = encode result.1.version value) ∧
    result.2.2.1.pending = link.pending := by
  unfold served
  split
  · rename_i value s answered
    exact ⟨Or.inr ⟨value, rfl, reply_of_answer answered, rfl⟩, rfl⟩
  · exact ⟨Or.inl ⟨rfl, rfl⟩, rfl⟩

private theorem receive_nothing (ready : ℕ → ℕ) (link : Link) :
    (receive [] ready link).1 = .error (.miniRedisError "empty response") := rfl

private theorem receive_said (request : Bytes) {link : Link} (service : CommandService)
    (quiet : link.pending = []) (readable : (served request link service).1.Readable)
    (delivered : ℕ) (ready : ℕ → ℕ) :
    let result := served request link service
    let received := receive (result.2.2.1.pending ++ result.2.1.take delivered) ready result.2.2.1
    (result.1.Means received.1 ∧ received.2.pending = []) ∨
      (∃ message ∈ cutMessages, received.1 = .error (.miniRedisError message)) ∧
        (result.2.1.length ≤ delivered → result.1.value = none) := by
  obtain ⟨bytes, kept⟩ := served_bytes request link service
  generalize served request link service = result at *
  obtain ⟨said, reply, link', service'⟩ := result
  have still : link'.pending = [] := kept.trans quiet
  simp only [still, List.nil_append] at bytes readable ⊢
  rcases bytes with ⟨hung, rfl⟩ | ⟨value, spoke, isReply, rfl⟩
  · refine Or.inr ⟨⟨"empty response", by simp [cutMessages], ?_⟩, fun _ => hung⟩
    rw [List.take_nil]
    exact receive_nothing ready link'
  · have small := readable value spoke
    by_cases whole : (encode said.version value).length ≤ delivered
    · left
      rw [List.take_of_length_le whole, receive]
      obtain ⟨sock, run, left⟩ := (isReply.consumed small said.version).2
        ⟨encode said.version value, ready⟩ [] (List.append_nil _).symm
      rw [run]
      exact ⟨⟨value, spoke, rfl⟩, left⟩
    · refine Or.inr ⟨?_, fun enough => (whole enough).elim⟩
      have missing : (encode said.version value).drop delivered ≠ [] := by
        rw [ne_eq, List.drop_eq_nil_iff]
        exact whole
      exact cut_reply_raises isReply small said.version (List.take_append_drop _ _).symm missing ready

/-- What an attempt can do to a quiet connection: it gets its own value and leaves the connection
quiet, or it raises an error that is caught. -/
private structure AttemptSpec (sent : Sent) : Prop where
  once : sent.said.length ≤ 1
  own : ∀ v, sent.outcome = .ok v →
    Quiet sent.world ∧ ∃ said, sent.said = [said] ∧ said.Means (.ok v)
  caught : ∀ e, sent.outcome = .error e → ∃ message, caughtMessage e = some message

private theorem Said.Means.caught {said : Said} {e : ClientFailure} (means : said.Means (.error e)) :
    ∃ message, caughtMessage e = some message := by
  obtain ⟨value, -, same⟩ := means
  unfold Benchmark.outcome at same
  split at same
  · cases same
    exact ⟨_, rfl⟩
  · cases same

private theorem exchange_spec {parts : List Part} {fate : Fate} {link : Link}
    {service : CommandService} (quiet : link.pending = [])
    (readable : ∀ said ∈ (exchange parts fate link service).said, said.Readable) :
    AttemptSpec (exchange parts fate link service) := by
  cases fate with
  | unsent message => exact ⟨Nat.zero_le _, nofun, fun e same => by cases same; exact ⟨_, rfl⟩⟩
  | hungUp =>
    have ended : (exchange parts .hungUp link service).outcome =
        .error (.miniRedisError "empty response") := by
      rw [exchange, quiet]
      exact receive_nothing (fun _ => 0) link
    refine ⟨Nat.zero_le _, fun v same => ?_, fun e same => ?_⟩
    · rw [ended] at same
      cases same
    · rw [ended] at same
      cases same
      exact ⟨_, rfl⟩
  | unanswered message =>
    rw [exchange]
    generalize served (encodeCommand parts) link service = result
    exact ⟨le_rfl, nofun, fun e same => by cases same; exact ⟨_, rfl⟩⟩
  | replied delivered ready =>
    have spec := fun small => receive_said (encodeCommand parts) service quiet small
      delivered ready
    rw [exchange] at readable ⊢
    generalize served (encodeCommand parts) link service = result at readable spec ⊢
    obtain ⟨said, bytes, link', service'⟩ := result
    dsimp only at readable spec ⊢
    have spec := spec (readable said (List.mem_singleton_self said))
    generalize receive (link'.pending ++ bytes.take delivered) ready link' = received at spec ⊢
    obtain ⟨outcome, link''⟩ := received
    dsimp only at spec ⊢
    rcases spec with ⟨means, left⟩ | ⟨⟨message, -, rfl⟩, -⟩
    · refine ⟨le_rfl, ?_, ?_⟩
      · rintro v rfl
        refine ⟨?_, said, rfl, means⟩
        rintro _ ⟨⟩
        exact left
      · rintro e rfl
        exact means.caught
    · exact ⟨le_rfl, nofun, fun e same => by cases same; exact ⟨_, rfl⟩⟩

private theorem sendOnce_spec (parts : List Part) (attempt : Attempt) {w : World} (quiet : Quiet w)
    (readable : ∀ said ∈ (sendOnce parts attempt w).said, said.Readable) :
    AttemptSpec (sendOnce parts attempt w) := by
  unfold sendOnce at readable ⊢
  dsimp only at readable ⊢
  cases here : w.sock with
  | none =>
    cases opens : attempt.connects with
    | error message => exact ⟨Nat.zero_le _, nofun, fun e same => by cases same; exact ⟨_, rfl⟩⟩
    | ok =>
      simp only [here, opens] at readable ⊢
      exact exchange_spec rfl readable
  | some link =>
    simp only [here] at readable ⊢
    exact exchange_spec (quiet link here) readable

/-- The attempt has a connection, and the whole reply of a server that does not hang up comes. -/
def Attempt.Answered (parts : List Part) (attempt : Attempt) (w : World) (said : Said) : Prop :=
  (w.sock = none → attempt.connects = .ok ()) ∧
    ∃ delivered ready, attempt.fate = .replied delivered ready ∧
      let result := served (encodeCommand parts) (w.sock.getD {}) (attempt.meanwhile w.service)
      result.1 = said ∧ result.2.1.length ≤ delivered ∧ said.value ≠ none

private theorem exchange_answered {parts : List Part} {delivered : ℕ} {ready : ℕ → ℕ} {link : Link}
    {service : CommandService} {said : Said} (quiet : link.pending = [])
    (speaks : (served (encodeCommand parts) link service).1 = said)
    (whole : (served (encodeCommand parts) link service).2.1.length ≤ delivered)
    (some : said.value ≠ none) :
    (∀ value ∈ said.value, Reply value) ∧
      (exchange parts (.replied delivered ready) link service).said = [said] ∧
      (said.Readable →
        said.Means (exchange parts (.replied delivered ready) link service).outcome) := by
  subst speaks
  have spec := fun small => receive_said (encodeCommand parts) service quiet small
    delivered ready
  have bytes := (served_bytes (encodeCommand parts) link service).1
  rw [exchange]
  generalize served (encodeCommand parts) link service = result at spec whole some bytes ⊢
  refine ⟨?_, rfl, fun small => ?_⟩
  · rcases bytes with ⟨hung, -⟩ | ⟨value, spoke, reply, -⟩
    · exact (some hung).elim
    · intro value' member
      obtain rfl : value = value' := Option.some.inj (spoke.symm.trans member)
      exact reply
  · rcases spec small with ⟨means, -⟩ | ⟨-, hung⟩
    · exact means
    · exact (some (hung whole)).elim

private theorem sendOnce_answered {parts : List Part} {attempt : Attempt} {w : World} {said : Said}
    (quiet : Quiet w) (answered : attempt.Answered parts w said) :
    (∀ value ∈ said.value, Reply value) ∧ (sendOnce parts attempt w).said = [said] ∧
      (said.Readable → said.Means (sendOnce parts attempt w).outcome) := by
  obtain ⟨opens, delivered, ready, fate, speaks, whole, some⟩ := answered
  unfold sendOnce
  dsimp only
  cases here : w.sock with
  | none =>
    rw [opens here, fate]
    rw [here, Option.getD_none] at speaks whole
    exact exchange_answered rfl speaks whole some
  | some link =>
    rw [fate]
    rw [here, Option.getD_some] at speaks whole
    exact exchange_answered (quiet link here) speaks whole some

private theorem errors_final : ∀ message ∈ errorTexts,
    isRetryableConnectionError (RESP_ERR_PREFIX ++ " " ++ message) = false := by
  decide +kernel

/-! ### Calls -/

/-- What a client may rely on in a call. -/
structure Honest (call : Call) (w : World) (sent : Sent) : Prop where
  twice : sent.said.length ≤ 2
  own : ∀ v, sent.outcome = .ok v →
    ∃ said, sent.said.getLast? = some said ∧ said.Means (.ok v)
  failed : ∀ e, sent.outcome = .error e →
    sent.world.sock = none ∧ ∃ message, e = .miniRedisError message
  answered : ∀ said, call.first.Answered call.parts w said →
    sent.said = [said] ∧ said.Means sent.outcome

private theorem sendCommand_of_ok {parts : List Part} {first second : Attempt} {w : World}
    {v : ReplyValue} (ok : (sendOnce parts first w).outcome = .ok v) :
    sendCommand parts first second w = sendOnce parts first w := by
  rw [sendCommand, ok]

private theorem sendCommand_of_final {parts : List Part} {first second : Attempt} {w : World}
    {e : ClientFailure} {message : String} (failed : (sendOnce parts first w).outcome = .error e)
    (caught : caughtMessage e = some message) (final : isRetryableConnectionError message = false) :
    sendCommand parts first second w = { sendOnce parts first w with
      outcome := .error (.miniRedisError message)
      world := closeSocket (sendOnce parts first w).world } := by
  simp only [sendCommand, failed, caught, final, Bool.false_eq_true, if_false]

private theorem sendCommand_of_retry {parts : List Part} {first : Attempt} (second : Attempt) {w : World}
    {e : ClientFailure} {message : String} (failed : (sendOnce parts first w).outcome = .error e)
    (caught : caughtMessage e = some message) (again : isRetryableConnectionError message = true) :
    let twice := sendOnce parts second (closeSocket (sendOnce parts first w).world)
    (sendCommand parts first second w).said = (sendOnce parts first w).said ++ twice.said ∧
      (∀ v, twice.outcome = .ok v →
        (sendCommand parts first second w).outcome = .ok v ∧
          (sendCommand parts first second w).world = twice.world) ∧
      ∀ e message, twice.outcome = .error e → caughtMessage e = some message →
        (sendCommand parts first second w).outcome = .error (.miniRedisError message) ∧
          (sendCommand parts first second w).world = closeSocket twice.world := by
  simp only [sendCommand, failed, caught, again, if_true]
  generalize sendOnce parts second (closeSocket (sendOnce parts first w).world) = twice
  cases outcome : twice.outcome with
  | ok v => exact ⟨rfl, fun v same => ⟨same, rfl⟩, nofun⟩
  | error e =>
    refine ⟨?_, nofun, ?_⟩
    · dsimp only
      cases caughtMessage e <;> rfl
    · rintro _ message ⟨⟩ caught
      simp only [caught, and_self]

private theorem said_first (parts : List Part) (first second : Attempt) (w : World) :
    (sendOnce parts first w).said <+: (sendCommand parts first second w).said := by
  cases outcome : (sendOnce parts first w).outcome with
  | ok v => rw [sendCommand_of_ok outcome]
  | error e =>
    cases caught : caughtMessage e with
    | none => simp only [sendCommand, outcome, caught, List.prefix_refl]
    | some message =>
      cases again : isRetryableConnectionError message with
      | false => rw [sendCommand_of_final outcome caught again]
      | true =>
        rw [(sendCommand_of_retry second outcome caught again).1]
        exact List.prefix_append _ _

private theorem Said.Means.final {said : Said} {e : ClientFailure} {message : String}
    (means : said.Means (.error e)) (reply : ∀ value ∈ said.value, Reply value)
    (caught : caughtMessage e = some message) :
    isRetryableConnectionError message = false ∧ e = .miniRedisError message := by
  obtain ⟨value, spoke, same⟩ := means
  unfold Benchmark.outcome at same
  split at same
  · rename_i text
    cases same
    cases caught
    refine ⟨errors_final text ?_, rfl⟩
    rcases reply _ spoke with plain | ⟨listed, member, known⟩
    · cases plain
    · cases known
      exact member
  · cases same

theorem sendCommand_honest {call : Call} {w : World} (quiet : Quiet w)
    (readable : ∀ said ∈ (sendCommand call.parts call.first call.second w).said, said.Readable) :
    Honest call w (sendCommand call.parts call.first call.second w) ∧
      Quiet (sendCommand call.parts call.first call.second w).world := by
  have front := said_first call.parts call.first call.second w
  have once := sendOnce_spec call.parts call.first quiet
    (fun said member => readable said (front.subset member))
  have answered : ∀ said, call.first.Answered call.parts w said →
      (∀ value ∈ said.value, Reply value) ∧
      (sendOnce call.parts call.first w).said = [said] ∧
      said.Means (sendOnce call.parts call.first w).outcome := by
    intro said answered
    obtain ⟨reply, heard, means⟩ := sendOnce_answered quiet answered
    exact ⟨reply, heard, means (readable said (front.subset (heard ▸ List.mem_singleton_self said)))⟩
  cases outcome : (sendOnce call.parts call.first w).outcome with
  | ok v =>
    rw [sendCommand_of_ok outcome]
    obtain ⟨still, said, heard, means⟩ := once.own v outcome
    refine ⟨⟨once.once.trans (by decide), fun v' same => ?_, fun e same => ?_, fun said' given => ?_⟩,
      still⟩
    · obtain rfl : v = v' := Except.ok.inj (outcome.symm.trans same)
      exact ⟨said, by rw [heard]; rfl, means⟩
    · rw [outcome] at same
      cases same
    · exact (answered said' given).2
  | error e =>
    obtain ⟨message, caught⟩ := once.caught e outcome
    cases again : isRetryableConnectionError message with
    | false =>
      rw [sendCommand_of_final outcome caught again]
      refine ⟨⟨once.once.trans (by decide), nofun, fun e' same => ?_, fun said given => ?_⟩, nofun⟩
      · cases same
        exact ⟨rfl, message, rfl⟩
      · obtain ⟨reply, heard, means⟩ := answered said given
        rw [outcome] at means
        refine ⟨heard, ?_⟩
        rw [← (means.final reply caught).2]
        exact means
    | true =>
      have never : ∀ said, ¬ call.first.Answered call.parts w said := by
        intro said given
        obtain ⟨reply, -, means⟩ := answered said given
        rw [outcome] at means
        rw [(means.final reply caught).1] at again
        cases again
      obtain ⟨heard, onOk, onError⟩ := sendCommand_of_retry call.second outcome caught again
      have closed : Quiet (closeSocket (sendOnce call.parts call.first w).world) := nofun
      have twice := sendOnce_spec call.parts call.second closed
        (fun said member => readable said (by rw [heard]; exact List.mem_append_right _ member))
      generalize sendOnce call.parts call.second (closeSocket
        (sendOnce call.parts call.first w).world) = second at heard onOk onError twice
      have short : (sendCommand call.parts call.first call.second w).said.length ≤ 2 := by
        rw [heard, List.length_append]
        exact Nat.add_le_add once.once twice.once
      cases outcome' : second.outcome with
      | ok v =>
        obtain ⟨same, world⟩ := onOk v outcome'
        obtain ⟨still, said, spoke, means⟩ := twice.own v outcome'
        rw [world]
        refine ⟨⟨short, fun v' ok => ?_, fun e failed => ?_, fun said given => (never said given).elim⟩,
          still⟩
        · obtain rfl : v = v' := Except.ok.inj (same.symm.trans ok)
          exact ⟨said, by rw [heard, spoke, List.getLast?_concat], means⟩
        · rw [same] at failed
          cases failed
      | error e' =>
        obtain ⟨message', caught'⟩ := twice.caught e' outcome'
        obtain ⟨same, world⟩ := onError e' message' outcome' caught'
        rw [world]
        refine ⟨⟨short, fun v ok => ?_, fun e failed => ?_, fun said given => (never said given).elim⟩,
          nofun⟩
        · rw [same] at ok
          cases ok
        · rw [same] at failed
          cases failed
          exact ⟨by rw [world]; rfl, message', rfl⟩

/-- Whatever happens to its connections, a client that starts without one gets from every call the
value that the server said to this call, in the last of at most two attempts, or an error that closes
the connection; and a command whose reply arrives is sent once, with an error reply too. -/
theorem client_gets_its_own_replies {list : List Call} {w : World} (quiet : Quiet w)
    (readable : ∀ entry ∈ calls list w, ∀ said ∈ entry.2.said, said.Readable) :
    List.Forall₂ (fun call entry => Honest call entry.1 entry.2) list (calls list w) := by
  induction list generalizing w with
  | nil => exact .nil
  | cons call rest ih =>
    obtain ⟨honest, still⟩ := sendCommand_honest quiet (readable _ List.mem_cons_self)
    exact .cons honest (ih still (fun entry member => readable entry (List.mem_cons_of_mem _ member)))

private theorem ping_served (service : CommandService) :
    served (encodeCommand [.text "PING"]) {} service =
      (⟨2, some (.simpleString "PONG")⟩, encode 2 (.simpleString "PONG"), {}, service) := by
  have decodes := decode_of_ascii ["PING"] (by decide +kernel) (by decide +kernel)
  have parsed : parse (["PING"].map .blobString) = .ok ⟨"PING", []⟩ := by decide +kernel
  have accepted : validate ⟨"PING", []⟩ = .ok () := by decide +kernel
  have handled : handleItems (["PING"].map .blobString) = .ok (.command ⟨"PING", []⟩) := by
    rw [handleItems, parsed, bind_ok, accepted, bind_ok, if_neg (by decide)]
    rfl
  have answered : (answer (encodeCommand (["PING"].map .text))).exec ⟨service, {}⟩ =
      (.ok (.simpleString "PONG"), ⟨service, {}⟩) := by
    rw [encodeCommand_texts]
    exact (congrArg (fun x => Effect.exec x _) (answer_of_decoded decodes)).trans
      (by rw [answerItems, handled]; rfl)
  rw [served, show [Part.text "PING"] = ["PING"].map .text from rfl, answered]

private def lateCall : Call :=
  ⟨[.text "PING"], { fate := .hungUp }, { fate := .replied 7 (fun _ => 0) }⟩

private def idleWorld : World := ⟨CommandService.init (fun _ => 0) none, some {}⟩

private theorem late_said :
    (sendCommand lateCall.parts lateCall.first lateCall.second idleWorld).said =
      [⟨2, some (.simpleString "PONG")⟩] := by
  have closed : (sendOnce lateCall.parts lateCall.first idleWorld).outcome =
      .error (.miniRedisError "empty response") := rfl
  have seven : (encode 2 (.simpleString "PONG")).length ≤ 7 := by decide +kernel
  have answered : ∀ w : World, w.sock = none →
      lateCall.second.Answered lateCall.parts w ⟨2, some (.simpleString "PONG")⟩ := by
    intro w closed
    refine ⟨fun _ => rfl, 7, fun _ => 0, rfl, ?_⟩
    rw [closed, Option.getD_none, show lateCall.parts = [.text "PING"] from rfl, ping_served]
    exact ⟨rfl, seven, nofun⟩
  have again := sendOnce_answered (w := closeSocket (sendOnce lateCall.parts lateCall.first idleWorld).world)
    nofun (answered _ rfl)
  rw [(sendCommand_of_retry _ closed rfl (by decide +kernel)).1, again.2.1]
  rfl

theorem late_call_gets_its_reply :
    List.Forall₂ (fun call entry => Honest call entry.1 entry.2) [lateCall]
      (calls [lateCall] idleWorld) := by
  refine client_gets_its_own_replies ?_ ?_
  · rintro _ ⟨⟩
    rfl
  · intro entry listed said heard
    rw [calls, calls, List.mem_singleton] at listed
    subst listed
    rw [late_said, List.mem_singleton] at heard
    subst heard
    rintro _ ⟨⟩
    exact .simpleString "PONG"

end MiniRedis.Client.Benchmark
