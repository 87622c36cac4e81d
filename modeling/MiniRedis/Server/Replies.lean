/- GID: MiniRedis/Server/Replies
   generality: I
   digest: Every answer of a session is a reply that both clients read back. -/

import MiniRedis.Client.RequestRoundTrip
import MiniRedis.Client.ResponseRoundTrip
import MiniRedis.Server.SessionHandler
import MiniRedis.Service.Invariant

set_option autoImplicit false
set_option relaxedAutoImplicit false

namespace MiniRedis.Server

open MiniRedis.Base MiniRedis.Python MiniRedis.Protocol MiniRedis.Commands MiniRedis.Service
open MiniRedis.Client

/-! ### Results of the service -/

private theorem plain_blobOrNull (value : Option String) : Plain (blobOrNull value) := by
  cases value with
  | none => exact .null
  | some value => exact .blobString value

private theorem plain_blobArray (values : List String) : Plain (blobArray values) := by
  refine .array (fun item member => ?_)
  obtain ⟨value, _, rfl⟩ := List.mem_map.mp member
  exact .blobString value

private theorem plain_hashReply (fields : Dict String String) : Plain (hashReply fields) := by
  have sorted := List.perm_insertionSort (fun a b : String × String => a.1 ≤ b.1) fields.entries
  refine .map ?_ ?_ ?_ ?_
  · intro entry member
    obtain ⟨field, _, rfl⟩ := List.mem_map.mp member
    exact .blobString _
  · intro entry member
    obtain ⟨field, _, rfl⟩ := List.mem_map.mp member
    exact .blobString _
  · intro entry member version
    obtain ⟨field, _, rfl⟩ := List.mem_map.mp member
    rw [content, keyText]
  · rw [List.map_map]
    exact ((sorted.map Prod.fst).nodup_iff).mpr fields.nodup

private theorem plain_onEntry (op : TypedOp) (entry : ValueEntry) : Plain (op.onEntry entry).1 := by
  cases op with
  | get => exact .blobString _
  | hget | zscore => exact plain_blobOrNull _
  | hgetall => exact plain_hashReply _
  | lrange | smembers | zrange => exact plain_blobArray _
  | lpop =>
    simp only [TypedOp.onEntry]
    split
    · exact .null
    · exact .blobString _
  | rpop =>
    simp only [TypedOp.onEntry]
    split
    · exact .null
    · exact .blobString _
  | _ => exact .number _

private theorem plain_absentReply (op : TypedOp) : Plain op.absentReply := by
  cases op with
  | hdel | srem | sismember | zrem => exact .number 0
  | hgetall => exact .map (by simp) (by simp) (by simp) List.nodup_nil
  | lrange | smembers | zrange => exact .array (by simp)
  | _ => exact .null

/-- Whatever is raised is a command error with one of the messages. -/
def Refuses {α : Type} (messages : List String) (outcome : Except PyException α) : Prop :=
  ∀ e, outcome = .error e → ∃ message ∈ messages, e = .commandError message

namespace Refuses

variable {α β : Type} {messages : List String}

theorem of_ok (a : α) : Refuses messages (.ok a : Except PyException α) :=
  (fun _ h => by cases h)

theorem of_reject {message : String} (listed : message ∈ messages) :
    Refuses messages (reject message : Except PyException α) := by
  intro _ h
  cases h
  exact ⟨message, listed, rfl⟩

theorem bind {x : Except PyException α} {f : α → Except PyException β} (hx : Refuses messages x)
    (hf : ∀ a, x = .ok a → Refuses messages (f a)) : Refuses messages (x >>= f) := by
  cases x with
  | error e =>
    intro e' h
    have same : e = e' := Except.error.inj h
    exact hx e' (by rw [same])
  | ok a => exact hf a rfl

theorem ite {p : Prop} [Decidable p] {message : String} (listed : message ∈ messages)
    {other : Except PyException α} (h : ¬ p → Refuses messages other) :
    Refuses messages (if p then reject message else other) := by
  split
  · exact .of_reject listed
  · exact h ‹_›

end Refuses

/-- An outcome that is answered with a reply, if it is answered. -/
def ReplyOutcome (outcome : Except PyException RespValue) : Prop :=
  (∀ value, outcome = .ok value → Plain value) ∧
    ∀ message, outcome = .error (.commandError message) → message ∈ commandErrors

private theorem ReplyOutcome.of_plain {value : RespValue} (plain : Plain value) :
    ReplyOutcome (.ok value) := by
  constructor
  · intro _ h
    cases h
    exact plain
  · intro _ h
    cases h

private theorem ReplyOutcome.of_error {e : PyException}
    (listed : ∀ message, e = .commandError message → message ∈ commandErrors) :
    ReplyOutcome (.error e) := by
  constructor
  · intro _ h
    cases h
  · intro message h
    exact listed message (Except.error.inj h)

private theorem ReplyOutcome.of_reject {message : String} (listed : message ∈ commandErrors) :
    ReplyOutcome (reject message) :=
  .of_error (fun _ h => by cases h; exact listed)

private theorem replyOutcome_performTyped (key : String) (op : TypedOp) (s : CommandService) :
    ReplyOutcome (performTyped key op s).1 := by
  unfold performTyped
  dsimp only
  split
  · split
    · exact .of_plain (plain_absentReply op)
    · exact .of_plain (plain_onEntry op _)
  · split
    · exact .of_reject (by decide)
    · exact .of_plain (plain_onEntry op _)

private theorem perform_ttl_reply (key : String) (s : CommandService) :
    ReplyOutcome (perform (.ttl key) s).1 := by
  rw [perform_ttl]
  split
  · exact .of_plain (.number _)
  · split
    · exact .of_plain (.number _)
    · rename_i expiresAt _
      cases expiresAt with
      | nan => exact .of_error (fun _ h => by cases h)
      | inf => exact .of_error (fun _ h => by cases h)
      | finite => exact .of_plain (.number _)

private theorem perform_reply {command : Command} {op : Operation} (denotes : Denotes command op)
    (s : CommandService) : ReplyOutcome (perform op s).1 := by
  cases denotes with
  | auth | hello | infoOther | configOther => exact .of_reject (by decide)
  | ping | select | client | set | flushdb | configSet => exact .of_plain (.simpleString (by decide))
  | pingMessage | info | infoSection => exact .of_plain (.blobString _)
  | del | dbsize | expire => exact .of_plain (.number _)
  | ttl key => exact perform_ttl_reply key s
  | configGet =>
    refine .of_plain (.array ?_)
    simp only [List.mem_cons, List.not_mem_nil, or_false, forall_eq_or_imp, forall_eq]
    exact ⟨.blobString _, .blobString _⟩
  | typed key denotes => exact replyOutcome_performTyped key _ s

/-! ### Refusals before the service -/

private theorem refuses_argument {arguments : List String} {i : ℕ} (within : i < arguments.length) :
    Refuses commandErrors (argument arguments i) := by
  rw [argument, List.getElem?_eq_getElem within]
  exact .of_ok _

private theorem refuses_integer (text : String) : Refuses commandErrors (validateIntegerArgument text) := by
  unfold validateIntegerArgument
  split
  · exact .of_ok _
  · exact .of_reject (by decide)

private theorem refuses_float (text : String) : Refuses commandErrors (validateFloatArgument text) := by
  unfold validateFloatArgument
  split
  · exact .of_ok _
  · exact .of_reject (by decide)

private theorem refuses_arity (command : Command) : Refuses commandErrors (validateArity command) := by
  unfold validateArity
  split
  · exact .of_reject (by decide)
  · exact .ite (by decide) (fun _ => .of_ok _)
  · exact .ite (by decide) (fun _ => .of_ok _)

private theorem refuses_scores (scores : List String) : Refuses commandErrors (validateScores scores) := by
  fun_induction validateScores scores with
  | case1 score member rest ih => exact (refuses_float score).bind (fun _ _ => ih)
  | case2 score => exact (refuses_float score).bind (fun _ _ => .of_ok _)
  | case3 => exact .of_ok _

private theorem refuses_config {arguments : List String} (enough : 2 ≤ arguments.length) :
    Refuses commandErrors (validateConfig arguments) := by
  refine (refuses_argument (by omega)).bind (fun subcommand _ => ?_)
  dsimp only
  split
  · exact .ite (by decide) (fun _ => .of_ok _)
  · split
    · refine .ite (by decide) (fun length => ?_)
      refine (refuses_argument (by omega)).bind (fun text _ => (refuses_integer text).bind ?_)
      exact fun value _ => .ite (by decide) (fun _ => .of_ok _)
    · exact .of_reject (by decide)

private theorem refuses_client {arguments : List String} (enough : 1 ≤ arguments.length) :
    Refuses commandErrors (validateClient arguments) := by
  refine (refuses_argument (by omega)).bind (fun subcommand _ => ?_)
  dsimp only
  split
  · exact .ite (by decide) (fun _ => .of_ok _)
  · split
    · exact .ite (by decide) (fun _ => .of_ok _)
    · split
      · exact .ite (by decide) (fun _ => .of_ok _)
      · exact .of_reject (by decide)

private theorem refuses_range {arguments : List String} (length : arguments.length = 3) :
    Refuses commandErrors (do
      let _ ← validateIntegerArgument (← argument arguments 1)
      let _ ← validateIntegerArgument (← argument arguments 2)) := by
  refine (refuses_argument (by omega)).bind (fun start _ => ?_)
  refine (refuses_integer start).bind (fun _ _ => ?_)
  refine (refuses_argument (by omega)).bind (fun stop _ => ?_)
  exact (refuses_integer stop).bind (fun _ _ => .of_ok _)

theorem arity_of_ok {command : Command} (checked : validateArity command = .ok ()) :
    (∀ arity, SUPPORTED_ARITY.lookup command.name = some arity →
      command.arguments.length = arity) ∧
    ∀ arity, SUPPORTED_ARITY.lookup command.name = none →
      MIN_ARITY.lookup command.name = some arity → arity ≤ command.arguments.length := by
  unfold validateArity at checked
  split at checked
  · cases checked
  · rename_i arity listed
    split at checked
    · cases checked
    · rename_i length
      simp only [listed, Option.some.injEq, reduceCtorEq, false_imp_iff, implies_true, and_true]
      rintro _ rfl
      simpa using length
  · rename_i arity unlisted listed
    split at checked
    · cases checked
    · rename_i length
      simp only [listed, unlisted, Option.some.injEq, reduceCtorEq, false_imp_iff, implies_true,
        true_and]
      rintro _ - rfl
      omega

private theorem refuses_validate (command : Command) : Refuses commandErrors (validate command) := by
  refine (refuses_arity command).bind (fun _ checked => ?_)
  obtain ⟨exactly, least⟩ := arity_of_ok checked
  split
  · rename_i name
    have length := exactly 1 (by rw [name]; rfl)
    refine (refuses_argument (by omega)).bind (fun text _ => ?_)
    exact (refuses_integer text).bind (fun _ _ => .of_ok _)
  · rename_i name
    have length := exactly 2 (by rw [name]; rfl)
    refine (refuses_argument (by omega)).bind (fun text _ => ?_)
    exact (refuses_float text).bind (fun _ _ => .ite (by decide) (fun _ => .of_ok _))
  · rename_i name
    have length := exactly 1 (by rw [name]; rfl)
    refine (refuses_argument (by omega)).bind (fun text _ => ?_)
    exact (refuses_integer text).bind (fun _ _ => .ite (by decide) (fun _ => .of_ok _))
  · rename_i name
    exact refuses_range (exactly 3 (by rw [name]; rfl))
  · rename_i name
    exact refuses_range (exactly 3 (by rw [name]; rfl))
  · exact .ite (by decide) (fun _ => refuses_scores _)
  · exact .ite (by decide) (fun _ => .of_ok _)
  · exact .ite (by decide) (fun _ => .of_ok _)
  · rename_i name
    exact refuses_config (least 2 (by rw [name]; rfl) (by rw [name]; rfl))
  · rename_i name
    exact refuses_client (least 1 (by rw [name]; rfl) (by rw [name]; rfl))
  · exact .of_ok _

private theorem protocolError_mem : ERR_PROTOCOL_ERROR ∈ errorTexts := List.mem_cons_self

private theorem refuses_coerceToken (item : RespValue) : Refuses errorTexts (coerceToken item) := by
  cases item with
  | blobString | simpleString | number => exact .of_ok _
  | _ => exact .of_reject protocolError_mem

private theorem refuses_mapM (items : List RespValue) :
    Refuses errorTexts (items.mapM coerceToken) := by
  induction items with
  | nil => exact .of_ok _
  | cons item items ih =>
    rw [List.mapM_cons]
    exact (refuses_coerceToken item).bind (fun _ _ => ih.bind (fun _ _ => .of_ok _))

theorem refuses_parse (items : List RespValue) : Refuses errorTexts (parse items) := by
  refine .ite (by decide) (fun _ => (refuses_mapM items).bind (fun parts _ => ?_))
  exact .ite (by decide) (fun _ => .of_ok _)

theorem refuses_parse_tokens {items : List RespValue}
    (tokens : ∀ item ∈ items, ∃ text, coerceToken item = .ok text) :
    Refuses commandErrors (parse items) := by
  obtain ⟨parts, read, -⟩ := exists_mapM (fun item member =>
    (tokens item member).imp (fun _ coerced => ⟨coerced, coerced⟩))
  refine .ite (by decide) (fun _ => ?_)
  rw [read]
  exact .ite (by decide) (fun _ => .of_ok _)

private theorem tokens_of_mapM {items : List RespValue} {texts : List String}
    (read : items.mapM coerceToken = .ok texts) :
    texts.length = items.length ∧ ∀ item ∈ items, ∃ text, coerceToken item = .ok text := by
  have each := forall₂_of_mapM read
  have coerced := each.imp (fun item text here => And.intro (Exists.intro text here) here)
  exact ⟨each.length_eq.symm, ((List.forall₂_and_left items texts).mp coerced).1⟩

theorem parse_spec {items : List RespValue} {command : Command}
    (parsed : parse items = .ok command) :
    ∃ item rest text, items = item :: rest ∧ coerceToken item = .ok text ∧
      command.name = upper (strip text) ∧ command.arguments.length = rest.length ∧
      ∀ other ∈ items, ∃ text, coerceToken other = .ok text := by
  unfold parse at parsed
  split at parsed
  · cases parsed
  · rename_i nonempty
    obtain ⟨texts, read, parsed⟩ := exists_ok_of_bind parsed
    obtain ⟨-, tokens⟩ := tokens_of_mapM read
    cases items with
    | nil => exact (nonempty rfl).elim
    | cons item rest =>
      rw [List.mapM_cons] at read
      obtain ⟨text, here, read⟩ := exists_ok_of_bind read
      obtain ⟨more, later, read⟩ := exists_ok_of_bind read
      obtain rfl := Except.ok.inj read
      dsimp only [List.headD_cons, List.tail_cons] at parsed
      split at parsed
      · simp only [reduceCtorEq] at parsed
      · obtain rfl := Except.ok.inj parsed
        exact ⟨item, rest, text, rfl, here, rfl, (tokens_of_mapM later).1, tokens⟩

private theorem toInt_of_valid {text : String} {n : ℤ} (read : validateIntegerArgument text = .ok n) :
    toInt text = .ok n := by
  unfold validateIntegerArgument at read
  rw [toInt]
  cases parsed : parseInt text with
  | none =>
    rw [parsed] at read
    cases read
  | some n =>
    rw [parsed] at read
    exact read

private theorem hello_of_valid {command : Command} (accepted : validate command = .ok ())
    (name : command.name = "HELLO") :
    ∃ text version, argument command.arguments 0 = .ok text ∧ toInt text = .ok version := by
  obtain ⟨_, _, accepted⟩ := exists_ok_of_bind accepted
  rw [name] at accepted
  obtain ⟨text, first, accepted⟩ := exists_ok_of_bind accepted
  obtain ⟨version, read, _⟩ := exists_ok_of_bind accepted
  exact ⟨text, version, first, toInt_of_valid read⟩

/-- The version that a greeting asks for. -/
def helloVersion (command : Command) : Option ℤ :=
  match command.arguments with
  | [text] => if command.name = "HELLO" then parseInt text else none
  | _ => none

private theorem helloVersion_of_valid {command : Command} (accepted : validate command = .ok ())
    (name : command.name = "HELLO") {text : String} {version : ℤ}
    (first : argument command.arguments 0 = .ok text) (read : toInt text = .ok version) :
    helloVersion command = some version := by
  have parsed : parseInt text = some version := by
    rw [toInt] at read
    cases result : parseInt text with
    | none =>
      rw [result] at read
      cases read
    | some n =>
      rw [result] at read
      cases read
      rfl
  obtain ⟨op, denotes⟩ := accepted_denotes accepted
  cases denotes with
  | hello given =>
    obtain rfl : given = text := by simpa [argument] using first
    simp [helloVersion, parsed]
  | typed _ denotesTyped => cases denotesTyped <;> simp at name
  | _ => simp at name

theorem handleItems_cases {items : List RespValue} {messages : List String}
    (parsing : Refuses messages (parse items)) (more : commandErrors ⊆ messages) :
    (∃ message ∈ messages, handleItems items = .error (.commandError message)) ∨
    (∃ command version, parse items = .ok command ∧ helloVersion command = some version ∧
      handleItems items = .ok (.response (helloHandle version) (some version))) ∨
    ∃ command, parse items = .ok command ∧ validate command = .ok () ∧ command.name ≠ "HELLO" ∧
      handleItems items = .ok (.command command) := by
  cases parsed : parse items with
  | error e =>
    obtain ⟨message, listed, rfl⟩ := parsing e parsed
    exact Or.inl ⟨message, listed, by rw [handleItems, parsed, bind_error]⟩
  | ok command =>
    cases accepted : validate command with
    | error e =>
      obtain ⟨message, listed, rfl⟩ := refuses_validate command e accepted
      refine Or.inl ⟨message, more listed, ?_⟩
      rw [handleItems, parsed, bind_ok, accepted, bind_error]
    | ok =>
      right
      by_cases name : command.name = "HELLO"
      · left
        obtain ⟨text, version, first, read⟩ := hello_of_valid accepted name
        refine ⟨command, version, rfl, helloVersion_of_valid accepted name first read, ?_⟩
        rw [handleItems, parsed, bind_ok, accepted, bind_ok, if_pos name, first, bind_ok, read, bind_ok]
        rfl
      · right
        refine ⟨command, rfl, accepted, name, ?_⟩
        rw [handleItems, parsed, bind_ok, accepted, bind_ok, if_neg name]
        rfl

/-! ### Answers -/

/-- The answer to a request that decodes to these items. -/
def answerItems (items : List RespValue) : SessionM RespValue :=
  answerResult (withErrorResponse (handleItems items))

theorem answer_of_decoded {request : Bytes} {items : List RespValue}
    (decodes : decode request = .ok (.array items)) : answer request = answerItems items := by
  rw [answer, answerItems, handleWithErrorResponse, protocolHandle, decodes]
  rfl

theorem answer_of_refused {request : Bytes} {e : PyException} (refused : decode request = .error e) :
    answer request = pure (.simpleError ERR_PROTOCOL_ERROR) := by
  obtain rfl := decode_error refused
  rw [answer, handleWithErrorResponse, protocolHandle, refused]
  rfl

private theorem argument_of_lt (arguments : List String) {i : ℕ} (within : i < arguments.length) :
    ∃ text, argument arguments i = .ok text := by
  rw [argument, List.getElem?_eq_getElem within]
  exact ⟨_, rfl⟩

/-- A command for the service never moves the version, and few commands are remembered at all. -/
structure Remembers (command : Command) (before after : SessionContext) : Prop where
  version : after.protocolVersion = before.protocolVersion
  other : command.name ≠ "SELECT" → command.name ≠ "CLIENT" → after = before

private theorem applySessionState_client {command : Command} (name : command.name = "CLIENT")
    (accepted : validateClient command.arguments = .ok ()) (s : SessionState) :
    ∃ context, Remembers command s.context context ∧
      (applySessionState command).exec s = (.ok ⟨⟩, { s with context }) := by
  obtain ⟨subcommand, first, accepted⟩ := exists_ok_of_bind accepted
  have other : command.name ≠ "SELECT" := by rw [name]; decide
  rw [applySessionState, if_neg other, if_pos name, first, Effect.lift_ok, pure_bind]
  dsimp only at accepted ⊢
  by_cases setname : upper subcommand = "SETNAME"
  · rw [if_pos setname] at accepted ⊢
    have length : command.arguments.length = 2 := by
      by_contra different
      rw [if_pos different] at accepted
      cases accepted
    obtain ⟨clientName, second⟩ := argument_of_lt command.arguments (i := 1) (by omega)
    rw [second]
    refine ⟨_, ?_, rfl⟩
    exact ⟨rfl, fun _ client => (client name).elim⟩
  · rw [if_neg setname] at accepted ⊢
    by_cases setinfo : upper subcommand = "SETINFO"
    · rw [if_pos setinfo] at accepted ⊢
      have length : command.arguments.length = 3 := by
        by_contra different
        rw [if_pos different] at accepted
        cases accepted
      obtain ⟨key, second⟩ := argument_of_lt command.arguments (i := 1) (by omega)
      obtain ⟨value, third⟩ := argument_of_lt command.arguments (i := 2) (by omega)
      rw [second, third]
      refine ⟨_, ?_, rfl⟩
      exact ⟨rfl, fun _ client => (client name).elim⟩
    · rw [if_neg setinfo]
      exact ⟨_, ⟨rfl, fun _ _ => rfl⟩, rfl⟩

private theorem applySessionState_ok {command : Command} (accepted : validate command = .ok ())
    (s : SessionState) :
    ∃ context, Remembers command s.context context ∧
      (applySessionState command).exec s = (.ok ⟨⟩, { s with context }) := by
  obtain ⟨_, _, accepted⟩ := exists_ok_of_bind accepted
  by_cases client : command.name = "CLIENT"
  · rw [client] at accepted
    exact applySessionState_client client accepted s
  · by_cases select : command.name = "SELECT"
    · rw [select] at accepted
      obtain ⟨text, first, accepted⟩ := exists_ok_of_bind accepted
      obtain ⟨n, read, _⟩ := exists_ok_of_bind accepted
      rw [applySessionState, if_pos select, first, Effect.lift_ok, pure_bind, toInt_of_valid read]
      refine ⟨_, ?_, rfl⟩
      exact ⟨rfl, fun other => (other select).elim⟩
    · rw [applySessionState, if_neg select, if_neg client]
      exact ⟨_, ⟨rfl, fun _ _ => rfl⟩, rfl⟩

theorem answerItems_command {items : List RespValue} {command : Command}
    (parsed : parse items = .ok command) (accepted : validate command = .ok ())
    (name : command.name ≠ "HELLO") : answerItems items = answerResult (.ok (.command command)) := by
  rw [answerItems, handleItems, parsed, bind_ok, accepted, bind_ok, if_neg name]
  rfl

theorem exec_answer_command {command : Command} (accepted : validate command = .ok ())
    (s : SessionState) :
    let outcome := (execute command).exec s.service
    (∃ value context, Remembers command s.context context ∧
      (outcome.1 = .ok value ∨
        ∃ message, outcome.1 = .error (.commandError message) ∧ value = .simpleError message) ∧
      (answerResult (.ok (.command command))).exec s = (.ok value, ⟨outcome.2, context⟩)) ∨
    ∃ e, e.isCommandError = false ∧ outcome.1 = .error e ∧
      (answerResult (.ok (.command command))).exec s = (.error e, ⟨outcome.2, s.context⟩) := by
  intro outcome
  obtain ⟨context, remembers, applied⟩ := applySessionState_ok accepted ⟨outcome.2, s.context⟩
  have answered : ∀ value,
      (executeCommand command).exec s = (.ok value, ⟨outcome.2, s.context⟩) →
      (answerResult (.ok (.command command))).exec s = (.ok value, ⟨outcome.2, context⟩) := by
    intro value executed
    rw [answerResult, Effect.lift_ok, pure_bind]
    simp only
    rw [Effect.exec_bind_of_ok executed, Effect.exec_bind_of_ok applied, Effect.exec_pure]
  cases result : outcome.1 with
  | ok value =>
    refine Or.inl ⟨value, context, remembers, Or.inl rfl, answered value ?_⟩
    rw [executeCommand, Effect.exec_bind, Effect.exec_modifyGet]
    simp only [show ((execute command).exec s.service).1 = _ from result]
    rfl
  | error e =>
    cases e with
    | commandError message =>
      refine Or.inl ⟨_, context, remembers, Or.inr ⟨message, rfl, rfl⟩, answered _ ?_⟩
      rw [executeCommand, Effect.exec_bind, Effect.exec_modifyGet]
      simp only [show ((execute command).exec s.service).1 = _ from result]
      rfl
    | indexError | valueError | overflowError | recursionError =>
      refine Or.inr ⟨_, rfl, rfl, ?_⟩
      rw [answerResult, Effect.lift_ok, pure_bind]
      apply Effect.exec_bind_of_error
      rw [executeCommand, Effect.exec_bind, Effect.exec_modifyGet]
      simp only [show ((execute command).exec s.service).1 = _ from result]
      rfl

/-- What a session does with the items of a request. -/
theorem answerItems_cases {items : List RespValue} {messages : List String}
    (parsing : Refuses messages (parse items)) (more : commandErrors ⊆ messages)
    (s : SessionState) :
    (∃ message ∈ messages, (answerItems items).exec s = (.ok (.simpleError message), s)) ∨
    (∃ command version, parse items = .ok command ∧ helloVersion command = some version ∧
      (answerItems items).exec s =
        (.ok (helloHandle version), { s with
          context := { s.context with protocolVersion := version } })) ∨
    ∃ command, parse items = .ok command ∧ validate command = .ok () ∧ command.name ≠ "HELLO" ∧
      ((∃ value context, Remembers command s.context context ∧
        (((execute command).exec s.service).1 = .ok value ∨ ∃ message,
          ((execute command).exec s.service).1 = .error (.commandError message) ∧
            value = .simpleError message) ∧
        (answerItems items).exec s =
          (.ok value, ⟨((execute command).exec s.service).2, context⟩)) ∨
      ∃ e, e.isCommandError = false ∧ ((execute command).exec s.service).1 = .error e ∧
        (answerItems items).exec s =
          (.error e, ⟨((execute command).exec s.service).2, s.context⟩)) := by
  rcases handleItems_cases parsing more with
    ⟨message, listed, h⟩ | ⟨command, version, parsed, hello, h⟩ |
      ⟨command, parsed, accepted, name, h⟩
  · exact Or.inl ⟨message, listed, by rw [answerItems, h]; rfl⟩
  · exact Or.inr (Or.inl ⟨command, version, parsed, hello, by rw [answerItems, h]; rfl⟩)
  · refine Or.inr (Or.inr ⟨command, parsed, accepted, name, ?_⟩)
    rw [answerItems, h]
    exact exec_answer_command accepted s

private theorem helloHandle_reply (version : ℤ) :
    Plain (helloHandle version) ∨
      ∃ message ∈ commandErrors, helloHandle version = .simpleError message := by
  unfold helloHandle
  split
  · exact Or.inr ⟨_, by decide, rfl⟩
  · have distinct : ["server", "version", "proto"].Nodup := by decide
    refine Or.inl (.map ?_ ?_ ?_ distinct)
    · simp only [List.forall_mem_cons]
      exact ⟨.simpleString (by decide), .simpleString (by decide), .simpleString (by decide), by simp⟩
    · simp only [List.forall_mem_cons]
      exact ⟨.simpleString (by decide), .simpleString (by decide), .number version, by simp⟩
    · simp [content, keyText]

theorem answerItems_reply {items : List RespValue} {messages : List String}
    (parsing : Refuses messages (parse items)) (more : commandErrors ⊆ messages)
    {s s' : SessionState} {value : RespValue}
    (answered : (answerItems items).exec s = (.ok value, s')) :
    Plain value ∨ ∃ message ∈ messages, value = .simpleError message := by
  rcases answerItems_cases parsing more s with
    ⟨message, listed, h⟩ | ⟨_, version, _, _, h⟩ |
      ⟨command, _, accepted, _, ⟨_, _, _, result, h⟩ | ⟨e, _, _, h⟩⟩
  · rw [h] at answered
    cases answered
    exact Or.inr ⟨message, listed, rfl⟩
  · rw [h] at answered
    cases answered
    rcases helloHandle_reply version with plain | ⟨message, listed, same⟩
    · exact Or.inl plain
    · exact Or.inr ⟨message, more listed, same⟩
  · rw [h] at answered
    cases answered
    obtain ⟨op, denotes⟩ := accepted_denotes accepted
    obtain ⟨plain, listed⟩ := perform_reply denotes s.service
    rw [execute_denotes denotes] at result
    rcases result with result | ⟨message, result, rfl⟩
    · exact Or.inl (plain value result)
    · exact Or.inr ⟨message, more (listed message result), rfl⟩
  · rw [h] at answered
    cases answered

/-- Whatever a session answers is a reply. -/
theorem reply_of_answer {request : Bytes} {s s' : SessionState} {value : RespValue}
    (answered : (answer request).exec s = (.ok value, s')) : Reply value := by
  cases decodes : decode request with
  | error e =>
    rw [answer_of_refused decodes] at answered
    cases answered
    exact Or.inr ⟨_, protocolError_mem, rfl⟩
  | ok decoded =>
    obtain ⟨items, rfl⟩ := decode_array decodes
    rw [answer_of_decoded decodes] at answered
    exact answerItems_reply (refuses_parse items) (List.subset_cons_self _ _) answered

theorem exec_encoded {x : SessionM RespValue} {s s' : SessionState} {value : RespValue}
    (run : x.exec s = (.ok value, s')) :
    (encoded x).exec s = (.ok (encode s'.context.protocolVersion value), s') := by
  rw [encoded, Effect.exec_bind_of_ok run, Effect.exec_bind_of_ok (Effect.exec_get s'),
    Effect.exec_pure]

theorem exec_encoded_error {x : SessionM RespValue} {s s' : SessionState} {e : PyException}
    (run : x.exec s = (.error e, s')) : (encoded x).exec s = (.error e, s') := by
  rw [encoded, Effect.exec_bind_of_error run]

/-- A session sends its answer in its version, and in every version each client takes exactly the
bytes of an answer, whatever follows, and gets what it says. All its lines are texts of the server,
so what clients supplied stands in blobs. -/
theorem answers_read_back {s s' : SessionState} {request : Bytes} {value : RespValue}
    (answered : (answer request).exec s = (.ok value, s')) (readable : Readable value) :
    (processRequest request).exec s = (.ok (encode s'.context.protocolVersion value), s') ∧
    Reply value ∧
    ∀ (version : ℤ) (rest : Bytes),
      Cli.response.exec (encode version value ++ rest) = (Cli.outcome version value, rest) ∧
      ∀ ready, ∃ ready',
        Benchmark.response.exec ⟨encode version value ++ rest, ready⟩ =
          (Benchmark.outcome version value, ⟨rest, ready'⟩) := by
  have reply := reply_of_answer answered
  refine ⟨?_, reply, fun version rest => ?_⟩
  · exact exec_encoded answered
  · obtain ⟨cli, benchmark⟩ := reply.consumed readable version
    constructor
    · obtain ⟨stream, read, rfl⟩ := cli (encode version value ++ rest) rest rfl
      exact read
    · intro ready
      obtain ⟨⟨pending, ready'⟩, read, rfl⟩ := benchmark ⟨encode version value ++ rest, ready⟩ rest rfl
      exact ⟨ready', read⟩

private theorem echo_answered :
    (answer (Cli.buildCommandFrame "PING" ["a\r\n-b"])).exec ⟨CommandService.init (fun _ => 0) none, {}⟩ =
      (.ok (.blobString "a\r\n-b"), ⟨CommandService.init (fun _ => 0) none, {}⟩) := by
  have decodes := decode_of_ascii ["PING", "a\r\n-b"] (by decide +kernel) (by decide +kernel)
  have parsed : parse (["PING", "a\r\n-b"].map .blobString) = .ok ⟨"PING", ["a\r\n-b"]⟩ := by
    decide +kernel
  have accepted : validate ⟨"PING", ["a\r\n-b"]⟩ = .ok () := by decide +kernel
  have handled : handleItems (["PING", "a\r\n-b"].map .blobString) =
      .ok (.command ⟨"PING", ["a\r\n-b"]⟩) := by
    rw [handleItems, parsed, bind_ok, accepted, bind_ok, if_neg (by decide)]
    rfl
  rw [Cli.buildCommandFrame]
  exact (congrArg (fun x => Effect.exec x _) (answer_of_decoded decodes)).trans
    (by rw [answerItems, handled]; rfl)

theorem echo_read_back :
    Cli.response.exec (encode 2 (.blobString "a\r\n-b") ++ [42]) =
      (.ok ⟨.blobString, .text "a\r\n-b"⟩, [42]) :=
  ((answers_read_back echo_answered (.blobString (by decide +kernel))).2.2 2 [42]).1

end MiniRedis.Server
