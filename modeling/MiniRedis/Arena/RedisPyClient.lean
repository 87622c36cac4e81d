/- GID: MiniRedis/Arena/RedisPyClient
   generality: I
   digest: The cache client that asks the server, command by command, beside the one in memory. -/

import MiniRedis.Arena.RedisClient
import MiniRedis.Python.Decimal
import MiniRedis.Python.Lines
import MiniRedis.Server.SessionHandler
import MiniRedis.Service.Operation

set_option autoImplicit false
set_option relaxedAutoImplicit false

namespace MiniRedis.Arena

open MiniRedis.Base MiniRedis.Python MiniRedis.Protocol MiniRedis.Commands MiniRedis.Service

/-! ### Texts of numbers -/

/-- A float with the text that `str` writes for it, which reads back as the float. -/
structure WrittenFloat where
  value : PyFloat
  text : String
  reads : parseFloat text = some value

/-- `str(n)`, which raises `ValueError` past the digits that `int` reads. -/
def strInt (n : ℤ) : Except String String :=
  if n.natAbs < readableBound then .ok (toString n)
  else .error "Exceeds the limit (4300 digits) for integer string conversion"

/-! ### The report on memory -/

/-- One round of the loop of `_parse_info`. -/
def parseInfoLine (info : Dict String ℤ) (line : String) : Dict String ℤ :=
  if line = "" ∨ line.toList.head? = some '#' ∨ ':' ∉ line.toList then info
  else
    match parseInt (String.ofList ((line.toList.dropWhile (· != ':')).drop 1)) with
    | some value => info.set (String.ofList (line.toList.takeWhile (· != ':'))) value
    | none => info

/-- `_parse_info` of a text. -/
def parseInfo (raw : String) : Dict String ℤ :=
  ((splitlines raw.toList).map String.ofList).foldl parseInfoLine Dict.empty

/-! ### The report read back -/

private theorem plain_of_all {text : List Char}
    (plain : text.all (fun c => !isLineBoundary c) = true) :
    ∀ c ∈ text, isLineBoundary c = false := by
  simpa using plain

private def figureLine (name : String) (figure : ℕ) : List Char :=
  name.toList ++ ':' :: (toString figure).toList

private theorem figureLine_plain {name : String} (plain : ∀ c ∈ name.toList, isLineBoundary c = false)
    (figure : ℕ) : ∀ c ∈ figureLine name figure, isLineBoundary c = false := by
  intro c member
  rcases List.mem_append.mp member with named | rest
  · exact plain c named
  · rcases List.mem_cons.mp rest with rfl | digit
    · decide
    · rw [← toString_natCast] at digit
      have low := (isAscii_iff _).mp (isAscii_toString figure) c digit
      have high := toNat_ge_of_mem_toString digit
      simp only [isLineBoundary, decide_eq_false_iff_not, List.mem_cons, List.not_mem_nil, or_false]
      omega

private theorem parseInfoLine_figureLine {name : String} {figure : ℕ} (info : Dict String ℤ)
    (named : name.toList.all (fun c => c != ':') = true) (first : name.toList.head? ≠ some '#')
    (nonempty : name.toList ≠ []) (small : figure < readableBound) :
    parseInfoLine info (String.ofList (figureLine name figure)) = info.set name (figure : ℤ) := by
  have text : (String.ofList (figureLine name figure)).toList =
      name.toList ++ ':' :: (toString figure).toList := String.toList_ofList
  have head : (name.toList ++ ':' :: (toString figure).toList).head? ≠ some '#' := by
    cases shape : name.toList with
    | nil => exact (nonempty shape).elim
    | cons c rest =>
      rw [shape] at first
      exact first
  have before : (name.toList ++ ':' :: (toString figure).toList).takeWhile (· != ':') =
      name.toList := by
    rw [List.takeWhile_append_of_pos (List.all_eq_true.mp named), List.takeWhile_cons]
    simp
  have after : (name.toList ++ ':' :: (toString figure).toList).dropWhile (· != ':') =
      ':' :: (toString figure).toList := by
    rw [List.dropWhile_append_of_pos (List.all_eq_true.mp named), List.dropWhile_cons]
    simp
  have read : parseInt (toString (figure : ℤ)) = some (figure : ℤ) :=
    parseInt_toString (by rwa [Int.natAbs_natCast])
  rw [toString_natCast] at read
  have some_text : String.ofList (figureLine name figure) ≠ "" := by
    intro empty
    have nothing := congrArg String.toList empty
    rw [text] at nothing
    simp at nothing
  rw [parseInfoLine, if_neg, text, before, after]
  · rw [List.drop_one, List.tail_cons, String.ofList_toList, String.ofList_toList, read]
  · rw [text]
    rintro (empty | sharp | missing)
    · exact some_text empty
    · exact head sharp
    · exact missing (by simp)

private theorem toList_infoText (s : CommandService) :
    (infoText s).toList =
      "# Memory".toList ++ '\r' :: '\n' :: (figureLine "used_memory" (currentMemoryBytes s) ++
        '\r' :: '\n' :: (figureLine "maxmemory" (maxMemoryOrZero s) ++
        '\r' :: '\n' :: (figureLine "keys" s.store.keys.length ++
        '\r' :: '\n' :: figureLine "evicted_keys" s.evictedKeys))) := by
  have first : "# Memory\r\nused_memory:".toList =
      "# Memory".toList ++ '\r' :: '\n' :: ("used_memory".toList ++ [':']) := by decide +kernel
  have second : "\r\nmaxmemory:".toList =
      '\r' :: '\n' :: ("maxmemory".toList ++ [':']) := by decide +kernel
  have third : "\r\nkeys:".toList = '\r' :: '\n' :: ("keys".toList ++ [':']) := by decide +kernel
  have fourth : "\r\nevicted_keys:".toList =
      '\r' :: '\n' :: ("evicted_keys".toList ++ [':']) := by decide +kernel
  unfold infoText figureLine
  rw [String.toList_append, String.toList_append, String.toList_append, String.toList_append,
    String.toList_append, String.toList_append, String.toList_append, first, second, third, fourth]
  simp only [List.append_assoc, List.cons_append, List.nil_append]

/-- The client reads the figures of the server's report, as long as they have a text. -/
theorem parseInfo_infoText {s : CommandService} (used : currentMemoryBytes s < readableBound)
    (limit : maxMemoryOrZero s < readableBound) (keys : s.store.keys.length < readableBound)
    (evicted : s.evictedKeys < readableBound) :
    parseInfo (infoText s) = InMemoryMiniRedisClient.memoryReport (currentMemoryBytes s)
      (maxMemoryOrZero s) s.store.keys.length s.evictedKeys := by
  have title : parseInfoLine Dict.empty (String.ofList "# Memory".toList) = Dict.empty := by
    decide +kernel
  rw [parseInfo, toList_infoText,
    splitlines_append_crlf (plain_of_all (by decide +kernel)),
    splitlines_append_crlf (figureLine_plain (plain_of_all (by decide +kernel)) _),
    splitlines_append_crlf (figureLine_plain (plain_of_all (by decide +kernel)) _),
    splitlines_append_crlf (figureLine_plain (plain_of_all (by decide +kernel)) _),
    splitlines_last (figureLine_plain (plain_of_all (by decide +kernel)) _) (by simp [figureLine])]
  simp only [List.map_cons, List.map_nil, List.foldl_cons, List.foldl_nil, title]
  rw [parseInfoLine_figureLine _ (by decide +kernel) (by decide +kernel) (by decide +kernel) used,
    parseInfoLine_figureLine _ (by decide +kernel) (by decide +kernel) (by decide +kernel) limit,
    parseInfoLine_figureLine _ (by decide +kernel) (by decide +kernel) (by decide +kernel) keys,
    parseInfoLine_figureLine _ (by decide +kernel) (by decide +kernel) (by decide +kernel) evicted]
  rfl

/-! ### `RedisPyMiniRedisClient` -/

/-- A call of redis-py on the service; an exception is its text. -/
abbrev RedisPyM := Effect CommandService String

namespace RedisPyMiniRedisClient

/-- What redis-py raises where the session ends without a reply. -/
def CONNECTION_CLOSED : String := "Connection closed by server."

/-- One command of redis-py, which transmits it and the reply faithfully: an error reply is
raised with its message. -/
def executeCommand (tokens : List String) : RedisPyM RespValue := do
  let items := tokens.map RespValue.blobString
  let outcome ← modifyGet (fun s : CommandService =>
    let (outcome, session) := (Server.answerResult (Server.withErrorResponse
      (Server.handleItems items))).exec { service := s }
    (outcome, session.service))
  match outcome with
  | .ok (.simpleError message) => throw message
  | .ok value => pure value
  | .error _ => throw CONNECTION_CLOSED

/-- A text, or `None`. -/
def textOf : RespValue → Option String
  | .blobString value => some value
  | .simpleString value => some value
  | _ => none

def numberOf : RespValue → ℤ
  | .number value => value
  | _ => 0

/-- The dictionary of a map of texts. -/
def dictOf : RespValue → Dict String String
  | .map entries =>
    entries.foldl (fun fields entry =>
      fields.set ((textOf entry.1).getD "") ((textOf entry.2).getD "")) Dict.empty
  | _ => Dict.empty

def set (key value : String) : RedisPyM Unit := do
  let _ ← executeCommand ["SET", key, value]

def get (key : String) : RedisPyM (Option String) := return textOf (← executeCommand ["GET", key])

def hset (key fieldName value : String) : RedisPyM Unit := do
  let _ ← executeCommand ["HSET", key, fieldName, value]

def hget (key fieldName : String) : RedisPyM (Option String) :=
  return textOf (← executeCommand ["HGET", key, fieldName])

def hgetall (key : String) : RedisPyM (Option (Dict String String)) := do
  let result := dictOf (← executeCommand ["HGETALL", key])
  return if result.entries = [] then none else some result

def delete (key : String) : RedisPyM Bool := return numberOf (← executeCommand ["DEL", key]) ≠ 0

def expire (key : String) (ttlSeconds : WrittenFloat) : RedisPyM Bool :=
  return numberOf (← executeCommand ["EXPIRE", key, ttlSeconds.text]) ≠ 0

def ttl (key : String) : RedisPyM (Option ℤ) := do
  let result := numberOf (← executeCommand ["TTL", key])
  return if result < 0 then none else some result

def flushdb : RedisPyM Unit := do
  let _ ← executeCommand ["FLUSHDB"]

def dbsize : RedisPyM ℤ := return numberOf (← executeCommand ["DBSIZE"])

def infoMemory : RedisPyM (Dict String ℤ) :=
  return parseInfo ((textOf (← executeCommand ["INFO", "MEMORY"])).getD "")

def configSetMaxmemory (maxMemoryBytes : ℤ) : RedisPyM Unit := do
  let value ← strInt (max 0 maxMemoryBytes)
  let _ ← executeCommand ["CONFIG", "SET", "maxmemory", value]

end RedisPyMiniRedisClient

/-! ### Calls of either client -/

inductive ClientCall where
  | set (key value : String)
  | get (key : String)
  | hset (key fieldName value : String)
  | hget (key fieldName : String)
  | hgetall (key : String)
  | delete (key : String)
  | expire (key : String) (ttlSeconds : WrittenFloat)
  | ttl (key : String)
  | flushdb
  | dbsize
  | infoMemory
  | configSetMaxmemory (maxMemoryBytes : ℤ)

inductive ClientReply where
  | done
  | text (value : Option String)
  | fields (value : Option (Dict String String))
  | flag (value : Bool)
  | seconds (value : Option ℤ)
  | count (value : ℤ)
  | report (figures : Dict String ℤ)
  deriving DecidableEq

namespace ClientCall

def onInMemory : ClientCall → ClientM ClientReply
  | .set key value => do
    MiniRedisClient.set key value
    return .done
  | .get key => return .text (← MiniRedisClient.get key)
  | .hset key fieldName value => do
    MiniRedisClient.hset key fieldName value
    return .done
  | .hget key fieldName => return .text (← MiniRedisClient.hget key fieldName)
  | .hgetall key => return .fields (← MiniRedisClient.hgetall key)
  | .delete key => return .flag (← MiniRedisClient.delete key)
  | .expire key ttlSeconds => return .flag (← MiniRedisClient.expire key ttlSeconds.value)
  | .ttl key => return .seconds (← MiniRedisClient.ttl key)
  | .flushdb => do
    MiniRedisClient.flushdb
    return .done
  | .dbsize => return .count (← MiniRedisClient.dbsize)
  | .infoMemory => return .report (← MiniRedisClient.infoMemory)
  | .configSetMaxmemory maxMemoryBytes => do
    MiniRedisClient.configSetMaxmemory maxMemoryBytes
    return .done

def onRedisPy : ClientCall → RedisPyM ClientReply
  | .set key value => do
    RedisPyMiniRedisClient.set key value
    return .done
  | .get key => return .text (← RedisPyMiniRedisClient.get key)
  | .hset key fieldName value => do
    RedisPyMiniRedisClient.hset key fieldName value
    return .done
  | .hget key fieldName => return .text (← RedisPyMiniRedisClient.hget key fieldName)
  | .hgetall key => return .fields (← RedisPyMiniRedisClient.hgetall key)
  | .delete key => return .flag (← RedisPyMiniRedisClient.delete key)
  | .expire key ttlSeconds => return .flag (← RedisPyMiniRedisClient.expire key ttlSeconds)
  | .ttl key => return .seconds (← RedisPyMiniRedisClient.ttl key)
  | .flushdb => do
    RedisPyMiniRedisClient.flushdb
    return .done
  | .dbsize => return .count (← RedisPyMiniRedisClient.dbsize)
  | .infoMemory => return .report (← RedisPyMiniRedisClient.infoMemory)
  | .configSetMaxmemory maxMemoryBytes => do
    RedisPyMiniRedisClient.configSetMaxmemory maxMemoryBytes
    return .done

end ClientCall

/-! ### What a command of redis-py does -/

/-- The outcome of a command as redis-py hands it on. -/
def readOutcome : Except PyException RespValue → Except String RespValue
  | .ok (.simpleError message) => .error message
  | .ok value => .ok value
  | .error (.commandError message) => .error message
  | .error _ => .error RedisPyMiniRedisClient.CONNECTION_CLOSED

private theorem mapM_coerceToken (tokens : List String) :
    (tokens.map RespValue.blobString).mapM coerceToken = .ok tokens := by
  induction tokens with
  | nil => rfl
  | cons token tokens ih => rw [List.map_cons, List.mapM_cons, ih]; rfl

theorem exec_executeCommand {name : String} {arguments : List String} {op : Operation}
    (stripped : strip name = name) (uppercase : upper name = name)
    (data : name ∉ ["", "HELLO", "SELECT", "CLIENT"]) (valid : validate ⟨name, arguments⟩ = .ok ())
    (denotes : Denotes ⟨name, arguments⟩ op) (s : CommandService) :
    (RedisPyMiniRedisClient.executeCommand (name :: arguments)).exec s =
      (readOutcome (perform op s).1, (perform op s).2) := by
  simp only [List.mem_cons, List.not_mem_nil, or_false, not_or] at data
  have parsed : parse ((name :: arguments).map RespValue.blobString) = .ok ⟨name, arguments⟩ := by
    rw [parse, if_neg (by simp), mapM_coerceToken, bind_ok]
    simp only [List.headD_cons, List.tail_cons, stripped, uppercase, if_neg data.1]
  have handled : Server.handleItems ((name :: arguments).map RespValue.blobString) =
      .ok (.command ⟨name, arguments⟩) := by
    rw [Server.handleItems, parsed, bind_ok, valid, bind_ok, if_neg data.2.1]
    rfl
  have session : ∀ state : Server.SessionState,
      (Server.applySessionState ⟨name, arguments⟩).exec state = (.ok ⟨⟩, state) := by
    intro state
    rw [Server.applySessionState, if_neg data.2.2.1, if_neg data.2.2.2]
    rfl
  have run := execute_denotes denotes s
  rw [RedisPyMiniRedisClient.executeCommand]
  simp only [handled, Server.withErrorResponse, Server.answerResult, Server.executeCommand,
    Effect.exec_bind, Effect.exec_modifyGet, Effect.lift_ok, Effect.exec_pure, run]
  generalize perform op s = result
  obtain ⟨outcome, s'⟩ := result
  cases outcome with
  | ok value =>
    simp only [Effect.exec_pure, session]
    cases value <;> rfl
  | error exception => cases exception <;> simp [session, readOutcome]

namespace ClientCall

/-- What the server is asked for. -/
def operation : ClientCall → Operation
  | .set key value => .set key value
  | .get key => .typed key .get
  | .hset key fieldName value => .typed key (.hset fieldName value)
  | .hget key fieldName => .typed key (.hget fieldName)
  | .hgetall key => .typed key .hgetall
  | .delete key => .del key
  | .expire key ttlSeconds => .expire key ttlSeconds.value
  | .ttl key => .ttl key
  | .flushdb => .flushdb
  | .dbsize => .dbsize
  | .infoMemory => .info
  | .configSetMaxmemory maxMemoryBytes => .configSet maxMemoryBytes.toNat

/-- What the client makes of a reply. -/
def readReply : ClientCall → RespValue → ClientReply
  | .set _ _, _ | .hset _ _ _, _ | .flushdb, _ | .configSetMaxmemory _, _ => .done
  | .get _, value | .hget _ _, value => .text (RedisPyMiniRedisClient.textOf value)
  | .hgetall _, value =>
    let result := RedisPyMiniRedisClient.dictOf value
    .fields (if result.entries = [] then none else some result)
  | .delete _, value | .expire _ _, value => .flag (RedisPyMiniRedisClient.numberOf value ≠ 0)
  | .ttl _, value =>
    let result := RedisPyMiniRedisClient.numberOf value
    .seconds (if result < 0 then none else some result)
  | .dbsize, value => .count (RedisPyMiniRedisClient.numberOf value)
  | .infoMemory, value => .report (parseInfo ((RedisPyMiniRedisClient.textOf value).getD ""))

/-- Time-outs are positive and limits have a text. -/
def Sendable : ClientCall → Prop
  | .expire _ ttlSeconds => notPositive ttlSeconds.value = false
  | .configSetMaxmemory maxMemoryBytes => maxMemoryBytes.toNat < readableBound
  | _ => True

private theorem exec_reading {tokens : List String} {f : RespValue → ClientReply}
    {s s' : CommandService} {outcome : Except String RespValue}
    (run : (RedisPyMiniRedisClient.executeCommand tokens).exec s = (outcome, s')) :
    (do return f (← RedisPyMiniRedisClient.executeCommand tokens) : RedisPyM ClientReply).exec s =
      (outcome.map f, s') := by
  rw [Effect.exec_bind, run]
  cases outcome <;> rfl

private theorem strInt_max {n : ℤ} (small : n.toNat < readableBound) :
    strInt (max 0 n) = .ok (toString (n.toNat : ℤ)) := by
  have same : max 0 n = (n.toNat : ℤ) := by omega
  rw [strInt, same, if_pos (by rwa [Int.natAbs_natCast])]

private theorem validate_config {text : String} {n : ℕ} (read : parseInt text = some (n : ℤ)) :
    validate ⟨"CONFIG", ["SET", "maxmemory", text]⟩ = .ok () := by
  have arity : validateArity ⟨"CONFIG", ["SET", "maxmemory", text]⟩ = .ok () := rfl
  have first : argument ["SET", "maxmemory", text] 0 = .ok "SET" := rfl
  have third : argument ["SET", "maxmemory", text] 2 = .ok text := rfl
  have uppercase : upper "SET" = "SET" := rfl
  have other : ¬ "SET" = "GET" := by decide
  rw [validate, arity, bind_ok]
  show validateConfig ["SET", "maxmemory", text] = .ok ()
  rw [validateConfig, first, bind_ok]
  simp only [uppercase, if_neg other, third, bind_ok, validateIntegerArgument, read,
    if_neg (Int.not_lt.mpr (Int.natCast_nonneg n))]
  rfl

private theorem validate_expire (key : String) {text : String} {seconds : PyFloat}
    (read : parseFloat text = some seconds) (positive : notPositive seconds = false) :
    validate ⟨"EXPIRE", [key, text]⟩ = .ok () := by
  have arity : validateArity ⟨"EXPIRE", [key, text]⟩ = .ok () := rfl
  have second : argument [key, text] 1 = .ok text := rfl
  rw [validate, arity, bind_ok]
  simp only [second, bind_ok, validateFloatArgument, read, positive]
  rfl

/-- A call of redis-py performs its operation and reads the reply. -/
theorem exec_onRedisPy {call : ClientCall} (sendable : call.Sendable) (s : CommandService) :
    call.onRedisPy.exec s =
      ((readOutcome (perform call.operation s).1).map call.readReply,
        (perform call.operation s).2) := by
  cases call with
  | set key value =>
    simp only [onRedisPy, RedisPyMiniRedisClient.set, bind_assoc, pure_bind]
    exact exec_reading (exec_executeCommand rfl rfl (by decide) rfl (.set key value) s)
  | get key =>
    simp only [onRedisPy, RedisPyMiniRedisClient.get, bind_assoc, pure_bind]
    exact exec_reading (exec_executeCommand rfl rfl (by decide) rfl (.typed key .get) s)
  | hset key fieldName value =>
    simp only [onRedisPy, RedisPyMiniRedisClient.hset, bind_assoc, pure_bind]
    exact exec_reading
      (exec_executeCommand rfl rfl (by decide) rfl (.typed key (.hset fieldName value)) s)
  | hget key fieldName =>
    simp only [onRedisPy, RedisPyMiniRedisClient.hget, bind_assoc, pure_bind]
    exact exec_reading
      (exec_executeCommand rfl rfl (by decide) rfl (.typed key (.hget fieldName)) s)
  | hgetall key =>
    simp only [onRedisPy, RedisPyMiniRedisClient.hgetall, bind_assoc, pure_bind]
    exact exec_reading (exec_executeCommand rfl rfl (by decide) rfl (.typed key .hgetall) s)
  | delete key =>
    simp only [onRedisPy, RedisPyMiniRedisClient.delete, bind_assoc, pure_bind]
    exact exec_reading (exec_executeCommand rfl rfl (by decide) rfl (.del key) s)
  | expire key ttlSeconds =>
    simp only [onRedisPy, RedisPyMiniRedisClient.expire, bind_assoc, pure_bind]
    exact exec_reading (exec_executeCommand rfl rfl (by decide)
      (validate_expire key ttlSeconds.reads sendable) (.expire key ttlSeconds.reads sendable) s)
  | ttl key =>
    simp only [onRedisPy, RedisPyMiniRedisClient.ttl, bind_assoc, pure_bind]
    exact exec_reading (exec_executeCommand rfl rfl (by decide) rfl (.ttl key) s)
  | flushdb =>
    simp only [onRedisPy, RedisPyMiniRedisClient.flushdb, bind_assoc, pure_bind]
    exact exec_reading (exec_executeCommand rfl rfl (by decide) rfl .flushdb s)
  | dbsize =>
    simp only [onRedisPy, RedisPyMiniRedisClient.dbsize, bind_assoc, pure_bind]
    exact exec_reading (exec_executeCommand rfl rfl (by decide) rfl .dbsize s)
  | infoMemory =>
    simp only [onRedisPy, RedisPyMiniRedisClient.infoMemory, bind_assoc, pure_bind]
    exact exec_reading
      (exec_executeCommand rfl rfl (by decide) rfl (.infoSection (by decide)) s)
  | configSetMaxmemory maxMemoryBytes =>
    have read : parseInt (toString (maxMemoryBytes.toNat : ℤ)) = some (maxMemoryBytes.toNat : ℤ) :=
      parseInt_toString (by rwa [Int.natAbs_natCast])
    simp only [onRedisPy, RedisPyMiniRedisClient.configSetMaxmemory, strInt_max sendable,
      Effect.lift_ok, bind_assoc, pure_bind]
    exact exec_reading (exec_executeCommand rfl rfl (by decide) (validate_config read)
      (.configSet rfl rfl read) s)

end ClientCall

/-! ### Replies compared -/

/-- The value that the server stores for a payload. -/
def Payload.entry : Payload → ValueEntry
  | .string value => .string value
  | .hash fields => .hash fields

private theorem entries_dictOf_hashReply (fields : Dict String String) :
    (RedisPyMiniRedisClient.dictOf (hashReply fields)).entries = sortedItems fields := by
  have perm : (sortedItems fields).Perm fields.entries := List.perm_insertionSort _ _
  have nodup : ((sortedItems fields).map Prod.fst).Nodup := (perm.map _).nodup_iff.mpr fields.nodup
  rw [hashReply, RedisPyMiniRedisClient.dictOf, List.foldl_map]
  exact (Dict.entries_foldl_set nodup (fun _ _ => by simp)).trans (List.nil_append _)

theorem get?_dictOf_hashReply (fields : Dict String String) (name : String) :
    (RedisPyMiniRedisClient.dictOf (hashReply fields)).get? name = fields.get? name := by
  apply Dict.get?_eq_of_perm
  rw [entries_dictOf_hashReply]
  exact List.perm_insertionSort _ _

theorem dictOf_hashReply_eq_nil {fields : Dict String String} :
    (RedisPyMiniRedisClient.dictOf (hashReply fields)).entries = [] ↔ fields.entries = [] := by
  rw [entries_dictOf_hashReply, ← List.length_eq_zero_iff, ← List.length_eq_zero_iff,
    sortedItems, List.length_insertionSort]

/-- Equal as Python values: a dictionary has no order. -/
def SameReply : ClientReply → ClientReply → Prop
  | .fields (some fields), .fields (some fields') => ∀ name, fields.get? name = fields'.get? name
  | reply, reply' => reply = reply'

theorem sameReply_hash {fields : Dict String String} (filled : fields.entries ≠ []) (key : String) :
    SameReply (.fields (some fields)) ((ClientCall.hgetall key).readReply (hashReply fields)) := by
  show SameReply (.fields (some fields))
    (.fields (if (RedisPyMiniRedisClient.dictOf (hashReply fields)).entries = [] then none
      else some (RedisPyMiniRedisClient.dictOf (hashReply fields))))
  rw [if_neg (mt dictOf_hashReply_eq_nil.mp filled)]
  exact fun name => (get?_dictOf_hashReply fields name).symm

/-- Both calls return the same value, or both raise, and then neither or both a type error. -/
def SameOutcome : Except String ClientReply → Except String ClientReply → Prop
  | .ok reply, .ok reply' => SameReply reply reply'
  | .error message, .error message' =>
    message = WRONG_TYPE_MESSAGE ↔ message' = WRONG_TYPE_MESSAGE
  | _, _ => False

theorem sameOutcome_field (key fieldName : String) (value : Option String) :
    SameOutcome (.ok (.text value))
      ((readOutcome (.ok (blobOrNull value))).map (ClientCall.hget key fieldName).readReply) := by
  cases value <;> rfl

end MiniRedis.Arena
