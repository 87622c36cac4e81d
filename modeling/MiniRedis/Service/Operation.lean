/- GID: MiniRedis/Service/Operation
   generality: I
   digest: Accepted commands denote operations, and typed ones act through one key only. -/

import MiniRedis.Base.Outcome
import MiniRedis.Service.CommandService

set_option autoImplicit false
set_option relaxedAutoImplicit false

namespace MiniRedis.Service

open MiniRedis.Base MiniRedis.Python MiniRedis.Protocol MiniRedis.Commands

/-! ### Typed operations -/

/-- The commands that demand a value of one type, with their arguments after the key. -/
inductive TypedOp where
  | get
  | hset (field value : String)
  | hget (field : String)
  | hdel (field : String)
  | hgetall
  | lpush (values : List String)
  | rpush (values : List String)
  | lpop
  | rpop
  | lrange (start stop : ℤ)
  | sadd (members : List String)
  | srem (members : List String)
  | smembers
  | sismember (member : String)
  | zadd (pairs : List (PyFloat × String))
  | zrem (members : List String)
  | zrange (start stop : ℤ)
  | zscore (member : String)

/-- What an operation does to the value it found. -/
inductive EntryUpdate where
  | keep
  | put (entry : ValueEntry)
  | remove

namespace TypedOp

def valueType : TypedOp → ValueType
  | get => .string
  | hset _ _ | hget _ | hdel _ | hgetall => .hash
  | lpush _ | rpush _ | lpop | rpop | lrange _ _ => .list
  | sadd _ | srem _ | smembers | sismember _ => .set
  | zadd _ | zrem _ | zrange _ _ | zscore _ => .zset

/-- The growing operations create an empty container where the key is absent. -/
def emptyContainer : TypedOp → Option ValueEntry
  | hset _ _ => some (.hash Dict.empty)
  | lpush _ | rpush _ => some (.list [])
  | sadd _ => some (.set ∅)
  | zadd _ => some (.zset Dict.empty)
  | _ => none

def grows (op : TypedOp) : Bool := op.emptyContainer.isSome

/-- The reply of the other operations where the key is absent. -/
def absentReply : TypedOp → RespValue
  | hdel _ | srem _ | sismember _ | zrem _ => .number 0
  | hgetall => .map []
  | lrange _ _ | smembers | zrange _ _ => .array []
  | _ => .null

/-- The scores and members of a `ZADD`, in order. -/
def addScores (pairs : List (PyFloat × String)) (acc : ℤ × Dict String PyFloat) :
    ℤ × Dict String PyFloat :=
  pairs.foldl (fun (created, zset) (score, member) =>
    (if zset.get? member = none then created + 1 else created, zset.set member score)) acc

/-- Reply and update on a value of the demanded type. A shrinking operation removes the key
together with its last element. -/
def onEntry : TypedOp → ValueEntry → RespValue × EntryUpdate
  | get, entry => (.blobString entry.stringValue, .keep)
  | hset field value, entry =>
    (.number (if entry.hashValue.get? field = none then 1 else 0),
      .put (.hash (entry.hashValue.set field value)))
  | hget field, entry => (blobOrNull (entry.hashValue.get? field), .keep)
  | hdel field, entry =>
    let rest := entry.hashValue.erase field
    (.number (if entry.hashValue.get? field = none then 0 else 1),
      if rest.keys = [] then .remove else .put (.hash rest))
  | hgetall, entry => (hashReply entry.hashValue, .keep)
  | lpush values, entry =>
    let list := values.foldl (fun list value => value :: list) entry.listValue
    (.number list.length, .put (.list list))
  | rpush values, entry =>
    let list := entry.listValue ++ values
    (.number list.length, .put (.list list))
  | lpop, entry =>
    match entry.listValue with
    | [] => (.null, .keep)
    | value :: rest => (.blobString value, if rest = [] then .remove else .put (.list rest))
  | rpop, entry =>
    match entry.listValue.getLast? with
    | none => (.null, .keep)
    | some value =>
      let rest := entry.listValue.dropLast
      (.blobString value, if rest = [] then .remove else .put (.list rest))
  | lrange start stop, entry => (blobArray (sliceSequence entry.listValue start stop), .keep)
  | sadd members, entry =>
    let (created, set) := addMembers members (0, entry.setValue)
    (.number created, .put (.set set))
  | srem members, entry =>
    let (removed, rest) := removeMembers members (0, entry.setValue)
    (.number removed, if rest = ∅ then .remove else .put (.set rest))
  | smembers, entry => (blobArray (sortedMembers entry.setValue), .keep)
  | sismember member, entry => (.number (if member ∈ entry.setValue then 1 else 0), .keep)
  | zadd pairs, entry =>
    let (created, zset) := addScores pairs (0, entry.zsetValue)
    (.number created, .put (.zset zset))
  | zrem members, entry =>
    let (removed, rest) := removeScores members (0, entry.zsetValue)
    (.number removed, if rest.keys = [] then .remove else .put (.zset rest))
  | zrange start stop, entry =>
    (blobArray (sliceSequence (orderedMembers entry.zsetValue) start stop), .keep)
  | zscore member, entry => (blobOrNull ((entry.zsetValue.get? member).map formatG), .keep)

end TypedOp

def EntryUpdate.apply (key : String) : EntryUpdate → CommandService → CommandService
  | keep, s => s
  | put entry, s => mutateEntry key entry s
  | remove, s => deleteEntryAndTtl key s

/-- Update the found value; a growing operation then touches the key and enforces the limit. -/
def TypedOp.finish (op : TypedOp) (key : String) (entry : ValueEntry) (s : CommandService) :
    Except PyException RespValue × CommandService :=
  let s := (op.onEntry entry).2.apply key s
  (.ok (op.onEntry entry).1, if op.grows then ensureMaxMemory [key] (touchKey key s) else s)

/-- One typed operation on one key: look the live value up, check its type, update it. -/
def performTyped (key : String) (op : TypedOp) (s : CommandService) :
    Except PyException RespValue × CommandService :=
  let s := (purgeIfExpired key s).2
  match s.store.get? key with
  | none =>
    match op.emptyContainer with
    | none => (.ok op.absentReply, forgetKey key s)
    | some container => op.finish key container (storeEntry key container (forgetKey key s))
  | some entry =>
    if entry.valueType ≠ op.valueType then
      (.error (.commandError ERR_WRONG_TYPE), touchKey key s)
    else op.finish key entry (touchKey key s)

/-! ### What the typed commands denote -/

/-- The score and member texts of a `ZADD`, read in pairs. -/
def readPairs : List String → Option (List (PyFloat × String))
  | [] => some []
  | [_] => none
  | score :: member :: rest =>
    (parseFloat score).bind fun x => (readPairs rest).map ((x, member) :: ·)

/-- A command name and its arguments after the key, against the typed operation they name. -/
inductive DenotesTyped : String → List String → TypedOp → Prop
  | get : DenotesTyped "GET" [] .get
  | hset (field value : String) : DenotesTyped "HSET" [field, value] (.hset field value)
  | hget (field : String) : DenotesTyped "HGET" [field] (.hget field)
  | hdel (field : String) : DenotesTyped "HDEL" [field] (.hdel field)
  | hgetall : DenotesTyped "HGETALL" [] .hgetall
  | lpush (value : String) (values : List String) :
      DenotesTyped "LPUSH" (value :: values) (.lpush (value :: values))
  | rpush (value : String) (values : List String) :
      DenotesTyped "RPUSH" (value :: values) (.rpush (value :: values))
  | lpop : DenotesTyped "LPOP" [] .lpop
  | rpop : DenotesTyped "RPOP" [] .rpop
  | lrange {a b : String} {start stop : ℤ} (first : parseInt a = some start)
      (last : parseInt b = some stop) : DenotesTyped "LRANGE" [a, b] (.lrange start stop)
  | sadd (member : String) (members : List String) :
      DenotesTyped "SADD" (member :: members) (.sadd (member :: members))
  | srem (member : String) (members : List String) :
      DenotesTyped "SREM" (member :: members) (.srem (member :: members))
  | smembers : DenotesTyped "SMEMBERS" [] .smembers
  | sismember (member : String) : DenotesTyped "SISMEMBER" [member] (.sismember member)
  | zadd {arguments : List String} {pairs : List (PyFloat × String)}
      (read : readPairs arguments = some pairs) (some_pair : pairs ≠ []) :
      DenotesTyped "ZADD" arguments (.zadd pairs)
  | zrem (member : String) (members : List String) :
      DenotesTyped "ZREM" (member :: members) (.zrem (member :: members))
  | zrange {a b : String} {start stop : ℤ} (first : parseInt a = some start)
      (last : parseInt b = some stop) : DenotesTyped "ZRANGE" [a, b] (.zrange start stop)
  | zscore (member : String) : DenotesTyped "ZSCORE" [member] (.zscore member)

private theorem exec_typed (key : String) (valueType : ValueType) {α : Type}
    (f : Option ValueEntry → ServiceM α) (s : CommandService) :
    (getTypedEntry key valueType >>= f).exec s =
      match (purgeIfExpired key s).2.store.get? key with
      | none => (f none).exec (forgetKey key (purgeIfExpired key s).2)
      | some entry =>
        if entry.valueType ≠ valueType then
          (.error (.commandError ERR_WRONG_TYPE), touchKey key (purgeIfExpired key s).2)
        else (f (some entry)).exec (touchKey key (purgeIfExpired key s).2) := by
  simp only [getTypedEntry, Effect.exec_bind, Effect.exec_modifyGet, getLiveEntry]
  cases hf : (purgeIfExpired key s).2.store.get? key with
  | none => rfl
  | some entry => by_cases ht : entry.valueType = valueType <;> simp [ht]

/-- A body that starts with the typed lookup is an operation as soon as it agrees with one
where the key is absent and on every value of the demanded type. -/
private theorem exec_typed_eq_perform (key : String) (op : TypedOp)
    (f : Option ValueEntry → ServiceM RespValue) (s : CommandService)
    (absent : ∀ s, (f none).exec s =
      match op.emptyContainer with
      | none => (.ok op.absentReply, s)
      | some container => op.finish key container (storeEntry key container s))
    (present : ∀ entry s, (f (some entry)).exec s = op.finish key entry s) :
    (getTypedEntry key op.valueType >>= f).exec s = performTyped key op s := by
  rw [exec_typed, performTyped]
  cases hf : (purgeIfExpired key s).2.store.get? key with
  | none => simp only [absent]
  | some entry =>
    by_cases ht : entry.valueType = op.valueType
    · simp [ht, present entry]
    · simp [ht]

private theorem mutateEntry_mutateEntry (key : String) (a b : ValueEntry) (s : CommandService) :
    mutateEntry key b (mutateEntry key a s) = mutateEntry key b s := by
  simp [mutateEntry, Dict.set_set]

private theorem deleteEntryAndTtl_mutateEntry (key : String) (a : ValueEntry)
    (s : CommandService) :
    deleteEntryAndTtl key (mutateEntry key a s) = deleteEntryAndTtl key s := by
  simp [mutateEntry, deleteEntryAndTtl, forgetKey, Dict.erase_set]

private theorem exec_zaddLoop_stored (key : String) {arguments : List String}
    {pairs : List (PyFloat × String)} (read : readPairs arguments = some pairs)
    (created : ℤ) (zset : Dict String PyFloat) (s : CommandService) :
    (zaddLoop key arguments created zset).exec (mutateEntry key (.zset zset) s) =
      (.ok (TypedOp.addScores pairs (created, zset)).1,
        mutateEntry key (.zset (TypedOp.addScores pairs (created, zset)).2) s) := by
  induction arguments using readPairs.induct generalizing pairs created zset with
  | case1 =>
    simp only [readPairs, Option.some.injEq] at read
    subst read
    rfl
  | case2 => simp [readPairs] at read
  | case3 score member rest ih =>
    simp only [readPairs, Option.bind_eq_some_iff, Option.map_eq_some_iff] at read
    obtain ⟨x, hx, ps, hps, rfl⟩ := read
    have step := ih hps (if zset.get? member = none then created + 1 else created)
      (zset.set member x)
    simp only [zaddLoop, toFloat, hx, Effect.lift_ok, pure_bind, Effect.exec_bind,
      Effect.exec_modify, mutateEntry_mutateEntry]
    exact step

private theorem exec_zaddLoop (key : String) {arguments : List String}
    {pairs : List (PyFloat × String)} (read : readPairs arguments = some pairs)
    (some_pair : pairs ≠ []) (zset : Dict String PyFloat) (s : CommandService) :
    (zaddLoop key arguments 0 zset).exec s =
      (.ok (TypedOp.addScores pairs (0, zset)).1,
        mutateEntry key (.zset (TypedOp.addScores pairs (0, zset)).2) s) := by
  match arguments with
  | [] =>
    simp only [readPairs, Option.some.injEq] at read
    exact (some_pair read.symm).elim
  | [_] => simp [readPairs] at read
  | score :: member :: rest =>
    simp only [readPairs, Option.bind_eq_some_iff, Option.map_eq_some_iff] at read
    obtain ⟨x, hx, ps, hps, rfl⟩ := read
    simp only [zaddLoop, toFloat, hx, Effect.lift_ok, pure_bind, Effect.exec_bind,
      Effect.exec_modify]
    exact exec_zaddLoop_stored key hps _ (zset.set member x) s

theorem execute_typed {name : String} {rest : List String} {op : TypedOp}
    (denotes : DenotesTyped name rest op) (key : String) (s : CommandService) :
    (execute ⟨name, key :: rest⟩).exec s = performTyped key op s := by
  cases denotes with
  | get =>
    simp only [execute, argument, List.getElem?_cons_zero, Effect.lift_ok, pure_bind,
      Effect.exec_bind, Effect.exec_modifyGet, getServiceExecute, performTyped]
    cases hf : (purgeIfExpired key s).2.store.get? key with
    | none => rfl
    | some entry =>
      by_cases ht : entry.valueType = .string
      · simp [requireString, ht, TypedOp.valueType]
        rfl
      · simp [requireString, ht, TypedOp.valueType, Effect.exec_bind]
  | hset field value =>
    simp [execute, argument, executeHset]
    exact exec_typed_eq_perform key (.hset field value) _ s (fun _ => rfl) (fun _ _ => rfl)
  | hget field =>
    simp [execute, argument, executeHget]
    exact exec_typed_eq_perform key (.hget field) _ s (fun _ => rfl) (fun _ _ => rfl)
  | hdel field =>
    simp [execute, argument, executeHdel]
    refine exec_typed_eq_perform key (.hdel field) _ s (fun _ => rfl) (fun entry s => ?_)
    by_cases h : (entry.hashValue.erase field).keys = [] <;>
      simp [h, TypedOp.finish, TypedOp.onEntry, TypedOp.grows, TypedOp.emptyContainer,
        EntryUpdate.apply, Effect.exec_bind, Except.map, deleteEntryAndTtl_mutateEntry]
  | hgetall =>
    simp [execute, argument, executeHgetall]
    exact exec_typed_eq_perform key .hgetall _ s (fun _ => rfl) (fun _ _ => rfl)
  | lpush value values =>
    simp only [execute, argument, executeLpush, getOrCreateList, List.getElem?_cons_zero,
      Effect.lift_ok, pure_bind, bind_assoc]
    exact exec_typed_eq_perform key (.lpush (value :: values)) _ s (fun _ => rfl) (fun _ _ => rfl)
  | rpush value values =>
    simp only [execute, argument, executeRpush, getOrCreateList, List.getElem?_cons_zero,
      Effect.lift_ok, pure_bind, bind_assoc]
    exact exec_typed_eq_perform key (.rpush (value :: values)) _ s (fun _ => rfl) (fun _ _ => rfl)
  | lpop =>
    simp only [execute, argument, executeLpop, List.getElem?_cons_zero, Effect.lift_ok, pure_bind,
      bind_assoc]
    refine exec_typed_eq_perform key .lpop _ s (fun _ => rfl) (fun entry s => ?_)
    cases hl : entry.listValue with
    | nil =>
      simp only [TypedOp.finish, TypedOp.onEntry, hl]
      rfl
    | cons value rest =>
      by_cases h : rest = [] <;>
        simp [h, hl, TypedOp.finish, TypedOp.onEntry, TypedOp.grows, TypedOp.emptyContainer,
          EntryUpdate.apply, Effect.exec_bind, blobOrNull, Except.map, deleteEntryAndTtl_mutateEntry]
  | rpop =>
    simp only [execute, argument, executeRpop, List.getElem?_cons_zero, Effect.lift_ok, pure_bind,
      bind_assoc]
    refine exec_typed_eq_perform key .rpop _ s (fun _ => rfl) (fun entry s => ?_)
    cases hl : entry.listValue.getLast? with
    | none =>
      simp only [TypedOp.finish, TypedOp.onEntry, hl]
      rfl
    | some value =>
      by_cases h : entry.listValue.dropLast = [] <;>
        simp [h, hl, TypedOp.finish, TypedOp.onEntry, TypedOp.grows, TypedOp.emptyContainer,
          EntryUpdate.apply, Effect.exec_bind, blobOrNull, Except.map, deleteEntryAndTtl_mutateEntry]
  | lrange first last =>
    simp [execute, argument, toInt, first, last, executeLrange]
    exact exec_typed_eq_perform key (.lrange _ _) _ s (fun _ => rfl) (fun _ _ => rfl)
  | sadd member members =>
    simp [execute, argument, executeSadd, getOrCreateSet]
    exact exec_typed_eq_perform key (.sadd (member :: members)) _ s (fun _ => rfl) (fun _ _ => rfl)
  | srem member members =>
    simp only [execute, argument, executeSrem, List.getElem?_cons_zero, Effect.lift_ok, pure_bind,
      bind_assoc]
    refine exec_typed_eq_perform key (.srem (member :: members)) _ s (fun _ => rfl)
      (fun entry s => ?_)
    by_cases h : (removeMembers (member :: members) (0, entry.setValue)).2 = ∅ <;>
      simp [h, TypedOp.finish, TypedOp.onEntry, TypedOp.grows, TypedOp.emptyContainer,
        EntryUpdate.apply, Effect.exec_bind, Except.map, deleteEntryAndTtl_mutateEntry]
  | smembers =>
    simp [execute, argument, executeSmembers]
    exact exec_typed_eq_perform key .smembers _ s (fun _ => rfl) (fun _ _ => rfl)
  | sismember member =>
    simp [execute, argument, executeSismember]
    exact exec_typed_eq_perform key (.sismember member) _ s (fun _ => rfl) (fun _ _ => rfl)
  | zadd read some_pair =>
    simp only [execute, argument, executeZadd, getOrCreateZset, List.getElem?_cons_zero,
      Effect.lift_ok, pure_bind, bind_assoc]
    refine exec_typed_eq_perform key (.zadd _) _ s (fun s => ?_) (fun entry s => ?_)
    · simp only [pure_bind, bind_assoc, Effect.exec_bind, Effect.exec_modify, List.tail_cons,
        exec_zaddLoop key read some_pair]
      rfl
    · simp only [pure_bind, Effect.exec_bind, Effect.exec_modify, List.tail_cons,
        exec_zaddLoop key read some_pair]
      rfl
  | zrem member members =>
    simp only [execute, argument, executeZrem, List.getElem?_cons_zero, Effect.lift_ok, pure_bind,
      bind_assoc]
    refine exec_typed_eq_perform key (.zrem (member :: members)) _ s (fun _ => rfl)
      (fun entry s => ?_)
    by_cases h : (removeScores (member :: members) (0, entry.zsetValue)).2.keys = [] <;>
      simp [h, TypedOp.finish, TypedOp.onEntry, TypedOp.grows, TypedOp.emptyContainer,
        EntryUpdate.apply, Effect.exec_bind, Except.map, deleteEntryAndTtl_mutateEntry]
  | zrange first last =>
    simp [execute, argument, toInt, first, last, executeZrange]
    exact exec_typed_eq_perform key (.zrange _ _) _ s (fun _ => rfl) (fun _ _ => rfl)
  | zscore member =>
    simp [execute, argument, executeZscore]
    exact exec_typed_eq_perform key (.zscore member) _ s (fun _ => rfl) (fun _ _ => rfl)

/-! ### All accepted commands -/

/-- What an accepted command asks for, with its arguments read. -/
inductive Operation where
  | reply (outcome : Except PyException RespValue)
  | set (key value : String)
  | del (key : String)
  | expire (key : String) (seconds : PyFloat)
  | ttl (key : String)
  | dbsize
  | flushdb
  | info
  | configGet
  | configSet (value : ℕ)
  | typed (key : String) (op : TypedOp)

/-- The outcome and the state an operation leaves. -/
def perform : Operation → CommandService → Except PyException RespValue × CommandService
  | .reply outcome, s => (outcome, s)
  | .set key value, s =>
    (.ok (.simpleString RESP_OK),
      ensureMaxMemory [key] (touchKey key (setServiceExecute key value s).2))
  | .del key, s => (.ok (.number (delServiceExecute key s).1), forgetKey key (delServiceExecute key s).2)
  | .expire key seconds, s =>
    let (applied, s) := expireServiceExecute key seconds s
    (.ok (.number applied), if applied ≠ 0 then touchKey key s else s)
  | .ttl key, s =>
    let (outcome, s) := (ttlServiceExecute key).exec s
    (outcome.map .number, s)
  | .dbsize, s => (.ok (.number (executeDbsize s).1), (executeDbsize s).2)
  | .flushdb, s => (.ok (.simpleString RESP_OK), executeFlushdb s)
  | .info, s => (.ok (.blobString (infoText (purgeAllExpiredKeys s))), purgeAllExpiredKeys s)
  | .configGet, s =>
    (.ok (.array [.blobString "maxmemory", .blobString (toString (maxMemoryOrZero s))]), s)
  | .configSet value, s =>
    (.ok (.simpleString RESP_OK),
      ensureMaxMemory [] { s with maxMemoryBytes := normalizeMaxMemoryBytes (some (value : ℤ)) })
  | .typed key op, s => performTyped key op s

/-- A command against the operation it asks for. -/
inductive Denotes : Command → Operation → Prop
  | auth (password : String) :
      Denotes ⟨"AUTH", [password]⟩ (.reply (reject ERR_UNSUPPORTED_AUTH))
  | hello (version : String) :
      Denotes ⟨"HELLO", [version]⟩ (.reply (reject ERR_UNSUPPORTED_COMMAND))
  | ping : Denotes ⟨"PING", []⟩ (.reply (.ok (.simpleString "PONG")))
  | pingMessage (message : String) :
      Denotes ⟨"PING", [message]⟩ (.reply (.ok (.blobString message)))
  | select {text : String} {dbIndex : ℤ} (read : parseInt text = some dbIndex)
      (inRange : ¬ dbIndex < 0) : Denotes ⟨"SELECT", [text]⟩ (.reply (.ok (.simpleString "OK")))
  | client {subcommand : String} (rest : List String)
      (known : upper subcommand ∈ ["SETNAME", "SETINFO", "MAINT_NOTIFICATIONS"]) :
      Denotes ⟨"CLIENT", subcommand :: rest⟩ (.reply (.ok (.simpleString "OK")))
  | set (key value : String) : Denotes ⟨"SET", [key, value]⟩ (.set key value)
  | del (key : String) : Denotes ⟨"DEL", [key]⟩ (.del key)
  | expire (key : String) {text : String} {seconds : PyFloat}
      (read : parseFloat text = some seconds) (positive : notPositive seconds = false) :
      Denotes ⟨"EXPIRE", [key, text]⟩ (.expire key seconds)
  | ttl (key : String) : Denotes ⟨"TTL", [key]⟩ (.ttl key)
  | dbsize : Denotes ⟨"DBSIZE", []⟩ .dbsize
  | flushdb : Denotes ⟨"FLUSHDB", []⟩ .flushdb
  | info : Denotes ⟨"INFO", []⟩ .info
  | infoSection {domain : String} (known : upper domain ∈ ["ALL", "MEMORY"]) :
      Denotes ⟨"INFO", [domain]⟩ .info
  | infoOther {domain : String} (unknown : upper domain ∉ ["ALL", "MEMORY"]) :
      Denotes ⟨"INFO", [domain]⟩ (.reply (reject ERR_UNSUPPORTED_COMMAND))
  | configOther (subcommand : String) {parameter : String} (rest : List String)
      (unknown : lower parameter ≠ "maxmemory") :
      Denotes ⟨"CONFIG", subcommand :: parameter :: rest⟩
        (.reply (reject ERR_UNSUPPORTED_COMMAND))
  | configGet {subcommand parameter : String} (get : upper subcommand = "GET")
      (known : lower parameter = "maxmemory") : Denotes ⟨"CONFIG", [subcommand, parameter]⟩ .configGet
  | configSet {subcommand parameter text : String} {value : ℕ} (set : upper subcommand = "SET")
      (known : lower parameter = "maxmemory") (read : parseInt text = some (value : ℤ)) :
      Denotes ⟨"CONFIG", [subcommand, parameter, text]⟩ (.configSet value)
  | typed {name : String} (key : String) {rest : List String} {op : TypedOp}
      (denotes : DenotesTyped name rest op) : Denotes ⟨name, key :: rest⟩ (.typed key op)

/-- Every command runs as the operation it denotes. -/
theorem execute_denotes {command : Command} {op : Operation} (denotes : Denotes command op)
    (s : CommandService) : (execute command).exec s = perform op s := by
  cases denotes with
  | auth | hello | ping | pingMessage | set | del | dbsize | flushdb | info => rfl
  | ttl key =>
    simp only [execute, argument, List.getElem?_cons_zero, Effect.lift_ok, pure_bind, perform]
    rw [bind_pure_comp, Effect.exec_map]
  | select read inRange => simp [execute, argument, executeSelect, toInt, read, inRange, perform]
  | client rest known =>
    have accepted : executeClient (_ :: rest) = .ok (.simpleString "OK") := if_pos known
    simp only [execute, accepted, Effect.lift_ok, Effect.exec_pure, perform]
  | expire key read positive =>
    simp only [execute, argument, List.getElem?_cons_zero, Effect.lift_ok, pure_bind, perform,
      List.getElem?_cons_succ, toFloat, read, Effect.exec_bind, Effect.exec_modifyGet]
    split_ifs <;> rfl
  | infoSection known =>
    simp only [execute, executeInfo, if_neg (not_not_intro known)]
    rfl
  | infoOther unknown =>
    simp only [execute, executeInfo, if_pos unknown]
    rfl
  | configOther subcommand rest unknown =>
    simp [execute, executeConfig, argument, unknown, perform]
    rfl
  | configGet get known =>
    simp [execute, executeConfig, argument, get, known, perform]
    rfl
  | configSet set known read =>
    simp [execute, executeConfig, argument, toInt, set, known, read, perform]
    rfl
  | typed key denotes => exact execute_typed denotes key s

/-- The commands that demand a value of one type, and that type. -/
def typedCommands : List (String × ValueType) :=
  [("GET", .string), ("HSET", .hash), ("HGET", .hash), ("HDEL", .hash), ("HGETALL", .hash),
    ("LPUSH", .list), ("RPUSH", .list), ("LPOP", .list), ("RPOP", .list), ("LRANGE", .list),
    ("SADD", .set), ("SREM", .set), ("SMEMBERS", .set), ("SISMEMBER", .set), ("ZADD", .zset),
    ("ZREM", .zset), ("ZRANGE", .zset), ("ZSCORE", .zset)]

/-- The typed commands that create an absent key. -/
def growingCommands : List String := ["HSET", "LPUSH", "RPUSH", "SADD", "ZADD"]

theorem DenotesTyped.listed {name : String} {rest : List String} {op : TypedOp}
    (denotes : DenotesTyped name rest op) :
    typedCommands.lookup name = some op.valueType ∧ (name ∈ growingCommands ↔ op.grows = true) := by
  cases denotes <;>
    exact ⟨rfl, by simp [growingCommands, TypedOp.grows, TypedOp.emptyContainer]⟩

theorem Denotes.typed_or {command : Command} {op : Operation} (denotes : Denotes command op) :
    (∃ key rest top, command.arguments = key :: rest ∧ op = .typed key top ∧
      typedCommands.lookup command.name = some top.valueType ∧
      (command.name ∈ growingCommands ↔ top.grows = true)) ∨
    (∀ key top, op ≠ .typed key top) ∧ typedCommands.lookup command.name = none ∧
      command.name ∉ growingCommands := by
  cases denotes with
  | typed key denotes =>
    exact Or.inl ⟨key, _, _, rfl, rfl, denotes.listed⟩
  | _ => exact Or.inr ⟨by simp, rfl, by simp [growingCommands]⟩

/-! ### The operations that start with a purge, written out -/

private theorem absent_of_purged {key : String} {s : CommandService}
    (purged : (purgeIfExpired key s).1 = true) : (purgeIfExpired key s).2.store.get? key = none := by
  unfold purgeIfExpired at purged ⊢
  generalize isExpired key s = result at purged ⊢
  obtain ⟨expired, s⟩ := result
  cases expired with
  | true => exact Dict.get?_erase_self _ _
  | false => cases purged

theorem perform_del (key : String) (s : CommandService) :
    perform (.del key) s =
      if (purgeIfExpired key s).2.store.get? key = none then
        (.ok (.number 0), forgetKey key (purgeIfExpired key s).2)
      else (.ok (.number 1), deleteEntryAndTtl key (purgeIfExpired key s).2) := by
  have gone := @absent_of_purged key s
  simp only [perform, delServiceExecute]
  generalize purgeIfExpired key s = result at gone ⊢
  obtain ⟨purged, s⟩ := result
  cases purged with
  | true => simp [gone rfl]
  | false => by_cases absent : s.store.get? key = none <;> simp [absent, deleteEntryAndTtl]

theorem perform_expire (key : String) (seconds : PyFloat) (s : CommandService) :
    perform (.expire key seconds) s =
      if (purgeIfExpired key s).2.store.get? key = none then
        (.ok (.number 0), (purgeIfExpired key s).2)
      else
        let (t, s) := now (purgeIfExpired key s).2
        (.ok (.number 1),
          touchKey key { s with ttl := s.ttl.set key (calculateExpiresAt t seconds) }) := by
  have gone := @absent_of_purged key s
  simp only [perform, expireServiceExecute]
  generalize purgeIfExpired key s = result at gone ⊢
  obtain ⟨purged, s⟩ := result
  cases purged with
  | true => simp [gone rfl]
  | false => by_cases absent : s.store.get? key = none <;> simp [absent, now]

theorem perform_ttl (key : String) (s : CommandService) :
    perform (.ttl key) s =
      if (purgeIfExpired key s).2.store.get? key = none then
        (.ok (.number (-2)), (purgeIfExpired key s).2)
      else
        match (purgeIfExpired key s).2.ttl.get? key with
        | none => (.ok (.number (-1)), (purgeIfExpired key s).2)
        | some expiresAt =>
          let (t, s) := now (purgeIfExpired key s).2
          ((calculateRemainingSeconds t expiresAt).map .number, s) := by
  have gone := @absent_of_purged key s
  simp only [perform, ttlServiceExecute, Effect.exec_bind, Effect.exec_modifyGet]
  generalize purgeIfExpired key s = result at gone ⊢
  obtain ⟨purged, s⟩ := result
  cases purged with
  | true => simp [gone rfl, Except.map]
  | false =>
    by_cases absent : s.store.get? key = none
    · simp [absent, Effect.exec_bind, Except.map]
    · cases hd : s.ttl.get? key with
      | none => simp [absent, hd, Effect.exec_bind, Except.map]
      | some expiresAt =>
        cases hr : calculateRemainingSeconds (now s).1 expiresAt <;>
          simp [absent, hd, hr, Effect.exec_bind, Except.map]

/-! ### The validator accepts nothing else -/

private theorem parseInt_of_valid {text : String} {n : ℤ}
    (valid : validateIntegerArgument text = .ok n) : parseInt text = some n := by
  unfold validateIntegerArgument at valid
  split at valid
  · rename_i m found
    cases valid
    exact found
  · cases valid

private theorem parseFloat_of_valid {text : String} {x : PyFloat}
    (valid : validateFloatArgument text = .ok x) : parseFloat text = some x := by
  unfold validateFloatArgument at valid
  split at valid
  · rename_i y found
    cases valid
    exact found
  · cases valid

private theorem mem_of_lookup {table : List (String × ℕ)} {name : String} {arity : ℕ}
    (found : table.lookup name = some arity) : (name, arity) ∈ table := by
  obtain ⟨before, after, rfl, -⟩ := List.lookup_eq_some_iff.mp found
  simp

private theorem validateArity_cases {command : Command} (accepted : validateArity command = .ok ()) :
    (∃ arity, (command.name, arity) ∈ SUPPORTED_ARITY ∧ command.arguments.length = arity) ∨
      ∃ arity, (command.name, arity) ∈ MIN_ARITY ∧ arity ≤ command.arguments.length := by
  unfold validateArity at accepted
  split at accepted
  · cases accepted
  · rename_i arity found
    split at accepted
    · cases accepted
    · rename_i same
      exact Or.inl ⟨arity, mem_of_lookup found, not_not.mp same⟩
  · rename_i arity _ found
    split at accepted
    · cases accepted
    · rename_i enough
      exact Or.inr ⟨arity, mem_of_lookup found, not_lt.mp enough⟩

private theorem readPairs_of_valid {arguments : List String} (even : arguments.length % 2 = 0)
    (valid : validateScores arguments = .ok ()) : ∃ pairs, readPairs arguments = some pairs := by
  induction arguments using readPairs.induct with
  | case1 => exact ⟨[], rfl⟩
  | case2 => simp at even
  | case3 score member rest ih =>
    obtain ⟨x, hx, valid⟩ := exists_ok_of_bind valid
    have evenRest : rest.length % 2 = 0 := by
      simp only [List.length_cons] at even
      omega
    obtain ⟨pairs, hp⟩ := ih evenRest valid
    exact ⟨(x, member) :: pairs, by simp [readPairs, parseFloat_of_valid hx, hp]⟩

private theorem client_denotes {arguments : List String} (valid : validateClient arguments = .ok ()) :
    ∃ op, Denotes ⟨"CLIENT", arguments⟩ op := by
  cases arguments with
  | nil => cases valid
  | cons subcommand rest =>
    refine ⟨_, Denotes.client rest ?_⟩
    by_contra unknown
    simp only [List.mem_cons, List.not_mem_nil, or_false, not_or] at unknown
    obtain ⟨_, ⟨⟩, valid⟩ := exists_ok_of_bind valid
    simp only [unknown, if_false] at valid
    cases valid

private theorem config_denotes {arguments : List String} (two : 2 ≤ arguments.length)
    (valid : validateConfig arguments = .ok ()) : ∃ op, Denotes ⟨"CONFIG", arguments⟩ op := by
  match arguments, two with
  | subcommand :: parameter :: rest, _ =>
    by_cases known : lower parameter = "maxmemory"
    · obtain ⟨_, ⟨⟩, valid⟩ := exists_ok_of_bind valid
      by_cases get : upper subcommand = "GET"
      · simp only [get, if_true] at valid
        split at valid
        · cases valid
        · rename_i length
          obtain rfl : rest = [] := by simpa using length
          exact ⟨_, .configGet get known⟩
      · simp only [get, if_false] at valid
        split at valid
        · rename_i set
          split at valid
          · cases valid
          · rename_i length
            obtain ⟨text, rfl⟩ : ∃ text, rest = [text] := by
              simpa [List.length_eq_one_iff] using length
            obtain ⟨_, ⟨⟩, valid⟩ := exists_ok_of_bind valid
            obtain ⟨value, read, valid⟩ := exists_ok_of_bind valid
            split at valid
            · cases valid
            · obtain ⟨n, rfl⟩ := Int.eq_ofNat_of_zero_le (by omega : 0 ≤ value)
              exact ⟨_, .configSet set known (parseInt_of_valid read)⟩
        · cases valid
    · exact ⟨_, .configOther subcommand rest known⟩

/-- Every accepted command denotes an operation. -/
theorem accepted_denotes {command : Command} (accepted : validate command = .ok ()) :
    ∃ op, Denotes command op := by
  obtain ⟨_, checked, accepted⟩ := exists_ok_of_bind accepted
  obtain ⟨name, arguments⟩ := command
  rcases validateArity_cases checked with ⟨arity, listed, length⟩ | ⟨arity, listed, length⟩
  · simp only [SUPPORTED_ARITY, List.mem_cons, Prod.mk.injEq, List.not_mem_nil, or_false] at listed
    rcases listed with ⟨rfl, rfl⟩ | ⟨rfl, rfl⟩ | ⟨rfl, rfl⟩ | ⟨rfl, rfl⟩ | ⟨rfl, rfl⟩ | ⟨rfl, rfl⟩ |
      ⟨rfl, rfl⟩ | ⟨rfl, rfl⟩ | ⟨rfl, rfl⟩ | ⟨rfl, rfl⟩ | ⟨rfl, rfl⟩ | ⟨rfl, rfl⟩ | ⟨rfl, rfl⟩ |
      ⟨rfl, rfl⟩ | ⟨rfl, rfl⟩ | ⟨rfl, rfl⟩ | ⟨rfl, rfl⟩ | ⟨rfl, rfl⟩ | ⟨rfl, rfl⟩ | ⟨rfl, rfl⟩ |
      ⟨rfl, rfl⟩
    · obtain ⟨version, rfl⟩ := List.length_eq_one_iff.mp length
      exact ⟨_, .hello version⟩
    · obtain ⟨password, rfl⟩ := List.length_eq_one_iff.mp length
      exact ⟨_, .auth password⟩
    · obtain ⟨text, rfl⟩ := List.length_eq_one_iff.mp length
      obtain ⟨_, ⟨⟩, accepted⟩ := exists_ok_of_bind accepted
      obtain ⟨dbIndex, read, accepted⟩ := exists_ok_of_bind accepted
      split at accepted
      · cases accepted
      · rename_i inRange
        exact ⟨_, .select (parseInt_of_valid read) inRange⟩
    · obtain ⟨key, value, rfl⟩ := List.length_eq_two.mp length
      exact ⟨_, .set key value⟩
    · obtain ⟨key, rfl⟩ := List.length_eq_one_iff.mp length
      exact ⟨_, .typed key .get⟩
    · obtain ⟨key, rfl⟩ := List.length_eq_one_iff.mp length
      exact ⟨_, .del key⟩
    · obtain ⟨key, text, rfl⟩ := List.length_eq_two.mp length
      obtain ⟨_, ⟨⟩, accepted⟩ := exists_ok_of_bind accepted
      obtain ⟨seconds, read, accepted⟩ := exists_ok_of_bind accepted
      split at accepted
      · cases accepted
      · rename_i positive
        exact ⟨_, .expire key (parseFloat_of_valid read) (by simpa using positive)⟩
    · obtain ⟨key, rfl⟩ := List.length_eq_one_iff.mp length
      exact ⟨_, .ttl key⟩
    · obtain rfl := List.length_eq_zero_iff.mp length
      exact ⟨_, .dbsize⟩
    · obtain rfl := List.length_eq_zero_iff.mp length
      exact ⟨_, .flushdb⟩
    · obtain ⟨key, field, value, rfl⟩ := List.length_eq_three.mp length
      exact ⟨_, .typed key (.hset field value)⟩
    · obtain ⟨key, field, rfl⟩ := List.length_eq_two.mp length
      exact ⟨_, .typed key (.hget field)⟩
    · obtain ⟨key, field, rfl⟩ := List.length_eq_two.mp length
      exact ⟨_, .typed key (.hdel field)⟩
    · obtain ⟨key, rfl⟩ := List.length_eq_one_iff.mp length
      exact ⟨_, .typed key .hgetall⟩
    · obtain ⟨key, rfl⟩ := List.length_eq_one_iff.mp length
      exact ⟨_, .typed key .lpop⟩
    · obtain ⟨key, rfl⟩ := List.length_eq_one_iff.mp length
      exact ⟨_, .typed key .rpop⟩
    · obtain ⟨key, start, stop, rfl⟩ := List.length_eq_three.mp length
      obtain ⟨_, ⟨⟩, accepted⟩ := exists_ok_of_bind accepted
      obtain ⟨first, readFirst, accepted⟩ := exists_ok_of_bind accepted
      obtain ⟨_, ⟨⟩, accepted⟩ := exists_ok_of_bind accepted
      obtain ⟨last, readLast, _⟩ := exists_ok_of_bind accepted
      exact ⟨_, .typed key (.lrange (parseInt_of_valid readFirst) (parseInt_of_valid readLast))⟩
    · obtain ⟨key, rfl⟩ := List.length_eq_one_iff.mp length
      exact ⟨_, .typed key .smembers⟩
    · obtain ⟨key, member, rfl⟩ := List.length_eq_two.mp length
      exact ⟨_, .typed key (.sismember member)⟩
    · obtain ⟨key, start, stop, rfl⟩ := List.length_eq_three.mp length
      obtain ⟨_, ⟨⟩, accepted⟩ := exists_ok_of_bind accepted
      obtain ⟨first, readFirst, accepted⟩ := exists_ok_of_bind accepted
      obtain ⟨_, ⟨⟩, accepted⟩ := exists_ok_of_bind accepted
      obtain ⟨last, readLast, _⟩ := exists_ok_of_bind accepted
      exact ⟨_, .typed key (.zrange (parseInt_of_valid readFirst) (parseInt_of_valid readLast))⟩
    · obtain ⟨key, member, rfl⟩ := List.length_eq_two.mp length
      exact ⟨_, .typed key (.zscore member)⟩
  · simp only [MIN_ARITY, List.mem_cons, Prod.mk.injEq, List.not_mem_nil, or_false] at listed
    rcases listed with ⟨rfl, rfl⟩ | ⟨rfl, rfl⟩ | ⟨rfl, rfl⟩ | ⟨rfl, rfl⟩ | ⟨rfl, rfl⟩ | ⟨rfl, rfl⟩ |
      ⟨rfl, rfl⟩ | ⟨rfl, rfl⟩ | ⟨rfl, rfl⟩ | ⟨rfl, rfl⟩
    · match arguments with
      | [] => exact ⟨_, .ping⟩
      | [message] => exact ⟨_, .pingMessage message⟩
      | _ :: _ :: _ => cases accepted
    · match arguments with
      | [] => exact ⟨_, .info⟩
      | [domain] =>
        by_cases known : upper domain ∈ ["ALL", "MEMORY"]
        · exact ⟨_, .infoSection known⟩
        · exact ⟨_, .infoOther known⟩
      | _ :: _ :: _ => cases accepted
    · exact client_denotes accepted
    · exact config_denotes length accepted
    · match arguments, length with
      | key :: value :: values, _ => exact ⟨_, .typed key (.lpush value values)⟩
    · match arguments, length with
      | key :: value :: values, _ => exact ⟨_, .typed key (.rpush value values)⟩
    · match arguments, length with
      | key :: member :: members, _ => exact ⟨_, .typed key (.sadd member members)⟩
    · match arguments, length with
      | key :: member :: members, _ => exact ⟨_, .typed key (.srem member members)⟩
    · match arguments, length with
      | key :: score :: rest, _ =>
        change (if _ % 2 = 0 then _ else validateScores (score :: rest)) = .ok () at accepted
        split at accepted
        · cases accepted
        · rename_i odd
          have even : (score :: rest).length % 2 = 0 := by
            simp only [List.length_cons] at odd ⊢
            omega
          obtain ⟨pairs, read⟩ := readPairs_of_valid even accepted
          refine ⟨_, .typed key (.zadd read ?_)⟩
          rintro rfl
          cases rest with
          | nil => cases read
          | cons member rest => simp [readPairs, Option.bind_eq_some_iff] at read
    · match arguments, length with
      | key :: member :: members, _ => exact ⟨_, .typed key (.zrem member members)⟩

end MiniRedis.Service
