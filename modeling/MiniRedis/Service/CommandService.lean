/- GID: MiniRedis/Service/CommandService
   generality: I
   digest: Every command of the dispatcher, with the order of its purges, touches and raises. -/

import Mathlib.Data.List.Sort
import MiniRedis.Command.Validator
import MiniRedis.Service.State

set_option autoImplicit false
set_option relaxedAutoImplicit false

namespace MiniRedis.Service

open MiniRedis.Base MiniRedis.Python MiniRedis.Protocol MiniRedis.Commands

/-! ### Conversions that raise `ValueError` -/

def toInt (text : String) : Except PyException ℤ :=
  match parseInt text with
  | some n => .ok n
  | none => .error .valueError

def toFloat (text : String) : Except PyException PyFloat :=
  match parseFloat text with
  | some x => .ok x
  | none => .error .valueError

/-! ### The single-key services -/

/-- `SetService.execute`. -/
def setServiceExecute (key value : String) (s : CommandService) : String × CommandService :=
  (RESP_OK, { s with store := s.store.set key (.string value), ttl := s.ttl.erase key })

/-- `GetService.execute`. -/
def getServiceExecute (key : String) (s : CommandService) : Option ValueEntry × CommandService :=
  let s := (purgeIfExpired key s).2
  (s.store.get? key, s)

/-- `DelService.execute`. -/
def delServiceExecute (key : String) (s : CommandService) : ℤ × CommandService :=
  let (purged, s) := purgeIfExpired key s
  if purged then (0, s)
  else if s.store.get? key = none then (0, s)
  else (1, { s with store := s.store.erase key, ttl := s.ttl.erase key })

/-- `ExpireService.execute`. -/
def expireServiceExecute (key : String) (ttlSeconds : PyFloat) (s : CommandService) :
    ℤ × CommandService :=
  let (purged, s) := purgeIfExpired key s
  if purged then (0, s)
  else if s.store.get? key = none then (0, s)
  else
    let (t, s) := now s
    (1, { s with ttl := s.ttl.set key (calculateExpiresAt t ttlSeconds) })

/-- `TtlService.execute`. -/
def ttlServiceExecute (key : String) : ServiceM ℤ := do
  if ← modifyGet (purgeIfExpired key) then return -2
  if (← get).store.get? key = none then return -2
  match (← get).ttl.get? key with
  | none => return -1
  | some expiresAt =>
    let t ← modifyGet now
    calculateRemainingSeconds t expiresAt

/-! ### Connection and administration -/

def executePing (arguments : List String) : RespValue :=
  match arguments with
  | [] => .simpleString "PONG"
  | message :: _ => .blobString message

def executeSelect (dbIndex : String) : Except PyException RespValue := do
  if (← toInt dbIndex) < 0 then throw (.commandError ERR_INVALID_DB)
  else return .simpleString "OK"

def executeClient (arguments : List String) : Except PyException RespValue := do
  let subcommand := upper (← argument arguments 0)
  if subcommand ∈ ["SETNAME", "SETINFO", "MAINT_NOTIFICATIONS"] then return .simpleString "OK"
  else throw (.commandError ERR_UNSUPPORTED_COMMAND)

def executeDbsize (s : CommandService) : ℕ × CommandService :=
  let s := purgeAllExpiredKeys s
  (s.store.keys.length, s)

def executeFlushdb (s : CommandService) : CommandService :=
  let s := s.store.keys.foldl (fun s key => deleteEntryAndTtl key s) s
  { s with accessOrder := Dict.empty, evictedKeys := 0 }

/-- `self._max_memory_bytes or 0`. -/
def maxMemoryOrZero (s : CommandService) : ℕ :=
  match s.maxMemoryBytes with
  | none => 0
  | some maxMemory => maxMemory

def infoText (s : CommandService) : String :=
  "# Memory\r\nused_memory:" ++ toString (currentMemoryBytes s) ++
    "\r\nmaxmemory:" ++ toString (maxMemoryOrZero s) ++
    "\r\nkeys:" ++ toString s.store.keys.length ++
    "\r\nevicted_keys:" ++ toString s.evictedKeys

def executeInfo (arguments : List String) : ServiceM String := do
  match arguments with
  | [] => modify purgeAllExpiredKeys
  | domain :: _ =>
    if upper domain ∉ ["ALL", "MEMORY"] then throw (.commandError ERR_UNSUPPORTED_COMMAND)
    else modify purgeAllExpiredKeys
  return infoText (← get)

def executeConfig (arguments : List String) : ServiceM RespValue := do
  let subcommand := upper (← argument arguments 0)
  let parameter := lower (← argument arguments 1)
  if parameter ≠ "maxmemory" then throw (.commandError ERR_UNSUPPORTED_COMMAND)
  else if subcommand = "GET" then
    return .array [.blobString "maxmemory", .blobString (toString (maxMemoryOrZero (← get)))]
  else if subcommand = "SET" then
    let value ← toInt (← argument arguments 2)
    modify (fun s => { s with maxMemoryBytes := normalizeMaxMemoryBytes (some value) })
    modify (ensureMaxMemory [])
    return .simpleString RESP_OK
  else throw (.commandError ERR_UNSUPPORTED_COMMAND)

/-- `_require_string`. -/
def requireString (entry : ValueEntry) : Except PyException String :=
  if entry.valueType ≠ .string then .error (.commandError ERR_WRONG_TYPE)
  else .ok entry.stringValue

/-! ### Hashes -/

def executeHset (key field value : String) : ServiceM ℤ := do
  let hashValue ← match ← getTypedEntry key .hash with
    | none => do
      modify (storeEntry key (.hash Dict.empty))
      pure Dict.empty
    | some entry => pure entry.hashValue
  let created := if hashValue.get? field = none then 1 else 0
  modify (mutateEntry key (.hash (hashValue.set field value)))
  modify (touchKey key)
  return created

def executeHget (key field : String) : ServiceM (Option String) := do
  match ← getTypedEntry key .hash with
  | none => return none
  | some entry => return entry.hashValue.get? field

def executeHdel (key field : String) : ServiceM ℤ := do
  match ← getTypedEntry key .hash with
  | none => return 0
  | some entry =>
    let removed := if entry.hashValue.get? field = none then 0 else 1
    let rest := entry.hashValue.erase field
    modify (mutateEntry key (.hash rest))
    if rest.keys = [] then modify (deleteEntryAndTtl key)
    return removed

/-- `sorted(fields.items())`: the fields are distinct, so they alone decide the order. -/
def sortedItems (fields : Dict String String) : List (String × String) :=
  fields.entries.insertionSort (fun a b => a.1 ≤ b.1)

def hashReply (fields : Dict String String) : RespValue :=
  .map ((sortedItems fields).map (fun e => (.blobString e.1, .blobString e.2)))

def executeHgetall (key : String) : ServiceM RespValue := do
  match ← getTypedEntry key .hash with
  | none => return .map []
  | some entry => return hashReply entry.hashValue

/-! ### Lists -/

def getOrCreateList (key : String) : ServiceM (List String) := do
  match ← getTypedEntry key .list with
  | none => do
    modify (storeEntry key (.list []))
    return []
  | some entry => return entry.listValue

def executeLpush (key : String) (values : List String) : ServiceM ℤ := do
  let listValue ← getOrCreateList key
  let listValue := values.foldl (fun list value => value :: list) listValue
  modify (mutateEntry key (.list listValue))
  modify (touchKey key)
  return listValue.length

def executeRpush (key : String) (values : List String) : ServiceM ℤ := do
  let listValue ← getOrCreateList key
  let listValue := listValue ++ values
  modify (mutateEntry key (.list listValue))
  modify (touchKey key)
  return listValue.length

def executeLpop (key : String) : ServiceM (Option String) := do
  match ← getTypedEntry key .list with
  | none => return none
  | some entry =>
    match entry.listValue with
    | [] => return none
    | value :: rest =>
      modify (mutateEntry key (.list rest))
      if rest = [] then modify (deleteEntryAndTtl key)
      return some value

def executeRpop (key : String) : ServiceM (Option String) := do
  match ← getTypedEntry key .list with
  | none => return none
  | some entry =>
    match entry.listValue.getLast? with
    | none => return none
    | some value =>
      let rest := entry.listValue.dropLast
      modify (mutateEntry key (.list rest))
      if rest = [] then modify (deleteEntryAndTtl key)
      return some value

def sliceSequence (values : List String) (start stop : ℤ) : List String :=
  if values = [] then []
  else
    let length : ℤ := values.length
    let start := if start < 0 then start + length else start
    let stop := if stop < 0 then stop + length else stop
    let start := if start < 0 then 0 else start
    if stop < 0 ∨ start ≥ length ∨ start > stop then []
    else
      let stop := if stop ≥ length then length - 1 else stop
      (values.take (stop + 1).toNat).drop start.toNat

def blobArray (values : List String) : RespValue := .array (values.map .blobString)

def executeLrange (key : String) (start stop : ℤ) : ServiceM RespValue := do
  match ← getTypedEntry key .list with
  | none => return .array []
  | some entry => return blobArray (sliceSequence entry.listValue start stop)

/-! ### Sets -/

def getOrCreateSet (key : String) : ServiceM (Finset String) := do
  match ← getTypedEntry key .set with
  | none => do
    modify (storeEntry key (.set ∅))
    return ∅
  | some entry => return entry.setValue

/-- The loop of `SADD`: the set and the count of new members. -/
def addMembers (members : List String) (acc : ℤ × Finset String) : ℤ × Finset String :=
  members.foldl (fun (created, set) member =>
    (if member ∉ set then created + 1 else created, insert member set)) acc

def executeSadd (key : String) (members : List String) : ServiceM ℤ := do
  let setValue ← getOrCreateSet key
  let (created, setValue) := addMembers members (0, setValue)
  modify (mutateEntry key (.set setValue))
  modify (touchKey key)
  return created

/-- The loop of `SREM`: the set and the count of removed members. -/
def removeMembers (members : List String) (acc : ℤ × Finset String) : ℤ × Finset String :=
  members.foldl (fun (removed, set) member =>
    (if member ∈ set then removed + 1 else removed, set.erase member)) acc

def executeSrem (key : String) (members : List String) : ServiceM ℤ := do
  match ← getTypedEntry key .set with
  | none => return 0
  | some entry =>
    let (removed, rest) := removeMembers members (0, entry.setValue)
    modify (mutateEntry key (.set rest))
    if rest = ∅ then modify (deleteEntryAndTtl key)
    return removed

/-- `sorted(entry.value)`. -/
def sortedMembers (members : Finset String) : List String := members.sort (· ≤ ·)

def executeSmembers (key : String) : ServiceM RespValue := do
  match ← getTypedEntry key .set with
  | none => return .array []
  | some entry => return blobArray (sortedMembers entry.setValue)

def executeSismember (key member : String) : ServiceM ℤ := do
  match ← getTypedEntry key .set with
  | none => return 0
  | some entry => return if member ∈ entry.setValue then 1 else 0

/-! ### Sorted sets -/

def getOrCreateZset (key : String) : ServiceM (Dict String PyFloat) := do
  match ← getTypedEntry key .zset with
  | none => do
    modify (storeEntry key (.zset Dict.empty))
    return Dict.empty
  | some entry => return entry.zsetValue

/-- The loop of `ZADD`, which changes the stored container in every round. -/
def zaddLoop (key : String) : List String → ℤ → Dict String PyFloat → ServiceM ℤ
  | [], created, _ => pure created
  | [score], _, _ => do
    let _ ← toFloat score
    throw .indexError
  | score :: member :: rest, created, zset => do
    let score ← toFloat score
    let created := if zset.get? member = none then created + 1 else created
    let zset := zset.set member score
    modify (mutateEntry key (.zset zset))
    zaddLoop key rest created zset

def executeZadd (key : String) (arguments : List String) : ServiceM ℤ := do
  let zsetValue ← getOrCreateZset key
  let created ← zaddLoop key arguments 0 zsetValue
  modify (touchKey key)
  return created

/-- The loop of `ZREM`: the mapping and the count of removed members. -/
def removeScores (members : List String) (acc : ℤ × Dict String PyFloat) :
    ℤ × Dict String PyFloat :=
  members.foldl (fun (removed, zset) member =>
    (if zset.get? member = none then removed else removed + 1, zset.erase member)) acc

def executeZrem (key : String) (members : List String) : ServiceM ℤ := do
  match ← getTypedEntry key .zset with
  | none => return 0
  | some entry =>
    let (removed, rest) := removeScores members (0, entry.zsetValue)
    modify (mutateEntry key (.zset rest))
    if rest.keys = [] then modify (deleteEntryAndTtl key)
    return removed

/-- `(score, member) < (score', member')` on tuples: the first unequal components decide. -/
def scoreLt (a b : String × PyFloat) : Bool :=
  if a.2.eq b.2 then a.1 < b.1 else a.2.lt b.2

/-- `sorted(.., key=lambda item: (item[1], item[0]))`. Where no score is a NaN, `<` is a strict
order of the pairs and every sort gives this listing. Of three or more members, one with a NaN,
CPython's `sorted` may give another permutation; nothing below depends on which one it is. -/
def orderedMembers (zset : Dict String PyFloat) : List String :=
  (zset.entries.insertionSort (fun a b => !scoreLt b a)).map Prod.fst

def executeZrange (key : String) (start stop : ℤ) : ServiceM RespValue := do
  match ← getTypedEntry key .zset with
  | none => return .array []
  | some entry => return blobArray (sliceSequence (orderedMembers entry.zsetValue) start stop)

def executeZscore (key member : String) : ServiceM (Option String) := do
  match ← getTypedEntry key .zset with
  | none => return none
  | some entry => return (entry.zsetValue.get? member).map formatG

/-! ### The dispatcher -/

/-- A text that may be missing. -/
def blobOrNull : Option String → RespValue
  | none => .null
  | some value => .blobString value

/-- `CommandService.execute`. -/
def execute (command : Command) : ServiceM RespValue := do
  let arguments := command.arguments
  match command.name with
  | "AUTH" => throw (.commandError ERR_UNSUPPORTED_AUTH)
  | "PING" => return executePing arguments
  | "SELECT" => executeSelect (← argument arguments 0)
  | "CLIENT" => executeClient arguments
  | "SET" => do
    let key ← argument arguments 0
    let response ← modifyGet (setServiceExecute key (← argument arguments 1))
    modify (touchKey key)
    modify (ensureMaxMemory [key])
    return .simpleString response
  | "GET" => do
    let key ← argument arguments 0
    match ← modifyGet (getServiceExecute key) with
    | none =>
      modify (forgetKey key)
      return .null
    | some entry =>
      modify (touchKey key)
      return .blobString (← requireString entry)
  | "DEL" => do
    let key ← argument arguments 0
    let deleted ← modifyGet (delServiceExecute key)
    modify (forgetKey key)
    return .number deleted
  | "EXPIRE" => do
    let key ← argument arguments 0
    let seconds ← toFloat (← argument arguments 1)
    let applied ← modifyGet (expireServiceExecute key seconds)
    if applied ≠ 0 then modify (touchKey key)
    return .number applied
  | "TTL" => return .number (← ttlServiceExecute (← argument arguments 0))
  | "DBSIZE" => return .number (← modifyGet executeDbsize)
  | "FLUSHDB" => do
    modify executeFlushdb
    return .simpleString RESP_OK
  | "INFO" => return .blobString (← executeInfo arguments)
  | "CONFIG" => executeConfig arguments
  | "HSET" => do
    let key ← argument arguments 0
    let created ← executeHset key (← argument arguments 1) (← argument arguments 2)
    modify (ensureMaxMemory [key])
    return .number created
  | "HGET" => return blobOrNull (← executeHget (← argument arguments 0) (← argument arguments 1))
  | "HDEL" => return .number (← executeHdel (← argument arguments 0) (← argument arguments 1))
  | "HGETALL" => executeHgetall (← argument arguments 0)
  | "LPUSH" => do
    let key ← argument arguments 0
    let length ← executeLpush key arguments.tail
    modify (ensureMaxMemory [key])
    return .number length
  | "RPUSH" => do
    let key ← argument arguments 0
    let length ← executeRpush key arguments.tail
    modify (ensureMaxMemory [key])
    return .number length
  | "LPOP" => return blobOrNull (← executeLpop (← argument arguments 0))
  | "RPOP" => return blobOrNull (← executeRpop (← argument arguments 0))
  | "LRANGE" =>
    executeLrange (← argument arguments 0) (← toInt (← argument arguments 1))
      (← toInt (← argument arguments 2))
  | "SADD" => do
    let key ← argument arguments 0
    let created ← executeSadd key arguments.tail
    modify (ensureMaxMemory [key])
    return .number created
  | "SREM" => return .number (← executeSrem (← argument arguments 0) arguments.tail)
  | "SMEMBERS" => executeSmembers (← argument arguments 0)
  | "SISMEMBER" =>
    return .number (← executeSismember (← argument arguments 0) (← argument arguments 1))
  | "ZADD" => do
    let key ← argument arguments 0
    let created ← executeZadd key arguments.tail
    modify (ensureMaxMemory [key])
    return .number created
  | "ZREM" => return .number (← executeZrem (← argument arguments 0) arguments.tail)
  | "ZRANGE" =>
    executeZrange (← argument arguments 0) (← toInt (← argument arguments 1))
      (← toInt (← argument arguments 2))
  | "ZSCORE" => return blobOrNull (← executeZscore (← argument arguments 0) (← argument arguments 1))
  | _ => throw (.commandError ERR_UNSUPPORTED_COMMAND)

end MiniRedis.Service
