/- GID: MiniRedis/Arena/Lanes
   generality: I
   digest: One request executed by the cached lane and by the database-only lane. -/

import MiniRedis.Arena.Repository
import MiniRedis.Python.Json

set_option autoImplicit false
set_option relaxedAutoImplicit false

namespace MiniRedis.Arena

open MiniRedis.Base MiniRedis.Python

/-! ### Requests and results -/

inductive CommandName where
  | set
  | get
  | del
  | hset
  | hget
  | hgetall
  deriving DecidableEq

structure ArenaRequest where
  requestId : String
  command : CommandName
  key : String
  field : Option String := none
  value : Option String := none
  ttlEnabled : Bool := false
  ttlSeconds : Option PyFloat := none

structure SeedStateInput where
  documents : Dict String String := Dict.empty
  warmCache : Bool := false
  ttlEnabled : Bool := false
  ttlSeconds : Option PyFloat := none

inductive LaneName where
  | redisDb
  | dbOnly
  deriving DecidableEq

inductive LaneStatus where
  | ok
  | error
  deriving DecidableEq

inductive AnswerKind where
  | ok
  | nil
  | value
  | deleted
  | notFound
  | error
  deriving DecidableEq

inductive PathStep where
  | mongoWrite
  | mongoRead
  | mongoDelete
  | redisSet
  | redisRead
  | redisHit
  | redisFill
  | redisExpire
  | redisDelete
  deriving DecidableEq

structure CacheResult where
  hit : Bool := false
  miss : Bool := false
  deriving DecidableEq

/-- A result without its timings. -/
structure LaneResult where
  requestId : String
  lane : LaneName
  status : LaneStatus
  answerText : Option String
  answerKind : Option AnswerKind
  valuePreview : Option String
  path : List PathStep
  storageChanges : List String
  cache : CacheResult
  mongoReads : ℕ
  deriving DecidableEq

/-! ### The body of `execute` -/

/-- The local variables of `execute` beside the lane that it works on. -/
structure Execution (ρ : Type) where
  lane : ρ
  path : List PathStep := []
  storageChanges : List String := []
  cache : CacheResult := {}
  mongoReads : ℕ := 0
  valuePreview : Option String := none
  answerText : Option String := none
  answerKind : Option AnswerKind := none

abbrev LaneM (ρ : Type) := Effect (Execution ρ) String

section Body

variable {ρ : Type}

def extendPath (steps : List PathStep) : LaneM ρ Unit :=
  modify (fun s => { s with path := s.path ++ steps })

def extendChanges (changes : List String) : LaneM ρ Unit :=
  modify (fun s => { s with storageChanges := s.storageChanges ++ changes })

def preview (value : Option String) : LaneM ρ Unit :=
  modify (fun s => { s with valuePreview := value })

def answer (text : String × AnswerKind) : LaneM ρ Unit :=
  modify (fun s => { s with answerText := some text.1, answerKind := some text.2 })

/-- `path.append("mongo_read")` and `mongo_reads = 1`. -/
def countRead : LaneM ρ Unit :=
  modify (fun s => { s with path := s.path ++ [.mongoRead], mongoReads := 1 })

def setAnswer : String × AnswerKind := ("OK", .ok)

def getAnswer : Option String → String × AnswerKind
  | none => ("(nil)", .nil)
  | some value => (value, .value)

def deleteAnswer (deleted : Bool) : String × AnswerKind :=
  if deleted then ("deleted", .deleted) else ("not found", .notFound)

def serializeHash (fields : Option (Dict String String)) : Option String := fields.map dumpsFields

/-- The frame of `execute`: an exception of the body becomes an error result that keeps what
the body had recorded. -/
def finish (lane : LaneName) (failure : String) (request : ArenaRequest) (body : LaneM ρ Unit)
    (start : ρ) : LaneResult × ρ :=
  match body.exec { lane := start } with
  | (.ok _, s) =>
    ({ requestId := request.requestId
       lane := lane
       status := .ok
       answerText := s.answerText
       answerKind := s.answerKind
       valuePreview := s.valuePreview
       path := s.path
       storageChanges := s.storageChanges
       cache := s.cache
       mongoReads := s.mongoReads }, s.lane)
  | (.error message, s) =>
    ({ requestId := request.requestId
       lane := lane
       status := .error
       answerText := some ("error: " ++ message)
       answerKind := some .error
       valuePreview := some message
       path := s.path
       storageChanges := if s.storageChanges = [] then [failure] else s.storageChanges
       cache := s.cache
       mongoReads := s.mongoReads }, s.lane)

end Body

/-! ### `DBOnlyLaneAdapter` -/

structure DBOnlyLaneAdapter where
  repository : InMemoryMongoRepository

namespace DBOnlyLaneAdapter

def init : DBOnlyLaneAdapter := ⟨.init⟩

def mongo {α : Type} (call : RepositoryM α) : LaneM DBOnlyLaneAdapter α :=
  Effect.zoom (fun s => s.lane.repository) (fun r s => { s with lane := ⟨r⟩ }) call

def executeSet (request : ArenaRequest) : LaneM DBOnlyLaneAdapter Unit := do
  let value := request.value.getD ""
  let writeState ← mongo (modifyGet (InMemoryMongoRepository.write request.key value))
  extendPath [.mongoWrite]
  extendChanges ["Mongo document " ++ writeState]
  preview request.value
  answer setAnswer

def executeGet (request : ArenaRequest) : LaneM DBOnlyLaneAdapter Unit := do
  countRead
  let value ← mongo (InMemoryMongoRepository.read request.key)
  preview value
  extendChanges [if value = none then "Mongo document missing" else "Mongo document read"]
  answer (getAnswer value)

def executeHset (request : ArenaRequest) : LaneM DBOnlyLaneAdapter Unit := do
  let fieldName := request.field.getD ""
  let value := request.value.getD ""
  let writeState ← mongo (InMemoryMongoRepository.hset request.key fieldName value)
  extendPath [.mongoWrite]
  extendChanges ["Mongo hash field " ++ writeState]
  preview request.value
  answer setAnswer

def executeHget (request : ArenaRequest) : LaneM DBOnlyLaneAdapter Unit := do
  countRead
  let value ← mongo (InMemoryMongoRepository.hget request.key (request.field.getD ""))
  preview value
  extendChanges [if value = none then "Mongo hash field missing" else "Mongo hash field read"]
  answer (getAnswer value)

def executeHgetall (request : ArenaRequest) : LaneM DBOnlyLaneAdapter Unit := do
  countRead
  let fields ← mongo (InMemoryMongoRepository.hgetall request.key)
  preview (serializeHash fields)
  extendChanges [if fields = none then "Mongo hash missing" else "Mongo hash read"]
  answer (getAnswer (serializeHash fields))

def executeDel (request : ArenaRequest) : LaneM DBOnlyLaneAdapter Unit := do
  extendPath [.mongoDelete]
  let deleted ← mongo (modifyGet (InMemoryMongoRepository.delete request.key))
  extendChanges [if deleted then "Mongo document deleted" else "Mongo unchanged"]
  answer (deleteAnswer deleted)

def executeBody (request : ArenaRequest) : LaneM DBOnlyLaneAdapter Unit :=
  match request.command with
  | .set => executeSet request
  | .get => executeGet request
  | .hset => executeHset request
  | .hget => executeHget request
  | .hgetall => executeHgetall request
  | .del => executeDel request

def execute (request : ArenaRequest) (lane : DBOnlyLaneAdapter) : LaneResult × DBOnlyLaneAdapter :=
  finish .dbOnly "DB only lane execution failed" request (executeBody request) lane

def clear (keys : List String) (fullReset : Bool) (lane : DBOnlyLaneAdapter) : DBOnlyLaneAdapter :=
  if fullReset then ⟨lane.repository.clear⟩ else ⟨lane.repository.deleteMany keys⟩

def seed (seedInput : SeedStateInput) (lane : DBOnlyLaneAdapter) : DBOnlyLaneAdapter :=
  if seedInput.documents.entries = [] then lane else ⟨lane.repository.seed seedInput.documents⟩

end DBOnlyLaneAdapter

/-! ### `RedisDBLaneAdapter` -/

/-- `redis_ttl_for_request`. The default is the outcome of
`float(os.getenv("ARENA_DEFAULT_TTL_SECONDS", "5"))`: a value, or the text of its `ValueError`. -/
def redisTtlForRequest (defaultTtlSeconds : Except String PyFloat) (ttlEnabled : Bool)
    (ttlSeconds : Option PyFloat) : Except String (Option PyFloat) :=
  if ttlEnabled then
    match ttlSeconds with
    | some seconds => .ok (some seconds)
    | none => defaultTtlSeconds.map some
  else .ok none

/-- The lane over whichever client it was built with. -/
structure RedisDBLaneAdapter (σ : Type) where
  redisClient : σ
  repository : InMemoryMongoRepository

/-- The lane over the client in memory. -/
abbrev InMemoryLane := RedisDBLaneAdapter InMemoryMiniRedisClient

namespace RedisDBLaneAdapter

def init (clock : ℕ → ℚ) (maxMemoryBytes : Option ℕ+) : InMemoryLane :=
  ⟨.init clock maxMemoryBytes, .init⟩

variable {σ : Type}

def redis {α : Type} (call : Effect σ String α) : LaneM (RedisDBLaneAdapter σ) α :=
  Effect.zoom (fun s => s.lane.redisClient)
    (fun c s => { s with lane := { s.lane with redisClient := c } }) call

def mongo {α : Type} (call : RepositoryM α) : LaneM (RedisDBLaneAdapter σ) α :=
  Effect.zoom (fun s => s.lane.repository)
    (fun r s => { s with lane := { s.lane with repository := r } }) call

def cacheHit : LaneM (RedisDBLaneAdapter σ) Unit :=
  modify (fun s => { s with cache := { s.cache with hit := true } })

def cacheMiss : LaneM (RedisDBLaneAdapter σ) Unit :=
  modify (fun s => { s with cache := { s.cache with miss := true } })

def ttlLabel (ttlSeconds : PyFloat) : String := formatG ttlSeconds ++ "s"

def ttlApplied (ttlSeconds : PyFloat) : String :=
  "Redis TTL applied (ttl=" ++ ttlLabel ttlSeconds ++ ")"

variable [MiniRedisClient σ]

/-- The deadline that `SET`, `GET` and `HSET` give to the key they wrote. -/
def expireKey (key : String) : Option PyFloat → LaneM (RedisDBLaneAdapter σ) Unit
  | none => pure ()
  | some ttlSeconds => do
    let applied ← redis (MiniRedisClient.expire key ttlSeconds)
    extendPath [.redisExpire]
    extendChanges [if applied then ttlApplied ttlSeconds else "Redis TTL apply failed"]

/-- The loop of `_fill_hash`. -/
def fillFields (key : String) : List (String × String) → Effect σ String Unit
  | [] => pure ()
  | (fieldName, fieldValue) :: rest => do
    MiniRedisClient.hset key fieldName fieldValue
    fillFields key rest

def fillHash (key : String) (fields : Dict String String) (ttlSeconds : Option PyFloat) :
    Effect σ String Unit := do
  fillFields key fields.entries
  match ttlSeconds with
  | none => pure ()
  | some seconds => do
    let _ ← MiniRedisClient.expire key seconds

def executeSet (defaultTtl : Except String PyFloat) (request : ArenaRequest) :
    LaneM (RedisDBLaneAdapter σ) Unit := do
  let value := request.value.getD ""
  let writeState ← mongo (modifyGet (InMemoryMongoRepository.write request.key value))
  let ttlSeconds ← redisTtlForRequest defaultTtl request.ttlEnabled request.ttlSeconds
  redis (MiniRedisClient.set request.key value)
  extendPath [.mongoWrite, .redisSet]
  extendChanges ["Mongo document " ++ writeState, "Redis key upserted"]
  expireKey request.key ttlSeconds
  preview request.value
  answer setAnswer

def executeGet (defaultTtl : Except String PyFloat) (request : ArenaRequest) :
    LaneM (RedisDBLaneAdapter σ) Unit := do
  extendPath [.redisRead]
  match ← redis (MiniRedisClient.get request.key) with
  | some cachedValue =>
    cacheHit
    preview (some cachedValue)
    extendPath [.redisHit]
    extendChanges ["Redis value returned", "Mongo unchanged"]
    answer (getAnswer (some cachedValue))
  | none =>
    cacheMiss
    countRead
    match ← mongo (InMemoryMongoRepository.read request.key) with
    | none =>
      extendChanges ["Redis miss", "Mongo document missing"]
      answer (getAnswer none)
    | some mongoValue =>
      preview (some mongoValue)
      let ttlSeconds ← redisTtlForRequest defaultTtl request.ttlEnabled request.ttlSeconds
      redis (MiniRedisClient.set request.key mongoValue)
      extendPath [.redisFill]
      extendChanges ["Mongo document read", "Redis key filled"]
      expireKey request.key ttlSeconds
      answer (getAnswer (some mongoValue))

def executeHset (defaultTtl : Except String PyFloat) (request : ArenaRequest) :
    LaneM (RedisDBLaneAdapter σ) Unit := do
  let fieldName := request.field.getD ""
  let value := request.value.getD ""
  let writeState ← mongo (InMemoryMongoRepository.hset request.key fieldName value)
  let ttlSeconds ← redisTtlForRequest defaultTtl request.ttlEnabled request.ttlSeconds
  redis (MiniRedisClient.hset request.key fieldName value)
  extendPath [.mongoWrite, .redisSet]
  extendChanges ["Mongo hash field " ++ writeState, "Redis hash field upserted"]
  expireKey request.key ttlSeconds
  preview request.value
  answer setAnswer

/-- The refill of a missed hash, with what `HGET` and `HGETALL` both record of it. -/
def refill (defaultTtl : Except String PyFloat) (request : ArenaRequest)
    (mongoFields : Dict String String) : LaneM (RedisDBLaneAdapter σ) Unit := do
  let ttlSeconds ← redisTtlForRequest defaultTtl request.ttlEnabled request.ttlSeconds
  redis (fillHash request.key mongoFields ttlSeconds)
  extendPath [.redisFill]
  match ttlSeconds with
  | none => pure ()
  | some seconds =>
    extendPath [.redisExpire]
    extendChanges [ttlApplied seconds]

/-- The branch of `HGET` that neither lookup of the cache answers. -/
def missHget (defaultTtl : Except String PyFloat) (request : ArenaRequest) :
    LaneM (RedisDBLaneAdapter σ) Unit := do
  cacheMiss
  countRead
  match ← mongo (InMemoryMongoRepository.hgetall request.key) with
  | none =>
    extendChanges ["Redis miss", "Mongo hash missing"]
    answer (getAnswer none)
  | some mongoFields =>
    preview (mongoFields.get? (request.field.getD ""))
    refill defaultTtl request mongoFields
    extendChanges ["Mongo hash read", "Redis hash filled"]
    answer (getAnswer (mongoFields.get? (request.field.getD "")))

def executeHget (defaultTtl : Except String PyFloat) (request : ArenaRequest) :
    LaneM (RedisDBLaneAdapter σ) Unit := do
  let fieldName := request.field.getD ""
  extendPath [.redisRead]
  match ← redis (MiniRedisClient.hget request.key fieldName) with
  | some cachedValue =>
    cacheHit
    preview (some cachedValue)
    extendPath [.redisHit]
    extendChanges ["Redis hash field returned", "Mongo unchanged"]
    answer (getAnswer (some cachedValue))
  | none =>
    match ← redis (MiniRedisClient.hgetall request.key) with
    | some _ =>
      cacheHit
      preview none
      extendPath [.redisHit]
      extendChanges ["Redis hash field missing", "Mongo unchanged"]
      answer (getAnswer none)
    | none => missHget defaultTtl request

def executeHgetall (defaultTtl : Except String PyFloat) (request : ArenaRequest) :
    LaneM (RedisDBLaneAdapter σ) Unit := do
  extendPath [.redisRead]
  match ← redis (MiniRedisClient.hgetall request.key) with
  | some cachedFields =>
    cacheHit
    preview (serializeHash (some cachedFields))
    extendPath [.redisHit]
    extendChanges ["Redis hash returned", "Mongo unchanged"]
    answer (getAnswer (serializeHash (some cachedFields)))
  | none =>
    cacheMiss
    countRead
    match ← mongo (InMemoryMongoRepository.hgetall request.key) with
    | none =>
      extendChanges ["Redis miss", "Mongo hash missing"]
      answer (getAnswer none)
    | some mongoFields =>
      refill defaultTtl request mongoFields
      preview (serializeHash (some mongoFields))
      extendChanges ["Mongo hash read", "Redis hash filled"]
      answer (getAnswer (serializeHash (some mongoFields)))

def executeDel (request : ArenaRequest) : LaneM (RedisDBLaneAdapter σ) Unit := do
  extendPath [.redisDelete, .mongoDelete]
  let redisDeleted ← redis (MiniRedisClient.delete request.key)
  let mongoDeleted ← mongo (modifyGet (InMemoryMongoRepository.delete request.key))
  extendChanges [if redisDeleted then "Redis key deleted" else "Redis unchanged",
    if mongoDeleted then "Mongo document deleted" else "Mongo unchanged"]
  answer (deleteAnswer (redisDeleted || mongoDeleted))

def executeBody (defaultTtl : Except String PyFloat) (request : ArenaRequest) :
    LaneM (RedisDBLaneAdapter σ) Unit :=
  match request.command with
  | .set => executeSet defaultTtl request
  | .get => executeGet defaultTtl request
  | .hset => executeHset defaultTtl request
  | .hget => executeHget defaultTtl request
  | .hgetall => executeHgetall defaultTtl request
  | .del => executeDel request

def execute (defaultTtl : Except String PyFloat) (request : ArenaRequest)
    (lane : RedisDBLaneAdapter σ) : LaneResult × RedisDBLaneAdapter σ :=
  finish .redisDb "Redis + DB lane execution failed" request (executeBody defaultTtl request) lane

/-! Outside `execute` no exception is caught. -/

def withClient {α : Type} (call : Effect σ String α) : Effect (RedisDBLaneAdapter σ) String α :=
  Effect.zoom (fun a => a.redisClient) (fun c a => { a with redisClient := c }) call

def withRepository (step : InMemoryMongoRepository → InMemoryMongoRepository) :
    Effect (RedisDBLaneAdapter σ) String Unit :=
  modify (fun a => { a with repository := step a.repository })

/-- The loop of `clear` and `seed` that removes keys from the cache. -/
def deleteKeys : List String → Effect σ String Unit
  | [] => pure ()
  | key :: rest => do
    let _ ← MiniRedisClient.delete key
    deleteKeys rest

/-- The loop of `seed` that warms the cache. -/
def warmKeys (ttlSeconds : Option PyFloat) : List (String × String) → Effect σ String Unit
  | [] => pure ()
  | (key, value) :: rest => do
    MiniRedisClient.set key value
    match ttlSeconds with
    | none => pure ()
    | some seconds => do
      let _ ← MiniRedisClient.expire key seconds
    warmKeys ttlSeconds rest

def clear (keys : List String) (fullReset : Bool) : Effect (RedisDBLaneAdapter σ) String Unit := do
  if fullReset then
    withClient MiniRedisClient.flushdb
    withRepository InMemoryMongoRepository.clear
  else
    withClient (deleteKeys keys)
    withRepository (InMemoryMongoRepository.deleteMany keys)

structure MemoryConfiguration where
  profileKey : String
  maxMemoryBytes : ℤ
  redis : Dict String ℤ

def configureMemory (profileKey : String) (maxMemoryBytes : ℤ) :
    Effect (RedisDBLaneAdapter σ) String MemoryConfiguration := do
  withClient (MiniRedisClient.configSetMaxmemory maxMemoryBytes)
  return ⟨profileKey, maxMemoryBytes, ← withClient MiniRedisClient.infoMemory⟩

def seed (defaultTtl : Except String PyFloat) (seedInput : SeedStateInput) :
    Effect (RedisDBLaneAdapter σ) String Unit := do
  let documents := seedInput.documents
  withRepository (fun r => if documents.entries = [] then r else r.seed documents)
  withClient (deleteKeys documents.keys)
  if seedInput.warmCache then
    let ttlSeconds ← redisTtlForRequest defaultTtl seedInput.ttlEnabled seedInput.ttlSeconds
    withClient (warmKeys ttlSeconds documents.entries)

end RedisDBLaneAdapter

end MiniRedis.Arena
