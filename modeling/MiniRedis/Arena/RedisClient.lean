/- GID: MiniRedis/Arena/RedisClient
   generality: I
   digest: The in-memory cache client of the arena with its deadlines and evictions. -/

import Mathlib.Data.PNat.Basic
import MiniRedis.Base.Dict
import MiniRedis.Base.Effect
import MiniRedis.Python.Number

set_option autoImplicit false
set_option relaxedAutoImplicit false

namespace MiniRedis.Arena

open MiniRedis.Base MiniRedis.Python

def WRONG_TYPE_MESSAGE : String :=
  "WRONGTYPE Operation against a key holding the wrong kind of value"

/-- The kind of a key with its payload, as `RedisEntry` and `ArenaDocument` both hold it. -/
inductive Payload where
  | string (value : String)
  | hash (fields : Dict String String)
  deriving DecidableEq

structure RedisEntry where
  payload : Payload
  expiresAt : Option PyFloat
  deriving DecidableEq

/-- `entry.expires_at is not None and now >= entry.expires_at`. -/
def RedisEntry.expired (now : ℚ) (entry : RedisEntry) : Bool :=
  entry.expiresAt.elim false (fun deadline => deadline.leRat now)

/-- The client with the stream of values that its next clock readings will return. -/
structure InMemoryMiniRedisClient where
  clock : ℕ → ℚ
  entries : Dict String RedisEntry
  maxMemoryBytes : Option ℕ+
  evictedKeys : ℕ
  accessClock : ℕ
  accessOrder : Dict String ℕ

/-- A client call may raise `TypeError`; an exception is its text. -/
abbrev ClientM := Effect InMemoryMiniRedisClient String

namespace InMemoryMiniRedisClient

def init (clock : ℕ → ℚ) (maxMemoryBytes : Option ℕ+) : InMemoryMiniRedisClient where
  clock := clock
  entries := Dict.empty
  maxMemoryBytes := maxMemoryBytes
  evictedKeys := 0
  accessClock := 0
  accessOrder := Dict.empty

def monotonic (c : InMemoryMiniRedisClient) : ℚ × InMemoryMiniRedisClient :=
  (c.clock 0, { c with clock := fun n => c.clock (n + 1) })

def delete (key : String) (c : InMemoryMiniRedisClient) : Bool × InMemoryMiniRedisClient :=
  if c.entries.get? key = none then (false, c)
  else (true, { c with
    entries := c.entries.erase key
    accessOrder := c.accessOrder.erase key })

/-- `self._entries[key] = entry`, or the effect of changing the stored entry in place. -/
def store (key : String) (entry : RedisEntry) (c : InMemoryMiniRedisClient) :
    InMemoryMiniRedisClient := { c with entries := c.entries.set key entry }

/-! ### Deadlines and recency -/

/-- One round of the loop of `_purge_expired`. -/
def purgeEntry (now : ℚ) (c : InMemoryMiniRedisClient) (item : String × RedisEntry) :
    InMemoryMiniRedisClient :=
  if item.2.expired now then (delete item.1 c).2 else c

def purgeExpired (c : InMemoryMiniRedisClient) : InMemoryMiniRedisClient :=
  let (now, c) := monotonic c
  c.entries.entries.foldl (purgeEntry now) c

def touch (key : String) (c : InMemoryMiniRedisClient) : InMemoryMiniRedisClient :=
  if c.entries.get? key = none then { c with accessOrder := c.accessOrder.erase key }
  else { c with
    accessClock := c.accessClock + 1
    accessOrder := c.accessOrder.set key (c.accessClock + 1) }

/-! ### Memory -/

def entrySizeBytes (key : String) (entry : RedisEntry) : ℕ :=
  match entry.payload with
  | .string value => byteLength key + byteLength value
  | .hash fields => byteLength key + fields.sumBy (fun f v => byteLength f + byteLength v)

def usedMemoryBytes (c : InMemoryMiniRedisClient) : ℕ := c.entries.sumBy entrySizeBytes

/-- `self._access_order.get(key, 0)`. -/
def lastAccess (c : InMemoryMiniRedisClient) (key : String) : ℕ :=
  (c.accessOrder.get? key).getD 0

/-- One comparison of the scan for the oldest key, which starts from infinity. -/
def olderOf (protectedKeys : List String) (c : InMemoryMiniRedisClient)
    (oldest : Option String) (key : String) : Option String :=
  if key ∈ protectedKeys then oldest
  else
    match oldest with
    | none => some key
    | some oldestKey => if lastAccess c key < lastAccess c oldestKey then some key else oldest

def evictionCandidate (protectedKeys : List String) (c : InMemoryMiniRedisClient) :
    Option String := c.entries.keys.foldl (olderOf protectedKeys c) none

/-- `self.delete(key)`, counted when it removed something. -/
def evict (key : String) (c : InMemoryMiniRedisClient) : InMemoryMiniRedisClient :=
  match delete key c with
  | (true, c) => { c with evictedKeys := c.evictedKeys + 1 }
  | (false, c) => c

/-- The `while` loop of `_enforce_max_memory`. Its candidates are stored keys, so every round
removes one and as many rounds as there are keys suffice (`evictUntilFits_stops`). -/
def evictUntilFits (maxMemory : ℕ) (protectedKeys : List String) :
    ℕ → InMemoryMiniRedisClient → InMemoryMiniRedisClient
  | 0, c => c
  | rounds + 1, c =>
    if maxMemory < usedMemoryBytes c then
      match evictionCandidate protectedKeys c with
      | none => c
      | some key => evictUntilFits maxMemory protectedKeys rounds (evict key c)
    else c

/-- The `for` loop that gives the protection up. -/
def evictProtected (maxMemory : ℕ) :
    List String → InMemoryMiniRedisClient → InMemoryMiniRedisClient
  | [], c => c
  | key :: rest, c =>
    if usedMemoryBytes c ≤ maxMemory then c else evictProtected maxMemory rest (evict key c)

def enforceMaxMemory (protectedKeys : List String) (c : InMemoryMiniRedisClient) :
    InMemoryMiniRedisClient :=
  match c.maxMemoryBytes with
  | none => c
  | some maxMemory =>
    let c := purgeExpired c
    let c := evictUntilFits maxMemory protectedKeys c.entries.size c
    if usedMemoryBytes c ≤ maxMemory then c else evictProtected maxMemory protectedKeys c

/-! ### Calls -/

/-- The tail that every write shares. -/
def written (key : String) (entry : RedisEntry) (c : InMemoryMiniRedisClient) :
    InMemoryMiniRedisClient := enforceMaxMemory [key] (touch key (store key entry c))

def set (key value : String) (c : InMemoryMiniRedisClient) : InMemoryMiniRedisClient :=
  written key ⟨.string value, none⟩ (purgeExpired c)

/-- The head that every read shares. The clock is read only for an entry with a deadline, and
an entry past it is removed. -/
def liveEntry (key : String) (c : InMemoryMiniRedisClient) :
    Option RedisEntry × InMemoryMiniRedisClient :=
  match c.entries.get? key with
  | none => (none, c)
  | some entry =>
    match entry.expiresAt with
    | none => (some entry, c)
    | some deadline =>
      let (now, c) := monotonic c
      if deadline.leRat now then (none, (delete key c).2) else (some entry, c)

def get (key : String) : ClientM (Option String) := do
  match ← modifyGet (liveEntry key) with
  | none => pure none
  | some entry =>
    match entry.payload with
    | .hash _ => throw WRONG_TYPE_MESSAGE
    | .string value =>
      modify (touch key)
      pure (some value)

def hset (key fieldName value : String) : ClientM Unit := do
  modify purgeExpired
  match (← MonadState.get).entries.get? key with
  | none => modify (written key ⟨.hash (Dict.empty.set fieldName value), none⟩)
  | some entry =>
    match entry.payload with
    | .string _ => throw WRONG_TYPE_MESSAGE
    | .hash fields => modify (written key ⟨.hash (fields.set fieldName value), entry.expiresAt⟩)

/-- `hget` and `hgetall` differ only in what they select from the fields. -/
def readHash {α : Type} (select : Dict String String → Option α) (key : String) :
    ClientM (Option α) := do
  match ← modifyGet (liveEntry key) with
  | none => pure none
  | some entry =>
    match entry.payload with
    | .string _ => throw WRONG_TYPE_MESSAGE
    | .hash fields =>
      modify (touch key)
      pure (select fields)

def hget (key fieldName : String) : ClientM (Option String) :=
  readHash (fun fields => fields.get? fieldName) key

def hgetall (key : String) : ClientM (Option (Dict String String)) := readHash some key

/-- `ceil(x)`; an exception is its text. -/
def ceil : PyFloat → Except String ℤ
  | .nan => .error "cannot convert float NaN to integer"
  | .inf _ => .error "cannot convert float infinity to integer"
  | .finite negative magnitude => .ok ⌈PyFloat.signedValue negative magnitude⌉

def ttl (key : String) : ClientM (Option ℤ) := do
  match (← MonadState.get).entries.get? key with
  | none => pure none
  | some entry =>
    match entry.expiresAt with
    | none => pure none
    | some expiresAt =>
      let now ← modifyGet monotonic
      let remainingSeconds ← ceil (expiresAt.addRat (-now))
      if remainingSeconds ≤ 0 then
        modify (fun c => (delete key c).2)
        pure none
      else pure (some remainingSeconds)

/-- A deadline is given to whatever is stored, also to an entry that is past its own. -/
def expire (key : String) (ttlSeconds : PyFloat) (c : InMemoryMiniRedisClient) :
    Bool × InMemoryMiniRedisClient :=
  match c.entries.get? key with
  | none => (false, c)
  | some entry =>
    let (now, c) := monotonic c
    (true, touch key (store key { entry with expiresAt := some (ttlSeconds.addRat now) } c))

/-- `config_set_maxmemory`. -/
def configSetMaxmemory (maxMemoryBytes : ℤ) (c : InMemoryMiniRedisClient) :
    InMemoryMiniRedisClient :=
  enforceMaxMemory [] { c with
    maxMemoryBytes := if 0 < maxMemoryBytes then some maxMemoryBytes.toNat.toPNat' else none }

def flushdb (c : InMemoryMiniRedisClient) : InMemoryMiniRedisClient :=
  { c with entries := Dict.empty, accessOrder := Dict.empty, evictedKeys := 0 }

def dbsize (c : InMemoryMiniRedisClient) : ℕ × InMemoryMiniRedisClient :=
  let c := purgeExpired c
  (c.entries.size, c)

/-- `self._max_memory_bytes or 0`. -/
def maxMemoryOrZero (c : InMemoryMiniRedisClient) : ℕ :=
  match c.maxMemoryBytes with
  | none => 0
  | some maxMemory => maxMemory

/-- The figures that `info_memory` reports, under their names. -/
def memoryReport (usedMemory maxmemory keys evictedKeys : ℤ) : Dict String ℤ :=
  (((Dict.empty.set "used_memory" usedMemory).set "maxmemory" maxmemory).set "keys" keys).set
    "evicted_keys" evictedKeys

def infoMemory (c : InMemoryMiniRedisClient) : Dict String ℤ × InMemoryMiniRedisClient :=
  let c := purgeExpired c
  (memoryReport (usedMemoryBytes c) (maxMemoryOrZero c) c.entries.size c.evictedKeys, c)

end InMemoryMiniRedisClient

/-! ### The protocol -/

/-- What a lane may ask of its cache client, whichever one it was built with. -/
class MiniRedisClient (σ : Type) where
  set : String → String → Effect σ String Unit
  get : String → Effect σ String (Option String)
  hset : String → String → String → Effect σ String Unit
  hget : String → String → Effect σ String (Option String)
  hgetall : String → Effect σ String (Option (Dict String String))
  delete : String → Effect σ String Bool
  expire : String → PyFloat → Effect σ String Bool
  ttl : String → Effect σ String (Option ℤ)
  flushdb : Effect σ String Unit
  dbsize : Effect σ String ℤ
  infoMemory : Effect σ String (Dict String ℤ)
  configSetMaxmemory : ℤ → Effect σ String Unit

instance : MiniRedisClient InMemoryMiniRedisClient where
  set key value := modify (InMemoryMiniRedisClient.set key value)
  get := InMemoryMiniRedisClient.get
  hset := InMemoryMiniRedisClient.hset
  hget := InMemoryMiniRedisClient.hget
  hgetall := InMemoryMiniRedisClient.hgetall
  delete key := modifyGet (InMemoryMiniRedisClient.delete key)
  expire key ttlSeconds := modifyGet (InMemoryMiniRedisClient.expire key ttlSeconds)
  ttl := InMemoryMiniRedisClient.ttl
  flushdb := modify InMemoryMiniRedisClient.flushdb
  dbsize := return (← modifyGet InMemoryMiniRedisClient.dbsize)
  infoMemory := modifyGet InMemoryMiniRedisClient.infoMemory
  configSetMaxmemory maxMemoryBytes :=
    modify (InMemoryMiniRedisClient.configSetMaxmemory maxMemoryBytes)

end MiniRedis.Arena
