/- GID: MiniRedis/Service/State
   generality: I
   digest: The shared tables of the server with their expiry, recency and eviction steps. -/

import Mathlib.Algebra.BigOperators.Group.Finset.Basic
import Mathlib.Data.Finset.Sort
import Mathlib.Data.PNat.Basic
import Mathlib.Data.String.Basic
import MiniRedis.Base.Dict
import MiniRedis.Base.Effect
import MiniRedis.Python.Number
import MiniRedis.Protocol.Types

set_option autoImplicit false
set_option relaxedAutoImplicit false

namespace MiniRedis.Service

open MiniRedis.Base MiniRedis.Python MiniRedis.Protocol

/-! ### Stored values -/

inductive ValueType where
  | string
  | hash
  | list
  | set
  | zset
  deriving DecidableEq

/-- A typed value. The members of a Python set have no observable order. -/
inductive ValueEntry where
  | string (value : String)
  | hash (value : Dict String String)
  | list (value : List String)
  | set (value : Finset String)
  | zset (value : Dict String PyFloat)
  deriving DecidableEq

namespace ValueEntry

def valueType : ValueEntry → ValueType
  | string _ => .string
  | hash _ => .hash
  | list _ => .list
  | set _ => .set
  | zset _ => .zset

/-! The payload under an already checked type. -/

def stringValue : ValueEntry → String
  | string value => value
  | _ => ""

def hashValue : ValueEntry → Dict String String
  | hash value => value
  | _ => Dict.empty

def listValue : ValueEntry → List String
  | list value => value
  | _ => []

def setValue : ValueEntry → Finset String
  | set value => value
  | _ => ∅

def zsetValue : ValueEntry → Dict String PyFloat
  | zset value => value
  | _ => Dict.empty

end ValueEntry

/-! ### The state -/

/-- `CommandService` with the two repositories it shares with the sweeper. The clock is the
stream of values that its next readings will return. -/
structure CommandService where
  clock : ℕ → ℚ
  store : Dict String ValueEntry
  ttl : Dict String PyFloat
  maxMemoryBytes : Option ℕ+
  accessClock : ℕ
  accessOrder : Dict String ℕ
  evictedKeys : ℕ

abbrev ServiceM := Effect CommandService PyException

def normalizeMaxMemoryBytes : Option ℤ → Option ℕ+
  | some value => if positive : 0 < value then some ⟨value.toNat, Int.lt_toNat.mpr positive⟩ else none
  | none => none

/-- `CommandService.__init__` over empty repositories. -/
def CommandService.init (clock : ℕ → ℚ) (maxMemoryBytes : Option ℤ) : CommandService where
  clock := clock
  store := Dict.empty
  ttl := Dict.empty
  maxMemoryBytes := normalizeMaxMemoryBytes maxMemoryBytes
  accessClock := 0
  accessOrder := Dict.empty
  evictedKeys := 0

/-- `Clock.now`. -/
def now (s : CommandService) : ℚ × CommandService :=
  (s.clock 0, { s with clock := fun n => s.clock (n + 1) })

/-! ### `ExpirationManager` and `TtlCalculator` -/

def calculateExpiresAt (now : ℚ) (ttlSeconds : PyFloat) : PyFloat := ttlSeconds.addRat now

/-- `max(0, ceil(expires_at - now))`, where `ceil` has no integer for a non-finite float. -/
def calculateRemainingSeconds (now : ℚ) : PyFloat → Except PyException ℤ
  | .nan => .error .valueError
  | .inf _ => .error .overflowError
  | .finite negative magnitude =>
    .ok (max 0 ⌈PyFloat.signedValue negative magnitude - now⌉)

def isExpired (key : String) (s : CommandService) : Bool × CommandService :=
  match s.ttl.get? key with
  | none => (false, s)
  | some expiresAt =>
    let (t, s) := now s
    (expiresAt.leRat t, s)

/-- `ExpirationManager._delete_key`: the recency table is not in its reach. -/
def deleteKey (key : String) (s : CommandService) : CommandService :=
  { s with store := s.store.erase key, ttl := s.ttl.erase key }

def purgeIfExpired (key : String) (s : CommandService) : Bool × CommandService :=
  let (expired, s) := isExpired key s
  if expired then (true, deleteKey key s) else (false, s)

/-! ### Recency -/

def forgetKey (key : String) (s : CommandService) : CommandService :=
  { s with accessOrder := s.accessOrder.erase key }

def touchKey (key : String) (s : CommandService) : CommandService :=
  if s.store.get? key = none then forgetKey key s
  else { s with
    accessClock := s.accessClock + 1
    accessOrder := s.accessOrder.set key (s.accessClock + 1) }

def getLiveEntry (key : String) (s : CommandService) : Option ValueEntry × CommandService :=
  let s := (purgeIfExpired key s).2
  match s.store.get? key with
  | none => (none, forgetKey key s)
  | some entry => (some entry, touchKey key s)

def getTypedEntry (key : String) (valueType : ValueType) : ServiceM (Option ValueEntry) := do
  match ← modifyGet (getLiveEntry key) with
  | none => pure none
  | some entry =>
    if entry.valueType ≠ valueType then throw (.commandError ERR_WRONG_TYPE)
    else pure (some entry)

def storeEntry (key : String) (entry : ValueEntry) (s : CommandService) : CommandService :=
  touchKey key { s with store := s.store.set key entry }

/-- The effect of changing a stored container in place: the table keeps the key's position. -/
def mutateEntry (key : String) (entry : ValueEntry) (s : CommandService) : CommandService :=
  { s with store := s.store.set key entry }

def deleteEntryAndTtl (key : String) (s : CommandService) : CommandService :=
  forgetKey key { s with store := s.store.erase key, ttl := s.ttl.erase key }

/-- One round of the loop of `_purge_all_expired_keys`. -/
def purgeOrForget (s : CommandService) (key : String) : CommandService :=
  let s := (purgeIfExpired key s).2
  if s.store.get? key = none then forgetKey key s else s

def purgeAllExpiredKeys (s : CommandService) : CommandService :=
  s.ttl.keys.foldl purgeOrForget s

/-! ### Memory -/

def estimateEntryBytes (key : String) : ValueEntry → ℕ
  | .string value => byteLength key + byteLength value
  | .hash value => byteLength key + value.sumBy (fun f v => byteLength f + byteLength v)
  | .list value => byteLength key + (value.map byteLength).sum
  | .set value => byteLength key + ∑ member ∈ value, byteLength member
  | .zset value =>
    byteLength key + value.sumBy (fun member score => byteLength member + byteLength (formatG score))

/-- `_current_memory_bytes`: every listed key has an entry, so its `None` branch is dead. -/
def currentMemoryBytes (s : CommandService) : ℕ := s.store.sumBy estimateEntryBytes

/-- `access_order.get(key, 0)`. -/
def lastAccess (s : CommandService) (key : String) : ℕ := (s.accessOrder.get? key).getD 0

/-- One comparison of the scan for the oldest key, which starts from infinity. -/
def olderOf (protectedKeys : List String) (s : CommandService)
    (oldest : Option String) (key : String) : Option String :=
  if key ∈ protectedKeys then oldest
  else
    match oldest with
    | none => some key
    | some oldestKey => if lastAccess s key < lastAccess s oldestKey then some key else oldest

def evictionCandidate (protectedKeys : List String) (s : CommandService) : Option String :=
  s.store.keys.foldl (olderOf protectedKeys s) none

def evictKey (key : String) (s : CommandService) : CommandService :=
  { deleteEntryAndTtl key s with evictedKeys := s.evictedKeys + 1 }

/-- The `while` loop of `_ensure_max_memory`. Every round removes a stored key, so as many
rounds as there are keys always suffice (`evictUntilFits_stops`). -/
def evictUntilFits (maxMemory : ℕ) (protectedKeys : List String) :
    ℕ → CommandService → CommandService
  | 0, s => s
  | rounds + 1, s =>
    if maxMemory < currentMemoryBytes s then
      match evictionCandidate protectedKeys s with
      | none => s
      | some key => evictUntilFits maxMemory protectedKeys rounds (evictKey key s)
    else s

/-- The `for` loop that gives the protection up. -/
def evictProtected (maxMemory : ℕ) : List String → CommandService → CommandService
  | [], s => s
  | key :: rest, s =>
    if currentMemoryBytes s ≤ maxMemory then s
    else if s.store.get? key = none then evictProtected maxMemory rest (forgetKey key s)
    else evictProtected maxMemory rest (evictKey key s)

def ensureMaxMemory (protectedKeys : List String) (s : CommandService) : CommandService :=
  match s.maxMemoryBytes with
  | none => s
  | some maxMemory =>
    let s := purgeAllExpiredKeys s
    let s := evictUntilFits maxMemory protectedKeys s.store.size s
    if currentMemoryBytes s ≤ maxMemory then s else evictProtected maxMemory protectedKeys s

/-! ### `ExpirationSweeper` -/

/-- `keys[:stop]`. -/
def sliceUpTo {α : Type} (keys : List α) (stop : ℤ) : List α :=
  if 0 ≤ stop then keys.take stop.toNat else keys.take (keys.length - (-stop).toNat)

/-- One round of the loop of `sweep_once`. -/
def sweepKey (t : ℚ) (acc : ℕ × CommandService) (key : String) : ℕ × CommandService :=
  match acc.2.ttl.get? key with
  | none => acc
  | some expiresAt => if expiresAt.leRat t then (acc.1 + 1, deleteKey key acc.2) else acc

def sweepOnce (sweepBatchSize : ℤ) (s : CommandService) : ℕ × CommandService :=
  let (t, s) := now s
  (sliceUpTo s.ttl.keys sweepBatchSize).foldl (sweepKey t) (0, s)

end MiniRedis.Service
