/- GID: MiniRedis/Arena/EvictionAgreement
   generality: I
   digest: The two clients evict alike until a call of the wrong type reorders the server's keys. -/

import MiniRedis.Base.Lockstep
import MiniRedis.Arena.RedisPyClient
import MiniRedis.Arena.Refill
import MiniRedis.Service.Expiry
import MiniRedis.Service.FreshStart

set_option autoImplicit false
set_option relaxedAutoImplicit false

namespace MiniRedis.Arena

open MiniRedis.Base MiniRedis.Python MiniRedis.Protocol MiniRedis.Commands MiniRedis.Service

/-- An entry without a deadline; a hash has a field. -/
structure RedisEntry.Plain (entry : RedisEntry) : Prop where
  forever : entry.expiresAt = none
  filled : ∀ fields, entry.payload = .hash fields → fields.entries ≠ []

namespace InMemoryMiniRedisClient

variable {c : InMemoryMiniRedisClient} {key : String} {clock : ℕ → ℚ}

/-! ### The client as a service -/

/-- The service that holds what the client holds, with the client's stamps and without
deadlines. -/
def asService (clock : ℕ → ℚ) (c : InMemoryMiniRedisClient) : CommandService where
  clock := clock
  store := c.entries.map (fun entry => entry.payload.entry)
  ttl := Dict.empty
  maxMemoryBytes := c.maxMemoryBytes
  accessClock := c.accessClock
  accessOrder := c.accessOrder
  evictedKeys := c.evictedKeys

/-- Every entry is plain. -/
def Plain (c : InMemoryMiniRedisClient) : Prop :=
  ∀ key entry, c.entries.get? key = some entry → entry.Plain

theorem asService_get? (clock : ℕ → ℚ) (c : InMemoryMiniRedisClient) (key : String) :
    (asService clock c).store.get? key = (c.entries.get? key).map (fun entry => entry.payload.entry) :=
  Dict.get?_map _ _ _

theorem asService_absent_iff :
    (asService clock c).store.get? key = none ↔ c.entries.get? key = none := by
  rw [asService_get?, Option.map_eq_none_iff]

theorem asService_touch (key : String) (c : InMemoryMiniRedisClient) :
    asService clock (touch key c) = touchKey key (asService clock c) := by
  unfold touch touchKey
  simp only [asService_absent_iff]
  split <;> rfl

theorem asService_store (key : String) (entry : RedisEntry) (c : InMemoryMiniRedisClient) :
    asService clock (store key entry c) = mutateEntry key entry.payload.entry (asService clock c) := by
  unfold asService store mutateEntry
  rw [Dict.map_set]

theorem asService_delete (stored : c.entries.get? key ≠ none) :
    asService clock (delete key c).2 = deleteEntryAndTtl key (asService clock c) := by
  unfold delete
  rw [if_neg stored]
  unfold asService deleteEntryAndTtl forgetKey
  rw [Dict.map_erase]
  rfl

theorem asService_evict (stored : c.entries.get? key ≠ none) :
    asService clock (evict key c) = evictKey key (asService clock c) := by
  unfold evict delete
  rw [if_neg stored]
  unfold asService evictKey deleteEntryAndTtl forgetKey
  rw [Dict.map_erase]
  rfl

theorem asService_memory (clock : ℕ → ℚ) (c : InMemoryMiniRedisClient) :
    currentMemoryBytes (asService clock c) = usedMemoryBytes c := by
  have size : ∀ key (entry : RedisEntry),
      estimateEntryBytes key entry.payload.entry = entrySizeBytes key entry := by
    rintro key ⟨payload, expiresAt⟩
    cases payload <;> rfl
  rw [currentMemoryBytes, asService, Dict.sumBy_map]
  simp only [size]
  rfl

theorem asService_candidate (clock : ℕ → ℚ) (protectedKeys : List String)
    (c : InMemoryMiniRedisClient) :
    Service.evictionCandidate protectedKeys (asService clock c) = evictionCandidate protectedKeys c := by
  have keys : (asService clock c).store.keys = c.entries.keys := Dict.keys_map _ _
  rw [Service.evictionCandidate, keys]
  rfl

theorem asService_evictUntilFits (maxMemory : ℕ) (protectedKeys : List String) (rounds : ℕ)
    (c : InMemoryMiniRedisClient) :
    asService clock (evictUntilFits maxMemory protectedKeys rounds c) =
      Service.evictUntilFits maxMemory protectedKeys rounds (asService clock c) := by
  induction rounds generalizing c with
  | zero => rfl
  | succ rounds ih =>
    unfold evictUntilFits Service.evictUntilFits
    rw [asService_memory, asService_candidate]
    split
    · cases found : evictionCandidate protectedKeys c with
      | none => rfl
      | some key => exact (ih _).trans (by rw [asService_evict (evictionCandidate_mem found).1])
    · rfl

theorem asService_evictProtected (maxMemory : ℕ) (stored : c.entries.get? key ≠ none) :
    asService clock (evictProtected maxMemory [key] c) =
      Service.evictProtected maxMemory [key] (asService clock c) := by
  unfold evictProtected Service.evictProtected
  rw [asService_memory, if_neg (mt asService_absent_iff.mp stored)]
  split
  · rfl
  · exact asService_evict stored

theorem purgeExpired_plain (plain : Plain c) : purgeExpired c = (monotonic c).2 := by
  have loop : ∀ (items : List (String × RedisEntry)) (c : InMemoryMiniRedisClient) (now : ℚ),
      (∀ item ∈ items, item.2.expiresAt = none) → items.foldl (purgeEntry now) c = c := by
    intro items
    induction items with
    | nil => exact fun _ _ _ => rfl
    | cons item items ih =>
      intro c now forever
      have kept : purgeEntry now c item = c := by
        rw [purgeEntry, RedisEntry.expired, forever item List.mem_cons_self]
        rfl
      rw [List.foldl_cons, kept]
      exact ih c now (fun later member => forever later (List.mem_cons_of_mem _ member))
  refine loop _ _ _ (fun item member => ?_)
  exact (plain item.1 item.2 ((Dict.get?_eq_some_iff _ _ _).mpr member)).forever

theorem asService_purgeExpired (plain : Plain c) :
    asService clock (purgeExpired c) = asService clock c := by
  rw [purgeExpired_plain plain]
  rfl

theorem asService_enforceMaxMemory (plain : Plain c) {protectedKeys : List String}
    (stored : protectedKeys = [] ∨ ∃ key, protectedKeys = [key] ∧ c.entries.get? key ≠ none) :
    asService clock (enforceMaxMemory protectedKeys c) =
      ensureMaxMemory protectedKeys (asService clock c) := by
  unfold enforceMaxMemory ensureMaxMemory
  have limit : (asService clock c).maxMemoryBytes = c.maxMemoryBytes := rfl
  rw [limit]
  cases c.maxMemoryBytes with
  | none => rfl
  | some maxMemory =>
    have purged : purgeAllExpiredKeys (asService clock c) = asService clock (purgeExpired c) := by
      rw [asService_purgeExpired plain]
      rfl
    have size : (asService clock (purgeExpired c)).store.size = (purgeExpired c).entries.size :=
      Dict.size_map _ _
    dsimp only
    rw [purged, size, ← asService_evictUntilFits, asService_memory]
    split
    · rfl
    · rcases stored with rfl | ⟨key, rfl, stored⟩
      · rfl
      · refine asService_evictProtected maxMemory ?_
        rw [get?_evictUntilFits, purgeExpired_plain plain]
        exact stored

theorem asService_written (plain : Plain c) {entry : RedisEntry} (plainEntry : entry.Plain)
    (key : String) :
    asService clock (written key entry c) =
      ensureMaxMemory [key] (storeEntry key entry.payload.entry (asService clock c)) := by
  have stored : (touch key (store key entry c)).entries = c.entries.set key entry := touch_entries _ _
  have kept : Plain (touch key (store key entry c)) := by
    intro other found
    rw [stored, Dict.get?_set]
    split
    · rintro ⟨⟩
      exact plainEntry
    · exact plain other found
  rw [written, asService_enforceMaxMemory kept (Or.inr ⟨key, rfl, by rw [stored]; simp⟩),
    asService_touch, asService_store]
  rfl

/-! ### What a call leaves -/

theorem Plain.of_sub {c' : InMemoryMiniRedisClient} (plain : Plain c) (sub : ∀ key entry,
    c'.entries.get? key = some entry → c.entries.get? key = some entry) : Plain c' :=
  fun key entry found => plain key entry (sub key entry found)

theorem Plain.written (plain : Plain c) {entry : RedisEntry} (plainEntry : entry.Plain)
    (key : String) : Plain (written key entry c) := by
  intro other found stored
  by_cases same : other = key
  · subst same
    rw [get?_written] at stored
    have value := Option.eq_some_of_filter_eq_some stored
    cases value
    exact plainEntry
  · exact plain other found ((ShrinksBeside.written key entry c).sub other same found stored)

theorem Plain.purgeExpired (plain : Plain c) : Plain (purgeExpired c) :=
  plain.of_sub (Shrinks.purgeExpired c).sub

end InMemoryMiniRedisClient

/-! ### One call on the client and on its service -/

open InMemoryMiniRedisClient (asService Plain lastAccess)

/-- The calls that give and read no deadline. -/
def ClientCall.Untimed : ClientCall → Prop
  | .expire _ _ | .ttl _ => False
  | _ => True

/-- The key under which the call finds a value of the wrong type. -/
def ClientCall.mistyped (c : InMemoryMiniRedisClient) : ClientCall → Option String
  | .get key =>
    match (c.entries.get? key).map RedisEntry.payload with
    | some (.hash _) => some key
    | _ => none
  | .hset key _ _ | .hget key _ | .hgetall key =>
    match (c.entries.get? key).map RedisEntry.payload with
    | some (.string _) => some key
    | _ => none
  | _ => none

/-- A call that fails on the type of a value finds it under the most recently used key. -/
def ClientCall.KeepsOrder (c : InMemoryMiniRedisClient) (call : ClientCall) : Prop :=
  ∀ key ∈ call.mistyped c, ∀ other ∈ c.entries.keys, c.lastAccess other ≤ c.lastAccess key

/-- Limits and the figures of a report have at most as many digits as Python converts. -/
def ClientCall.Readable (c : InMemoryMiniRedisClient) : ClientCall → Prop
  | .configSetMaxmemory maxMemoryBytes => maxMemoryBytes.toNat < readableBound
  | .infoMemory =>
    c.usedMemoryBytes < readableBound ∧ c.maxMemoryOrZero < readableBound ∧
      c.entries.size < readableBound ∧ c.evictedKeys < readableBound
  | _ => True

instance (c : InMemoryMiniRedisClient) (call : ClientCall) : Decidable (call.KeepsOrder c) :=
  inferInstanceAs (Decidable (∀ key ∈ call.mistyped c, ∀ other ∈ c.entries.keys,
    c.lastAccess other ≤ c.lastAccess key))

instance (c : InMemoryMiniRedisClient) (call : ClientCall) : Decidable (call.Readable c) := by
  cases call <;> unfold ClientCall.Readable <;> infer_instance

/-- The client answers like its service and ends alike. -/
structure ActsAlike (clock : ℕ → ℚ) (c : InMemoryMiniRedisClient) (call : ClientCall) : Prop where
  outcome : SameOutcome (call.onInMemory.exec c).1
    ((readOutcome (perform call.operation (asService clock c)).1).map call.readReply)
  alike : Alike (perform call.operation (asService clock c)).2
    (asService clock (call.onInMemory.exec c).2)
  plain : Plain (call.onInMemory.exec c).2

section Calls

variable {c : InMemoryMiniRedisClient} {clock : ℕ → ℚ} {key : String}

private theorem plain_string (value : String) : (⟨.string value, none⟩ : RedisEntry).Plain :=
  ⟨rfl, (fun _ hash => by cases hash)⟩

private theorem plain_hash (fields : Dict String String) (fieldName value : String) :
    (⟨.hash (fields.set fieldName value), none⟩ : RedisEntry).Plain := by
  refine ⟨rfl, fun fields' hash => ?_⟩
  cases hash
  exact Dict.entries_set_ne_nil _ _ _

private theorem ActsAlike.of_eq {call : ClientCall} (c' : InMemoryMiniRedisClient)
    (consistent : Consistent (asService clock c)) (left : (call.onInMemory.exec c).2 = c')
    (same : (perform call.operation (asService clock c)).2 = asService clock c')
    (outcome : SameOutcome (call.onInMemory.exec c).1
      ((readOutcome (perform call.operation (asService clock c)).1).map call.readReply))
    (plain : Plain c') : ActsAlike clock c call := by
  refine ⟨outcome, ?_, left ▸ plain⟩
  rw [left, ← same]
  exact .refl ((perform_moves _ _).consistent consistent)

private theorem actsAlike_set (plain : Plain c) (consistent : Consistent (asService clock c))
    (key value : String) : ActsAlike clock c (.set key value) := by
  refine .of_eq (c.set key value) consistent rfl ?_ rfl
    (plain.purgeExpired.written (plain_string value) key)
  rw [InMemoryMiniRedisClient.set,
    InMemoryMiniRedisClient.asService_written plain.purgeExpired (plain_string value),
    InMemoryMiniRedisClient.asService_purgeExpired plain]
  rfl

private theorem liveEntry_plain (plain : Plain c) (key : String) :
    c.liveEntry key = (c.entries.get? key, c) := by
  unfold InMemoryMiniRedisClient.liveEntry
  cases found : c.entries.get? key with
  | none => rfl
  | some entry => simp only [(plain key entry found).forever]

private theorem performTyped_asService (clock : ℕ → ℚ) (op : TypedOp) (key : String) :
    performTyped key op (asService clock c) =
      match c.entries.get? key with
      | none =>
        match op.emptyContainer with
        | none => (.ok op.absentReply, forgetKey key (asService clock c))
        | some container =>
          op.finish key container (storeEntry key container (forgetKey key (asService clock c)))
      | some entry =>
        if entry.payload.entry.valueType ≠ op.valueType then
          (.error (.commandError ERR_WRONG_TYPE), touchKey key (asService clock c))
        else op.finish key entry.payload.entry (touchKey key (asService clock c)) := by
  have purged : purgeIfExpired key (asService clock c) = (false, asService clock c) :=
    purgeIfExpired_of_no_deadline rfl
  rw [performTyped, purged, InMemoryMiniRedisClient.asService_get?]
  cases c.entries.get? key <;> rfl

/-- The server's touch before its type error is seen only under another key than the last. -/
private theorem alike_mistyped {call : ClientCall} (consistent : Consistent (asService clock c))
    (stored : c.entries.get? key ≠ none) (mistyped : call.mistyped c = some key)
    (keeps : call.KeepsOrder c) :
    Alike (touchKey key (asService clock c)) (asService clock c) := by
  refine .touched_again consistent (mt InMemoryMiniRedisClient.asService_absent_iff.mp stored)
    (fun other here => ?_)
  refine keeps key mistyped other ?_
  by_contra absent
  exact here (InMemoryMiniRedisClient.asService_absent_iff.mpr
    ((Dict.get?_eq_none_iff _ _).mpr absent))

private theorem actsAlike_read {op : TypedOp} {call : ClientCall}
    (operation : call.operation = .typed key op) (reads : op.emptyContainer = none)
    (unchanged : ∀ entry, (op.onEntry entry).2 = .keep) (plain : Plain c)
    (consistent : Consistent (asService clock c)) (keeps : call.KeepsOrder c)
    (absent : c.entries.get? key = none → (call.onInMemory.exec c).2 = c ∧
      SameOutcome (call.onInMemory.exec c).1
        ((readOutcome (.ok op.absentReply)).map call.readReply))
    (present : ∀ entry, c.entries.get? key = some entry →
      if entry.payload.entry.valueType ≠ op.valueType then
        call.onInMemory.exec c = (.error WRONG_TYPE_MESSAGE, c) ∧ call.mistyped c = some key
      else (call.onInMemory.exec c).2 = c.touch key ∧
        SameOutcome (call.onInMemory.exec c).1
          ((readOutcome (.ok (op.onEntry entry.payload.entry).1)).map call.readReply)) :
    ActsAlike clock c call := by
  have run : perform call.operation (asService clock c) = _ :=
    (congrArg (perform · _) operation).trans (performTyped_asService clock op key)
  have grows : op.grows = false := by rw [TypedOp.grows, reads]; rfl
  cases found : c.entries.get? key with
  | none =>
    obtain ⟨left, outcome⟩ := absent found
    simp only [found, reads] at run
    refine ⟨by rw [run]; exact outcome, ?_, by rw [left]; exact plain⟩
    rw [run, left]
    exact .forgotten consistent (InMemoryMiniRedisClient.asService_absent_iff.mpr found)
  | some entry =>
    have here := present entry found
    simp only [found] at run
    by_cases typed : entry.payload.entry.valueType = op.valueType
    · rw [if_neg (not_not_intro typed)] at run here
      have finished : op.finish key entry.payload.entry (touchKey key (asService clock c)) =
          (.ok (op.onEntry entry.payload.entry).1, touchKey key (asService clock c)) := by
        simp [TypedOp.finish, unchanged, grows, EntryUpdate.apply]
      rw [finished] at run
      refine .of_eq (c.touch key) consistent here.1 ?_ (by rw [run]; exact here.2) ?_
      · rw [run, InMemoryMiniRedisClient.asService_touch]
      · exact plain.of_sub (fun _ _ stored => InMemoryMiniRedisClient.touch_entries key c ▸ stored)
    · rw [if_pos typed] at run here
      obtain ⟨raised, mistyped⟩ := here
      refine ⟨by rw [run, raised]; exact Iff.rfl, ?_, by rw [raised]; exact plain⟩
      rw [run, raised]
      exact alike_mistyped consistent (by rw [found]; simp) mistyped keeps

private theorem actsAlike_get (plain : Plain c) (consistent : Consistent (asService clock c))
    (keeps : (ClientCall.get key).KeepsOrder c) : ActsAlike clock c (.get key) := by
  have run : (ClientCall.get key).onInMemory.exec c = _ :=
    Effect.exec_bind_pure (InMemoryMiniRedisClient.get key) ClientReply.text c
  rw [InMemoryMiniRedisClient.get, Effect.exec_bind, Effect.exec_modifyGet, liveEntry_plain plain]
    at run
  refine actsAlike_read rfl rfl (fun _ => rfl) plain consistent keeps
    (fun absent => ?_) (fun entry found => ?_)
  · rw [run, absent]
    exact ⟨rfl, rfl⟩
  · rw [run, found, ClientCall.mistyped, found]
    obtain ⟨payload, expiresAt⟩ := entry
    cases payload with
    | string value => exact ⟨rfl, rfl⟩
    | hash fields => exact ⟨rfl, rfl⟩

private theorem readHash_plain {α : Type} (plain : Plain c) (select : Dict String String → Option α)
    (key : String) :
    (InMemoryMiniRedisClient.readHash select key).exec c =
      match (c.entries.get? key).map RedisEntry.payload with
      | none => (.ok none, c)
      | some (.string _) => (.error WRONG_TYPE_MESSAGE, c)
      | some (.hash fields) => (.ok (select fields), c.touch key) := by
  rw [InMemoryMiniRedisClient.readHash, Effect.exec_bind, Effect.exec_modifyGet,
    liveEntry_plain plain]
  cases c.entries.get? key with
  | none => rfl
  | some entry =>
    obtain ⟨payload, expiresAt⟩ := entry
    cases payload <;> rfl

private theorem actsAlike_hget {fieldName : String} (plain : Plain c)
    (consistent : Consistent (asService clock c))
    (keeps : (ClientCall.hget key fieldName).KeepsOrder c) :
    ActsAlike clock c (.hget key fieldName) := by
  have run : (ClientCall.hget key fieldName).onInMemory.exec c = _ :=
    Effect.exec_bind_pure (InMemoryMiniRedisClient.hget key fieldName) ClientReply.text c
  rw [InMemoryMiniRedisClient.hget, readHash_plain plain] at run
  refine actsAlike_read rfl rfl (fun _ => rfl) plain consistent keeps (fun absent => ?_)
    (fun entry found => ?_)
  · rw [run, absent]
    exact ⟨rfl, rfl⟩
  · rw [run, found, ClientCall.mistyped, found]
    obtain ⟨payload, expiresAt⟩ := entry
    cases payload with
    | string value => exact ⟨rfl, rfl⟩
    | hash fields => exact ⟨rfl, sameOutcome_field key fieldName (fields.get? fieldName)⟩

private theorem actsAlike_hgetall (plain : Plain c) (consistent : Consistent (asService clock c))
    (keeps : (ClientCall.hgetall key).KeepsOrder c) : ActsAlike clock c (.hgetall key) := by
  have run : (ClientCall.hgetall key).onInMemory.exec c = _ :=
    Effect.exec_bind_pure (InMemoryMiniRedisClient.hgetall key) ClientReply.fields c
  rw [InMemoryMiniRedisClient.hgetall, readHash_plain plain] at run
  refine actsAlike_read rfl rfl (fun _ => rfl) plain consistent keeps (fun absent => ?_)
    (fun entry found => ?_)
  · rw [run, absent]
    exact ⟨rfl, rfl⟩
  · rw [run, found, ClientCall.mistyped, found]
    have filled := (plain key entry found).filled
    obtain ⟨payload, expiresAt⟩ := entry
    cases payload with
    | string value => exact ⟨rfl, rfl⟩
    | hash fields => exact ⟨rfl, sameReply_hash (filled fields rfl) key⟩

private theorem alike_grown {s r : CommandService} (consistent : Consistent s) (moves : Service.Moves s r)
    {entry : ValueEntry} (same : SameTables (mutateEntry key entry r) (mutateEntry key entry s))
    (recency : ∀ a, a ≠ key → r.accessOrder.get? a = s.accessOrder.get? a) :
    Alike (ensureMaxMemory [key] (storeEntry key entry r))
      (ensureMaxMemory [key] (storeEntry key entry s)) := by
  refine (Alike.storeEntry_beside consistent (moves.consistent consistent) same
    (fun a different => ?_)).ensureMaxMemory [key]
  rw [Service.lastAccess, Service.lastAccess, recency a different]

private theorem actsAlike_hset {fieldName value : String} (plain : Plain c)
    (consistent : Consistent (asService clock c))
    (keeps : (ClientCall.hset key fieldName value).KeepsOrder c) :
    ActsAlike clock c (.hset key fieldName value) := by
  have run : (ClientCall.hset key fieldName value).onInMemory.exec c = _ :=
    Effect.exec_bind_pure (InMemoryMiniRedisClient.hset key fieldName value)
      (fun _ => ClientReply.done) c
  have served : perform (ClientCall.hset key fieldName value).operation (asService clock c) = _ :=
    performTyped_asService clock (.hset fieldName value) key
  have purged : c.purgeExpired.entries.get? key = c.entries.get? key := by
    rw [InMemoryMiniRedisClient.purgeExpired_plain plain]
    rfl
  have same : asService clock c.purgeExpired = asService clock c :=
    InMemoryMiniRedisClient.asService_purgeExpired plain
  cases found : c.entries.get? key with
  | none =>
    rw [found] at purged served
    rw [InMemoryMiniRedisClient.exec_hset_of_absent fieldName value purged] at run
    have entry := plain_hash Dict.empty fieldName value
    refine ⟨by rw [run, served]; rfl, ?_, by rw [run]; exact plain.purgeExpired.written entry key⟩
    rw [run, served, InMemoryMiniRedisClient.asService_written plain.purgeExpired entry, same]
    have absent : (asService clock c).store.get? key = none :=
      InMemoryMiniRedisClient.asService_absent_iff.mpr found
    have moves : Service.Moves (asService clock c)
        (storeEntry key (.hash Dict.empty) (forgetKey key (asService clock c))) :=
      .tail (.single (.removal (.forget absent))) (.put _ key _)
    refine alike_grown consistent moves ⟨?_, ?_, ?_, ?_, ?_⟩ (fun a different => ?_)
    · simp [mutateEntry, storeEntry, forgetKey]
    · simp [mutateEntry, forgetKey, Dict.set_set]
    · simp [mutateEntry, storeEntry, forgetKey]
    · simp [mutateEntry, storeEntry, forgetKey]
    · simp [mutateEntry, storeEntry, forgetKey]
    · simp [storeEntry, touchKey, forgetKey, Dict.get?_set, Dict.get?_erase, different]
  | some entry =>
    rw [found] at purged served
    have forever := (plain key entry found).forever
    cases payload : entry.payload with
    | string text =>
      rw [InMemoryMiniRedisClient.exec_hset_of_string fieldName value purged payload] at run
      simp only [payload] at served
      have mistyped : (ClientCall.hset key fieldName value).mistyped c = some key := by
        simp [ClientCall.mistyped, found, payload]
      refine ⟨by rw [run, served]; exact Iff.rfl, ?_, by rw [run]; exact plain.purgeExpired⟩
      rw [run, served, same]
      exact alike_mistyped consistent (by rw [found]; simp) mistyped keeps
    | hash fields =>
      rw [InMemoryMiniRedisClient.exec_hset_of_hash fieldName value purged payload, forever] at run
      simp only [payload] at served
      have grown := plain_hash fields fieldName value
      refine ⟨by rw [run, served]; rfl, ?_, by rw [run]; exact plain.purgeExpired.written grown key⟩
      rw [run, served, InMemoryMiniRedisClient.asService_written plain.purgeExpired grown, same]
      refine alike_grown consistent (.single (.touch _ key)) ⟨?_, ?_, ?_, ?_, ?_⟩
        (fun a different => (sameElsewhere_touchKey key _ a different).2.2) <;>
      simp [mutateEntry]

private theorem actsAlike_delete (plain : Plain c) (consistent : Consistent (asService clock c))
    (key : String) : ActsAlike clock c (.delete key) := by
  have run : (ClientCall.delete key).onInMemory.exec c =
      (.ok (.flag (c.delete key).1), (c.delete key).2) := rfl
  have served : perform (ClientCall.delete key).operation (asService clock c) = _ :=
    perform_del key (asService clock c)
  have purged : purgeIfExpired key (asService clock c) = (false, asService clock c) :=
    purgeIfExpired_of_no_deadline rfl
  rw [purged] at served
  by_cases absent : c.entries.get? key = none
  · have missing : (asService clock c).store.get? key = none :=
      InMemoryMiniRedisClient.asService_absent_iff.mpr absent
    have refused : c.delete key = (false, c) := by
      rw [InMemoryMiniRedisClient.delete, if_pos absent]
    rw [if_pos missing] at served
    rw [refused] at run
    refine ⟨by rw [run, served]; rfl, ?_, by rw [run]; exact plain⟩
    rw [run, served]
    exact .forgotten consistent missing
  · have removed : (c.delete key).1 = true := by
      rw [InMemoryMiniRedisClient.delete, if_neg absent]
    rw [if_neg (mt InMemoryMiniRedisClient.asService_absent_iff.mp absent)] at served
    refine .of_eq (c.delete key).2 consistent rfl ?_ (by rw [run, served, removed]; rfl) ?_
    · rw [served, InMemoryMiniRedisClient.asService_delete absent]
    · refine plain.of_sub (fun other entry found => ?_)
      rw [InMemoryMiniRedisClient.delete_entries, Dict.get?_erase] at found
      split at found
      · cases found
      · exact found

private theorem actsAlike_dbsize (plain : Plain c) (consistent : Consistent (asService clock c)) :
    ActsAlike clock c .dbsize := by
  have same : asService clock c.purgeExpired = asService clock c :=
    InMemoryMiniRedisClient.asService_purgeExpired plain
  refine .of_eq c.purgeExpired consistent rfl same.symm ?_ plain.purgeExpired
  have size : (c.purgeExpired.entries.size : ℤ) = ((asService clock c).store.keys.length : ℤ) := by
    rw [← same, Dict.keys, List.length_map]
    exact congrArg Nat.cast (Dict.size_map _ _).symm
  show ClientReply.count _ = ClientReply.count _
  rw [size]
  rfl

private theorem actsAlike_infoMemory (plain : Plain c) (consistent : Consistent (asService clock c))
    (readable : ClientCall.infoMemory.Readable c) : ActsAlike clock c .infoMemory := by
  have same : asService clock c.purgeExpired = asService clock c :=
    InMemoryMiniRedisClient.asService_purgeExpired plain
  refine .of_eq c.purgeExpired consistent rfl same.symm ?_ plain.purgeExpired
  obtain ⟨used, limit, keys, evicted⟩ := readable
  have length : (asService clock c).store.keys.length = c.entries.size := by
    rw [Dict.keys, List.length_map]
    exact Dict.size_map _ _
  have memory := InMemoryMiniRedisClient.asService_memory clock c
  have report := parseInfo_infoText (s := asService clock c) (by rwa [memory]) limit
    (by rwa [length]) evicted
  rw [memory, length] at report
  show ClientReply.report c.infoMemory.1 = ClientReply.report (parseInfo (infoText (asService clock c)))
  rw [report, InMemoryMiniRedisClient.infoMemory,
    InMemoryMiniRedisClient.purgeExpired_plain plain]
  rfl

private theorem actsAlike_flushdb (consistent : Consistent (asService clock c)) :
    ActsAlike clock c .flushdb := by
  have empty : ∀ key, (perform .flushdb (asService clock c)).2.store.get? key = none :=
    fun key => flush_loop_empty _ key
  have flushed := (perform_moves .flushdb (asService clock c)).consistent consistent
  have loop : ∀ (keys : List String) (s : CommandService),
      (keys.foldl (fun s key => deleteEntryAndTtl key s) s).clock = s.clock := by
    intro keys
    induction keys with
    | nil => exact fun _ => rfl
    | cons key keys ih => exact fun s => ih _
  have cleared : Consistent (asService clock c.flushdb) :=
    ⟨fun _ _ => rfl, fun _ stored => (stored rfl).elim, (fun _ _ stamp => by cases stamp),
      (fun _ _ _ stamp => by cases stamp)⟩
  refine ⟨rfl, ⟨⟨loop _ _, Dict.eq_empty empty,
    Dict.eq_empty (fun key => flushed.noOrphan key (empty key)),
    (flush_loop_removals _).shrunk.maxMemoryBytes, rfl⟩, flushed, cleared,
    fun a _ stored => (stored (empty a)).elim⟩, (fun _ _ found => by cases found)⟩

private theorem normalized_limit (maxMemoryBytes : ℤ) :
    normalizeMaxMemoryBytes (some (maxMemoryBytes.toNat : ℤ)) =
      if 0 < maxMemoryBytes then some maxMemoryBytes.toNat.toPNat' else none := by
  rw [normalizeMaxMemoryBytes]
  by_cases positive : 0 < maxMemoryBytes
  · have toNat : 0 < maxMemoryBytes.toNat := by omega
    rw [dif_pos (by exact_mod_cast toNat), if_pos positive]
    refine congrArg some (PNat.eq ?_)
    rw [Nat.toPNat'_coe, if_pos toNat]
    exact Int.toNat_natCast _
  · rw [dif_neg (by omega), if_neg positive]

private theorem actsAlike_configSetMaxmemory (plain : Plain c)
    (consistent : Consistent (asService clock c)) (maxMemoryBytes : ℤ) :
    ActsAlike clock c (.configSetMaxmemory maxMemoryBytes) := by
  have same : asService clock (c.configSetMaxmemory maxMemoryBytes) =
      ensureMaxMemory [] (asService clock { c with
        maxMemoryBytes := if 0 < maxMemoryBytes then some maxMemoryBytes.toNat.toPNat' else none }) := by
    refine InMemoryMiniRedisClient.asService_enforceMaxMemory ?_ (Or.inl rfl)
    exact plain
  refine .of_eq (c.configSetMaxmemory maxMemoryBytes) consistent rfl ?_ rfl
    (plain.of_sub (InMemoryMiniRedisClient.Shrinks.enforceMaxMemory [] _).sub)
  rw [same, ← normalized_limit]
  rfl

/-- Every call that keeps the order and has a text acts alike on the client and on its service. -/
theorem actsAlike {call : ClientCall} (plain : Plain c) (consistent : Consistent (asService clock c))
    (untimed : call.Untimed) (keeps : call.KeepsOrder c) (readable : call.Readable c) :
    ActsAlike clock c call := by
  cases call with
  | set key value => exact actsAlike_set plain consistent key value
  | get key => exact actsAlike_get plain consistent keeps
  | hset key fieldName value => exact actsAlike_hset plain consistent keeps
  | hget key fieldName => exact actsAlike_hget plain consistent keeps
  | hgetall key => exact actsAlike_hgetall plain consistent keeps
  | delete key => exact actsAlike_delete plain consistent key
  | expire key ttlSeconds => exact untimed.elim
  | ttl key => exact untimed.elim
  | flushdb => exact actsAlike_flushdb consistent
  | dbsize => exact actsAlike_dbsize plain consistent
  | infoMemory => exact actsAlike_infoMemory plain consistent readable
  | configSetMaxmemory maxMemoryBytes => exact actsAlike_configSetMaxmemory plain consistent _

theorem ClientCall.Readable.sendable {call : ClientCall} (untimed : call.Untimed)
    (readable : call.Readable c) : call.Sendable := by
  cases call with
  | expire key ttlSeconds => exact untimed.elim
  | configSetMaxmemory maxMemoryBytes => exact readable
  | _ => trivial

end Calls

/-! ### Both clients under one limit -/

/-- The calls still to come concern no deadline; the client is plain and its service is the
server, up to the values of the stamps. -/
private def InStep (calls : List ClientCall) (c : InMemoryMiniRedisClient) (s : CommandService) :
    Prop :=
  (∀ call ∈ calls, call.Untimed) ∧ Plain c ∧ ∃ clock, Alike s (asService clock c)

private theorem InStep.next {call : ClientCall} {rest : List ClientCall}
    {c : InMemoryMiniRedisClient} {s : CommandService} (inStep : InStep (call :: rest) c s)
    (keeps : call.KeepsOrder c) (readable : call.Readable c) :
    SameOutcome (call.onInMemory.exec c).1 (call.onRedisPy.exec s).1 ∧
      InStep rest (call.onInMemory.exec c).2 (call.onRedisPy.exec s).2 := by
  obtain ⟨untimed, plain, clock, alike⟩ := inStep
  have first := untimed call List.mem_cons_self
  have acts := actsAlike plain alike.consistent' first keeps readable
  obtain ⟨reply, left⟩ := alike.perform call.operation
  rw [ClientCall.exec_onRedisPy (readable.sendable first) s]
  refine ⟨?_, fun later member => untimed later (List.mem_cons_of_mem _ member), acts.plain, clock,
    left.trans acts.alike⟩
  rw [reply]
  exact acts.outcome

/-- From empty stores and without deadlines, the client in memory and the server behind redis-py
give the same results, report the same figures and keep the same keys, as long as a call that
fails on the type of a value finds it under the key used last and no number outgrows its text. -/
theorem clients_agree_on_eviction (clock clock' : ℕ → ℚ) {calls : List ClientCall}
    (untimed : ∀ call ∈ calls, call.Untimed)
    (met : Along (fun call : ClientCall => call.onInMemory.exec)
      (fun call c => call.KeepsOrder c ∧ call.Readable c) calls
      (InMemoryMiniRedisClient.init clock none)) :
    let c := after (fun call : ClientCall => call.onInMemory.exec) calls
      (InMemoryMiniRedisClient.init clock none)
    let s := after (fun call : ClientCall => call.onRedisPy.exec) calls
      (CommandService.init clock' none)
    List.Forall₂ SameOutcome
      (outcomes (fun call : ClientCall => call.onInMemory.exec) calls
        (InMemoryMiniRedisClient.init clock none))
      (outcomes (fun call : ClientCall => call.onRedisPy.exec) calls
        (CommandService.init clock' none)) ∧
    (∀ key, s.store.get? key = (c.entries.get? key).map (fun entry => entry.payload.entry)) ∧
    currentMemoryBytes s = c.usedMemoryBytes ∧ s.evictedKeys = c.evictedKeys := by
  intro c s
  have start : InStep calls (InMemoryMiniRedisClient.init clock none)
      (CommandService.init clock' none) :=
    ⟨untimed, (fun _ _ found => by cases found), clock', .refl (Consistent.init clock' none)⟩
  obtain ⟨alike, -, -, reading, last⟩ := outcomes_alike (R := InStep)
    (fun call rest c s inStep met => inStep.next met.1 met.2) start met
  refine ⟨alike, fun key => ?_, ?_, last.tables.evictedKeys⟩
  · rw [last.tables.store]
    exact InMemoryMiniRedisClient.asService_get? reading c key
  · rw [last.tables.currentMemoryBytes]
    exact InMemoryMiniRedisClient.asService_memory reading c

private def lateMistake : List ClientCall :=
  [.configSetMaxmemory 6, .hset "a" "f" "v", .set "b" "w", .hget "b" "f", .hgetall "a",
    .set "c" "x", .infoMemory, .get "b"]

theorem late_mistake_agreed :
    List.Forall₂ SameOutcome
      (outcomes (fun call : ClientCall => call.onInMemory.exec) lateMistake
        (InMemoryMiniRedisClient.init (fun _ => 0) none))
      (outcomes (fun call : ClientCall => call.onRedisPy.exec) lateMistake
        (CommandService.init (fun _ => 0) none)) := by
  refine (clients_agree_on_eviction (fun _ => 0) (fun _ => 0) (fun call member => ?_)
    (by decide +kernel)).1
  simp only [lateMistake, List.mem_cons, List.not_mem_nil, or_false] at member
  rcases member with rfl | rfl | rfl | rfl | rfl | rfl | rfl | rfl <;> trivial

private def earlyMistake : List ClientCall :=
  [.configSetMaxmemory 6, .hset "a" "f" "v", .set "b" "w", .get "a", .set "c" "x", .get "b"]

theorem early_mistake_not_agreed :
    ¬ List.Forall₂ SameOutcome
      (outcomes (fun call : ClientCall => call.onInMemory.exec) earlyMistake
        (InMemoryMiniRedisClient.init (fun _ => 0) none))
      (outcomes (fun call : ClientCall => call.onRedisPy.exec) earlyMistake
        (CommandService.init (fun _ => 0) none)) := by
  have kept : outcomes (fun call : ClientCall => call.onInMemory.exec) earlyMistake
      (InMemoryMiniRedisClient.init (fun _ => 0) none) =
      [.ok .done, .ok .done, .ok .done, .error WRONG_TYPE_MESSAGE, .ok .done,
        .ok (.text (some "w"))] := by decide +kernel
  have evicted : outcomes (fun call : ClientCall => call.onRedisPy.exec) earlyMistake
      (CommandService.init (fun _ => 0) none) =
      [.ok .done, .ok .done, .ok .done, .error WRONG_TYPE_MESSAGE, .ok .done, .ok (.text none)] := by
    decide +kernel
  rw [kept, evicted]
  simp [SameOutcome, SameReply]

end MiniRedis.Arena
