/- GID: MiniRedis/Arena/LiveTable
   generality: I
   digest: The server behind redis-py answers like a table that holds exactly what is live. -/

import MiniRedis.Arena.RedisPyClient
import MiniRedis.Service.Expiry

set_option autoImplicit false
set_option relaxedAutoImplicit false

namespace MiniRedis.Arena

open MiniRedis.Base MiniRedis.Python MiniRedis.Protocol MiniRedis.Commands MiniRedis.Service

/-! ### The table that a cache is meant to be -/

/-- What is live under each key: a value with its deadline. -/
abbrev LiveTable := String → Option (ValueEntry × Option PyFloat)

namespace LiveTable

/-- What the table holds of a value whose deadline may be over at `t`. -/
def item (t : ℚ) (entry : Option ValueEntry) (deadline : Option PyFloat) :
    Option (ValueEntry × Option PyFloat) :=
  if deadline.any (·.leRat t) then none else entry.map (fun entry => (entry, deadline))

def stringOf : ValueEntry → Option String
  | .string value => some value
  | _ => none

def hashOf : ValueEntry → Option (Dict String String)
  | .hash fields => some fields
  | _ => none

/-- A typed read: `absent` without a value, and a type error on a value of another type. -/
def read {α : Type} (T : LiveTable) (key : String) (typed : ValueEntry → Option α)
    (absent : ClientReply) (found : α → ClientReply) : Except String ClientReply :=
  match T key with
  | none => .ok absent
  | some (entry, _) =>
    match typed entry with
    | none => .error WRONG_TYPE_MESSAGE
    | some payload => .ok (found payload)

/-- The remaining seconds under a deadline. -/
def remaining (t : ℚ) : Option PyFloat → Except String (Option ℤ)
  | none => .ok none
  | some deadline => (InMemoryMiniRedisClient.ceil (deadline.addRat (-t))).map some

/-- What a call at time `t` answers and leaves. The two calls about the limit are not meant. -/
noncomputable def answer (t : ℚ) (T : LiveTable) :
    ClientCall → Except String ClientReply × LiveTable
  | .set key value => (.ok .done, Function.update T key (some (.string value, none)))
  | .get key => (T.read key stringOf (.text none) (fun value => .text (some value)), T)
  | .hset key fieldName value =>
    match T key with
    | none =>
      (.ok .done, Function.update T key (some (.hash (Dict.empty.set fieldName value), none)))
    | some (entry, deadline) =>
      match hashOf entry with
      | none => (.error WRONG_TYPE_MESSAGE, T)
      | some fields =>
        (.ok .done, Function.update T key (some (.hash (fields.set fieldName value), deadline)))
  | .hget key fieldName =>
    (T.read key hashOf (.text none) (fun fields => .text (fields.get? fieldName)), T)
  | .hgetall key => (T.read key hashOf (.fields none) (fun fields => .fields (some fields)), T)
  | .delete key => (.ok (.flag (T key).isSome), Function.update T key none)
  | .expire key ttlSeconds =>
    match T key with
    | none => (.ok (.flag false), T)
    | some (entry, _) =>
      (.ok (.flag true), Function.update T key (some (entry, some (ttlSeconds.value.addRat t))))
  | .ttl key =>
    (((T key).elim (.ok none) (fun found => remaining t found.2)).map .seconds, T)
  | .flushdb => (.ok .done, fun _ => none)
  | .dbsize => (.ok (.count {key | T key ≠ none}.ncard), T)
  | .infoMemory | .configSetMaxmemory _ => (.ok .done, T)

/-- Every hash has a field. -/
def Filled (T : LiveTable) : Prop :=
  ∀ key fields deadline, T key = some (.hash fields, deadline) → fields.entries ≠ []

end LiveTable

/-- The calls that leave the limit alone; a time-out is positive. -/
def ClientCall.Unlimited : ClientCall → Prop
  | .expire _ ttlSeconds => notPositive ttlSeconds.value = false
  | .infoMemory | .configSetMaxmemory _ => False
  | _ => True

theorem ClientCall.Unlimited.sendable {call : ClientCall} (unlimited : call.Unlimited) :
    call.Sendable := by
  cases call with
  | expire key ttlSeconds => exact unlimited
  | configSetMaxmemory maxMemoryBytes => exact unlimited.elim
  | _ => trivial

namespace LiveTable

/-! ### The server's table -/

/-- What the server shows at time `t`. -/
def ofService (t : ℚ) (s : CommandService) : LiveTable :=
  fun key => item t (s.store.get? key) (s.ttl.get? key)

variable {t : ℚ} {s r : CommandService} {key : String}

theorem ofService_swept (swept : Swept t s r) : ofService t r = ofService t s := by
  funext key
  rcases swept.tables key with ⟨store, ttl⟩ | ⟨expired, store, ttl⟩
  · rw [ofService, ofService, store, ttl]
  · rw [expiredAt] at expired
    simp [ofService, item, store, ttl, expired]

theorem ofService_purged (moment : AtTime t s) (key : String) :
    ofService t s key =
      ((purgeIfExpired key s).2.store.get? key).map
        (fun entry => (entry, (purgeIfExpired key s).2.ttl.get? key)) := by
  have live := moment.settled key
  rw [expiredAt] at live
  rw [← ofService_swept (moment.swept key), ofService, item, live]
  rfl

theorem ofService_update {entry : Option ValueEntry} {deadline : Option PyFloat}
    (frame : ∀ other, other ≠ key → r.store.get? other = s.store.get? other ∧
      r.ttl.get? other = s.ttl.get? other)
    (store : r.store.get? key = entry) (ttl : r.ttl.get? key = deadline) :
    ofService t r = Function.update (ofService t s) key (item t entry deadline) := by
  funext other
  by_cases same : other = key
  · subst same
    rw [Function.update_self, ofService, store, ttl]
  · rw [Function.update_of_ne same, ofService, ofService, (frame other same).1,
      (frame other same).2]

@[simp] theorem ofService_touchKey (key : String) :
    ofService t (touchKey key s) = ofService t s := by
  funext other
  simp [ofService]

@[simp] theorem ofService_forgetKey (key : String) :
    ofService t (forgetKey key s) = ofService t s := rfl

/-! ### What the server answers -/

private theorem performTyped_read (op : TypedOp) (absent : op.emptyContainer = none)
    (keeps : ∀ entry, (op.onEntry entry).2 = .keep) (moment : AtTime t s) (key : String) :
    (performTyped key op s).1 =
      (match ofService t s key with
      | none => .ok op.absentReply
      | some (entry, _) =>
        if entry.valueType ≠ op.valueType then .error (.commandError ERR_WRONG_TYPE)
        else .ok (op.onEntry entry).1) ∧
      ofService t (performTyped key op s).2 = ofService t s := by
  have swept := ofService_swept (moment.swept key)
  have grows : op.grows = false := by rw [TypedOp.grows, absent]; rfl
  rw [ofService_purged moment, performTyped]
  cases found : (purgeIfExpired key s).2.store.get? key with
  | none => simp [absent, swept]
  | some entry =>
    by_cases typed : entry.valueType = op.valueType
    · simp [typed, TypedOp.finish, keeps, grows, EntryUpdate.apply, swept]
    · simp [typed, swept]

/-- Redis-py's answer and the server's table after it are those of the table before. -/
def Answers (t : ℚ) (s : CommandService) (call : ClientCall) : Prop :=
  SameOutcome ((ofService t s).answer t call).1
      ((readOutcome (perform call.operation s).1).map call.readReply) ∧
    ofService t (perform call.operation s).2 = ((ofService t s).answer t call).2

private theorem answers_get (moment : AtTime t s) (key : String) : Answers t s (.get key) := by
  obtain ⟨reply, table⟩ := performTyped_read .get rfl (fun _ => rfl) moment key
  refine ⟨?_, table⟩
  show SameOutcome (read _ _ _ _ _) ((readOutcome (performTyped key .get s).1).map _)
  rw [reply, read]
  rcases ofService t s key with _ | ⟨entry, deadline⟩
  · rfl
  · cases entry <;> rfl

private theorem answers_hget (moment : AtTime t s) (key fieldName : String) :
    Answers t s (.hget key fieldName) := by
  obtain ⟨reply, table⟩ := performTyped_read (.hget fieldName) rfl (fun _ => rfl) moment key
  refine ⟨?_, table⟩
  show SameOutcome (read _ _ _ _ _) ((readOutcome (performTyped key (.hget fieldName) s).1).map _)
  rw [reply, read]
  rcases ofService t s key with _ | ⟨entry, deadline⟩
  · rfl
  · cases entry with
    | hash fields => exact sameOutcome_field key fieldName (fields.get? fieldName)
    | _ => exact Iff.rfl

private theorem answers_hgetall (moment : AtTime t s) (filled : Filled (ofService t s))
    (key : String) : Answers t s (.hgetall key) := by
  obtain ⟨reply, table⟩ := performTyped_read .hgetall rfl (fun _ => rfl) moment key
  refine ⟨?_, table⟩
  show SameOutcome (read _ _ _ _ _) ((readOutcome (performTyped key .hgetall s).1).map _)
  rw [reply, read]
  rcases here : ofService t s key with _ | ⟨entry, deadline⟩
  · rfl
  · cases entry with
    | hash fields => exact sameReply_hash (filled key fields deadline here) key
    | _ => exact Iff.rfl

private theorem ensureMaxMemory_touchKey (key : String) (unlimited : s.maxMemoryBytes = none) :
    ensureMaxMemory [key] (touchKey key s) = touchKey key s := by
  rw [ensureMaxMemory, touchKey_maxMemoryBytes, unlimited]

private theorem answers_set (unlimited : s.maxMemoryBytes = none) (key value : String) :
    Answers t s (.set key value) := by
  refine ⟨rfl, ?_⟩
  show ofService t (ensureMaxMemory [key] (touchKey key (setServiceExecute key value s).2)) = _
  have written : (setServiceExecute key value s).2.maxMemoryBytes = none := unlimited
  rw [ensureMaxMemory_touchKey key written, ofService_touchKey]
  have table : ofService t (setServiceExecute key value s).2 =
      Function.update (ofService t s) key (item t (some (.string value)) none) :=
    ofService_update
      (fun other different => by
        simp [setServiceExecute, Dict.get?_set, Dict.get?_erase, different])
      (Dict.get?_set_self _ _ _) (Dict.get?_erase_self _ _)
  exact table

private theorem ofService_grown (live : (r.ttl.get? key).any (·.leRat t) = false)
    (limit : s.maxMemoryBytes = none) (ttl : s.ttl = r.ttl)
    (frame : ∀ other, other ≠ key → s.store.get? other = r.store.get? other) (value : ValueEntry) :
    ofService t (ensureMaxMemory [key] (touchKey key (mutateEntry key value s))) =
      Function.update (ofService t r) key (some (value, r.ttl.get? key)) := by
  have written : (mutateEntry key value s).maxMemoryBytes = none := limit
  rw [ensureMaxMemory_touchKey key written, ofService_touchKey]
  have kept : item t (some value) (r.ttl.get? key) = some (value, r.ttl.get? key) := by
    rw [item, live]
    rfl
  rw [← kept]
  refine ofService_update (fun other different => ?_) (Dict.get?_set_self _ _ _) ?_
  · exact ⟨by rw [← frame other different]; simp [mutateEntry, Dict.get?_set, different],
      by rw [← ttl]; rfl⟩
  · rw [← ttl]
    rfl

private theorem answers_hset (moment : AtTime t s) (consistent : Consistent s)
    (unlimited : s.maxMemoryBytes = none) (key fieldName value : String) :
    Answers t s (.hset key fieldName value) := by
  have purged : Consistent (purgeIfExpired key s).2 :=
    (purgeIfExpired_removals key s).moves.consistent consistent
  have limit := (moment.swept key).maxMemoryBytes.trans unlimited
  have live := moment.settled key
  have table := ofService_swept (moment.swept key)
  unfold Answers
  simp only [answer, ClientCall.operation, perform, performTyped, ofService_purged moment key]
  generalize (purgeIfExpired key s).2 = r at *
  cases found : r.store.get? key with
  | none =>
    refine ⟨rfl, ?_⟩
    have grown := ofService_grown (s := storeEntry key (.hash Dict.empty) (forgetKey key r)) live
      (by rwa [storeEntry, touchKey_maxMemoryBytes]) (by rw [storeEntry, touchKey_ttl]; rfl)
      (fun other different => by simp [forgetKey, Dict.get?_set, different])
      (.hash (Dict.empty.set fieldName value))
    rw [purged.noOrphan key found, table] at grown
    exact grown
  | some entry =>
    cases entry with
    | hash fields =>
      refine ⟨rfl, ?_⟩
      have grown := ofService_grown (s := touchKey key r) live (by simpa using limit) (by simp)
        (fun other different => by simp) (.hash (fields.set fieldName value))
      rw [table] at grown
      exact grown
    | _ => exact ⟨Iff.rfl, (ofService_touchKey key).trans table⟩

private theorem answers_delete (moment : AtTime t s) (key : String) :
    Answers t s (.delete key) := by
  have table := ofService_swept (moment.swept key)
  have shown := ofService_purged moment key
  unfold Answers
  rw [ClientCall.operation, perform_del]
  simp only [answer]
  generalize (purgeIfExpired key s).2 = r at *
  rw [shown]
  cases found : r.store.get? key with
  | none =>
    refine ⟨rfl, ?_⟩
    rw [found, Option.map_none] at shown
    rw [← shown, Function.update_eq_self]
    exact table
  | some entry =>
    refine ⟨rfl, ?_⟩
    have erased : ofService t (deleteEntryAndTtl key r) =
        Function.update (ofService t r) key (item t none none) :=
      ofService_update
        (fun other different => by
          simp [deleteEntryAndTtl, forgetKey, Dict.get?_erase, different])
        (Dict.get?_erase_self _ _) (Dict.get?_erase_self _ _)
    rw [table] at erased
    exact erased

private theorem answers_expire (moment : AtTime t s) (key : String) {ttlSeconds : WrittenFloat}
    (positive : notPositive ttlSeconds.value = false) : Answers t s (.expire key ttlSeconds) := by
  have table := ofService_swept (moment.swept key)
  have shown := ofService_purged moment key
  have reading := (moment.purged key).now
  unfold Answers
  rw [ClientCall.operation, perform_expire]
  simp only [answer]
  generalize (purgeIfExpired key s).2 = r at *
  rw [shown, reading]
  cases found : r.store.get? key with
  | none => exact ⟨rfl, table⟩
  | some entry =>
    refine ⟨rfl, ?_⟩
    show ofService t (touchKey key _) = _
    have later : item t (some entry) (some (ttlSeconds.value.addRat t)) =
        some (entry, some (ttlSeconds.value.addRat t)) := by
      have ahead : (ttlSeconds.value.addRat t).leRat t = false :=
        (PyFloat.leRat_addRat t _).trans positive
      rw [item, Option.any_some, ahead]
      rfl
    rw [ofService_touchKey, ← table]
    simp only [Option.map_some]
    rw [← later]
    exact ofService_update
      (fun other different => ⟨rfl, by simp [Dict.get?_set, different, calculateExpiresAt]⟩) found
      (Dict.get?_set_self _ _ _)

private theorem remaining_ahead {deadline : PyFloat} (ahead : deadline.leRat t = false) :
    SameOutcome ((remaining t (some deadline)).map .seconds)
      ((readOutcome ((calculateRemainingSeconds t deadline).map .number)).map
        (ClientCall.ttl key).readReply) := by
  cases deadline with
  | nan => exact ⟨by decide, by decide⟩
  | inf negative => exact ⟨by decide, by decide⟩
  | finite negative magnitude =>
    simp only [PyFloat.leRat, decide_eq_false_iff_not, not_le] at ahead
    have positive : 0 < ⌈PyFloat.signedValue negative magnitude - t⌉ :=
      Int.ceil_pos.mpr (sub_pos.mpr ahead)
    have same : InMemoryMiniRedisClient.ceil ((PyFloat.finite negative magnitude).addRat (-t)) =
        .ok ⌈PyFloat.signedValue negative magnitude - t⌉ := by
      rw [PyFloat.addRat, PyFloat.ofRat, InMemoryMiniRedisClient.ceil, PyFloat.signedValue_ofRat,
        neg_add_eq_sub]
    have larger : max 0 ⌈PyFloat.signedValue negative magnitude - t⌉ =
        ⌈PyFloat.signedValue negative magnitude - t⌉ := by omega
    rw [remaining, same, calculateRemainingSeconds, larger]
    show SameReply (.seconds (some _)) (.seconds (if _ < 0 then none else some _))
    rw [RedisPyMiniRedisClient.numberOf, if_neg (by omega)]
    rfl

private theorem answers_ttl (moment : AtTime t s) (key : String) : Answers t s (.ttl key) := by
  have table := ofService_swept (moment.swept key)
  have shown := ofService_purged moment key
  have live := moment.settled key
  have reading := (moment.purged key).now
  unfold Answers
  rw [ClientCall.operation, perform_ttl]
  simp only [answer]
  generalize (purgeIfExpired key s).2 = r at *
  rw [shown, reading]
  cases found : r.store.get? key with
  | none => exact ⟨rfl, table⟩
  | some entry =>
    rw [expiredAt] at live
    cases deadline : r.ttl.get? key with
    | none => exact ⟨rfl, table⟩
    | some expiresAt =>
      rw [deadline, Option.any_some] at live
      exact ⟨remaining_ahead live, table⟩

private theorem answers_flushdb (consistent : Consistent s) : Answers t s .flushdb := by
  refine ⟨rfl, ?_⟩
  have absent : ∀ key, (perform .flushdb s).2.store.get? key = none :=
    fun key => flush_loop_empty s key
  have empty := (perform_moves .flushdb s).consistent consistent
  funext key
  show item t ((perform .flushdb s).2.store.get? key) ((perform .flushdb s).2.ttl.get? key) = none
  rw [absent key, empty.noOrphan key (absent key)]
  rfl

private theorem answers_dbsize (moment : AtTime t s) : Answers t s .dbsize := by
  obtain ⟨-, swept, settled⟩ := moment.purgeAll
  have table := ofService_swept swept
  refine ⟨?_, table⟩
  have keys : {key | ofService t s key ≠ none} =
      {key | (purgeAllExpiredKeys s).store.get? key ≠ none} := by
    ext key
    have live := settled key
    rw [expiredAt] at live
    rw [← table, Set.mem_ofPred_eq, ofService, item, live]
    simp
  have count : {key | ofService t s key ≠ none}.ncard =
      (purgeAllExpiredKeys s).store.keys.length := by
    rw [keys, ← Dict.size_eq_ncard, Dict.keys, List.length_map, Dict.size]
  show SameReply (.count _) (.count _)
  rw [count]
  rfl

/-- At every moment the server behind redis-py answers like the table of what is live. -/
theorem redisPy_answers {call : ClientCall} (moment : AtTime t s) (consistent : Consistent s)
    (limit : s.maxMemoryBytes = none) (filled : Filled (ofService t s))
    (unlimited : call.Unlimited) : Answers t s call := by
  cases call with
  | set key value => exact answers_set limit key value
  | get key => exact answers_get moment key
  | hset key fieldName value => exact answers_hset moment consistent limit key fieldName value
  | hget key fieldName => exact answers_hget moment key fieldName
  | hgetall key => exact answers_hgetall moment filled key
  | delete key => exact answers_delete moment key
  | expire key ttlSeconds => exact answers_expire moment key unlimited
  | ttl key => exact answers_ttl moment key
  | flushdb => exact answers_flushdb consistent
  | dbsize => exact answers_dbsize moment
  | infoMemory => exact unlimited.elim
  | configSetMaxmemory maxMemoryBytes => exact unlimited.elim

end LiveTable

end MiniRedis.Arena
