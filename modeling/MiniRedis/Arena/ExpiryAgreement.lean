/- GID: MiniRedis/Arena/ExpiryAgreement
   generality: I
   digest: The two clients agree on expiry until a delete or an expire meets an expired entry. -/

import MiniRedis.Base.Lockstep
import MiniRedis.Arena.LiveTable
import MiniRedis.Arena.Refill

set_option autoImplicit false
set_option relaxedAutoImplicit false

namespace MiniRedis.Arena

open MiniRedis.Base MiniRedis.Python MiniRedis.Protocol MiniRedis.Commands MiniRedis.Service

namespace LiveTable

/-! ### Tables at later moments -/

/-- What is left of a table at time `t`. -/
def drop (t : ℚ) (T : LiveTable) : LiveTable :=
  fun key => (T key).filter (fun found => !found.2.any (·.leRat t))

private theorem item_later {t t' : ℚ} (le : t ≤ t') (entry : Option ValueEntry)
    (deadline : Option PyFloat) :
    item t' entry deadline =
      (item t entry deadline).filter (fun found => !found.2.any (·.leRat t')) := by
  unfold item
  cases past : deadline.any (·.leRat t) with
  | false =>
    cases entry with
    | none => simp
    | some entry => cases later : deadline.any (·.leRat t') <;> simp [Option.filter, later]
  | true =>
    cases deadline with
    | none => cases past
    | some expiresAt => simp [PyFloat.leRat_mono le (by simpa using past)]

theorem ofService_later {t t' : ℚ} (le : t ≤ t') (s : CommandService) :
    ofService t' s = drop t' (ofService t s) := by
  funext key
  exact item_later le _ _

theorem Filled.drop {T : LiveTable} (filled : Filled T) (t : ℚ) : Filled (T.drop t) :=
  fun key fields deadline found =>
    filled key fields deadline (Option.eq_some_of_filter_eq_some found)

theorem Filled.answer {T : LiveTable} (filled : Filled T) (t : ℚ) (call : ClientCall) :
    Filled (T.answer t call).2 := by
  have updated : ∀ (key : String) (found : Option (ValueEntry × Option PyFloat)),
      (∀ fields deadline, found = some (.hash fields, deadline) → fields.entries ≠ []) →
      Filled (Function.update T key found) := by
    intro key found here other fields deadline stored
    by_cases same : other = key
    · subst same
      rw [Function.update_self] at stored
      exact here fields deadline stored
    · rw [Function.update_of_ne same] at stored
      exact filled other fields deadline stored
  cases call with
  | set key value => exact updated key _ (fun _ _ found => by cases found)
  | hset key fieldName value =>
    simp only [LiveTable.answer]
    split
    · refine updated key _ (fun fields deadline found => ?_)
      cases found
      exact Dict.entries_set_ne_nil _ _ _
    · split
      · exact filled
      · refine updated key _ (fun fields deadline found => ?_)
        cases found
        exact Dict.entries_set_ne_nil _ _ _
  | delete key => exact updated key none (fun _ _ found => by cases found)
  | expire key ttlSeconds =>
    simp only [LiveTable.answer]
    split
    · exact filled
    · rename_i entry deadline found
      refine updated key _ (fun fields deadline' stored => ?_)
      cases stored
      exact filled key fields deadline found
  | flushdb => exact fun _ _ _ found => by cases found
  | get | hget | hgetall | ttl | dbsize | infoMemory | configSetMaxmemory => exact filled

/-! ### The table of the client in memory -/

/-- What the table holds of a stored entry. -/
def itemOf (t : ℚ) (found : Option RedisEntry) : Option (ValueEntry × Option PyFloat) :=
  found.bind (fun entry => item t (some entry.payload.entry) entry.expiresAt)

/-- What the client shows at time `t`. -/
def ofClient (t : ℚ) (c : InMemoryMiniRedisClient) : LiveTable :=
  fun key => itemOf t (c.entries.get? key)

theorem ofClient_later {t t' : ℚ} (le : t ≤ t') (c : InMemoryMiniRedisClient) :
    ofClient t' c = drop t' (ofClient t c) := by
  funext key
  simp only [ofClient, itemOf, drop]
  cases c.entries.get? key with
  | none => rfl
  | some entry => exact item_later le _ _

variable {t : ℚ} {c c' : InMemoryMiniRedisClient} {key : String}

theorem itemOf_live {entry : RedisEntry} (live : entry.expired t = false) :
    itemOf t (some entry) = some (entry.payload.entry, entry.expiresAt) := by
  obtain ⟨payload, _ | expiresAt⟩ := entry
  · rfl
  · have ahead : expiresAt.leRat t = false := live
    simp [itemOf, item, ahead]

theorem itemOf_expired {entry : RedisEntry} (past : entry.expired t = true) :
    itemOf t (some entry) = none := by
  obtain ⟨payload, _ | expiresAt⟩ := entry
  · cases past
  · have passed : expiresAt.leRat t = true := past
    simp [itemOf, item, passed]

theorem ofClient_congr (same : c'.entries = c.entries) : ofClient t c' = ofClient t c := by
  funext key
  rw [ofClient, ofClient, same]

theorem ofClient_set {entry : RedisEntry} (entries : c'.entries = c.entries.set key entry) :
    ofClient t c' = Function.update (ofClient t c) key (itemOf t (some entry)) := by
  funext other
  unfold ofClient
  rw [entries, Dict.get?_set]
  by_cases same : other = key
  · rw [if_pos same, same, Function.update_self]
  · rw [if_neg same, Function.update_of_ne same]

theorem ofClient_erase (entries : c'.entries = c.entries.erase key) :
    ofClient t c' = Function.update (ofClient t c) key none := by
  funext other
  unfold ofClient
  rw [entries, Dict.get?_erase]
  by_cases same : other = key
  · rw [if_pos same, same, Function.update_self]
    rfl
  · rw [if_neg same, Function.update_of_ne same]

theorem ofClient_purgeExpired (moment : c.clock 0 = t) :
    ofClient t c.purgeExpired = ofClient t c := by
  funext key
  unfold ofClient
  rw [InMemoryMiniRedisClient.get?_purgeExpired, moment]
  cases c.entries.get? key with
  | none => rfl
  | some entry =>
    cases past : entry.expired t with
    | false => rw [Option.filter_some_pos (by simp [past])]
    | true => rw [Option.filter_some_neg (by simp [past]), itemOf_expired past]; rfl

theorem ofClient_purged (moment : c.clock 0 = t) (key : String) :
    ofClient t c key = (c.purgeExpired.entries.get? key).map
      (fun entry => (entry.payload.entry, entry.expiresAt)) := by
  unfold ofClient
  rw [InMemoryMiniRedisClient.get?_purgeExpired, moment]
  cases c.entries.get? key with
  | none => rfl
  | some entry =>
    cases past : entry.expired t with
    | false => rw [Option.filter_some_pos (by simp [past]), itemOf_live past]; rfl
    | true => rw [Option.filter_some_neg (by simp [past]), itemOf_expired past]; rfl

/-! ### What the client in memory answers -/

/-- A `delete` or an `expire` of an entry that is stored past its deadline. -/
def meetsExpired (t : ℚ) (c : InMemoryMiniRedisClient) : ClientCall → Bool
  | .delete key | .expire key _ => (c.entries.get? key).any (·.expired t)
  | _ => false

/-- No deadline is minus infinity, from which no number of seconds is left. -/
def Counted (c : InMemoryMiniRedisClient) : Prop :=
  ∀ key entry, c.entries.get? key = some entry → entry.expiresAt ≠ some (.inf true)

theorem Counted.of_sub (counted : Counted c) (sub : ∀ key entry,
    c'.entries.get? key = some entry → c.entries.get? key = some entry) : Counted c' :=
  fun key entry found => counted key entry (sub key entry found)

theorem Counted.of_erase (counted : Counted c) (entries : c'.entries = c.entries.erase key) :
    Counted c' := by
  refine counted.of_sub (fun other entry found => ?_)
  rw [entries, Dict.get?_erase] at found
  split at found
  · cases found
  · exact found

theorem Counted.of_set (counted : Counted c) {entry : RedisEntry}
    (entries : c'.entries = c.entries.set key entry) (here : entry.expiresAt ≠ some (.inf true)) :
    Counted c' := by
  intro other entry' found
  rw [entries, Dict.get?_set] at found
  split at found
  · cases found
    exact here
  · exact counted other entry' found

/-- The client's answer and its table after it are those of the table before. -/
structure ClientAnswers (t : ℚ) (c : InMemoryMiniRedisClient) (call : ClientCall) : Prop where
  outcome : (call.onInMemory.exec c).1 = ((ofClient t c).answer t call).1
  table : ofClient t (call.onInMemory.exec c).2 = ((ofClient t c).answer t call).2
  limit : (call.onInMemory.exec c).2.maxMemoryBytes = c.maxMemoryBytes
  counted : Counted c → Counted (call.onInMemory.exec c).2

private theorem written_unlimited (limit : c.maxMemoryBytes = none) (key : String)
    (entry : RedisEntry) :
    (c.written key entry).entries = c.entries.set key entry ∧
      (c.written key entry).maxMemoryBytes = none := by
  have stored : (InMemoryMiniRedisClient.touch key (c.store key entry)).maxMemoryBytes = none := by
    rw [InMemoryMiniRedisClient.touch_maxMemoryBytes]
    exact limit
  rw [InMemoryMiniRedisClient.written, InMemoryMiniRedisClient.enforceMaxMemory, stored]
  exact ⟨InMemoryMiniRedisClient.touch_entries _ _, stored⟩

private theorem clientAnswers_set (moment : c.clock 0 = t) (limit : c.maxMemoryBytes = none)
    (key value : String) : ClientAnswers t c (.set key value) := by
  have unlimited : c.purgeExpired.maxMemoryBytes = none := by simpa using limit
  obtain ⟨entries, none_left⟩ := written_unlimited unlimited key ⟨.string value, none⟩
  have table := ofClient_set (t := t) entries
  rw [ofClient_purgeExpired moment] at table
  exact ⟨rfl, table, none_left.trans limit.symm, fun counted =>
    (counted.of_sub (InMemoryMiniRedisClient.Shrinks.purgeExpired c).sub).of_set entries (by simp)⟩

private theorem live_of_purged (moment : c.clock 0 = t) {entry : RedisEntry}
    (found : c.purgeExpired.entries.get? key = some entry) : entry.expired t = false := by
  rw [InMemoryMiniRedisClient.get?_purgeExpired, moment] at found
  simpa using (Option.filter_eq_some_iff.mp found).2

private theorem clientAnswers_hset (moment : c.clock 0 = t) (limit : c.maxMemoryBytes = none)
    (key fieldName value : String) : ClientAnswers t c (.hset key fieldName value) := by
  have unlimited : c.purgeExpired.maxMemoryBytes = none := by simpa using limit
  have purged : Counted c → Counted c.purgeExpired :=
    fun counted => counted.of_sub (InMemoryMiniRedisClient.Shrinks.purgeExpired c).sub
  have table := ofClient_purgeExpired moment
  have shown := ofClient_purged moment key
  have run : (ClientCall.hset key fieldName value).onInMemory.exec c = _ :=
    Effect.exec_bind_pure (InMemoryMiniRedisClient.hset key fieldName value)
      (fun _ => ClientReply.done) c
  cases found : c.purgeExpired.entries.get? key with
  | none =>
    rw [found, Option.map_none] at shown
    rw [InMemoryMiniRedisClient.exec_hset_of_absent fieldName value found] at run
    obtain ⟨entries, none_left⟩ :=
      written_unlimited unlimited key ⟨.hash (Dict.empty.set fieldName value), none⟩
    refine ⟨?_, ?_, ?_, ?_⟩ <;> simp only [run, answer, shown]
    · rfl
    · rw [ofClient_set entries, table]
      rfl
    · exact none_left.trans limit.symm
    · exact fun counted => (purged counted).of_set entries (by simp)
  | some entry =>
    rw [found, Option.map_some] at shown
    cases payload : entry.payload with
    | string text =>
      rw [InMemoryMiniRedisClient.exec_hset_of_string fieldName value found payload] at run
      rw [payload] at shown
      refine ⟨?_, ?_, ?_, ?_⟩ <;> simp only [run, answer, shown]
      · rfl
      · exact table
      · exact unlimited.trans limit.symm
      · exact purged
    | hash fields =>
      rw [InMemoryMiniRedisClient.exec_hset_of_hash fieldName value found payload] at run
      rw [payload] at shown
      obtain ⟨entries, none_left⟩ := written_unlimited unlimited key
        ⟨.hash (fields.set fieldName value), entry.expiresAt⟩
      have live := live_of_purged moment found
      have kept : itemOf t (some ⟨.hash (fields.set fieldName value), entry.expiresAt⟩) =
          some (.hash (fields.set fieldName value), entry.expiresAt) := itemOf_live live
      refine ⟨?_, ?_, ?_, ?_⟩ <;> simp only [run, answer, shown]
      · rfl
      · rw [ofClient_set entries, table, kept]
        rfl
      · exact none_left.trans limit.symm
      · exact fun counted => (purged counted).of_set entries (purged counted key entry found)

private theorem liveEntry_shown (moment : c.clock 0 = t) (key : String) :
    ∃ c', ofClient t c' = ofClient t c ∧ c'.maxMemoryBytes = c.maxMemoryBytes ∧
      (Counted c → Counted c') ∧
      (c.liveEntry key = (none, c') ∧ ofClient t c key = none ∨
      ∃ entry, c.liveEntry key = (some entry, c') ∧
        ofClient t c key = some (entry.payload.entry, entry.expiresAt)) := by
  rcases InMemoryMiniRedisClient.liveEntry_cases key c with
    ⟨c', read, erased, limit, -, past⟩ | ⟨c', entry, read, found, same, limit, -, live⟩
  · have hidden : ofClient t c key = none := by
      unfold ofClient
      cases found : c.entries.get? key with
      | none => rfl
      | some entry => exact itemOf_expired (moment ▸ past entry found)
    refine ⟨c', ?_, limit, fun counted => counted.of_erase erased, Or.inl ⟨read, hidden⟩⟩
    rw [ofClient_erase erased, ← hidden, Function.update_eq_self]
  · refine ⟨c', ofClient_congr same, limit,
      fun counted => counted.of_sub (fun _ _ stored => same ▸ stored), Or.inr ⟨entry, read, ?_⟩⟩
    rw [ofClient, found, itemOf_live (moment ▸ live)]

private theorem touched {c' : InMemoryMiniRedisClient} (table : ofClient t c' = ofClient t c)
    (limit : c'.maxMemoryBytes = c.maxMemoryBytes) (counted : Counted c → Counted c')
    (key : String) :
    ofClient t (c'.touch key) = ofClient t c ∧
      (c'.touch key).maxMemoryBytes = c.maxMemoryBytes ∧ (Counted c → Counted (c'.touch key)) := by
  have entries := InMemoryMiniRedisClient.touch_entries key c'
  exact ⟨(ofClient_congr entries).trans table,
    (InMemoryMiniRedisClient.touch_maxMemoryBytes key c').trans limit,
    fun before => (counted before).of_sub (fun _ _ stored => entries ▸ stored)⟩

private theorem clientAnswers_get (moment : c.clock 0 = t) (key : String) :
    ClientAnswers t c (.get key) := by
  have run : (ClientCall.get key).onInMemory.exec c = _ :=
    Effect.exec_bind_pure (InMemoryMiniRedisClient.get key) ClientReply.text c
  rw [InMemoryMiniRedisClient.get, Effect.exec_bind, Effect.exec_modifyGet] at run
  obtain ⟨c', table, limit, counted, ⟨read, hidden⟩ | ⟨entry, read, shown⟩⟩ :=
    liveEntry_shown moment key
  · rw [read] at run
    refine ⟨?_, ?_, ?_, ?_⟩ <;> simp only [run, answer, LiveTable.read, hidden]
    exacts [rfl, table, limit, counted]
  · rw [read] at run
    cases payload : entry.payload with
    | string value =>
      obtain ⟨table, limit, counted⟩ := touched table limit counted key
      rw [payload] at shown
      refine ⟨?_, ?_, ?_, ?_⟩ <;> simp only [run, payload, answer, LiveTable.read, shown]
      exacts [rfl, table, limit, counted]
    | hash fields =>
      rw [payload] at shown
      refine ⟨?_, ?_, ?_, ?_⟩ <;> simp only [run, payload, answer, LiveTable.read, shown]
      exacts [rfl, table, limit, counted]

private theorem readHash_answers {α : Type} (moment : c.clock 0 = t)
    (select : Dict String String → Option α) (key : String) (reply : Option α → ClientReply) :
    ((InMemoryMiniRedisClient.readHash select key).exec c).1.map reply =
        (ofClient t c).read key hashOf (reply none) (fun fields => reply (select fields)) ∧
      ofClient t ((InMemoryMiniRedisClient.readHash select key).exec c).2 = ofClient t c ∧
      ((InMemoryMiniRedisClient.readHash select key).exec c).2.maxMemoryBytes =
        c.maxMemoryBytes ∧
      (Counted c → Counted ((InMemoryMiniRedisClient.readHash select key).exec c).2) := by
  simp only [LiveTable.read, InMemoryMiniRedisClient.readHash, Effect.exec_bind,
    Effect.exec_modifyGet]
  obtain ⟨c', table, limit, counted, ⟨read, hidden⟩ | ⟨entry, read, shown⟩⟩ :=
    liveEntry_shown moment key
  · rw [read, hidden]
    exact ⟨rfl, table, limit, counted⟩
  · rw [read, shown]
    cases payload : entry.payload with
    | string value =>
      simp only [payload]
      exact ⟨rfl, table, limit, counted⟩
    | hash fields =>
      simp only [payload]
      exact ⟨rfl, touched table limit counted key⟩

private theorem clientAnswers_hget (moment : c.clock 0 = t) (key fieldName : String) :
    ClientAnswers t c (.hget key fieldName) := by
  have run : (ClientCall.hget key fieldName).onInMemory.exec c = _ :=
    Effect.exec_bind_pure (InMemoryMiniRedisClient.hget key fieldName) ClientReply.text c
  obtain ⟨outcome, table, limit, counted⟩ :=
    readHash_answers moment (fun fields => fields.get? fieldName) key .text
  exact ⟨run ▸ outcome, run ▸ table, run ▸ limit, run ▸ counted⟩

private theorem clientAnswers_hgetall (moment : c.clock 0 = t) (key : String) :
    ClientAnswers t c (.hgetall key) := by
  have run : (ClientCall.hgetall key).onInMemory.exec c = _ :=
    Effect.exec_bind_pure (InMemoryMiniRedisClient.hgetall key) ClientReply.fields c
  obtain ⟨outcome, table, limit, counted⟩ := readHash_answers moment some key .fields
  exact ⟨run ▸ outcome, run ▸ table, run ▸ limit, run ▸ counted⟩

private theorem shown_of_not_met {entry : RedisEntry} (found : c.entries.get? key = some entry)
    (here : (c.entries.get? key).any (·.expired t) = false) :
    ofClient t c key = some (entry.payload.entry, entry.expiresAt) := by
  rw [found, Option.any_some] at here
  rw [ofClient, found, itemOf_live here]

private theorem clientAnswers_delete (here : meetsExpired t c (.delete key) = false) :
    ClientAnswers t c (.delete key) := by
  have entries := InMemoryMiniRedisClient.delete_entries key c
  refine ⟨?_, ofClient_erase entries, InMemoryMiniRedisClient.delete_maxMemoryBytes key c,
    fun counted => counted.of_erase entries⟩
  show Except.ok (ClientReply.flag (c.delete key).1) = _
  rw [answer, InMemoryMiniRedisClient.delete]
  cases found : c.entries.get? key with
  | none =>
    rw [ofClient, found]
    rfl
  | some entry =>
    rw [shown_of_not_met found here]
    rfl

private theorem clientAnswers_expire (moment : c.clock 0 = t) {ttlSeconds : WrittenFloat}
    (positive : notPositive ttlSeconds.value = false)
    (here : meetsExpired t c (.expire key ttlSeconds) = false) :
    ClientAnswers t c (.expire key ttlSeconds) := by
  have run : (ClientCall.expire key ttlSeconds).onInMemory.exec c =
      (.ok (.flag (c.expire key ttlSeconds.value).1), (c.expire key ttlSeconds.value).2) := rfl
  cases found : c.entries.get? key with
  | none =>
    have hidden : ofClient t c key = none := by rw [ofClient, found]; rfl
    have refused : c.expire key ttlSeconds.value = (false, c) := by
      rw [InMemoryMiniRedisClient.expire, found]
    rw [refused] at run
    refine ⟨?_, ?_, ?_, ?_⟩ <;> simp only [run, answer, hidden]
    exact id
  | some entry =>
    have shown := shown_of_not_met found here
    have applied : (c.expire key ttlSeconds.value).1 = true ∧
        (c.expire key ttlSeconds.value).2.entries =
          c.entries.set key ⟨entry.payload, some (ttlSeconds.value.addRat t)⟩ ∧
        (c.expire key ttlSeconds.value).2.maxMemoryBytes = c.maxMemoryBytes := by
      rw [InMemoryMiniRedisClient.expire, found, ← moment]
      exact ⟨rfl, InMemoryMiniRedisClient.touch_entries _ _,
        InMemoryMiniRedisClient.touch_maxMemoryBytes _ _⟩
    obtain ⟨flag, entries, limit⟩ := applied
    have ahead : (⟨entry.payload, some (ttlSeconds.value.addRat t)⟩ : RedisEntry).expired t =
        false := (PyFloat.leRat_addRat t _).trans positive
    have finite : ttlSeconds.value.addRat t ≠ .inf true := by
      intro minus
      rw [RedisEntry.expired, minus] at ahead
      cases ahead
    refine ⟨?_, ?_, ?_, ?_⟩ <;> simp only [run, answer, shown]
    · rw [flag]
    · rw [ofClient_set entries, itemOf_live ahead]
    · exact limit
    · exact fun counted => counted.of_set entries (fun same => finite (Option.some.inj same))

private theorem ceil_remaining (t : ℚ) {deadline : PyFloat} (counted : deadline ≠ .inf true) :
    (∃ seconds, InMemoryMiniRedisClient.ceil (deadline.addRat (-t)) = .ok seconds ∧
      (seconds ≤ 0 ↔ deadline.leRat t = true)) ∨
    (∃ message, InMemoryMiniRedisClient.ceil (deadline.addRat (-t)) = .error message) ∧
      deadline.leRat t = false := by
  cases deadline with
  | nan => exact Or.inr ⟨⟨_, rfl⟩, rfl⟩
  | inf negative =>
    cases negative with
    | false => exact Or.inr ⟨⟨_, rfl⟩, rfl⟩
    | true => exact (counted rfl).elim
  | finite negative magnitude =>
    refine Or.inl ⟨⌈-t + PyFloat.signedValue negative magnitude⌉, ?_, ?_⟩
    · rw [PyFloat.addRat, PyFloat.ofRat, InMemoryMiniRedisClient.ceil, PyFloat.signedValue_ofRat]
    · rw [Int.ceil_le, PyFloat.leRat, decide_eq_true_eq]
      constructor <;> intro le <;> push_cast at * <;> linarith

private theorem clientAnswers_ttl (moment : c.clock 0 = t) (counted : Counted c) (key : String) :
    ClientAnswers t c (.ttl key) := by
  have run : (ClientCall.ttl key).onInMemory.exec c = _ :=
    Effect.exec_bind_pure (InMemoryMiniRedisClient.ttl key) ClientReply.seconds c
  have ticked : ofClient t c.monotonic.2 = ofClient t c := ofClient_congr rfl
  rw [InMemoryMiniRedisClient.ttl, Effect.exec_bind, Effect.exec_get] at run
  dsimp only at run
  cases found : c.entries.get? key with
  | none =>
    have hidden : ofClient t c key = none := by rw [ofClient, found]; rfl
    rw [found] at run
    refine ⟨?_, ?_, ?_, ?_⟩ <;> simp only [run, answer, hidden]
    exacts [rfl, rfl, rfl, id]
  | some entry =>
    rw [found] at run
    cases mortal : entry.expiresAt with
    | none =>
      have shown : ofClient t c key = some (entry.payload.entry, none) := by
        rw [ofClient, found, ← mortal]
        exact itemOf_live (by rw [RedisEntry.expired, mortal]; rfl)
      simp only [mortal] at run
      refine ⟨?_, ?_, ?_, ?_⟩ <;> simp only [run, answer, shown]
      exacts [rfl, rfl, rfl, id]
    | some deadline =>
      simp only [mortal, Effect.exec_bind, Effect.exec_modifyGet] at run
      have reading : c.monotonic.1 = t := moment
      rw [reading] at run
      have expired : entry.expired t = deadline.leRat t := by rw [RedisEntry.expired, mortal]; rfl
      rcases ceil_remaining t (fun same => counted key entry found (same ▸ mortal)) with
        ⟨seconds, rounded, elapsed⟩ | ⟨⟨message, raised⟩, ahead⟩
      · simp only [rounded, Effect.lift_ok, Effect.exec_pure] at run
        cases past : deadline.leRat t with
        | true =>
          have hidden : ofClient t c key = none := by
            rw [ofClient, found, itemOf_expired (expired.trans past)]
          have erased := InMemoryMiniRedisClient.delete_entries key c.monotonic.2
          rw [if_pos (elapsed.mpr past)] at run
          refine ⟨?_, ?_, ?_, ?_⟩ <;> simp only [run, answer, hidden]
          · rfl
          · show ofClient t (c.monotonic.2.delete key).2 = _
            rw [ofClient_erase erased, ticked, ← hidden, Function.update_eq_self]
          · exact InMemoryMiniRedisClient.delete_maxMemoryBytes _ _
          · exact fun counted => counted.of_erase erased
        | false =>
          have shown : ofClient t c key = some (entry.payload.entry, some deadline) := by
            rw [ofClient, found, itemOf_live (expired.trans past), mortal]
          rw [if_neg (fun le => by rw [elapsed.mp le] at past; cases past)] at run
          refine ⟨?_, ?_, ?_, ?_⟩ <;> simp only [run, answer, shown]
          · rw [Option.elim_some, remaining, rounded]
            rfl
          · exact ticked
          · rfl
          · exact id
      · have shown : ofClient t c key = some (entry.payload.entry, some deadline) := by
          rw [ofClient, found, itemOf_live (expired.trans ahead), mortal]
        simp only [raised, Effect.lift_error, Effect.exec_throw] at run
        refine ⟨?_, ?_, ?_, ?_⟩ <;> simp only [run, answer, shown]
        · rw [Option.elim_some, remaining, raised]
          rfl
        · exact ticked
        · rfl
        · exact id

private theorem clientAnswers_flushdb : ClientAnswers t c .flushdb :=
  ⟨rfl, rfl, rfl, fun _ _ _ found => by cases found⟩

private theorem clientAnswers_dbsize (moment : c.clock 0 = t) : ClientAnswers t c .dbsize := by
  refine ⟨?_, ofClient_purgeExpired moment, InMemoryMiniRedisClient.purgeExpired_maxMemoryBytes c,
    fun counted => counted.of_sub (InMemoryMiniRedisClient.Shrinks.purgeExpired c).sub⟩
  have keys : {key | ofClient t c key ≠ none} =
      {key | c.purgeExpired.entries.get? key ≠ none} := by
    ext key
    rw [Set.mem_ofPred_eq, ofClient_purged moment]
    simp
  rw [answer, keys, ← Dict.size_eq_ncard]
  rfl

/-- The client in memory answers like the table of what is live, unless it deletes or renews
what is not live any more. -/
theorem inMemory_answers {call : ClientCall} (moment : c.clock 0 = t)
    (limit : c.maxMemoryBytes = none) (counted : Counted c) (unlimited : call.Unlimited)
    (here : meetsExpired t c call = false) : ClientAnswers t c call := by
  cases call with
  | set key value => exact clientAnswers_set moment limit key value
  | get key => exact clientAnswers_get moment key
  | hset key fieldName value => exact clientAnswers_hset moment limit key fieldName value
  | hget key fieldName => exact clientAnswers_hget moment key fieldName
  | hgetall key => exact clientAnswers_hgetall moment key
  | delete key => exact clientAnswers_delete here
  | expire key ttlSeconds => exact clientAnswers_expire moment unlimited here
  | ttl key => exact clientAnswers_ttl moment counted key
  | flushdb => exact clientAnswers_flushdb
  | dbsize => exact clientAnswers_dbsize moment
  | infoMemory => exact unlimited.elim
  | configSetMaxmemory maxMemoryBytes => exact unlimited.elim

end LiveTable

/-! ### Both clients over time -/

/-- A call at its time: every reading of the clock in it returns that time. -/
def inMemoryAt (call : ℚ × ClientCall) (c : InMemoryMiniRedisClient) :
    Except String ClientReply × InMemoryMiniRedisClient :=
  call.2.onInMemory.exec { c with clock := fun _ => call.1 }

def redisPyAt (call : ℚ × ClientCall) (s : CommandService) :
    Except String ClientReply × CommandService :=
  call.2.onRedisPy.exec { s with clock := fun _ => call.1 }

open LiveTable

/-- Both show the same table at time `t`, and no limit is set on either side. -/
structure ShowSame (t : ℚ) (c : InMemoryMiniRedisClient) (s : CommandService) : Prop where
  table : ofClient t c = ofService t s
  filled : Filled (ofService t s)
  counted : Counted c
  consistent : Consistent s
  limit : c.maxMemoryBytes = none
  limit' : s.maxMemoryBytes = none

namespace ShowSame

variable {t : ℚ} {c : InMemoryMiniRedisClient} {s : CommandService} {call : ClientCall}

theorem later (same : ShowSame t c s) {t' : ℚ} (le : t ≤ t') : ShowSame t' c s := by
  refine ⟨?_, ?_, same.counted, same.consistent, same.limit, same.limit'⟩
  · rw [ofClient_later le, ofService_later le, same.table]
  · rw [ofService_later le]
    exact same.filled.drop t'

private theorem server (same : ShowSame t c s) (unlimited : call.Unlimited) :
    SameOutcome ((ofService t s).answer t call).1 (redisPyAt (t, call) s).1 ∧
      ofService t (redisPyAt (t, call) s).2 = ((ofService t s).answer t call).2 := by
  have run : redisPyAt (t, call) s = _ :=
    ClientCall.exec_onRedisPy unlimited.sendable { s with clock := fun _ => t }
  rw [run]
  exact redisPy_answers (s := { s with clock := fun _ => t }) rfl (same.consistent.tick _)
    same.limit' same.filled unlimited

theorem answers (same : ShowSame t c s) (unlimited : call.Unlimited)
    (here : meetsExpired t c call = false) :
    SameOutcome (inMemoryAt (t, call) c).1 (redisPyAt (t, call) s).1 ∧
      ShowSame t (inMemoryAt (t, call) c).2 (redisPyAt (t, call) s).2 := by
  have client : ClientAnswers t { c with clock := fun _ => t } call :=
    inMemory_answers rfl same.limit same.counted unlimited here
  obtain ⟨outcome, table⟩ := same.server unlimited
  have shown : ofClient t { c with clock := fun _ => t } = ofService t s := same.table
  have run : redisPyAt (t, call) s = _ :=
    ClientCall.exec_onRedisPy unlimited.sendable { s with clock := fun _ => t }
  refine ⟨?_, ?_, ?_, client.counted same.counted, ?_, client.limit.trans same.limit, ?_⟩
  · rw [inMemoryAt, client.outcome, shown]
    exact outcome
  · rw [inMemoryAt, client.table, shown, table]
  · rw [table]
    exact same.filled.answer t call
  · rw [run]
    exact (perform_moves _ _).consistent (same.consistent.tick _)
  · rw [run]
    refine (perform_maxMemoryBytes (fun value configured => ?_) _).trans same.limit'
    cases call <;> first | exact unlimited.elim | cases configured

private theorem eq_of_sameOutcome_flag {b : Bool} {outcome : Except String ClientReply}
    (same : SameOutcome (.ok (.flag b)) outcome) : outcome = .ok (.flag b) := by
  cases outcome with
  | error message => exact same.elim
  | ok reply =>
    cases reply with
    | flag value => exact congrArg Except.ok (Eq.symm same)
    | _ => cases same

theorem differs (same : ShowSame t c s) (unlimited : call.Unlimited)
    (met : meetsExpired t c call = true) :
    ¬ SameOutcome (inMemoryAt (t, call) c).1 (redisPyAt (t, call) s).1 := by
  have refused := (same.server unlimited).1
  have stored : ∀ key, (c.entries.get? key).any (·.expired t) = true →
      (∃ entry, c.entries.get? key = some entry) ∧ ofService t s key = none := by
    intro key met
    cases found : c.entries.get? key with
    | none => simp [found] at met
    | some entry =>
      rw [found, Option.any_some] at met
      refine ⟨⟨entry, rfl⟩, ?_⟩
      rw [← same.table, ofClient, found, itemOf_expired met]
  intro alike
  cases call with
  | delete key =>
    obtain ⟨⟨entry, found⟩, hidden⟩ := stored key met
    generalize (redisPyAt (t, _) s).1 = outcome at refused alike
    have removed : (inMemoryAt (t, .delete key) c).1 = .ok (.flag true) := by
      show Except.ok (ClientReply.flag (InMemoryMiniRedisClient.delete key _).1) = _
      rw [InMemoryMiniRedisClient.delete, if_neg (by rw [found]; simp)]
    rw [LiveTable.answer, hidden] at refused
    rw [removed, eq_of_sameOutcome_flag refused] at alike
    cases alike
  | expire key ttlSeconds =>
    obtain ⟨⟨entry, found⟩, hidden⟩ := stored key met
    generalize (redisPyAt (t, _) s).1 = outcome at refused alike
    have renewed : (inMemoryAt (t, .expire key ttlSeconds) c).1 = .ok (.flag true) := by
      show Except.ok (ClientReply.flag (InMemoryMiniRedisClient.expire key _ _).1) = _
      rw [InMemoryMiniRedisClient.expire, found]
    simp only [LiveTable.answer, hidden] at refused
    rw [renewed, eq_of_sameOutcome_flag refused] at alike
    cases alike
  | _ => cases met

end ShowSame

private def Continues (calls : List (ℚ × ClientCall)) (c : InMemoryMiniRedisClient)
    (s : CommandService) : Prop :=
  ∃ t, ShowSame t c s ∧ (∀ call ∈ calls, t ≤ call.1) ∧
    calls.Pairwise (fun a b => a.1 ≤ b.1) ∧ ∀ call ∈ calls, call.2.Unlimited

/-- Without a limit and at times that never go back, the client in memory and the server behind
redis-py give the same results exactly when no `delete` and no `expire` meets an entry that is
still stored in memory past its deadline. -/
theorem clients_agree_on_expiry (clock clock' : ℕ → ℚ) {calls : List (ℚ × ClientCall)}
    (ordered : calls.Pairwise (fun a b => a.1 ≤ b.1))
    (unlimited : ∀ call ∈ calls, call.2.Unlimited) :
    List.Forall₂ SameOutcome
        (outcomes inMemoryAt calls (InMemoryMiniRedisClient.init clock none))
        (outcomes redisPyAt calls (CommandService.init clock' none)) ↔
      Along inMemoryAt (fun call c => meetsExpired call.1 c call.2 = false) calls
        (InMemoryMiniRedisClient.init clock none) := by
  have step : ∀ (call : ℚ × ClientCall) rest c s, Continues (call :: rest) c s →
      ShowSame call.1 c s ∧ call.2.Unlimited ∧ (∀ later ∈ rest, call.1 ≤ later.1) ∧
        rest.Pairwise (fun a b => a.1 ≤ b.1) ∧ ∀ later ∈ rest, later.2.Unlimited := by
    rintro call rest c s ⟨t, same, ahead, ordered, unlimited⟩
    obtain ⟨first, orderedRest⟩ := List.pairwise_cons.mp ordered
    exact ⟨same.later (ahead call List.mem_cons_self), unlimited call List.mem_cons_self, first,
      orderedRest, fun later member => unlimited later (List.mem_cons_of_mem _ member)⟩
  refine outcomes_alike_iff (R := Continues) ?_ ?_ ?_
  · intro call rest c s continues here
    obtain ⟨same, plain, ahead, orderedRest, unlimitedRest⟩ := step call rest c s continues
    obtain ⟨alike, next⟩ := same.answers plain here
    exact ⟨alike, call.1, next, ahead, orderedRest, unlimitedRest⟩
  · intro call rest c s continues met
    obtain ⟨same, plain, -⟩ := step call rest c s continues
    exact same.differs plain (by simpa using met)
  · have fresh : ∀ t, ShowSame t (InMemoryMiniRedisClient.init clock none)
        (CommandService.init clock' none) := by
      intro t
      exact ⟨rfl, (fun _ _ _ found => by cases found), (fun _ _ found => by cases found),
        Consistent.init clock' none, rfl, rfl⟩
    cases calls with
    | nil => exact ⟨0, fresh 0, by simp, ordered, unlimited⟩
    | cons call rest =>
      refine ⟨call.1, fresh call.1, fun later member => ?_, ordered, unlimited⟩
      rcases List.mem_cons.mp member with rfl | member
      · exact le_refl _
      · exact (List.pairwise_cons.mp ordered).1 later member

private theorem reads_one : parseFloat "1.0" = some (.finite false 1) := by decide +kernel

private def oneSecond : WrittenFloat := ⟨.finite false 1, "1.0", reads_one⟩

private def collectedKey : List (ℚ × ClientCall) :=
  [(0, .set "k" "v"), (0, .expire "k" oneSecond), (2, .get "k"), (2, .delete "k"),
    (3, .expire "k" oneSecond)]

theorem collected_key_agreed :
    List.Forall₂ SameOutcome
      (outcomes inMemoryAt collectedKey (InMemoryMiniRedisClient.init (fun _ => 0) none))
      (outcomes redisPyAt collectedKey (CommandService.init (fun _ => 0) none)) := by
  refine (clients_agree_on_expiry (fun _ => 0) (fun _ => 0) (by decide +kernel) ?_).mpr
    (by decide +kernel)
  intro call member
  simp only [collectedKey, List.mem_cons, List.not_mem_nil, or_false] at member
  rcases member with rfl | rfl | rfl | rfl | rfl <;> trivial

/-- The same key renewed without the read: it comes back, and later it is deleted once more. -/
private def forgottenKey : List (ℚ × ClientCall) :=
  [(0, .set "k" "v"), (0, .expire "k" oneSecond), (2, .expire "k" oneSecond), (2, .get "k"),
    (4, .delete "k")]

theorem forgotten_key_not_agreed :
    ¬ List.Forall₂ SameOutcome
      (outcomes inMemoryAt forgottenKey (InMemoryMiniRedisClient.init (fun _ => 0) none))
      (outcomes redisPyAt forgottenKey (CommandService.init (fun _ => 0) none)) := by
  have removed : outcomes inMemoryAt forgottenKey (InMemoryMiniRedisClient.init (fun _ => 0) none) =
      [.ok .done, .ok (.flag true), .ok (.flag true), .ok (.text (some "v")),
        .ok (.flag true)] := by decide +kernel
  have absent : outcomes redisPyAt forgottenKey (CommandService.init (fun _ => 0) none) =
      [.ok .done, .ok (.flag true), .ok (.flag false), .ok (.text none), .ok (.flag false)] := by
    decide +kernel
  rw [removed, absent]
  simp [SameOutcome, SameReply]

end MiniRedis.Arena
