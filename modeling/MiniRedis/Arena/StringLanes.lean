/- GID: MiniRedis/Arena/StringLanes
   generality: I
   digest: String requests, seeds, clears and memory limits keep both lanes answering alike. -/

import MiniRedis.Arena.Coherence

set_option autoImplicit false
set_option relaxedAutoImplicit false

namespace MiniRedis.Arena

open MiniRedis.Base MiniRedis.Python

/-! ### The repository of strings -/

namespace InMemoryMongoRepository

variable {r : InMemoryMongoRepository} {key : String}

/-- The document under the key, if there is one, is a string. -/
def StringAt (key : String) (r : InMemoryMongoRepository) : Prop :=
  ∀ document, r.documents.get? key = some document → ∃ value, document = .string value

def stringAt (key : String) (r : InMemoryMongoRepository) : Option String :=
  match r.documents.get? key with
  | some (.string value) => some value
  | _ => none

theorem StringAt.get?_eq (strings : StringAt key r) :
    r.documents.get? key = (stringAt key r).map Payload.string := by
  cases found : r.documents.get? key with
  | none => simp [stringAt, found]
  | some document =>
    obtain ⟨value, rfl⟩ := strings document found
    simp [stringAt, found]

theorem exec_read (strings : StringAt key r) :
    (read key).exec r = (.ok (stringAt key r), r) := by
  have stored := strings.get?_eq
  cases held : stringAt key r <;> simp [read, Effect.exec_bind, stored, held]

theorem get?_store (key : String) (document : Payload) (r : InMemoryMongoRepository)
    (other : String) :
    (store key document r).documents.get? other =
      if other = key then some document else r.documents.get? other := Dict.get?_set _ _ _ _

private theorem get?_foldl_store (items : List (String × String)) (r : InMemoryMongoRepository)
    (nodup : (items.map Prod.fst).Nodup) (other : String) :
    (items.foldl (fun r item => store item.1 (.string item.2) r) r).documents.get? other =
      match items.lookup other with
      | some value => some (.string value)
      | none => r.documents.get? other := by
  induction items generalizing r with
  | nil => rfl
  | cons item items ih =>
    simp only [List.map_cons, List.nodup_cons] at nodup
    rw [List.foldl_cons, ih _ nodup.2, List.lookup_cons, get?_store]
    by_cases same : other = item.1
    · have absent : items.lookup other = none := by
        rw [List.lookup_eq_none_iff]
        intro found member
        have different : other ≠ found.1 := by
          rintro rfl
          exact nodup.1 (same ▸ List.mem_map_of_mem member)
        simpa using different
      simp only [absent, if_pos same, beq_iff_eq.mpr same]
    · simp only [if_neg same, beq_eq_false_iff_ne.mpr same]

theorem get?_seed (documents : Dict String String) (r : InMemoryMongoRepository) (other : String) :
    (seed documents r).documents.get? other =
      match documents.get? other with
      | some value => some (.string value)
      | none => r.documents.get? other :=
  get?_foldl_store documents.entries r documents.nodup other

end InMemoryMongoRepository

/-! ### The lane without a cache -/

namespace DBOnlyLaneAdapter

open InMemoryMongoRepository

variable {r : InMemoryMongoRepository} {request : ArenaRequest}

theorem answers_set :
    Answers (executeSet request) ⟨r⟩ setAnswer
      ⟨store request.key (.string (request.value.getD "")) r⟩ := by
  refine (moves_mongo (Effect.exec_modifyGet (write _ _) r)).answers ?_
  refine (moves_extendPath _ _).answers ?_
  refine (moves_extendChanges _ _).answers ?_
  refine (moves_preview _ _).answers ?_
  exact answers_answer _ _

theorem answers_get (strings : StringAt request.key r) :
    Answers (executeGet request) ⟨r⟩ (getAnswer (stringAt request.key r)) ⟨r⟩ := by
  refine (moves_countRead _).answers ?_
  refine (moves_mongo (exec_read strings)).answers ?_
  refine (moves_preview _ _).answers ?_
  refine (moves_extendChanges _ _).answers ?_
  exact answers_answer _ _

end DBOnlyLaneAdapter

/-! ### The lane with a cache -/

namespace RedisDBLaneAdapter

open InMemoryMongoRepository InMemoryMiniRedisClient

variable {c : InMemoryMiniRedisClient} {r r' : InMemoryMongoRepository} {key value : String}
  {request : ArenaRequest} {defaultTtl : Except String PyFloat} {ttlSeconds : Option PyFloat}

theorem mirrors_set (mirrors : Mirrors c r)
    (others : ∀ other, other ≠ key → r'.documents.get? other = r.documents.get? other)
    (own : r'.documents.get? key = some (.string value)) :
    Mirrors (InMemoryMiniRedisClient.set key value c) r' := by
  refine mirrors.of_beside (.rewritten key _ c) others (fun entry found => ?_)
  have kept : (written key ⟨.string value, none⟩ (purgeExpired c)).entries.get? key =
    some entry := found
  rw [get?_written, Option.filter_eq_some_iff] at kept
  cases Option.some.inj kept.1
  exact own

theorem exec_get_mirrored (mirrors : Mirrors c r) (strings : StringAt key r) :
    ∃ c', Mirrors c' r ∧ (
      (InMemoryMiniRedisClient.get key).exec c = (.ok none, c') ∨
      ∃ value, stringAt key r = some value ∧
        (InMemoryMiniRedisClient.get key).exec c = (.ok (some value), c')) := by
  rcases liveEntry_cases key c with
    ⟨c', read, erased, -⟩ | ⟨c', entry, read, found, same, -⟩
  · refine ⟨c', mirrors.of_erase erased (fun _ _ => rfl), Or.inl ?_⟩
    simp [InMemoryMiniRedisClient.get, Effect.exec_bind, read]
  · have document := mirrors key entry found
    obtain ⟨value, payload⟩ := strings _ document
    refine ⟨touch key c', mirrors.of_eq (by simpa using same), Or.inr ⟨value, ?_, ?_⟩⟩
    · simp [InMemoryMongoRepository.stringAt, document, payload]
    · simp [InMemoryMiniRedisClient.get, Effect.exec_bind, read, payload, Except.map]

theorem answers_set (mirrors : Mirrors c r)
    (readable : redisTtlForRequest defaultTtl request.ttlEnabled request.ttlSeconds = .ok ttlSeconds) :
    ∃ c', Mirrors c' (store request.key (.string (request.value.getD "")) r) ∧
      Answers (executeSet defaultTtl request) ⟨c, r⟩ setAnswer
        ⟨c', store request.key (.string (request.value.getD "")) r⟩ := by
  have written : Mirrors (InMemoryMiniRedisClient.set request.key (request.value.getD "") c)
      (store request.key (.string (request.value.getD "")) r) := by
    refine mirrors_set mirrors (fun other different => ?_) ?_
    · rw [get?_store, if_neg different]
    · rw [get?_store, if_pos rfl]
  obtain ⟨c', expired, mirrors'⟩ := moves_expireKey request.key ttlSeconds written
  refine ⟨c', mirrors', ?_⟩
  refine (moves_mongo (Effect.exec_modifyGet (write _ _) r)).answers ?_
  refine Moves.answers (Effect.runs_lift _ readable) ?_
  refine (moves_redis (Effect.exec_modify (InMemoryMiniRedisClient.set _ _) c)).answers ?_
  refine (moves_extendPath _ _).answers ?_
  refine (moves_extendChanges _ _).answers ?_
  refine expired.answers ?_
  refine (moves_preview _ _).answers ?_
  exact answers_answer _ _

theorem answers_get (mirrors : Mirrors c r) (strings : StringAt request.key r)
    (readable : redisTtlForRequest defaultTtl request.ttlEnabled request.ttlSeconds = .ok ttlSeconds) :
    ∃ c', Mirrors c' r ∧
      Answers (executeGet defaultTtl request) ⟨c, r⟩ (getAnswer (stringAt request.key r))
        ⟨c', r⟩ := by
  obtain ⟨c₁, mirrors₁, read | ⟨value, held, read⟩⟩ := exec_get_mirrored mirrors strings
  · cases held : stringAt request.key r with
    | none =>
      refine ⟨c₁, mirrors₁, ?_⟩
      refine (moves_extendPath _ _).answers ?_
      refine (moves_redis read).answers ?_
      refine (moves_cacheMiss _).answers ?_
      refine (moves_countRead _).answers ?_
      refine (moves_mongo (held ▸ exec_read strings)).answers ?_
      refine (moves_extendChanges _ _).answers ?_
      exact answers_answer _ _
    | some value =>
      have document := strings.get?_eq
      rw [held, Option.map_some] at document
      obtain ⟨c₂, expired, mirrors₂⟩ := moves_expireKey request.key ttlSeconds
        (mirrors_set mirrors₁ (fun _ _ => rfl) document)
      refine ⟨c₂, mirrors₂, ?_⟩
      refine (moves_extendPath _ _).answers ?_
      refine (moves_redis read).answers ?_
      refine (moves_cacheMiss _).answers ?_
      refine (moves_countRead _).answers ?_
      refine (moves_mongo (held ▸ exec_read strings)).answers ?_
      refine (moves_preview _ _).answers ?_
      refine Moves.answers (Effect.runs_lift _ readable) ?_
      refine (moves_redis (Effect.exec_modify (InMemoryMiniRedisClient.set _ _) c₁)).answers ?_
      refine (moves_extendPath _ _).answers ?_
      refine (moves_extendChanges _ _).answers ?_
      refine expired.answers ?_
      exact answers_answer _ _
  · refine ⟨c₁, mirrors₁, ?_⟩
    rw [held]
    refine (moves_extendPath _ _).answers ?_
    refine (moves_redis read).answers ?_
    refine (moves_cacheHit _).answers ?_
    refine (moves_preview _ _).answers ?_
    refine (moves_extendPath _ _).answers ?_
    refine (moves_extendChanges _ _).answers ?_
    exact answers_answer _ _

/-! ### Changes beside the requests -/

theorem exec_deleteKeys (keys : List String) (c : InMemoryMiniRedisClient) :
    ∃ c', (deleteKeys keys).exec c = (.ok (), c') ∧
      ∀ other, c'.entries.get? other = if other ∈ keys then none else c.entries.get? other := by
  induction keys generalizing c with
  | nil => exact ⟨c, rfl, fun other => by simp⟩
  | cons key keys ih =>
    obtain ⟨c', rest, entries⟩ := ih (InMemoryMiniRedisClient.delete key c).2
    refine ⟨c', ?_, fun other => ?_⟩
    · rw [deleteKeys]
      exact (Effect.exec_bind_of_ok (Effect.exec_modifyGet (InMemoryMiniRedisClient.delete key) c)).trans
        rest
    · rw [entries, delete_entries, Dict.get?_erase]
      by_cases same : other = key <;> simp [same]

theorem exec_warmKeys (ttlSeconds : Option PyFloat) {items : List (String × String)}
    (mirrors : Mirrors c r)
    (seeded : ∀ item ∈ items, r.documents.get? item.1 = some (.string item.2)) :
    ∃ c', (warmKeys ttlSeconds items).exec c = (.ok (), c') ∧ Mirrors c' r := by
  induction items generalizing c with
  | nil => exact ⟨c, rfl, mirrors⟩
  | cons item items ih =>
    have stored := mirrors_set mirrors (fun _ _ => rfl) (seeded item List.mem_cons_self)
    have later := fun item member => seeded item (List.mem_cons_of_mem _ member)
    cases ttlSeconds with
    | none =>
      obtain ⟨c', rest, mirrors'⟩ := ih stored later
      exact ⟨c', rest, mirrors'⟩
    | some seconds =>
      obtain ⟨c', rest, mirrors'⟩ := ih (stored.expire item.1 seconds) later
      exact ⟨c', rest, mirrors'⟩

theorem exec_clear (keys : List String) (fullReset : Bool) (mirrors : Mirrors c r) :
    ∃ c', (clear keys fullReset).exec ⟨c, r⟩ =
        (.ok (), ⟨c', (DBOnlyLaneAdapter.clear keys fullReset ⟨r⟩).repository⟩) ∧
      Mirrors c' (DBOnlyLaneAdapter.clear keys fullReset ⟨r⟩).repository := by
  cases fullReset with
  | true => exact ⟨flushdb c, rfl, fun _ _ found => by cases found⟩
  | false =>
    obtain ⟨c', run, entries⟩ := exec_deleteKeys keys c
    refine ⟨c', ?_, fun key entry found => ?_⟩
    · simp [clear, withClient, withRepository, Effect.exec_bind, run, DBOnlyLaneAdapter.clear]
    · rw [entries] at found
      simp only [DBOnlyLaneAdapter.clear, Bool.false_eq_true, if_false, get?_deleteMany]
      split at found
      · cases found
      · rename_i kept
        rw [if_neg kept]
        exact mirrors key entry found

theorem exec_configureMemory (profileKey : String) (maxMemoryBytes : ℤ) (mirrors : Mirrors c r) :
    ∃ report c', (configureMemory profileKey maxMemoryBytes).exec ⟨c, r⟩ = (.ok report, ⟨c', r⟩) ∧
      Mirrors c' r := by
  refine ⟨_, purgeExpired (configSetMaxmemory maxMemoryBytes c), rfl, fun key entry found => ?_⟩
  have enforced := (Shrinks.purgeExpired _).sub key entry found
  unfold configSetMaxmemory at enforced
  have stored := (Shrinks.enforceMaxMemory [] _).sub key entry enforced
  exact mirrors key entry stored

theorem exec_seed (defaultSeconds : PyFloat) (seedInput : SeedStateInput) (mirrors : Mirrors c r) :
    ∃ c', (seed (.ok defaultSeconds) seedInput).exec ⟨c, r⟩ =
        (.ok (), ⟨c', (DBOnlyLaneAdapter.seed seedInput ⟨r⟩).repository⟩) ∧
      Mirrors c' (DBOnlyLaneAdapter.seed seedInput ⟨r⟩).repository := by
  obtain ⟨documents, warmCache, ttlEnabled, ttlSeconds⟩ := seedInput
  obtain ⟨ttl, readable⟩ := redisTtlForRequest_ok defaultSeconds ttlEnabled ttlSeconds
  obtain ⟨c₁, deleted, entries⟩ := exec_deleteKeys documents.keys c
  have seeded : (if documents.entries = [] then r else r.seed documents) = r.seed documents := by
    split
    · rename_i empty
      simp [InMemoryMongoRepository.seed, empty]
    · rfl
  have repository : (DBOnlyLaneAdapter.seed ⟨documents, warmCache, ttlEnabled, ttlSeconds⟩
      ⟨r⟩).repository = r.seed documents := by
    rw [← seeded]
    unfold DBOnlyLaneAdapter.seed
    split <;> rfl
  have mirrors₁ : Mirrors c₁ (r.seed documents) := by
    intro key entry found
    rw [entries] at found
    split at found
    · cases found
    · rename_i unseeded
      rw [get?_seed, (Dict.get?_eq_none_iff _ _).mpr unseeded]
      exact mirrors key entry found
  rw [repository]
  cases warmCache with
  | false =>
    refine ⟨c₁, ?_, mirrors₁⟩
    simp [seed, withRepository, withClient, Effect.exec_bind, seeded, deleted]
  | true =>
    obtain ⟨c₂, warmed, mirrors₂⟩ := exec_warmKeys ttl mirrors₁ (fun item member => by
      rw [get?_seed, (Dict.get?_eq_some_iff _ _ _).mpr member])
    refine ⟨c₂, ?_, mirrors₂⟩
    simp [seed, withRepository, withClient, Effect.exec_bind, seeded, deleted, readable, warmed]

end RedisDBLaneAdapter

/-! ### Runs of both lanes -/

/-- What the gateway asks of its lanes. -/
inductive LaneOperation where
  | request (request : ArenaRequest)
  | seed (seedInput : SeedStateInput)
  | clear (keys : List String) (fullReset : Bool)
  | configureMemory (profileKey : String) (maxMemoryBytes : ℤ)

/-- The cached lane after an operation, with the result of a request. -/
def RedisDBLaneAdapter.perform (defaultTtl : Except String PyFloat) :
    LaneOperation → InMemoryLane → Option LaneResult × InMemoryLane
  | .request request, a => (some (a.execute defaultTtl request).1, (a.execute defaultTtl request).2)
  | .seed seedInput, a => (none, ((RedisDBLaneAdapter.seed defaultTtl seedInput).exec a).2)
  | .clear keys fullReset, a => (none, ((RedisDBLaneAdapter.clear keys fullReset).exec a).2)
  | .configureMemory profileKey maxMemoryBytes, a =>
    (none, ((RedisDBLaneAdapter.configureMemory profileKey maxMemoryBytes).exec a).2)

/-- The lane without a cache has no memory to configure. -/
def DBOnlyLaneAdapter.perform :
    LaneOperation → DBOnlyLaneAdapter → Option LaneResult × DBOnlyLaneAdapter
  | .request request, b => (some (b.execute request).1, (b.execute request).2)
  | .seed seedInput, b => (none, b.seed seedInput)
  | .clear keys fullReset, b => (none, b.clear keys fullReset)
  | .configureMemory _ _, b => (none, b)

/-- Operations one after the other: their results and the lane after them. -/
def operate {ρ : Type} (perform : LaneOperation → ρ → Option LaneResult × ρ) :
    List LaneOperation → ρ → List (Option LaneResult) × ρ
  | [], lane => ([], lane)
  | operation :: rest, lane =>
    ((perform operation lane).1 :: (operate perform rest (perform operation lane).2).1,
      (operate perform rest (perform operation lane).2).2)

def stringCommands : List CommandName := [.set, .get, .del]

/-- The operation is no request on hashes. -/
def LaneOperation.OnStrings : LaneOperation → Prop
  | .request asked => asked.command ∈ stringCommands
  | _ => True

/-- Both lanes store the same strings and the cache mirrors them. -/
structure StringCoherent (a : InMemoryLane) (b : DBOnlyLaneAdapter) : Prop where
  repository : a.repository = b.repository
  strings : ∀ key, a.repository.StringAt key
  mirrors : Mirrors a.redisClient a.repository

namespace InMemoryMongoRepository

variable {r : InMemoryMongoRepository}

theorem stringAt_store (strings : ∀ key, r.StringAt key) (key value : String) (other : String) :
    (r.store key (.string value)).StringAt other := by
  intro document found
  rw [get?_store] at found
  split at found
  · exact ⟨value, (Option.some.inj found).symm⟩
  · exact strings other document found

theorem stringAt_seed (strings : ∀ key, r.StringAt key) (documents : Dict String String)
    (other : String) : (r.seed documents).StringAt other := by
  intro document found
  rw [get?_seed] at found
  split at found
  · exact ⟨_, (Option.some.inj found).symm⟩
  · exact strings other document found

theorem stringAt_deleteMany (strings : ∀ key, r.StringAt key) (keys : List String)
    (other : String) : (r.deleteMany keys).StringAt other := by
  intro document found
  rw [get?_deleteMany] at found
  split at found
  · cases found
  · exact strings other document found

theorem stringAt_erase (strings : ∀ key, r.StringAt key) (key other : String) :
    StringAt other ⟨r.documents.erase key⟩ := by
  intro document found
  rw [Dict.get?_erase] at found
  split at found
  · cases found
  · exact strings other document found

end InMemoryMongoRepository

theorem execute_stringCoherent {request : ArenaRequest} {a : InMemoryLane}
    {b : DBOnlyLaneAdapter} (defaultSeconds : PyFloat) (coherent : StringCoherent a b)
    (string : request.command ∈ stringCommands) :
    SameAnswer (a.execute (.ok defaultSeconds) request).1 (b.execute request).1 ∧
      StringCoherent (a.execute (.ok defaultSeconds) request).2 (b.execute request).2 := by
  obtain ⟨c, r⟩ := a
  obtain ⟨r'⟩ := b
  obtain ⟨repository, strings, mirrors⟩ := coherent
  cases (show r = r' from repository)
  obtain ⟨ttl, readable⟩ := redisTtlForRequest_ok defaultSeconds request.ttlEnabled
    request.ttlSeconds
  have paired : ∃ reply c' r', Mirrors c' r' ∧ (∀ key, r'.StringAt key) ∧
      Answers (RedisDBLaneAdapter.executeBody (.ok defaultSeconds) request) ⟨c, r⟩ reply ⟨c', r'⟩ ∧
      Answers (DBOnlyLaneAdapter.executeBody request) ⟨r⟩ reply ⟨r'⟩ := by
    cases command : request.command with
    | hset | hget | hgetall => simp [stringCommands, command] at string
    | set =>
      simp only [RedisDBLaneAdapter.executeBody, DBOnlyLaneAdapter.executeBody, command]
      obtain ⟨c', mirrors', answers⟩ := RedisDBLaneAdapter.answers_set mirrors readable
      exact ⟨_, c', _, mirrors', InMemoryMongoRepository.stringAt_store strings _ _, answers,
        DBOnlyLaneAdapter.answers_set⟩
    | get =>
      simp only [RedisDBLaneAdapter.executeBody, DBOnlyLaneAdapter.executeBody, command]
      obtain ⟨c', mirrors', answers⟩ := RedisDBLaneAdapter.answers_get mirrors (strings _) readable
      exact ⟨_, c', r, mirrors', strings, answers, DBOnlyLaneAdapter.answers_get (strings _)⟩
    | del =>
      simp only [RedisDBLaneAdapter.executeBody, DBOnlyLaneAdapter.executeBody, command]
      obtain ⟨c', mirrors', answers⟩ := RedisDBLaneAdapter.answers_del mirrors
      exact ⟨_, c', _, mirrors', InMemoryMongoRepository.stringAt_erase strings _, answers,
        DBOnlyLaneAdapter.answers_del⟩
  obtain ⟨reply, c', r', mirrors', strings', cached, uncached⟩ := paired
  obtain ⟨x, runA, statusA, textA, kindA⟩ :=
    cached.finish .redisDb "Redis + DB lane execution failed" request
  obtain ⟨y, runB, statusB, textB, kindB⟩ :=
    uncached.finish .dbOnly "DB only lane execution failed" request
  rw [RedisDBLaneAdapter.execute, DBOnlyLaneAdapter.execute, runA, runB]
  exact ⟨⟨statusA.trans statusB.symm, textA.trans textB.symm, kindA.trans kindB.symm⟩,
    ⟨rfl, strings', mirrors'⟩⟩

theorem perform_stringCoherent {operation : LaneOperation} {a : InMemoryLane}
    {b : DBOnlyLaneAdapter} (defaultSeconds : PyFloat) (coherent : StringCoherent a b)
    (string : operation.OnStrings) :
    Option.Rel SameAnswer (a.perform (.ok defaultSeconds) operation).1 (b.perform operation).1 ∧
      StringCoherent (a.perform (.ok defaultSeconds) operation).2 (b.perform operation).2 := by
  obtain ⟨c, r⟩ := a
  obtain ⟨r'⟩ := b
  obtain ⟨repository, strings, mirrors⟩ := coherent
  cases (show r = r' from repository)
  have mirrors : Mirrors c r := mirrors
  cases operation with
  | request request =>
    obtain ⟨same, next⟩ := execute_stringCoherent defaultSeconds ⟨rfl, strings, mirrors⟩ string
    exact ⟨.some same, next⟩
  | seed seedInput =>
    obtain ⟨c', run, mirrors'⟩ := RedisDBLaneAdapter.exec_seed defaultSeconds seedInput mirrors
    refine ⟨.none, ?_⟩
    simp only [RedisDBLaneAdapter.perform, DBOnlyLaneAdapter.perform, run]
    refine ⟨rfl, fun key => ?_, mirrors'⟩
    simp only [DBOnlyLaneAdapter.seed]
    split
    · exact strings key
    · exact InMemoryMongoRepository.stringAt_seed strings _ key
  | clear keys fullReset =>
    obtain ⟨c', run, mirrors'⟩ := RedisDBLaneAdapter.exec_clear keys fullReset mirrors
    refine ⟨.none, ?_⟩
    simp only [RedisDBLaneAdapter.perform, DBOnlyLaneAdapter.perform, run]
    refine ⟨rfl, fun key => ?_, mirrors'⟩
    simp only [DBOnlyLaneAdapter.clear]
    split
    · exact fun _ found => by cases found
    · exact InMemoryMongoRepository.stringAt_deleteMany strings _ key
  | configureMemory profileKey maxMemoryBytes =>
    obtain ⟨_, c', run, mirrors'⟩ :=
      RedisDBLaneAdapter.exec_configureMemory profileKey maxMemoryBytes mirrors
    refine ⟨.none, ?_⟩
    simp only [RedisDBLaneAdapter.perform, DBOnlyLaneAdapter.perform, run]
    exact ⟨rfl, strings, mirrors'⟩

/-- A whole run, from coherent lanes. -/
theorem operate_stringCoherent {operations : List LaneOperation} {a : InMemoryLane}
    {b : DBOnlyLaneAdapter} (defaultSeconds : PyFloat) (coherent : StringCoherent a b)
    (strings : ∀ operation ∈ operations, operation.OnStrings) :
    List.Forall₂ (Option.Rel SameAnswer)
        (operate (RedisDBLaneAdapter.perform (.ok defaultSeconds)) operations a).1
        (operate DBOnlyLaneAdapter.perform operations b).1 ∧
      StringCoherent (operate (RedisDBLaneAdapter.perform (.ok defaultSeconds)) operations a).2
        (operate DBOnlyLaneAdapter.perform operations b).2 := by
  induction operations generalizing a b with
  | nil => exact ⟨.nil, coherent⟩
  | cons operation rest ih =>
    obtain ⟨same, next⟩ :=
      perform_stringCoherent defaultSeconds coherent (strings operation List.mem_cons_self)
    obtain ⟨sames, last⟩ :=
      ih next (fun later member => strings later (List.mem_cons_of_mem _ member))
    exact ⟨.cons same sames, last⟩

/-- In every run of string requests, seeds, clears and memory limits from empty lanes, both
lanes answer every request alike, and after every step the lanes store the same documents and
each cached entry holds the repository's. -/
theorem string_lanes_answer_alike (defaultSeconds : PyFloat) (clock : ℕ → ℚ)
    (maxMemoryBytes : Option ℕ+) (operations : List LaneOperation)
    (strings : ∀ operation ∈ operations, operation.OnStrings) :
    List.Forall₂ (Option.Rel SameAnswer)
        (operate (RedisDBLaneAdapter.perform (.ok defaultSeconds)) operations
          (.init clock maxMemoryBytes)).1
        (operate DBOnlyLaneAdapter.perform operations .init).1 ∧
      ∀ n,
        let cached := (operate (RedisDBLaneAdapter.perform (.ok defaultSeconds))
          (operations.take n) (.init clock maxMemoryBytes)).2
        cached.repository =
            (operate DBOnlyLaneAdapter.perform (operations.take n) .init).2.repository ∧
          Mirrors cached.redisClient cached.repository := by
  have start : StringCoherent (.init clock maxMemoryBytes) .init :=
    ⟨rfl, (fun _ _ found => by cases found), (fun _ _ found => by cases found)⟩
  refine ⟨(operate_stringCoherent defaultSeconds start strings).1, fun n => ?_⟩
  have earlier : ∀ operation ∈ operations.take n, operation.OnStrings :=
    fun operation member => strings operation (List.mem_of_mem_take member)
  have reached := (operate_stringCoherent defaultSeconds start earlier).2
  exact ⟨reached.repository, reached.mirrors⟩

/-- Warm strings that expire, do not fit, are filled again and are cleared. -/
def seededStrings : List LaneOperation :=
  [.seed { documents := (Dict.empty.set "a" "1").set "b" "22", warmCache := true
           ttlEnabled := true },
    .request { requestId := "1", command := .get, key := "a" },
    .configureMemory "small" 3,
    .request { requestId := "2", command := .set, key := "c", value := some "long"
               ttlEnabled := true, ttlSeconds := some (.finite false 1) },
    .request { requestId := "3", command := .get, key := "c" },
    .request { requestId := "4", command := .get, key := "b" },
    .clear ["b"] false,
    .request { requestId := "5", command := .del, key := "b" },
    .clear [] true,
    .request { requestId := "6", command := .get, key := "a" }]

theorem seeded_strings_answered_alike :
    (∀ operation ∈ seededStrings, operation.OnStrings) ∧
      List.Forall₂ (Option.Rel SameAnswer)
        (operate (RedisDBLaneAdapter.perform (.ok (.finite false 5))) seededStrings
          (.init (fun n => 2 * n) none)).1
        (operate DBOnlyLaneAdapter.perform seededStrings .init).1 := by
  have strings : ∀ operation ∈ seededStrings, operation.OnStrings := by
    simp [seededStrings, LaneOperation.OnStrings, stringCommands]
  exact ⟨strings, (string_lanes_answer_alike (.finite false 5) (fun n => 2 * n) none seededStrings
    strings).1⟩

end MiniRedis.Arena
