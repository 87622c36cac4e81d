/- GID: MiniRedis/Arena/Coherence
   generality: I
   digest: Lanes answer alike as long as no request leaves a part of a hash in the cache. -/

import MiniRedis.Arena.Refill

set_option autoImplicit false
set_option relaxedAutoImplicit false

namespace MiniRedis.Arena

open MiniRedis.Base MiniRedis.Python

/-! ### The repository of hashes -/

namespace InMemoryMongoRepository

variable {r : InMemoryMongoRepository} {key : String}

/-- The document under the key, if there is one, is a hash. -/
def HashAt (key : String) (r : InMemoryMongoRepository) : Prop :=
  ∀ document, r.documents.get? key = some document → ∃ fields, document = .hash fields

def hashAt (key : String) (r : InMemoryMongoRepository) : Option (Dict String String) :=
  match r.documents.get? key with
  | some (.hash fields) => some fields
  | _ => none

/-- The repository after the write of one field of a hash. -/
def putField (key fieldName value : String) (r : InMemoryMongoRepository) :
    InMemoryMongoRepository :=
  store key (.hash (((hashAt key r).getD Dict.empty).set fieldName value)) r

theorem get?_putField (key fieldName value other : String) (r : InMemoryMongoRepository) :
    (putField key fieldName value r).documents.get? other =
      if other = key then some (.hash (((hashAt key r).getD Dict.empty).set fieldName value))
      else r.documents.get? other := Dict.get?_set _ _ _ _

theorem HashAt.get?_eq (hashed : HashAt key r) :
    r.documents.get? key = (hashAt key r).map Payload.hash := by
  cases found : r.documents.get? key with
  | none => simp [hashAt, found]
  | some document =>
    obtain ⟨fields, rfl⟩ := hashed document found
    simp [hashAt, found]

theorem exec_hgetall (hashed : HashAt key r) :
    (hgetall key).exec r = (.ok (hashAt key r), r) := by
  have stored := hashed.get?_eq
  cases held : hashAt key r <;> simp [hgetall, Effect.exec_bind, stored, held]

theorem exec_hget (fieldName : String) (hashed : HashAt key r) :
    (hget key fieldName).exec r = (.ok ((hashAt key r).bind (·.get? fieldName)), r) := by
  have stored := hashed.get?_eq
  cases held : hashAt key r <;> simp [hget, Effect.exec_bind, stored, held]

theorem exec_hset (fieldName value : String) (hashed : HashAt key r) :
    ∃ state, (hset key fieldName value).exec r = (.ok state, putField key fieldName value r) := by
  have stored := hashed.get?_eq
  unfold putField
  cases held : hashAt key r <;>
    exact ⟨_, by simp [hset, Effect.exec_bind, stored, held, Except.map]; rfl⟩

theorem exec_delete (key : String) (r : InMemoryMongoRepository) :
    (modifyGet (delete key) : RepositoryM Bool).exec r =
      (.ok (decide (r.documents.get? key ≠ none)), ⟨r.documents.erase key⟩) := by
  rw [Effect.exec_modifyGet, delete]
  split
  · rename_i absent
    simp [absent, Dict.erase_eq_self absent]
  · rename_i stored
    simp [stored]

end InMemoryMongoRepository

/-! ### Runs of a lane -/

section Runs

variable {ρ : Type}

/-- From any record of the execution so far, the computation takes the lane from `start` to
`stop` and returns `a`. -/
def Moves {α : Type} (x : LaneM ρ α) (start : ρ) (a : α) (stop : ρ) : Prop :=
  x.Runs (fun s => s.lane = start) a (fun s => s.lane = stop)

/-- The body of a request takes the lane from `start` to `stop` and gives this answer. -/
def Answers (body : LaneM ρ Unit) (start : ρ) (reply : String × AnswerKind) (stop : ρ) : Prop :=
  body.Runs (fun s => s.lane = start) ()
    (fun s => s.lane = stop ∧ s.answerText = some reply.1 ∧ s.answerKind = some reply.2)

theorem moves_extendPath (steps : List PathStep) (lane : ρ) :
    Moves (extendPath steps) lane () lane := Effect.runs_modify (fun _ at_start => at_start)

theorem moves_extendChanges (changes : List String) (lane : ρ) :
    Moves (extendChanges changes) lane () lane := Effect.runs_modify (fun _ at_start => at_start)

theorem moves_preview (value : Option String) (lane : ρ) :
    Moves (preview value) lane () lane := Effect.runs_modify (fun _ at_start => at_start)

theorem moves_countRead (lane : ρ) : Moves countRead lane () lane :=
  Effect.runs_modify (fun _ at_start => at_start)

theorem answers_answer (reply : String × AnswerKind) (lane : ρ) :
    Answers (answer reply) lane reply lane :=
  Effect.runs_modify (fun _ at_start => ⟨at_start, rfl, rfl⟩)

theorem Moves.bind {α β : Type} {x : LaneM ρ α} {f : α → LaneM ρ β} {start middle stop : ρ}
    {a : α} {b : β} (first : Moves x start a middle) (rest : Moves (f a) middle b stop) :
    Moves (x >>= f) start b stop := Effect.Runs.bind first rest

theorem Moves.answers {α : Type} {x : LaneM ρ α} {f : α → LaneM ρ Unit} {start middle stop : ρ}
    {a : α} {reply : String × AnswerKind} (first : Moves x start a middle)
    (rest : Answers (f a) middle reply stop) : Answers (x >>= f) start reply stop :=
  Effect.Runs.bind first rest

theorem Answers.finish {body : LaneM ρ Unit} {start stop : ρ} {reply : String × AnswerKind}
    (answers : Answers body start reply stop) (lane : LaneName) (failure : String)
    (request : ArenaRequest) :
    ∃ result, finish lane failure request body start = (result, stop) ∧ result.status = .ok ∧
      result.answerText = some reply.1 ∧ result.answerKind = some reply.2 := by
  obtain ⟨s, run, stopped, text, kind⟩ := answers { lane := start } rfl
  unfold Arena.finish
  rw [run]
  exact ⟨_, congrArg _ stopped, rfl, text, kind⟩

end Runs

/-- Status, answer text and answer kind are the same. -/
def SameAnswer (x y : LaneResult) : Prop :=
  x.status = y.status ∧ x.answerText = y.answerText ∧ x.answerKind = y.answerKind

instance (x y : LaneResult) : Decidable (SameAnswer x y) :=
  inferInstanceAs (Decidable (x.status = y.status ∧ x.answerText = y.answerText ∧
    x.answerKind = y.answerKind))

/-! ### The lane without a cache -/

namespace DBOnlyLaneAdapter

open InMemoryMongoRepository

variable {r : InMemoryMongoRepository} {request : ArenaRequest}

theorem moves_mongo {α : Type} {call : RepositoryM α} {r' : InMemoryMongoRepository} {a : α}
    (run : call.exec r = (.ok a, r')) : Moves (mongo call) ⟨r⟩ a ⟨r'⟩ := by
  intro s at_start
  refine ⟨{ s with lane := ⟨r'⟩ }, ?_, rfl⟩
  rw [mongo, Effect.exec_zoom, at_start, run]

theorem answers_hset (hashed : HashAt request.key r) :
    Answers (executeHset request) ⟨r⟩ setAnswer
      ⟨putField request.key (request.field.getD "") (request.value.getD "") r⟩ := by
  obtain ⟨state, run⟩ := exec_hset (request.field.getD "") (request.value.getD "") hashed
  refine (moves_mongo run).answers ?_
  refine (moves_extendPath _ _).answers ?_
  refine (moves_extendChanges _ _).answers ?_
  refine (moves_preview _ _).answers ?_
  exact answers_answer _ _

theorem answers_hget (hashed : HashAt request.key r) :
    Answers (executeHget request) ⟨r⟩
      (getAnswer ((hashAt request.key r).bind (·.get? (request.field.getD "")))) ⟨r⟩ := by
  refine (moves_countRead _).answers ?_
  refine (moves_mongo (exec_hget (request.field.getD "") hashed)).answers ?_
  refine (moves_preview _ _).answers ?_
  refine (moves_extendChanges _ _).answers ?_
  exact answers_answer _ _

theorem answers_hgetall (hashed : HashAt request.key r) :
    Answers (executeHgetall request) ⟨r⟩
      (getAnswer (serializeHash (hashAt request.key r))) ⟨r⟩ := by
  refine (moves_countRead _).answers ?_
  refine (moves_mongo (exec_hgetall hashed)).answers ?_
  refine (moves_preview _ _).answers ?_
  refine (moves_extendChanges _ _).answers ?_
  exact answers_answer _ _

theorem answers_del :
    Answers (executeDel request) ⟨r⟩ (deleteAnswer (r.documents.get? request.key ≠ none))
      ⟨⟨r.documents.erase request.key⟩⟩ := by
  refine (moves_extendPath _ _).answers ?_
  refine (moves_mongo (exec_delete request.key r)).answers ?_
  refine (moves_extendChanges _ _).answers ?_
  exact answers_answer _ _

end DBOnlyLaneAdapter

/-! ### The lane with a cache -/

open InMemoryMiniRedisClient (ShrinksBeside)

/-- Every cached entry, expired or not, holds the repository's whole document. -/
def Mirrors (c : InMemoryMiniRedisClient) (r : InMemoryMongoRepository) : Prop :=
  ∀ key entry, c.entries.get? key = some entry → r.documents.get? key = some entry.payload

namespace Mirrors

variable {c c' : InMemoryMiniRedisClient} {r r' : InMemoryMongoRepository} {key : String}

theorem of_beside (mirrors : Mirrors c r) (shrinks : ShrinksBeside key c c')
    (others : ∀ other, other ≠ key → r'.documents.get? other = r.documents.get? other)
    (own : ∀ entry, c'.entries.get? key = some entry →
      r'.documents.get? key = some entry.payload) : Mirrors c' r' := by
  intro other entry found
  by_cases same : other = key
  · subst same
    exact own entry found
  · rw [others other same]
    exact mirrors other entry (shrinks.sub other same entry found)

theorem of_erase (mirrors : Mirrors c r) (erased : c'.entries = c.entries.erase key)
    (others : ∀ other, other ≠ key → r'.documents.get? other = r.documents.get? other) :
    Mirrors c' r' := by
  intro other entry found
  rw [erased, Dict.get?_erase] at found
  split at found
  · cases found
  · rename_i different
    rw [others other different]
    exact mirrors other entry found

theorem of_eq (mirrors : Mirrors c r) (same : c'.entries = c.entries) : Mirrors c' r := by
  intro key entry found
  exact mirrors key entry (same ▸ found)

theorem expire (mirrors : Mirrors c r) (key : String) (ttlSeconds : PyFloat) :
    Mirrors (InMemoryMiniRedisClient.expire key ttlSeconds c).2 r := by
  refine mirrors.of_beside (.expire key ttlSeconds c) (fun _ _ => rfl) (fun entry found => ?_)
  have payload := InMemoryMiniRedisClient.payload_expire key ttlSeconds c
  rw [found, Option.map_some, eq_comm, Option.map_eq_some_iff] at payload
  obtain ⟨entry', found', same⟩ := payload
  rw [← same]
  exact mirrors key entry' found'

theorem hashAt (mirrors : Mirrors c r) (hashed : r.HashAt key) :
    InMemoryMiniRedisClient.HashAt key c :=
  fun entry found => hashed entry.payload (mirrors key entry found)

end Mirrors

namespace RedisDBLaneAdapter

open InMemoryMongoRepository InMemoryMiniRedisClient

variable {c : InMemoryMiniRedisClient} {r : InMemoryMongoRepository} {request : ArenaRequest}
  {defaultTtl : Except String PyFloat} {ttlSeconds : Option PyFloat}

theorem moves_mongo {α : Type} {call : RepositoryM α} {r' : InMemoryMongoRepository} {a : α}
    (run : call.exec r = (.ok a, r')) : Moves (mongo call) ⟨c, r⟩ a ⟨c, r'⟩ := by
  intro s at_start
  refine ⟨{ s with lane := ⟨c, r'⟩ }, ?_, rfl⟩
  rw [mongo, Effect.exec_zoom, at_start, run]

theorem moves_redis {α : Type} {call : ClientM α} {c' : InMemoryMiniRedisClient} {a : α}
    (run : call.exec c = (.ok a, c')) : Moves (redis call) ⟨c, r⟩ a ⟨c', r⟩ := by
  intro s at_start
  refine ⟨{ s with lane := ⟨c', r⟩ }, ?_, rfl⟩
  rw [redis, Effect.exec_zoom, at_start, run]

theorem moves_cacheHit (lane : InMemoryLane) : Moves cacheHit lane () lane :=
  Effect.runs_modify (fun _ at_start => at_start)

theorem moves_cacheMiss (lane : InMemoryLane) : Moves cacheMiss lane () lane :=
  Effect.runs_modify (fun _ at_start => at_start)

theorem moves_expireKey (key : String) (ttlSeconds : Option PyFloat)
    (mirrors : Mirrors c r) :
    ∃ c', Moves (expireKey key ttlSeconds) ⟨c, r⟩ () ⟨c', r⟩ ∧ Mirrors c' r := by
  cases ttlSeconds with
  | none => exact ⟨c, Effect.runs_pure _ _, mirrors⟩
  | some seconds =>
    refine ⟨(expire key seconds c).2, ?_, mirrors.expire key seconds⟩
    refine (moves_redis (Effect.exec_modifyGet (expire key seconds) c)).bind ?_
    refine (moves_extendPath _ _).bind ?_
    exact moves_extendChanges _ _

/-- The write of one field leaves the whole hash or nothing in the cache: the hash is cached
and live at the write's first reading, or it has no other field, or the field alone does not
fit. -/
def WritesWhole (c : InMemoryMiniRedisClient) (r : InMemoryMongoRepository)
    (key fieldName value : String) : Prop :=
  (∃ entry ∈ c.entries.get? key, entry.expired (c.clock 0) = false) ∨
    (∀ fields ∈ hashAt key r, ∀ name ∈ fields.keys, name = fieldName) ∨
    (∃ maxMemory ∈ c.maxMemoryBytes,
      (maxMemory : ℕ) < byteLength key + (byteLength fieldName + byteLength value))

instance (c : InMemoryMiniRedisClient) (r : InMemoryMongoRepository)
    (key fieldName value : String) : Decidable (WritesWhole c r key fieldName value) :=
  inferInstanceAs (Decidable (_ ∨ _ ∨ _))

private theorem whole_of_absent {key fieldName value : String} {entry : RedisEntry}
    (whole : WritesWhole c r key fieldName value)
    (absent : (purgeExpired c).entries.get? key = none)
    (found : (written key ⟨.hash (Dict.empty.set fieldName value), none⟩
      (purgeExpired c)).entries.get? key = some entry) :
    entry.payload = .hash (((hashAt key r).getD Dict.empty).set fieldName value) := by
  rw [get?_written, Option.filter_eq_some_iff, purgeExpired_maxMemoryBytes] at found
  obtain ⟨written_entry, kept⟩ := found
  cases Option.some.inj written_entry
  rcases whole with ⟨cached, stored, live⟩ | only | ⟨maxMemory, limited, exceeds⟩
  · rw [get?_purgeExpired, stored, Option.filter_some_pos (by simp [live])] at absent
    cases absent
  · cases held : hashAt key r with
    | none => rfl
    | some fields => rw [Option.getD_some, Dict.set_of_only (only fields held)]
  · have single : (Dict.empty.set fieldName value : Dict String String).entries =
        [(fieldName, value)] := Dict.entries_set_of_not_mem (by simp) value
    rw [Option.mem_def] at limited
    simp [keptWithin, limited, entrySizeBytes, Dict.sumBy, single] at kept
    omega

theorem exec_hset_whole {key fieldName value : String} (mirrors : Mirrors c r)
    (hashed : r.HashAt key) (whole : WritesWhole c r key fieldName value) :
    ∃ c', (InMemoryMiniRedisClient.hset key fieldName value).exec c = (.ok (), c') ∧
      Mirrors c' (putField key fieldName value r) := by
  have others : ∀ other, other ≠ key →
      (putField key fieldName value r).documents.get? other = r.documents.get? other :=
    fun other different => by rw [get?_putField, if_neg different]
  have own := get?_putField key fieldName value key r
  rw [if_pos rfl] at own
  cases purged : (purgeExpired c).entries.get? key with
  | none =>
    refine ⟨_, exec_hset_of_absent fieldName value purged, ?_⟩
    refine mirrors.of_beside (.rewritten key _ c) others (fun entry found => ?_)
    rw [own, whole_of_absent whole purged found]
  | some cached =>
    have stored := purged
    rw [get?_purgeExpired] at stored
    have document := mirrors key cached (Option.eq_some_of_filter_eq_some stored)
    obtain ⟨fields, payload⟩ := hashed _ document
    have held : hashAt key r = some fields := by
      simp [InMemoryMongoRepository.hashAt, document, payload]
    refine ⟨_, exec_hset_of_hash fieldName value purged payload, ?_⟩
    refine mirrors.of_beside (.rewritten key _ c) others (fun entry found => ?_)
    rw [get?_written, Option.filter_eq_some_iff] at found
    cases Option.some.inj found.1
    rw [own, held]
    rfl

theorem answers_hset (mirrors : Mirrors c r) (hashed : r.HashAt request.key)
    (readable : redisTtlForRequest defaultTtl request.ttlEnabled request.ttlSeconds = .ok ttlSeconds)
    (whole : WritesWhole c r request.key (request.field.getD "") (request.value.getD "")) :
    ∃ c', Mirrors c' (putField request.key (request.field.getD "") (request.value.getD "") r) ∧
      Answers (executeHset defaultTtl request) ⟨c, r⟩ setAnswer
        ⟨c', putField request.key (request.field.getD "") (request.value.getD "") r⟩ := by
  obtain ⟨state, write⟩ := exec_hset (request.field.getD "") (request.value.getD "") hashed
  obtain ⟨c₁, cached, mirrors₁⟩ := exec_hset_whole mirrors hashed whole
  obtain ⟨c₂, expired, mirrors₂⟩ := moves_expireKey request.key ttlSeconds mirrors₁
  refine ⟨c₂, mirrors₂, ?_⟩
  refine (moves_mongo write).answers ?_
  refine Moves.answers (Effect.runs_lift _ readable) ?_
  refine (moves_redis cached).answers ?_
  refine (moves_extendPath _ _).answers ?_
  refine (moves_extendChanges _ _).answers ?_
  refine expired.answers ?_
  refine (moves_preview _ _).answers ?_
  exact answers_answer _ _

/-! ### Reads -/

theorem moves_refill {fields : Dict String String} (mirrors : Mirrors c r)
    (absent : c.entries.get? request.key = none)
    (document : r.documents.get? request.key = some (.hash fields))
    (readable : redisTtlForRequest defaultTtl request.ttlEnabled request.ttlSeconds = .ok ttlSeconds)
    (whole : WholeOrNothing c.maxMemoryBytes request.key fields) :
    ∃ c', Moves (refill defaultTtl request fields) ⟨c, r⟩ () ⟨c', r⟩ ∧ Mirrors c' r := by
  obtain ⟨c', filled, complete, shrinks⟩ := exec_fillHash ttlSeconds absent whole
  refine ⟨c', ?_, mirrors.of_beside shrinks (fun _ _ => rfl) (fun entry found => ?_)⟩
  · refine Moves.bind (Effect.runs_lift _ readable) ?_
    refine (moves_redis filled).bind ?_
    refine (moves_extendPath _ _).bind ?_
    cases ttlSeconds with
    | none => exact Effect.runs_pure _ _
    | some seconds =>
      refine (moves_extendPath _ _).bind ?_
      exact moves_extendChanges _ _
  · rw [document, complete entry found]

theorem exec_readHash_mirrored {α : Type} (select : Dict String String → Option α) {key : String}
    (mirrors : Mirrors c r) (hashed : r.HashAt key) :
    ∃ c', Mirrors c' r ∧ c'.maxMemoryBytes = c.maxMemoryBytes ∧
      ((c'.entries.get? key = none ∧ (readHash select key).exec c = (.ok none, c')) ∨
        ∃ fields, hashAt key r = some fields ∧
          (readHash select key).exec c = (.ok (select fields), c')) := by
  rcases exec_readHash select (mirrors.hashAt hashed) with
    ⟨c', read, erased, limit⟩ | ⟨c', entry, fields, read, found, payload, same, limit⟩
  · refine ⟨c', mirrors.of_erase erased (fun _ _ => rfl), limit, Or.inl ⟨?_, read⟩⟩
    rw [erased, Dict.get?_erase_self]
  · have held : hashAt key r = some fields := by
      simp [InMemoryMongoRepository.hashAt, mirrors key entry found, payload]
    exact ⟨c', mirrors.of_eq same, limit, Or.inr ⟨fields, held, read⟩⟩

theorem answers_missHget (mirrors : Mirrors c r) (hashed : r.HashAt request.key)
    (absent : c.entries.get? request.key = none)
    (readable : redisTtlForRequest defaultTtl request.ttlEnabled request.ttlSeconds = .ok ttlSeconds)
    (whole : ∀ fields ∈ hashAt request.key r,
      WholeOrNothing c.maxMemoryBytes request.key fields) :
    ∃ c', Mirrors c' r ∧ Answers (missHget defaultTtl request) ⟨c, r⟩
      (getAnswer ((hashAt request.key r).bind (·.get? (request.field.getD "")))) ⟨c', r⟩ := by
  cases held : hashAt request.key r with
  | none =>
    refine ⟨c, mirrors, ?_⟩
    refine (moves_cacheMiss _).answers ?_
    refine (moves_countRead _).answers ?_
    refine (moves_mongo (held ▸ exec_hgetall hashed)).answers ?_
    refine (moves_extendChanges _ _).answers ?_
    exact answers_answer _ _
  | some fields =>
    have document := hashed.get?_eq
    rw [held, Option.map_some] at document
    obtain ⟨c', filled, mirrors'⟩ := moves_refill mirrors absent document readable
      (whole fields held)
    refine ⟨c', mirrors', ?_⟩
    refine (moves_cacheMiss _).answers ?_
    refine (moves_countRead _).answers ?_
    refine (moves_mongo (held ▸ exec_hgetall hashed)).answers ?_
    refine (moves_preview _ _).answers ?_
    refine filled.answers ?_
    refine (moves_extendChanges _ _).answers ?_
    exact answers_answer _ _

theorem answers_hget (mirrors : Mirrors c r) (hashed : r.HashAt request.key)
    (readable : redisTtlForRequest defaultTtl request.ttlEnabled request.ttlSeconds = .ok ttlSeconds)
    (whole : ∀ fields ∈ hashAt request.key r,
      WholeOrNothing c.maxMemoryBytes request.key fields) :
    ∃ c', Mirrors c' r ∧ Answers (executeHget defaultTtl request) ⟨c, r⟩
      (getAnswer ((hashAt request.key r).bind (·.get? (request.field.getD "")))) ⟨c', r⟩ := by
  obtain ⟨c₁, mirrors₁, limit₁, ⟨absent, read₁⟩ | ⟨fields, held, read₁⟩⟩ :=
    exec_readHash_mirrored (·.get? (request.field.getD "")) mirrors hashed
  · obtain ⟨c₂, mirrors₂, missed⟩ := answers_missHget mirrors₁ hashed absent readable
      (limit₁ ▸ whole)
    refine ⟨c₂, mirrors₂, ?_⟩
    refine (moves_extendPath _ _).answers ?_
    refine (moves_redis read₁).answers ?_
    refine (moves_redis (exec_readHash_of_absent some absent)).answers ?_
    exact missed
  · cases selected : fields.get? (request.field.getD "") with
    | some value =>
      refine ⟨c₁, mirrors₁, ?_⟩
      rw [held, Option.bind_some, selected]
      refine (moves_extendPath _ _).answers ?_
      refine (moves_redis (selected ▸ read₁)).answers ?_
      refine (moves_cacheHit _).answers ?_
      refine (moves_preview _ _).answers ?_
      refine (moves_extendPath _ _).answers ?_
      refine (moves_extendChanges _ _).answers ?_
      exact answers_answer _ _
    | none =>
      -- The second lookup reads the clock again, so it may still miss.
      obtain ⟨c₂, mirrors₂, limit₂, ⟨absent, read₂⟩ | ⟨fields', held', read₂⟩⟩ :=
        exec_readHash_mirrored some mirrors₁ hashed
      · obtain ⟨c₃, mirrors₃, missed⟩ := answers_missHget mirrors₂ hashed absent readable
          (limit₂.trans limit₁ ▸ whole)
        refine ⟨c₃, mirrors₃, ?_⟩
        refine (moves_extendPath _ _).answers ?_
        refine (moves_redis (selected ▸ read₁)).answers ?_
        refine (moves_redis read₂).answers ?_
        exact missed
      · refine ⟨c₂, mirrors₂, ?_⟩
        rw [held, Option.bind_some, selected]
        refine (moves_extendPath _ _).answers ?_
        refine (moves_redis (selected ▸ read₁)).answers ?_
        refine (moves_redis read₂).answers ?_
        refine (moves_cacheHit _).answers ?_
        refine (moves_preview _ _).answers ?_
        refine (moves_extendPath _ _).answers ?_
        refine (moves_extendChanges _ _).answers ?_
        exact answers_answer _ _

theorem answers_hgetall (mirrors : Mirrors c r) (hashed : r.HashAt request.key)
    (readable : redisTtlForRequest defaultTtl request.ttlEnabled request.ttlSeconds = .ok ttlSeconds)
    (whole : ∀ fields ∈ hashAt request.key r,
      WholeOrNothing c.maxMemoryBytes request.key fields) :
    ∃ c', Mirrors c' r ∧ Answers (executeHgetall defaultTtl request) ⟨c, r⟩
      (getAnswer (serializeHash (hashAt request.key r))) ⟨c', r⟩ := by
  obtain ⟨c₁, mirrors₁, limit, ⟨absent, read⟩ | ⟨fields, held, read⟩⟩ :=
    exec_readHash_mirrored some mirrors hashed
  · cases held : hashAt request.key r with
    | none =>
      refine ⟨c₁, mirrors₁, ?_⟩
      refine (moves_extendPath _ _).answers ?_
      refine (moves_redis read).answers ?_
      refine (moves_cacheMiss _).answers ?_
      refine (moves_countRead _).answers ?_
      refine (moves_mongo (held ▸ exec_hgetall hashed)).answers ?_
      refine (moves_extendChanges _ _).answers ?_
      exact answers_answer _ _
    | some fields =>
      have document := hashed.get?_eq
      rw [held, Option.map_some] at document
      obtain ⟨c₂, filled, mirrors₂⟩ := moves_refill mirrors₁ absent document readable
        (limit ▸ whole fields held)
      refine ⟨c₂, mirrors₂, ?_⟩
      refine (moves_extendPath _ _).answers ?_
      refine (moves_redis read).answers ?_
      refine (moves_cacheMiss _).answers ?_
      refine (moves_countRead _).answers ?_
      refine (moves_mongo (held ▸ exec_hgetall hashed)).answers ?_
      refine filled.answers ?_
      refine (moves_preview _ _).answers ?_
      refine (moves_extendChanges _ _).answers ?_
      exact answers_answer _ _
  · refine ⟨c₁, mirrors₁, ?_⟩
    rw [held]
    refine (moves_extendPath _ _).answers ?_
    refine (moves_redis read).answers ?_
    refine (moves_cacheHit _).answers ?_
    refine (moves_preview _ _).answers ?_
    refine (moves_extendPath _ _).answers ?_
    refine (moves_extendChanges _ _).answers ?_
    exact answers_answer _ _

/-! ### Removal -/

theorem answers_del (mirrors : Mirrors c r) :
    ∃ c', Mirrors c' ⟨r.documents.erase request.key⟩ ∧
      Answers (executeDel request) ⟨c, r⟩ (deleteAnswer (r.documents.get? request.key ≠ none))
        ⟨c', ⟨r.documents.erase request.key⟩⟩ := by
  have others : ∀ other, other ≠ request.key →
      (r.documents.erase request.key).get? other = r.documents.get? other :=
    fun other different => by rw [Dict.get?_erase, if_neg different]
  have reply : ((InMemoryMiniRedisClient.delete request.key c).1 ||
      decide (r.documents.get? request.key ≠ none)) =
        decide (r.documents.get? request.key ≠ none) := by
    cases found : c.entries.get? request.key with
    | none => simp [InMemoryMiniRedisClient.delete, found]
    | some entry => simp [mirrors request.key entry found]
  refine ⟨(InMemoryMiniRedisClient.delete request.key c).2,
    mirrors.of_erase (delete_entries request.key c) others, ?_⟩
  rw [← reply]
  refine (moves_extendPath _ _).answers ?_
  refine (moves_redis (Effect.exec_modifyGet _ c)).answers ?_
  refine (moves_mongo (exec_delete request.key r)).answers ?_
  refine (moves_extendChanges _ _).answers ?_
  exact answers_answer _ _

end RedisDBLaneAdapter

/-! ### Runs of both lanes -/

/-- Requests executed one after the other: their results and the lane after them. -/
def serve {ρ : Type} (execute : ArenaRequest → ρ → LaneResult × ρ) :
    List ArenaRequest → ρ → List LaneResult × ρ
  | [], lane => ([], lane)
  | request :: rest, lane =>
    ((execute request lane).1 :: (serve execute rest (execute request lane).2).1,
      (serve execute rest (execute request lane).2).2)

/-- Both lanes store the same hashes and the cache mirrors them. -/
structure Coherent (a : InMemoryLane) (b : DBOnlyLaneAdapter) : Prop where
  repository : a.repository = b.repository
  hashed : ∀ key, a.repository.HashAt key
  mirrors : Mirrors a.redisClient a.repository

/-- The request leaves the cached lane without a part of a hash. -/
def KeepsWhole (request : ArenaRequest) (a : InMemoryLane) : Prop :=
  match request.command with
  | .hset =>
    RedisDBLaneAdapter.WritesWhole a.redisClient a.repository request.key
      (request.field.getD "") (request.value.getD "")
  | .hget | .hgetall =>
    ∀ fields ∈ a.repository.hashAt request.key,
      RedisDBLaneAdapter.WholeOrNothing a.redisClient.maxMemoryBytes request.key fields
  | .set | .get | .del => True

/-- Every request of the run keeps hashes whole in the state in which it finds the lane. -/
def RunKeepsWhole (defaultTtl : Except String PyFloat) :
    List ArenaRequest → InMemoryLane → Prop
  | [], _ => True
  | request :: rest, a =>
    KeepsWhole request a ∧ RunKeepsWhole defaultTtl rest (a.execute defaultTtl request).2

instance (request : ArenaRequest) (a : InMemoryLane) : Decidable (KeepsWhole request a) := by
  unfold KeepsWhole
  split <;> infer_instance

instance decidableRunKeepsWhole (defaultTtl : Except String PyFloat) :
    ∀ (requests : List ArenaRequest) (a : InMemoryLane),
      Decidable (RunKeepsWhole defaultTtl requests a)
  | [], _ => isTrue trivial
  | _ :: rest, _ =>
    have := decidableRunKeepsWhole defaultTtl rest
    inferInstanceAs (Decidable (_ ∧ _))

def hashCommands : List CommandName := [.hset, .hget, .hgetall, .del]

theorem InMemoryMongoRepository.hashAt_putField {r : InMemoryMongoRepository}
    (key fieldName value : String) (hashed : ∀ key, r.HashAt key) (other : String) :
    (r.putField key fieldName value).HashAt other := by
  intro document found
  rw [InMemoryMongoRepository.get?_putField] at found
  split at found
  · exact ⟨_, (Option.some.inj found).symm⟩
  · exact hashed other document found

theorem redisTtlForRequest_ok (defaultSeconds : PyFloat) (ttlEnabled : Bool)
    (ttlSeconds : Option PyFloat) :
    ∃ ttl, redisTtlForRequest (.ok defaultSeconds) ttlEnabled ttlSeconds = .ok ttl := by
  cases ttlEnabled with
  | false => exact ⟨none, rfl⟩
  | true => cases ttlSeconds <;> exact ⟨some _, rfl⟩

theorem execute_coherent {request : ArenaRequest} {a : InMemoryLane} {b : DBOnlyLaneAdapter}
    (defaultSeconds : PyFloat) (coherent : Coherent a b) (hash : request.command ∈ hashCommands)
    (whole : KeepsWhole request a) :
    SameAnswer (a.execute (.ok defaultSeconds) request).1 (b.execute request).1 ∧
      Coherent (a.execute (.ok defaultSeconds) request).2 (b.execute request).2 := by
  obtain ⟨c, r⟩ := a
  obtain ⟨r'⟩ := b
  obtain ⟨repository, hashed, mirrors⟩ := coherent
  cases (show r = r' from repository)
  obtain ⟨ttl, readable⟩ := redisTtlForRequest_ok defaultSeconds request.ttlEnabled
    request.ttlSeconds
  -- Whatever the command, both bodies give one answer over one repository.
  have paired : ∃ reply c' r', Mirrors c' r' ∧ (∀ key, r'.HashAt key) ∧
      Answers (RedisDBLaneAdapter.executeBody (.ok defaultSeconds) request) ⟨c, r⟩ reply ⟨c', r'⟩ ∧
      Answers (DBOnlyLaneAdapter.executeBody request) ⟨r⟩ reply ⟨r'⟩ := by
    cases command : request.command with
    | set | get => simp [hashCommands, command] at hash
    | hset =>
      simp only [KeepsWhole, command] at whole
      simp only [RedisDBLaneAdapter.executeBody, DBOnlyLaneAdapter.executeBody, command]
      obtain ⟨c', mirrors', answers⟩ :=
        RedisDBLaneAdapter.answers_hset mirrors (hashed _) readable whole
      exact ⟨_, c', _, mirrors', InMemoryMongoRepository.hashAt_putField _ _ _ hashed, answers,
        DBOnlyLaneAdapter.answers_hset (hashed _)⟩
    | hget =>
      simp only [KeepsWhole, command] at whole
      simp only [RedisDBLaneAdapter.executeBody, DBOnlyLaneAdapter.executeBody, command]
      obtain ⟨c', mirrors', answers⟩ :=
        RedisDBLaneAdapter.answers_hget mirrors (hashed _) readable whole
      exact ⟨_, c', r, mirrors', hashed, answers, DBOnlyLaneAdapter.answers_hget (hashed _)⟩
    | hgetall =>
      simp only [KeepsWhole, command] at whole
      simp only [RedisDBLaneAdapter.executeBody, DBOnlyLaneAdapter.executeBody, command]
      obtain ⟨c', mirrors', answers⟩ :=
        RedisDBLaneAdapter.answers_hgetall mirrors (hashed _) readable whole
      exact ⟨_, c', r, mirrors', hashed, answers, DBOnlyLaneAdapter.answers_hgetall (hashed _)⟩
    | del =>
      simp only [RedisDBLaneAdapter.executeBody, DBOnlyLaneAdapter.executeBody, command]
      obtain ⟨c', mirrors', answers⟩ := RedisDBLaneAdapter.answers_del mirrors
      refine ⟨_, c', _, mirrors', fun key document found => ?_, answers,
        DBOnlyLaneAdapter.answers_del⟩
      rw [Dict.get?_erase] at found
      split at found
      · cases found
      · exact hashed key document found
  obtain ⟨reply, c', r', mirrors', hashed', cached, uncached⟩ := paired
  obtain ⟨x, runA, statusA, textA, kindA⟩ :=
    cached.finish .redisDb "Redis + DB lane execution failed" request
  obtain ⟨y, runB, statusB, textB, kindB⟩ :=
    uncached.finish .dbOnly "DB only lane execution failed" request
  rw [RedisDBLaneAdapter.execute, DBOnlyLaneAdapter.execute, runA, runB]
  exact ⟨⟨statusA.trans statusB.symm, textA.trans textB.symm, kindA.trans kindB.symm⟩,
    ⟨rfl, hashed', mirrors'⟩⟩

/-- A whole run, from coherent lanes. -/
theorem serve_coherent {requests : List ArenaRequest} {a : InMemoryLane}
    {b : DBOnlyLaneAdapter} (defaultSeconds : PyFloat) (coherent : Coherent a b)
    (hash : ∀ request ∈ requests, request.command ∈ hashCommands)
    (whole : RunKeepsWhole (.ok defaultSeconds) requests a) :
    List.Forall₂ SameAnswer
        (serve (RedisDBLaneAdapter.execute (.ok defaultSeconds)) requests a).1
        (serve DBOnlyLaneAdapter.execute requests b).1 ∧
      Coherent (serve (RedisDBLaneAdapter.execute (.ok defaultSeconds)) requests a).2
        (serve DBOnlyLaneAdapter.execute requests b).2 := by
  induction requests generalizing a b with
  | nil => exact ⟨.nil, coherent⟩
  | cons request rest ih =>
    obtain ⟨same, next⟩ :=
      execute_coherent defaultSeconds coherent (hash request List.mem_cons_self) whole.1
    obtain ⟨sames, last⟩ := ih next (fun r member => hash r (List.mem_cons_of_mem _ member)) whole.2
    exact ⟨.cons same sames, last⟩

theorem RunKeepsWhole.take {defaultTtl : Except String PyFloat} {requests : List ArenaRequest}
    {a : InMemoryLane} (whole : RunKeepsWhole defaultTtl requests a) (n : ℕ) :
    RunKeepsWhole defaultTtl (requests.take n) a := by
  induction n generalizing requests a with
  | zero => exact trivial
  | succ n ih =>
    cases requests with
    | nil => exact trivial
    | cons request rest => exact ⟨whole.1, ih whole.2⟩

theorem coherent_init (clock : ℕ → ℚ) (maxMemoryBytes : Option ℕ+) :
    Coherent (.init clock maxMemoryBytes) .init :=
  ⟨rfl, (fun _ _ found => by cases found), (fun _ _ found => by cases found)⟩

/-- In every run of hash requests whose steps all keep hashes whole, both lanes answer every
request alike, and after every step each cached hash is the repository's. -/
theorem lanes_answer_alike (defaultSeconds : PyFloat) (clock : ℕ → ℚ) (maxMemoryBytes : Option ℕ+)
    (requests : List ArenaRequest) (hash : ∀ request ∈ requests, request.command ∈ hashCommands)
    (whole : RunKeepsWhole (.ok defaultSeconds) requests (.init clock maxMemoryBytes)) :
    List.Forall₂ SameAnswer
        (serve (RedisDBLaneAdapter.execute (.ok defaultSeconds)) requests
          (.init clock maxMemoryBytes)).1
        (serve DBOnlyLaneAdapter.execute requests .init).1 ∧
      ∀ n, Mirrors
        (serve (RedisDBLaneAdapter.execute (.ok defaultSeconds)) (requests.take n)
          (.init clock maxMemoryBytes)).2.redisClient
        (serve DBOnlyLaneAdapter.execute (requests.take n) .init).2.repository := by
  have start := coherent_init clock maxMemoryBytes
  refine ⟨(serve_coherent defaultSeconds start hash whole).1, fun n => ?_⟩
  have reached := (serve_coherent defaultSeconds start
    (fun request member => hash request (List.mem_of_mem_take member)) (whole.take n)).2
  rw [← reached.repository]
  exact reached.mirrors

/-- A hash of two fields that expires, is refilled by a read and is removed. -/
def expiringHash : List ArenaRequest :=
  [{ requestId := "1", command := .hset, key := "k", field := some "f", value := some "v" },
    { requestId := "2", command := .hset, key := "k", field := some "g", value := some "w"
      ttlEnabled := true, ttlSeconds := some (.finite false 1) },
    { requestId := "3", command := .hget, key := "k", field := some "f" },
    { requestId := "4", command := .hgetall, key := "k" },
    { requestId := "5", command := .del, key := "k" },
    { requestId := "6", command := .hget, key := "k", field := some "f" }]

theorem expiring_hash_answered_alike :
    RunKeepsWhole (.ok (.finite false 5)) expiringHash (.init (fun n => 10 * n) (some 64)) ∧
      List.Forall₂ SameAnswer
        (serve (RedisDBLaneAdapter.execute (.ok (.finite false 5))) expiringHash
          (.init (fun n => 10 * n) (some 64))).1
        (serve DBOnlyLaneAdapter.execute expiringHash .init).1 := by
  have whole : RunKeepsWhole (.ok (.finite false 5)) expiringHash
      (.init (fun n => 10 * n) (some 64)) := by decide +kernel
  exact ⟨whole, (lanes_answer_alike (.finite false 5) (fun n => 10 * n) (some 64) expiringHash
    (by decide) whole).1⟩

/-- A second field is written after the first one has expired from the cache. -/
def lateSecondField : List ArenaRequest :=
  [{ requestId := "1", command := .hset, key := "k", field := some "f1", value := some "v1"
     ttlEnabled := true, ttlSeconds := some (.finite false 1) },
    { requestId := "2", command := .hset, key := "k", field := some "f2", value := some "v2" },
    { requestId := "3", command := .hget, key := "k", field := some "f1" }]

theorem ten_times_monotone : Monotone (fun n : ℕ => (10 * n : ℚ)) := by
  intro m n le
  have cast : (m : ℚ) ≤ n := by exact_mod_cast le
  show (10 * m : ℚ) ≤ 10 * n
  linarith

/-- The cached lane then answers from a hash of the second field alone. -/
theorem not_alike_after_late_field :
    (∀ request ∈ lateSecondField, request.command ∈ hashCommands) ∧
      Monotone (fun n : ℕ => (10 * n : ℚ)) ∧
      ¬ List.Forall₂ SameAnswer
        (serve (RedisDBLaneAdapter.execute (.ok (.finite false 5))) lateSecondField
          (.init (fun n => 10 * n) none)).1
        (serve DBOnlyLaneAdapter.execute lateSecondField .init).1 := by
  exact ⟨by decide, ten_times_monotone, by decide +kernel⟩

end MiniRedis.Arena
