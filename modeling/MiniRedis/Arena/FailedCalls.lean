/- GID: MiniRedis/Arena/FailedCalls
   generality: I
   digest: Reads answer the repository as long as no failed write leaves another live value cached. -/

import MiniRedis.Arena.StringLanes

set_option autoImplicit false
set_option relaxedAutoImplicit false

namespace MiniRedis.Arena

open MiniRedis.Base MiniRedis.Python

/-! ### Clients whose calls may fail -/

/-- A client any call of which may raise without an effect. The stream tells of each next call
what it raises, if anything. -/
structure FaultyClient (σ : Type) where
  client : σ
  faults : ℕ → Option String

namespace FaultyClient

variable {σ α : Type}

/-- One call later, with the wrapped client left as `c`. -/
def advance (c : σ) (f : FaultyClient σ) : FaultyClient σ := ⟨c, fun n => f.faults (n + 1)⟩

def attempt (call : Effect σ String α) : Effect (FaultyClient σ) String α := do
  match ← modifyGet (fun f : FaultyClient σ => (f.faults 0, f.advance f.client)) with
  | some message => throw message
  | none => Effect.zoom (fun f => f.client) (fun c f => { f with client := c }) call

theorem exec_attempt (call : Effect σ String α) (f : FaultyClient σ) :
    (attempt call).exec f =
      match f.faults 0 with
      | some message => (.error message, f.advance f.client)
      | none => ((call.exec f.client).1, f.advance (call.exec f.client).2) := by
  rw [attempt, Effect.exec_bind, Effect.exec_modifyGet]
  cases f.faults 0 with
  | some message => rfl
  | none => exact Effect.exec_zoom _ _ call _

instance [MiniRedisClient σ] : MiniRedisClient (FaultyClient σ) where
  set key value := attempt (MiniRedisClient.set key value)
  get key := attempt (MiniRedisClient.get key)
  hset key fieldName value := attempt (MiniRedisClient.hset key fieldName value)
  hget key fieldName := attempt (MiniRedisClient.hget key fieldName)
  hgetall key := attempt (MiniRedisClient.hgetall key)
  delete key := attempt (MiniRedisClient.delete key)
  expire key ttlSeconds := attempt (MiniRedisClient.expire key ttlSeconds)
  ttl key := attempt (MiniRedisClient.ttl key)
  flushdb := attempt MiniRedisClient.flushdb
  dbsize := attempt MiniRedisClient.dbsize
  infoMemory := attempt MiniRedisClient.infoMemory
  configSetMaxmemory maxMemoryBytes := attempt (MiniRedisClient.configSetMaxmemory maxMemoryBytes)

end FaultyClient

abbrev FaultyLane := RedisDBLaneAdapter (FaultyClient InMemoryMiniRedisClient)

/-! ### Entries that a read may still find -/

theorem RedisEntry.expired_mono {entry : RedisEntry} {t t' : ℚ} (le : t ≤ t')
    (past : entry.expired t = true) : entry.expired t' = true := by
  unfold RedisEntry.expired at past ⊢
  cases deadline : entry.expiresAt with
  | none => simp [deadline] at past
  | some expiresAt =>
    rw [deadline] at past
    exact PyFloat.leRat_mono le past

/-- Every cached entry is past its deadline or holds the repository's string. -/
structure Fresh (c : InMemoryMiniRedisClient) (r : InMemoryMongoRepository) : Prop where
  clock : Monotone c.clock
  strings : ∀ key, r.StringAt key
  mirrors : ∀ key entry, c.entries.get? key = some entry →
    entry.expired (c.clock 0) = true ∨ r.documents.get? key = some entry.payload

/-- The entry under the key, expired or not, is the repository's. -/
def MirrorsAt (key : String) (c : InMemoryMiniRedisClient) (r : InMemoryMongoRepository) : Prop :=
  ∀ entry, c.entries.get? key = some entry → r.documents.get? key = some entry.payload

namespace Fresh

open InMemoryMiniRedisClient (ShrinksBeside Later)

variable {c c' : InMemoryMiniRedisClient} {r r' : InMemoryMongoRepository} {key value : String}

theorem clock_later (monotone : Monotone c.clock) (later : Later c c') :
    Monotone c'.clock ∧ c.clock 0 ≤ c'.clock 0 := by
  obtain ⟨k, clock⟩ := later
  rw [clock]
  exact ⟨fun m n le => monotone (Nat.add_le_add_right le k), monotone (Nat.zero_le _)⟩

theorem of_beside (monotone : Monotone c.clock) (shrinks : ShrinksBeside key c c')
    (strings : ∀ key, r'.StringAt key)
    (others : ∀ other, other ≠ key → ∀ entry, c.entries.get? other = some entry →
      entry.expired (c.clock 0) = true ∨ r'.documents.get? other = some entry.payload)
    (own : MirrorsAt key c' r') : Fresh c' r' := by
  obtain ⟨monotone', le⟩ := clock_later monotone shrinks.later
  refine ⟨monotone', strings, fun other entry found => ?_⟩
  by_cases same : other = key
  · subst same
    exact Or.inr (own entry found)
  · refine (others other same entry (shrinks.sub other same entry found)).imp_left ?_
    exact RedisEntry.expired_mono le

theorem others_store (fresh : Fresh c r) (key value : String) :
    ∀ other, other ≠ key → ∀ entry, c.entries.get? other = some entry →
      entry.expired (c.clock 0) = true ∨
        (r.store key (.string value)).documents.get? other = some entry.payload := by
  intro other different entry found
  rw [InMemoryMongoRepository.get?_store, if_neg different]
  exact fresh.mirrors other entry found

theorem store (fresh : Fresh c r) (safe : ∀ entry ∈ c.entries.get? key,
      entry.expired (c.clock 0) = true ∨ entry.payload = .string value) :
    Fresh c (r.store key (.string value)) := by
  refine ⟨fresh.clock, InMemoryMongoRepository.stringAt_store fresh.strings key value, ?_⟩
  intro other entry found
  by_cases same : other = key
  · subst same
    refine (safe entry found).imp_right (fun payload => ?_)
    rw [InMemoryMongoRepository.get?_store, if_pos rfl, payload]
  · exact fresh.others_store key value other same entry found

theorem set (monotone : Monotone c.clock) (strings : ∀ key, r.StringAt key)
    (others : ∀ other, other ≠ key → ∀ entry, c.entries.get? other = some entry →
      entry.expired (c.clock 0) = true ∨ r.documents.get? other = some entry.payload)
    (document : r.documents.get? key = some (.string value)) :
    Fresh (InMemoryMiniRedisClient.set key value c) r ∧
      MirrorsAt key (InMemoryMiniRedisClient.set key value c) r := by
  have own : MirrorsAt key (InMemoryMiniRedisClient.set key value c) r := by
    intro entry found
    rw [InMemoryMiniRedisClient.set, InMemoryMiniRedisClient.get?_written,
      Option.filter_eq_some_iff] at found
    cases Option.some.inj found.1
    exact document
  exact ⟨of_beside monotone (.rewritten key _ c) strings others own, own⟩

theorem expire (fresh : Fresh c r) (ttlSeconds : PyFloat) (own : MirrorsAt key c r) :
    Fresh (InMemoryMiniRedisClient.expire key ttlSeconds c).2 r := by
  refine of_beside fresh.clock (.expire key ttlSeconds c) fresh.strings
    (fun other _ => fresh.mirrors other) (fun entry found => ?_)
  have payload := InMemoryMiniRedisClient.payload_expire key ttlSeconds c
  rw [found, Option.map_some, eq_comm, Option.map_eq_some_iff] at payload
  obtain ⟨entry', found', same⟩ := payload
  rw [← same]
  exact own entry' found'

theorem of_erase (fresh : Fresh c r) (erased : c'.entries = c.entries.erase key)
    (later : Later c c') (strings : ∀ key, r'.StringAt key)
    (others : ∀ other, other ≠ key → r'.documents.get? other = r.documents.get? other) :
    Fresh c' r' := by
  obtain ⟨monotone, le⟩ := clock_later fresh.clock later
  refine ⟨monotone, strings, fun other entry found => ?_⟩
  rw [erased, Dict.get?_erase] at found
  split at found
  · cases found
  · rename_i different
    rw [others other different]
    exact (fresh.mirrors other entry found).imp_left (RedisEntry.expired_mono le)

theorem get (fresh : Fresh c r) (key : String) :
    ∃ c', Fresh c' r ∧ (
      (InMemoryMiniRedisClient.get key).exec c = (.ok none, c') ∨
      ∃ value, r.stringAt key = some value ∧
        (InMemoryMiniRedisClient.get key).exec c = (.ok (some value), c')) := by
  rcases InMemoryMiniRedisClient.liveEntry_cases key c with
    ⟨c', read, erased, -, later, -⟩ | ⟨c', entry, read, found, same, -, later, live⟩
  · refine ⟨c', fresh.of_erase erased later fresh.strings (fun _ _ => rfl), Or.inl ?_⟩
    simp [InMemoryMiniRedisClient.get, Effect.exec_bind, read]
  · have document : r.documents.get? key = some entry.payload :=
      (fresh.mirrors key entry found).resolve_left (by simp [live])
    obtain ⟨value, payload⟩ := fresh.strings key _ document
    obtain ⟨monotone, le⟩ := clock_later fresh.clock later
    refine ⟨InMemoryMiniRedisClient.touch key c', ⟨by simpa using monotone, fresh.strings, ?_⟩,
      Or.inr ⟨value, ?_, ?_⟩⟩
    · intro other entry' found'
      rw [InMemoryMiniRedisClient.touch_entries, same] at found'
      rw [InMemoryMiniRedisClient.touch_clock]
      exact (fresh.mirrors other entry' found').imp_left (RedisEntry.expired_mono le)
    · simp [InMemoryMongoRepository.stringAt, document, payload]
    · simp [InMemoryMiniRedisClient.get, Effect.exec_bind, read, payload, Except.map]

end Fresh

/-! ### The bodies of the requests -/

namespace RedisDBLaneAdapter

open InMemoryMongoRepository FaultyClient

variable {α : Type} {defaultSeconds : PyFloat} {request : ArenaRequest}
  {r r' : InMemoryMongoRepository}

/-- The repository is `r` and the assertion holds of the client. -/
def Holds (r : InMemoryMongoRepository) (P : FaultyClient InMemoryMiniRedisClient → Prop)
    (s : Execution FaultyLane) : Prop := s.lane.repository = r ∧ P s.lane.redisClient

theorem ends_redis {call : ClientM α} {P R : FaultyClient InMemoryMiniRedisClient → Prop}
    {Q : α → FaultyClient InMemoryMiniRedisClient → Prop}
    (fails : ∀ f, P f → f.faults 0 ≠ none → R (f.advance f.client))
    (returns : ∀ f, P f → ∃ a c', call.exec f.client = (.ok a, c') ∧ Q a (f.advance c')) :
    Effect.Ends (Holds r P) (redis (attempt call)) (fun a => Holds r (Q a)) (Holds r R) := by
  rintro s ⟨repository, start⟩
  rw [redis, Effect.exec_zoom, exec_attempt]
  cases fault : s.lane.redisClient.faults 0 with
  | some message =>
    exact Or.inr ⟨message, _, rfl, repository, fails _ start (by simp [fault])⟩
  | none =>
    obtain ⟨a, c', run, reached⟩ := returns _ start
    simp only [run]
    exact Or.inl ⟨a, _, rfl, repository, reached⟩

theorem ends_mongo {call : RepositoryM α} {a : α}
    {P : FaultyClient InMemoryMiniRedisClient → Prop} {R : Execution FaultyLane → Prop}
    (run : call.exec r = (.ok a, r')) :
    Effect.Ends (Holds r P) (mongo call) (fun a' s => a' = a ∧ Holds r' P s) R := by
  rintro s ⟨repository, start⟩
  rw [mongo, Effect.exec_zoom, repository, run]
  exact Or.inl ⟨a, _, rfl, rfl, rfl, start⟩

theorem ends_record {P : FaultyClient InMemoryMiniRedisClient → Prop}
    {R : Execution FaultyLane → Prop} {step : Execution FaultyLane → Execution FaultyLane}
    (kept : ∀ s, (step s).lane = s.lane) :
    Effect.Ends (Holds r P) (modify step : LaneM FaultyLane Unit) (fun _ => Holds r P) R := by
  refine Effect.ends_modify (fun s held => ?_)
  rw [Holds, kept]
  exact held

theorem ends_answer {P : FaultyClient InMemoryMiniRedisClient → Prop}
    {R : Execution FaultyLane → Prop} (reply : String × AnswerKind) :
    Effect.Ends (Holds r P) (answer reply)
      (fun _ s => Holds r P s ∧ s.answerText = some reply.1 ∧ s.answerKind = some reply.2) R :=
  Effect.ends_modify (fun _ held => ⟨held, rfl, rfl⟩)

/-- Everything that a read may find in the cache is the repository's. -/
def Sound (r : InMemoryMongoRepository) (f : FaultyClient InMemoryMiniRedisClient) : Prop :=
  Fresh f.client r

theorem ends_expireKey (key : String) (ttlSeconds : Option PyFloat) :
    Effect.Ends (Holds r (fun f => Sound r f ∧ MirrorsAt key f.client r))
      (expireKey key ttlSeconds) (fun _ => Holds r (Sound r)) (Holds r (Sound r)) := by
  cases ttlSeconds with
  | none => exact Effect.ends_pure () (fun s held => ⟨held.1, held.2.1⟩)
  | some seconds =>
    refine Effect.Ends.bind (M := fun _ => Holds r (Sound r)) ?_ (fun applied => ?_)
    · refine ends_redis (fun f held _ => held.1) (fun f held => ?_)
      exact ⟨_, _, rfl, held.1.expire seconds held.2⟩
    · refine Effect.Ends.bind (ends_record fun _ => rfl) (fun _ => ?_)
      exact ends_record fun _ => rfl

/-- A failing call of the cache leaves no live value but this one under the key. -/
def FailsSafely (key value : String) (f : FaultyClient InMemoryMiniRedisClient) : Prop :=
  f.faults 0 ≠ none → ∀ entry ∈ f.client.entries.get? key,
    entry.expired (f.client.clock 0) = true ∨ entry.payload = .string value

private theorem ends_set {key value : String} :
    Effect.Ends
      (Holds (store key (.string value) r) (fun f => Sound r f ∧ FailsSafely key value f))
      (redis (MiniRedisClient.set key value))
      (fun _ => Holds (store key (.string value) r) (fun f =>
        Sound (store key (.string value) r) f ∧
          MirrorsAt key f.client (store key (.string value) r)))
      (Holds (store key (.string value) r) (Sound (store key (.string value) r))) := by
  refine ends_redis (fun f held failed => held.1.store (held.2 failed)) (fun f held => ?_)
  obtain ⟨sound, own⟩ := Fresh.set held.1.clock (stringAt_store held.1.strings key value)
    (held.1.others_store key value) (by rw [get?_store, if_pos rfl])
  exact ⟨_, _, rfl, sound, own⟩

theorem ends_executeSet :
    let written := store request.key (.string (request.value.getD "")) r
    Effect.Ends
      (Holds r (fun f => Sound r f ∧ FailsSafely request.key (request.value.getD "") f))
      (executeSet (.ok defaultSeconds) request) (fun _ => Holds written (Sound written))
      (Holds written (Sound written)) := by
  intro written
  obtain ⟨ttl, readable⟩ := redisTtlForRequest_ok defaultSeconds request.ttlEnabled
    request.ttlSeconds
  refine Effect.Ends.bind (ends_mongo (Effect.exec_modifyGet (write _ _) r)) ?_
  refine fun writeState => Effect.Ends.of_fact (fun s held => held) (fun _ => ?_)
  refine Effect.Ends.bind (Effect.ends_lift readable) (fun ttlSeconds => ?_)
  refine Effect.Ends.bind ends_set (fun _ => ?_)
  refine Effect.Ends.bind (ends_record fun _ => rfl) (fun _ => ?_)
  refine Effect.Ends.bind (ends_record fun _ => rfl) (fun _ => ?_)
  refine Effect.Ends.bind (ends_expireKey request.key ttlSeconds) (fun _ => ?_)
  refine Effect.Ends.bind (ends_record fun _ => rfl) (fun _ => ?_)
  exact ends_record fun _ => rfl

theorem ends_executeGet (strings : r.StringAt request.key) :
    Effect.Ends (Holds r (Sound r)) (executeGet (.ok defaultSeconds) request)
      (fun _ s => Holds r (Sound r) s ∧
        s.answerText = some (getAnswer (stringAt request.key r)).1 ∧
        s.answerKind = some (getAnswer (stringAt request.key r)).2)
      (Holds r (Sound r)) := by
  obtain ⟨ttl, readable⟩ := redisTtlForRequest_ok defaultSeconds request.ttlEnabled
    request.ttlSeconds
  refine Effect.Ends.bind (ends_record fun _ => rfl) (fun _ => ?_)
  have read : Effect.Ends (Holds r (Sound r)) (redis (MiniRedisClient.get request.key))
      (fun cached => Holds r (fun f => (cached = none ∨ stringAt request.key r = cached) ∧ Sound r f))
      (Holds r (Sound r)) := by
    refine ends_redis (fun f sound _ => sound) (fun f sound => ?_)
    obtain ⟨c', fresh, read | ⟨value, held, read⟩⟩ := sound.get request.key
    · exact ⟨none, c', read, Or.inl rfl, fresh⟩
    · exact ⟨some value, c', read, Or.inr held, fresh⟩
  refine Effect.Ends.bind read (fun cached => Effect.Ends.of_fact
    (fun s held => ⟨held.2.1, (⟨held.1, held.2.2⟩ : Holds r (Sound r) s)⟩) (fun found => ?_))
  cases cached with
  | some value =>
    have held := found.resolve_left (by simp)
    rw [held]
    refine Effect.Ends.bind (ends_record fun _ => rfl) (fun _ => ?_)
    refine Effect.Ends.bind (ends_record fun _ => rfl) (fun _ => ?_)
    refine Effect.Ends.bind (ends_record fun _ => rfl) (fun _ => ?_)
    refine Effect.Ends.bind (ends_record fun _ => rfl) (fun _ => ?_)
    exact ends_answer _
  | none =>
    refine Effect.Ends.bind (ends_record fun _ => rfl) (fun _ => ?_)
    refine Effect.Ends.bind (ends_record fun _ => rfl) (fun _ => ?_)
    refine Effect.Ends.bind (ends_mongo (exec_read strings)) (fun mongoValue => ?_)
    refine Effect.Ends.of_fact (fun s held => held) (fun stored => ?_)
    subst stored
    cases stored : stringAt request.key r with
    | none =>
      refine Effect.Ends.bind (ends_record fun _ => rfl) (fun _ => ?_)
      exact ends_answer _
    | some value =>
      have document := strings.get?_eq
      rw [stored, Option.map_some] at document
      refine Effect.Ends.bind (ends_record fun _ => rfl) (fun _ => ?_)
      refine Effect.Ends.bind (Effect.ends_lift readable) (fun ttlSeconds => ?_)
      refine Effect.Ends.bind (M := fun _ => Holds r (fun f => Sound r f ∧
        MirrorsAt request.key f.client r)) ?_ (fun _ => ?_)
      · refine ends_redis (fun f sound _ => sound) (fun f sound => ?_)
        obtain ⟨fresh, own⟩ := Fresh.set sound.clock sound.strings
          (fun other _ => sound.mirrors other) document
        exact ⟨_, _, rfl, fresh, own⟩
      refine Effect.Ends.bind (ends_record fun _ => rfl) (fun _ => ?_)
      refine Effect.Ends.bind (ends_record fun _ => rfl) (fun _ => ?_)
      refine Effect.Ends.bind (ends_expireKey request.key ttlSeconds) (fun _ => ?_)
      exact ends_answer _

theorem ends_executeDel :
    Effect.Ends (Holds r (Sound r)) (executeDel request)
      (fun _ => Holds ⟨r.documents.erase request.key⟩ (Sound ⟨r.documents.erase request.key⟩))
      (Holds r (Sound r)) := by
  have others : ∀ other, other ≠ request.key →
      (r.documents.erase request.key).get? other = r.documents.get? other :=
    fun other different => by rw [Dict.get?_erase, if_neg different]
  refine Effect.Ends.bind (ends_record fun _ => rfl) (fun _ => ?_)
  refine Effect.Ends.bind
    (M := fun _ => Holds r (Sound ⟨r.documents.erase request.key⟩)) ?_ (fun redisDeleted => ?_)
  · refine ends_redis (fun f sound _ => sound) (fun f sound => ⟨_, _, rfl, ?_⟩)
    exact Fresh.of_erase sound (InMemoryMiniRedisClient.delete_entries request.key f.client)
      (.of_eq (InMemoryMiniRedisClient.delete_clock request.key f.client))
      (stringAt_erase sound.strings request.key) others
  · refine Effect.Ends.bind (ends_mongo (exec_delete request.key r)) ?_
    refine fun mongoDeleted => Effect.Ends.of_fact (fun s held => held) (fun _ => ?_)
    refine Effect.Ends.bind (ends_record fun _ => rfl) (fun _ => ?_)
    exact ends_record fun _ => rfl

end RedisDBLaneAdapter

/-! ### Runs with failing calls -/

theorem finish_of_ends {ρ : Type} {body : LaneM ρ Unit} {P R : Execution ρ → Prop}
    {Q : Unit → Execution ρ → Prop} (ends : Effect.Ends P body Q R) (start : ρ)
    (initial : P { lane := start }) (lane : LaneName) (failure : String) (request : ArenaRequest) :
    (∃ s, Q () s ∧ (finish lane failure request body start).2 = s.lane ∧
      (finish lane failure request body start).1.answerText = s.answerText ∧
      (finish lane failure request body start).1.answerKind = s.answerKind) ∨
    (∃ s, R s ∧ (finish lane failure request body start).2 = s.lane ∧
      (finish lane failure request body start).1.status = .error) := by
  rcases ends _ initial with ⟨⟨⟩, s, run, reached⟩ | ⟨message, s, run, reached⟩
  · refine Or.inl ⟨s, reached, ?_⟩
    rw [finish, run]
    exact ⟨rfl, rfl, rfl⟩
  · refine Or.inr ⟨s, reached, ?_⟩
    rw [finish, run]
    exact ⟨rfl, rfl⟩

/-- Every request meets the condition in the state in which it finds the lane. -/
def Throughout {ρ : Type} (execute : ArenaRequest → ρ → LaneResult × ρ)
    (condition : ArenaRequest → ρ → Prop) : List ArenaRequest → ρ → Prop
  | [], _ => True
  | request :: rest, lane =>
    condition request lane ∧ Throughout execute condition rest (execute request lane).2

/-- A `GET` that reports success answers what the lane's own repository holds. -/
def AnswersStored (defaultTtl : Except String PyFloat) (request : ArenaRequest) (a : FaultyLane) :
    Prop :=
  request.command = .get → (a.execute defaultTtl request).1.status = .ok →
    (a.execute defaultTtl request).1.answerText =
        some (getAnswer (a.repository.stringAt request.key)).1 ∧
      (a.execute defaultTtl request).1.answerKind =
        some (getAnswer (a.repository.stringAt request.key)).2

/-- A `SET` whose write to the cache fails finds no live entry with another value there. -/
def SetFailsSafely (request : ArenaRequest) (a : FaultyLane) : Prop :=
  request.command = .set →
    RedisDBLaneAdapter.FailsSafely request.key (request.value.getD "") a.redisClient

namespace RedisDBLaneAdapter

/-- The lane is left sound, over whichever repository. -/
def LeftSound (s : Execution FaultyLane) : Prop := Sound s.lane.repository s.lane.redisClient

theorem Holds.leftSound {r : InMemoryMongoRepository} {s : Execution FaultyLane}
    (held : Holds r (Sound r) s) : LeftSound s := by
  rw [LeftSound, held.1]
  exact held.2

theorem ends_executeBody {request : ArenaRequest} {r : InMemoryMongoRepository}
    (defaultSeconds : PyFloat) (strings : r.StringAt request.key)
    (string : request.command ∈ stringCommands) :
    Effect.Ends
      (Holds r (fun f => Sound r f ∧
        (request.command = .set → FailsSafely request.key (request.value.getD "") f)))
      (executeBody (.ok defaultSeconds) request)
      (fun _ s => LeftSound s ∧ (request.command = .get →
        s.answerText = some (getAnswer (r.stringAt request.key)).1 ∧
        s.answerKind = some (getAnswer (r.stringAt request.key)).2))
      LeftSound := by
  unfold executeBody
  cases command : request.command with
  | hset | hget | hgetall => simp [stringCommands, command] at string
  | set =>
    exact ends_executeSet.mono (fun s held => ⟨held.1, held.2.1, held.2.2 rfl⟩)
      (fun _ s held => ⟨held.leftSound, by simp⟩) (fun s held => held.leftSound)
  | get =>
    exact (ends_executeGet strings).mono (fun s held => ⟨held.1, held.2.1⟩)
      (fun _ s held => ⟨held.1.leftSound, fun _ => held.2⟩) (fun s held => held.leftSound)
  | del =>
    exact ends_executeDel.mono (fun s held => ⟨held.1, held.2.1⟩)
      (fun _ s held => ⟨held.leftSound, by simp⟩) (fun s held => held.leftSound)

end RedisDBLaneAdapter

/-- One request, from a sound lane. -/
theorem execute_sound {request : ArenaRequest} {a : FaultyLane} (defaultSeconds : PyFloat)
    (sound : RedisDBLaneAdapter.Sound a.repository a.redisClient)
    (string : request.command ∈ stringCommands) (safe : SetFailsSafely request a) :
    AnswersStored (.ok defaultSeconds) request a ∧
      RedisDBLaneAdapter.Sound (a.execute (.ok defaultSeconds) request).2.repository
        (a.execute (.ok defaultSeconds) request).2.redisClient := by
  rw [AnswersStored, RedisDBLaneAdapter.execute]
  rcases finish_of_ends (RedisDBLaneAdapter.ends_executeBody defaultSeconds
      (sound.strings request.key) string) a ⟨rfl, sound, safe⟩ .redisDb
      "Redis + DB lane execution failed" request with
    ⟨s, ⟨left, stored⟩, reached, text, kind⟩ | ⟨s, left, reached, failed⟩
  · rw [reached, text, kind]
    exact ⟨fun get _ => stored get, left⟩
  · rw [reached, failed]
    exact ⟨(fun _ succeeded => by cases succeeded), left⟩

/-- A whole run, from a sound lane. -/
theorem serve_sound {requests : List ArenaRequest} {a : FaultyLane} (defaultSeconds : PyFloat)
    (sound : RedisDBLaneAdapter.Sound a.repository a.redisClient)
    (strings : ∀ request ∈ requests, request.command ∈ stringCommands)
    (safe : Throughout (RedisDBLaneAdapter.execute (.ok defaultSeconds)) SetFailsSafely requests a) :
    Throughout (RedisDBLaneAdapter.execute (.ok defaultSeconds)) (AnswersStored (.ok defaultSeconds))
      requests a := by
  induction requests generalizing a with
  | nil => exact trivial
  | cons request rest ih =>
    obtain ⟨stored, next⟩ :=
      execute_sound defaultSeconds sound (strings request List.mem_cons_self) safe.1
    exact ⟨stored, ih next (fun later member => strings later (List.mem_cons_of_mem _ member)) safe.2⟩

/-- An empty lane whose client calls fail as the stream says. -/
def FaultyLane.init (clock : ℕ → ℚ) (maxMemoryBytes : Option ℕ+) (faults : ℕ → Option String) :
    FaultyLane := ⟨⟨.init clock maxMemoryBytes, faults⟩, .init⟩

/-- In every run of string requests whose failing writes to the cache all meet no other live
value there, every `GET` that reports success answers the repository's value. -/
theorem reads_answer_stored (defaultSeconds : PyFloat) (clock : ℕ → ℚ) (maxMemoryBytes : Option ℕ+)
    (faults : ℕ → Option String) (requests : List ArenaRequest) (forward : Monotone clock)
    (strings : ∀ request ∈ requests, request.command ∈ stringCommands)
    (safe : Throughout (RedisDBLaneAdapter.execute (.ok defaultSeconds)) SetFailsSafely requests
      (FaultyLane.init clock maxMemoryBytes faults)) :
    Throughout (RedisDBLaneAdapter.execute (.ok defaultSeconds)) (AnswersStored (.ok defaultSeconds))
      requests (FaultyLane.init clock maxMemoryBytes faults) :=
  serve_sound defaultSeconds ⟨forward, (fun _ _ found => by cases found),
    (fun _ _ found => by cases found)⟩ strings safe

instance (request : ArenaRequest) (a : FaultyLane) : Decidable (SetFailsSafely request a) := by
  unfold SetFailsSafely RedisDBLaneAdapter.FailsSafely
  infer_instance

instance (defaultTtl : Except String PyFloat) (request : ArenaRequest) (a : FaultyLane) :
    Decidable (AnswersStored defaultTtl request a) := by
  unfold AnswersStored
  infer_instance

instance decidableThroughout {ρ : Type} (execute : ArenaRequest → ρ → LaneResult × ρ)
    (condition : ArenaRequest → ρ → Prop) [∀ request lane, Decidable (condition request lane)] :
    ∀ (requests : List ArenaRequest) (lane : ρ), Decidable (Throughout execute condition requests lane)
  | [], _ => isTrue trivial
  | _ :: rest, _ =>
    have := decidableThroughout execute condition rest
    inferInstanceAs (Decidable (_ ∧ _))

/-- Two writes of one key and a read of it. -/
def rewrittenKey : List ArenaRequest :=
  [{ requestId := "1", command := .set, key := "k", value := some "old", ttlEnabled := true
     ttlSeconds := some (.finite false 1) },
    { requestId := "2", command := .set, key := "k", value := some "new" },
    { requestId := "3", command := .get, key := "k" }]

/-- Of the calls of a run, the one with this number times out. -/
def timesOut (number : ℕ) (n : ℕ) : Option String :=
  if n = number then some "Timeout reading from socket" else none

/-- The first value has expired when the write of the second one fails. -/
theorem expired_value_not_answered :
    Throughout (RedisDBLaneAdapter.execute (.ok (.finite false 5))) SetFailsSafely rewrittenKey
        (FaultyLane.init (fun n => 10 * n) none (timesOut 2)) ∧
      Throughout (RedisDBLaneAdapter.execute (.ok (.finite false 5)))
        (AnswersStored (.ok (.finite false 5))) rewrittenKey
        (FaultyLane.init (fun n => 10 * n) none (timesOut 2)) := by
  have safe : Throughout (RedisDBLaneAdapter.execute (.ok (.finite false 5))) SetFailsSafely
      rewrittenKey (FaultyLane.init (fun n => 10 * n) none (timesOut 2)) := by decide +kernel
  exact ⟨safe, reads_answer_stored (.finite false 5) (fun n => 10 * n) none (timesOut 2) rewrittenKey
    ten_times_monotone (by decide) safe⟩

/-- Before that it is live, and the read answers it in place of the second one. -/
theorem old_value_answered :
    (∀ request ∈ rewrittenKey, request.command ∈ stringCommands) ∧ Monotone (fun _ : ℕ => (0 : ℚ)) ∧
      ¬ Throughout (RedisDBLaneAdapter.execute (.ok (.finite false 5)))
        (AnswersStored (.ok (.finite false 5))) rewrittenKey
        (FaultyLane.init (fun _ => 0) none (timesOut 2)) :=
  ⟨by decide, monotone_const, by decide +kernel⟩

end MiniRedis.Arena
