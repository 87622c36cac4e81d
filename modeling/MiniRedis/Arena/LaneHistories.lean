/- GID: MiniRedis/Arena/LaneHistories
   generality: I
   digest: Lanes that take the changes of each key in one order hold the same documents. -/

import MiniRedis.Arena.GatewayRuns
import MiniRedis.Arena.StringLanes
import MiniRedis.Base.History

set_option autoImplicit false
set_option relaxedAutoImplicit false

namespace MiniRedis.Arena

open MiniRedis.Base MiniRedis.Python

/-! ### What a post makes of a document -/

/-- The document under the key after the post, by the document before it. -/
def Post.document (key : String) (document : Option Payload) : Post → Option Payload
  | .execute request =>
    if request.key = key then
      match request.command with
      | .set => some (.string (request.value.getD ""))
      | .hset =>
        match document with
        | none => some (.hash (Dict.empty.set (request.field.getD "") (request.value.getD "")))
        | some (.hash fields) =>
          some (.hash (fields.set (request.field.getD "") (request.value.getD "")))
        | some (.string text) => some (.string text)
      | .del => none
      | .get | .hget | .hgetall => document
    else document
  | .fullReset => none
  | .seed seedInput =>
    match seedInput.documents.get? key with
    | some text => some (.string text)
    | none => document
  | .configureMemory _ _ => document

def CommandName.changes : CommandName → Bool
  | .set | .hset | .del => true
  | .get | .hget | .hgetall => false

/-- The post can change the document under the key. -/
def Post.changes (key : String) : Post → Bool
  | .execute request => request.key = key && request.command.changes
  | .fullReset => true
  | .seed seedInput => (seedInput.documents.get? key).isSome
  | .configureMemory _ _ => false

theorem Post.document_of_unchanged {key : String} {post : Post} (document : Option Payload)
    (unchanged : post.changes key = false) : post.document key document = document := by
  cases post with
  | execute request =>
    simp only [Post.document]
    by_cases own : request.key = key
    · have reads : request.command.changes = false := by simpa [Post.changes, own] using unchanged
      cases named : request.command <;> rw [named] at reads <;>
        first | exact if_pos own | cases reads
    · exact if_neg own
  | fullReset => cases unchanged
  | seed seedInput =>
    have unseeded : seedInput.documents.get? key = none := by simpa [Post.changes] using unchanged
    simp [Post.document, unseeded]
  | configureMemory profileKey maxMemoryBytes => rfl

theorem Post.document_of_validatePayload {request valid : ArenaRequest}
    (accepted : request.validatePayload = some valid) (key : String) (document : Option Payload) :
    (Post.execute request).document key document = (Post.execute valid).document key document := by
  unfold ArenaRequest.validatePayload at accepted
  split at accepted
  · cases accepted
  · split at accepted
    · cases accepted
    · split at accepted
      · cases accepted
      · cases accepted
        cases named : request.command <;>
          simp [Post.document, named, CommandName.requiresField, CommandName.requiresValue]

namespace InMemoryMongoRepository

/-- What an execution leaves of the repository. -/
def executed (request : ArenaRequest) (r : InMemoryMongoRepository) : InMemoryMongoRepository :=
  match request.command with
  | .set => (write request.key (request.value.getD "") r).2
  | .hset => ((hset request.key (request.field.getD "") (request.value.getD "")).exec r).2
  | .del => (delete request.key r).2
  | .get | .hget | .hgetall => r

theorem get?_hset (key fieldName value : String) (r : InMemoryMongoRepository) (other : String) :
    (((hset key fieldName value).exec r).2).documents.get? other =
      if key = other then
        match r.documents.get? other with
        | none => some (.hash (Dict.empty.set fieldName value))
        | some (.hash fields) => some (.hash (fields.set fieldName value))
        | some (.string text) => some (.string text)
      else r.documents.get? other := by
  by_cases same : key = other
  · subst same
    cases found : r.documents.get? key with
    | none => simp [hset, Effect.exec_bind, found, store]
    | some document =>
      cases document with
      | string text => simp [hset, Effect.exec_bind, found]
      | hash fields => simp [hset, Effect.exec_bind, found, store]
  · have apart : other ≠ key := fun equal => same equal.symm
    cases found : r.documents.get? key with
    | none => simp [hset, Effect.exec_bind, found, store, Dict.get?_set, same, apart]
    | some document =>
      cases document with
      | string text => simp [hset, Effect.exec_bind, found, same]
      | hash fields => simp [hset, Effect.exec_bind, found, store, Dict.get?_set, same, apart]

theorem get?_executed (request : ArenaRequest) (r : InMemoryMongoRepository) (key : String) :
    (executed request r).documents.get? key =
      (Post.execute request).document key (r.documents.get? key) := by
  unfold executed
  cases named : request.command with
  | set =>
    by_cases own : request.key = key
    · simp [Post.document, named, write, store, own]
    · have apart : key ≠ request.key := fun equal => own equal.symm
      simp [Post.document, write, store, Dict.get?_set, own, apart]
  | hset => simp only [Post.document, named, get?_hset]
  | del =>
    by_cases own : request.key = key
    · simp [Post.document, named, delete_documents, own]
    · have apart : key ≠ request.key := fun equal => own equal.symm
      simp [Post.document, delete_documents, Dict.get?_erase, own, apart]
  | get | hget | hgetall => simp [Post.document, named]

variable (key fieldName : String) (r : InMemoryMongoRepository)

theorem read_keeps : ((read key).exec r).2 = r := by
  rw [read, Effect.exec_bind, Effect.exec_get]
  rcases found : r.documents.get? key with _ | _ | _ <;> simp [found]

theorem hget_keeps : ((hget key fieldName).exec r).2 = r := by
  rw [hget, Effect.exec_bind, Effect.exec_get]
  rcases found : r.documents.get? key with _ | _ | _ <;> simp [found]

theorem hgetall_keeps : ((hgetall key).exec r).2 = r := by
  rw [hgetall, Effect.exec_bind, Effect.exec_get]
  rcases found : r.documents.get? key with _ | _ | _ <;> simp [found]

end InMemoryMongoRepository

/-! ### The repository along an execution -/

section Finish

variable {ρ : Type} (lane : LaneName) (failure : String) (request : ArenaRequest)
  (body : LaneM ρ Unit) (start : ρ)

theorem finish_lane :
    (finish lane failure request body start).2 = (body.exec { lane := start }).2.lane := by
  unfold finish
  rcases body.exec { lane := start } with ⟨_ | _, s⟩ <;> rfl

theorem finish_ok (succeeded : (finish lane failure request body start).1.status = .ok) :
    ∃ s, body.exec { lane := start } = (.ok (), s) := by
  unfold finish at succeeded
  rcases run : body.exec { lane := start } with ⟨e | _, s⟩
  · rw [run] at succeeded
    cases succeeded
  · exact ⟨s, rfl⟩

end Finish

/-- The computation leaves the repository of its lane as it is. -/
def KeepsRepository {ρ α : Type} (view : ρ → InMemoryMongoRepository) (x : LaneM ρ α) : Prop :=
  ∀ r, Effect.Leaves (fun s => view s.lane = r) x (fun s => view s.lane = r)

namespace KeepsRepository

variable {ρ α β : Type} {view : ρ → InMemoryMongoRepository}

theorem pure (a : α) : KeepsRepository view (Pure.pure a) := fun _ => Effect.leaves_pure _ a

theorem lift (outcome : Except String α) : KeepsRepository view (liftM outcome) :=
  fun _ => Effect.leaves_lift _ outcome

theorem bind {x : LaneM ρ α} {f : α → LaneM ρ β} (first : KeepsRepository view x)
    (rest : ∀ a, KeepsRepository view (f a)) : KeepsRepository view (x >>= f) :=
  fun r => (first r).bind (fun _ kept => kept) (fun a => rest a r)

theorem note {f : Execution ρ → Execution ρ} (keeps : ∀ s, (f s).lane = s.lane) :
    KeepsRepository view (modify f) := by
  intro r
  refine Effect.leaves_modifyGet (fun s held => ?_)
  show view (f s).lane = r
  rw [keeps s]
  exact held

theorem after {x : LaneM ρ α} {f : α → LaneM ρ β} {start : Execution ρ}
    {r : InMemoryMongoRepository} (first : view (x.exec start).2.lane = r)
    (rest : ∀ a, KeepsRepository view (f a)) : view ((x >>= f).exec start).2.lane = r := by
  rw [Effect.exec_bind]
  rcases run : x.exec start with ⟨outcome, s⟩
  rw [run] at first
  cases outcome with
  | ok a => exact rest a r s first
  | error e => exact first

end KeepsRepository

/-! ### Lane B -/

namespace DBOnlyLaneAdapter

theorem mongo_keeps {α : Type} {call : RepositoryM α} (keeps : ∀ r, (call.exec r).2 = r) :
    KeepsRepository DBOnlyLaneAdapter.repository (mongo call) := by
  intro r s held
  show (call.exec s.lane.repository).2 = r
  rw [keeps]
  exact held

theorem execute_repository (request : ArenaRequest) (lane : DBOnlyLaneAdapter) :
    (execute request lane).2.repository = lane.repository.executed request := by
  have note : ∀ {f : Execution DBOnlyLaneAdapter → Execution DBOnlyLaneAdapter},
      (∀ s, (f s).lane = s.lane) → KeepsRepository DBOnlyLaneAdapter.repository (modify f) :=
    KeepsRepository.note
  rw [execute, finish_lane]
  unfold executeBody InMemoryMongoRepository.executed
  cases named : request.command with
  | set =>
    refine KeepsRepository.after rfl (fun _ => ?_)
    exact .bind (note fun _ => rfl) fun _ => .bind (note fun _ => rfl) fun _ =>
      .bind (note fun _ => rfl) fun _ => note fun _ => rfl
  | hset =>
    refine KeepsRepository.after rfl (fun _ => ?_)
    exact .bind (note fun _ => rfl) fun _ => .bind (note fun _ => rfl) fun _ =>
      .bind (note fun _ => rfl) fun _ => note fun _ => rfl
  | del =>
    show ((executeDel request).exec { lane := lane }).2.lane.repository = _
    rw [executeDel, Effect.exec_bind, extendPath, Effect.exec_modify]
    exact KeepsRepository.after rfl fun _ => .bind (note fun _ => rfl) fun _ => note fun _ => rfl
  | get =>
    have keeps : KeepsRepository DBOnlyLaneAdapter.repository (executeGet request) :=
      .bind (note fun _ => rfl) fun _ =>
        .bind (mongo_keeps (InMemoryMongoRepository.read_keeps _)) fun _ =>
          .bind (note fun _ => rfl) fun _ => .bind (note fun _ => rfl) fun _ => note fun _ => rfl
    exact keeps lane.repository { lane := lane } rfl
  | hget =>
    have keeps : KeepsRepository DBOnlyLaneAdapter.repository (executeHget request) :=
      .bind (note fun _ => rfl) fun _ =>
        .bind (mongo_keeps (InMemoryMongoRepository.hget_keeps _ _)) fun _ =>
          .bind (note fun _ => rfl) fun _ => .bind (note fun _ => rfl) fun _ => note fun _ => rfl
    exact keeps lane.repository { lane := lane } rfl
  | hgetall =>
    have keeps : KeepsRepository DBOnlyLaneAdapter.repository (executeHgetall request) :=
      .bind (note fun _ => rfl) fun _ =>
        .bind (mongo_keeps (InMemoryMongoRepository.hgetall_keeps _)) fun _ =>
          .bind (note fun _ => rfl) fun _ => .bind (note fun _ => rfl) fun _ => note fun _ => rfl
    exact keeps lane.repository { lane := lane } rfl

end DBOnlyLaneAdapter

/-! ### Lane A -/

namespace RedisDBLaneAdapter

variable {σ : Type}

abbrev Keeps {α : Type} (x : LaneM (RedisDBLaneAdapter σ) α) : Prop :=
  KeepsRepository RedisDBLaneAdapter.repository x

theorem keeps_redis {α : Type} (call : Effect σ String α) : Keeps (redis call) :=
  fun _ _ held => held

theorem keeps_mongo {α : Type} {call : RepositoryM α} (keeps : ∀ r, (call.exec r).2 = r) :
    Keeps (σ := σ) (mongo call) := by
  intro r s held
  show (call.exec s.lane.repository).2 = r
  rw [keeps]
  exact held

theorem keeps_note {f : Execution (RedisDBLaneAdapter σ) → Execution (RedisDBLaneAdapter σ)}
    (keeps : ∀ s, (f s).lane = s.lane) : Keeps (modify f) :=
  .note keeps

variable [MiniRedisClient σ]

theorem keeps_expireKey (key : String) (ttlSeconds : Option PyFloat) :
    Keeps (σ := σ) (expireKey key ttlSeconds) := by
  cases ttlSeconds with
  | none => exact .pure ()
  | some seconds =>
    exact .bind (keeps_redis _) fun _ => .bind (keeps_note fun _ => rfl) fun _ =>
      keeps_note fun _ => rfl

theorem keeps_refill (defaultTtl : Except String PyFloat) (request : ArenaRequest)
    (mongoFields : Dict String String) : Keeps (σ := σ) (refill defaultTtl request mongoFields) := by
  refine .bind (.lift _) fun ttlSeconds => .bind (keeps_redis _) fun _ =>
    .bind (keeps_note fun _ => rfl) fun _ => ?_
  cases ttlSeconds with
  | none => exact .pure ()
  | some seconds => exact .bind (keeps_note fun _ => rfl) fun _ => keeps_note fun _ => rfl

theorem keeps_executeGet (defaultTtl : Except String PyFloat) (request : ArenaRequest) :
    Keeps (σ := σ) (executeGet defaultTtl request) := by
  refine .bind (keeps_note fun _ => rfl) fun _ => .bind (keeps_redis _) fun cached => ?_
  cases cached with
  | some cachedValue =>
    exact .bind (keeps_note fun _ => rfl) fun _ => .bind (keeps_note fun _ => rfl) fun _ =>
      .bind (keeps_note fun _ => rfl) fun _ => .bind (keeps_note fun _ => rfl) fun _ =>
        keeps_note fun _ => rfl
  | none =>
    refine .bind (keeps_note fun _ => rfl) fun _ => .bind (keeps_note fun _ => rfl) fun _ =>
      .bind (keeps_mongo (InMemoryMongoRepository.read_keeps _)) fun found => ?_
    cases found with
    | none => exact .bind (keeps_note fun _ => rfl) fun _ => keeps_note fun _ => rfl
    | some mongoValue =>
      exact .bind (keeps_note fun _ => rfl) fun _ => .bind (.lift _) fun _ =>
        .bind (keeps_redis _) fun _ => .bind (keeps_note fun _ => rfl) fun _ =>
          .bind (keeps_note fun _ => rfl) fun _ => .bind (keeps_expireKey _ _) fun _ =>
            keeps_note fun _ => rfl

theorem keeps_missHget (defaultTtl : Except String PyFloat) (request : ArenaRequest) :
    Keeps (σ := σ) (missHget defaultTtl request) := by
  refine .bind (keeps_note fun _ => rfl) fun _ => .bind (keeps_note fun _ => rfl) fun _ =>
    .bind (keeps_mongo (InMemoryMongoRepository.hgetall_keeps _)) fun found => ?_
  cases found with
  | none => exact .bind (keeps_note fun _ => rfl) fun _ => keeps_note fun _ => rfl
  | some mongoFields =>
    exact .bind (keeps_note fun _ => rfl) fun _ => .bind (keeps_refill _ _ _) fun _ =>
      .bind (keeps_note fun _ => rfl) fun _ => keeps_note fun _ => rfl

theorem keeps_executeHget (defaultTtl : Except String PyFloat) (request : ArenaRequest) :
    Keeps (σ := σ) (executeHget defaultTtl request) := by
  refine .bind (keeps_note fun _ => rfl) fun _ => .bind (keeps_redis _) fun cached => ?_
  cases cached with
  | some cachedValue =>
    exact .bind (keeps_note fun _ => rfl) fun _ => .bind (keeps_note fun _ => rfl) fun _ =>
      .bind (keeps_note fun _ => rfl) fun _ => .bind (keeps_note fun _ => rfl) fun _ =>
        keeps_note fun _ => rfl
  | none =>
    refine .bind (keeps_redis _) fun fields => ?_
    cases fields with
    | some cachedFields =>
      exact .bind (keeps_note fun _ => rfl) fun _ => .bind (keeps_note fun _ => rfl) fun _ =>
        .bind (keeps_note fun _ => rfl) fun _ => .bind (keeps_note fun _ => rfl) fun _ =>
          keeps_note fun _ => rfl
    | none => exact keeps_missHget defaultTtl request

theorem keeps_executeHgetall (defaultTtl : Except String PyFloat) (request : ArenaRequest) :
    Keeps (σ := σ) (executeHgetall defaultTtl request) := by
  refine .bind (keeps_note fun _ => rfl) fun _ => .bind (keeps_redis _) fun cached => ?_
  cases cached with
  | some cachedFields =>
    exact .bind (keeps_note fun _ => rfl) fun _ => .bind (keeps_note fun _ => rfl) fun _ =>
      .bind (keeps_note fun _ => rfl) fun _ => .bind (keeps_note fun _ => rfl) fun _ =>
        keeps_note fun _ => rfl
  | none =>
    refine .bind (keeps_note fun _ => rfl) fun _ => .bind (keeps_note fun _ => rfl) fun _ =>
      .bind (keeps_mongo (InMemoryMongoRepository.hgetall_keeps _)) fun found => ?_
    cases found with
    | none => exact .bind (keeps_note fun _ => rfl) fun _ => keeps_note fun _ => rfl
    | some mongoFields =>
      exact .bind (keeps_refill _ _ _) fun _ => .bind (keeps_note fun _ => rfl) fun _ =>
        .bind (keeps_note fun _ => rfl) fun _ => keeps_note fun _ => rfl

/-- An execution that reports no error leaves of the repository what lane B's leaves. A failing
cache can keep a deletion from it. -/
theorem execute_repository (defaultTtl : Except String PyFloat) (request : ArenaRequest)
    (lane : RedisDBLaneAdapter σ) (succeeded : (execute defaultTtl request lane).1.status = .ok) :
    (execute defaultTtl request lane).2.repository = lane.repository.executed request := by
  obtain ⟨s, returned⟩ := finish_ok _ _ _ _ _ succeeded
  rw [execute, finish_lane]
  unfold InMemoryMongoRepository.executed
  unfold executeBody at returned ⊢
  cases named : request.command with
  | set =>
    refine KeepsRepository.after rfl fun _ => ?_
    exact .bind (.lift _) fun _ => .bind (keeps_redis _) fun _ =>
      .bind (keeps_note fun _ => rfl) fun _ => .bind (keeps_note fun _ => rfl) fun _ =>
        .bind (keeps_expireKey _ _) fun _ => .bind (keeps_note fun _ => rfl) fun _ =>
          keeps_note fun _ => rfl
  | hset =>
    refine KeepsRepository.after rfl fun _ => ?_
    exact .bind (.lift _) fun _ => .bind (keeps_redis _) fun _ =>
      .bind (keeps_note fun _ => rfl) fun _ => .bind (keeps_note fun _ => rfl) fun _ =>
        .bind (keeps_expireKey _ _) fun _ => .bind (keeps_note fun _ => rfl) fun _ =>
          keeps_note fun _ => rfl
  | del =>
    simp only [named] at returned ⊢
    rw [returned]
    obtain ⟨_, noted, note, called⟩ := Effect.exists_of_exec_bind returned
    obtain ⟨redisDeleted, deleted, delete, rest⟩ := Effect.exists_of_exec_bind called
    have same : noted.lane = lane := by
      cases note
      rfl
    have before := keeps_redis (MiniRedisClient.delete request.key) lane.repository noted
      (congrArg RedisDBLaneAdapter.repository same)
    rw [delete] at before
    have ended : _ = s := congrArg Prod.snd rest
    rw [← ended, ← before]
    exact KeepsRepository.after rfl fun _ => .bind (keeps_note fun _ => rfl) fun _ =>
      keeps_note fun _ => rfl
  | get => exact keeps_executeGet defaultTtl request lane.repository { lane := lane } rfl
  | hget => exact keeps_executeHget defaultTtl request lane.repository { lane := lane } rfl
  | hgetall => exact keeps_executeHgetall defaultTtl request lane.repository { lane := lane } rfl

omit [MiniRedisClient σ] in
theorem leaves_withClient {α : Type} (call : Effect σ String α) (r : InMemoryMongoRepository) :
    Effect.Leaves (fun a : RedisDBLaneAdapter σ => a.repository = r) (withClient call)
      (fun a => a.repository = r) :=
  fun _ held => held

theorem resetLane_repository (lane : RedisDBLaneAdapter σ) :
    (resetLane.exec lane).2.repository = lane.repository.clear := by
  rw [resetLane, Effect.exec_bind, withRepository, Effect.exec_modify]
  exact leaves_withClient MiniRedisClient.flushdb _ _ rfl

theorem configureMemory_repository (profileKey : String) (maxMemoryBytes : ℤ)
    (lane : RedisDBLaneAdapter σ) :
    ((configureMemory profileKey maxMemoryBytes).exec lane).2.repository = lane.repository := by
  have kept : Effect.Leaves (fun a : RedisDBLaneAdapter σ => a.repository = lane.repository)
      (configureMemory profileKey maxMemoryBytes) (fun a => a.repository = lane.repository) :=
    (leaves_withClient _ _).bind (fun _ held => held) fun _ =>
      (leaves_withClient _ _).bind (fun _ held => held) fun _ => Effect.leaves_pure _ _
  exact kept lane rfl

theorem seed_repository (defaultTtl : Except String PyFloat) (seedInput : SeedStateInput)
    (lane : RedisDBLaneAdapter σ) :
    ((seed defaultTtl seedInput).exec lane).2.repository =
      if seedInput.documents.entries = [] then lane.repository
      else lane.repository.seed seedInput.documents := by
  rw [seed, Effect.exec_bind, withRepository, Effect.exec_modify]
  refine (leaves_withClient _ _).bind (fun _ held => held) (fun _ => ?_) _ rfl
  cases seedInput.warmCache with
  | false => exact Effect.leaves_pure _ _
  | true =>
    exact (Effect.leaves_lift _ _).bind (fun _ held => held) fun _ => leaves_withClient _ _

theorem handle_document (defaultTtl : Except String PyFloat) (key : String) (post : Post)
    (lane : RedisDBLaneAdapter σ) (succeeded : (handle defaultTtl post lane).1.succeeded = true) :
    (handle defaultTtl post lane).2.repository.documents.get? key =
      post.document key (lane.repository.documents.get? key) := by
  cases post with
  | execute request =>
    cases accepted : request.validatePayload with
    | none =>
      rw [handle_refused accepted] at succeeded
      cases succeeded
    | some valid =>
      rw [handle_execute accepted] at succeeded ⊢
      have ok : (execute defaultTtl valid lane).1.status = .ok := of_decide_eq_true succeeded
      rw [Post.document_of_validatePayload accepted, execute_repository defaultTtl valid lane ok,
        InMemoryMongoRepository.get?_executed]
  | fullReset =>
    show ((resetLane.exec lane).2).repository.documents.get? key = none
    rw [resetLane_repository]
    rfl
  | seed seedInput =>
    simp only [handle] at succeeded ⊢
    split at succeeded
    · rename_i positive
      rw [if_pos positive]
      show ((seed defaultTtl seedInput).exec lane).2.repository.documents.get? key = _
      rw [seed_repository]
      split
      · rename_i nothing
        simp [Post.document, Dict.get?, nothing]
      · exact InMemoryMongoRepository.get?_seed _ _ _
    · cases succeeded
  | configureMemory profileKey maxMemoryBytes =>
    simp only [handle] at succeeded ⊢
    split at succeeded
    · cases succeeded
    · rename_i valid
      rw [if_neg valid]
      show ((configureMemory profileKey maxMemoryBytes).exec lane).2.repository.documents.get? key = _
      rw [configureMemory_repository]
      rfl

end RedisDBLaneAdapter

theorem DBOnlyLaneAdapter.handle_document (key : String) (post : Post) (lane : DBOnlyLaneAdapter)
    (succeeded : (handle post lane).1.succeeded = true) :
    (handle post lane).2.repository.documents.get? key =
      post.document key (lane.repository.documents.get? key) := by
  cases post with
  | execute request =>
    cases accepted : request.validatePayload with
    | none =>
      rw [handle_refused accepted] at succeeded
      cases succeeded
    | some valid =>
      rw [handle_execute accepted, Post.document_of_validatePayload accepted]
      show (DBOnlyLaneAdapter.execute valid lane).2.repository.documents.get? key = _
      rw [DBOnlyLaneAdapter.execute_repository, InMemoryMongoRepository.get?_executed]
  | fullReset => rfl
  | seed seedInput =>
    show (DBOnlyLaneAdapter.seed seedInput lane).repository.documents.get? key = _
    unfold DBOnlyLaneAdapter.seed
    split
    · rename_i nothing
      simp [Post.document, Dict.get?, nothing]
    · exact InMemoryMongoRepository.get?_seed _ _ _
  | configureMemory profileKey maxMemoryBytes => rfl

/-! ### Each post at most once -/

namespace ArenaSystem

variable {σ : Type} {s s' : ArenaSystem σ}

/-- The posts that the lane has handled, in order, with their serial numbers. -/
def history (lane : LaneName) (s : ArenaSystem σ) : List (ℕ × Post) :=
  (s.handled lane).map (fun handled => (handled.serial, handled.post))

/-- The serial numbers of the lane's copies among the messages. -/
def numbers (lane : LaneName) (messages : List Message) : List ℕ :=
  (messages.filter (fun message => message.lane = lane)).map Message.serial

theorem numbers_perm {messages messages' : List Message} (perm : messages.Perm messages')
    (lane : LaneName) : (numbers lane messages).Perm (numbers lane messages') :=
  (perm.filter _).map _

theorem numbers_cons (message : Message) (others : List Message) (lane : LaneName) :
    numbers lane (message :: others) =
      if message.lane = lane then message.serial :: numbers lane others
      else numbers lane others := by
  by_cases there : message.lane = lane <;> simp [numbers, there]

theorem numbers_sent (serial id : ℕ) (post : Post) (lane : LaneName) :
    (numbers lane (post.lanes.map (fun lane => ⟨serial, id, lane, post, false⟩))).Sublist
      [serial] := by
  cases post <;> cases lane <;> simp [numbers, Post.lanes]

/-- The serial numbers of all the lane's copies, in flight or handled. -/
def copies (lane : LaneName) (s : ArenaSystem σ) : List ℕ :=
  numbers lane s.inFlight ++ (s.history lane).map Prod.fst

/-- Serial numbers are given once, and what is in flight or handled is a copy of an issued post,
at most one for each lane. -/
structure Recorded (s : ArenaSystem σ) : Prop where
  given : ∀ post ∈ s.issued, post.1 < s.nextSerial
  distinct : (s.issued.map Prod.fst).Nodup
  inFlight : ∀ message ∈ s.inFlight, (message.serial, message.post) ∈ s.issued
  handled : ∀ lane, ∀ post ∈ s.history lane, post ∈ s.issued
  once : ∀ lane, (s.copies lane).Nodup

theorem recorded_start (gateway : ArenaGatewayService) (laneA : RedisDBLaneAdapter σ)
    (laneB : DBOnlyLaneAdapter) (requestIds : ℕ → String) :
    Recorded (start gateway laneA laneB requestIds) where
  given _ member := by cases member
  distinct := List.nodup_nil
  inFlight _ member := by cases member
  handled lane _ member := by cases lane <;> cases member
  once lane := by cases lane <;> exact List.nodup_nil

namespace Recorded

theorem of_fewer (recorded : Recorded s) (nextSerial : s'.nextSerial = s.nextSerial)
    (issued : s'.issued = s.issued)
    (inFlight : ∀ message ∈ s'.inFlight, (message.serial, message.post) ∈ s.issued)
    (fewer : ∀ lane, (numbers lane s'.inFlight).Subperm (numbers lane s.inFlight))
    (handled : ∀ lane, s'.handled lane = s.handled lane) : Recorded s' := by
  have history : ∀ lane, s'.history lane = s.history lane := by
    intro lane
    rw [ArenaSystem.history, handled, ArenaSystem.history]
  refine ⟨?_, ?_, ?_, fun lane => ?_, fun lane => ?_⟩
  · rw [issued, nextSerial]
    exact recorded.given
  · rw [issued]
    exact recorded.distinct
  · rw [issued]
    exact inFlight
  · rw [history, issued]
    exact recorded.handled lane
  · rw [copies, history]
    obtain ⟨kept, perm, sub⟩ := fewer lane
    have remaining : (kept ++ (s.history lane).map Prod.fst).Nodup :=
      (recorded.once lane).sublist (sub.append_right _)
    exact (perm.append_right _).nodup_iff.mp remaining

theorem of_same (recorded : Recorded s) (nextSerial : s'.nextSerial = s.nextSerial)
    (issued : s'.issued = s.issued) (inFlight : s'.inFlight = s.inFlight)
    (handled : ∀ lane, s'.handled lane = s.handled lane) : Recorded s' :=
  recorded.of_fewer nextSerial issued (inFlight ▸ recorded.inFlight)
    (fun _ => inFlight ▸ .refl _) handled

theorem send (recorded : Recorded s) (id : ℕ) (task : Task) (post : Post) :
    Recorded (send id task post s) := by
  have fresh : ∀ lane, s.nextSerial ∉ s.copies lane := by
    intro lane member
    rcases List.mem_append.mp member with sent | done
    · obtain ⟨message, kept, same⟩ := List.mem_map.mp sent
      have lower := recorded.given _ (recorded.inFlight message (List.mem_filter.mp kept).1)
      exact lower.ne same
    · obtain ⟨entry, handled, same⟩ := List.mem_map.mp done
      exact (recorded.given _ (recorded.handled lane entry handled)).ne same
  refine ⟨fun entry member => ?_, ?_, fun message member => ?_, fun lane entry member => ?_,
    fun lane => ?_⟩
  · rcases List.mem_append.mp member with before | now
    · exact (recorded.given entry before).trans (Nat.lt_succ_self _)
    · rw [List.mem_singleton.mp now]
      exact Nat.lt_succ_self _
  · show ((s.issued ++ [(s.nextSerial, post)]).map Prod.fst).Nodup
    rw [List.map_append]
    refine recorded.distinct.append (List.nodup_singleton _) (fun serial before now => ?_)
    obtain ⟨entry, member, rfl⟩ := List.mem_map.mp before
    exact (recorded.given entry member).ne (List.mem_singleton.mp now)
  · rcases List.mem_append.mp member with before | now
    · exact List.mem_append_left _ (recorded.inFlight message before)
    · obtain ⟨lane, -, rfl⟩ := List.mem_map.mp now
      exact List.mem_append_right _ (List.mem_singleton_self _)
  · exact List.mem_append_left _ (recorded.handled lane entry (by cases lane <;> exact member))
  · have new := numbers_sent s.nextSerial id post lane
    have same : (ArenaSystem.send id task post s).history lane = s.history lane := by
      cases lane <;> rfl
    have perm : ((ArenaSystem.send id task post s).copies lane).Perm
        (numbers lane (post.lanes.map (fun lane => ⟨s.nextSerial, id, lane, post, false⟩)) ++
          s.copies lane) := by
      rw [copies, copies, same, ← List.append_assoc]
      refine List.Perm.append_right _ ?_
      show (numbers lane (s.inFlight ++ _)).Perm _
      rw [numbers, List.filter_append, List.map_append]
      exact List.perm_append_comm
    refine perm.nodup_iff.mpr (List.Nodup.sublist (new.append_right _) ?_)
    exact List.nodup_cons.mpr ⟨fresh lane, recorded.once lane⟩

theorem resume (recorded : Recorded s) (id : ℕ) : Recorded (resume id s) := by
  rcases resume_cases id s with stuck | ⟨task, -, -, ⟨-, returns⟩ | ⟨segment, rest, -, runs⟩⟩
  · rwa [stuck]
  · rw [returns]
    exact recorded.of_same rfl rfl rfl (fun lane => by cases lane <;> rfl)
  · rw [runs]
    refine send (recorded.of_same ?_ ?_ ?_ (fun lane => ?_)) id _ _
    · rfl
    · rfl
    · rfl
    · cases lane <;> rfl

theorem setMemoryProfile (recorded : Recorded s) (profileKey : String) :
    Recorded (setMemoryProfile profileKey s) := by
  rcases setMemoryProfile_cases profileKey s with same | ⟨profile, -, -, sent⟩
  · rwa [same]
  · rw [sent]
    refine send (recorded.of_same ?_ ?_ ?_ (fun lane => ?_)) s.nextTask _ _
    · rfl
    · rfl
    · rfl
    · cases lane <;> rfl

theorem cancelTracked (recorded : Recorded s) : Recorded (cancelTracked s) :=
  recorded.of_fewer rfl rfl
    (fun message member => recorded.inFlight message (List.mem_filter.mp member).1)
    (fun _ => ((List.filter_sublist.filter _).map _).subperm)
    (fun lane => by cases lane <;> rfl)

theorem startMessage (recorded : Recorded s) (index : ℕ) : Recorded (startMessage index s) := by
  rcases startMessage_cases index s with same | ⟨message, others, perm, started⟩
  · rwa [same]
  · rw [started]
    refine recorded.of_fewer rfl rfl (fun other member => ?_) (fun lane => ?_)
      (fun lane => by cases lane <;> rfl)
    · rcases List.mem_cons.mp member with rfl | there
      · exact recorded.inFlight message (perm.mem_iff.mpr List.mem_cons_self)
      · exact recorded.inFlight other (perm.mem_iff.mpr (List.mem_cons_of_mem _ there))
    · have flagged : numbers lane ({ message with started := true } :: others) =
          numbers lane (message :: others) := by
        rw [numbers_cons, numbers_cons]
      show (numbers lane ({ message with started := true } :: others)).Subperm _
      rw [flagged]
      exact (numbers_perm perm.symm lane).subperm

theorem lose (recorded : Recorded s) (index : ℕ) : Recorded (lose index s) := by
  rcases lose_cases index s with same | ⟨message, others, perm, -, lost⟩
  · rwa [same]
  · rw [lost]
    refine recorded.of_fewer rfl rfl (fun other member => ?_) (fun lane => ?_)
      (fun lane => by cases lane <;> rfl)
    · exact recorded.inFlight other (perm.mem_iff.mpr (List.mem_cons_of_mem _ member))
    · have dropped : (numbers lane others).Sublist (numbers lane (message :: others)) :=
        ((List.sublist_cons_self message others).filter _).map _
      exact dropped.subperm.trans (numbers_perm perm.symm lane).subperm

theorem deliver [MiniRedisClient σ] (defaultTtl : Except String PyFloat) (recorded : Recorded s)
    (index : ℕ) : Recorded (deliver defaultTtl index s) := by
  rcases deliver_cases defaultTtl index s with same | ⟨message, others, picked, -, delivered⟩
  · rwa [same]
  · rw [delivered]
    have perm := pick_perm picked
    have issued := recorded.inFlight message (mem_of_pick picked)
    have grown : ∀ lane, (handle defaultTtl message { s with inFlight := others }).history lane =
        s.history lane ++ if message.lane = lane then [(message.serial, message.post)] else [] := by
      intro lane
      unfold handle
      cases there : message.lane <;> cases lane <;> simp [history, ArenaSystem.handled]
    refine ⟨?_, ?_, fun other member => ?_, fun lane entry member => ?_, fun lane => ?_⟩
    · unfold handle
      cases message.lane <;> exact recorded.given
    · unfold handle
      cases message.lane <;> exact recorded.distinct
    · rw [handle_inFlight] at member
      have old := recorded.inFlight other (perm.mem_iff.mpr (List.mem_cons_of_mem _ member))
      unfold handle
      cases message.lane <;> exact old
    · rw [grown lane] at member
      have old : entry ∈ s.issued := by
        rcases List.mem_append.mp member with before | now
        · exact recorded.handled lane entry before
        · split at now
          · rw [List.mem_singleton.mp now]
            exact issued
          · cases now
      unfold handle
      cases message.lane <;> exact old
    · suffices perm : (s.copies lane).Perm
          ((handle defaultTtl message { s with inFlight := others }).copies lane) from
        perm.nodup_iff.mp (recorded.once lane)
      rw [copies, copies, grown lane, handle_inFlight]
      have split := numbers_perm perm lane
      rw [numbers_cons] at split
      by_cases there : message.lane = lane
      · rw [if_pos there] at split
        rw [if_pos there, List.map_append]
        refine (split.append_right _).trans ?_
        rw [← List.append_assoc]
        exact (List.perm_append_singleton _ _).symm
      · rw [if_neg there] at split
        rw [if_neg there, List.append_nil]
        exact split.append_right _

theorem receive (recorded : Recorded s) (index : ℕ) : Recorded (receive index s) := by
  rcases receive_cases index s with same | ⟨id, arrived, others, -, received⟩
  · rwa [same]
  · rcases received with ⟨-, received⟩ | ⟨task, -, received | received⟩ <;>
      · rw [received]
        exact recorded.of_same rfl rfl rfl (fun lane => by cases lane <;> rfl)

theorem step [MiniRedisClient σ] (defaultTtl : Except String PyFloat) (a : Action)
    (recorded : Recorded s) : Recorded (step defaultTtl a s) := by
  have begun : ∀ tracked rest, Recorded (beginTask tracked rest s) := fun tracked rest =>
    recorded.of_same rfl rfl rfl (fun lane => by cases lane <;> rfl)
  cases a with
  | executeCommand input => exact (begun false _).resume _
  | runScenario input => exact begun true _
  | resetScenarios =>
    exact recorded.cancelTracked.of_same rfl rfl rfl (fun lane => by cases lane <;> rfl)
  | resetState => exact (begun false _).resume _
  | setMemoryProfile profileKey => exact recorded.setMemoryProfile profileKey
  | setTtlProfile profileKey =>
    exact recorded.of_same rfl rfl rfl (fun lane => by cases lane <;> rfl)
  | resume id => exact recorded.resume id
  | start index => exact recorded.startMessage index
  | deliver index => exact recorded.deliver defaultTtl index
  | receive index => exact recorded.receive index
  | lose index => exact recorded.lose index
  | fail id => exact recorded.of_same rfl rfl rfl (fun lane => by cases lane <;> rfl)

theorem eq_of_serial (recorded : Recorded s) {post post' : ℕ × Post} (issued : post ∈ s.issued)
    (issued' : post' ∈ s.issued) (same : post.1 = post'.1) : post = post' :=
  List.inj_on_of_nodup_map recorded.distinct issued issued' same

theorem nodup_history (recorded : Recorded s) (lane : LaneName) : (s.history lane).Nodup :=
  .of_map Prod.fst (List.Nodup.of_append_right (recorded.once lane))

end Recorded

/-! ### The documents of a lane by its history -/

def repository (lane : LaneName) (s : ArenaSystem σ) : InMemoryMongoRepository :=
  match lane with
  | .redisDb => s.laneA.repository
  | .dbOnly => s.laneB.repository

/-- If a lane has reported nothing but successes, each of its documents is what its history
makes of the first one. -/
def Replayed (first : LaneName → InMemoryMongoRepository) (s : ArenaSystem σ) : Prop :=
  ∀ lane, (∀ handled ∈ s.handled lane, handled.reply.succeeded = true) → ∀ key,
    (s.repository lane).documents.get? key =
      (s.history lane).foldl (fun document post => post.2.document key document)
        ((first lane).documents.get? key)

theorem Replayed.step [MiniRedisClient σ] {first : LaneName → InMemoryMongoRepository}
    (defaultTtl : Except String PyFloat) (a : Action) (replayed : Replayed first s) :
    Replayed first (step defaultTtl a s) := by
  have of_sameLanes : ∀ s', SameLanes s s' → Replayed first s' := by
    intro s' same lane succeeded key
    have repository : s'.repository lane = s.repository lane := by
      cases lane
      · exact congrArg RedisDBLaneAdapter.repository same.laneA
      · exact congrArg DBOnlyLaneAdapter.repository same.laneB
    rw [repository, history, same.handled lane]
    exact replayed lane (same.handled lane ▸ succeeded) key
  by_cases delivery : ∃ index, a = .deliver index
  · obtain ⟨index, rfl⟩ := delivery
    rcases deliver_cases defaultTtl index s with same | ⟨message, others, -, -, delivered⟩
    · show Replayed first (deliver defaultTtl index s)
      rwa [same]
    · show Replayed first (deliver defaultTtl index s)
      rw [delivered]
      intro lane succeeded key
      unfold handle at succeeded ⊢
      cases there : message.lane <;> cases lane <;> rw [there] at succeeded
      · have before := replayed .redisDb
          (fun handled member => succeeded handled (List.mem_append_left _ member)) key
        have now := succeeded _ (List.mem_append_right _ (List.mem_singleton_self _))
        have after := RedisDBLaneAdapter.handle_document defaultTtl key message.post s.laneA now
        simp only [history, ArenaSystem.handled, List.map_append, List.foldl_append] at before ⊢
        exact after.trans (congrArg (fun document => message.post.document key document) before)
      · exact replayed .dbOnly succeeded key
      · exact replayed .redisDb succeeded key
      · have before := replayed .dbOnly
          (fun handled member => succeeded handled (List.mem_append_left _ member)) key
        have now := succeeded _ (List.mem_append_right _ (List.mem_singleton_self _))
        have after := DBOnlyLaneAdapter.handle_document key message.post s.laneB now
        simp only [history, ArenaSystem.handled, List.map_append, List.foldl_append] at before ⊢
        exact after.trans (congrArg (fun document => message.post.document key document) before)
  · exact of_sameLanes _ (step_sameLanes defaultTtl (fun index same => delivery ⟨index, same⟩) s)

/-! ### Lanes that handle the changes in one order -/

/-- Every request has been handled by each of its lanes, and none has failed there. -/
structure Completed (s : ArenaSystem σ) : Prop where
  handled : ∀ post ∈ s.issued, ∀ lane ∈ post.2.lanes, post.1 ∈ (s.history lane).map Prod.fst
  succeeded : ∀ lane, ∀ handled ∈ s.handled lane, handled.reply.succeeded = true

/-- Of two requests that change the document under one key, both lanes handled the same one
first. -/
def SameOrder (s : ArenaSystem σ) : Prop :=
  ∀ post ∈ s.issued, ∀ post' ∈ s.issued, ∀ key,
    post.2.changes key = true → post'.2.changes key = true →
      (Before ((s.history .redisDb).map Prod.fst) post.1 post'.1 ↔
        Before ((s.history .dbOnly).map Prod.fst) post.1 post'.1)

private theorem mem_lanes_of_changes {post : Post} {key : String} (changes : post.changes key = true)
    (lane : LaneName) : lane ∈ post.lanes := by
  cases post with
  | configureMemory profileKey maxMemoryBytes => cases changes
  | execute | fullReset | seed => cases lane <;> simp [Post.lanes]

private theorem mem_history_of_changes (recorded : Recorded s) (completed : Completed s)
    {lane : LaneName} (lane' : LaneName) {key : String} {post : ℕ × Post}
    (member : post ∈ s.history lane) (changes : post.2.changes key = true) :
    post ∈ s.history lane' := by
  have issued := recorded.handled lane post member
  have there := completed.handled post issued lane' (mem_lanes_of_changes changes lane')
  obtain ⟨post', member', same⟩ := List.mem_map.mp there
  rwa [← recorded.eq_of_serial (recorded.handled lane' post' member') issued same]

/-- The changes of one key are the same for both lanes, in the same order. -/
theorem changes_eq (recorded : Recorded s) (completed : Completed s) (ordered : SameOrder s)
    (key : String) :
    (s.history .redisDb).filter (fun post => post.2.changes key) =
      (s.history .dbOnly).filter (fun post => post.2.changes key) := by
  have nodup : ∀ lane, ((s.history lane).filter (fun post => post.2.changes key)).Nodup :=
    fun lane => (recorded.nodup_history lane).filter _
  refine eq_of_same_order ?_ (nodup .redisDb) (fun post post' before => ?_)
  · refine (List.perm_ext_iff_of_nodup (nodup .redisDb) (nodup .dbOnly)).mpr (fun post => ?_)
    rw [List.mem_filter, List.mem_filter]
    exact and_congr_left fun changes =>
      ⟨fun member => mem_history_of_changes recorded completed .dbOnly member changes,
        fun member => mem_history_of_changes recorded completed .redisDb member changes⟩
  · have first := List.mem_filter.mp (before.subset List.mem_cons_self)
    have second := List.mem_filter.mp
      (before.subset (List.mem_cons_of_mem _ List.mem_cons_self))
    have issued := recorded.handled .dbOnly post first.1
    have issued' := recorded.handled .dbOnly post' second.1
    have numbered : Before ((s.history .dbOnly).map Prod.fst) post.1 post'.1 :=
      (before.trans List.filter_sublist).map Prod.fst
    have crossed := (ordered post issued post' issued' key first.2 second.2).mpr numbered
    obtain ⟨pair, sub, same⟩ := List.sublist_map_iff.mp crossed
    obtain ⟨a, rest, rfl, here, tail⟩ := List.map_eq_cons_iff.mp same.symm
    obtain ⟨b, rest, rfl, here', tail⟩ := List.map_eq_cons_iff.mp tail
    obtain rfl := List.map_eq_nil_iff.mp tail
    have issuedA := recorded.handled .redisDb a (sub.subset List.mem_cons_self)
    have issuedB := recorded.handled .redisDb b
      (sub.subset (List.mem_cons_of_mem _ List.mem_cons_self))
    rw [recorded.eq_of_serial issuedA issued here, recorded.eq_of_serial issuedB issued' here'] at sub
    have kept := sub.filter (fun post => post.2.changes key)
    rwa [List.filter_cons_of_pos (by exact first.2), List.filter_cons_of_pos (by exact second.2),
      List.filter_nil] at kept

/-- From equal repositories, when all requests have completed and both lanes took the changes of
each key in one order, the repositories hold the same documents. -/
theorem same_documents [MiniRedisClient σ] {defaultTtl : Except String PyFloat}
    {gateway : ArenaGatewayService} {laneA : RedisDBLaneAdapter σ} {laneB : DBOnlyLaneAdapter}
    {requestIds : ℕ → String} {actions : List Action}
    (equal : ∀ key,
      laneA.repository.documents.get? key = laneB.repository.documents.get? key)
    (ended : s = runAll (ArenaSystem.step defaultTtl) actions
      (start gateway laneA laneB requestIds))
    (completed : Completed s) (ordered : SameOrder s) (key : String) :
    s.laneA.repository.documents.get? key = s.laneB.repository.documents.get? key := by
  have recorded : Recorded s := by
    rw [ended]
    exact invariant_of_steps (fun a _ recorded => recorded.step defaultTtl a) actions
      (recorded_start gateway laneA laneB requestIds)
  have replayed : Replayed (start gateway laneA laneB requestIds).repository s := by
    rw [ended]
    refine invariant_of_steps (fun a _ replayed => replayed.step defaultTtl a) actions ?_
    intro lane _ key
    cases lane <;> rfl
  have byA := replayed .redisDb (completed.succeeded .redisDb) key
  have byB := replayed .dbOnly (completed.succeeded .dbOnly) key
  have unchanged : ∀ (post : ℕ × Post) (document : Option Payload),
      post.2.changes key = false → post.2.document key document = document :=
    fun post document => Post.document_of_unchanged document
  rw [← foldl_filter_of_unchanged unchanged] at byA byB
  rw [changes_eq recorded completed ordered key] at byA
  have first : ((start gateway laneA laneB requestIds).repository .redisDb).documents.get? key =
      ((start gateway laneA laneB requestIds).repository .dbOnly).documents.get? key := equal key
  rw [first] at byA
  exact byA.trans byB.symm

private theorem sameOrder_of_eq
    (same : (s.history .redisDb).map Prod.fst = (s.history .dbOnly).map Prod.fst) :
    SameOrder s := by
  intro post _ post' _ key _ _
  rw [same]

def setK (value : String) : ManualCommandInput where
  command := .set
  key := "k"
  value := some value

/-- Two commands for one key, both outstanding; lane A handles them in the order in which they
were issued, lane B in that order or in the other one. -/
def twoWrites (crossed : Bool) : List Action :=
  [.executeCommand (setK "1"), .executeCommand (setK "2"), .start 0, .deliver 0, .start 1,
    .deliver 0, .start (if crossed then 1 else 0), .deliver 0, .start 0, .deliver 0]

private theorem completed_twoWrites (crossed : Bool) :
    Completed (runAll (ArenaSystem.step (.ok (.ofRat 5))) (twoWrites crossed) idleArena) := by
  refine ⟨by cases crossed <;> decide +kernel, fun lane => ?_⟩
  cases lane <;> cases crossed <;> decide +kernel

theorem ordered_writes_same_documents :
    (idleArena.laneA.repository.documents = idleArena.laneB.repository.documents ∧
      (runAll (ArenaSystem.step (.ok (.ofRat 5))) (twoWrites false) idleArena).issued.length = 2) ∧
    (runAll (ArenaSystem.step (.ok (.ofRat 5))) (twoWrites false)
        idleArena).laneA.repository.documents.get? "k" =
      (runAll (ArenaSystem.step (.ok (.ofRat 5))) (twoWrites false)
        idleArena).laneB.repository.documents.get? "k" := by
  refine ⟨by decide +kernel, ?_⟩
  exact same_documents (fun _ => rfl) rfl (completed_twoWrites false)
    (sameOrder_of_eq (by decide +kernel)) "k"

/-- Lane B takes the two commands in the other order and keeps the other value. -/
theorem crossed_writes_differ :
    ∃ (actions : List Action) (s : ArenaSystem InMemoryMiniRedisClient),
      s = runAll (ArenaSystem.step (.ok (.ofRat 5))) actions idleArena ∧ Completed s ∧
      idleArena.laneA.repository.documents = idleArena.laneB.repository.documents ∧
      s.laneA.repository.documents.get? "k" = some (.string "2") ∧
      s.laneB.repository.documents.get? "k" = some (.string "1") :=
  ⟨twoWrites true, _, rfl, completed_twoWrites true, rfl, by decide +kernel, by decide +kernel⟩

end ArenaSystem

end MiniRedis.Arena
