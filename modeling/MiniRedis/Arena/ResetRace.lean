/- GID: MiniRedis/Arena/ResetRace
   generality: I
   digest: A reset leaves an empty arena unless a write that a thread has taken overtakes it. -/

import MiniRedis.Arena.GatewayRuns
import MiniRedis.Arena.Refill

set_option autoImplicit false
set_option relaxedAutoImplicit false

namespace MiniRedis.Arena

open MiniRedis.Base MiniRedis.Python

/-! ### Empty lanes -/

/-- A post that can store something: a valid `SET` or `HSET`, or a seed with documents. -/
def Post.writes : Post → Bool
  | .execute request => request.command.requiresValue && request.validatePayload.isSome
  | .seed seedInput => !seedInput.documents.entries.isEmpty
  | .fullReset | .configureMemory _ _ => false

def Post.clears : Post → Bool
  | .fullReset => true
  | .execute _ | .seed _ | .configureMemory _ _ => false

/-- Neither the repository nor the cache holds anything. -/
structure RedisDBLaneAdapter.Empty (lane : InMemoryLane) : Prop where
  repository : lane.repository.documents = Dict.empty
  cache : lane.redisClient.entries = Dict.empty

def DBOnlyLaneAdapter.Empty (lane : DBOnlyLaneAdapter) : Prop :=
  lane.repository.documents = Dict.empty

theorem ArenaRequest.command_of_validatePayload {request valid : ArenaRequest}
    (accepted : request.validatePayload = some valid) : valid.command = request.command := by
  unfold validatePayload at accepted
  split at accepted
  · cases accepted
  · split at accepted
    · cases accepted
    · split at accepted
      · cases accepted
      · cases accepted
        rfl

namespace InMemoryMongoRepository

variable {r : InMemoryMongoRepository} (empty : r.documents = Dict.empty) (key : String)

include empty

theorem exec_read_of_empty : (read key).exec r = (.ok none, r) := by
  simp [read, Effect.exec_bind, empty]

theorem exec_hget_of_empty (fieldName : String) : (hget key fieldName).exec r = (.ok none, r) := by
  simp [hget, Effect.exec_bind, empty]

theorem exec_hgetall_of_empty : (hgetall key).exec r = (.ok none, r) := by
  simp [hgetall, Effect.exec_bind, empty]

theorem delete_of_empty : delete key r = (false, r) := by
  simp [delete, empty]

end InMemoryMongoRepository

theorem RedisDBLaneAdapter.Empty.execute {lane : InMemoryLane} (empty : lane.Empty)
    (defaultTtl : Except String PyFloat) {request : ArenaRequest}
    (reads : request.command.requiresValue = false) :
    (RedisDBLaneAdapter.execute defaultTtl request lane).2 = lane := by
  obtain ⟨c, r⟩ := lane
  have stored : r.documents = Dict.empty := empty.repository
  have cached : c.entries = Dict.empty := empty.cache
  have absent : c.entries.get? request.key = none := by rw [cached]; rfl
  have get : (MiniRedisClient.get request.key : Effect InMemoryMiniRedisClient String _).exec c =
      (.ok none, c) := by
    show (InMemoryMiniRedisClient.get request.key).exec c = _
    simp [InMemoryMiniRedisClient.get, Effect.exec_bind, InMemoryMiniRedisClient.liveEntry, absent]
  have hget : ∀ fieldName,
      (MiniRedisClient.hget request.key fieldName : Effect InMemoryMiniRedisClient String _).exec c =
        (.ok none, c) :=
    fun fieldName => InMemoryMiniRedisClient.exec_readHash_of_absent _ absent
  have hgetall :
      (MiniRedisClient.hgetall request.key : Effect InMemoryMiniRedisClient String _).exec c =
        (.ok none, c) :=
    InMemoryMiniRedisClient.exec_readHash_of_absent _ absent
  have delete : (MiniRedisClient.delete request.key : Effect InMemoryMiniRedisClient String _).exec c =
      (.ok false, c) := by
    show (modifyGet (InMemoryMiniRedisClient.delete request.key) : ClientM Bool).exec c = _
    simp [InMemoryMiniRedisClient.delete, absent]
  unfold RedisDBLaneAdapter.execute finish executeBody
  cases named : request.command with
  | set | hset => rw [named] at reads; cases reads
  | get =>
    simp [executeGet, extendPath, redis, cacheMiss, countRead, mongo, extendChanges, answer,
      Effect.exec_bind, get, InMemoryMongoRepository.exec_read_of_empty stored]
  | hget =>
    simp [executeHget, missHget, extendPath, redis, cacheMiss, countRead, mongo, extendChanges,
      answer, Effect.exec_bind, hget, hgetall,
      InMemoryMongoRepository.exec_hgetall_of_empty stored]
  | hgetall =>
    simp [executeHgetall, extendPath, redis, cacheMiss, countRead, mongo, extendChanges, answer,
      Effect.exec_bind, hgetall, InMemoryMongoRepository.exec_hgetall_of_empty stored]
  | del =>
    simp [executeDel, extendPath, redis, mongo, extendChanges, answer, Effect.exec_bind, delete,
      InMemoryMongoRepository.delete_of_empty stored]

theorem DBOnlyLaneAdapter.Empty.execute {lane : DBOnlyLaneAdapter} (empty : lane.Empty)
    {request : ArenaRequest} (reads : request.command.requiresValue = false) :
    (DBOnlyLaneAdapter.execute request lane).2 = lane := by
  obtain ⟨r⟩ := lane
  have stored : r.documents = Dict.empty := empty
  unfold DBOnlyLaneAdapter.execute finish executeBody
  cases named : request.command with
  | set | hset => rw [named] at reads; cases reads
  | get =>
    simp [executeGet, countRead, mongo, preview, extendChanges, answer, Effect.exec_bind,
      InMemoryMongoRepository.exec_read_of_empty stored]
  | hget =>
    simp [executeHget, countRead, mongo, preview, extendChanges, answer, Effect.exec_bind,
      InMemoryMongoRepository.exec_hget_of_empty stored]
  | hgetall =>
    simp [executeHgetall, countRead, mongo, preview, extendChanges, answer, Effect.exec_bind,
      InMemoryMongoRepository.exec_hgetall_of_empty stored]
  | del =>
    simp [executeDel, extendPath, mongo, extendChanges, answer, Effect.exec_bind,
      InMemoryMongoRepository.delete_of_empty stored]

theorem RedisDBLaneAdapter.handle_fullReset (defaultTtl : Except String PyFloat)
    (lane : InMemoryLane) : (handle defaultTtl .fullReset lane).2.Empty :=
  ⟨rfl, rfl⟩

theorem DBOnlyLaneAdapter.handle_fullReset (lane : DBOnlyLaneAdapter) :
    (handle .fullReset lane).2.Empty :=
  rfl

private theorem exec_seed_nothing (defaultTtl : Except String PyFloat) {seedInput : SeedStateInput}
    (nothing : seedInput.documents.entries = []) (lane : InMemoryLane) :
    ((RedisDBLaneAdapter.seed defaultTtl seedInput).exec lane).2 = lane := by
  have keys : seedInput.documents.keys = [] := by rw [Dict.keys, nothing]; rfl
  unfold RedisDBLaneAdapter.seed
  cases warm : seedInput.warmCache with
  | false =>
    simp [RedisDBLaneAdapter.withRepository, RedisDBLaneAdapter.withClient,
      RedisDBLaneAdapter.deleteKeys, Effect.exec_bind, nothing, keys]
  | true =>
    cases readable : redisTtlForRequest defaultTtl seedInput.ttlEnabled seedInput.ttlSeconds <;>
      simp [RedisDBLaneAdapter.withRepository, RedisDBLaneAdapter.withClient,
        RedisDBLaneAdapter.deleteKeys, RedisDBLaneAdapter.warmKeys, Effect.exec_bind, nothing, keys]

theorem RedisDBLaneAdapter.Empty.handle {lane : InMemoryLane} (empty : lane.Empty)
    (defaultTtl : Except String PyFloat) {post : Post} (harmless : post.writes = false) :
    (RedisDBLaneAdapter.handle defaultTtl post lane).2.Empty := by
  cases post with
  | execute request =>
    cases accepted : request.validatePayload with
    | none => rwa [handle_refused accepted]
    | some valid =>
      have reads : valid.command.requiresValue = false := by
        rw [ArenaRequest.command_of_validatePayload accepted]
        simpa [Post.writes, accepted] using harmless
      rw [handle_execute accepted, empty.execute defaultTtl reads]
      exact empty
  | fullReset => exact handle_fullReset defaultTtl lane
  | seed seedInput =>
    have nothing : seedInput.documents.entries = [] := by simpa [Post.writes] using harmless
    simp only [RedisDBLaneAdapter.handle]
    split
    · show ((RedisDBLaneAdapter.seed defaultTtl seedInput).exec lane).2.Empty
      rwa [exec_seed_nothing defaultTtl nothing lane]
    · exact empty
  | configureMemory profileKey maxMemoryBytes =>
    simp only [RedisDBLaneAdapter.handle]
    split
    · exact empty
    · refine ⟨empty.repository, ?_⟩
      have shrinks : InMemoryMiniRedisClient.Shrinks
          { lane.redisClient with
            maxMemoryBytes := if 0 < maxMemoryBytes then some maxMemoryBytes.toNat.toPNat' else none }
          (InMemoryMiniRedisClient.purgeExpired
            (InMemoryMiniRedisClient.configSetMaxmemory maxMemoryBytes lane.redisClient)) :=
        (InMemoryMiniRedisClient.Shrinks.enforceMaxMemory [] _).trans (.purgeExpired _)
      apply Dict.eq_empty
      intro key
      rw [Option.eq_none_iff_forall_ne_some]
      intro entry found
      have stored : lane.redisClient.entries.get? key = some entry := shrinks.sub key entry found
      rw [empty.cache] at stored
      cases stored

theorem DBOnlyLaneAdapter.Empty.handle {lane : DBOnlyLaneAdapter} (empty : lane.Empty) {post : Post}
    (harmless : post.writes = false) : (DBOnlyLaneAdapter.handle post lane).2.Empty := by
  cases post with
  | execute request =>
    cases accepted : request.validatePayload with
    | none => rwa [handle_refused accepted]
    | some valid =>
      have reads : valid.command.requiresValue = false := by
        rw [ArenaRequest.command_of_validatePayload accepted]
        simpa [Post.writes, accepted] using harmless
      rw [handle_execute accepted, empty.execute reads]
      exact empty
  | fullReset => rfl
  | seed seedInput =>
    have nothing : seedInput.documents.entries = [] := by simpa [Post.writes] using harmless
    show (DBOnlyLaneAdapter.seed seedInput lane).Empty
    rwa [DBOnlyLaneAdapter.seed, if_pos nothing]
  | configureMemory profileKey maxMemoryBytes => exact empty

/-! ### A reset on its way -/

/-- A segment that can send a write. -/
def Segment.writes : Segment → Bool
  | .execute input => input.command.requiresValue
  | .seed documents => !documents.entries.isEmpty
  | .clearLanes _ | .restoreMemory => false

theorem Segment.post_writes (requestId : String) (g : ArenaGatewayService) {segment : Segment}
    (harmless : segment.writes = false) : (segment.run requestId g).2.writes = false := by
  cases segment with
  | execute input =>
    have reads : input.command.requiresValue = false := harmless
    simp [Segment.run, ArenaGatewayService.buildRequest, Post.writes, reads]
  | seed documents => exact harmless
  | clearLanes forget => rfl
  | restoreMemory => rfl

namespace ArenaSystem

variable {s s' : ArenaSystem InMemoryMiniRedisClient} {reset : ℕ}

def LaneEmpty (lane : LaneName) (s : ArenaSystem InMemoryMiniRedisClient) : Prop :=
  match lane with
  | .redisDb => s.laneA.Empty
  | .dbOnly => s.laneB.Empty

/-- The reset has its clear of the lane before it, or the clear is on its way. -/
def ClearAhead (reset : ℕ) (lane : LaneName) (s : ArenaSystem InMemoryMiniRedisClient) : Prop :=
  (∃ task, s.tasks reset = some task ∧ ∃ forget, .clearLanes forget ∈ task.rest) ∨
    ∃ message ∈ s.inFlight,
      message.task = reset ∧ message.lane = lane ∧ message.post.clears = true

structure Cleared (lane : LaneName) (s : ArenaSystem InMemoryMiniRedisClient) : Prop where
  empty : LaneEmpty lane s
  quiet : ∀ message ∈ s.inFlight, message.lane = lane → message.post.writes = false

/-- A call of the reset has raised. -/
def Abandoned (reset : ℕ) (s : ArenaSystem InMemoryMiniRedisClient) : Prop :=
  s.tasks reset = none ∧ reset ∉ s.returned

/-- While the reset runs and after it: no call has a write before it, and each lane is cleared
or will be, if the reset does not raise. -/
structure Resetting (reset : ℕ) (s : ArenaSystem InMemoryMiniRedisClient) : Prop where
  accounted : Accounted s
  begun : reset < s.nextTask
  untracked : ∀ task, s.tasks reset = some task → task.tracked = false
  quiet : ∀ id task, s.tasks id = some task → ∀ segment ∈ task.rest, segment.writes = false
  lanes : ∀ lane, ClearAhead reset lane s ∨ Cleared lane s ∨ Abandoned reset s

/-- A change that leaves the reset, its clears and the lanes alone and sends no write. -/
structure Harmless (reset : ℕ) (s s' : ArenaSystem InMemoryMiniRedisClient) : Prop where
  alive : ∀ task, s.tasks reset = some task →
    ∃ task', s'.tasks reset = some task' ∧ task'.rest = task.rest
  gone : s.tasks reset = none → s'.tasks reset = none
  returned : reset ∈ s'.returned → reset ∈ s.returned
  kept : ∀ message ∈ s.inFlight, message.task = reset → message.post.clears = true →
    ∃ message' ∈ s'.inFlight,
      message'.task = reset ∧ message'.lane = message.lane ∧ message'.post.clears = true
  old : ∀ message' ∈ s'.inFlight, message'.post.writes = true →
    ∃ message ∈ s.inFlight, message.lane = message'.lane ∧ message.post.writes = true
  laneA : s'.laneA = s.laneA
  laneB : s'.laneB = s.laneB

namespace Harmless

theorem laneEmpty (harmless : Harmless reset s s') {lane : LaneName} (empty : LaneEmpty lane s) :
    LaneEmpty lane s' := by
  cases lane with
  | redisDb =>
    show s'.laneA.Empty
    rw [harmless.laneA]
    exact empty
  | dbOnly =>
    show s'.laneB.Empty
    rw [harmless.laneB]
    exact empty

theorem cleared (harmless : Harmless reset s s') {lane : LaneName} (cleared : Cleared lane s) :
    Cleared lane s' := by
  refine ⟨harmless.laneEmpty cleared.empty, fun message' member there => ?_⟩
  by_contra wrote
  obtain ⟨message, before, same, writes⟩ :=
    harmless.old message' member (Bool.eq_true_of_not_eq_false wrote)
  rw [cleared.quiet message before (same.trans there)] at writes
  cases writes

theorem lanes (harmless : Harmless reset s s')
    (lanes : ∀ lane, ClearAhead reset lane s ∨ Cleared lane s ∨ Abandoned reset s)
    (lane : LaneName) : ClearAhead reset lane s' ∨ Cleared lane s' ∨ Abandoned reset s' := by
  rcases lanes lane with (⟨task, known, forget, planned⟩ | ⟨message, member, own, there, clears⟩) |
    cleared | ⟨gone, running⟩
  · obtain ⟨task', known', same⟩ := harmless.alive task known
    exact Or.inl (Or.inl ⟨task', known', forget, same ▸ planned⟩)
  · obtain ⟨message', member', own', same, clears'⟩ := harmless.kept message member own clears
    exact Or.inl (Or.inr ⟨message', member', own', same.trans there, clears'⟩)
  · exact Or.inr (Or.inl (harmless.cleared cleared))
  · exact Or.inr (Or.inr ⟨harmless.gone gone, fun returned => running (harmless.returned returned)⟩)

theorem of_inFlight
    (kept : ∀ message ∈ s.inFlight, message.task = reset → message.post.clears = true →
      ∃ message' ∈ s'.inFlight,
        message'.task = reset ∧ message'.lane = message.lane ∧ message'.post.clears = true)
    (old : ∀ message' ∈ s'.inFlight, message'.post.writes = true →
      ∃ message ∈ s.inFlight, message.lane = message'.lane ∧ message.post.writes = true)
    (tasks : s'.tasks reset = s.tasks reset) (returned : s'.returned = s.returned)
    (laneA : s'.laneA = s.laneA) (laneB : s'.laneB = s.laneB) : Harmless reset s s' where
  alive task known := ⟨task, tasks.trans known, rfl⟩
  gone absent := tasks.trans absent
  returned member := returned ▸ member
  kept := kept
  old := old
  laneA := laneA
  laneB := laneB

theorem of_same (inFlight : s'.inFlight = s.inFlight) (tasks : s'.tasks reset = s.tasks reset)
    (returned : s'.returned = s.returned) (laneA : s'.laneA = s.laneA)
    (laneB : s'.laneB = s.laneB) : Harmless reset s s' :=
  of_inFlight
    (fun message member own clears => ⟨message, inFlight ▸ member, own, rfl, clears⟩)
    (fun message member writes => ⟨message, inFlight ▸ member, rfl, writes⟩)
    tasks returned laneA laneB

end Harmless

/-! #### Steps -/

namespace Resetting

theorem of_harmless (resetting : Resetting reset s) (harmless : Harmless reset s s')
    (accounted : Accounted s') (nextTask : s.nextTask ≤ s'.nextTask)
    (untracked : ∀ task, s'.tasks reset = some task → task.tracked = false)
    (quiet : ∀ id task, s'.tasks id = some task → ∀ segment ∈ task.rest, segment.writes = false) :
    Resetting reset s' where
  accounted := accounted
  begun := resetting.begun.trans_le nextTask
  untracked := untracked
  quiet := quiet
  lanes := harmless.lanes resetting.lanes

theorem beginTask (resetting : Resetting reset s) (tracked : Bool) {rest : List Segment}
    (harmless : ∀ segment ∈ rest, segment.writes = false) :
    Resetting reset (beginTask tracked rest s) := by
  have other : reset ≠ s.nextTask := resetting.begun.ne
  have same : (ArenaSystem.beginTask tracked rest s).tasks reset = s.tasks reset :=
    Function.update_of_ne other _ _
  refine resetting.of_harmless (.of_same rfl same rfl rfl rfl)
    (resetting.accounted.beginTask tracked rest) (Nat.le_succ _) (fun task known => ?_)
    (fun id task known => ?_)
  · exact resetting.untracked task (same ▸ known)
  · rcases update_eq_some known with ⟨-, begun⟩ | ⟨-, old⟩
    · cases begun
      exact harmless
    · exact resetting.quiet id task old

theorem setTask_none (resetting : Resetting reset s) (id : ℕ) :
    Resetting reset (setTask id none s) := by
  have accounted := resetting.accounted.setTask_none id
  have untracked : ∀ task, (setTask id none s).tasks reset = some task → task.tracked = false :=
    fun task known => resetting.untracked task (update_none_eq_some known).2
  have quiet : ∀ other task, (setTask id none s).tasks other = some task →
      ∀ segment ∈ task.rest, segment.writes = false :=
    fun other task known => resetting.quiet other task (update_none_eq_some known).2
  by_cases raised : reset = id ∧ reset ∉ s.returned
  · obtain ⟨rfl, running⟩ := raised
    have gone : (setTask reset none s).tasks reset = none := by simp [setTask]
    exact ⟨accounted, resetting.begun, untracked, quiet, fun _ => Or.inr (Or.inr ⟨gone, running⟩)⟩
  · have same : (setTask id none s).tasks reset = s.tasks reset := by
      by_cases own : reset = id
      · have returned : reset ∈ s.returned := by
          by_contra running
          exact raised ⟨own, running⟩
        have gone := (resetting.accounted.settled reset returned).1
        exact (update_none_eq_none gone).trans gone.symm
      · exact Function.update_of_ne own _ _
    exact resetting.of_harmless (.of_same rfl same rfl rfl rfl) accounted le_rfl untracked quiet

theorem cancelTracked (resetting : Resetting reset s) : Resetting reset (cancelTracked s) := by
  have kept : s.isTracked reset = false := by
    unfold isTracked
    cases known : s.tasks reset with
    | none => rfl
    | some task => exact resetting.untracked task known
  have same : (ArenaSystem.cancelTracked s).tasks reset = s.tasks reset := by
    show (s.tasks reset).filter (fun task => !task.tracked) = s.tasks reset
    cases known : s.tasks reset with
    | none => rfl
    | some task => simp [resetting.untracked task known]
  refine resetting.of_harmless ?_ resetting.accounted.cancelTracked le_rfl
    (fun task known => resetting.untracked task (same ▸ known))
    (fun id task known => resetting.quiet id task (Option.filter_eq_some_iff.mp known).1)
  refine .of_inFlight (fun message member own clears => ⟨message, ?_, own, rfl, clears⟩)
    (fun message member writes => ⟨message, (List.mem_filter.mp member).1, rfl, writes⟩)
    same rfl rfl rfl
  rw [← own] at kept
  exact List.mem_filter.mpr ⟨member, by simp [kept]⟩

theorem finish {id : ℕ} {task : Task} (resetting : Resetting reset s)
    (known : s.tasks id = some task) (idle : task.awaited = 0) (exhausted : task.rest = []) :
    Resetting reset (finish id s) := by
  have accounted := resetting.accounted.finish known idle
  refine ⟨accounted, resetting.begun,
    fun task' known' => resetting.untracked task' (update_none_eq_some known').2,
    fun other task' known' => resetting.quiet other task' (update_none_eq_some known').2,
    fun lane => ?_⟩
  by_cases own : reset = id
  · subst own
    have returned : reset ∈ (ArenaSystem.finish reset s).returned :=
      List.mem_append_right _ (List.mem_singleton_self _)
    rcases resetting.lanes lane with
      (⟨task', known', forget, planned⟩ | ⟨message, member, own, -, -⟩) | cleared | ⟨gone, -⟩
    · rw [known] at known'
      cases known'
      rw [exhausted] at planned
      cases planned
    · exact (accounted.none_inFlight returned message member own).elim
    · exact Or.inr (Or.inl ⟨cleared.empty, cleared.quiet⟩)
    · rw [known] at gone
      cases gone
  · have same : (ArenaSystem.finish id s).tasks reset = s.tasks reset :=
      Function.update_of_ne own _ _
    have harmless : Harmless reset s (ArenaSystem.finish id s) := by
      refine ⟨fun task' known' => ⟨task', same.trans known', rfl⟩, fun gone => same.trans gone,
        fun returned => ?_, fun message member own' clears => ⟨message, member, own', rfl, clears⟩,
        fun message member writes => ⟨message, member, rfl, writes⟩, rfl, rfl⟩
      rcases List.mem_append.mp returned with before | now
      · exact before
      · exact (own (List.mem_singleton.mp now)).elim
    exact harmless.lanes resetting.lanes lane

theorem runSegment {id : ℕ} {task : Task} {segment : Segment} {rest : List Segment}
    (resetting : Resetting reset s) (known : s.tasks id = some task) (idle : task.awaited = 0)
    (planned : task.rest = segment :: rest) :
    Resetting reset (runSegment id task segment rest s) := by
  have quiet := resetting.quiet id task known
  have harmless : segment.writes = false := quiet segment (planned ▸ List.mem_cons_self)
  have later : ∀ other ∈ rest, other.writes = false :=
    fun other member => quiet other (planned ▸ List.mem_cons_of_mem _ member)
  have sent : ∀ message ∈ (ArenaSystem.runSegment id task segment rest s).inFlight,
      message.post.writes = true → message ∈ s.inFlight := by
    intro message member writes
    rw [runSegment_inFlight] at member
    rcases List.mem_append.mp member with old | new
    · exact old
    · obtain ⟨lane, -, rfl⟩ := List.mem_map.mp new
      rw [segment.post_writes _ _ harmless] at writes
      cases writes
  have kept : ∀ message ∈ s.inFlight,
      message ∈ (ArenaSystem.runSegment id task segment rest s).inFlight :=
    fun message member => runSegment_inFlight id task segment rest s ▸ List.mem_append_left _ member
  refine ⟨resetting.accounted.runSegment known idle segment rest, resetting.begun,
    fun task' known' => ?_, fun other task' known' => ?_, fun lane => ?_⟩
  · by_cases own : reset = id
    · subst own
      rw [runSegment_tasks_self] at known'
      cases known'
      exact resetting.untracked task known
    · rw [runSegment_tasks_of_ne _ _ _ _ own] at known'
      obtain ⟨before, held, rfl⟩ := Option.map_eq_some_iff.mp known'
      simp [resetting.untracked before held]
  · by_cases own : other = id
    · subst own
      rw [runSegment_tasks_self] at known'
      cases known'
      exact later
    · rw [runSegment_tasks_of_ne _ _ _ _ own] at known'
      obtain ⟨before, held, rfl⟩ := Option.map_eq_some_iff.mp known'
      exact resetting.quiet other before held
  · by_cases own : reset = id
    · subst own
      rcases resetting.lanes lane with
        (⟨task', known', forget, clears⟩ | ⟨message, member, facts⟩) | cleared | ⟨gone, -⟩
      · rw [known] at known'
        cases known'
        rw [planned] at clears
        rcases List.mem_cons.mp clears with now | then_
        · subst now
          have every : ∀ lane, lane ∈ Post.fullReset.lanes := by
            intro lane
            cases lane <;> simp [Post.lanes]
          refine Or.inl (Or.inr ⟨⟨s.nextSerial, reset, lane, .fullReset, false⟩, ?_, rfl, rfl, rfl⟩)
          rw [runSegment_inFlight]
          exact List.mem_append_right _ (List.mem_map.mpr ⟨lane, every lane, rfl⟩)
        · exact Or.inl (Or.inl ⟨_, runSegment_tasks_self _ _ _ _ _, forget, then_⟩)
      · exact Or.inl (Or.inr ⟨message, kept message member, facts⟩)
      · refine Or.inr (Or.inl ⟨cleared.empty, fun message member there => ?_⟩)
        by_contra wrote
        have writes := Bool.eq_true_of_not_eq_false wrote
        exact wrote (cleared.quiet message (sent message member writes) there)
      · rw [known] at gone
        cases gone
    · have same := runSegment_tasks_of_ne task segment rest s own
      have apart : Harmless reset s (ArenaSystem.runSegment id task segment rest s) :=
        ⟨fun task' known' => ⟨_, same.trans (congrArg (Option.map _) known'), rfl⟩,
          fun gone => same.trans (congrArg (Option.map _) gone), fun returned => returned,
          fun message member own' clears => ⟨message, kept message member, own', rfl, clears⟩,
          fun message member writes => ⟨message, sent message member writes, rfl, writes⟩, rfl, rfl⟩
      exact apart.lanes resetting.lanes lane

theorem resume (resetting : Resetting reset s) (id : ℕ) : Resetting reset (resume id s) := by
  rcases resume_cases id s with
    stuck | ⟨task, known, idle, ⟨exhausted, returns⟩ | ⟨segment, rest, planned, runs⟩⟩
  · rwa [stuck]
  · rw [returns]
    exact resetting.finish known idle exhausted
  · rw [runs]
    exact resetting.runSegment known idle planned

theorem setMemoryProfile (resetting : Resetting reset s) (profileKey : String) :
    Resetting reset (setMemoryProfile profileKey s) := by
  have accounted := resetting.accounted.setMemoryProfile profileKey
  rcases setMemoryProfile_cases profileKey s with same | ⟨profile, -, -, sent⟩
  · rwa [same]
  · rw [sent] at accounted ⊢
    have other : reset ≠ s.nextTask := resetting.begun.ne
    refine resetting.of_harmless ?_ accounted (Nat.le_succ _) (fun task known => ?_)
      (fun id task known => ?_)
    · refine .of_inFlight
        (fun message member own clears => ⟨message, List.mem_append_left _ member, own, rfl, clears⟩)
        (fun message member writes => ?_) (Function.update_of_ne other _ _) rfl rfl rfl
      rcases List.mem_append.mp member with old | new
      · exact ⟨message, old, rfl, writes⟩
      · obtain ⟨lane, -, rfl⟩ := List.mem_map.mp new
        cases writes
    · rcases update_eq_some known with ⟨same, -⟩ | ⟨-, old⟩
      · exact (other same).elim
      · exact resetting.untracked task old
    · rcases update_eq_some known with ⟨-, begun⟩ | ⟨-, old⟩
      · cases begun
        exact fun _ member => by cases member
      · exact resetting.quiet id task old

theorem startMessage (resetting : Resetting reset s) (index : ℕ) :
    Resetting reset (startMessage index s) := by
  have accounted := resetting.accounted.startMessage index
  rcases startMessage_cases index s with same | ⟨message, others, perm, started⟩
  · rwa [same]
  · rw [started] at accounted ⊢
    refine resetting.of_harmless ?_ accounted le_rfl resetting.untracked resetting.quiet
    refine .of_inFlight (fun other member own clears => ?_) (fun other member writes => ?_)
      rfl rfl rfl rfl
    · rcases List.mem_cons.mp (perm.mem_iff.mp member) with rfl | there
      · exact ⟨_, List.mem_cons_self, own, rfl, clears⟩
      · exact ⟨other, List.mem_cons_of_mem _ there, own, rfl, clears⟩
    · rcases List.mem_cons.mp member with rfl | there
      · exact ⟨message, perm.mem_iff.mpr List.mem_cons_self, rfl, writes⟩
      · exact ⟨other, perm.mem_iff.mpr (List.mem_cons_of_mem _ there), rfl, writes⟩

theorem lose (resetting : Resetting reset s) (index : ℕ) : Resetting reset (lose index s) := by
  have accounted := resetting.accounted.lose index
  rcases lose_cases index s with same | ⟨message, others, perm, -, lost⟩
  · rwa [same]
  · rw [lost] at accounted ⊢
    have ended := resetting.setTask_none message.task
    refine ⟨accounted, ended.begun, ended.untracked, ended.quiet, fun lane => ?_⟩
    by_cases own : message.task = reset
    · have running : reset ∉ s.returned := fun returned =>
        resetting.accounted.none_inFlight returned message
          (perm.mem_iff.mpr List.mem_cons_self) own
      exact Or.inr (Or.inr ⟨by simp [setTask, own], running⟩)
    · have same : (setTask message.task none { s with inFlight := others }).tasks reset =
          s.tasks reset := Function.update_of_ne (fun same => own same.symm) _ _
      have harmless : Harmless reset s (setTask message.task none { s with inFlight := others }) := by
        refine .of_inFlight (fun other member own' clears => ?_)
          (fun other member writes =>
            ⟨other, perm.mem_iff.mpr (List.mem_cons_of_mem _ member), rfl, writes⟩)
          same rfl rfl rfl
        rcases List.mem_cons.mp (perm.mem_iff.mp member) with rfl | there
        · exact (own own').elim
        · exact ⟨other, there, own', rfl, clears⟩
      exact harmless.lanes resetting.lanes lane

theorem receive (resetting : Resetting reset s) (index : ℕ) :
    Resetting reset (receive index s) := by
  have accounted := resetting.accounted.receive index
  rcases receive_cases index s with same | ⟨id, arrived, others, -, received⟩
  · rwa [same]
  · rcases received with ⟨-, received⟩ | ⟨task, known, received | received⟩
    · rw [received] at accounted ⊢
      exact resetting.of_harmless (.of_same rfl rfl rfl rfl rfl) accounted le_rfl
        resetting.untracked resetting.quiet
    · rw [received] at accounted ⊢
      have ended := resetting.setTask_none id
      exact ended.of_harmless (.of_same rfl rfl rfl rfl rfl) accounted le_rfl ended.untracked
        ended.quiet
    · rw [received] at accounted ⊢
      refine resetting.of_harmless ?_ accounted le_rfl (fun task' known' => ?_)
        (fun other task' known' => ?_)
      · refine ⟨fun task' known' => ?_, fun gone => ?_, fun returned => returned,
          fun message member own clears => ⟨message, member, own, rfl, clears⟩,
          fun message member writes => ⟨message, member, rfl, writes⟩, rfl, rfl⟩
        · by_cases own : reset = id
          · subst own
            rw [known] at known'
            cases known'
            exact ⟨{ task with awaited := task.awaited - 1 }, by simp [setTask], rfl⟩
          · exact ⟨task', (Function.update_of_ne own _ _).trans known', rfl⟩
        · have own : reset ≠ id := by
            rintro rfl
            rw [known] at gone
            cases gone
          exact (Function.update_of_ne own _ _).trans gone
      · rcases update_eq_some known' with ⟨rfl, counted⟩ | ⟨-, old⟩
        · cases counted
          exact resetting.untracked task known
        · exact resetting.untracked task' old
      · rcases update_eq_some known' with ⟨rfl, counted⟩ | ⟨-, old⟩
        · cases counted
          exact resetting.quiet other task known
        · exact resetting.quiet other task' old

end Resetting

/-! #### Deliveries -/

theorem laneEmpty_handle (defaultTtl : Except String PyFloat) {message : Message}
    {lane : LaneName} (harmless : message.lane = lane → message.post.writes = false)
    (empty : LaneEmpty lane s) : LaneEmpty lane (handle defaultTtl message s) := by
  unfold handle
  cases there : message.lane <;> cases lane
  · exact RedisDBLaneAdapter.Empty.handle empty defaultTtl (harmless there)
  · exact empty
  · exact empty
  · exact DBOnlyLaneAdapter.Empty.handle empty (harmless there)

theorem laneEmpty_handle_of_clears (defaultTtl : Except String PyFloat) {message : Message}
    (clears : message.post.clears = true) :
    LaneEmpty message.lane (handle defaultTtl message s) := by
  have full : message.post = .fullReset := by
    cases posted : message.post <;> rw [posted] at clears <;> first | rfl | cases clears
  unfold handle
  cases there : message.lane
  · show (RedisDBLaneAdapter.handle defaultTtl message.post s.laneA).2.Empty
    rw [full]
    exact RedisDBLaneAdapter.handle_fullReset defaultTtl s.laneA
  · show (DBOnlyLaneAdapter.handle message.post s.laneB).2.Empty
    rw [full]
    exact DBOnlyLaneAdapter.handle_fullReset s.laneB

/-- When a lane takes a clear of the reset, no write to that lane is on its way. -/
def clearsBehindWrites {σ : Type} (reset : ℕ) : Action → ArenaSystem σ → Bool
  | .deliver index, s =>
    match pick s.inFlight index with
    | none => true
    | some (message, others) =>
      !(message.started && message.task = reset && message.post.clears) ||
        others.all (fun other => other.lane ≠ message.lane || !other.post.writes)
  | _, _ => true

/-- The start of new work: a command or a scenario. -/
def Action.issuesWork : Action → Bool
  | .executeCommand _ | .runScenario _ => true
  | _ => false

/-- Every call that has a write before it is held by the runner, which a reset cancels. -/
def HoldsWriters {σ : Type} (s : ArenaSystem σ) : Prop :=
  ∀ id task, s.tasks id = some task → task.tracked = false →
    ∀ segment ∈ task.rest, segment.writes = false

namespace Resetting

theorem deliver (defaultTtl : Except String PyFloat) (resetting : Resetting reset s) (index : ℕ)
    (behind : clearsBehindWrites reset (.deliver index) s = true) :
    Resetting reset (deliver defaultTtl index s) := by
  have accounted := resetting.accounted.deliver defaultTtl index
  rcases deliver_cases defaultTtl index s with same | ⟨message, others, picked, started, delivered⟩
  · rwa [same]
  · rw [delivered] at accounted ⊢
    have member : message ∈ s.inFlight := mem_of_pick picked
    have fewer : ∀ other ∈ (handle defaultTtl message { s with inFlight := others }).inFlight,
        other ∈ s.inFlight := by
      intro other remaining
      rw [handle_inFlight] at remaining
      exact mem_of_mem_picked picked remaining
    refine ⟨accounted, by simpa using resetting.begun, by simpa using resetting.untracked,
      by simpa using resetting.quiet, fun lane => ?_⟩
    by_cases clearing : message.task = reset ∧ message.lane = lane ∧ message.post.clears = true
    · obtain ⟨own, rfl, clears⟩ := clearing
      refine Or.inr (Or.inl ⟨laneEmpty_handle_of_clears defaultTtl clears, ?_⟩)
      have quiet : ∀ other ∈ others, other.lane = message.lane → other.post.writes = false := by
        simpa [clearsBehindWrites, picked, started, own, clears, List.all_eq_true,
          ← imp_iff_not_or] using behind
      intro other remaining there
      rw [handle_inFlight] at remaining
      exact quiet other remaining there
    · rcases resetting.lanes lane with
        (⟨task, known, planned⟩ | ⟨other, before, own, there, clears⟩) | cleared | ⟨gone, running⟩
      · exact Or.inl (Or.inl ⟨task, by simpa using known, planned⟩)
      · rcases eq_or_mem_of_picked picked before with same | remaining
        · rw [same] at own there clears
          exact (clearing ⟨own, there, clears⟩).elim
        · exact Or.inl (Or.inr ⟨other, by simpa using remaining, own, there, clears⟩)
      · refine Or.inr (Or.inl ⟨?_, fun other remaining there => ?_⟩)
        · exact laneEmpty_handle defaultTtl (cleared.quiet message member) cleared.empty
        · exact cleared.quiet other (fewer other remaining) there
      · exact Or.inr (Or.inr ⟨by simpa using gone, by simpa using running⟩)

theorem step (defaultTtl : Except String PyFloat) (a : Action) (resetting : Resetting reset s)
    (idle : a.issuesWork = false) (behind : clearsBehindWrites reset a s = true) :
    Resetting reset (step defaultTtl a s) := by
  cases a with
  | executeCommand input => cases idle
  | runScenario input => cases idle
  | resetScenarios =>
    exact resetting.cancelTracked.beginTask false (by simp [resetSegments, Segment.writes])
  | resetState =>
    exact (resetting.beginTask false (by simp [resetSegments, Segment.writes])).resume _
  | setMemoryProfile profileKey => exact resetting.setMemoryProfile profileKey
  | setTtlProfile profileKey =>
    exact resetting.of_harmless (.of_same rfl rfl rfl rfl rfl)
      (resetting.accounted.step defaultTtl (.setTtlProfile profileKey)) le_rfl
      resetting.untracked resetting.quiet
  | resume id => exact resetting.resume id
  | start index => exact resetting.startMessage index
  | deliver index => exact resetting.deliver defaultTtl index behind
  | receive index => exact resetting.receive index
  | lose index => exact resetting.lose index
  | fail id => exact resetting.setTask_none id

/-- A reset that returned before the last message was delivered has emptied both lanes. -/
theorem empty (resetting : Resetting reset s) (returned : reset ∈ s.returned)
    (delivered : s.inFlight = []) (lane : LaneName) : LaneEmpty lane s := by
  rcases resetting.lanes lane with
    (⟨task, known, -⟩ | ⟨message, member, -⟩) | cleared | ⟨-, running⟩
  · exact (resetting.accounted.not_returned known returned).elim
  · rw [delivered] at member
    cases member
  · exact cleared.empty
  · exact (running returned).elim

theorem begin_reset (accounted : Accounted s) (held : s.HoldsWriters) :
    Resetting s.nextTask
      (ArenaSystem.beginTask false (resetSegments true) (ArenaSystem.cancelTracked s)) := by
  have known : (ArenaSystem.beginTask false (resetSegments true)
      (ArenaSystem.cancelTracked s)).tasks s.nextTask = some ⟨false, 0, resetSegments true⟩ :=
    Function.update_self s.nextTask _ _
  refine ⟨accounted.cancelTracked.beginTask false _, Nat.lt_succ_self _, fun task begun => ?_,
    fun id task begun => ?_, fun lane => Or.inl (Or.inl ⟨_, known, true, List.mem_cons_self⟩)⟩
  · rw [known] at begun
    cases begun
    rfl
  · rcases update_eq_some begun with ⟨-, here⟩ | ⟨-, old⟩
    · cases here
      simp [resetSegments, Segment.writes]
    · obtain ⟨before, untracked⟩ := Option.filter_eq_some_iff.mp old
      exact held id task before (by simpa using untracked)

end Resetting

/-! ### Resets that leave nothing behind -/

/-- A reset and whatever follows it, but for new commands and scenarios: once it has returned and
nothing is in flight, both repositories and the cache are empty. When it begins the runner must
hold every call with a write before it, and when a lane takes the reset's clear no write to that
lane may be on its way. -/
theorem reset_leaves_empty {defaultTtl : Except String PyFloat}
    (reachable : Reachable defaultTtl s) (held : s.HoldsWriters) {later : List Action}
    (idle : ∀ a ∈ later, a.issuesWork = false)
    (behind : EachStep (ArenaSystem.step defaultTtl)
      (fun a s => clearsBehindWrites reset a s = true) later
      (ArenaSystem.step defaultTtl .resetScenarios s))
    (begun : reset = s.nextTask)
    (ended : s' = runAll (ArenaSystem.step defaultTtl) (.resetScenarios :: later) s)
    (returned : reset ∈ s'.returned) (delivered : s'.inFlight = []) :
    s'.laneA.repository.documents = Dict.empty ∧ s'.laneA.redisClient.entries = Dict.empty ∧
      s'.laneB.repository.documents = Dict.empty := by
  subst begun
  have started : Resetting s.nextTask (ArenaSystem.step defaultTtl .resetScenarios s) :=
    Resetting.begin_reset reachable.accounted held
  have resetting : Resetting s.nextTask s' := by
    rw [ended]
    show Resetting _ (runAll _ later (ArenaSystem.step defaultTtl .resetScenarios s))
    refine invariant_of_eachStep (fun a _ allowed before => ?_) (behind.and_legal idle) started
    exact before.step defaultTtl a allowed.1 allowed.2
  have emptyA : s'.laneA.Empty := resetting.empty returned delivered .redisDb
  exact ⟨emptyA.repository, emptyA.cache, resetting.empty returned delivered .dbOnly⟩

private theorem Accounted.holdsWriters (accounted : Accounted s)
    (checked : ∀ id < s.nextTask, ∀ task ∈ s.tasks id,
      task.tracked = true ∨ task.rest.all (fun segment => !segment.writes) = true) :
    s.HoldsWriters := by
  intro id task known untracked segment member
  rcases checked id (accounted.lt_of_known known) task known with tracked | harmless
  · rw [untracked] at tracked
    cases tracked
  · simpa using List.all_eq_true.mp harmless segment member

/-- The scenario that writes one key. -/
def oneWrite : ScenarioRunInput where
  scenarioId := .write
  users := 1
  durationSeconds := 1

/-- The scenario sends its write, and a thread takes the copy for lane A. -/
def writing : List Action := [.runScenario oneWrite, .resume 0, .start 0]

/-- The reset as the second call, from its first clear to its return, while so many other posts
are in flight. -/
def resetAmong (others : ℕ) : List Action :=
  [.resume 1, .start others, .start (others + 1), .deliver 0, .deliver 0, .receive 0, .receive 0,
    .resume 1, .start others, .deliver 0, .receive 0, .resume 1]

/-- A scenario whose write both lanes have taken before the reset begins. -/
theorem reset_after_write_leaves_empty :
    let s := runAll (ArenaSystem.step (.ok (.ofRat 5)))
      (writing ++ [.deliver 0, .start 0, .deliver 0, .receive 0, .receive 0]) idleArena
    let s' := runAll (ArenaSystem.step (.ok (.ofRat 5))) (.resetScenarios :: resetAmong 0) s
    (s.laneA.repository.documents.size = 1 ∧ s'.returned = [1]) ∧
      s'.laneA.repository.documents = Dict.empty ∧ s'.laneA.redisClient.entries = Dict.empty ∧
        s'.laneB.repository.documents = Dict.empty := by
  have reachable : Reachable (.ok (.ofRat 5)) (runAll (ArenaSystem.step (.ok (.ofRat 5)))
      (writing ++ [.deliver 0, .start 0, .deliver 0, .receive 0, .receive 0]) idleArena) :=
    ⟨_, _, _, _, _, rfl⟩
  have idle : ∀ a ∈ resetAmong 0, a.issuesWork = false := by decide +kernel
  have second : 1 = (runAll (ArenaSystem.step (.ok (.ofRat 5)))
      (writing ++ [.deliver 0, .start 0, .deliver 0, .receive 0, .receive 0]) idleArena).nextTask := by
    decide +kernel
  refine ⟨by decide +kernel, ?_⟩
  exact reset_leaves_empty reachable (reachable.accounted.holdsWriters (by decide +kernel)) idle
    (by decide +kernel) second rfl (by decide +kernel) (List.isEmpty_iff.mp (by decide +kernel))

/-- Lane A takes the write of the cancelled scenario after it took the clear of the reset. -/
theorem overtaking_write_survives_reset :
    ∃ s s' : ArenaSystem InMemoryMiniRedisClient, ∃ later, Reachable (.ok (.ofRat 5)) s ∧
      (∀ a ∈ later, a.issuesWork = false) ∧
      s' = runAll (ArenaSystem.step (.ok (.ofRat 5))) (.resetScenarios :: later) s ∧
      s.nextTask ∈ s'.returned ∧ s'.inFlight = [] ∧
      ¬ (s'.laneA.repository.documents = Dict.empty ∧ s'.laneA.redisClient.entries = Dict.empty ∧
        s'.laneB.repository.documents = Dict.empty) := by
  refine ⟨runAll _ writing idleArena, _, resetAmong 1 ++ [.deliver 0], ⟨_, _, _, _, _, rfl⟩,
    by decide +kernel, rfl, by decide +kernel, List.isEmpty_iff.mp (by decide +kernel), ?_⟩
  rintro ⟨nothing, -⟩
  have stored : (runAll (ArenaSystem.step (.ok (.ofRat 5)))
      (.resetScenarios :: (resetAmong 1 ++ [.deliver 0]))
      (runAll (ArenaSystem.step (.ok (.ofRat 5))) writing idleArena)).laneA.repository.documents.keys =
        ["s:w:000"] := by decide +kernel
  rw [nothing] at stored
  cases stored

end ArenaSystem

end MiniRedis.Arena
