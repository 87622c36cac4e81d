/- GID: MiniRedis/Arena/MemoryLock
   generality: I
   digest: The memory profile of a running experiment stays unless a change is already on its way. -/

import MiniRedis.Arena.GatewayRuns

set_option autoImplicit false
set_option relaxedAutoImplicit false

namespace MiniRedis.Arena

open MiniRedis.Base MiniRedis.Python

/-! ### The experiment as lane A sees it -/

/-- Before the first reset; cleared by a reset; executing requests since. -/
inductive Window where
  | before
  | cleared
  | running
  deriving DecidableEq

/-- With the key of the profile that was configured last. -/
structure LaneMemory where
  window : Window := .before
  inEffect : Option String := none

/-- Lane A executes a request that passes its checks. -/
def Post.executes : Post → Bool
  | .execute request => request.validatePayload.isSome
  | .fullReset | .seed _ | .configureMemory _ _ => false

/-- The key of the profile that the post configures. -/
def Post.profileKey? : Post → Option String
  | .configureMemory profileKey _ => some profileKey
  | .execute _ | .fullReset | .seed _ => none

namespace LaneMemory

def observe (memory : LaneMemory) (post : Post) : LaneMemory :=
  match post with
  | .fullReset => { memory with window := .cleared }
  | .configureMemory profileKey _ => { memory with inEffect := some profileKey }
  | .seed _ => memory
  | .execute request =>
    if request.validatePayload.isSome ∧ memory.window = .cleared then
      { memory with window := .running }
    else memory

/-- The post changes no profile of a running experiment. -/
def Keeps (memory : LaneMemory) (post : Post) : Prop :=
  memory.window = .running → ∀ profileKey ∈ post.profileKey?, memory.inEffect = some profileKey

instance (memory : LaneMemory) (post : Post) : Decidable (memory.Keeps post) :=
  inferInstanceAs (Decidable (_ → ∀ profileKey ∈ post.profileKey?, _))

/-- No post of the history changes the profile of a running experiment. -/
def KeepsProfile : LaneMemory → List Post → Prop
  | _, [] => True
  | memory, post :: later => memory.Keeps post ∧ KeepsProfile (memory.observe post) later

instance decidableKeepsProfile :
    ∀ (memory : LaneMemory) (posts : List Post), Decidable (KeepsProfile memory posts)
  | _, [] => inferInstanceAs (Decidable True)
  | memory, post :: later =>
    have := decidableKeepsProfile (memory.observe post) later
    inferInstanceAs (Decidable (memory.Keeps post ∧ KeepsProfile (memory.observe post) later))

theorem keepsProfile_append (memory : LaneMemory) (posts : List Post) (post : Post) :
    KeepsProfile memory (posts ++ [post]) ↔
      KeepsProfile memory posts ∧ (posts.foldl observe memory).Keeps post := by
  induction posts generalizing memory with
  | nil => simp [KeepsProfile]
  | cons first posts ih => simp only [List.cons_append, KeepsProfile, List.foldl_cons, ih, and_assoc]

end LaneMemory

namespace ArenaSystem

variable {s s' : ArenaSystem InMemoryMiniRedisClient}

def memory (s : ArenaSystem InMemoryMiniRedisClient) : LaneMemory :=
  (s.handledA.map Handled.post).foldl LaneMemory.observe {}

/-- Between the first request that lane A executes after a clear and the next clear, it has
taken no configuration with another profile than the one in effect. -/
def KeepsProfile (s : ArenaSystem InMemoryMiniRedisClient) : Prop :=
  LaneMemory.KeepsProfile {} (s.handledA.map Handled.post)

instance (s : ArenaSystem InMemoryMiniRedisClient) : Decidable s.KeepsProfile :=
  inferInstanceAs (Decidable (LaneMemory.KeepsProfile {} _))

/-! ### The lock -/

/-- Every configuration on its way carries the profile in effect. -/
def configuresInEffect (messages : List Message) (memory : LaneMemory) : Bool :=
  messages.all (fun message =>
    !(message.lane = .redisDb) || message.post.profileKey?.all (memory.inEffect = some ·))

/-- When lane A executes the first request after a clear, the lock is set and no configuration
with another profile is on its way; and the lock is released only before that. -/
def locksInTime : Action → ArenaSystem InMemoryMiniRedisClient → Bool
  | .deliver index, s =>
    match pick s.inFlight index with
    | none => true
    | some (message, others) =>
      !(message.started && message.lane = .redisDb && message.post.executes &&
          s.memory.window = .cleared) ||
        (s.gateway.memoryLocked && configuresInEffect others s.memory)
  | .resume id, s =>
    match s.tasks id with
    | some ⟨_, 0, .restoreMemory :: _⟩ => s.memory.window ≠ .running
    | _ => true
  | _, _ => true

/-- While an experiment runs the lock is set, and no other profile is on its way. -/
structure LockedWhileRunning (s : ArenaSystem InMemoryMiniRedisClient) : Prop where
  keeps : s.KeepsProfile
  locked : s.memory.window = .running → s.gateway.memoryLocked = true
  inFlight : s.memory.window = .running → configuresInEffect s.inFlight s.memory = true

theorem configuresInEffect_of_subset {messages messages' : List Message} {memory : LaneMemory}
    (sub : ∀ message ∈ messages', ∃ message' ∈ messages,
      message'.lane = message.lane ∧ message'.post = message.post)
    (inEffect : configuresInEffect messages memory = true) :
    configuresInEffect messages' memory = true := by
  refine List.all_eq_true.mpr (fun message member => ?_)
  obtain ⟨message', member', lane, post⟩ := sub message member
  have known := List.all_eq_true.mp inEffect message' member'
  rwa [lane, post] at known

namespace LockedWhileRunning

theorem of_quiet (locked : LockedWhileRunning s) (handled : s'.handledA = s.handledA)
    (kept : s.gateway.memoryLocked = true → s'.gateway.memoryLocked = true)
    (sub : ∀ message ∈ s'.inFlight, message.post.profileKey? = none ∨
      ∃ message' ∈ s.inFlight, message'.lane = message.lane ∧ message'.post = message.post) :
    LockedWhileRunning s' := by
  have same : s'.memory = s.memory := by rw [memory, handled, memory]
  refine ⟨?_, fun running => ?_, fun running => ?_⟩
  · rw [KeepsProfile, handled]
    exact locked.keeps
  · rw [same] at running
    exact kept (locked.locked running)
  · rw [same] at running ⊢
    refine List.all_eq_true.mpr (fun message member => ?_)
    rcases sub message member with none | ⟨message', member', lane, post⟩
    · simp [none]
    · have known := List.all_eq_true.mp (locked.inFlight running) message' member'
      rwa [lane, post] at known

theorem of_not_running (locked : LockedWhileRunning s) (handled : s'.handledA = s.handledA)
    (idle : s.memory.window ≠ .running) : LockedWhileRunning s' := by
  have same : s'.memory = s.memory := by rw [memory, handled, memory]
  refine ⟨?_, fun running => ?_, fun running => ?_⟩
  · rw [KeepsProfile, handled]
    exact locked.keeps
  · exact (idle (same ▸ running)).elim
  · exact (idle (same ▸ running)).elim

theorem runSegment (locked : LockedWhileRunning s) (id : ℕ) (task : Task) {segment : Segment}
    (rest : List Segment) (released : segment = .restoreMemory → s.memory.window ≠ .running) :
    LockedWhileRunning (runSegment id task segment rest s) := by
  have quiet : (segment.run (s.requestIds s.nextSerial) s.gateway).2.profileKey? = none →
      ∀ message ∈ (ArenaSystem.runSegment id task segment rest s).inFlight,
        message.post.profileKey? = none ∨ ∃ message' ∈ s.inFlight,
          message'.lane = message.lane ∧ message'.post = message.post := by
    intro none message member
    rw [runSegment_inFlight] at member
    rcases List.mem_append.mp member with before | now
    · exact Or.inr ⟨message, before, rfl, rfl⟩
    · obtain ⟨lane, -, rfl⟩ := List.mem_map.mp now
      exact Or.inl none
  cases segment with
  | execute input => exact locked.of_quiet rfl (fun _ => rfl) (quiet rfl)
  | seed documents => exact locked.of_quiet rfl (fun before => before) (quiet rfl)
  | clearLanes forget => exact locked.of_quiet rfl (fun before => before) (quiet rfl)
  | restoreMemory => exact locked.of_not_running rfl (released rfl)

theorem resume (locked : LockedWhileRunning s) (id : ℕ)
    (released : ∀ task rest, s.tasks id = some task → task.awaited = 0 →
      task.rest = .restoreMemory :: rest → s.memory.window ≠ .running) :
    LockedWhileRunning (resume id s) := by
  rcases resume_cases id s with
    stuck | ⟨task, known, idle, ⟨-, returns⟩ | ⟨segment, rest, planned, runs⟩⟩
  · rwa [stuck]
  · rw [returns]
    exact locked.of_quiet rfl (fun before => before)
      (fun message member => Or.inr ⟨message, member, rfl, rfl⟩)
  · rw [runs]
    refine locked.runSegment id task rest (fun restores => ?_)
    exact released task rest known idle (restores ▸ planned)

theorem begun (locked : LockedWhileRunning s) (segment : Segment) (rest : List Segment)
    (keeps : segment ≠ .restoreMemory) :
    LockedWhileRunning
      (ArenaSystem.resume s.nextTask (beginTask false (segment :: rest) s)) := by
  have started : LockedWhileRunning (beginTask false (segment :: rest) s) :=
    locked.of_quiet rfl (fun before => before)
      (fun message member => Or.inr ⟨message, member, rfl, rfl⟩)
  refine started.resume s.nextTask (fun task later known _ planned => ?_)
  have own : (beginTask false (segment :: rest) s).tasks s.nextTask =
      some ⟨false, 0, segment :: rest⟩ := Function.update_self _ _ _
  rw [own] at known
  cases known
  exact (keeps (List.cons.inj planned).1).elim

theorem setMemoryProfile (locked : LockedWhileRunning s) (profileKey : String) :
    LockedWhileRunning (setMemoryProfile profileKey s) := by
  rcases setMemoryProfile_cases profileKey s with same | ⟨profile, -, unlocked, sent⟩
  · rwa [same]
  · rw [sent]
    refine locked.of_not_running rfl (fun running => ?_)
    rw [locked.locked running] at unlocked
    cases unlocked

theorem of_fewer (locked : LockedWhileRunning s) (handled : s'.handledA = s.handledA)
    (gateway : s'.gateway = s.gateway)
    (sub : ∀ message ∈ s'.inFlight, ∃ message' ∈ s.inFlight,
      message'.lane = message.lane ∧ message'.post = message.post) : LockedWhileRunning s' :=
  locked.of_quiet handled (fun before => gateway ▸ before) (fun message member =>
    Or.inr (sub message member))

private theorem handled_by_laneA (locked : LockedWhileRunning s) {message : Message}
    {others : List Message} (perm : s.inFlight.Perm (message :: others))
    (there : message.lane = .redisDb) (handled : s'.handledA.map Handled.post =
      s.handledA.map Handled.post ++ [message.post])
    (gateway : s'.gateway = s.gateway) (inFlight : s'.inFlight = others)
    (opens : message.post.executes = true → s.memory.window = .cleared →
      s.gateway.memoryLocked = true ∧ configuresInEffect others s.memory = true) :
    LockedWhileRunning s' := by
  have grown : s'.memory = s.memory.observe message.post := by
    rw [memory, handled, List.foldl_append]
    rfl
  have remaining : s.memory.window = .running → configuresInEffect others s.memory = true :=
    fun running => configuresInEffect_of_subset
      (fun other member => ⟨other, perm.mem_iff.mpr (List.mem_cons_of_mem _ member), rfl, rfl⟩)
      (locked.inFlight running)
  have own : s.memory.Keeps message.post := by
    intro running profileKey configures
    have known := List.all_eq_true.mp (locked.inFlight running) message
      (perm.mem_iff.mpr List.mem_cons_self)
    have carried : message.post.profileKey? = some profileKey := configures
    simpa [there, carried] using known
  have keeps : s'.KeepsProfile := by
    rw [KeepsProfile, handled, LaneMemory.keepsProfile_append]
    exact ⟨locked.keeps, own⟩
  suffices running : s'.memory.window = .running →
      s.gateway.memoryLocked = true ∧ configuresInEffect others s'.memory = true from
    ⟨keeps, fun now => gateway ▸ (running now).1, fun now => inFlight ▸ (running now).2⟩
  rw [grown]
  intro now
  cases posted : message.post with
  | fullReset =>
    rw [posted] at now
    cases now
  | seed seedInput =>
    rw [posted] at now
    exact ⟨locked.locked now, remaining now⟩
  | configureMemory profileKey maxMemoryBytes =>
    rw [posted] at now own
    have running : s.memory.window = .running := now
    have inEffect := own running profileKey rfl
    have same : s.memory.observe (.configureMemory profileKey maxMemoryBytes) = s.memory := by
      show { s.memory with inEffect := some profileKey } = s.memory
      rw [← inEffect]
    rw [same]
    exact ⟨locked.locked running, remaining running⟩
  | execute request =>
    rw [posted] at now opens
    simp only [LaneMemory.observe] at now ⊢
    split at now
    · rename_i first
      rw [if_pos first]
      exact opens first.1 first.2
    · rename_i later
      rw [if_neg later]
      exact ⟨locked.locked now, remaining now⟩

theorem deliver (defaultTtl : Except String PyFloat) (locked : LockedWhileRunning s) (index : ℕ)
    (inTime : locksInTime (.deliver index) s = true) :
    LockedWhileRunning (deliver defaultTtl index s) := by
  rcases deliver_cases defaultTtl index s with same | ⟨message, others, picked, started, delivered⟩
  · rwa [same]
  · rw [delivered]
    cases there : message.lane with
    | redisDb =>
      refine locked.handled_by_laneA (pick_perm picked) there ?_ (by simp) (by simp)
        (fun executes cleared => ?_)
      · simp [handle, there]
      · simpa [locksInTime, picked, started, there, executes, cleared] using inTime
    | dbOnly =>
      refine locked.of_fewer ?_ (by simp) (fun other member => ?_)
      · simp [handle, there]
      · rw [handle_inFlight] at member
        exact ⟨other, mem_of_mem_picked picked member, rfl, rfl⟩

theorem step (defaultTtl : Except String PyFloat) (a : Action) (locked : LockedWhileRunning s)
    (inTime : locksInTime a s = true) : LockedWhileRunning (step defaultTtl a s) := by
  cases a with
  | executeCommand input => exact locked.begun (.execute input) [] (by simp)
  | resetState => exact locked.begun (.clearLanes false) [.restoreMemory] (by simp)
  | setMemoryProfile profileKey => exact locked.setMemoryProfile profileKey
  | resume id =>
    refine locked.resume id (fun task rest known idle planned => ?_)
    obtain ⟨tracked, awaited, segments⟩ := task
    obtain rfl : awaited = 0 := idle
    obtain rfl : segments = .restoreMemory :: rest := planned
    simpa [locksInTime, known] using inTime
  | deliver index => exact locked.deliver defaultTtl index inTime
  | start index =>
    rcases startMessage_cases index s with same | ⟨message, others, perm, started⟩
    · show LockedWhileRunning (startMessage index s)
      rwa [same]
    · show LockedWhileRunning (startMessage index s)
      rw [started]
      refine locked.of_fewer rfl rfl (fun other member => ?_)
      rcases List.mem_cons.mp member with rfl | there
      · exact ⟨message, perm.mem_iff.mpr List.mem_cons_self, rfl, rfl⟩
      · exact ⟨other, perm.mem_iff.mpr (List.mem_cons_of_mem _ there), rfl, rfl⟩
  | receive index =>
    have fewer : ∀ replies, LockedWhileRunning { s with replies := replies } := fun replies =>
      locked.of_fewer rfl rfl (fun message member => ⟨message, member, rfl, rfl⟩)
    show LockedWhileRunning (receive index s)
    rcases receive_cases index s with same | ⟨id, arrived, others, -, received⟩
    · rwa [same]
    · rcases received with ⟨-, received⟩ | ⟨task, -, received | received⟩ <;> rw [received]
      · exact fewer others
      · exact locked.of_fewer rfl rfl (fun message member => ⟨message, member, rfl, rfl⟩)
      · exact locked.of_fewer rfl rfl (fun message member => ⟨message, member, rfl, rfl⟩)
  | lose index =>
    show LockedWhileRunning (lose index s)
    rcases lose_cases index s with same | ⟨message, others, perm, -, lost⟩
    · rwa [same]
    · rw [lost]
      exact locked.of_fewer rfl rfl (fun other member =>
        ⟨other, perm.mem_iff.mpr (List.mem_cons_of_mem _ member), rfl, rfl⟩)
  | resetScenarios =>
    exact locked.of_fewer rfl rfl (fun message member =>
      ⟨message, (List.mem_filter.mp member).1, rfl, rfl⟩)
  | setTtlProfile profileKey =>
    refine locked.of_quiet rfl (fun before => ?_) (fun message member =>
      Or.inr ⟨message, member, rfl, rfl⟩)
    show (s.gateway.setTtlProfile profileKey).memoryLocked = true
    rwa [ArenaGatewayService.setTtlProfile_memoryLocked]
  | runScenario input =>
    exact locked.of_fewer rfl rfl (fun message member => ⟨message, member, rfl, rfl⟩)
  | fail id => exact locked.of_fewer rfl rfl (fun message member => ⟨message, member, rfl, rfl⟩)

end LockedWhileRunning

/-! ### Runs that lock in time -/

theorem lockedWhileRunning_start (gateway : ArenaGatewayService) (laneA : InMemoryLane)
    (laneB : DBOnlyLaneAdapter) (requestIds : ℕ → String) :
    LockedWhileRunning (start gateway laneA laneB requestIds) where
  keeps := trivial
  locked running := by cases running
  inFlight running := by cases running

/-- In every run whose steps lock in time, no configuration changes the profile of a running
experiment. -/
theorem experiment_keeps_profile {defaultTtl : Except String PyFloat}
    (gateway : ArenaGatewayService) (laneA : InMemoryLane) (laneB : DBOnlyLaneAdapter)
    (requestIds : ℕ → String) {actions : List Action}
    (inTime : EachStep (ArenaSystem.step defaultTtl) (fun a s => locksInTime a s = true) actions
      (start gateway laneA laneB requestIds)) :
    Always (ArenaSystem.step defaultTtl) KeepsProfile actions
      (start gateway laneA laneB requestIds) :=
  always_of_eachStep (fun a _ met locked => locked.step defaultTtl a met)
    (fun _ locked => locked.keeps) inTime
    (lockedWhileRunning_start gateway laneA laneB requestIds)

/-- A reset, a change of the profile and a command; lane A takes the change before the command
or, if `overtaken`, after it. -/
def profileChange (overtaken : Bool) : List Action :=
  [.resetState, .start 0, .deliver 0, .start 0, .deliver 0, .receive 0, .receive 0, .resume 0,
    .start 0, .deliver 0, .receive 0, .resume 0, .setMemoryProfile "small", .start 0,
    .executeCommand { command := .get, key := "k" }, .start 1] ++
    if overtaken then [.deliver 0, .deliver 0] else [.deliver 1, .deliver 0]

theorem settled_change_keeps_profile :
    ((runAll (ArenaSystem.step (.ok (.ofRat 5))) (profileChange false)
        idleArena).memory.window = .running ∧
      (runAll (ArenaSystem.step (.ok (.ofRat 5))) (profileChange false)
        idleArena).memory.inEffect = some "small") ∧
    Always (ArenaSystem.step (.ok (.ofRat 5))) KeepsProfile (profileChange false) idleArena :=
  ⟨by decide +kernel, experiment_keeps_profile _ _ _ _ (by decide +kernel)⟩

/-- Lane A executes the command under the profile of the reset, then takes the change. -/
theorem overtaken_change_breaks_profile :
    ∃ actions : List Action,
      ¬ Always (ArenaSystem.step (.ok (.ofRat 5))) KeepsProfile actions idleArena ∧
      (runAll (ArenaSystem.step (.ok (.ofRat 5))) actions idleArena).gateway.memoryLocked = true ∧
      (runAll (ArenaSystem.step (.ok (.ofRat 5))) actions
        idleArena).laneA.redisClient.maxMemoryBytes = some 256 := by
  refine ⟨profileChange true, ?_, by decide +kernel, by decide +kernel⟩
  decide +kernel

end ArenaSystem

end MiniRedis.Arena
