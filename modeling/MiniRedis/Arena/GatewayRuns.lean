/- GID: MiniRedis/Arena/GatewayRuns
   generality: I
   digest: A call of the gateway awaits just the posts it has out, and returns with none. -/

import MiniRedis.Arena.Gateway

set_option autoImplicit false
set_option relaxedAutoImplicit false

namespace MiniRedis.Arena

open MiniRedis.Base MiniRedis.Python

namespace ArenaSystem

variable {σ : Type} {s : ArenaSystem σ} {id : ℕ} {task : Task}

/-! ### What a resumption and a message can do -/

/-- A coroutine that is resumed goes on only if it awaits nothing: it returns, or it runs its
next segment. -/
theorem resume_cases (id : ℕ) (s : ArenaSystem σ) :
    resume id s = s ∨
      ∃ task, s.tasks id = some task ∧ task.awaited = 0 ∧
        (task.rest = [] ∧ resume id s = finish id s ∨
          ∃ segment rest, task.rest = segment :: rest ∧
            resume id s = runSegment id task segment rest s) := by
  unfold resume
  cases known : s.tasks id with
  | none => exact Or.inl rfl
  | some task =>
    by_cases idle : task.awaited = 0
    · refine Or.inr ⟨task, rfl, idle, ?_⟩
      simp only [idle, if_true]
      cases planned : task.rest with
      | nil => exact Or.inl ⟨rfl, rfl⟩
      | cons segment rest => exact Or.inr ⟨segment, rest, rfl, rfl⟩
    · exact Or.inl (if_neg idle)

theorem runSegment_tasks_self (id : ℕ) (task : Task) (segment : Segment) (rest : List Segment)
    (s : ArenaSystem σ) :
    (runSegment id task segment rest s).tasks id =
      some { task with
        rest := rest
        awaited := (segment.run (s.requestIds s.nextSerial) s.gateway).2.lanes.length } :=
  Function.update_self id _ _

theorem runSegment_tasks_of_ne (task : Task) (segment : Segment) (rest : List Segment)
    (s : ArenaSystem σ) {other : ℕ} (apart : other ≠ id) :
    (runSegment id task segment rest s).tasks other =
      (s.tasks other).map
        (fun task => { task with tracked := task.tracked && !segment.forgets }) :=
  Function.update_of_ne apart _ _

theorem runSegment_inFlight (id : ℕ) (task : Task) (segment : Segment) (rest : List Segment)
    (s : ArenaSystem σ) :
    (runSegment id task segment rest s).inFlight =
      s.inFlight ++ (segment.run (s.requestIds s.nextSerial) s.gateway).2.lanes.map (fun lane =>
        ⟨s.nextSerial, id, lane, (segment.run (s.requestIds s.nextSerial) s.gateway).2, false⟩) :=
  rfl

theorem setMemoryProfile_cases (profileKey : String) (s : ArenaSystem σ) :
    setMemoryProfile profileKey s = s ∨
      ∃ profile, MemoryProfile.ofKey? profileKey = some profile ∧ s.gateway.memoryLocked = false ∧
        setMemoryProfile profileKey s =
          send s.nextTask ⟨false, 0, []⟩
            (.configureMemory profile.key profile.maxMemoryBytes)
            { s with
              gateway := { s.gateway with selectedMemoryProfile := profile }
              nextTask := s.nextTask + 1 } := by
  unfold setMemoryProfile
  cases supported : MemoryProfile.ofKey? profileKey with
  | none => exact Or.inl rfl
  | some profile =>
    cases locked : s.gateway.memoryLocked with
    | true => exact Or.inl rfl
    | false => exact Or.inr ⟨profile, rfl, rfl, rfl⟩

theorem startMessage_cases (index : ℕ) (s : ArenaSystem σ) :
    startMessage index s = s ∨
      ∃ message others, s.inFlight.Perm (message :: others) ∧
        startMessage index s = { s with inFlight := { message with started := true } :: others } := by
  unfold startMessage
  cases picked : pick s.inFlight index with
  | none => exact Or.inl rfl
  | some taken => exact Or.inr ⟨taken.1, taken.2, pick_perm picked, rfl⟩

theorem lose_cases (index : ℕ) (s : ArenaSystem σ) :
    lose index s = s ∨
      ∃ message others, s.inFlight.Perm (message :: others) ∧ message.started = true ∧
        lose index s = setTask message.task none { s with inFlight := others } := by
  unfold lose
  cases picked : pick s.inFlight index with
  | none => exact Or.inl rfl
  | some taken =>
    cases started : taken.1.started with
    | false => exact Or.inl (by simp [started])
    | true =>
      exact Or.inr ⟨taken.1, taken.2, pick_perm picked, started, by simp [started]⟩

theorem deliver_cases [MiniRedisClient σ] (defaultTtl : Except String PyFloat) (index : ℕ)
    (s : ArenaSystem σ) :
    deliver defaultTtl index s = s ∨
      ∃ message others, pick s.inFlight index = some (message, others) ∧ message.started = true ∧
        deliver defaultTtl index s = handle defaultTtl message { s with inFlight := others } := by
  unfold deliver
  cases picked : pick s.inFlight index with
  | none => exact Or.inl rfl
  | some taken =>
    cases started : taken.1.started with
    | false => exact Or.inl (by simp [started])
    | true => exact Or.inr ⟨taken.1, taken.2, rfl, started, by simp [started]⟩

theorem receive_cases (index : ℕ) (s : ArenaSystem σ) :
    receive index s = s ∨
      ∃ id arrived others, s.replies.Perm ((id, arrived) :: others) ∧
        (s.tasks id = none ∧ receive index s = { s with replies := others } ∨
          ∃ task, s.tasks id = some task ∧
            (receive index s = setTask id none { s with replies := others } ∨
              receive index s =
                setTask id (some { task with awaited := task.awaited - 1 })
                  { s with replies := others })) := by
  unfold receive
  cases picked : pick s.replies index with
  | none => exact Or.inl rfl
  | some taken =>
    obtain ⟨⟨id, arrived⟩, others⟩ := taken
    refine Or.inr ⟨id, arrived, others, pick_perm picked, ?_⟩
    cases known : s.tasks id with
    | none => exact Or.inl ⟨rfl, by simp [known]⟩
    | some task =>
      refine Or.inr ⟨task, rfl, ?_⟩
      cases arrived with
      | false => exact Or.inl (by simp [known])
      | true => exact Or.inr (by simp [known])

/-- Neither lane has handled anything since. -/
structure SameLanes (s s' : ArenaSystem σ) : Prop where
  laneA : s'.laneA = s.laneA
  laneB : s'.laneB = s.laneB
  handled : ∀ lane, s'.handled lane = s.handled lane

/-- Only deliveries reach a lane. -/
theorem step_sameLanes [MiniRedisClient σ] (defaultTtl : Except String PyFloat) {a : Action}
    (other : ∀ index, a ≠ .deliver index) (s : ArenaSystem σ) :
    SameLanes s (step defaultTtl a s) := by
  have resumed : ∀ id (s : ArenaSystem σ), SameLanes s (resume id s) := by
    intro id s
    rcases resume_cases id s with stuck | ⟨task, -, -, ⟨-, returns⟩ | ⟨segment, rest, -, runs⟩⟩
    · rw [stuck]
      exact ⟨rfl, rfl, fun _ => rfl⟩
    · rw [returns]
      exact ⟨rfl, rfl, fun lane => by cases lane <;> rfl⟩
    · rw [runs]
      exact ⟨rfl, rfl, fun lane => by cases lane <;> rfl⟩
  cases a with
  | executeCommand input =>
    have after := resumed s.nextTask (beginTask false [.execute input] s)
    exact ⟨after.laneA, after.laneB,
      fun lane => (after.handled lane).trans (by cases lane <;> rfl)⟩
  | resetState =>
    have after := resumed s.nextTask (beginTask false (resetSegments false) s)
    exact ⟨after.laneA, after.laneB,
      fun lane => (after.handled lane).trans (by cases lane <;> rfl)⟩
  | setMemoryProfile profileKey =>
    rcases setMemoryProfile_cases profileKey s with same | ⟨profile, -, -, sent⟩
    · exact ⟨congrArg laneA same, congrArg laneB same, fun lane => congrArg (handled lane) same⟩
    · rw [step, sent]
      exact ⟨rfl, rfl, fun lane => by cases lane <;> rfl⟩
  | resume id => exact resumed id s
  | start index =>
    rcases startMessage_cases index s with same | ⟨message, others, -, started⟩
    · exact ⟨congrArg laneA same, congrArg laneB same, fun lane => congrArg (handled lane) same⟩
    · rw [step, started]
      exact ⟨rfl, rfl, fun lane => by cases lane <;> rfl⟩
  | deliver index => exact (other index rfl).elim
  | receive index =>
    rcases receive_cases index s with same | ⟨id, arrived, others, -, received⟩
    · exact ⟨congrArg laneA same, congrArg laneB same, fun lane => congrArg (handled lane) same⟩
    · rcases received with ⟨-, received⟩ | ⟨task, -, received | received⟩ <;>
        · rw [step, received]
          exact ⟨rfl, rfl, fun lane => by cases lane <;> rfl⟩
  | lose index =>
    rcases lose_cases index s with same | ⟨message, others, -, -, lost⟩
    · exact ⟨congrArg laneA same, congrArg laneB same, fun lane => congrArg (handled lane) same⟩
    · rw [step, lost]
      exact ⟨rfl, rfl, fun lane => by cases lane <;> rfl⟩
  | runScenario input => exact ⟨rfl, rfl, fun lane => by cases lane <;> rfl⟩
  | resetScenarios => exact ⟨rfl, rfl, fun lane => by cases lane <;> rfl⟩
  | setTtlProfile profileKey => exact ⟨rfl, rfl, fun lane => by cases lane <;> rfl⟩
  | fail id => exact ⟨rfl, rfl, fun lane => by cases lane <;> rfl⟩

section Handle

variable [MiniRedisClient σ] (defaultTtl : Except String PyFloat) (message : Message)
  (s : ArenaSystem σ)

@[simp] theorem handle_gateway : (handle defaultTtl message s).gateway = s.gateway := by
  unfold handle
  cases message.lane <;> rfl

@[simp] theorem handle_tasks : (handle defaultTtl message s).tasks = s.tasks := by
  unfold handle
  cases message.lane <;> rfl

@[simp] theorem handle_nextTask : (handle defaultTtl message s).nextTask = s.nextTask := by
  unfold handle
  cases message.lane <;> rfl

@[simp] theorem handle_inFlight : (handle defaultTtl message s).inFlight = s.inFlight := by
  unfold handle
  cases message.lane <;> rfl

@[simp] theorem handle_returned : (handle defaultTtl message s).returned = s.returned := by
  unfold handle
  cases message.lane <;> rfl

end Handle

/-! ### Outstanding posts -/

/-- How many posts of the call have not been answered, or whose answers it has not received. -/
def outstanding (id : ℕ) (s : ArenaSystem σ) : ℕ :=
  s.inFlight.countP (fun message => message.task = id) +
    s.replies.countP (fun reply => reply.1 = id)

theorem outstanding_send (id : ℕ) (task : Task) (post : Post) (s : ArenaSystem σ) (other : ℕ) :
    outstanding other (send id task post s) =
      outstanding other s + if other = id then post.lanes.length else 0 := by
  have copies : (post.lanes.map (fun lane => (⟨s.nextSerial, id, lane, post, false⟩ : Message))).countP
      (fun message => message.task = other) = if other = id then post.lanes.length else 0 := by
    rw [List.countP_map]
    by_cases same : other = id
    · rw [if_pos same]
      exact List.countP_eq_length.mpr (fun lane _ => decide_eq_true same.symm)
    · rw [if_neg same]
      exact List.countP_eq_zero.mpr (fun lane _ => by simpa using fun h : id = other => same h.symm)
  simp only [outstanding, send, List.countP_append, copies]
  omega

theorem outstanding_cancelTracked_le (other : ℕ) (s : ArenaSystem σ) :
    outstanding other (cancelTracked s) ≤ outstanding other s :=
  Nat.add_le_add_right (List.Sublist.countP_le List.filter_sublist) _

theorem outstanding_cancelTracked {other : ℕ} (kept : s.isTracked other = false) :
    outstanding other (cancelTracked s) = outstanding other s := by
  unfold outstanding cancelTracked
  rw [List.countP_filter]
  congr 1
  apply List.countP_congr
  intro message _
  by_cases own : message.task = other <;> simp [own, kept]

theorem outstanding_others {message : Message} {others : List Message}
    (perm : s.inFlight.Perm (message :: others)) (other : ℕ) :
    outstanding other s =
      outstanding other { s with inFlight := others } + if message.task = other then 1 else 0 := by
  simp only [outstanding, perm.countP_eq, List.countP_cons, decide_eq_true_eq]
  omega

theorem outstanding_handle [MiniRedisClient σ] (defaultTtl : Except String PyFloat)
    (message : Message) (s : ArenaSystem σ) (other : ℕ) :
    outstanding other (handle defaultTtl message s) =
      outstanding other s + if message.task = other then 1 else 0 := by
  unfold handle
  cases message.lane <;>
    simp only [outstanding, List.countP_append, List.countP_singleton, decide_eq_true_eq] <;> omega

theorem outstanding_answered {reply : ℕ × Bool} {others : List (ℕ × Bool)}
    (perm : s.replies.Perm (reply :: others)) (other : ℕ) :
    outstanding other s =
      outstanding other { s with replies := others } + if reply.1 = other then 1 else 0 := by
  simp only [outstanding, perm.countP_eq, List.countP_cons, decide_eq_true_eq]
  omega

/-! ### The account of every call -/

/-- A number that no call has yet has nothing out; a running call awaits exactly what it has
out; one that returned has nothing out and is gone. -/
structure Accounted (s : ArenaSystem σ) : Prop where
  fresh : ∀ id, s.nextTask ≤ id → s.tasks id = none ∧ outstanding id s = 0 ∧ id ∉ s.returned
  awaits : ∀ id task, s.tasks id = some task → task.awaited = outstanding id s
  settled : ∀ id ∈ s.returned, s.tasks id = none ∧ outstanding id s = 0

theorem accounted_start (gateway : ArenaGatewayService) (laneA : RedisDBLaneAdapter σ)
    (laneB : DBOnlyLaneAdapter) (requestIds : ℕ → String) :
    Accounted (start gateway laneA laneB requestIds) where
  fresh _ _ := ⟨rfl, rfl, List.not_mem_nil⟩
  awaits _ _ known := by cases known
  settled _ member := by cases member

namespace Accounted

theorem lt_of_known (accounted : Accounted s) (known : s.tasks id = some task) :
    id < s.nextTask := by
  by_contra unknown
  rw [(accounted.fresh id (not_lt.mp unknown)).1] at known
  cases known

theorem not_returned (accounted : Accounted s) (known : s.tasks id = some task) :
    id ∉ s.returned := by
  intro returned
  rw [(accounted.settled id returned).1] at known
  cases known

theorem none_inFlight (accounted : Accounted s) (returned : id ∈ s.returned) :
    ∀ message ∈ s.inFlight, message.task ≠ id := by
  have none_out := (accounted.settled id returned).2
  have none_sent : s.inFlight.countP (fun message => message.task = id) = 0 := by
    unfold outstanding at none_out
    omega
  intro message member
  simpa using List.countP_eq_zero.mp none_sent message member

theorem of_eq {s' : ArenaSystem σ} (accounted : Accounted s) (tasks : s'.tasks = s.tasks)
    (nextTask : s'.nextTask = s.nextTask) (returned : s'.returned = s.returned)
    (out : ∀ id, outstanding id s' = outstanding id s) : Accounted s' where
  fresh id later := by
    rw [tasks, returned, out]
    exact accounted.fresh id (nextTask ▸ later)
  awaits id task known := by
    rw [out]
    exact accounted.awaits id task (tasks ▸ known)
  settled id member := by
    rw [tasks, out]
    exact accounted.settled id (returned ▸ member)

theorem beginTask (accounted : Accounted s) (tracked : Bool) (rest : List Segment) :
    Accounted (beginTask tracked rest s) := by
  have here := accounted.fresh s.nextTask le_rfl
  refine ⟨fun id later => ?_, fun id task known => ?_, fun id returned => ?_⟩
  · have later' : s.nextTask + 1 ≤ id := later
    have old := accounted.fresh id (by omega)
    have other : id ≠ s.nextTask := by omega
    exact ⟨(Function.update_of_ne other _ _).trans old.1, old.2⟩
  · rcases update_eq_some known with ⟨rfl, begun⟩ | ⟨-, old⟩
    · cases begun
      exact here.2.1.symm
    · exact accounted.awaits id task old
  · have other : id ≠ s.nextTask := fun new => here.2.2 (new ▸ returned)
    have old := accounted.settled id returned
    exact ⟨(Function.update_of_ne other _ _).trans old.1, old.2⟩

theorem finish (accounted : Accounted s) (known : s.tasks id = some task)
    (idle : task.awaited = 0) : Accounted (finish id s) := by
  have given := accounted.lt_of_known known
  have none_out : outstanding id s = 0 := (accounted.awaits id task known).symm.trans idle
  refine ⟨fun later past => ?_, fun other task' known' => ?_, fun other returned => ?_⟩
  · have past' : s.nextTask ≤ later := past
    have old := accounted.fresh later past'
    have other : later ≠ id := by omega
    refine ⟨(Function.update_of_ne other _ _).trans old.1, old.2.1, fun returned => ?_⟩
    rcases List.mem_append.mp returned with before | now
    · exact old.2.2 before
    · exact other (List.mem_singleton.mp now)
  · exact accounted.awaits other task' (update_none_eq_some known').2
  · by_cases same : other = id
    · rw [same]
      exact ⟨by simp [ArenaSystem.finish], none_out⟩
    · have before : other ∈ s.returned := by
        rcases List.mem_append.mp returned with before | now
        · exact before
        · exact (same (List.mem_singleton.mp now)).elim
      have old := accounted.settled other before
      exact ⟨(Function.update_of_ne same _ _).trans old.1, old.2⟩

theorem send (accounted : Accounted s) (given : id < s.nextTask) (running : id ∉ s.returned)
    (none_out : outstanding id s = 0) (task : Task) (post : Post) :
    Accounted (send id task post s) := by
  refine ⟨fun later past => ?_, fun other task' known => ?_, fun other returned => ?_⟩
  · have past' : s.nextTask ≤ later := past
    have old := accounted.fresh later past'
    have other : later ≠ id := by omega
    refine ⟨(Function.update_of_ne other _ _).trans old.1, ?_, old.2.2⟩
    rw [outstanding_send, if_neg other]
    exact old.2.1
  · rw [outstanding_send]
    rcases update_eq_some known with ⟨rfl, sent⟩ | ⟨apart, old⟩
    · cases sent
      rw [if_pos rfl, none_out, Nat.zero_add]
    · rw [if_neg apart]
      exact accounted.awaits other task' old
  · have other' : other ≠ id := fun same => running (same ▸ returned)
    have old := accounted.settled other returned
    refine ⟨(Function.update_of_ne other' _ _).trans old.1, ?_⟩
    rw [outstanding_send, if_neg other']
    exact old.2

theorem forgetTasks (accounted : Accounted s) (forget : Bool) :
    Accounted (forgetTasks forget s) := by
  refine ⟨fun id later => ?_, fun id task known => ?_, fun id returned => ?_⟩
  · have old := accounted.fresh id later
    exact ⟨by simp [ArenaSystem.forgetTasks, old.1], old.2⟩
  · obtain ⟨before, held, rfl⟩ := Option.map_eq_some_iff.mp known
    exact accounted.awaits id before held
  · have old := accounted.settled id returned
    exact ⟨by simp [ArenaSystem.forgetTasks, old.1], old.2⟩

theorem runSegment (accounted : Accounted s) (known : s.tasks id = some task)
    (idle : task.awaited = 0) (segment : Segment) (rest : List Segment) :
    Accounted (runSegment id task segment rest s) := by
  have given := accounted.lt_of_known known
  have running := accounted.not_returned known
  have none_out : outstanding id s = 0 := (accounted.awaits id task known).symm.trans idle
  have ready : Accounted
      (setGateway (segment.run (s.requestIds s.nextSerial) s.gateway).1
        (ArenaSystem.forgetTasks segment.forgets s)) :=
    (accounted.forgetTasks segment.forgets).of_eq rfl rfl rfl (fun _ => rfl)
  exact ready.send given running none_out _ _

theorem resume (accounted : Accounted s) (id : ℕ) : Accounted (resume id s) := by
  rcases resume_cases id s with stuck | ⟨task, known, idle, ⟨-, returns⟩ | ⟨segment, rest, -, runs⟩⟩
  · rwa [stuck]
  · rw [returns]
    exact accounted.finish known idle
  · rw [runs]
    exact accounted.runSegment known idle segment rest

theorem setTask_none (accounted : Accounted s) (id : ℕ) : Accounted (setTask id none s) := by
  refine ⟨fun later past => ?_, fun other task known => ?_, fun other returned => ?_⟩
  · have old := accounted.fresh later past
    exact ⟨update_none_eq_none old.1, old.2⟩
  · exact accounted.awaits other task (update_none_eq_some known).2
  · have old := accounted.settled other returned
    exact ⟨update_none_eq_none old.1, old.2⟩

theorem cancelTracked (accounted : Accounted s) : Accounted (cancelTracked s) := by
  have less : ∀ id, outstanding id s = 0 → outstanding id (ArenaSystem.cancelTracked s) = 0 :=
    fun id none_out => Nat.le_zero.mp (none_out ▸ outstanding_cancelTracked_le id s)
  refine ⟨fun id later => ?_, fun id task known => ?_, fun id returned => ?_⟩
  · have old := accounted.fresh id later
    exact ⟨by simp [ArenaSystem.cancelTracked, old.1], less id old.2.1, old.2.2⟩
  · obtain ⟨held, untracked⟩ := Option.filter_eq_some_iff.mp known
    have kept : s.isTracked id = false := by simpa [isTracked, held] using untracked
    rw [outstanding_cancelTracked kept]
    exact accounted.awaits id task held
  · have old := accounted.settled id returned
    exact ⟨by simp [ArenaSystem.cancelTracked, old.1], less id old.2⟩

theorem setMemoryProfile (accounted : Accounted s) (profileKey : String) :
    Accounted (setMemoryProfile profileKey s) := by
  rcases setMemoryProfile_cases profileKey s with same | ⟨profile, -, -, sent⟩
  · rwa [same]
  · have here := accounted.fresh s.nextTask le_rfl
    rw [sent]
    refine send (s := { s with
      gateway := { s.gateway with selectedMemoryProfile := profile }
      nextTask := s.nextTask + 1 }) ?_ (Nat.lt_succ_self _) here.2.2 here.2.1 _ _
    exact ⟨fun id later => accounted.fresh id (Nat.le_of_succ_le later), accounted.awaits,
      accounted.settled⟩

theorem startMessage (accounted : Accounted s) (index : ℕ) : Accounted (startMessage index s) := by
  rcases startMessage_cases index s with same | ⟨message, others, perm, started⟩
  · rwa [same]
  · rw [started]
    refine accounted.of_eq rfl rfl rfl (fun id => ?_)
    simp only [outstanding, perm.countP_eq, List.countP_cons]

theorem lose (accounted : Accounted s) (index : ℕ) : Accounted (lose index s) := by
  rcases lose_cases index s with same | ⟨message, others, perm, -, lost⟩
  · rwa [same]
  · rw [lost]
    have split := outstanding_others perm
    refine ⟨fun later past => ?_, fun other task known => ?_, fun other returned => ?_⟩
    · have old := (accounted.setTask_none message.task).fresh later past
      have out := split later
      refine ⟨old.1, ?_, old.2.2⟩
      have none_out : outstanding later s = 0 := old.2.1
      show outstanding later { s with inFlight := others } = 0
      omega
    · have alive : other ≠ message.task := (update_none_eq_some known).1
      have out := split other
      rw [if_neg (fun same => alive same.symm), Nat.add_zero] at out
      exact ((accounted.setTask_none message.task).awaits other task known).trans out
    · have old := (accounted.setTask_none message.task).settled other returned
      have out := split other
      refine ⟨old.1, ?_⟩
      have none_out : outstanding other s = 0 := old.2
      show outstanding other { s with inFlight := others } = 0
      omega

theorem deliver [MiniRedisClient σ] (defaultTtl : Except String PyFloat) (accounted : Accounted s)
    (index : ℕ) : Accounted (deliver defaultTtl index s) := by
  rcases deliver_cases defaultTtl index s with same | ⟨message, others, picked, -, delivered⟩
  · rwa [same]
  · rw [delivered]
    have split := outstanding_others (pick_perm picked)
    have out : ∀ id, outstanding id (handle defaultTtl message { s with inFlight := others }) =
        outstanding id s := fun id => (outstanding_handle _ _ _ id).trans (split id).symm
    exact accounted.of_eq (handle_tasks _ _ _) (handle_nextTask _ _ _) (handle_returned _ _ _) out

theorem receive (accounted : Accounted s) (index : ℕ) : Accounted (receive index s) := by
  rcases receive_cases index s with same | ⟨id, arrived, others, perm, received⟩
  · rwa [same]
  · have split := outstanding_answered perm
    have less : ∀ other, outstanding other s = 0 → outstanding other { s with replies := others } = 0 := by
      intro other none_out
      have out := split other
      omega
    have dropped : ∀ other, other ≠ id →
        outstanding other { s with replies := others } = outstanding other s := by
      intro other apart
      have out := split other
      rw [if_neg (fun same => apart same.symm), Nat.add_zero] at out
      exact out.symm
    have fresh : ∀ later, s.nextTask ≤ later → s.tasks later = none ∧
        outstanding later { s with replies := others } = 0 ∧ later ∉ s.returned := by
      intro later past
      have old := accounted.fresh later past
      exact ⟨old.1, less later old.2.1, old.2.2⟩
    have settled : ∀ other ∈ s.returned, s.tasks other = none ∧
        outstanding other { s with replies := others } = 0 := by
      intro other returned
      have old := accounted.settled other returned
      exact ⟨old.1, less other old.2⟩
    rcases received with ⟨absent, received⟩ | ⟨task, known, received⟩
    · rw [received]
      refine ⟨fresh, fun other task known => ?_, settled⟩
      have apart : other ≠ id := by
        rintro rfl
        rw [show s.tasks other = some task from known] at absent
        cases absent
      exact (accounted.awaits other task known).trans (dropped other apart).symm
    · have given := accounted.lt_of_known known
      have running := accounted.not_returned known
      have updated : ∀ task', (∀ found, task' = some found → found.awaited + 1 = task.awaited) →
          Accounted (setTask id task' { s with replies := others }) := by
        intro task' counts
        refine ⟨fun later past => ?_, fun other found known' => ?_, fun other returned => ?_⟩
        · have past' : s.nextTask ≤ later := past
          have other : later ≠ id := by omega
          have old := fresh later past'
          exact ⟨(Function.update_of_ne other _ _).trans old.1, old.2⟩
        · rcases update_eq_some known' with ⟨rfl, set⟩ | ⟨apart, old⟩
          · have out := split other
            have awaited := accounted.awaits other task known
            rw [if_pos rfl] at out
            have one_less := counts found set
            show found.awaited = outstanding other { s with replies := others }
            omega
          · exact (accounted.awaits other found old).trans (dropped other apart).symm
        · have other' : other ≠ id := fun same => running (same ▸ returned)
          have old := settled other returned
          exact ⟨(Function.update_of_ne other' _ _).trans old.1, old.2⟩
      have positive : 0 < task.awaited := by
        have out := split id
        rw [if_pos rfl] at out
        rw [accounted.awaits id task known]
        omega
      rcases received with raised | counted
      · rw [raised]
        exact updated none (fun _ found => by cases found)
      · rw [counted]
        refine updated _ (fun found same => ?_)
        cases same
        show task.awaited - 1 + 1 = task.awaited
        omega

theorem step [MiniRedisClient σ] (defaultTtl : Except String PyFloat) (a : Action)
    (accounted : Accounted s) : Accounted (step defaultTtl a s) := by
  cases a with
  | executeCommand input => exact (accounted.beginTask false _).resume _
  | runScenario input => exact accounted.beginTask true _
  | resetScenarios => exact accounted.cancelTracked.beginTask false _
  | resetState => exact (accounted.beginTask false _).resume _
  | setMemoryProfile profileKey => exact accounted.setMemoryProfile profileKey
  | setTtlProfile profileKey => exact accounted.of_eq rfl rfl rfl (fun _ => rfl)
  | resume id => exact accounted.resume id
  | start index => exact accounted.startMessage index
  | deliver index => exact accounted.deliver defaultTtl index
  | receive index => exact accounted.receive index
  | lose index => exact accounted.lose index
  | fail id => exact accounted.setTask_none id

end Accounted

theorem Reachable.accounted [MiniRedisClient σ] {defaultTtl : Except String PyFloat}
    (reachable : Reachable defaultTtl s) : Accounted s := by
  obtain ⟨gateway, laneA, laneB, requestIds, actions, rfl⟩ := reachable
  exact invariant_of_steps (fun a s accounted => accounted.step defaultTtl a) actions
    (accounted_start gateway laneA laneB requestIds)

end ArenaSystem

end MiniRedis.Arena
