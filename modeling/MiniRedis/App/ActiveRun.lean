/- GID: MiniRedis/App/ActiveRun
   generality: I
   digest: At most one run is active, and the controller's three records of it agree. -/

import MiniRedis.App.Controller

set_option autoImplicit false
set_option relaxedAutoImplicit false

namespace MiniRedis.App

open MiniRedis.Base

/-- There is at most one run thread, the controller names exactly its run, and no other run can
be created beside it. -/
structure SingleRun (s : Controller) : Prop where
  atMostOne : s.threads.length ≤ 1
  active : s.activeRunId = s.threads.head?.map RunThread.runId
  events : ∀ runId, runId ∈ s.cancelEvents.keys ↔ runId ∈ s.threads.map RunThread.runId
  busy : s.threads ≠ [] → ∀ milliseconds config, (s.createRun milliseconds config).1 = none

/-- The controller is idle, or it has one thread and knows its run. -/
def IdleOrOne (s : Controller) : Prop :=
  (s.threads = [] ∧ s.activeRunId = none ∧ ∀ runId, s.cancelEvents.get? runId = none) ∨
  ∃ thread, s.threads = [thread] ∧ s.activeRunId = some thread.runId ∧
    ∀ runId, s.cancelEvents.get? runId = none ↔ runId ≠ thread.runId

variable {s : Controller}

theorem IdleOrOne.singleRun (state : IdleOrOne s) : SingleRun s := by
  rcases state with ⟨idle, none, events⟩ | ⟨thread, one, active, events⟩
  · refine ⟨by simp [idle], by simp [idle, none], fun runId => ?_, fun busy => (busy idle).elim⟩
    have absent := (Dict.get?_eq_none_iff _ _).mp (events runId)
    simp [idle, absent]
  · refine ⟨by simp [one], by simp [one, active], fun runId => ?_, fun _ milliseconds config => ?_⟩
    · have known := events runId
      rw [Dict.get?_eq_none_iff] at known
      rw [one]
      simp only [List.map_cons, List.map_nil, List.mem_singleton]
      exact not_iff_not.mp known
    · rw [Controller.createRun, if_pos]
      left
      rw [active]
      exact Option.some_ne_none _

private theorem IdleOrOne.createRun (state : IdleOrOne s) (milliseconds : ℕ) (config : RunConfig) :
    IdleOrOne (s.createRun milliseconds config).2 := by
  unfold Controller.createRun
  dsimp only
  split
  · exact state
  · rename_i free
    rcases state with ⟨idle, none, events⟩ | ⟨thread, -, active, -⟩
    · right
      refine ⟨⟨buildRunId milliseconds, .starting⟩, by simp [idle], rfl, fun runId => ?_⟩
      rw [Dict.get?_set]
      split
      · simp_all
      · simp_all
    · exact (free (Or.inl (by rw [active]; exact Option.some_ne_none _))).elim

private theorem IdleOrOne.stopRun (state : IdleOrOne s) (runId : String) :
    IdleOrOne (s.stopRun runId).2 := by
  unfold Controller.stopRun
  split
  · exact state
  · rename_i isSet found
    split
    · exact state
    · split
      · exact state
      · rcases state with ⟨_, _, events⟩ | ⟨thread, one, active, events⟩
        · rw [events runId] at found
          cases found
        · right
          refine ⟨thread, one, active, fun other => ?_⟩
          rw [Dict.get?_set]
          split
          · rename_i same
            have named : runId = thread.runId := by
              by_contra different
              rw [(events runId).mpr different] at found
              cases found
            simp [same, named]
          · exact events other

private theorem IdleOrOne.only (state : IdleOrOne s) {index : ℕ} {thread : RunThread}
    (found : s.threads[index]? = some thread) :
    index = 0 ∧ s.threads = [thread] ∧ s.activeRunId = some thread.runId ∧
      ∀ runId, s.cancelEvents.get? runId = none ↔ runId ≠ thread.runId := by
  rcases state with ⟨idle, -⟩ | ⟨only, one, active, events⟩
  · rw [idle] at found
    cases found
  · rw [one, List.getElem?_singleton] at found
    split at found
    · cases found
      exact ⟨‹_›, one, active, events⟩
    · cases found

private theorem IdleOrOne.runStep (state : IdleOrOne s) (index : ℕ) (outcome : Outcome) :
    IdleOrOne (s.runStep index outcome) := by
  rcases runStep_cases index outcome s with same | ⟨thread, found, moves | ⟨-, released⟩⟩
  · rw [same]
    exact state
  · obtain ⟨store, phase, -, moved⟩ := moves
    obtain ⟨rfl, one, active, events⟩ := state.only found
    rw [moved]
    right
    exact ⟨⟨thread.runId, phase⟩, by simp [one], active, events⟩
  · obtain ⟨rfl, one, active, events⟩ := state.only found
    rw [released]
    left
    refine ⟨by simp [one], by simp [active], fun runId => ?_⟩
    rw [Dict.get?_erase]
    split
    · rfl
    · exact (events runId).mpr ‹_›

private theorem IdleOrOne.stopRead (state : IdleOrOne s) (call : ℕ) : IdleOrOne (s.stopRead call) := by
  unfold Controller.stopRead
  split
  · split <;> exact state
  · exact state

private theorem IdleOrOne.stopWrite (state : IdleOrOne s) (call : ℕ) :
    IdleOrOne (s.stopWrite call) := by
  unfold Controller.stopWrite
  split
  · split <;> exact state
  · exact state

theorem IdleOrOne.step (state : IdleOrOne s) (action : Action) : IdleOrOne (action.step s) := by
  cases action with
  | createRun milliseconds config => exact state.createRun milliseconds config
  | stopRun runId => exact state.stopRun runId
  | stopRead call => exact state.stopRead call
  | stopWrite call => exact state.stopWrite call
  | runStep index outcome => exact state.runStep index outcome

theorem IdleOrOne.init (store : RunStore) : IdleOrOne (Controller.init store) :=
  Or.inl ⟨rfl, rfl, fun _ => Dict.get?_empty _⟩

/-- Whatever the order of creations, stop requests and steps of run threads, at most one run is
active and the controller names exactly that one. -/
theorem single_active_run (store : RunStore) (actions : List Action) :
    Always Action.step SingleRun actions (Controller.init store) := by
  exact always_of_invariant (fun action s state => state.step action)
    (fun s state => state.singleRun) actions (IdleOrOne.init store)

end MiniRedis.App
