/- GID: MiniRedis/Arena/ScenarioRunner
   generality: I
   digest: The status counts the labels of scenarios, exactly while labels and tasks agree. -/

import Mathlib.Data.Finset.Max
import MiniRedis.Arena.Workloads
import MiniRedis.Base.Trace

set_option autoImplicit false
set_option relaxedAutoImplicit false

namespace MiniRedis.Arena.ScenarioRunner

open MiniRedis.Base

/-! ### Tasks and labels -/

/-- `_scenario_label`. -/
def scenarioLabel (input : ScenarioRunInput) : String :=
  match input.scenarioId with
  | .read => "read " ++ toString input.hotPercent ++ "%"
  | .write => "write"
  | .mixed => "mixed"

/-- Where the task of a scenario is: not begun, inside its `try`, or done. -/
inductive TaskPhase where
  | created
  | started
  | finished
  deriving DecidableEq

structure ScenarioTask where
  label : String
  phase : TaskPhase := .created
  cancelled : Bool := false

/-- A runner with all tasks that it ever created, each named by its place in the list. -/
structure ArenaScenarioRunner where
  created : List ScenarioTask := []
  tasks : Finset ℕ := ∅
  activeLabels : Finset String := ∅
  /-- The resets that wait in `gather`, each with the tasks that it waits for. -/
  resets : List (Finset ℕ) := []

/-- `status`. -/
structure Status where
  running : Bool
  activeLabel : Option String
  activeCount : ℕ

namespace ArenaScenarioRunner

def status (r : ArenaScenarioRunner) : Status where
  running := decide r.activeLabels.Nonempty
  activeLabel :=
    if active : r.activeLabels.Nonempty then some (r.activeLabels.min' active) else none
  activeCount := r.activeLabels.card

/-- `run` up to its first suspension. -/
def run (input : ScenarioRunInput) (r : ArenaScenarioRunner) : ArenaScenarioRunner :=
  let label := scenarioLabel input
  { r with
    created := r.created ++ [{ label }]
    tasks := insert r.created.length r.tasks
    activeLabels := insert label r.activeLabels }

/-- The first step of `_run_plan`, unless it was cancelled before. -/
def begin (id : ℕ) (r : ArenaScenarioRunner) : ArenaScenarioRunner :=
  match r.created[id]? with
  | some task =>
    if task.phase = .created ∧ task.cancelled = false then
      { r with created := r.created.set id { task with phase := .started } }
    else r
  | none => r

/-- The end of `_run_plan`, by completion, failure or cancellation: its `finally` block. -/
def finish (id : ℕ) (r : ArenaScenarioRunner) : ArenaScenarioRunner :=
  match r.created[id]? with
  | some task =>
    if task.phase = .started then
      { r with
        created := r.created.set id { task with phase := .finished }
        activeLabels := r.activeLabels.erase task.label }
    else r
  | none => r

/-- The end of a task that was cancelled before its first step: its body never runs. -/
def drop (id : ℕ) (r : ArenaScenarioRunner) : ArenaScenarioRunner :=
  match r.created[id]? with
  | some task =>
    if task.phase = .created ∧ task.cancelled = true then
      { r with created := r.created.set id { task with phase := .finished } }
    else r
  | none => r

/-- The done callback of a task. -/
def discard (id : ℕ) (r : ArenaScenarioRunner) : ArenaScenarioRunner :=
  match r.created[id]? with
  | some task => if task.phase = .finished then { r with tasks := r.tasks.erase id } else r
  | none => r

/-- The two clears of `reset`. -/
def clear (r : ArenaScenarioRunner) : ArenaScenarioRunner :=
  { r with tasks := ∅, activeLabels := ∅ }

/-- `task.cancel()` for these tasks; it does nothing to one that is done. -/
def cancelAll (ids : Finset ℕ) (r : ArenaScenarioRunner) : ArenaScenarioRunner :=
  { r with
    created := r.created.mapIdx (fun id task =>
      if id ∈ ids ∧ task.phase ≠ .finished then { task with cancelled := true } else task) }

/-- `reset` up to its first suspension: it waits if there are tasks, and clears at once if not. -/
def reset (r : ArenaScenarioRunner) : ArenaScenarioRunner :=
  if r.tasks = ∅ then r.clear
  else { r.cancelAll r.tasks with resets := r.resets ++ [r.tasks] }

/-- A task that is done, as `gather` sees it. -/
def isDone (r : ArenaScenarioRunner) (id : ℕ) : Prop :=
  ∀ task ∈ r.created[id]?, task.phase = .finished

instance (r : ArenaScenarioRunner) (id : ℕ) : Decidable (r.isDone id) :=
  inferInstanceAs (Decidable (∀ task ∈ r.created[id]?, task.phase = .finished))

/-- A reset whose tasks are all done goes on. -/
def resume (place : ℕ) (r : ArenaScenarioRunner) : ArenaScenarioRunner :=
  match r.resets[place]? with
  | some ids =>
    if ∀ id ∈ ids, r.isDone id then { r.clear with resets := r.resets.eraseIdx place } else r
  | none => r

end ArenaScenarioRunner

/-! ### Runs -/

inductive Action where
  | run (input : ScenarioRunInput)
  | begin (id : ℕ)
  | finish (id : ℕ)
  | drop (id : ℕ)
  | discard (id : ℕ)
  | reset
  | resume (place : ℕ)

def step (action : Action) (r : ArenaScenarioRunner) : ArenaScenarioRunner :=
  match action with
  | .run input => r.run input
  | .begin id => r.begin id
  | .finish id => r.finish id
  | .drop id => r.drop id
  | .discard id => r.discard id
  | .reset => r.reset
  | .resume place => r.resume place

/-! ### Accuracy of the status -/

/-- The labels of the tasks that have not finished. -/
def openLabels (created : List ScenarioTask) : List String :=
  (created.filter (fun task => decide (task.phase ≠ .finished))).map ScenarioTask.label

def StatusAccurate (r : ArenaScenarioRunner) : Prop :=
  (r.status.running = true ↔ ∃ task ∈ r.created, task.phase ≠ .finished) ∧
    r.status.activeCount = (r.created.filter (fun task => decide (task.phase ≠ .finished))).length

instance (r : ArenaScenarioRunner) : Decidable (StatusAccurate r) :=
  inferInstanceAs (Decidable ((_ ↔ ∃ task ∈ r.created, task.phase ≠ .finished) ∧ _))

/-- A run starts only while no unfinished scenario has its label, no task is cancelled before its
first step, and a reset that goes on finds every scenario finished. -/
def Orderly (action : Action) (r : ArenaScenarioRunner) : Prop :=
  match action with
  | .run input => ∀ task ∈ r.created, task.phase ≠ .finished → task.label ≠ scenarioLabel input
  | .drop id => ∀ task ∈ r.created[id]?, ¬(task.phase = .created ∧ task.cancelled = true)
  | .resume place => ∀ ids ∈ r.resets[place]?, (∀ id ∈ ids, r.isDone id) →
      ∀ task ∈ r.created, task.phase = .finished
  | _ => True

/-- The set of labels is that of the unfinished tasks, no two of which share one, and all of them
are held. -/
structure Consistent (r : ArenaScenarioRunner) : Prop where
  labels : r.activeLabels = (openLabels r.created).toFinset
  apart : (openLabels r.created).Nodup
  held : ∀ id, ∀ task ∈ r.created[id]?, task.phase ≠ .finished → id ∈ r.tasks

private theorem openLabels_append (first later : List ScenarioTask) :
    openLabels (first ++ later) = openLabels first ++ openLabels later := by
  simp only [openLabels, List.filter_append, List.map_append]

private theorem openLabels_cons_open {task : ScenarioTask} (rest : List ScenarioTask)
    (unfinished : task.phase ≠ .finished) :
    openLabels (task :: rest) = task.label :: openLabels rest := by
  simp [openLabels, unfinished]

private theorem openLabels_cons_finished {task : ScenarioTask} (rest : List ScenarioTask)
    (finished : task.phase = .finished) : openLabels (task :: rest) = openLabels rest := by
  simp [openLabels, finished]

private theorem mem_openLabels {created : List ScenarioTask} {label : String} :
    label ∈ openLabels created ↔
      ∃ task ∈ created, task.phase ≠ .finished ∧ task.label = label := by
  simp [openLabels, and_assoc]

private theorem openLabels_eq_nil {created : List ScenarioTask} :
    openLabels created = [] ↔ ∀ task ∈ created, task.phase = .finished := by
  simp [openLabels, List.filter_eq_nil_iff]

private theorem openLabels_congr {created later : List ScenarioTask}
    (same : created.map ScenarioTask.label = later.map ScenarioTask.label)
    (phases : created.map (fun task => decide (task.phase ≠ .finished)) =
      later.map (fun task => decide (task.phase ≠ .finished))) :
    openLabels created = openLabels later := by
  induction created generalizing later with
  | nil =>
    cases later with
    | nil => rfl
    | cons task later => cases same
  | cons task created ih =>
    cases later with
    | nil => cases same
    | cons other later =>
      simp only [List.map_cons, List.cons.injEq, decide_eq_decide] at same phases
      have rest := ih same.2 phases.2
      by_cases finished : task.phase = .finished
      · have also : other.phase = .finished := not_not.mp (fun unfinished =>
          phases.1.mpr unfinished finished)
        rw [openLabels_cons_finished _ finished, openLabels_cons_finished _ also, rest]
      · rw [openLabels_cons_open _ finished, openLabels_cons_open _ (phases.1.mp finished), rest,
          same.1]

private theorem statusAccurate_iff (r : ArenaScenarioRunner) :
    StatusAccurate r ↔ (r.activeLabels.Nonempty ↔ openLabels r.created ≠ []) ∧
      r.activeLabels.card = (openLabels r.created).length := by
  have some_open : (∃ task ∈ r.created, task.phase ≠ .finished) ↔ openLabels r.created ≠ [] := by
    rw [Ne, openLabels_eq_nil]
    push Not
    rfl
  rw [StatusAccurate, some_open, openLabels, List.length_map]
  simp only [ArenaScenarioRunner.status, decide_eq_true_eq]

variable {r : ArenaScenarioRunner}

private theorem accurate_of_consistent (sound : Consistent r) : StatusAccurate r := by
  rw [statusAccurate_iff, sound.labels, List.toFinset_nonempty_iff,
    List.toFinset_card_of_nodup sound.apart]
  exact ⟨Iff.rfl, rfl⟩

private theorem split_at {created : List ScenarioTask} {id : ℕ} {task : ScenarioTask}
    (found : created[id]? = some task) :
    ∃ before after, created = before ++ task :: after ∧
      ∀ changed, created.set id changed = before ++ changed :: after := by
  obtain ⟨inside, here⟩ := List.getElem?_eq_some_iff.mp found
  refine ⟨created.take id, created.drop (id + 1), ?_, fun changed => ?_⟩
  · rw [← here, List.cons_getElem_drop_succ, List.take_append_drop]
  · exact List.set_eq_take_append_cons_drop.trans (if_pos inside)

/-! ### Steps -/

private theorem held_set (sound : Consistent r) {id : ℕ} {task changed : ScenarioTask}
    (found : r.created[id]? = some task)
    (open_before : changed.phase ≠ .finished → task.phase ≠ .finished) :
    ∀ other, ∀ now ∈ (r.created.set id changed)[other]?,
      now.phase ≠ .finished → other ∈ r.tasks := by
  intro other now member unfinished
  by_cases same : id = other
  · subst same
    obtain ⟨inside, -⟩ := List.getElem?_eq_some_iff.mp found
    rw [List.getElem?_set_self inside] at member
    obtain rfl := Option.some.inj member
    exact sound.held id task found (open_before unfinished)
  · rw [List.getElem?_set_ne same] at member
    exact sound.held other now member unfinished

private theorem openLabels_run (input : ScenarioRunInput) (r : ArenaScenarioRunner) :
    openLabels (r.run input).created = openLabels r.created ++ [scenarioLabel input] := by
  show openLabels (r.created ++ [{ label := scenarioLabel input }]) = _
  rw [openLabels_append, openLabels_cons_open [] (by simp)]
  rfl

private theorem consistent_run {input : ScenarioRunInput} (sound : Consistent r)
    (fresh : Orderly (.run input) r) : Consistent (r.run input) := by
  have absent : scenarioLabel input ∉ openLabels r.created := by
    intro present
    obtain ⟨task, member, unfinished, same⟩ := mem_openLabels.mp present
    exact fresh task member unfinished same
  refine ⟨?_, ?_, ?_⟩
  · rw [openLabels_run, List.toFinset_append, ← sound.labels]
    ext label
    simp [ArenaScenarioRunner.run, or_comm]
  · rw [openLabels_run, ← List.concat_eq_append]
    exact sound.apart.concat absent
  · intro id task member unfinished
    show id ∈ insert r.created.length r.tasks
    have member : (r.created ++ [{ label := scenarioLabel input }])[id]? = some task := member
    obtain ⟨inside, -⟩ := List.getElem?_eq_some_iff.mp member
    rw [List.length_append, List.length_singleton] at inside
    rcases Nat.lt_succ_iff_lt_or_eq.mp inside with before | last
    · rw [List.getElem?_append_left before] at member
      exact Finset.mem_insert_of_mem (sound.held id task member unfinished)
    · exact last ▸ Finset.mem_insert_self _ _

private theorem consistent_begin (id : ℕ) (sound : Consistent r) : Consistent (r.begin id) := by
  unfold ArenaScenarioRunner.begin
  split
  · rename_i task found
    split
    · rename_i enabled
      have unfinished : task.phase ≠ .finished := by simp [enabled.1]
      obtain ⟨before, after, whole, changed⟩ := split_at found
      have same : openLabels (r.created.set id { task with phase := .started }) =
          openLabels r.created := by
        rw [changed, whole, openLabels_append, openLabels_append,
          openLabels_cons_open _ unfinished, openLabels_cons_open _ (by simp)]
      exact ⟨sound.labels.trans (congrArg List.toFinset same.symm), by rw [same]; exact sound.apart,
        held_set sound found (fun _ => unfinished)⟩
    · exact sound
  · exact sound

private theorem consistent_finish (id : ℕ) (sound : Consistent r) : Consistent (r.finish id) := by
  unfold ArenaScenarioRunner.finish
  split
  · rename_i task found
    split
    · rename_i started
      have unfinished : task.phase ≠ .finished := by simp [started]
      obtain ⟨before, after, whole, changed⟩ := split_at found
      have opened : openLabels r.created =
          openLabels before ++ task.label :: openLabels after := by
        rw [whole, openLabels_append, openLabels_cons_open _ unfinished]
      have left : openLabels (r.created.set id { task with phase := .finished }) =
          openLabels before ++ openLabels after := by
        rw [changed, openLabels_append, openLabels_cons_finished _ rfl]
      have apart := sound.apart
      rw [opened, List.nodup_middle, List.nodup_cons] at apart
      refine ⟨?_, by rw [left]; exact apart.2, held_set sound found (fun _ => unfinished)⟩
      rw [left]
      show r.activeLabels.erase task.label = _
      rw [sound.labels, opened]
      ext label
      have absent := apart.1
      simp only [Finset.mem_erase, List.mem_toFinset, List.mem_append, List.mem_cons] at absent ⊢
      constructor
      · rintro ⟨other, first | same | later⟩
        · exact .inl first
        · exact (other same).elim
        · exact .inr later
      · intro member
        refine ⟨fun same => absent (same ▸ member), ?_⟩
        exact member.imp_right .inr
    · exact sound
  · exact sound

private theorem consistent_discard (id : ℕ) (sound : Consistent r) : Consistent (r.discard id) := by
  unfold ArenaScenarioRunner.discard
  split
  · rename_i task found
    split
    · rename_i finished
      refine ⟨sound.labels, sound.apart, fun other now member unfinished => ?_⟩
      refine Finset.mem_erase.mpr ⟨?_, sound.held other now member unfinished⟩
      rintro rfl
      obtain rfl := Option.some.inj (found.symm.trans member)
      exact unfinished finished
    · exact sound
  · exact sound

private theorem consistent_clear (finished : ∀ task ∈ r.created, task.phase = .finished) :
    Consistent r.clear := by
  have closed : openLabels r.clear.created = [] := openLabels_eq_nil.mpr finished
  refine ⟨by rw [closed]; rfl, by rw [closed]; exact List.nodup_nil, ?_⟩
  intro id task member unfinished
  exact (unfinished (finished task (List.mem_of_getElem? member))).elim

private theorem consistent_cancelAll (ids : Finset ℕ) (sound : Consistent r) :
    Consistent (r.cancelAll ids) := by
  have same : openLabels (r.cancelAll ids).created = openLabels r.created := by
    refine openLabels_congr ?_ ?_ <;>
    · refine List.ext_getElem? (fun id => ?_)
      simp only [ArenaScenarioRunner.cancelAll, List.getElem?_map, List.getElem?_mapIdx,
        Option.map_map]
      congr 1
      funext task
      simp only [Function.comp_apply]
      split <;> rfl
  refine ⟨sound.labels.trans (congrArg List.toFinset same.symm), by rw [same]; exact sound.apart,
    ?_⟩
  intro id now member unfinished
  simp only [ArenaScenarioRunner.cancelAll, List.getElem?_mapIdx, Option.mem_def,
    Option.map_eq_some_iff] at member
  obtain ⟨task, found, changed⟩ := member
  refine sound.held id task found (fun finished => unfinished ?_)
  rw [← changed, if_neg (fun both => both.2 finished)]
  exact finished

private theorem consistent_reset (sound : Consistent r) : Consistent r.reset := by
  unfold ArenaScenarioRunner.reset
  split
  · rename_i none_held
    refine consistent_clear (fun task member => ?_)
    obtain ⟨id, found⟩ := List.mem_iff_getElem?.mp member
    by_contra unfinished
    have held := sound.held id task found unfinished
    rw [none_held] at held
    exact Finset.notMem_empty id held
  · have cancelled := consistent_cancelAll r.tasks sound
    exact ⟨cancelled.labels, cancelled.apart, cancelled.held⟩

private theorem consistent_resume {place : ℕ} (sound : Consistent r)
    (orderly : Orderly (.resume place) r) : Consistent (r.resume place) := by
  unfold ArenaScenarioRunner.resume
  split
  · rename_i ids found
    split
    · rename_i done
      have cleared := consistent_clear (orderly ids found done)
      exact ⟨cleared.labels, cleared.apart, cleared.held⟩
    · exact sound
  · exact sound

private theorem drop_of_orderly {id : ℕ} (orderly : Orderly (.drop id) r) : r.drop id = r := by
  unfold ArenaScenarioRunner.drop
  split
  · rename_i task found
    exact if_neg (orderly task found)
  · rfl

private theorem consistent_step (action : Action) (r : ArenaScenarioRunner)
    (orderly : Orderly action r) (sound : Consistent r) : Consistent (step action r) := by
  cases action with
  | run input => exact consistent_run sound orderly
  | begin id => exact consistent_begin id sound
  | finish id => exact consistent_finish id sound
  | drop id =>
    show Consistent (r.drop id)
    rw [drop_of_orderly orderly]
    exact sound
  | discard id => exact consistent_discard id sound
  | reset => exact consistent_reset sound
  | resume place => exact consistent_resume sound orderly

/-! ### Steps that leave the status wrong -/

private theorem orderly_run {input : ScenarioRunInput} (sound : Consistent r)
    (accurate : StatusAccurate (r.run input)) : Orderly (.run input) r := by
  intro task member unfinished same
  have present : scenarioLabel input ∈ r.activeLabels := by
    rw [sound.labels, List.mem_toFinset]
    exact mem_openLabels.mpr ⟨task, member, unfinished, same⟩
  have count := (statusAccurate_iff _).mp accurate |>.2
  have labels : (r.run input).activeLabels = r.activeLabels := Finset.insert_eq_of_mem present
  have before := (statusAccurate_iff r).mp (accurate_of_consistent sound) |>.2
  rw [openLabels_run, labels, List.length_append, List.length_singleton] at count
  omega

private theorem orderly_drop {id : ℕ} (sound : Consistent r)
    (accurate : StatusAccurate (r.drop id)) : Orderly (.drop id) r := by
  intro task found enabled
  have unfinished : task.phase ≠ .finished := by simp [enabled.1]
  have dropped : r.drop id =
      { r with created := r.created.set id { task with phase := .finished } } := by
    have found : r.created[id]? = some task := found
    simp only [ArenaScenarioRunner.drop, found]
    exact if_pos enabled
  obtain ⟨before, after, whole, changed⟩ := split_at found
  have count := (statusAccurate_iff _).mp accurate |>.2
  have full := (statusAccurate_iff r).mp (accurate_of_consistent sound) |>.2
  rw [dropped] at count
  simp only [changed, openLabels_append, openLabels_cons_finished, List.length_append] at count
  rw [whole, openLabels_append, openLabels_cons_open _ unfinished, List.length_append,
    List.length_cons] at full
  omega

private theorem orderly_resume {place : ℕ} (accurate : StatusAccurate (r.resume place)) :
    Orderly (.resume place) r := by
  intro ids found done
  have found : r.resets[place]? = some ids := found
  have resumed : r.resume place = { r.clear with resets := r.resets.eraseIdx place } := by
    simp only [ArenaScenarioRunner.resume, found]
    exact if_pos done
  have running := (statusAccurate_iff _).mp accurate |>.1
  rw [resumed] at running
  refine openLabels_eq_nil.mp (not_not.mp (fun some_open => ?_))
  exact Finset.not_nonempty_empty (running.mpr some_open)

private theorem orderly_of_accurate (action : Action) (r : ArenaScenarioRunner)
    (sound : Consistent r) (accurate : StatusAccurate (step action r)) : Orderly action r := by
  cases action with
  | run input => exact orderly_run sound accurate
  | drop id => exact orderly_drop sound accurate
  | resume place => exact orderly_resume accurate
  | begin id | finish id | discard id | reset => trivial

/-! ### The status -/

/-- However runs, ends of tasks and resets follow on each other, the status is accurate in every
state exactly if no run takes the label of an unfinished scenario, no task is cancelled before its
first step and no reset goes on while a scenario is unfinished. -/
theorem status_accurate_iff_orderly (actions : List Action) :
    Always step StatusAccurate actions {} ↔ EachStep step Orderly actions {} := by
  refine always_iff_eachStep_of_strong (I := Consistent)
    (fun _ sound => accurate_of_consistent sound) consistent_step orderly_of_accurate ⟨rfl, List.nodup_nil, ?_⟩
  intro id task member
  cases member

private def equalScenario : ScenarioRunInput where
  scenarioId := .read
  users := 1
  durationSeconds := 1

theorem equal_scenarios_counted_once :
    ¬ ∀ actions : List Action, Always step StatusAccurate actions {} := by
  intro always
  have wrong : ¬ StatusAccurate (step (.run equalScenario) (step (.run equalScenario) {})) := by
    decide +kernel
  exact wrong (always [.run equalScenario, .run equalScenario]).2.2

end MiniRedis.Arena.ScenarioRunner
