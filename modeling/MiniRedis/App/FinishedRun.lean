/- GID: MiniRedis/App/FinishedRun
   generality: I
   digest: A run stays finished when no stop request writes after the run's own last write. -/

import MiniRedis.App.ActiveRun

set_option autoImplicit false
set_option relaxedAutoImplicit false

namespace MiniRedis.App

open MiniRedis.Base

/-! ### Finished runs -/

/-- The thread still has its last write ahead of it. -/
def Phase.isPending : Phase → Bool
  | .starting | .loaded _ | .working _ => true
  | .reporting _ | .finished => false

def Released (runId : String) (s : Controller) : Prop :=
  ∀ thread ∈ s.threads, thread.runId ≠ runId

instance (runId : String) (s : Controller) : Decidable (Released runId s) :=
  inferInstanceAs (Decidable (∀ thread ∈ s.threads, thread.runId ≠ runId))

def storedStatus (runId : String) (s : Controller) : Option RunStatus :=
  (s.store.readRun runId).map RunRecord.status

/-- As far as this run is concerned, a new run can be created. -/
def Unblocked (runId : String) (s : Controller) : Prop :=
  s.activeRunId ≠ some runId ∧
  (∀ record ∈ s.store.readRun runId, record.status ∉ activeStatuses) ∧
  (s.activeRunId = none →
    (∀ id record, id ≠ runId → s.store.readRun id = some record → record.status ∉ activeStatuses) →
    ∀ milliseconds config, (s.createRun milliseconds config).1 ≠ none)

/-- From the release on, the stored status is final, the same and in nobody's way. -/
def StaysFinished (runId : String) (actions : List Action) (s : Controller) : Prop :=
  ∀ earlier later, actions = earlier ++ later → Released runId (runAll Action.step earlier s) →
    (∃ status, status.isFinal = true ∧
      storedStatus runId (runAll Action.step earlier s) = some status ∧
      storedStatus runId (runAll Action.step actions s) = some status) ∧
    Unblocked runId (runAll Action.step earlier s)

/-- The stop request holds a copy of the run's record that it will write back. -/
def Controller.writesBack (runId : String) (call : ℕ) (s : Controller) : Bool :=
  match s.stops[call]? with
  | some (.loaded record) => record.runId = runId && !record.status.isFinal
  | _ => false

/-- A stop request writes its copy of the record back only while the run's own last write is
still to come, and no other run gets the same id. -/
def Action.Prompt (runId : String) : Action → Controller → Prop
  | .createRun milliseconds _, _ => buildRunId milliseconds ≠ runId
  | .stopWrite call, s =>
    s.writesBack runId call = true →
      ∃ thread ∈ s.threads, thread.runId = runId ∧ thread.phase.isPending = true
  | _, _ => True

instance Action.Prompt.decidable (runId : String) :
    ∀ (action : Action) (s : Controller), Decidable (action.Prompt runId s)
  | .createRun milliseconds _, _ => inferInstanceAs (Decidable (buildRunId milliseconds ≠ runId))
  | .stopWrite call, s =>
    inferInstanceAs (Decidable (s.writesBack runId call = true →
      ∃ thread ∈ s.threads, thread.runId = runId ∧ thread.phase.isPending = true))
  | .stopRun _, _ | .stopRead _, _ | .runStep _ _, _ => inferInstanceAs (Decidable True)

/-! ### Steps -/

/-- The record in the memory of a thread. -/
def Phase.record? : Phase → Option RunRecord
  | .loaded record | .working record | .reporting record => some record
  | .starting | .finished => none

private def Tracked (threads : List RunThread) : Prop :=
  ∀ thread ∈ threads, ∀ record ∈ thread.phase.record?, record.runId = thread.runId

/-- The run has its last write ahead, or its stored status is final. -/
private def Settled (runId : String) (store : RunStore) (threads : List RunThread) : Prop :=
  (store.readRun runId ≠ none ∧
    ∃ thread ∈ threads, thread.runId = runId ∧ thread.phase.isPending = true) ∨
  ∃ record, record.status.isFinal = true ∧ store.readRun runId = some record

private theorem advance_cases {isSet : Bool} {outcome : Outcome} {record written : RunRecord}
    {phase : Phase} (advanced : Controller.advance isSet outcome record = some (written, phase)) :
    written.runId = record.runId ∧
      (phase = .working written ∨
        written.status.isFinal = true ∧ (phase = .reporting written ∨ phase = .finished)) := by
  cases outcome with
  | done =>
    simp only [Controller.advance, Option.some.injEq, Prod.mk.injEq] at advanced
    obtain ⟨rfl, rfl⟩ := advanced
    refine ⟨rfl, ?_⟩
    split
    · rename_i completed
      exact Or.inr ⟨by rw [completed]; rfl, Or.inl rfl⟩
    · exact Or.inl rfl
  | cancelled =>
    cases isSet with
    | false => cases advanced
    | true =>
      cases advanced
      exact ⟨rfl, Or.inr ⟨rfl, Or.inr rfl⟩⟩
  | failed message =>
    cases advanced
    exact ⟨rfl, Or.inr ⟨rfl, Or.inr rfl⟩⟩

/-- What one step of a thread leaves of its run: it keeps to the run's record, and where its last
write is not ahead any more, the stored status is as it was or final. -/
private structure MoveSpec (runId : String) (phase phase' : Phase) (store store' : RunStore) :
    Prop where
  tracked : ∀ record ∈ phase'.record?, record.runId = runId
  others : ∀ id, id ≠ runId → store'.readRun id = store.readRun id
  pending : phase'.isPending = true → store.readRun runId ≠ none → store'.readRun runId ≠ none
  settled : phase'.isPending = false → store.readRun runId ≠ none →
    phase.isPending = false ∧ store' = store ∨
      ∃ record, record.status.isFinal = true ∧ store'.readRun runId = some record

private theorem others_of_write {store : RunStore} {record : RunRecord} {runId : String}
    (same : record.runId = runId) (id : String) (other : id ≠ runId) :
    (store.writeRun record).readRun id = store.readRun id := by
  rw [RunStore.readRun_writeRun, if_neg (same ▸ other)]

private theorem read_of_write {store : RunStore} {record : RunRecord} {runId : String}
    (same : record.runId = runId) : (store.writeRun record).readRun runId = some record := by
  rw [RunStore.readRun_writeRun, if_pos same.symm]

private theorem stored_of_write {store : RunStore} {record : RunRecord} {runId : String}
    (same : record.runId = runId) : (store.writeRun record).readRun runId ≠ none := by
  rw [read_of_write same]
  exact Option.some_ne_none _

private theorem ThreadMove.spec {store store' : RunStore} {runId : String} {phase phase' : Phase}
    (move : ThreadMove store runId phase store' phase')
    (tracked : ∀ record ∈ phase.record?, record.runId = runId) :
    MoveSpec runId phase phase' store store' := by
  cases move with
  | read stored =>
    refine ⟨?_, fun _ _ => rfl, fun _ found => found, fun done => by cases done⟩
    intro record member
    cases member
    exact store.keyed runId _ stored
  | lost missing =>
    exact ⟨fun record member => (by cases member), fun _ _ => rfl, fun _ found => found,
      fun _ found => (found missing).elim⟩
  | begin record =>
    have same : record.runId = runId := tracked record rfl
    refine ⟨?_, others_of_write same, fun _ _ => stored_of_write same, fun done => by cases done⟩
    intro record member
    cases member
    exact same
  | stage advanced =>
    rename_i record written
    obtain ⟨kept, next⟩ := advance_cases advanced
    have same : written.runId = runId := kept.trans (tracked record rfl)
    refine ⟨?_, others_of_write same, fun _ _ => stored_of_write same, fun done _ => Or.inr ?_⟩
    · intro record member
      rcases next with rfl | ⟨-, rfl | rfl⟩
      · cases member
        exact same
      · cases member
        exact same
      · cases member
    · rcases next with rfl | ⟨final, -⟩
      · cases done
      · exact ⟨written, final, read_of_write same⟩
  | close record =>
    exact ⟨fun record member => (by cases member), fun _ _ => rfl, fun _ found => found,
      fun _ _ => Or.inl ⟨rfl, rfl⟩⟩
  | spoil record message =>
    have same : record.runId = runId := tracked record rfl
    exact ⟨fun record member => (by cases member), others_of_write same,
      fun _ _ => stored_of_write same, fun _ _ => Or.inr ⟨_, rfl, read_of_write same⟩⟩

variable {s : Controller} {runId : String} {action : Action} {store' : RunStore}
  {threads' : List RunThread}

private theorem StepEffect.tracked (effect : StepEffect s action store' threads')
    (tracked : Tracked s.threads) : Tracked threads' := by
  cases effect with
  | quiet => exact tracked
  | created milliseconds config =>
    intro thread member record loaded
    rcases List.mem_append.mp member with old | new
    · exact tracked thread old record loaded
    · rw [List.mem_singleton.mp new] at loaded
      cases loaded
  | stopped held unfinished => exact tracked
  | moved found move =>
    intro other member record loaded
    rcases List.mem_or_eq_of_mem_set member with old | rfl
    · exact tracked other old record loaded
    · exact (move.spec (tracked _ (List.mem_of_getElem? found))).tracked record loaded
  | released found finished =>
    intro other member
    exact tracked other (List.mem_of_mem_eraseIdx member)

private theorem mem_set_of_ne {threads : List RunThread} {index : ℕ} {thread other : RunThread}
    (found : threads[index]? = some thread) (apart : other ≠ thread) (member : other ∈ threads)
    {changed : RunThread} : other ∈ threads.set index changed := by
  obtain ⟨position, there⟩ := List.mem_iff_getElem?.mp member
  apply List.mem_iff_getElem?.mpr
  refine ⟨position, ?_⟩
  rw [List.getElem?_set_ne, there]
  rintro rfl
  rw [found] at there
  exact apart (Option.some.inj there).symm

private theorem mem_eraseIdx_of_ne {threads : List RunThread} {index : ℕ} {thread other : RunThread}
    (found : threads[index]? = some thread) (apart : other ≠ thread) (member : other ∈ threads) :
    other ∈ threads.eraseIdx index := by
  obtain ⟨position, there⟩ := List.mem_iff_getElem?.mp member
  rw [List.mem_eraseIdx_iff_getElem?]
  refine ⟨position, ?_, there⟩
  rintro rfl
  rw [found] at there
  exact apart (Option.some.inj there).symm

private theorem writesBack_of_held {call : ℕ} {record : RunRecord}
    (held : s.stops[call]? = some (.loaded record)) (same : record.runId = runId)
    (unfinished : record.status.isFinal = false) : s.writesBack runId call = true := by
  simp [Controller.writesBack, held, same, unfinished]

private theorem StepEffect.settled (effect : StepEffect s action store' threads')
    (tracked : Tracked s.threads) (prompt : action.Prompt runId s)
    (settled : Settled runId s.store s.threads) : Settled runId store' threads' := by
  cases effect with
  | quiet => exact settled
  | created milliseconds config =>
    have other : runId ≠ buildRunId milliseconds := fun same => prompt same.symm
    rcases settled with ⟨stored, thread, member, named, pending⟩ | ⟨record, final, stored⟩
    · left
      refine ⟨?_, thread, List.mem_append_left _ member, named, pending⟩
      rwa [RunStore.readRun_writeRun, if_neg other]
    · right
      refine ⟨record, final, ?_⟩
      rwa [RunStore.readRun_writeRun, if_neg other]
  | stopped held unfinished =>
    rename_i call record
    by_cases same : record.runId = runId
    · obtain ⟨thread, member, named, pending⟩ := prompt (writesBack_of_held held same unfinished)
      exact Or.inl ⟨stored_of_write same, thread, member, named, pending⟩
    · have kept : (s.store.writeRun { record with status := .cancelling }).readRun runId =
          s.store.readRun runId := others_of_write rfl runId (Ne.symm same)
      rw [Settled, kept]
      exact settled
  | moved found move =>
    rename_i index thread phase
    have spec := move.spec (tracked thread (List.mem_of_getElem? found))
    have inside : index < s.threads.length := (List.getElem?_eq_some_iff.mp found).1
    by_cases named : thread.runId = runId
    · rw [named] at spec
      have stored : s.store.readRun runId ≠ none := by
        rcases settled with ⟨stored, -⟩ | ⟨record, -, stored⟩
        · exact stored
        · rw [stored]
          exact Option.some_ne_none _
      cases pending : phase.isPending with
      | true =>
        exact Or.inl ⟨spec.pending pending stored, _, List.mem_set inside _, named, pending⟩
      | false =>
        rcases spec.settled pending stored with ⟨idle, rfl⟩ | final
        · refine settled.imp_left ?_
          rintro ⟨_, other, member, owns, ahead⟩
          have apart : other ≠ thread := by
            rintro rfl
            rw [idle] at ahead
            cases ahead
          exact ⟨stored, other, mem_set_of_ne found apart member, owns, ahead⟩
        · exact Or.inr final
    · rw [Settled, spec.others runId (Ne.symm named)]
      refine settled.imp_left ?_
      rintro ⟨stored, other, member, owns, ahead⟩
      have apart : other ≠ thread := by
        rintro rfl
        exact named owns
      exact ⟨stored, other, mem_set_of_ne found apart member, owns, ahead⟩
  | released found finished =>
    rename_i index thread
    refine settled.imp_left ?_
    rintro ⟨stored, other, member, owns, ahead⟩
    have apart : other ≠ thread := by
      rintro rfl
      rw [finished] at ahead
      cases ahead
    exact ⟨stored, other, mem_eraseIdx_of_ne found apart member, owns, ahead⟩

private theorem StepEffect.frozen (effect : StepEffect s action store' threads')
    (tracked : Tracked s.threads) (prompt : action.Prompt runId s) (released : Released runId s) :
    (∀ thread ∈ threads', thread.runId ≠ runId) ∧
      store'.readRun runId = s.store.readRun runId := by
  cases effect with
  | quiet => exact ⟨released, rfl⟩
  | created milliseconds config =>
    have other : buildRunId milliseconds ≠ runId := prompt
    constructor
    · intro thread member
      rcases List.mem_append.mp member with old | new
      · exact released thread old
      · rw [List.mem_singleton.mp new]
        exact other
    · rw [RunStore.readRun_writeRun, if_neg (Ne.symm other)]
  | stopped held unfinished =>
    rename_i call record
    refine ⟨released, others_of_write rfl runId (fun same => ?_)⟩
    obtain ⟨thread, member, named, -⟩ := prompt (writesBack_of_held held same.symm unfinished)
    exact released thread member named
  | moved found move =>
    rename_i index thread phase
    have own := released thread (List.mem_of_getElem? found)
    have spec := move.spec (tracked thread (List.mem_of_getElem? found))
    refine ⟨fun other member => ?_, spec.others runId (Ne.symm own)⟩
    rcases List.mem_or_eq_of_mem_set member with old | rfl
    · exact released other old
    · exact own
  | released found finished =>
    exact ⟨fun other member => released other (List.mem_of_mem_eraseIdx member), rfl⟩

/-! ### Whole runs of the controller -/

private theorem hasActiveRun_eq_false {store : RunStore}
    (idle : ∀ id record, store.readRun id = some record → record.status ∉ activeStatuses) :
    store.hasActiveRun = false := by
  rw [RunStore.hasActiveRun, List.any_eq_false]
  rintro ⟨id, record⟩ member
  have stored : store.readRun id = some record := (Dict.get?_eq_some_iff _ _ _).mpr member
  simpa using idle id record stored

private theorem not_active_of_final {status : RunStatus} (final : status.isFinal = true) :
    status ∉ activeStatuses := by
  cases status with
  | completed | failed | cancelled => decide
  | queued | bootstrapping | warmingUp | runningBaseline | runningCache | runningReference
  | aggregating | cancelling => cases final

private theorem unblocked_of_final (one : IdleOrOne s) (released : Released runId s)
    {record : RunRecord} (final : record.status.isFinal = true)
    (stored : s.store.readRun runId = some record) : Unblocked runId s := by
  have settled := not_active_of_final final
  refine ⟨?_, ?_, ?_⟩
  · rcases one with ⟨-, none, -⟩ | ⟨thread, only, active, -⟩
    · rw [none]
      exact (Option.some_ne_none _).symm
    · rw [active]
      intro same
      refine released thread ?_ (Option.some.inj same)
      rw [only]
      exact List.mem_singleton_self thread
  · intro found member
    rw [stored] at member
    cases member
    exact settled
  · intro none others milliseconds config
    have idle : s.store.hasActiveRun = false := by
      apply hasActiveRun_eq_false
      intro id found read
      by_cases same : id = runId
      · rw [same, stored] at read
        cases read
        exact settled
      · exact others id found same read
    rw [Controller.createRun, if_neg (by simp [none, idle])]
    exact Option.some_ne_none _

private def Sound (s : Controller) : Prop := IdleOrOne s ∧ Tracked s.threads

private theorem Sound.step (sound : Sound s) (action : Action) : Sound (action.step s) :=
  ⟨sound.1.step action, (step_effect action s).tracked sound.2⟩

private theorem settled_of_created {milliseconds : ℕ} {config : RunConfig}
    (created : (s.createRun milliseconds config).1 ≠ none) :
    Settled (buildRunId milliseconds) (s.createRun milliseconds config).2.store
      (s.createRun milliseconds config).2.threads := by
  unfold Controller.createRun at created ⊢
  dsimp only at created ⊢
  split at created
  · exact (created rfl).elim
  · rename_i free
    rw [if_neg free]
    left
    refine ⟨stored_of_write rfl, ⟨buildRunId milliseconds, .starting⟩, ?_, rfl, rfl⟩
    exact List.mem_append_right _ (List.mem_singleton_self _)

/-- A created run whose stop requests all write before its own last write stays finished from
its release on, whatever the order of everything else. -/
theorem finished_run_stays_finished (store : RunStore) (before actions : List Action)
    (milliseconds : ℕ) (config : RunConfig)
    (created : ((runAll Action.step before (Controller.init store)).createRun
      milliseconds config).1 ≠ none)
    (prompt : EachStep Action.step (Action.Prompt (buildRunId milliseconds)) actions
      ((runAll Action.step before (Controller.init store)).createRun milliseconds config).2) :
    StaysFinished (buildRunId milliseconds) actions
      ((runAll Action.step before (Controller.init store)).createRun milliseconds config).2 := by
  have reached : Sound (runAll Action.step before (Controller.init store)) :=
    invariant_of_steps (fun action s sound => sound.step action) before
      ⟨IdleOrOne.init store, fun thread member => by cases member⟩
  have sound := reached.step (.createRun milliseconds config)
  have settled := settled_of_created created
  intro earlier later split released
  rw [split, eachStep_append] at prompt
  obtain ⟨sound, settled⟩ := invariant_of_eachStep
    (I := fun s => Sound s ∧ Settled (buildRunId milliseconds) s.store s.threads)
    (fun action s prompt holds =>
      ⟨holds.1.step action, (step_effect action s).settled holds.1.2 prompt holds.2⟩)
    prompt.1 ⟨sound, settled⟩
  rcases settled with ⟨-, thread, member, named, -⟩ | ⟨record, final, stored⟩
  · exact (released thread member named).elim
  · obtain ⟨-, -, kept⟩ := invariant_of_eachStep
      (I := fun s => Sound s ∧ Released (buildRunId milliseconds) s ∧
        s.store.readRun (buildRunId milliseconds) = some record)
      (fun action s prompt holds =>
        have frozen := (step_effect action s).frozen holds.1.2 prompt holds.2.1
        ⟨holds.1.step action, frozen.1, frozen.2.trans holds.2.2⟩)
      prompt.2 ⟨sound, released, stored⟩
    refine ⟨⟨record.status, final, ?_, ?_⟩, unblocked_of_final sound.1 released final stored⟩
    · rw [storedStatus, stored]
      rfl
    · rw [split, runAll_append, storedStatus, kept]
      rfl

private def smallConfig : RunConfig := ⟨"detail_page", 1, 1, [50], 30, false⟩

private def oneRun : Controller := ((Controller.init .empty).createRun 1 smallConfig).2

private def askedToStop : List Action :=
  [.runStep 0 .done, .runStep 0 .done, .stopRun "run_1", .stopRead 0]

private def promptStop : List Action :=
  askedToStop ++ [.stopWrite 0, .runStep 0 .cancelled, .runStep 0 .done]

/-- The run ends and releases before the stop request writes its copy back. -/
private def lateStop : List Action :=
  askedToStop ++ [.runStep 0 .cancelled, .runStep 0 .done, .stopWrite 0]

theorem promptly_stopped_run_stays_finished :
    StaysFinished (buildRunId 1) promptStop oneRun ∧
      Released (buildRunId 1) (runAll Action.step promptStop oneRun) :=
  ⟨finished_run_stays_finished .empty [] promptStop 1 smallConfig (by decide +kernel)
    (by decide +kernel), by decide +kernel⟩

/-- The stored status is left at cancelling, and no run can be created any more. -/
theorem late_stop_revives_run :
    ¬ StaysFinished (buildRunId 1) lateStop oneRun ∧
      ((runAll Action.step lateStop oneRun).createRun 2 smallConfig).1 = none := by
  constructor
  · intro stays
    have released : Released (buildRunId 1) (runAll Action.step lateStop oneRun) := by decide +kernel
    have left : storedStatus (buildRunId 1) (runAll Action.step lateStop oneRun) =
        some .cancelling := by decide +kernel
    obtain ⟨⟨status, final, stored, -⟩, -⟩ := stays lateStop [] (List.append_nil _).symm released
    rw [left] at stored
    cases stored
    cases final
  · decide +kernel

end MiniRedis.App
