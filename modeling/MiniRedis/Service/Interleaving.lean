/- GID: MiniRedis/Service/Interleaving
   generality: I
   digest: A write survives the sweeper thread unless it falls between its decision and its delete. -/

import MiniRedis.Service.Live
import MiniRedis.Service.Locality

set_option autoImplicit false
set_option relaxedAutoImplicit false

namespace MiniRedis.Service

open MiniRedis.Base MiniRedis.Python MiniRedis.Protocol MiniRedis.Commands

/-! ### The two threads -/

/-- Where the sweeper thread stands between two repository calls of `sweep_once`. -/
inductive SweeperPhase where
  | idle
  | scanning (t : ℚ) (keys : List String)
  | deletingValue (t : ℚ) (key : String) (keys : List String)
  | deletingDeadline (t : ℚ) (key : String) (keys : List String)

/-- The repositories are shared: the sweeper has no state of its own but its place in the code. -/
structure Threads where
  service : CommandService
  sweeper : SweeperPhase

/-- The next repository call of the sweeper; `reading` is what the clock would say. -/
def sweeperStep (batchSize : ℤ) (reading : ℚ) (threads : Threads) : Threads :=
  let s := threads.service
  match threads.sweeper with
  | .idle => ⟨s, .scanning reading (sliceUpTo s.ttl.keys batchSize)⟩
  | .scanning _ [] => ⟨s, .idle⟩
  | .scanning t (key :: keys) =>
    match s.ttl.get? key with
    | none => ⟨s, .scanning t keys⟩
    | some expiresAt =>
      if expiresAt.leRat t then ⟨s, .deletingValue t key keys⟩ else ⟨s, .scanning t keys⟩
  | .deletingValue t key keys => ⟨{ s with store := s.store.erase key }, .deletingDeadline t key keys⟩
  | .deletingDeadline t key keys => ⟨{ s with ttl := s.ttl.erase key }, .scanning t keys⟩

/-- One turn of a thread: a single call of the sweeper, or a whole command. -/
inductive Turn where
  | sweeper (reading : ℚ)
  | client (readings : ℕ → ℚ) (request : Command)

def Turn.step (batchSize : ℤ) : Turn → Threads → Threads
  | .sweeper reading, threads => sweeperStep batchSize reading threads
  | .client readings request, threads =>
    { threads with service := Event.step (.command readings request) threads.service }

def interleave (batchSize : ℤ) (turns : List Turn) (threads : Threads) : Threads :=
  turns.foldl (fun threads turn => turn.step batchSize threads) threads

/-! ### The sweeper alone -/

private theorem scan_alone (batchSize : ℤ) (t : ℚ) (keys : List String) (n : ℕ) (s : CommandService) :
    ∃ steps, (sweeperStep batchSize t)^[steps] ⟨s, .scanning t keys⟩ =
      ⟨(keys.foldl (sweepKey t) (n, s)).2, .idle⟩ := by
  induction keys generalizing n s with
  | nil => exact ⟨1, rfl⟩
  | cons key keys ih =>
    rw [List.foldl_cons]
    cases deadline : s.ttl.get? key with
    | none =>
      obtain ⟨steps, scanned⟩ := ih n s
      refine ⟨steps + 1, ?_⟩
      simpa [Function.iterate_succ_apply, sweeperStep, sweepKey, deadline] using scanned
    | some expiresAt =>
      cases expired : expiresAt.leRat t with
      | false =>
        obtain ⟨steps, scanned⟩ := ih n s
        refine ⟨steps + 1, ?_⟩
        simpa [Function.iterate_succ_apply, sweeperStep, sweepKey, deadline, expired] using scanned
      | true =>
        obtain ⟨steps, scanned⟩ := ih (n + 1) (deleteKey key s)
        refine ⟨steps + 3, ?_⟩
        simpa [Function.iterate_succ_apply, sweeperStep, sweepKey, deadline, expired, deleteKey]
          using scanned

/-- Without commands in between, the calls of the thread make up `sweep_once`. -/
theorem sweeper_alone (batchSize : ℤ) {t : ℚ} {s : CommandService} (moment : AtTime t s) :
    ∃ steps, (sweeperStep batchSize t)^[steps] ⟨s, .idle⟩ = ⟨(sweepOnce batchSize s).2, .idle⟩ := by
  obtain ⟨steps, scanned⟩ := scan_alone batchSize t (sliceUpTo s.ttl.keys batchSize) 0 s
  refine ⟨steps + 1, ?_⟩
  simp only [sweepOnce, moment.now]
  exact scanned

/-! ### Commands that do not concern a key -/

/-- The command names the key, or all keys. -/
def Concerns (key : String) (request : Command) : Prop :=
  request.name = "FLUSHDB" ∨
    request.name ∈ singleKeyCommands ∧ request.arguments.head? = some key

/-- The key has this value and no deadline. -/
structure Holds (key : String) (entry : ValueEntry) (s : CommandService) : Prop where
  store : s.store.get? key = some entry
  ttl : s.ttl.get? key = none

section Frame

variable {key : String} {entry : ValueEntry} {s : CommandService}

private theorem Holds.purgeOrForget (holds : Holds key entry s) (other : String) :
    Holds key entry (purgeOrForget s other) := by
  have purged : Holds key entry (purgeIfExpired other s).2 := by
    by_cases same : key = other
    · rw [← same, purgeIfExpired_of_no_deadline holds.ttl]
      exact holds
    · obtain ⟨readings, ⟨-, purged⟩ | ⟨-, purged⟩⟩ := purgeIfExpired_cases other s
      · rw [purged]
        exact ⟨holds.store, holds.ttl⟩
      · rw [purged]
        constructor
        · simpa [deleteKey, Dict.get?_erase, same] using holds.store
        · simpa [deleteKey, Dict.get?_erase, same] using holds.ttl
  unfold Service.purgeOrForget
  dsimp only
  split
  · exact ⟨purged.store, purged.ttl⟩
  · exact purged

private theorem Holds.purgeAllExpiredKeys (holds : Holds key entry s) :
    Holds key entry (purgeAllExpiredKeys s) := by
  unfold Service.purgeAllExpiredKeys
  generalize s.ttl.keys = keys
  induction keys generalizing s with
  | nil => exact holds
  | cons other keys ih => exact ih (holds.purgeOrForget other)

private theorem Holds.command (holds : Holds key entry s) {request : Command}
    (accepted : validate request = .ok ()) (elsewhere : ¬ Concerns key request)
    (unlimited : s.maxMemoryBytes = none)
    (unlimited' : ((execute request).exec s).2.maxMemoryBytes = none) :
    Holds key entry ((execute request).exec s).2 := by
  obtain ⟨op, denotes⟩ := accepted_denotes accepted
  by_cases single : request.name ∈ singleKeyCommands
  · obtain ⟨other, head⟩ : ∃ other, request.arguments.head? = some other := by
      cases denotes with
      | ping | dbsize | flushdb | info => simp [singleKeyCommands] at single
      | _ => exact ⟨_, rfl⟩
    have apart : key ≠ other := fun same => elsewhere (Or.inr ⟨single, same ▸ head⟩)
    have only := (execute_local single head).frame s s ⟨fun _ _ => rfl, fun _ _ => rfl, unlimited⟩
    exact ⟨(only.store key apart).trans holds.store, (only.ttl key apart).trans holds.ttl⟩
  · rw [execute_denotes denotes] at unlimited' ⊢
    cases denotes with
    | auth | hello | ping | pingMessage | select | client | infoOther | configOther | configGet =>
      exact holds
    | dbsize | info | infoSection => exact holds.purgeAllExpiredKeys
    | flushdb => exact (elsewhere (Or.inl rfl)).elim
    | @configSet _ _ _ value set known read =>
      -- a limit that is set would still stand afterwards
      have kept := (ensureMaxMemory_removals []
        { s with maxMemoryBytes := normalizeMaxMemoryBytes (some (value : ℤ)) }).shrunk.maxMemoryBytes
      have cleared : normalizeMaxMemoryBytes (some (value : ℤ)) = none := kept.symm.trans unlimited'
      have same := ensureMaxMemory_of_unlimited
        (s := { s with maxMemoryBytes := normalizeMaxMemoryBytes (some (value : ℤ)) }) cleared []
      simp only [perform, same]
      exact ⟨holds.store, holds.ttl⟩
    | typed other denotes => cases denotes <;> simp [singleKeyCommands] at single
    | _ => simp [singleKeyCommands] at single

end Frame

/-! ### Updates and the sweeper -/

/-- The sweeper has found the key's deadline over and has not deleted its value yet. -/
def SweeperPhase.Decided (key : String) : SweeperPhase → Prop
  | .deletingValue _ decided _ => decided = key
  | _ => False

/-- A turn of the sweeper, or of a client whose accepted command does not concern the key. -/
def Turn.Elsewhere (key : String) : Turn → Prop
  | .sweeper _ => True
  | .client _ request => validate request = .ok () ∧ ¬ Concerns key request

/-- What keeps a written value: it has no deadline, and the sweeper has not decided before. -/
structure Safe (key : String) (entry : ValueEntry) (threads : Threads) : Prop where
  holds : Holds key entry threads.service
  undecided : ¬ threads.sweeper.Decided key

section Runs

variable {key : String} {entry : ValueEntry} {threads : Threads} {batchSize : ℤ}

private theorem Safe.sweeperStep (safe : Safe key entry threads) (reading : ℚ) :
    Safe key entry (sweeperStep batchSize reading threads) := by
  obtain ⟨s, phase⟩ := threads
  obtain ⟨⟨stored, no_deadline⟩, undecided⟩ := safe
  cases phase with
  | idle => exact ⟨⟨stored, no_deadline⟩, id⟩
  | scanning t keys =>
    cases keys with
    | nil => exact ⟨⟨stored, no_deadline⟩, id⟩
    | cons other keys =>
      cases deadline : s.ttl.get? other with
      | none =>
        simp only [Service.sweeperStep, deadline]
        exact ⟨⟨stored, no_deadline⟩, id⟩
      | some expiresAt =>
        have apart : other ≠ key := by
          rintro rfl
          rw [no_deadline] at deadline
          cases deadline
        simp only [Service.sweeperStep, deadline]
        split
        · exact ⟨⟨stored, no_deadline⟩, apart⟩
        · exact ⟨⟨stored, no_deadline⟩, id⟩
  | deletingValue t other keys =>
    have apart : key ≠ other := fun same => undecided same.symm
    refine ⟨⟨?_, no_deadline⟩, id⟩
    simpa [Service.sweeperStep, Dict.get?_erase, apart] using stored
  | deletingDeadline t other keys =>
    refine ⟨⟨stored, ?_⟩, id⟩
    simp only [Service.sweeperStep, Dict.get?_erase, no_deadline, ite_self]

private theorem Safe.step (safe : Safe key entry threads) {turn : Turn}
    (elsewhere : turn.Elsewhere key) (unlimited : threads.service.maxMemoryBytes = none)
    (unlimited' : (turn.step batchSize threads).service.maxMemoryBytes = none) :
    Safe key entry (turn.step batchSize threads) := by
  cases turn with
  | sweeper reading => exact safe.sweeperStep reading
  | client readings request =>
    refine ⟨?_, safe.undecided⟩
    exact Holds.command (s := { threads.service with clock := readings })
      ⟨safe.holds.store, safe.holds.ttl⟩ elsewhere.1 elsewhere.2 unlimited unlimited'

private theorem Safe.run (safe : Safe key entry threads) {turns : List Turn}
    (elsewhere : ∀ turn ∈ turns, turn.Elsewhere key)
    (unlimited : ∀ n, (interleave batchSize (turns.take n) threads).service.maxMemoryBytes = none) :
    Safe key entry (interleave batchSize turns threads) := by
  induction turns generalizing threads with
  | nil => exact safe
  | cons turn turns ih =>
    have next : Safe key entry (turn.step batchSize threads) :=
      safe.step (elsewhere turn List.mem_cons_self) (unlimited 0) (unlimited 1)
    exact ih next (fun later member => elsewhere later (List.mem_cons_of_mem _ member))
      (fun n => unlimited (n + 1))

private theorem set_holds {s : CommandService} (unlimited : s.maxMemoryBytes = none)
    (readings : ℕ → ℚ) (key value : String) :
    Holds key (.string value) (Event.step (.command readings ⟨"SET", [key, value]⟩) s) ∧
      (Event.step (.command readings ⟨"SET", [key, value]⟩) s).maxMemoryBytes = none := by
  have touched : (touchKey key (setServiceExecute key value { s with clock := readings }).2).maxMemoryBytes
      = none := by
    rw [touchKey_maxMemoryBytes]
    exact unlimited
  simp only [Event.step, execute_denotes (.set key value), perform,
    ensureMaxMemory_of_unlimited touched]
  exact ⟨⟨by simp [setServiceExecute], by simp [setServiceExecute]⟩, touched⟩

private theorem get_reply (later : ℕ → ℚ) {s : CommandService} {key : String}
    (no_deadline : s.ttl.get? key = none) :
    ((execute ⟨"GET", [key]⟩).exec { s with clock := later }).1 =
      match s.store.get? key with
      | none => .ok .null
      | some entry => (requireString entry).map .blobString := by
  have unpurged : purgeIfExpired key { s with clock := later } = (false, { s with clock := later }) :=
    purgeIfExpired_of_no_deadline no_deadline
  rw [execute_typed .get, performTyped, unpurged]
  dsimp only
  cases s.store.get? key with
  | none => rfl
  | some entry => cases entry <;> rfl

private theorem decided_loses {threads : Threads} {key : String} (decided : threads.sweeper.Decided key)
    (batchSize : ℤ) (reading : ℚ) :
    (sweeperStep batchSize reading threads).service.store.get? key = none ∧
    (sweeperStep batchSize reading threads).service.ttl = threads.service.ttl ∧
    (sweeperStep batchSize reading threads).service.maxMemoryBytes =
      threads.service.maxMemoryBytes := by
  obtain ⟨s, phase⟩ := threads
  cases phase with
  | deletingValue t other keys =>
    obtain rfl : other = key := decided
    exact ⟨Dict.get?_erase_self _ _, rfl, rfl⟩
  | _ => exact decided.elim

/-- After `SET k v`, in whatever order the threads go on, as long as no command concerns the key
and no limit is set a `GET k` replies `v`, exactly if the `SET` did not fall between the sweeper's
reading of the key's expired deadline and its delete of the value. -/
theorem update_survives_iff (batchSize : ℤ) (threads : Threads) (key value : String)
    (readings : ℕ → ℚ) (unlimited : threads.service.maxMemoryBytes = none) :
    let written := Turn.step batchSize (.client readings ⟨"SET", [key, value]⟩) threads
    (∀ (turns : List Turn) (later : ℕ → ℚ), (∀ turn ∈ turns, turn.Elsewhere key) →
      (∀ n, (interleave batchSize (turns.take n) written).service.maxMemoryBytes = none) →
      ((execute ⟨"GET", [key]⟩).exec
        { (interleave batchSize turns written).service with clock := later }).1 =
        .ok (.blobString value)) ↔
    ¬ threads.sweeper.Decided key := by
  intro written
  obtain ⟨holds, still⟩ := set_holds unlimited readings key value
  constructor
  · intro survives decided
    have pending : written.sweeper.Decided key := decided
    obtain ⟨gone, deadlines, limit⟩ := decided_loses pending batchSize 0
    have kept : ∀ n, (interleave batchSize ([Turn.sweeper 0].take n) written).service.maxMemoryBytes =
        none := by
      intro n
      cases n with
      | zero => exact still
      | succ n =>
        rw [List.take_succ_cons, List.take_nil]
        exact limit.trans still
    have replied := survives [.sweeper 0] readings (by simp [Turn.Elsewhere]) kept
    have no_deadline : (sweeperStep batchSize 0 written).service.ttl.get? key = none := by
      rw [deadlines]
      exact holds.ttl
    have denied := get_reply readings no_deadline
    rw [gone] at denied
    cases denied.symm.trans replied
  · intro undecided turns later elsewhere limits
    have safe : Safe key (.string value) written := ⟨holds, undecided⟩
    have kept := (safe.run elsewhere limits).holds
    have replied := get_reply later kept.ttl
    rw [kept.store] at replied
    exact replied

end Runs

private def decidedSweep : Threads :=
  interleave 100
    [.client (fun _ => 0) ⟨"SET", ["k", "old"]⟩, .client (fun _ => 0) ⟨"EXPIRE", ["k", "1"]⟩,
      .sweeper 5, .sweeper 5]
    ⟨CommandService.init (fun _ => 0) none, .idle⟩

/-- The write falls between the two calls, and the sweeper deletes the new value. -/
theorem update_lost_to_sweeper :
    let written := Turn.step 100 (.client (fun _ => 5) ⟨"SET", ["k", "new"]⟩) decidedSweep
    let swept := Turn.step 100 (.sweeper 5) written
    ((execute ⟨"GET", ["k"]⟩).exec { swept.service with clock := fun _ => 5 }).1 ≠
      .ok (.blobString "new") := by
  intro written swept replied
  have gone : swept.service.store.get? "k" = none := by decide +kernel
  have no_deadline : swept.service.ttl.get? "k" = none := by decide +kernel
  have denied := get_reply (fun _ => 5) no_deadline
  rw [gone] at denied
  cases denied.symm.trans replied

/-- The same write before the sweeper looks at the deadline. -/
theorem update_before_decision_survives :
    let early := interleave 100
      [.client (fun _ => 0) ⟨"SET", ["k", "old"]⟩, .client (fun _ => 0) ⟨"EXPIRE", ["k", "1"]⟩,
        .sweeper 5] ⟨CommandService.init (fun _ => 0) none, .idle⟩
    let written := Turn.step 100 (.client (fun _ => 5) ⟨"SET", ["k", "new"]⟩) early
    let swept := interleave 100 [.sweeper 5, .sweeper 5, .sweeper 5] written
    ((execute ⟨"GET", ["k"]⟩).exec { swept.service with clock := fun _ => 5 }).1 =
      .ok (.blobString "new") := by
  intro early written swept
  have undecided : ¬ early.sweeper.Decided "k" := id
  refine (update_survives_iff 100 early "k" "new" (fun _ => 5) rfl).mpr undecided
    [.sweeper 5, .sweeper 5, .sweeper 5] (fun _ => 5) (by simp [Turn.Elsewhere]) (fun n => ?_)
  match n with
  | 0 | 1 | 2 => rfl
  | n + 3 =>
    rw [List.take_of_length_le (by simp)]
    rfl

end MiniRedis.Service
