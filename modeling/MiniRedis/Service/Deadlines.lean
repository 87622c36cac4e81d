/- GID: MiniRedis/Service/Deadlines
   generality: I
   digest: TTL answers what the history of EXPIRE, SET and creations promised. -/

import MiniRedis.Service.Recency

set_option autoImplicit false
set_option relaxedAutoImplicit false

namespace MiniRedis.Service

open MiniRedis.Base MiniRedis.Python MiniRedis.Protocol MiniRedis.Commands

variable {t : ℚ} {s r : CommandService} {key : String}

/-! ### Deadlines along one operation -/

/-- If the key is still stored, it was stored before and has its deadline from there. -/
def Steady (s r : CommandService) (key : String) : Prop :=
  r.store.get? key ≠ none → s.store.get? key ≠ none ∧ r.ttl.get? key = s.ttl.get? key

theorem Steady.trans {q : CommandService} (first : Steady s r key) (second : Steady r q key) :
    Steady s q key := by
  intro stored
  obtain ⟨stored', deadline'⟩ := second stored
  obtain ⟨stored'', deadline''⟩ := first stored'
  exact ⟨stored'', deadline'.trans deadline''⟩

theorem Steady.of_sameElsewhere {other : String} (frame : SameElsewhere other s r)
    (apart : key ≠ other) : Steady s r key := by
  intro stored
  obtain ⟨store, deadline, -⟩ := frame key apart
  exact ⟨store ▸ stored, deadline⟩

private theorem Removal.steady (removal : Removal s r) (key : String) : Steady s r key := by
  intro stored
  cases removal with
  | tick | forget | count => exact ⟨stored, rfl⟩
  | drop key' =>
    have apart : key ≠ key' := by
      rintro rfl
      exact stored (Dict.get?_erase_self _ _)
    simp only [deleteKey, Dict.get?_erase, apart, if_false] at stored ⊢
    exact ⟨stored, trivial⟩

theorem Steady.of_removals (removals : Removals s r) (key : String) : Steady s r key := by
  induction removals with
  | refl => exact fun stored => ⟨stored, rfl⟩
  | tail _ removal ih => exact ih.trans (removal.steady key)

private theorem steady_touchKey (other : String) (s : CommandService) (key : String) :
    Steady s (touchKey other s) key := by
  intro stored
  rw [touchKey_store] at stored
  exact ⟨stored, by rw [touchKey_ttl]⟩

private theorem steady_apply (update : EntryUpdate) {other : String}
    (stored : s.store.get? other ≠ none) (key : String) :
    Steady s (update.apply other s) key := by
  intro left
  cases update with
  | keep => exact ⟨left, rfl⟩
  | put entry =>
    refine ⟨?_, rfl⟩
    by_cases same : key = other
    · rwa [same]
    · simpa [EntryUpdate.apply, mutateEntry, Dict.get?_set, same] using left
  | remove => exact Steady.of_removals (deleteEntryAndTtl_removals other s) key left

private theorem steady_finish (op : TypedOp) (entry : ValueEntry) {other : String}
    (stored : s.store.get? other ≠ none) (key : String) :
    Steady s (op.finish other entry s).2 key := by
  have updated := steady_apply (op.onEntry entry).2 stored key
  unfold TypedOp.finish
  dsimp only
  split
  · exact (updated.trans (steady_touchKey other _ key)).trans
      (.of_removals (ensureMaxMemory_removals [other] _) key)
  · exact updated

private theorem performTyped_created (consistent : Consistent s) (op : TypedOp)
    (absent : liveEntry (s.clock 0) s key = none)
    (stored : (performTyped key op s).2.store.get? key ≠ none) :
    (performTyped key op s).2.ttl.get? key = none := by
  have purge := purgeIfExpired_removals key s
  have purged := purge.moves.consistent consistent
  have found : (purgeIfExpired key s).2.store.get? key = none := by
    rw [purgeIfExpired_store, absent]
  simp only [performTyped, found] at stored ⊢
  cases creates : op.emptyContainer with
  | none =>
    rw [creates] at stored
    exact (stored found).elim
  | some container =>
    rw [creates] at stored
    obtain ⟨-, deadline⟩ := steady_finish op container (by simp) key stored
    refine deadline.trans ?_
    rw [storeEntry, touchKey_ttl]
    exact purged.noOrphan key found

private theorem performTyped_steady (other : String) (op : TypedOp)
    (apart : ¬ (other = key ∧ liveEntry (s.clock 0) s key = none)) :
    Steady s (performTyped other op s).2 key := by
  have purge := purgeIfExpired_removals other s
  have live := purgeIfExpired_store other s
  unfold performTyped
  dsimp only
  cases found : (purgeIfExpired other s).2.store.get? other with
  | none =>
    have different : key ≠ other := by
      rintro rfl
      exact apart ⟨rfl, live.symm.trans found⟩
    have forgotten := Steady.of_removals (purge.tail (.forget found)) key
    cases op.emptyContainer with
    | none => exact forgotten
    | some container =>
      have created := forgotten.trans (.of_sameElsewhere
        ((sameElsewhere_mutateEntry other container _).trans (sameElsewhere_touchKey other _))
        different)
      exact created.trans (steady_finish op container (s := storeEntry other container _)
        (by simp) key)
  | some entry =>
    have touched : Steady s (touchKey other (purgeIfExpired other s).2) key :=
      (Steady.of_removals purge key).trans (steady_touchKey other _ key)
    dsimp only
    split
    · exact touched
    · exact touched.trans (steady_finish op entry (by simp [found]) key)

/-- What an operation makes of the deadline of a key, if it decides it: `SET` drops it, `EXPIRE`
of a live key replaces it, and a typed operation that does not find the key may create it. -/
def Operation.newDeadline (t : ℚ) (s : CommandService) (key : String) :
    Operation → Option (Option PyFloat)
  | .set key' _ => if key' = key then some none else none
  | .expire key' seconds =>
    if key' = key ∧ liveEntry t s key ≠ none then some (some (calculateExpiresAt t seconds))
    else none
  | .typed key' _ => if key' = key ∧ liveEntry t s key = none then some none else none
  | _ => none

theorem perform_steady (moment : AtTime t s) (op : Operation) (key : String)
    (undecided : op.newDeadline t s key = none) : Steady s (perform op s).2 key := by
  have reading : s.clock 0 = t := congrFun moment 0
  cases op with
  | reply | configGet => exact fun stored => ⟨stored, rfl⟩
  | set key' value =>
    have apart : key ≠ key' := by
      rintro rfl
      simp [Operation.newDeadline] at undecided
    have frame : SameElsewhere key' s (setServiceExecute key' value s).2 := by
      intro other different
      simp [setServiceExecute, Dict.get?_set, Dict.get?_erase, different]
    exact (Steady.of_sameElsewhere (frame.trans (sameElsewhere_touchKey key' _)) apart).trans
      (.of_removals (ensureMaxMemory_removals [key'] _) key)
  | del key' =>
    have purge := purgeIfExpired_removals key' s
    rw [perform_del]
    split
    · rename_i absent
      exact .of_removals (purge.tail (.forget absent)) key
    · exact .of_removals (purge.trans (deleteEntryAndTtl_removals key' _)) key
  | expire key' seconds =>
    have kept := Steady.of_removals (purgeIfExpired_removals key' s) key
    have live := purgeIfExpired_store key' s
    rw [perform_expire, (moment.purged key').now]
    split
    · exact kept
    · rename_i stored
      have apart : key ≠ key' := by
        rintro rfl
        rw [reading] at live
        simp [Operation.newDeadline, ← live, stored] at undecided
      have dated : Steady (purgeIfExpired key' s).2 { (purgeIfExpired key' s).2 with
          ttl := (purgeIfExpired key' s).2.ttl.set key' (calculateExpiresAt t seconds) } key :=
        fun left => ⟨left, by simp [Dict.get?_set, apart]⟩
      exact (kept.trans dated).trans (steady_touchKey key' _ key)
  | ttl key' =>
    have kept := Steady.of_removals (purgeIfExpired_removals key' s) key
    rw [perform_ttl]
    split
    · exact kept
    · split <;> exact kept
  | dbsize | info => exact .of_removals (purgeAllExpiredKeys_removals s) key
  | flushdb => exact fun stored => (stored (flush_loop_empty s key)).elim
  | configSet value => exact .of_removals (ensureMaxMemory_removals [] _) key
  | typed key' op =>
    refine performTyped_steady key' op (fun both => ?_)
    rw [reading] at both
    simp [Operation.newDeadline, both] at undecided

theorem perform_newDeadline (moment : AtTime t s) (consistent : Consistent s) {op : Operation}
    {key : String} {deadline : Option PyFloat} (decided : op.newDeadline t s key = some deadline)
    (stored : (perform op s).2.store.get? key ≠ none) :
    (perform op s).2.ttl.get? key = deadline := by
  have reading : s.clock 0 = t := congrFun moment 0
  cases op with
  | set key' value =>
    simp only [Operation.newDeadline, Option.ite_none_right_eq_some, Option.some.injEq] at decided
    obtain ⟨rfl, rfl⟩ := decided
    obtain ⟨-, kept⟩ := Steady.of_removals (ensureMaxMemory_removals [key']
      (touchKey key' (setServiceExecute key' value s).2)) key' stored
    refine kept.trans ?_
    rw [touchKey_ttl]
    exact Dict.get?_erase_self _ _
  | expire key' seconds =>
    simp only [Operation.newDeadline, Option.ite_none_right_eq_some, Option.some.injEq] at decided
    obtain ⟨⟨rfl, visible⟩, rfl⟩ := decided
    have live : (purgeIfExpired key' s).2.store.get? key' ≠ none := by
      rwa [purgeIfExpired_store, reading]
    rw [perform_expire, (moment.purged key').now, if_neg live, touchKey_ttl]
    exact Dict.get?_set_self _ _ _
  | typed key' op =>
    simp only [Operation.newDeadline, Option.ite_none_right_eq_some, Option.some.injEq] at decided
    obtain ⟨⟨rfl, absent⟩, rfl⟩ := decided
    rw [← reading] at absent
    exact performTyped_created consistent op absent stored
  | _ => cases decided

/-! ### What a history promises -/

/-- The request is one of the named commands on the key. -/
def onKey (names : List String) (key : String) (request : Command) : Bool :=
  request.name ∈ names && request.arguments.head? = some key

/-- The exact value of a finite float. -/
def finiteValue : PyFloat → Option ℚ
  | .finite negative magnitude => some (PyFloat.signedValue negative magnitude)
  | _ => none

/-- The seconds that an `EXPIRE` asks for. -/
def requestedSeconds (request : Command) : Option ℚ :=
  ((request.arguments[1]?).bind parseFloat).bind finiteValue

/-- The key has no value, or its promised moment has come. -/
def Over (t : ℚ) (s : CommandService) (key : String) (promised : Option ℚ) : Prop :=
  s.store.get? key = none ∨ ∃ d, promised = some d ∧ d ≤ t

instance (t : ℚ) (s : CommandService) (key : String) (promised : Option ℚ) :
    Decidable (Over t s key promised) :=
  decidable_of_iff (s.store.get? key = none ∨ promised.any (· ≤ t) = true) (by
    unfold Over
    cases promised <;> simp)

/-- The promise after one more action: a `SET` of the key and a creation of it by a command that
finds it over withdraw the promise, a successful `EXPIRE` of it makes a new one. -/
def promiseAfter (key : String) (t : ℚ) (s : CommandService) (promised : Option ℚ) :
    Action → Option ℚ
  | .sweep _ => promised
  | .command request =>
    let outcome := ((execute request).exec { s with clock := fun _ => t }).1
    if onKey ["SET"] key request then none
    else if onKey ["EXPIRE"] key request && repliesOne outcome then
      (requestedSeconds request).map (t + ·)
    else if onKey growingCommands key request ∧ Over t s key promised then none
    else promised

/-- The moment of the last successful `EXPIRE` of the key plus its seconds, unless the key was
created or `SET` since. -/
def promise (key : String) : CommandService → Schedule → Option ℚ → Option ℚ
  | _, [], promised => promised
  | s, (t, action) :: rest, promised =>
    promise key ((action.event t).step s) rest (promiseAfter key t s promised action)

/-- The action asks for no infinite or undefined number of seconds. -/
def Action.FiniteExpire : Action → Prop
  | .sweep _ => True
  | .command request => request.name = "EXPIRE" → ∃ seconds, requestedSeconds request = some seconds

/-- A stored key has the deadline that was promised. -/
def KeepsPromise (key : String) (s : CommandService) (promised : Option ℚ) : Prop :=
  s.store.get? key ≠ none → s.ttl.get? key = promised.map PyFloat.ofRat

private theorem leRat_ofRat (d t : ℚ) : (PyFloat.ofRat d).leRat t = decide (d ≤ t) := by
  rw [PyFloat.ofRat, PyFloat.leRat, PyFloat.signedValue_ofRat]

theorem KeepsPromise.over_iff {promised : Option ℚ} (keeps : KeepsPromise key s promised) (t : ℚ) :
    Over t s key promised ↔ liveEntry t s key = none := by
  unfold Over liveEntry expiredAt
  by_cases stored : s.store.get? key = none
  · simp [stored]
  · rw [keeps stored]
    cases promised with
    | none => simp [stored]
    | some d => simp [stored, leRat_ofRat]

private theorem calculateExpiresAt_finite {x : PyFloat} {seconds : ℚ}
    (finite : finiteValue x = some seconds) (t : ℚ) :
    calculateExpiresAt t x = PyFloat.ofRat (t + seconds) := by
  cases x with
  | nan | inf => cases finite
  | finite negative magnitude =>
    cases finite
    rfl

private theorem KeepsPromise.steady {promised : Option ℚ} (keeps : KeepsPromise key s promised)
    (steady : Steady s r key) : KeepsPromise key r promised := by
  intro stored
  obtain ⟨before, deadline⟩ := steady stored
  exact deadline.trans (keeps before)

private theorem typed_not_listed {name : String} {rest : List String} {op : TypedOp}
    (denotes : DenotesTyped name rest op) : name ≠ "SET" ∧ name ≠ "EXPIRE" := by
  cases denotes <;> decide

private theorem repliesOne_expire (moment : AtTime t s) (key : String) (seconds : PyFloat) :
    repliesOne (perform (.expire key seconds) s).1 = true ↔ liveEntry t s key ≠ none := by
  rw [perform_expire, purgeIfExpired_store, show s.clock 0 = t from congrFun moment 0]
  by_cases absent : liveEntry t s key = none <;> simp [absent, repliesOne]

private theorem promiseAfter_other {request : Command} {promised : Option ℚ}
    (other : request.name ∉ "SET" :: "EXPIRE" :: growingCommands ∨
      request.arguments.head? ≠ some key) :
    promiseAfter key t s promised (.command request) = promised := by
  have apart : ∀ names, names ⊆ "SET" :: "EXPIRE" :: growingCommands →
      onKey names key request = false := by
    intro names listed
    rcases other with unlisted | elsewhere
    · have missing : request.name ∉ names := fun member => unlisted (listed member)
      simp [onKey, missing]
    · simp [onKey, elsewhere]
  have set := apart ["SET"] (by simp)
  have expire := apart ["EXPIRE"] (by simp)
  have growing := apart growingCommands (by simp)
  simp [promiseAfter, set, expire, growing]

private theorem KeepsPromise.command (consistent : Consistent s) {promised : Option ℚ}
    (keeps : KeepsPromise key s promised) {request : Command} {op : Operation}
    (denotes : Denotes request op) (finite : (Action.command request).FiniteExpire) :
    KeepsPromise key (perform op { s with clock := fun _ => t }).2
      (promiseAfter key t s promised (.command request)) := by
  have moment : AtTime t { s with clock := fun _ => t } := rfl
  have ready := consistent.tick (fun _ => t)
  have before : KeepsPromise key { s with clock := fun _ => t } promised := keeps
  have ran := execute_denotes denotes { s with clock := fun _ => t }
  have steady := perform_steady moment op key
  have decided := @perform_newDeadline _ _ moment ready op key
  cases denotes with
  | set key' value =>
    by_cases same : key' = key
    · subst same
      have none_now : promiseAfter key' t s promised (.command ⟨"SET", [key', value]⟩) = none := by
        simp [promiseAfter, onKey]
      rw [none_now]
      exact fun stored => decided (by simp [Operation.newDeadline]) stored
    · rw [promiseAfter_other (Or.inr (by simpa using same))]
      exact before.steady (steady (by simp [Operation.newDeadline, same]))
  | @expire key' text seconds read positive =>
    by_cases same : key' = key
    · subst same
      have one := repliesOne_expire moment key' seconds
      rw [liveEntry_tick] at one
      by_cases live : liveEntry t s key' = none
      · have refused : promiseAfter key' t s promised (.command ⟨"EXPIRE", [key', text]⟩) =
            promised := by
          have zero : repliesOne ((execute ⟨"EXPIRE", [key', text]⟩).exec
              { s with clock := fun _ => t }).1 = false := by
            rw [ran]
            simpa [live] using one
          simp [promiseAfter, onKey, zero, growingCommands]
        rw [refused]
        exact before.steady (steady (by simp [Operation.newDeadline, live]))
      · obtain ⟨d, requested⟩ := finite rfl
        have promised' : promiseAfter key' t s promised (.command ⟨"EXPIRE", [key', text]⟩) =
            some (t + d) := by
          have applied : repliesOne ((execute ⟨"EXPIRE", [key', text]⟩).exec
              { s with clock := fun _ => t }).1 = true := by
            rw [ran]
            exact one.mpr live
          simp [promiseAfter, onKey, applied, requested]
        have value : finiteValue seconds = some d := by
          simpa [requestedSeconds, read] using requested
        rw [promised']
        intro stored
        have dated := @decided (some (calculateExpiresAt t seconds))
          (by simp [Operation.newDeadline, live]) stored
        rw [dated, calculateExpiresAt_finite value]
        rfl
    · rw [promiseAfter_other (Or.inr (by simpa using same))]
      exact before.steady (steady (by simp [Operation.newDeadline, same]))
  | @typed name key' rest top typed =>
    by_cases same : key' = key
    · subst same
      obtain ⟨notSet, notExpire⟩ := typed_not_listed typed
      obtain ⟨-, grows⟩ := typed.listed
      have over_iff := keeps.over_iff t
      have reads : liveEntry t { s with clock := fun _ => t } key' = liveEntry t s key' := rfl
      by_cases live : liveEntry t s key' = none
      · have fresh := fun stored => @decided none
          (by simp [Operation.newDeadline, reads, live]) stored
        by_cases growing : name ∈ growingCommands
        · have withdrawn : promiseAfter key' t s promised (.command ⟨name, key' :: rest⟩) =
              none := by
            simp [promiseAfter, onKey, notSet, notExpire, growing, over_iff.mpr live]
          rw [withdrawn]
          exact fresh
        · intro stored
          refine (stored ?_).elim
          have empty : top.emptyContainer = none := by
            simpa [TypedOp.grows] using mt grows.mpr growing
          have gone : (purgeIfExpired key' { s with clock := fun _ => t }).2.store.get? key' =
              none := by
            rw [purgeIfExpired_store]
            exact live
          simp only [perform, performTyped, gone, empty]
          exact gone
      · have lasting : promiseAfter key' t s promised (.command ⟨name, key' :: rest⟩) =
            promised := by
          simp [promiseAfter, onKey, notSet, notExpire, over_iff, live]
        rw [lasting]
        exact before.steady (steady (by simp [Operation.newDeadline, reads, live]))
    · rw [promiseAfter_other (Or.inr (by simpa using same))]
      exact before.steady (steady (by simp [Operation.newDeadline, same]))
  | _ =>
    rw [promiseAfter_other (Or.inl (by simp [growingCommands]))]
    exact before.steady (steady rfl)

theorem KeepsPromise.step (consistent : Consistent s) {promised : Option ℚ}
    (keeps : KeepsPromise key s promised) {action : Action} (t : ℚ)
    (accepted : (action.event t).Accepted) (finite : action.FiniteExpire) :
    KeepsPromise key ((action.event t).step s) (promiseAfter key t s promised action) := by
  cases action with
  | sweep batchSize =>
    have swept : Removals s (Event.step (.sweep (fun _ => t) batchSize) s) :=
      .head (.tick s (fun _ => t)) (sweepOnce_removals batchSize _)
    exact keeps.steady (.of_removals swept key)
  | command request =>
    obtain ⟨op, denotes⟩ := accepted_denotes accepted
    have kept := keeps.command consistent denotes finite (t := t)
    rw [← execute_denotes denotes] at kept
    exact kept

/-- Along every history the table of deadlines is what the history promised. -/
theorem keeps_promise {schedule : Schedule} {promised : Option ℚ} (consistent : Consistent s)
    (keeps : KeepsPromise key s promised)
    (accepted : ∀ event ∈ schedule.events, event.Accepted)
    (finite : ∀ entry ∈ schedule, entry.2.FiniteExpire) :
    KeepsPromise key (run schedule.events s) (promise key s schedule promised) := by
  induction schedule generalizing s promised with
  | nil => exact keeps
  | cons entry rest ih =>
    obtain ⟨t, action⟩ := entry
    have here : (action.event t).Accepted := accepted _ List.mem_cons_self
    have next := keeps.step consistent t here (finite _ List.mem_cons_self)
    exact ih ((step_moves here s).consistent consistent) next
      (fun event member => accepted event (List.mem_cons_of_mem _ member))
      (fun entry member => finite entry (List.mem_cons_of_mem _ member))

/-! ### What `TTL` answers -/

private theorem ttl_reply_promised {promised : Option ℚ} (keeps : KeepsPromise key s promised)
    (t : ℚ) :
    ((execute ⟨"TTL", [key]⟩).exec { s with clock := fun _ => t }).1 =
      if Over t s key promised then .ok (.number (-2))
      else .ok (.number (promised.elim (-1) fun d => ⌈d - t⌉)) := by
  have moment : AtTime t { s with clock := fun _ => t } := rfl
  have live := purgeIfExpired_store key { s with clock := fun _ => t }
  rw [execute_denotes (.ttl key), perform_ttl, (moment.purged key).now, live, liveEntry_tick]
  by_cases absent : liveEntry t s key = none
  · rw [if_pos absent, if_pos ((keeps.over_iff t).mpr absent)]
  · rw [if_neg absent, if_neg (mt (keeps.over_iff t).mp absent)]
    have stored : (purgeIfExpired key { s with clock := fun _ => t }).2.store.get? key ≠ none := by
      rwa [live]
    obtain ⟨before, deadline⟩ := Steady.of_removals (purgeIfExpired_removals key _) key stored
    have dated : s.ttl.get? key = promised.map PyFloat.ofRat := keeps before
    rw [deadline]
    simp only [dated]
    cases promised with
    | none => rfl
    | some d =>
      have ahead : 0 < ⌈d - t⌉ := by
        rw [Int.ceil_pos, sub_pos]
        by_contra late
        exact absent ((keeps.over_iff t).mp (Or.inr ⟨d, rfl, not_lt.mp late⟩))
      have larger : max 0 ⌈d - t⌉ = ⌈d - t⌉ := by omega
      simp only [Option.map_some, PyFloat.ofRat, calculateRemainingSeconds,
        PyFloat.signedValue_ofRat, larger, Option.elim_some]
      rfl

private theorem undecided_of_other {request : Command} {op : Operation}
    (denotes : Denotes request op) (other : onKey ["SET", "EXPIRE"] key request = false)
    (live : liveEntry t s key ≠ none) :
    op.newDeadline t { s with clock := fun _ => t } key = none := by
  cases denotes with
  | set key' value =>
    have apart : key' ≠ key := by simpa [onKey] using other
    simp [Operation.newDeadline, apart]
  | expire key' read positive =>
    have apart : key' ≠ key := by simpa [onKey] using other
    simp [Operation.newDeadline, apart]
  | typed key' typed => simp [Operation.newDeadline, live]
  | _ => rfl

/-- After every history of accepted commands and sweeps with finite time-outs, `TTL` tells the
seconds that are left of the last `EXPIRE` since the key was created or `SET`. Besides these two
only a removal ends a deadline. -/
theorem ttl_tells_history (clock : ℕ → ℚ) (maxMemoryBytes : Option ℤ) (schedule : Schedule)
    (accepted : ∀ event ∈ schedule.events, event.Accepted)
    (finite : ∀ entry ∈ schedule, entry.2.FiniteExpire) (key : String) (t : ℚ) :
    let start := CommandService.init clock maxMemoryBytes
    let s := run schedule.events start
    let promised := promise key start schedule none
    let reply := ((execute ⟨"TTL", [key]⟩).exec { s with clock := fun _ => t }).1
    (reply = .ok (.number (-2)) ↔ Over t s key promised) ∧
    (reply = .ok (.number (-1)) ↔ ¬ Over t s key promised ∧ promised = none) ∧
    (∀ d, ¬ Over t s key promised → promised = some d →
      reply = .ok (.number ⌈d - t⌉) ∧ 1 ≤ ⌈d - t⌉) ∧
    ∀ action : Action, (action.event t).Accepted →
      (∀ request, action = .command request → onKey ["SET", "EXPIRE"] key request = false) →
      ¬ Over t s key promised → ((action.event t).step s).store.get? key ≠ none →
      promiseAfter key t s promised action = promised ∧
        ((action.event t).step s).ttl.get? key = s.ttl.get? key := by
  intro start s promised reply
  have consistent : Consistent s := (Reachable.run (.init clock maxMemoryBytes) accepted).consistent
  have keeps : KeepsPromise key s promised :=
    keeps_promise (.init clock maxMemoryBytes) (fun stored => (stored rfl).elim) accepted finite
  have told : reply = _ := ttl_reply_promised keeps t
  have ahead : ∀ d, ¬ Over t s key promised → promised = some d → 1 ≤ ⌈d - t⌉ := by
    intro d lasting same
    have positive : 0 < ⌈d - t⌉ := by
      rw [Int.ceil_pos, sub_pos]
      by_contra late
      exact lasting (Or.inr ⟨d, same, not_lt.mp late⟩)
    omega
  refine ⟨?_, ?_, fun d lasting same => ⟨?_, ahead d lasting same⟩, ?_⟩
  · rw [told]
    by_cases ended : Over t s key promised
    · simp [ended]
    · rw [if_neg ended]
      refine ⟨fun same => ?_, fun h => (ended h).elim⟩
      cases known : promised with
      | none => simp [known] at same
      | some d =>
        have positive := ahead d ended known
        simp only [known, Option.elim_some, Except.ok.injEq, RespValue.number.injEq] at same
        omega
  · rw [told]
    by_cases ended : Over t s key promised
    · simp [ended]
    · rw [if_neg ended]
      refine ⟨fun same => ⟨ended, ?_⟩, fun h => by rw [h.2]; rfl⟩
      cases known : promised with
      | none => rfl
      | some d =>
        have positive := ahead d ended known
        simp only [known, Option.elim_some, Except.ok.injEq, RespValue.number.injEq] at same
        omega
  · rw [told, if_neg lasting, same]
    rfl
  · intro action here other lasting stored
    have live : liveEntry t s key ≠ none := mt (keeps.over_iff t).mpr lasting
    cases action with
    | sweep batchSize =>
      have swept : Removals s (Event.step (.sweep (fun _ => t) batchSize) s) :=
        .head (.tick s (fun _ => t)) (sweepOnce_removals batchSize _)
      exact ⟨rfl, (Steady.of_removals swept key stored).2⟩
    | command request =>
      obtain ⟨op, denotes⟩ := accepted_denotes here
      have unnamed := other request rfl
      have set : onKey ["SET"] key request = false := by
        simp only [onKey, Bool.and_eq_false_iff, decide_eq_false_iff_not] at unnamed ⊢
        exact unnamed.imp_left (fun missing member => missing (by simp_all))
      have expire : onKey ["EXPIRE"] key request = false := by
        simp only [onKey, Bool.and_eq_false_iff, decide_eq_false_iff_not] at unnamed ⊢
        exact unnamed.imp_left (fun missing member => missing (by simp_all))
      refine ⟨by simp [promiseAfter, set, expire, lasting], ?_⟩
      have steady := perform_steady (s := { s with clock := fun _ => t }) rfl op key
        (undecided_of_other denotes unnamed live)
      rw [← execute_denotes denotes] at steady
      exact (steady stored).2

private def pushedList : Schedule :=
  [(0, .command ⟨"RPUSH", ["k", "a"]⟩), (1, .command ⟨"EXPIRE", ["k", "5"]⟩),
    (2, .command ⟨"LPUSH", ["k", "b"]⟩)]

theorem pushed_list_keeps_deadline :
    let s := run pushedList.events (CommandService.init (fun _ => 0) none)
    ((execute ⟨"TTL", ["k"]⟩).exec { s with clock := fun _ => 7 / 2 }).1 = .ok (.number 3) := by
  have accepted : ∀ event ∈ pushedList.events, event.Accepted := by
    intro event member
    simp only [Schedule.events, pushedList, List.map_cons, List.map_nil, List.mem_cons,
      List.not_mem_nil, or_false, Action.event] at member
    rcases member with rfl | rfl | rfl <;>
    · unfold Event.Accepted
      decide +kernel
  have finite : ∀ entry ∈ pushedList, entry.2.FiniteExpire := by
    have asked : requestedSeconds ⟨"EXPIRE", ["k", "5"]⟩ = some 5 := by decide +kernel
    intro entry member
    simp only [pushedList, List.mem_cons, List.not_mem_nil, or_false] at member
    rcases member with rfl | rfl | rfl
    · exact fun named => by simp at named
    · exact fun _ => ⟨5, asked⟩
    · exact fun named => by simp at named
  have told := (ttl_tells_history (fun _ => 0) none pushedList accepted finite "k" (7 / 2)).2.2.1 6
    (by decide +kernel) (by decide +kernel)
  have three : ⌈(6 : ℚ) - 7 / 2⌉ = 3 := by decide +kernel
  rw [three] at told
  exact told.1

end MiniRedis.Service
