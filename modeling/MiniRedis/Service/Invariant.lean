/- GID: MiniRedis/Service/Invariant
   generality: I
   digest: Every run of accepted commands and sweeps keeps the three tables consistent. -/

import Mathlib.Data.List.MinMax
import Mathlib.Logic.Relation
import MiniRedis.Service.Operation

set_option autoImplicit false
set_option relaxedAutoImplicit false

namespace MiniRedis.Service

open MiniRedis.Base MiniRedis.Python MiniRedis.Protocol MiniRedis.Commands

/-! ### Runs -/

/-- A command or a sweep, with the clock values it will read. -/
inductive Event where
  | command (readings : ℕ → ℚ) (request : Command)
  | sweep (readings : ℕ → ℚ) (batchSize : ℤ)

namespace Event

def Accepted : Event → Prop
  | .command _ request => validate request = .ok ()
  | .sweep _ _ => True

def step : Event → CommandService → CommandService
  | .command readings request, s => ((execute request).exec { s with clock := readings }).2
  | .sweep readings batchSize, s => (sweepOnce batchSize { s with clock := readings }).2

end Event

/-- The state after a sequence of events. -/
def run (events : List Event) (s : CommandService) : CommandService :=
  events.foldl (fun s event => event.step s) s

/-- The outcomes of the commands among a sequence of events, in order. -/
def replies : CommandService → List Event → List (Except PyException RespValue)
  | _, [] => []
  | s, .command readings request :: rest =>
    ((execute request).exec { s with clock := readings }).1 ::
      replies (Event.step (.command readings request) s) rest
  | s, .sweep readings batchSize :: rest =>
    replies (Event.step (.sweep readings batchSize) s) rest

/-- The states after any sequence of accepted commands and sweeps from empty tables. -/
inductive Reachable : CommandService → Prop
  | init (clock : ℕ → ℚ) (maxMemoryBytes : Option ℤ) :
      Reachable (CommandService.init clock maxMemoryBytes)
  | step {s : CommandService} {event : Event} (reached : Reachable s)
      (accepted : event.Accepted) : Reachable (event.step s)

theorem Reachable.run {s : CommandService} (reached : Reachable s) {events : List Event}
    (accepted : ∀ event ∈ events, event.Accepted) : Reachable (run events s) := by
  induction events generalizing s with
  | nil => exact reached
  | cons event events ih =>
    exact ih (reached.step (accepted event List.mem_cons_self))
      (fun later member => accepted later (List.mem_cons_of_mem _ member))

/-! ### Elementary changes -/

/-- The changes of expiry and eviction: none adds anything to a table. -/
inductive Removal : CommandService → CommandService → Prop
  | tick (s : CommandService) (readings : ℕ → ℚ) : Removal s { s with clock := readings }
  | drop (s : CommandService) (key : String) : Removal s (deleteKey key s)
  | forget {s : CommandService} {key : String} (absent : s.store.get? key = none) :
      Removal s (forgetKey key s)
  | count (s : CommandService) (evictedKeys : ℕ) : Removal s { s with evictedKeys := evictedKeys }

abbrev Removals := Relation.ReflTransGen Removal

/-- The changes the server makes to its tables, each under the condition it establishes first. -/
inductive Move : CommandService → CommandService → Prop
  | removal {s s' : CommandService} (removal : Removal s s') : Move s s'
  | touch (s : CommandService) (key : String) : Move s (touchKey key s)
  | put (s : CommandService) (key : String) (entry : ValueEntry) : Move s (storeEntry key entry s)
  | change {s : CommandService} {key : String} (stored : s.store.get? key ≠ none)
      (entry : ValueEntry) : Move s (mutateEntry key entry s)
  | persist (s : CommandService) (key : String) : Move s { s with ttl := s.ttl.erase key }
  | deadline {s : CommandService} {key : String} (stored : s.store.get? key ≠ none)
      (expiresAt : PyFloat) : Move s { s with ttl := s.ttl.set key expiresAt }
  | limit (s : CommandService) (maxMemoryBytes : Option ℕ+) :
      Move s { s with maxMemoryBytes := maxMemoryBytes }
  | clear {s : CommandService} (empty : ∀ key, s.store.get? key = none) :
      Move s { s with accessOrder := Dict.empty }

abbrev Moves := Relation.ReflTransGen Move

theorem Removals.moves {s s' : CommandService} (removals : Removals s s') : Moves s s' :=
  Relation.ReflTransGen.mono (fun _ _ removal => Move.removal removal) s s' removals

private theorem foldl_removals {α : Type} (f : CommandService → α → CommandService)
    (removals : ∀ s a, Removals s (f s a)) (l : List α) (s : CommandService) :
    Removals s (l.foldl f s) := by
  induction l generalizing s with
  | nil => exact .refl
  | cons a l ih => exact (removals s a).trans (ih (f s a))

/-- The key has a deadline that is over at `t`. -/
def expiredAt (t : ℚ) (s : CommandService) (key : String) : Bool :=
  (s.ttl.get? key).any (·.leRat t)

theorem sweepKey_eq (t : ℚ) (n : ℕ) (s : CommandService) (key : String) :
    sweepKey t (n, s) key = if expiredAt t s key then (n + 1, deleteKey key s) else (n, s) := by
  unfold sweepKey expiredAt
  cases s.ttl.get? key with
  | none => rfl
  | some expiresAt => rfl

theorem purgeIfExpired_cases (key : String) (s : CommandService) :
    ∃ readings,
      expiredAt (s.clock 0) s key = false ∧
        purgeIfExpired key s = (false, { s with clock := readings }) ∨
      expiredAt (s.clock 0) s key = true ∧
        purgeIfExpired key s = (true, deleteKey key { s with clock := readings }) := by
  unfold purgeIfExpired isExpired expiredAt
  cases hd : s.ttl.get? key with
  | none => exact ⟨s.clock, Or.inl ⟨rfl, rfl⟩⟩
  | some expiresAt =>
    refine ⟨fun n => s.clock (n + 1), ?_⟩
    cases he : expiresAt.leRat (s.clock 0) <;> simp [now, he]

theorem purgeIfExpired_of_no_deadline {key : String} {s : CommandService}
    (no_deadline : s.ttl.get? key = none) : purgeIfExpired key s = (false, s) := by
  simp [purgeIfExpired, isExpired, no_deadline]

theorem purgeIfExpired_removals (key : String) (s : CommandService) :
    Removals s (purgeIfExpired key s).2 := by
  obtain ⟨readings, ⟨-, h⟩ | ⟨-, h⟩⟩ := purgeIfExpired_cases key s
  · rw [h]
    exact .single (.tick s readings)
  · rw [h]
    exact .tail (.single (.tick s readings)) (.drop _ key)

theorem deleteEntryAndTtl_removals (key : String) (s : CommandService) :
    Removals s (deleteEntryAndTtl key s) :=
  .tail (.single (.drop s key)) (.forget (s := deleteKey key s) (Dict.get?_erase_self _ _))

private theorem purgeOrForget_removals (s : CommandService) (key : String) :
    Removals s (purgeOrForget s key) := by
  unfold purgeOrForget
  dsimp only
  split
  · rename_i absent
    exact .tail (purgeIfExpired_removals key s) (.forget absent)
  · exact purgeIfExpired_removals key s

theorem purgeAllExpiredKeys_removals (s : CommandService) : Removals s (purgeAllExpiredKeys s) :=
  foldl_removals _ purgeOrForget_removals _ s

theorem evictKey_removals (key : String) (s : CommandService) : Removals s (evictKey key s) :=
  .tail (deleteEntryAndTtl_removals key s) (.count _ _)

private theorem evictUntilFits_removals (maxMemory : ℕ) (protectedKeys : List String) (rounds : ℕ)
    (s : CommandService) : Removals s (evictUntilFits maxMemory protectedKeys rounds s) := by
  induction rounds generalizing s with
  | zero => exact .refl
  | succ rounds ih =>
    unfold evictUntilFits
    split
    · split
      · exact .refl
      · exact (evictKey_removals _ s).trans (ih _)
    · exact .refl

private theorem evictProtected_removals (maxMemory : ℕ) (protectedKeys : List String)
    (s : CommandService) : Removals s (evictProtected maxMemory protectedKeys s) := by
  induction protectedKeys generalizing s with
  | nil => exact .refl
  | cons key rest ih =>
    unfold evictProtected
    split
    · exact .refl
    · split
      · rename_i absent
        exact .trans (.single (.forget absent)) (ih _)
      · exact (evictKey_removals key s).trans (ih _)

theorem ensureMaxMemory_removals (protectedKeys : List String) (s : CommandService) :
    Removals s (ensureMaxMemory protectedKeys s) := by
  unfold ensureMaxMemory
  split
  · exact .refl
  · rename_i maxMemory _
    have loop := (purgeAllExpiredKeys_removals s).trans
      (evictUntilFits_removals maxMemory protectedKeys (purgeAllExpiredKeys s).store.size _)
    dsimp only
    split
    · exact loop
    · exact loop.trans (evictProtected_removals _ protectedKeys _)

theorem sweepOnce_removals (batchSize : ℤ) (s : CommandService) :
    Removals s (sweepOnce batchSize s).2 := by
  have round : ∀ t (acc : ℕ × CommandService) key, Removals acc.2 (sweepKey t acc key).2 := by
    intro t acc key
    unfold sweepKey
    split
    · exact .refl
    · split
      · exact .single (.drop _ key)
      · exact .refl
  have loop : ∀ t (keys : List String) (acc : ℕ × CommandService),
      Removals acc.2 (keys.foldl (sweepKey t) acc).2 := by
    intro t keys
    induction keys with
    | nil => exact fun acc => .refl
    | cons key keys ih => exact fun acc => (round t acc key).trans (ih _)
  exact .trans (.single (.tick s _)) (loop _ _ (0, _))

private theorem finish_moves (op : TypedOp) {key : String} (entry : ValueEntry)
    {s : CommandService} (stored : s.store.get? key ≠ none) :
    Moves s (op.finish key entry s).2 := by
  have update : Moves s ((op.onEntry entry).2.apply key s) := by
    cases (op.onEntry entry).2 with
    | keep => exact .refl
    | put value => exact .single (.change stored value)
    | remove => exact (deleteEntryAndTtl_removals key s).moves
  unfold TypedOp.finish
  dsimp only
  split
  · exact (update.tail (.touch _ key)).trans (ensureMaxMemory_removals [key] _).moves
  · exact update

@[simp] theorem touchKey_store (key : String) (s : CommandService) :
    (touchKey key s).store = s.store := by
  unfold touchKey
  split <;> rfl

@[simp] theorem touchKey_ttl (key : String) (s : CommandService) :
    (touchKey key s).ttl = s.ttl := by
  unfold touchKey
  split <;> rfl

@[simp] theorem touchKey_maxMemoryBytes (key : String) (s : CommandService) :
    (touchKey key s).maxMemoryBytes = s.maxMemoryBytes := by
  unfold touchKey
  split <;> rfl

@[simp] theorem touchKey_evictedKeys (key : String) (s : CommandService) :
    (touchKey key s).evictedKeys = s.evictedKeys := by
  unfold touchKey
  split <;> rfl

@[simp] theorem touchKey_clock (key : String) (s : CommandService) :
    (touchKey key s).clock = s.clock := by
  unfold touchKey
  split <;> rfl

@[simp] theorem storeEntry_store (key : String) (entry : ValueEntry) (s : CommandService) :
    (storeEntry key entry s).store = s.store.set key entry := touchKey_store _ _

private theorem performTyped_moves (key : String) (op : TypedOp) (s : CommandService) :
    Moves s (performTyped key op s).2 := by
  have purge := (purgeIfExpired_removals key s).moves
  unfold performTyped
  dsimp only
  split
  · rename_i absent
    have forget := purge.tail (.removal (.forget absent))
    split
    · exact forget
    · rename_i container _
      exact (forget.tail (.put _ key container)).trans (finish_moves op _ (by simp))
  · rename_i entry found
    have touch := purge.tail (.touch _ key)
    split
    · exact touch
    · exact touch.trans (finish_moves op _ (by simp [found]))

private theorem flush_absent (keys : List String) (s : CommandService) {key : String}
    (covered : key ∈ keys ∨ s.store.get? key = none) :
    (keys.foldl (fun s key => deleteEntryAndTtl key s) s).store.get? key = none := by
  induction keys generalizing s with
  | nil => simpa using covered
  | cons first keys ih =>
    refine ih _ ?_
    by_cases h : key = first
    · right
      simp [deleteEntryAndTtl, forgetKey, h]
    · rcases covered with covered | covered
      · left
        simpa [h] using covered
      · right
        simp [deleteEntryAndTtl, forgetKey, Dict.get?_erase, h, covered]

theorem flush_loop_empty (s : CommandService) (key : String) :
    (s.store.keys.foldl (fun s key => deleteEntryAndTtl key s) s).store.get? key = none := by
  refine flush_absent s.store.keys s ?_
  rw [Dict.get?_eq_none_iff]
  exact em _

theorem flush_loop_removals (s : CommandService) :
    Removals s (s.store.keys.foldl (fun s key => deleteEntryAndTtl key s) s) :=
  foldl_removals _ (fun s key => deleteEntryAndTtl_removals key s) _ s

/-- Every operation is a sequence of elementary changes. -/
theorem perform_moves (op : Operation) (s : CommandService) : Moves s (perform op s).2 := by
  cases op with
  | reply outcome => exact .refl
  | set key value =>
    exact .trans (.tail (.single (.persist s key)) (.put _ key (.string value)))
      (ensureMaxMemory_removals [key] _).moves
  | del key =>
    have purge := (purgeIfExpired_removals key s).moves
    rw [perform_del]
    split
    · rename_i absent
      exact purge.tail (.removal (.forget absent))
    · exact purge.trans ((deleteEntryAndTtl_removals key _).moves)
  | expire key seconds =>
    have purge := (purgeIfExpired_removals key s).moves
    rw [perform_expire]
    split
    · exact purge
    · rename_i stored
      have read : Moves s (now (purgeIfExpired key s).2).2 := purge.tail (.removal (.tick _ _))
      exact (read.tail (.deadline (s := (now _).2) stored _)).tail (.touch _ key)
  | ttl key =>
    have purge := (purgeIfExpired_removals key s).moves
    rw [perform_ttl]
    split
    · exact purge
    · split
      · exact purge
      · exact purge.tail (.removal (.tick _ _))
  | dbsize => exact (purgeAllExpiredKeys_removals s).moves
  | flushdb =>
    exact ((flush_loop_removals s).moves.tail (.clear (flush_loop_empty s))).tail (.removal (.count _ 0))
  | info => exact (purgeAllExpiredKeys_removals s).moves
  | configGet => exact .refl
  | configSet value => exact .trans (.single (.limit s _)) (ensureMaxMemory_removals [] _).moves
  | typed key op => exact performTyped_moves key op s

theorem step_moves {event : Event} (accepted : event.Accepted) (s : CommandService) :
    Moves s (event.step s) := by
  cases event with
  | command readings request =>
    obtain ⟨op, denotes⟩ := accepted_denotes accepted
    simp only [Event.step, execute_denotes denotes]
    exact .trans (.single (.removal (.tick s readings))) (perform_moves op _)
  | sweep readings batchSize =>
    exact .trans (.single (.removal (.tick s readings))) (sweepOnce_removals batchSize _).moves

/-! ### Consistency -/

/-- A deadline belongs to a stored key, a stored key has a stamp, and no two keys share one. -/
structure Consistent (s : CommandService) : Prop where
  noOrphan : ∀ key, s.store.get? key = none → s.ttl.get? key = none
  stamped : ∀ key, s.store.get? key ≠ none → ∃ n, s.accessOrder.get? key = some n
  stamp_le : ∀ key n, s.accessOrder.get? key = some n → n ≤ s.accessClock
  stamp_inj : ∀ key key' n, s.accessOrder.get? key = some n →
    s.accessOrder.get? key' = some n → key = key'

theorem Consistent.init (clock : ℕ → ℚ) (maxMemoryBytes : Option ℤ) :
    Consistent (CommandService.init clock maxMemoryBytes) := by
  constructor <;> simp [CommandService.init]

theorem Consistent.tick {s : CommandService} (consistent : Consistent s) (readings : ℕ → ℚ) :
    Consistent { s with clock := readings } :=
  ⟨consistent.noOrphan, consistent.stamped, consistent.stamp_le, consistent.stamp_inj⟩

private theorem consistent_forget {s : CommandService} (consistent : Consistent s) {key : String}
    (absent : s.store.get? key = none) : Consistent (forgetKey key s) where
  noOrphan := consistent.noOrphan
  stamped := by
    intro key' stored
    have hne : key' ≠ key := by
      rintro rfl
      exact stored absent
    simpa [forgetKey, Dict.get?_erase, hne] using consistent.stamped key' stored
  stamp_le := by
    intro key' n found
    simp only [forgetKey, Dict.get?_erase] at found
    split at found
    · cases found
    · exact consistent.stamp_le key' n found
  stamp_inj := by
    intro a b n ha hb
    simp only [forgetKey, Dict.get?_erase] at ha hb
    split at ha
    · cases ha
    · split at hb
      · cases hb
      · exact consistent.stamp_inj a b n ha hb

private theorem consistent_touch {s : CommandService} {key : String}
    (noOrphan : ∀ key, s.store.get? key = none → s.ttl.get? key = none)
    (stamped : ∀ key', key' ≠ key → s.store.get? key' ≠ none → ∃ n, s.accessOrder.get? key' = some n)
    (stamp_le : ∀ key n, s.accessOrder.get? key = some n → n ≤ s.accessClock)
    (stamp_inj : ∀ key key' n, s.accessOrder.get? key = some n →
      s.accessOrder.get? key' = some n → key = key') : Consistent (touchKey key s) := by
  have fresh : ∀ key', s.accessOrder.get? key' ≠ some (s.accessClock + 1) := by
    intro key' found
    exact absurd (stamp_le _ _ found) (by omega)
  by_cases absent : s.store.get? key = none
  · simp only [touchKey, absent, if_true]
    refine consistent_forget ⟨noOrphan, fun key' stored => ?_, stamp_le, stamp_inj⟩ absent
    exact stamped key' (fun h => stored (h ▸ absent)) stored
  · simp only [touchKey, absent, if_false]
    refine ⟨noOrphan, fun key' stored => ?_, fun key' n found => ?_, fun a b n ha hb => ?_⟩
    · by_cases h : key' = key
      · exact ⟨s.accessClock + 1, by simp [h]⟩
      · simpa [Dict.get?_set, h] using stamped key' h stored
    · simp only [Dict.get?_set] at found
      split at found
      · simp only [Option.some.injEq] at found
        exact found.symm.le
      · exact (stamp_le key' n found).trans (Nat.le_succ _)
    · simp only [Dict.get?_set] at ha hb
      split at ha <;> split at hb
      · exact Eq.trans ‹a = key› ‹b = key›.symm
      · exact absurd (hb.trans ha.symm) (fresh b)
      · exact absurd (ha.trans hb.symm) (fresh a)
      · exact stamp_inj a b n ha hb

private theorem Removal.consistent {s s' : CommandService} (removal : Removal s s')
    (consistent : Consistent s) : Consistent s' := by
  obtain ⟨noOrphan, stamped, stamp_le, stamp_inj⟩ := consistent
  cases removal with
  | tick readings => exact Consistent.tick ⟨noOrphan, stamped, stamp_le, stamp_inj⟩ readings
  | drop key =>
    refine ⟨fun key' absent => ?_, fun key' stored => stamped key' ?_, stamp_le, stamp_inj⟩
    · simp only [deleteKey, Dict.get?_erase] at absent ⊢
      split
      · rfl
      · rename_i h
        rw [if_neg h] at absent
        exact noOrphan key' absent
    · intro absent
      simp [deleteKey, Dict.get?_erase, absent] at stored
  | forget absent => exact consistent_forget ⟨noOrphan, stamped, stamp_le, stamp_inj⟩ absent
  | count evictedKeys => exact ⟨noOrphan, stamped, stamp_le, stamp_inj⟩

theorem Move.consistent {s s' : CommandService} (move : Move s s') (consistent : Consistent s) :
    Consistent s' := by
  obtain ⟨noOrphan, stamped, stamp_le, stamp_inj⟩ := consistent
  cases move with
  | removal removal => exact removal.consistent ⟨noOrphan, stamped, stamp_le, stamp_inj⟩
  | touch key => exact consistent_touch noOrphan (fun key _ => stamped key) stamp_le stamp_inj
  | put key entry =>
    refine consistent_touch (fun key' absent => noOrphan key' ?_) (fun key' h stored => ?_)
      stamp_le stamp_inj
    · simp only [Dict.get?_set] at absent
      split at absent
      · cases absent
      · exact absent
    · exact stamped key' (by simpa [Dict.get?_set, h] using stored)
  | change stored entry =>
    rename_i key
    have same : ∀ key', (s.store.set key entry).get? key' = none ↔ s.store.get? key' = none := by
      intro key'
      by_cases h : key' = key
      · simp [h, stored]
      · simp [Dict.get?_set, h]
    refine ⟨fun key' absent => noOrphan key' ((same key').mp absent), fun key' h => ?_, stamp_le,
      stamp_inj⟩
    exact stamped key' (fun absent => h ((same key').mpr absent))
  | persist key =>
    refine ⟨fun key' absent => ?_, stamped, stamp_le, stamp_inj⟩
    simp [Dict.get?_erase, noOrphan key' absent]
  | deadline stored expiresAt =>
    rename_i key
    refine ⟨fun key' absent => ?_, stamped, stamp_le, stamp_inj⟩
    have hne : key' ≠ key := by
      rintro rfl
      exact stored absent
    simpa [Dict.get?_set, hne] using noOrphan key' absent
  | limit maxMemoryBytes => exact ⟨noOrphan, stamped, stamp_le, stamp_inj⟩
  | clear empty =>
    exact ⟨noOrphan, fun key stored => (stored (empty key)).elim, by simp, by simp⟩

theorem Moves.consistent {s s' : CommandService} (moves : Moves s s') (consistent : Consistent s) :
    Consistent s' := by
  induction moves with
  | refl => exact consistent
  | tail _ move ih => exact move.consistent ih

theorem Reachable.consistent {s : CommandService} (reached : Reachable s) : Consistent s := by
  induction reached with
  | init clock maxMemoryBytes => exact .init clock maxMemoryBytes
  | step _ accepted ih => exact Moves.consistent (step_moves accepted _) ih

/-! ### Deadlines of re-created keys -/

/-- Nothing was added: what a table still holds, it held before. -/
structure Shrunk (s s' : CommandService) : Prop where
  store : ∀ key entry, s'.store.get? key = some entry → s.store.get? key = some entry
  ttl : ∀ key expiresAt, s'.ttl.get? key = some expiresAt → s.ttl.get? key = some expiresAt
  stamp : ∀ key n, s'.accessOrder.get? key = some n → s.accessOrder.get? key = some n
  accessClock : s'.accessClock = s.accessClock
  maxMemoryBytes : s'.maxMemoryBytes = s.maxMemoryBytes

private theorem some_of_erase {α : Type} {d : Dict String α} {key key' : String} {v : α}
    (found : (d.erase key).get? key' = some v) : d.get? key' = some v := by
  rw [Dict.get?_erase] at found
  split at found
  · cases found
  · exact found

private theorem Removal.shrunk {s s' : CommandService} (removal : Removal s s') : Shrunk s s' := by
  cases removal with
  | tick | count => exact ⟨fun _ _ h => h, fun _ _ h => h, fun _ _ h => h, rfl, rfl⟩
  | drop key =>
    exact ⟨fun _ _ h => some_of_erase h, fun _ _ h => some_of_erase h, fun _ _ h => h, rfl, rfl⟩
  | forget absent => exact ⟨fun _ _ h => h, fun _ _ h => h, fun _ _ h => some_of_erase h, rfl, rfl⟩

theorem Removals.shrunk {s s' : CommandService} (removals : Removals s s') : Shrunk s s' := by
  induction removals with
  | refl => exact ⟨fun _ _ h => h, fun _ _ h => h, fun _ _ h => h, rfl, rfl⟩
  | tail _ removal ih =>
    have last := removal.shrunk
    exact ⟨fun key entry h => ih.store key entry (last.store key entry h),
      fun key expiresAt h => ih.ttl key expiresAt (last.ttl key expiresAt h),
      fun key n h => ih.stamp key n (last.stamp key n h),
      last.accessClock.trans ih.accessClock, last.maxMemoryBytes.trans ih.maxMemoryBytes⟩

private theorem performTyped_maxMemoryBytes (key : String) (op : TypedOp) (s : CommandService) :
    (performTyped key op s).2.maxMemoryBytes = s.maxMemoryBytes := by
  have purged := (purgeIfExpired_removals key s).shrunk.maxMemoryBytes
  have finish : ∀ entry (r : CommandService), r.maxMemoryBytes = s.maxMemoryBytes →
      (op.finish key entry r).2.maxMemoryBytes = s.maxMemoryBytes := by
    intro entry r limit
    have updated : ((op.onEntry entry).2.apply key r).maxMemoryBytes = s.maxMemoryBytes := by
      cases (op.onEntry entry).2 <;> exact limit
    unfold TypedOp.finish
    dsimp only
    split
    · rw [(ensureMaxMemory_removals [key] _).shrunk.maxMemoryBytes, touchKey_maxMemoryBytes, updated]
    · exact updated
  unfold performTyped
  dsimp only
  split
  · split
    · exact purged
    · exact finish _ _ ((touchKey_maxMemoryBytes _ _).trans purged)
  · split
    · exact (touchKey_maxMemoryBytes _ _).trans purged
    · exact finish _ _ ((touchKey_maxMemoryBytes _ _).trans purged)

theorem perform_maxMemoryBytes {op : Operation} (other : ∀ value, op ≠ .configSet value)
    (s : CommandService) : (perform op s).2.maxMemoryBytes = s.maxMemoryBytes := by
  cases op with
  | reply | configGet => rfl
  | set key value =>
    exact ((ensureMaxMemory_removals [key] _).shrunk.maxMemoryBytes).trans
      (touchKey_maxMemoryBytes _ _)
  | del key =>
    have purged := (purgeIfExpired_removals key s).shrunk.maxMemoryBytes
    rw [perform_del]
    split <;> exact purged
  | expire key seconds =>
    have purged := (purgeIfExpired_removals key s).shrunk.maxMemoryBytes
    rw [perform_expire]
    split
    · exact purged
    · exact (touchKey_maxMemoryBytes _ _).trans purged
  | ttl key =>
    have purged := (purgeIfExpired_removals key s).shrunk.maxMemoryBytes
    rw [perform_ttl]
    split
    · exact purged
    · split <;> exact purged
  | dbsize | info => exact (purgeAllExpiredKeys_removals s).shrunk.maxMemoryBytes
  | flushdb => exact (flush_loop_removals s).shrunk.maxMemoryBytes
  | configSet value => exact (other value rfl).elim
  | typed key op => exact performTyped_maxMemoryBytes key op s

theorem Shrunk.ttl_none {s s' : CommandService} (shrunk : Shrunk s s') {key : String}
    (none_before : s.ttl.get? key = none) : s'.ttl.get? key = none := by
  cases h : s'.ttl.get? key with
  | none => rfl
  | some expiresAt =>
    rw [shrunk.ttl key expiresAt h] at none_before
    cases none_before

private theorem performTyped_no_deadline {s : CommandService} (consistent : Consistent s)
    {key : String} {op : TypedOp} (grows : op.grows = true)
    (gone : s.store.get? key = none ∨ expiredAt (s.clock 0) s key = true) :
    (performTyped key op s).2.ttl.get? key = none := by
  have purged : (purgeIfExpired key s).2.store.get? key = none ∧
      (purgeIfExpired key s).2.ttl.get? key = none := by
    obtain ⟨readings, ⟨live, h⟩ | ⟨-, h⟩⟩ := purgeIfExpired_cases key s
    · rw [h]
      have absent := gone.resolve_right (by simp [live])
      exact ⟨absent, consistent.noOrphan key absent⟩
    · rw [h]
      exact ⟨Dict.get?_erase_self _ _, Dict.get?_erase_self _ _⟩
  obtain ⟨container, hc⟩ := Option.isSome_iff_exists.mp grows
  simp only [performTyped, purged.1, hc, TypedOp.finish, grows, if_true]
  apply (ensureMaxMemory_removals [key] _).shrunk.ttl_none
  rw [touchKey_ttl]
  have stored : (storeEntry key container (forgetKey key (purgeIfExpired key s).2)).ttl.get? key =
      none := by
    simpa [storeEntry, forgetKey] using purged.2
  cases (op.onEntry container).2 with
  | keep | put => exact stored
  | remove => exact Dict.get?_erase_self _ _

private theorem ttl_reply_of_no_deadline {s : CommandService} {key : String}
    (no_deadline : s.ttl.get? key = none) :
    ((execute ⟨"TTL", [key]⟩).exec s).1 = .ok (.number (if key ∈ s.store.keys then -1 else -2)) := by
  rw [execute_denotes (.ttl key), perform_ttl, purgeIfExpired_of_no_deadline no_deadline]
  by_cases absent : s.store.get? key = none
  · have gone := (Dict.get?_eq_none_iff _ _).mp absent
    simp [absent, gone]
  · have stored := not_not.mp (mt (Dict.get?_eq_none_iff _ _).mpr absent)
    simp [absent, stored, no_deadline]

/-- Deadlines belong to stored keys, so a removed key that a growing command creates again
has none. -/
theorem no_orphan_deadlines {s : CommandService} (reached : Reachable s) :
    (∀ key ∈ s.ttl.keys, key ∈ s.store.keys) ∧
    ∀ (readings : ℕ → ℚ) (command : Command) (key : String),
      validate command = .ok () → command.name ∈ growingCommands →
      command.arguments.head? = some key →
      (key ∉ s.store.keys ∨ expiredAt (readings 0) s key = true) →
      let created := ((execute command).exec { s with clock := readings }).2
      created.ttl.get? key = none ∧
      ∀ later : ℕ → ℚ, ((execute ⟨"TTL", [key]⟩).exec { created with clock := later }).1 =
        .ok (.number (if key ∈ created.store.keys then -1 else -2)) := by
  have consistent := reached.consistent
  refine ⟨fun key member => ?_, fun readings command key accepted growing head gone => ?_⟩
  · by_contra absent
    rw [← Dict.get?_eq_none_iff] at absent
    exact (Dict.get?_eq_none_iff _ _).mp (consistent.noOrphan key absent) member
  · obtain ⟨op, denotes⟩ := accepted_denotes accepted
    rcases denotes.typed_or with ⟨key', rest, top, arguments, rfl, -, grows⟩ | ⟨-, -, other⟩
    · obtain rfl : key' = key := by simpa [arguments] using head
      rw [← Dict.get?_eq_none_iff] at gone
      have fresh : (performTyped key' top { s with clock := readings }).2.ttl.get? key' = none :=
        performTyped_no_deadline (consistent.tick readings) (grows.mp growing) gone
      simp only [execute_denotes denotes, perform]
      refine ⟨fresh, fun later => ?_⟩
      exact ttl_reply_of_no_deadline
        (s := { (performTyped key' top { s with clock := readings }).2 with clock := later }) fresh
    · exact (other growing).elim

private def shortLived : CommandService :=
  Event.step (.command (fun _ => 0) ⟨"EXPIRE", ["k", "1"]⟩)
    (Event.step (.command (fun _ => 0) ⟨"SET", ["k", "v"]⟩) (CommandService.init (fun _ => 0) none))

private theorem shortLived_reachable : Reachable shortLived := by
  have first : (Event.command (fun _ => 0) ⟨"SET", ["k", "v"]⟩).Accepted := by
    unfold Event.Accepted
    decide +kernel
  have second : (Event.command (fun _ => 0) ⟨"EXPIRE", ["k", "1"]⟩).Accepted := by
    unfold Event.Accepted
    decide +kernel
  exact .step (.step (.init _ none) first) second

theorem expired_key_created_again :
    let created := ((execute ⟨"HSET", ["k", "f", "v"]⟩).exec
      { shortLived with clock := fun _ => 5 }).2
    ((execute ⟨"TTL", ["k"]⟩).exec { created with clock := fun _ => 5 }).1 =
      .ok (.number (-1)) := by
  have created := ((no_orphan_deadlines shortLived_reachable).2 (fun _ => 5)
    ⟨"HSET", ["k", "f", "v"]⟩ "k" (by decide +kernel) (by decide) rfl (Or.inr (by decide +kernel))).2
    (fun _ => 5)
  have stored : "k" ∈ ((execute ⟨"HSET", ["k", "f", "v"]⟩).exec
      { shortLived with clock := fun _ => 5 }).2.store.keys := by decide +kernel
  rw [if_pos stored] at created
  exact created

end MiniRedis.Service
