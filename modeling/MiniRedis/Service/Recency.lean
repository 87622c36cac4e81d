/- GID: MiniRedis/Service/Recency
   generality: I
   digest: Stamps follow the history of accesses, so eviction is by last access. -/

import MiniRedis.Service.Enforcement
import MiniRedis.Service.Failure

set_option autoImplicit false
set_option relaxedAutoImplicit false

namespace MiniRedis.Service

open MiniRedis.Base MiniRedis.Python MiniRedis.Protocol MiniRedis.Commands

variable {t : ℚ} {s s' r : CommandService} {key : String}

/-! ### Stamps along one operation -/

/-- If the key is still stored, it was stored before and has its stamp from there. -/
def Kept (s r : CommandService) (key : String) : Prop :=
  r.store.get? key ≠ none →
    s.store.get? key ≠ none ∧ r.accessOrder.get? key = s.accessOrder.get? key

/-- If the key is still stored, its stamp is later than `accessClock`. -/
def Stamped (accessClock : ℕ) (r : CommandService) (key : String) : Prop :=
  r.store.get? key ≠ none → ∃ n, r.accessOrder.get? key = some n ∧ accessClock < n

theorem Kept.trans {q : CommandService} (first : Kept s r key) (second : Kept r q key) :
    Kept s q key := by
  intro stored
  obtain ⟨stored', stamp'⟩ := second stored
  obtain ⟨stored'', stamp''⟩ := first stored'
  exact ⟨stored'', stamp'.trans stamp''⟩

theorem Stamped.kept {accessClock : ℕ} {q : CommandService} (stamped : Stamped accessClock r key)
    (kept : Kept r q key) : Stamped accessClock q key := by
  intro stored
  obtain ⟨stored', stamp⟩ := kept stored
  rw [stamp]
  exact stamped stored'

theorem Kept.of_removals (consistent : Consistent s) (removals : Removals s r) (key : String) :
    Kept s r key := by
  intro stored
  have shrunk := removals.shrunk
  obtain ⟨entry, found⟩ := Option.ne_none_iff_exists'.mp stored
  obtain ⟨n, stamp⟩ := (removals.moves.consistent consistent).stamped key stored
  exact ⟨by simp [shrunk.store key entry found], by rw [stamp, shrunk.stamp key n stamp]⟩

theorem Kept.of_sameElsewhere {other : String} (frame : SameElsewhere other s r)
    (h : key ≠ other) : Kept s r key := by
  intro stored
  obtain ⟨store, _, stamp⟩ := frame key h
  exact ⟨store ▸ stored, stamp⟩

theorem touchKey_accessClock_le (key : String) (s : CommandService) :
    s.accessClock ≤ (touchKey key s).accessClock := by
  unfold touchKey
  split
  · exact le_refl _
  · exact Nat.le_succ _

theorem Stamped.touchKey {accessClock : ℕ} (key : String) (earlier : accessClock ≤ s.accessClock) :
    Stamped accessClock (touchKey key s) key := by
  intro stored
  rw [touchKey_store] at stored
  exact ⟨s.accessClock + 1, by simp [Service.touchKey, stored], by omega⟩

/-- The key an operation stamps: the one it writes, and the one it finds live by a typed lookup
or gives a deadline to. -/
def Operation.touches (op : Operation) (s : CommandService) (key : String) : Prop :=
  match op with
  | .set key' _ => key = key'
  | .expire key' _ => key = key' ∧ liveEntry (s.clock 0) s key ≠ none
  | .typed key' top => key = key' ∧ (top.grows = true ∨ liveEntry (s.clock 0) s key ≠ none)
  | _ => False

private theorem sameElsewhere_apply (update : EntryUpdate) (key : String) (s : CommandService) :
    SameElsewhere key s (update.apply key s) := by
  cases update with
  | keep => exact fun _ _ => ⟨rfl, rfl, rfl⟩
  | put entry => exact sameElsewhere_mutateEntry key entry s
  | remove => exact sameElsewhere_deleteEntryAndTtl key s

private theorem apply_moves (update : EntryUpdate) (stored : s.store.get? key ≠ none) :
    Moves s (update.apply key s) := by
  cases update with
  | keep => exact .refl
  | put entry => exact .single (.change stored entry)
  | remove => exact (deleteEntryAndTtl_removals key s).moves

private theorem apply_accessClock (update : EntryUpdate) (key : String) (s : CommandService) :
    (update.apply key s).accessClock = s.accessClock := by
  cases update <;> rfl

private theorem finish_stamps (consistent : Consistent s) (key : String)
    (stored : s.store.get? key ≠ none) (op : TypedOp) (entry : ValueEntry) :
    (∀ accessClock ≤ s.accessClock, Stamped accessClock s key →
      Stamped accessClock (op.finish key entry s).2 key) ∧
    ∀ other, other ≠ key → Kept s (op.finish key entry s).2 other := by
  have updated := (apply_moves (op.onEntry entry).2 stored).consistent consistent
  have frame := sameElsewhere_apply (op.onEntry entry).2 key s
  unfold TypedOp.finish
  dsimp only
  split
  · have touched : Consistent (touchKey key ((op.onEntry entry).2.apply key s)) :=
      (Move.touch _ key).consistent updated
    have kept := Kept.of_removals touched (ensureMaxMemory_removals [key] _)
    refine ⟨fun accessClock earlier _ => ?_, fun other h => ?_⟩
    · refine Stamped.kept (.touchKey key ?_) (kept key)
      rwa [apply_accessClock]
    · exact ((Kept.of_sameElsewhere frame h).trans
        (.of_sameElsewhere (sameElsewhere_touchKey key _) h)).trans (kept other)
  · refine ⟨fun accessClock _ stamped => ?_, fun other h => .of_sameElsewhere frame h⟩
    cases (op.onEntry entry).2 with
    | keep => exact stamped
    | put value => exact fun _ => stamped stored
    | remove => exact fun stored => (stored (Dict.get?_erase_self _ _)).elim

private theorem performTyped_stamps (consistent : Consistent s) (key : String) (op : TypedOp)
    (other : String) :
    (other = key ∧ (op.grows = true ∨ liveEntry (s.clock 0) s other ≠ none) →
      Stamped s.accessClock (performTyped key op s).2 other) ∧
    (¬ (other = key ∧ (op.grows = true ∨ liveEntry (s.clock 0) s other ≠ none)) →
      Kept s (performTyped key op s).2 other) := by
  have purge := purgeIfExpired_removals key s
  have purged := purge.moves.consistent consistent
  have clock := purge.shrunk.accessClock
  have kept := Kept.of_removals consistent purge
  have live := purgeIfExpired_store key s
  unfold performTyped
  dsimp only
  split
  · rename_i absent
    have forget : Removals s (forgetKey key (purgeIfExpired key s).2) := purge.tail (.forget absent)
    have forgotten := forget.moves.consistent consistent
    rw [live] at absent
    split
    · rename_i shrinks
      have grows : op.grows = false := by simp [TypedOp.grows, shrinks]
      refine ⟨?_, fun _ => .of_removals consistent forget other⟩
      rintro ⟨rfl, h⟩
      simp [grows, absent] at h
    · rename_i container creates
      have grows : op.grows = true := by simp [TypedOp.grows, creates]
      have created : Consistent (storeEntry key container (forgetKey key (purgeIfExpired key s).2)) :=
        (Move.put _ key container).consistent forgotten
      have later := forget.shrunk.accessClock
      obtain ⟨stamps, frame⟩ := finish_stamps created key (by simp) op container
      refine ⟨?_, fun untouched => ?_⟩
      · rintro ⟨rfl, _⟩
        have bound := touchKey_accessClock_le other
          (mutateEntry other container (forgetKey other (purgeIfExpired other s).2))
        exact stamps s.accessClock (later.symm.le.trans bound) (.touchKey other later.symm.le)
      · have h : other ≠ key := fun h => untouched ⟨h, Or.inl grows⟩
        have stored := (Kept.of_removals consistent forget other).trans
          (.of_sameElsewhere (sameElsewhere_mutateEntry key container _) h)
        exact (stored.trans (.of_sameElsewhere (sameElsewhere_touchKey key _) h)).trans
          (frame other h)
  · rename_i entry found
    have touched := (Move.touch _ key).consistent purged
    have visible : liveEntry (s.clock 0) s key ≠ none := by
      rw [← live, found]
      exact fun h => by cases h
    have fresh : Stamped s.accessClock (touchKey key (purgeIfExpired key s).2) key :=
      .touchKey key clock.symm.le
    have others : ∀ other, other ≠ key → Kept s (touchKey key (purgeIfExpired key s).2) other :=
      fun other h => (kept other).trans (.of_sameElsewhere (sameElsewhere_touchKey key _) h)
    split
    · refine ⟨?_, fun untouched => others other (fun h => untouched ⟨h, Or.inr (h ▸ visible)⟩)⟩
      rintro ⟨rfl, _⟩
      exact fresh
    · obtain ⟨stamps, frame⟩ := finish_stamps touched key (by simp [found]) op entry
      refine ⟨?_, fun untouched => ?_⟩
      · rintro ⟨rfl, _⟩
        exact stamps s.accessClock (clock.symm.le.trans (touchKey_accessClock_le _ _)) fresh
      · have h : other ≠ key := fun h => untouched ⟨h, Or.inr (h ▸ visible)⟩
        exact (others other h).trans (frame other h)

/-- An operation stamps the key it touches and leaves every other stamp alone. -/
theorem perform_stamps (consistent : Consistent s) (op : Operation) (key : String) :
    (op.touches s key → Stamped s.accessClock (perform op s).2 key) ∧
      (¬ op.touches s key → Kept s (perform op s).2 key) := by
  cases op with
  | reply | configGet => exact ⟨False.elim, fun _ stored => ⟨stored, rfl⟩⟩
  | set key' value =>
    have frame : SameElsewhere key' s (setServiceExecute key' value s).2 := by
      intro other h
      simp [setServiceExecute, Dict.get?_set, Dict.get?_erase, h]
    have moves : Moves s (touchKey key' (setServiceExecute key' value s).2) :=
      .tail (.single (.persist s key')) (.put _ key' (.string value))
    have kept := Kept.of_removals (moves.consistent consistent) (ensureMaxMemory_removals [key'] _)
    refine ⟨?_, fun h => ?_⟩
    · rintro rfl
      have stamped : Stamped s.accessClock (touchKey key (setServiceExecute key value s).2) key :=
        .touchKey key (le_refl _)
      exact stamped.kept (kept key)
    · exact ((Kept.of_sameElsewhere frame h).trans
        (.of_sameElsewhere (sameElsewhere_touchKey key' _) h)).trans (kept key)
  | del key' =>
    refine ⟨False.elim, fun _ => ?_⟩
    have purge := purgeIfExpired_removals key' s
    rw [perform_del]
    split
    · rename_i absent
      exact .of_removals consistent (purge.tail (.forget absent)) key
    · exact .of_removals consistent (purge.trans (deleteEntryAndTtl_removals key' _)) key
  | expire key' seconds =>
    have purge := purgeIfExpired_removals key' s
    have clock := purge.shrunk.accessClock
    have kept := Kept.of_removals consistent purge key
    have live := purgeIfExpired_store key' s
    rw [perform_expire]
    split
    · rename_i absent
      refine ⟨?_, fun _ => kept⟩
      rintro ⟨rfl, visible⟩
      exact (visible (live.symm.trans absent)).elim
    · rename_i stored
      refine ⟨?_, fun untouched => ?_⟩
      · rintro ⟨rfl, _⟩
        exact .touchKey key clock.symm.le
      · have h : key ≠ key' := by
          rintro rfl
          exact untouched ⟨rfl, live ▸ stored⟩
        have deadline : Kept (purgeIfExpired key' s).2
            { (now (purgeIfExpired key' s).2).2 with
              ttl := (purgeIfExpired key' s).2.ttl.set key'
                (calculateExpiresAt (now (purgeIfExpired key' s).2).1 seconds) } key :=
          fun stored => ⟨stored, rfl⟩
        exact (kept.trans deadline).trans (.of_sameElsewhere (sameElsewhere_touchKey key' _) h)
  | ttl key' =>
    refine ⟨False.elim, fun _ => ?_⟩
    have kept := Kept.of_removals consistent (purgeIfExpired_removals key' s) key
    rw [perform_ttl]
    split
    · exact kept
    · split <;> exact kept
  | dbsize | info =>
    exact ⟨False.elim, fun _ => .of_removals consistent (purgeAllExpiredKeys_removals s) key⟩
  | flushdb => exact ⟨False.elim, fun _ stored => (stored (flush_loop_empty s key)).elim⟩
  | configSet value =>
    refine ⟨False.elim, fun _ => ?_⟩
    have limited := (Move.limit s (normalizeMaxMemoryBytes (some (value : ℤ)))).consistent consistent
    exact Kept.of_removals limited (ensureMaxMemory_removals [] _) key
  | typed key' top => exact performTyped_stamps consistent key' top key

/-! ### The history of accesses -/

def repliesOne : Except PyException RespValue → Bool
  | .ok (.number n) => n = 1
  | _ => false

/-- An access to a key: a command that wrote it, a successful `EXPIRE` of it, or one of the
`counted` commands when it found the key live, also when it then raised a type error. -/
def Event.accesses (counted : List String) (s : CommandService) : Event → String → Bool
  | .command readings request, key =>
    let outcome := ((execute request).exec { s with clock := readings }).1
    request.arguments.head? = some key &&
      (request.name ∈ "SET" :: growingCommands && outcome.isOk ||
        request.name ∈ counted && (liveEntry (readings 0) s key).isSome ||
        request.name = "EXPIRE" && repliesOne outcome)
  | .sweep _ _, _ => false

/-- For each key the number of the last event that accessed it, counted from one. -/
def lastAccesses (counted : List String) :
    CommandService → List Event → ℕ → (String → ℕ) → String → ℕ
  | _, [], _, last => last
  | s, event :: rest, n, last =>
    lastAccesses counted (event.step s) rest (n + 1)
      (fun key => if event.accesses counted s key then n + 1 else last key)

/-- All typed commands look their key up and stamp it before they check its type. -/
def lookupCommands : List String := typedCommands.map Prod.fst

private theorem typed_names {name : String} {valueType : ValueType}
    (listed : typedCommands.lookup name = some valueType) :
    name ∈ lookupCommands ∧ name ≠ "SET" ∧ name ≠ "EXPIRE" := by
  obtain ⟨before, after, split, -⟩ := List.lookup_eq_some_iff.mp listed
  refine ⟨?_, ?_, ?_⟩
  · rw [lookupCommands, split]
    simp
  · rintro rfl
    cases listed
  · rintro rfl
    cases listed

private theorem accesses_iff_touches {request : Command} {op : Operation}
    (denotes : Denotes request op) (readings : ℕ → ℚ) (s : CommandService) (key : String) :
    Event.accesses lookupCommands s (.command readings request) key = true ↔
      op.touches { s with clock := readings } key := by
  simp only [Event.accesses, execute_denotes denotes]
  cases denotes with
  | set key' value =>
    simp [Operation.touches, perform, Except.isOk, Except.toBool, eq_comm]
  | expire key' read positive =>
    have live := purgeIfExpired_store key' { s with clock := readings }
    simp only [Operation.touches, perform_expire, live, liveEntry_tick]
    by_cases h : key = key'
    · subst h
      by_cases visible : liveEntry (readings 0) s key = none <;>
        simp [visible, repliesOne, growingCommands, lookupCommands, typedCommands]
    · simp [h, Ne.symm h]
  | typed key' denotes =>
    rename_i top
    obtain ⟨listed, grows⟩ := denotes.listed
    obtain ⟨known, notSet, notExpire⟩ := typed_names listed
    simp only [Operation.touches, List.head?_cons, Option.some.injEq, List.mem_cons, notSet,
      false_or, known, notExpire, grows, perform, liveEntry_tick]
    by_cases h : key = key'
    · subst h
      rcases performTyped_outcome key top { s with clock := readings } with
        ⟨entry, _, found, live, _, raised⟩ | ⟨⟨value, replied⟩, _⟩
      · -- the type error is raised on a live key only
        have visible : liveEntry (readings 0) s key = some entry := by
          simpa [liveEntry, show expiredAt (readings 0) s key = false from live] using found
        simp [visible]
      · simp [replied, Except.isOk, Except.toBool, Option.isSome_iff_ne_none]
    · simp [h, Ne.symm h]
  | _ => simp [Operation.touches, growingCommands, lookupCommands, typedCommands]

private theorem step_stamps (consistent : Consistent s) {event : Event} (accepted : event.Accepted)
    (key : String) :
    (event.accesses lookupCommands s key = true → Stamped s.accessClock (event.step s) key) ∧
      (event.accesses lookupCommands s key = false → Kept s (event.step s) key) := by
  cases event with
  | command readings request =>
    obtain ⟨op, denotes⟩ := accepted_denotes accepted
    have stamps := perform_stamps (consistent.tick readings) op key
    have touched := accesses_iff_touches denotes readings s key
    simp only [Event.step, execute_denotes denotes]
    refine ⟨fun h => stamps.1 (touched.mp h), fun h => stamps.2 (fun touches => ?_)⟩
    rw [touched.mpr touches] at h
    cases h
  | sweep readings batchSize =>
    refine ⟨(fun h => by cases h), fun _ => ?_⟩
    exact Kept.of_removals (consistent.tick readings) (sweepOnce_removals batchSize _) key

private theorem accesses_unique {counted : List String} {event : Event} {a b : String}
    (ha : event.accesses counted s a = true) (hb : event.accesses counted s b = true) : a = b := by
  cases event with
  | command readings request =>
    simp only [Event.accesses, Bool.and_eq_true, decide_eq_true_eq] at ha hb
    exact Option.some.inj (ha.1.symm.trans hb.1)
  | sweep => cases ha

/-- The stamps order the stored keys as their last accesses do. -/
structure Faithful (s : CommandService) (n : ℕ) (last : String → ℕ) : Prop where
  bound : ∀ key, last key ≤ n
  order : ∀ a b, s.store.get? a ≠ none → s.store.get? b ≠ none →
    (lastAccess s a < lastAccess s b ↔ last a < last b)

private theorem Faithful.step {n : ℕ} {last : String → ℕ} (faithful : Faithful s n last)
    (consistent : Consistent s) {event : Event} (accepted : event.Accepted) :
    Faithful (event.step s) (n + 1)
      (fun key => if event.accesses lookupCommands s key then n + 1 else last key) := by
  have stamps := step_stamps consistent accepted
  -- an accessed key is later than every other one, on both sides
  have fresh : ∀ key, event.accesses lookupCommands s key = true →
      (event.step s).store.get? key ≠ none → s.accessClock < lastAccess (event.step s) key := by
    intro key accessed stored
    obtain ⟨m, found, later⟩ := (stamps key).1 accessed stored
    simpa [lastAccess, found] using later
  have old : ∀ key, event.accesses lookupCommands s key = false →
      (event.step s).store.get? key ≠ none →
      s.store.get? key ≠ none ∧ lastAccess (event.step s) key = lastAccess s key ∧
        lastAccess s key ≤ s.accessClock := by
    intro key untouched stored
    obtain ⟨stored', stamp⟩ := (stamps key).2 untouched stored
    obtain ⟨m, found⟩ := consistent.stamped key stored'
    refine ⟨stored', by rw [lastAccess, lastAccess, stamp], ?_⟩
    simpa [lastAccess, found] using consistent.stamp_le key m found
  refine ⟨fun key => ?_, fun a b ha hb => ?_⟩
  · split
    · exact le_refl _
    · exact (faithful.bound key).trans (Nat.le_succ n)
  · have boundA := faithful.bound a
    have boundB := faithful.bound b
    cases accessedA : event.accesses lookupCommands s a <;>
      cases accessedB : event.accesses lookupCommands s b
    · obtain ⟨storedA, stampA, _⟩ := old a accessedA ha
      obtain ⟨storedB, stampB, _⟩ := old b accessedB hb
      simpa [stampA, stampB] using faithful.order a b storedA storedB
    · obtain ⟨_, stampA, leA⟩ := old a accessedA ha
      have later := fresh b accessedB hb
      simp only [Bool.false_eq_true, if_true, if_false]
      omega
    · obtain ⟨_, stampB, leB⟩ := old b accessedB hb
      have later := fresh a accessedA ha
      simp only [Bool.false_eq_true, if_true, if_false]
      omega
    · obtain rfl := accesses_unique accessedA accessedB
      simp

private theorem Faithful.run {n : ℕ} {last : String → ℕ} (faithful : Faithful s n last)
    (consistent : Consistent s) {events : List Event}
    (accepted : ∀ event ∈ events, event.Accepted) :
    ∃ m, Faithful (run events s) m (lastAccesses lookupCommands s events n last) := by
  induction events generalizing s n last with
  | nil => exact ⟨n, faithful⟩
  | cons event events ih =>
    have first := accepted event List.mem_cons_self
    exact ih (faithful.step consistent first) ((step_moves first s).consistent consistent)
      (fun later member => accepted later (List.mem_cons_of_mem _ member))

/-! ### What enforcement finds after a write -/

/-- The state between a write of `key` and the enforcement of the limit. -/
structure Written (t : ℚ) (s : CommandService) (key : String) (entry : ValueEntry)
    (r : CommandService) : Prop where
  stored : liveEntry t r key = some entry
  frame : SameElsewhere key s r
  consistent : Consistent r
  moment : AtTime t r
  maxMemoryBytes : r.maxMemoryBytes = s.maxMemoryBytes
  evictedKeys : r.evictedKeys = s.evictedKeys

theorem SameElsewhere.trans {q : CommandService} (first : SameElsewhere key s r)
    (second : SameElsewhere key r q) : SameElsewhere key s q := by
  intro other h
  obtain ⟨store, ttl, stamp⟩ := first other h
  obtain ⟨store', ttl', stamp'⟩ := second other h
  exact ⟨store'.trans store, ttl'.trans ttl, stamp'.trans stamp⟩

private theorem set_written (moment : AtTime t s) (consistent : Consistent s) (key value : String) :
    Written t s key (.string value) (touchKey key (setServiceExecute key value s).2) where
  stored := by simp [liveEntry, expiredAt, setServiceExecute]
  frame := by
    refine SameElsewhere.trans ?_ (sameElsewhere_touchKey key _)
    intro other h
    simp [setServiceExecute, Dict.get?_set, Dict.get?_erase, h]
  consistent := by
    have moves : Moves s (touchKey key (setServiceExecute key value s).2) :=
      .tail (.single (.persist s key)) (.put _ key (.string value))
    exact moves.consistent consistent
  moment := (touchKey_clock _ _).trans moment
  maxMemoryBytes := touchKey_maxMemoryBytes _ _
  evictedKeys := touchKey_evictedKeys _ _

/-- The value a growing operation leaves, by what it found. -/
def TypedOp.grown (op : TypedOp) (found : Option ValueEntry) : Option ValueEntry :=
  match (found.orElse fun _ => op.emptyContainer).map op.onEntry with
  | some (_, .put entry) => some entry
  | _ => none

theorem onEntry_put {op : TypedOp} (grows : op.grows = true) (entry : ValueEntry) :
    ∃ reply value, op.onEntry entry = (reply, .put value) := by
  cases op <;> first | exact ⟨_, _, rfl⟩ | simp [TypedOp.grows, TypedOp.emptyContainer] at grows

private theorem sameElsewhere_purge (moment : AtTime t s) (key : String) :
    SameElsewhere key s (purgeIfExpired key s).2 := by
  rw [moment.purgeIfExpired]
  intro other h
  split <;> simp [deleteKey, Dict.get?_erase, h]

private theorem finish_written {b : CommandService} (frame : SameElsewhere key s b)
    (consistent : Consistent b) (moment : AtTime t b) (live : expiredAt t b key = false)
    (stored : b.store.get? key ≠ none) (maxMemoryBytes : b.maxMemoryBytes = s.maxMemoryBytes)
    (evictedKeys : b.evictedKeys = s.evictedKeys) {op : TypedOp} (grows : op.grows = true)
    {entry value : ValueEntry} (update : (op.onEntry entry).2 = .put value) :
    ∃ r, Written t s key value r ∧ (op.finish key entry b).2 = ensureMaxMemory [key] r := by
  refine ⟨touchKey key (mutateEntry key value b), ⟨?_, ?_, ?_, ?_, ?_, ?_⟩, ?_⟩
  · have live' : expiredAt t (touchKey key (mutateEntry key value b)) key = false := by
      rw [← live]
      exact expiredAt_congr (by simp [mutateEntry])
    rw [liveEntry, live', touchKey_store]
    exact Dict.get?_set_self _ _ _
  · exact (frame.trans (sameElsewhere_mutateEntry key value b)).trans
      (sameElsewhere_touchKey key _)
  · have moves : Moves b (touchKey key (mutateEntry key value b)) :=
      .tail (.single (.change stored value)) (.touch _ key)
    exact moves.consistent consistent
  · exact (touchKey_clock _ _).trans moment
  · rw [touchKey_maxMemoryBytes]
    exact maxMemoryBytes
  · rw [touchKey_evictedKeys]
    exact evictedKeys
  · simp only [TypedOp.finish, update, EntryUpdate.apply, grows, if_true]

private theorem typed_of_succeeded (moment : AtTime t s) {op : TypedOp}
    (succeeded : (performTyped key op s).1.isOk = true) :
    ∀ present, liveEntry t s key = some present → present.valueType = op.valueType := by
  intro present visible
  by_contra mismatch
  have found : (purgeIfExpired key s).2.store.get? key = some present := by
    rw [purgeIfExpired_store, show s.clock 0 = t from congrFun moment 0, visible]
  simp [performTyped, found, mismatch, Except.isOk, Except.toBool] at succeeded

private theorem grown_written (moment : AtTime t s) (consistent : Consistent s) {op : TypedOp}
    (grows : op.grows = true) (key : String)
    (typed : ∀ present, liveEntry t s key = some present → present.valueType = op.valueType) :
    ∃ entry r, op.grown (liveEntry t s key) = some entry ∧ Written t s key entry r ∧
      (performTyped key op s).2 = ensureMaxMemory [key] r := by
  have found : (purgeIfExpired key s).2.store.get? key = liveEntry t s key := by
    rw [purgeIfExpired_store, show s.clock 0 = t from congrFun moment 0]
  have swept := moment.swept key
  have purged := (purgeIfExpired_removals key s).moves.consistent consistent
  have frame := sameElsewhere_purge moment key
  have settled := moment.settled key
  obtain ⟨container, creates⟩ := Option.isSome_iff_exists.mp grows
  unfold performTyped
  dsimp only
  rw [found]
  cases visible : liveEntry t s key with
  | none =>
    obtain ⟨reply, entry, update⟩ := onEntry_put grows container
    rw [visible] at found
    have forgotten : Consistent (forgetKey key (purgeIfExpired key s).2) :=
      (Move.removal (.forget found)).consistent purged
    have forget : SameElsewhere key s (forgetKey key (purgeIfExpired key s).2) := by
      refine frame.trans (fun other h => ?_)
      simp [forgetKey, Dict.get?_erase, h]
    have create := (forget.trans (sameElsewhere_mutateEntry key container _)).trans
      (sameElsewhere_touchKey key _)
    obtain ⟨r, written, finished⟩ := finish_written create
      ((Move.put _ key container).consistent forgotten)
      ((touchKey_clock _ _).trans (moment.purged key))
      (by rw [← settled]; exact expiredAt_congr (by simp [mutateEntry, forgetKey]))
      (by simp [mutateEntry])
      ((touchKey_maxMemoryBytes _ _).trans swept.maxMemoryBytes)
      ((touchKey_evictedKeys _ _).trans swept.evictedKeys) grows (by rw [update])
    refine ⟨entry, r, by simp [TypedOp.grown, creates, update], written, ?_⟩
    simp only [creates]
    exact finished
  | some present =>
    obtain ⟨reply, entry, update⟩ := onEntry_put grows present
    rw [visible] at found
    obtain ⟨r, written, finished⟩ := finish_written
      (frame.trans (sameElsewhere_touchKey key _)) ((Move.touch _ key).consistent purged)
      ((touchKey_clock _ _).trans (moment.purged key))
      (by rw [← settled]; exact expiredAt_congr (by simp))
      (by simp [found])
      ((touchKey_maxMemoryBytes _ _).trans swept.maxMemoryBytes)
      ((touchKey_evictedKeys _ _).trans swept.evictedKeys) grows (by rw [update])
    refine ⟨entry, r, by simp [TypedOp.grown, update], written, ?_⟩
    simp only [typed present visible, ne_eq, not_true, if_false]
    exact finished

/-! ### The law -/

/-- The keys that are live at `t`, but for the one just written, by their last access. -/
structure LruOrder (t : ℚ) (s : CommandService) (last : String → ℕ) (written : Option String)
    (order : List String) : Prop where
  mem_iff : ∀ key, key ∈ order ↔ liveEntry t s key ≠ none ∧ some key ≠ written
  sorted : order.Pairwise (fun a b => last a < last b)

/-- From `s` to `result` the first `count` keys of the order went, with their deadlines: the
shortest prefix after which the `own` bytes of the written key and the rest fit. -/
structure EvictsPrefix (t : ℚ) (s result : CommandService) (written : Option String)
    (order : List String) (own limit count : ℕ) : Prop where
  within : count ≤ order.length
  fits : own + ((order.drop count).map (liveBytes t s)).sum ≤ limit
  shortest : ∀ n < count, limit < own + ((order.drop n).map (liveBytes t s)).sum
  removed : ∀ key ∈ order.take count, result.store.get? key = none ∧ result.ttl.get? key = none
  kept : ∀ key ∈ order.drop count, result.store.get? key = liveEntry t s key
  nothing_else : ∀ key, key ∉ order → some key ≠ written → result.store.get? key = none
  counted : result.evictedKeys = s.evictedKeys + count

/-- Eviction by last access, where `counted` are the commands that access the key they find live.
The entry of a written key is what the same command leaves when no limit is set. -/
def LruLaw (counted : List String) : Prop :=
  (∀ limit protectedKeys st,
    let stopped := evictUntilFits limit protectedKeys st.store.size st
    currentMemoryBytes stopped ≤ limit ∨ evictionCandidate protectedKeys stopped = none) ∧
  ∀ clock maxMemoryBytes events, (∀ event ∈ events, Event.Accepted event) →
  ∀ t request, validate request = .ok () →
    let start := CommandService.init clock maxMemoryBytes
    let s := run events start
    let last := lastAccesses counted start events 0 (fun _ => 0)
    let result := (execute request).exec { s with clock := fun _ => t }
    (∀ key (m : ℕ+), request.name ∈ "SET" :: growingCommands →
      request.arguments.head? = some key → result.1.isOk = true → s.maxMemoryBytes = some m →
      ∃ entry order,
        ((execute request).exec { s with clock := fun _ => t, maxMemoryBytes := none }).2.store.get?
          key = some entry ∧
        LruOrder t s last (some key) order ∧
        (result.2.store.get? key ≠ none ↔ estimateEntryBytes key entry ≤ m) ∧
        (estimateEntryBytes key entry ≤ m →
          result.2.store.get? key = some entry ∧
          ∃ count, EvictsPrefix t s result.2 (some key) order (estimateEntryBytes key entry) m count) ∧
        (m < estimateEntryBytes key entry →
          (∀ other, result.2.store.get? other = none ∧ result.2.ttl.get? other = none) ∧
          result.2.evictedKeys = s.evictedKeys + order.length + 1)) ∧
    ∀ m : ℕ+, request.name = "CONFIG" → request.arguments.head?.map upper = some "SET" →
      result.1.isOk = true → result.2.maxMemoryBytes = some m →
      ∃ order count, LruOrder t s last none order ∧ EvictsPrefix t s result.2 none order 0 m count

private theorem stored_of_live (live : liveEntry t s key ≠ none) : s.store.get? key ≠ none := by
  unfold liveEntry at live
  split at live
  · exact (live rfl).elim
  · exact live

private theorem exists_lruOrder {n : ℕ} {last : String → ℕ} (faithful : Faithful s n last)
    (consistent : Consistent s) (t : ℚ) (written : Option String) :
    ∃ order, LruOrder t s last written order := by
  let keys := s.store.keys.filter fun key => (liveEntry t s key).isSome && some key ≠ written
  let order := keys.insertionSort (fun a b => last a ≤ last b)
  have members : ∀ key, key ∈ order ↔ liveEntry t s key ≠ none ∧ some key ≠ written := by
    intro key
    have member := (Dict.get?_eq_none_iff s.store key).not
    rw [not_not] at member
    simp only [order, keys, List.mem_insertionSort, List.mem_filter, Bool.and_eq_true,
      Option.isSome_iff_ne_none, decide_eq_true_eq]
    exact ⟨And.right, fun h => ⟨member.mp (stored_of_live h.1), h⟩⟩
  have nodup : order.Nodup :=
    (List.perm_insertionSort _ keys).nodup_iff.mpr (s.store.nodup.filter _)
  have weak : order.Pairwise (fun a b => last a ≤ last b) :=
    haveI : Std.Total fun a b => last a ≤ last b := ⟨fun a b => le_total (last a) (last b)⟩
    haveI : IsTrans String fun a b => last a ≤ last b := ⟨fun _ _ _ => le_trans⟩
    List.pairwise_insertionSort _ keys
  refine ⟨order, members, (weak.and nodup).imp_of_mem (fun {a b} ha hb h => ?_)⟩
  refine lt_of_le_of_ne h.1 (fun same => h.2 ?_)
  have storedA := stored_of_live ((members a).mp ha).1
  have storedB := stored_of_live ((members b).mp hb).1
  have ab := faithful.order a b storedA storedB
  have ba := faithful.order b a storedB storedA
  exact consistent.lastAccess_inj storedA storedB (by omega)

private theorem LruOrder.evicts {r : CommandService} {last : String → ℕ}
    {order protectedKeys : List String} {written : Option String} {own : ℕ} {m : ℕ+}
    (listed : LruOrder t s last written order) (stamps : StampOrder t protectedKeys r order)
    (moment : AtTime t r) (limited : r.maxMemoryBytes = some m)
    (memory : currentMemoryBytes (purgeAllExpiredKeys r) = own + (order.map (liveBytes t r)).sum)
    (fits : own ≤ m) (same : ∀ key, some key ≠ written → liveEntry t r key = liveEntry t s key)
    (evictedKeys : r.evictedKeys = s.evictedKeys) :
    EvictsPrefix t s (ensureMaxMemory protectedKeys r) written order own m
      (shortestCut own m (order.map (liveBytes t s))) := by
  have sizes : order.map (liveBytes t r) = order.map (liveBytes t s) := by
    apply List.map_congr_left
    intro key member
    rw [liveBytes, liveBytes, same key ((listed.mem_iff key).mp member).2]
  obtain ⟨tables, evicted⟩ := stamps.ensureMaxMemory_fits moment limited memory fits
  rw [sizes] at tables evicted
  have within := shortestCut_le_length own m (order.map (liveBytes t s))
  rw [List.length_map] at within
  refine ⟨within, ?_, fun n shorter => ?_, fun key member => ?_, fun key member => ?_,
    fun key unlisted other => ?_, ?_⟩
  · rw [List.map_drop]
    exact shortestCut_fits fits _
  · rw [List.map_drop]
    exact shortestCut_shortest own m _ shorter
  · rw [(tables key).1, (tables key).2, if_pos member, if_pos member]
    exact ⟨rfl, rfl⟩
  · have unremoved : key ∉ order.take (shortestCut own m (order.map (liveBytes t s))) :=
      fun early => List.disjoint_take_drop stamps.nodup (le_refl _) early member
    rw [(tables key).1, if_neg unremoved,
      same key ((listed.mem_iff key).mp (List.mem_of_mem_drop member)).2]
  · have absent : liveEntry t s key = none := by
      by_contra live
      exact unlisted ((listed.mem_iff key).mpr ⟨live, other⟩)
    rw [(tables key).1, same key other, absent]
    split <;> rfl
  · rw [evicted, evictedKeys, List.length_take, min_eq_left within]

private theorem Written.law {r : CommandService} {n : ℕ} {last : String → ℕ} {entry : ValueEntry}
    {m : ℕ+} (written : Written t s key entry r) (faithful : Faithful s n last)
    (consistent : Consistent s) (limited : s.maxMemoryBytes = some m) :
    ∃ order, LruOrder t s last (some key) order ∧
      ((ensureMaxMemory [key] r).store.get? key ≠ none ↔ estimateEntryBytes key entry ≤ m) ∧
      (estimateEntryBytes key entry ≤ m →
        (ensureMaxMemory [key] r).store.get? key = some entry ∧
        ∃ count, EvictsPrefix t s (ensureMaxMemory [key] r) (some key) order
          (estimateEntryBytes key entry) m count) ∧
      (m < estimateEntryBytes key entry →
        (∀ other, (ensureMaxMemory [key] r).store.get? other = none ∧
          (ensureMaxMemory [key] r).ttl.get? other = none) ∧
        (ensureMaxMemory [key] r).evictedKeys = s.evictedKeys + order.length + 1) := by
  obtain ⟨order, listed⟩ := exists_lruOrder faithful consistent t (some key)
  have same : ∀ other, some other ≠ some key → liveEntry t r other = liveEntry t s other := by
    intro other h
    obtain ⟨store, ttl, _⟩ := written.frame other (fun he => h (by rw [he]))
    rw [liveEntry, liveEntry, expiredAt_congr ttl, store]
  have stamps : StampOrder t [key] r order := by
    refine ⟨fun other => ?_, listed.sorted.imp_of_mem (fun {a b} ha hb h => ?_)⟩
    · rw [listed.mem_iff]
      by_cases h : other = key
      · simp [h]
      · rw [same other (by simpa using h)]
        simp [h]
    · obtain ⟨liveA, neA⟩ := (listed.mem_iff a).mp ha
      obtain ⟨liveB, neB⟩ := (listed.mem_iff b).mp hb
      rw [lastAccess, lastAccess, (written.frame a (fun he => neA (by rw [he]))).2.2,
        (written.frame b (fun he => neB (by rw [he]))).2.2]
      exact (faithful.order a b (stored_of_live liveA) (stored_of_live liveB)).mpr h
  have memory := stamps.memory_beside written.moment written.stored
  have limited' := written.maxMemoryBytes.trans limited
  refine ⟨order, listed, ?_⟩
  by_cases fits : estimateEntryBytes key entry ≤ m
  · have evicts := listed.evicts stamps written.moment limited' memory fits same written.evictedKeys
    have tables := (stamps.ensureMaxMemory_fits written.moment limited' memory fits).1 key
    have unlisted : key ∉ order := fun member => ((listed.mem_iff key).mp member).2 rfl
    have stored : (ensureMaxMemory [key] r).store.get? key = some entry := by
      rw [tables.1, if_neg (fun early => unlisted (List.mem_of_mem_take early)), written.stored]
    refine ⟨⟨fun _ => fits, fun _ => ?_⟩, fun _ => ⟨stored, _, evicts⟩, fun h => ?_⟩
    · rw [stored]
      exact fun h => by cases h
    · exact absurd fits (not_le.mpr h)
  · have gone := stamps.ensureMaxMemory_exceeds written.moment written.consistent limited'
      written.stored (not_le.mp fits)
    rw [written.evictedKeys] at gone
    exact ⟨⟨fun stored => (stored (gone.1 key).1).elim, fun h => (fits h).elim⟩,
      fun h => (fits h).elim, fun _ => gone⟩

private theorem Written.unlimited {entry : ValueEntry} (written : Written t s key entry r)
    (unlimited : s.maxMemoryBytes = none) :
    (ensureMaxMemory [key] r).store.get? key = some entry := by
  have stored := written.stored
  have same : ensureMaxMemory [key] r = r := by
    simp [ensureMaxMemory, written.maxMemoryBytes.trans unlimited]
  rw [same]
  unfold liveEntry at stored
  split at stored
  · cases stored
  · exact stored

private theorem exists_written {request : Command} (accepted : validate request = .ok ())
    (writes : request.name ∈ "SET" :: growingCommands) (head : request.arguments.head? = some key)
    (consistent : Consistent s) (moment : AtTime t s)
    (succeeded : ((execute request).exec s).1.isOk = true) :
    ∃ entry r, Written t s key entry r ∧
      ((execute request).exec s).2 = ensureMaxMemory [key] r ∧
      ((execute request).exec { s with maxMemoryBytes := none }).2.store.get? key = some entry := by
  obtain ⟨op, denotes⟩ := accepted_denotes accepted
  have unlimited : Consistent { s with maxMemoryBytes := none } :=
    (Move.limit s none).consistent consistent
  simp only [execute_denotes denotes] at succeeded ⊢
  cases denotes with
  | set key' value =>
    obtain rfl : key' = key := by simpa using head
    exact ⟨_, _, set_written moment consistent key' value, rfl,
      (set_written (s := { s with maxMemoryBytes := none }) moment unlimited key' value).unlimited rfl⟩
  | typed key' denotes =>
    rename_i name rest top
    obtain rfl : key' = key := by simpa using head
    obtain ⟨listed, grows⟩ := denotes.listed
    have growing := grows.mp ((List.mem_cons.mp writes).resolve_left (typed_names listed).2.1)
    have typed := typed_of_succeeded moment succeeded
    obtain ⟨entry, r, grown, written, result⟩ := grown_written moment consistent growing key' typed
    obtain ⟨entry', r', grown', written', result'⟩ := grown_written
      (s := { s with maxMemoryBytes := none }) moment unlimited growing key' typed
    obtain rfl : entry = entry' := Option.some.inj (grown.symm.trans grown')
    refine ⟨entry, r, written, result, ?_⟩
    simp only [perform, result']
    exact written'.unlimited rfl
  | _ => simp [growingCommands] at writes

private theorem Faithful.tick {n : ℕ} {last : String → ℕ} (faithful : Faithful s n last)
    (readings : ℕ → ℚ) : Faithful { s with clock := readings } n last :=
  ⟨faithful.bound, faithful.order⟩

private theorem LruOrder.of_tick {readings : ℕ → ℚ} {last : String → ℕ} {written : Option String}
    {order : List String} (listed : LruOrder t { s with clock := readings } last written order) :
    LruOrder t s last written order :=
  ⟨listed.mem_iff, listed.sorted⟩

private theorem EvictsPrefix.of_tick {readings : ℕ → ℚ} {result : CommandService}
    {written : Option String} {order : List String} {own limit count : ℕ}
    (evicts : EvictsPrefix t { s with clock := readings } result written order own limit count) :
    EvictsPrefix t s result written order own limit count :=
  ⟨evicts.within, evicts.fits, evicts.shortest, evicts.removed, evicts.kept, evicts.nothing_else,
    evicts.counted⟩

private theorem configSet_law {n : ℕ} {last : String → ℕ} {m : ℕ+} (faithful : Faithful s n last)
    (consistent : Consistent s) (moment : AtTime t s) :
    ∃ order count, LruOrder t s last none order ∧
      EvictsPrefix t s (ensureMaxMemory [] { s with maxMemoryBytes := some m }) none order 0 m
        count := by
  obtain ⟨order, listed⟩ := exists_lruOrder faithful consistent t none
  have stamps : StampOrder t [] { s with maxMemoryBytes := some m } order := by
    refine ⟨fun key => ?_, listed.sorted.imp_of_mem (fun {a b} ha hb h => ?_)⟩
    · simp only [listed.mem_iff, ne_eq, List.not_mem_nil, not_false_eq_true, reduceCtorEq]
      exact Iff.rfl
    · have storedA := stored_of_live ((listed.mem_iff a).mp ha).1
      have storedB := stored_of_live ((listed.mem_iff b).mp hb).1
      exact (faithful.order a b storedA storedB).mpr h
  exact ⟨order, _, listed, listed.evicts stamps moment rfl (stamps.memory_all moment) (Nat.zero_le _)
    (fun _ _ => rfl) rfl⟩

/-- Eviction is by last access, where every typed command that finds its key live accesses it,
the growing ones included. -/
theorem lru_eviction : LruLaw lookupCommands := by
  refine ⟨fun limit protectedKeys st => evictUntilFits_stops limit protectedKeys (le_refl _), ?_⟩
  intro clock maxMemoryBytes events acceptedRun t request accepted
  dsimp only
  have consistent := (Reachable.run (.init clock maxMemoryBytes) acceptedRun).consistent
  have start : Faithful (CommandService.init clock maxMemoryBytes) 0 (fun _ => 0) :=
    ⟨fun _ => le_refl _, fun a _ ha => (ha rfl).elim⟩
  obtain ⟨n, faithful⟩ := start.run (.init clock maxMemoryBytes) acceptedRun
  generalize run events (CommandService.init clock maxMemoryBytes) = s at *
  generalize lastAccesses lookupCommands (CommandService.init clock maxMemoryBytes) events 0
    (fun _ => 0) = last at *
  have ticked := consistent.tick (fun _ => t)
  refine ⟨fun key m writes head succeeded limited => ?_, fun m name subcommand succeeded limited => ?_⟩
  · obtain ⟨entry, r, written, result, unlimited⟩ :=
      exists_written accepted writes head ticked rfl succeeded
    rw [result]
    obtain ⟨order, listed, survives, fits, exceeds⟩ := written.law (m := m)
      (faithful.tick fun _ => t) ticked limited
    refine ⟨entry, order, unlimited, listed.of_tick, survives, fun small => ?_, exceeds⟩
    obtain ⟨stored, count, evicts⟩ := fits small
    exact ⟨stored, count, evicts.of_tick⟩
  · obtain ⟨op, denotes⟩ := accepted_denotes accepted
    rw [execute_denotes denotes] at succeeded limited ⊢
    cases denotes with
    | configSet set known read =>
      rename_i value
      have kept := (ensureMaxMemory_removals [] { s with
        clock := fun _ => t
        maxMemoryBytes := normalizeMaxMemoryBytes (some (value : ℤ)) }).shrunk.maxMemoryBytes
      have normalized : normalizeMaxMemoryBytes (some (value : ℤ)) = some m := kept.symm.trans limited
      obtain ⟨order, count, listed, evicts⟩ := configSet_law (m := m)
        (faithful.tick fun _ => t) ticked rfl
      simp only [perform, normalized]
      exact ⟨order, count, listed.of_tick, evicts.of_tick⟩
    | configGet get known => simp [get] at subcommand
    | configOther => simp [perform, reject, Except.isOk, Except.toBool] at succeeded
    | typed key denotes => cases denotes <;> simp at name
    | _ => simp at name

/-- The typed commands without those that grow a container. -/
def readsAndRemovals : List String :=
  ["GET", "HGET", "HDEL", "HGETALL", "LPOP", "RPOP", "LRANGE", "SREM", "SMEMBERS", "SISMEMBER",
    "ZREM", "ZRANGE", "ZSCORE"]

private def mistypedHistory : List Event :=
  [.command (fun _ => 0) ⟨"SET", ["a", "1234"]⟩, .command (fun _ => 0) ⟨"SET", ["b", "1234"]⟩,
    .command (fun _ => 0) ⟨"HSET", ["a", "f", "v"]⟩]

private theorem mistypedHistory_accepted : ∀ event ∈ mistypedHistory, event.Accepted := by
  simp only [mistypedHistory, List.forall_mem_cons, Event.Accepted]
  refine ⟨?_, ?_, ?_, by simp⟩ <;> decide +kernel

/-- A growing command stamps the key it finds before it raises the type error: the key of the older
write stays and the younger one goes. -/
theorem not_lru_by_reads_and_removals : ¬ LruLaw readsAndRemovals := by
  intro law
  have here := (law.2 (fun _ => 0) (some 10) mistypedHistory mistypedHistory_accepted 0
    ⟨"SET", ["c", "1234"]⟩ (by decide +kernel)).1 "c" 10 (by decide +kernel) rfl
  generalize reached : run mistypedHistory (CommandService.init (fun _ => 0) (some 10)) = s at here
  have readA : liveEntry 0 s "a" ≠ none := by subst reached; decide +kernel
  have readB : liveEntry 0 s "b" ≠ none := by subst reached; decide +kernel
  have limited : s.maxMemoryBytes = some 10 := by subst reached; decide +kernel
  generalize after : (execute ⟨"SET", ["c", "1234"]⟩).exec { s with clock := fun _ => 0 } = result
    at here
  have replied : result.1.isOk = true := by subst after reached; decide +kernel
  have keptC : result.2.store.get? "c" ≠ none := by subst after reached; decide +kernel
  have keptA : result.2.store.get? "a" ≠ none := by subst after reached; decide +kernel
  have goneB : result.2.store.get? "b" = none := by subst after reached; decide +kernel
  obtain ⟨entry, order, -, listed, survives, fits, -⟩ := here replied limited
  obtain ⟨-, count, evicts⟩ := fits (survives.mp keptC)
  have memberA : "a" ∈ order := (listed.mem_iff "a").mpr ⟨readA, by decide⟩
  have memberB : "b" ∈ order := (listed.mem_iff "b").mpr ⟨readB, by decide⟩
  rw [← List.take_append_drop count order, List.mem_append] at memberA memberB
  have late := memberA.resolve_left (fun early => keptA (evicts.removed "a" early).1)
  have early := memberB.resolve_right (fun late => readB ((evicts.kept "b" late).symm.trans goneB))
  have sorted := listed.sorted
  rw [← List.take_append_drop count order, List.pairwise_append] at sorted
  exact absurd (sorted.2.2 "b" early "a" late) (by decide +kernel)

end MiniRedis.Service
