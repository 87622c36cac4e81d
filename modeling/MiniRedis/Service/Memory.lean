/- GID: MiniRedis/Service/Memory
   generality: I
   digest: The stored bytes never exceed the limit in any reachable state. -/

import Mathlib.Algebra.Order.BigOperators.Group.Finset
import MiniRedis.Service.Invariant

set_option autoImplicit false
set_option relaxedAutoImplicit false

namespace MiniRedis.Service

open MiniRedis.Base MiniRedis.Python MiniRedis.Protocol MiniRedis.Commands

/-! ### The candidate -/

theorem evictionCandidate_eq_argmin (protectedKeys : List String) (s : CommandService) :
    evictionCandidate protectedKeys s =
      (s.store.keys.filter (· ∉ protectedKeys)).argmin (lastAccess s) := by
  have scan : ∀ (keys : List String) (oldest : Option String),
      keys.foldl (olderOf protectedKeys s) oldest =
        (keys.filter (· ∉ protectedKeys)).foldl
          (List.argAux fun b c => lastAccess s b < lastAccess s c) oldest := by
    intro keys
    induction keys with
    | nil => exact fun _ => rfl
    | cons key keys ih =>
      intro oldest
      by_cases h : key ∈ protectedKeys
      · simp [h, olderOf, ih]
      · cases oldest <;> simp [h, olderOf, ih, List.argAux]
  exact scan s.store.keys none

theorem evictionCandidate_eq_none_iff (protectedKeys : List String) (s : CommandService) :
    evictionCandidate protectedKeys s = none ↔
      ∀ key, s.store.get? key ≠ none → key ∈ protectedKeys := by
  rw [evictionCandidate_eq_argmin, List.argmin_eq_none, List.filter_eq_nil_iff]
  simp only [decide_not, Bool.not_eq_eq_eq_not, Bool.not_true, decide_eq_false_iff_not, not_not]
  constructor
  · intro all key stored
    exact all key (not_not.mp (mt (Dict.get?_eq_none_iff _ _).mpr stored))
  · intro all key member
    exact all key (fun absent => (Dict.get?_eq_none_iff _ _).mp absent member)

theorem stored_of_evictionCandidate {protectedKeys : List String} {s : CommandService}
    {key : String} (found : evictionCandidate protectedKeys s = some key) :
    s.store.get? key ≠ none := by
  rw [evictionCandidate_eq_argmin] at found
  have member := List.mem_of_mem_filter (List.argmin_mem (Option.mem_def.mpr found))
  exact fun absent => (Dict.get?_eq_none_iff _ _).mp absent member

theorem Consistent.lastAccess_inj {s : CommandService} (consistent : Consistent s) {a b : String}
    (ha : s.store.get? a ≠ none) (hb : s.store.get? b ≠ none)
    (same : lastAccess s a = lastAccess s b) : a = b := by
  obtain ⟨n, hn⟩ := consistent.stamped a ha
  obtain ⟨m, hm⟩ := consistent.stamped b hb
  simp only [lastAccess, hn, hm, Option.getD_some] at same
  exact consistent.stamp_inj a b n hn (same ▸ hm)

/-! ### The loops -/

private theorem size_evictKey {key : String} {s : CommandService}
    (stored : s.store.get? key ≠ none) : (evictKey key s).store.size + 1 = s.store.size := by
  obtain ⟨entry, found⟩ := Option.ne_none_iff_exists'.mp stored
  exact (Dict.size_erase found).symm

/-- As many rounds as there are keys bring the `while` loop to its exit. -/
theorem evictUntilFits_stops (maxMemory : ℕ) (protectedKeys : List String) {rounds : ℕ}
    {s : CommandService} (enough : s.store.size ≤ rounds) :
    currentMemoryBytes (evictUntilFits maxMemory protectedKeys rounds s) ≤ maxMemory ∨
      evictionCandidate protectedKeys (evictUntilFits maxMemory protectedKeys rounds s) = none := by
  induction rounds generalizing s with
  | zero =>
    right
    rw [evictUntilFits, evictionCandidate_eq_none_iff]
    intro key stored
    have empty : s.store.entries = [] := List.length_eq_zero_iff.mp (Nat.le_zero.mp enough)
    exact (stored (by simp [Dict.get?, empty])).elim
  | succ rounds ih =>
    unfold evictUntilFits
    split
    · split
      · rename_i none_left
        exact Or.inr none_left
      · rename_i key found
        have size := size_evictKey (stored_of_evictionCandidate found)
        exact ih (by omega)
    · rename_i fits
      exact Or.inl (not_lt.mp fits)

private theorem currentMemoryBytes_of_empty {s : CommandService}
    (empty : ∀ key, s.store.get? key = none) : currentMemoryBytes s = 0 := by
  have same : ∀ key, s.store.get? key = (Dict.empty : Dict String ValueEntry).get? key := by
    simpa using empty
  rw [currentMemoryBytes, Dict.sumBy_eq_of_get?_eq same]
  rfl

private theorem evictProtected_fits (maxMemory : ℕ) {protectedKeys : List String}
    {s : CommandService} (only : ∀ key, s.store.get? key ≠ none → key ∈ protectedKeys) :
    currentMemoryBytes (evictProtected maxMemory protectedKeys s) ≤ maxMemory := by
  induction protectedKeys generalizing s with
  | nil =>
    have empty : ∀ key, s.store.get? key = none :=
      fun key => not_not.mp (fun stored => List.not_mem_nil (only key stored))
    simp [evictProtected, currentMemoryBytes_of_empty empty]
  | cons first rest ih =>
    unfold evictProtected
    split
    · assumption
    · split
      · rename_i absent
        refine ih (fun key stored => ?_)
        exact (List.mem_cons.mp (only key stored)).resolve_left (fun h => stored (h ▸ absent))
      · refine ih (fun key stored => ?_)
        simp only [evictKey, deleteEntryAndTtl, forgetKey, Dict.get?_erase] at stored
        split at stored
        · exact (stored rfl).elim
        · rename_i h
          exact (List.mem_cons.mp (only key stored)).resolve_left h

theorem ensureMaxMemory_fits (protectedKeys : List String) {s : CommandService} {maxMemory : ℕ+}
    (limited : s.maxMemoryBytes = some maxMemory) :
    currentMemoryBytes (ensureMaxMemory protectedKeys s) ≤ maxMemory := by
  simp only [ensureMaxMemory, limited]
  split
  · assumption
  · rename_i exceeds
    have exit := evictUntilFits_stops maxMemory protectedKeys
      (le_refl (purgeAllExpiredKeys s).store.size)
    exact evictProtected_fits _
      ((evictionCandidate_eq_none_iff _ _).mp (exit.resolve_left exceeds))

/-! ### Operations that cannot grow a value -/

private theorem removeMembers_subset (members : List String) (acc : ℤ × Finset String) :
    (removeMembers members acc).2 ⊆ acc.2 := by
  induction members generalizing acc with
  | nil => exact Finset.Subset.refl _
  | cons member members ih => exact (ih _).trans (Finset.erase_subset _ _)

private theorem removeScores_sub (members : List String) (acc : ℤ × Dict String PyFloat)
    (member : String) (score : PyFloat)
    (found : (removeScores members acc).2.get? member = some score) :
    acc.2.get? member = some score := by
  induction members generalizing acc with
  | nil => exact found
  | cons first members ih =>
    have rest := ih _ found
    simp only [Dict.get?_erase] at rest
    split at rest
    · cases rest
    · exact rest

private theorem sumBy_erase_le {α : Type} (d : Dict String α) (key : String)
    (w : String → α → ℕ) : (d.erase key).sumBy w ≤ d.sumBy w := by
  refine Dict.sumBy_le_of_get?_sub (fun key' v found => ?_) w
  rw [Dict.get?_erase] at found
  split at found
  · cases found
  · exact found

private theorem onEntry_size {op : TypedOp} (shrinks : op.grows = false) (key : String)
    {entry value : ValueEntry} (typed : entry.valueType = op.valueType)
    (update : (op.onEntry entry).2 = .put value) :
    estimateEntryBytes key value ≤ estimateEntryBytes key entry := by
  cases op with
  | hset | lpush | rpush | sadd | zadd => simp [TypedOp.grows, TypedOp.emptyContainer] at shrinks
  | get | hget | hgetall | lrange | smembers | sismember | zrange | zscore => cases update
  | hdel field =>
    cases entry <;> cases typed
    simp only [TypedOp.onEntry] at update
    split at update <;> cases update
    exact Nat.add_le_add_left (sumBy_erase_le _ _ _) _
  | lpop =>
    cases entry <;> cases typed
    rename_i values
    cases values with
    | nil => cases update
    | cons first rest =>
      simp only [TypedOp.onEntry, ValueEntry.listValue] at update
      split at update <;> cases update
      simp only [estimateEntryBytes, List.map_cons, List.sum_cons]
      omega
  | rpop =>
    cases entry <;> cases typed
    rename_i values
    cases hl : values.getLast? with
    | none => simp [TypedOp.onEntry, ValueEntry.listValue, hl] at update
    | some last =>
      by_cases empty : values.dropLast = []
      · simp [TypedOp.onEntry, ValueEntry.listValue, hl, empty] at update
      · simp only [TypedOp.onEntry, ValueEntry.listValue, hl, empty, if_false,
          EntryUpdate.put.injEq] at update
        subst update
        exact Nat.add_le_add_left
          (((List.dropLast_sublist values).map _).sum_le_sum (fun _ _ => Nat.zero_le _)) _
  | srem members =>
    cases entry <;> cases typed
    simp only [TypedOp.onEntry] at update
    split at update <;> cases update
    exact Nat.add_le_add_left (Finset.sum_le_sum_of_subset (removeMembers_subset _ _)) _
  | zrem members =>
    cases entry <;> cases typed
    simp only [TypedOp.onEntry] at update
    split at update <;> cases update
    exact Nat.add_le_add_left (Dict.sumBy_le_of_get?_sub (removeScores_sub _ _) _) _

/-! ### The bound in every reachable state -/

/-- The limit, where one is set, is kept. -/
def Bounded (s : CommandService) : Prop :=
  ∀ maxMemory : ℕ+, s.maxMemoryBytes = some maxMemory → currentMemoryBytes s ≤ maxMemory

private theorem Bounded.of_shrunk {s s' : CommandService} (bounded : Bounded s)
    (shrunk : Shrunk s s') : Bounded s' := by
  intro maxMemory limited
  rw [shrunk.maxMemoryBytes] at limited
  exact (Dict.sumBy_le_of_get?_sub shrunk.store _).trans (bounded maxMemory limited)

private theorem bounded_ensureMaxMemory (protectedKeys : List String) (s : CommandService) :
    Bounded (ensureMaxMemory protectedKeys s) := by
  intro maxMemory limited
  rw [(ensureMaxMemory_removals protectedKeys s).shrunk.maxMemoryBytes] at limited
  exact ensureMaxMemory_fits protectedKeys limited

private theorem Bounded.touch {s : CommandService} (bounded : Bounded s) (key : String) :
    Bounded (touchKey key s) := by
  unfold touchKey
  split <;> exact bounded

private theorem Bounded.finish {s : CommandService} (bounded : Bounded s) {key : String}
    {op : TypedOp} {entry : ValueEntry} (found : op.grows = false → s.store.get? key = some entry)
    (typed : op.grows = false → entry.valueType = op.valueType) :
    Bounded (op.finish key entry s).2 := by
  unfold TypedOp.finish
  cases grows : op.grows with
  | true => exact bounded_ensureMaxMemory _ _
  | false =>
    change Bounded ((op.onEntry entry).2.apply key s)
    cases update : (op.onEntry entry).2 with
    | keep => exact bounded
    | put value =>
      intro maxMemory limited
      have smaller := onEntry_size grows key (typed grows) update
      have before := bounded maxMemory limited
      rw [currentMemoryBytes, Dict.sumBy_erase (found grows)] at before
      change (s.store.set key value).sumBy estimateEntryBytes ≤ maxMemory
      rw [Dict.sumBy_set]
      omega
    | remove => exact bounded.of_shrunk (deleteEntryAndTtl_removals key s).shrunk

private theorem Bounded.performTyped {s : CommandService} (bounded : Bounded s) (key : String)
    (op : TypedOp) : Bounded (performTyped key op s).2 := by
  have purged := bounded.of_shrunk (purgeIfExpired_removals key s).shrunk
  unfold MiniRedis.Service.performTyped
  dsimp only
  split
  · split
    · exact purged
    · rename_i container creates
      have grows : op.grows = true := by simp [TypedOp.grows, creates]
      simp only [TypedOp.finish, grows, if_true]
      exact bounded_ensureMaxMemory _ _
  · rename_i entry found
    split
    · exact purged.touch key
    · rename_i typed
      exact (purged.touch key).finish (fun _ => by simpa using found) (fun _ => not_not.mp typed)

theorem Bounded.perform {s : CommandService} (bounded : Bounded s) (op : Operation) :
    Bounded (perform op s).2 := by
  cases op with
  | reply | configGet => exact bounded
  | set | configSet => exact bounded_ensureMaxMemory _ _
  | del key =>
    have purged := bounded.of_shrunk (purgeIfExpired_removals key s).shrunk
    rw [perform_del]
    split
    · exact purged
    · exact purged.of_shrunk (deleteEntryAndTtl_removals key _).shrunk
  | expire key seconds =>
    have purged := bounded.of_shrunk (purgeIfExpired_removals key s).shrunk
    rw [perform_expire]
    split
    · exact purged
    · exact Bounded.touch (s := { (now _).2 with ttl := _ }) purged key
  | ttl key =>
    have purged := bounded.of_shrunk (purgeIfExpired_removals key s).shrunk
    rw [perform_ttl]
    split
    · exact purged
    · split <;> exact purged
  | dbsize | info => exact bounded.of_shrunk (purgeAllExpiredKeys_removals s).shrunk
  | flushdb =>
    intro maxMemory _
    have empty : currentMemoryBytes (MiniRedis.Service.perform .flushdb s).2 = 0 :=
      currentMemoryBytes_of_empty (flush_loop_empty s)
    simp [empty]
  | typed key op => exact bounded.performTyped key op

private theorem Reachable.bounded {s : CommandService} (reached : Reachable s) : Bounded s := by
  induction reached with
  | init clock maxMemoryBytes => exact fun _ _ => Nat.zero_le _
  | @step s event _ accepted ih =>
    cases event with
    | command readings request =>
      obtain ⟨op, denotes⟩ := accepted_denotes accepted
      simp only [Event.step, execute_denotes denotes]
      exact Bounded.perform (s := { s with clock := readings }) ih op
    | sweep readings batchSize =>
      exact Bounded.of_shrunk (s := { s with clock := readings }) ih
        (sweepOnce_removals batchSize _).shrunk

/-- The stored bytes never exceed the limit, whatever was executed, swept or read from the
clock before. -/
theorem memory_within_limit {s : CommandService} (reached : Reachable s) {maxMemory : ℕ+}
    (limited : s.maxMemoryBytes = some maxMemory) : currentMemoryBytes s ≤ maxMemory :=
  reached.bounded maxMemory limited

private def lowered : CommandService :=
  Event.step (.command (fun _ => 0) ⟨"CONFIG", ["set", "maxmemory", "4"]⟩)
    (Event.step (.command (fun _ => 0) ⟨"SET", ["k", "value"]⟩)
      (CommandService.init (fun _ => 0) none))

theorem memory_within_lowered_limit :
    lowered.maxMemoryBytes = some 4 ∧ currentMemoryBytes lowered ≤ 4 := by
  have first : (Event.command (fun _ => 0) ⟨"SET", ["k", "value"]⟩).Accepted := by
    unfold Event.Accepted
    decide +kernel
  have second : (Event.command (fun _ => 0) ⟨"CONFIG", ["set", "maxmemory", "4"]⟩).Accepted := by
    unfold Event.Accepted
    decide +kernel
  have limited : lowered.maxMemoryBytes = some 4 := by decide +kernel
  exact ⟨limited, memory_within_limit (.step (.step (.init _ none) first) second) limited⟩

end MiniRedis.Service
