/- GID: MiniRedis/Service/FreshStart
   generality: I
   digest: Only the order of the recency stamps matters, so a flushed server is a new one. -/

import MiniRedis.Base.Eviction
import MiniRedis.Service.Memory

set_option autoImplicit false
set_option relaxedAutoImplicit false

namespace MiniRedis.Service

open MiniRedis.Base MiniRedis.Python MiniRedis.Protocol MiniRedis.Commands

variable {s s' r r' : CommandService}

/-! ### States that differ in their stamps -/

/-- Everything but the recency is the same. -/
structure SameTables (s s' : CommandService) : Prop where
  clock : s.clock = s'.clock
  store : s.store = s'.store
  ttl : s.ttl = s'.ttl
  maxMemoryBytes : s.maxMemoryBytes = s'.maxMemoryBytes
  evictedKeys : s.evictedKeys = s'.evictedKeys

/-- Two states as the server builds them, with the same tables and the same order of recency,
whatever the stamps are. -/
structure Alike (s s' : CommandService) : Prop where
  tables : SameTables s s'
  consistent : Consistent s
  consistent' : Consistent s'
  order : ∀ a b, s.store.get? a ≠ none → s.store.get? b ≠ none →
    lastAccess s a < lastAccess s b → lastAccess s' a < lastAccess s' b

namespace SameTables

theorem deleteKey (same : SameTables s s') (key : String) :
    SameTables (deleteKey key s) (deleteKey key s') :=
  ⟨same.clock, by simp [Service.deleteKey, same.store], by simp [Service.deleteKey, same.ttl],
    same.maxMemoryBytes, same.evictedKeys⟩

theorem forgetKey (same : SameTables s s') (key : String) :
    SameTables (forgetKey key s) (forgetKey key s') :=
  ⟨same.clock, same.store, same.ttl, same.maxMemoryBytes, same.evictedKeys⟩

theorem touchKey (same : SameTables s s') (key : String) :
    SameTables (touchKey key s) (touchKey key s') :=
  ⟨by simp [same.clock], by simp [same.store], by simp [same.ttl], by simp [same.maxMemoryBytes],
    by simp [same.evictedKeys]⟩

theorem mutateEntry (same : SameTables s s') (key : String) (entry : ValueEntry) :
    SameTables (mutateEntry key entry s) (mutateEntry key entry s') :=
  ⟨same.clock, by simp [Service.mutateEntry, same.store], same.ttl, same.maxMemoryBytes,
    same.evictedKeys⟩

theorem now (same : SameTables s s') :
    (now s).1 = (now s').1 ∧ SameTables (Service.now s).2 (Service.now s').2 :=
  ⟨by simp [Service.now, same.clock], by simp [Service.now, same.clock], same.store, same.ttl,
    same.maxMemoryBytes, same.evictedKeys⟩

theorem purgeIfExpired (same : SameTables s s') (key : String) :
    (purgeIfExpired key s).1 = (purgeIfExpired key s').1 ∧
      SameTables (Service.purgeIfExpired key s).2 (Service.purgeIfExpired key s').2 := by
  unfold Service.purgeIfExpired isExpired
  rw [← same.ttl]
  cases s.ttl.get? key with
  | none => exact ⟨rfl, same⟩
  | some expiresAt =>
    obtain ⟨reading, read⟩ := same.now
    dsimp only
    rw [← reading]
    split
    · exact ⟨rfl, read.deleteKey key⟩
    · exact ⟨rfl, read⟩

theorem evictKey (same : SameTables s s') (key : String) :
    SameTables (evictKey key s) (evictKey key s') := by
  have deleted := (same.deleteKey key).forgetKey key
  exact ⟨deleted.clock, deleted.store, deleted.ttl, deleted.maxMemoryBytes,
    by simp [Service.evictKey, same.evictedKeys]⟩

private theorem purgeOrForget (same : SameTables s s') (key : String) :
    SameTables (purgeOrForget s key) (purgeOrForget s' key) := by
  have purged := (same.purgeIfExpired key).2
  unfold Service.purgeOrForget
  dsimp only
  rw [← purged.store]
  split
  · exact purged.forgetKey key
  · exact purged

theorem foldl {f : CommandService → String → CommandService}
    (step : ∀ {s s'} key, SameTables s s' → SameTables (f s key) (f s' key)) (keys : List String)
    (same : SameTables s s') : SameTables (keys.foldl f s) (keys.foldl f s') := by
  induction keys generalizing s s' with
  | nil => exact same
  | cons key keys ih => exact ih (step key same)

theorem purgeAllExpiredKeys (same : SameTables s s') :
    SameTables (purgeAllExpiredKeys s) (purgeAllExpiredKeys s') := by
  unfold Service.purgeAllExpiredKeys
  rw [← same.ttl]
  exact foldl (fun key same => same.purgeOrForget key) _ same

theorem sweepOnce (same : SameTables s s') (batchSize : ℤ) :
    SameTables (sweepOnce batchSize s).2 (sweepOnce batchSize s').2 := by
  have loop : ∀ t (keys : List String) {n n' : ℕ} {r r' : CommandService}, SameTables r r' →
      SameTables (keys.foldl (sweepKey t) (n, r)).2 (keys.foldl (sweepKey t) (n', r')).2 := by
    intro t keys
    induction keys with
    | nil => exact fun same => same
    | cons key keys ih =>
      intro n n' r r' same
      simp only [List.foldl_cons, sweepKey, ← same.ttl]
      split
      · exact ih same
      · split
        · exact ih (same.deleteKey key)
        · exact ih same
  obtain ⟨reading, read⟩ := same.now
  unfold Service.sweepOnce
  dsimp only
  rw [← reading, ← read.ttl]
  exact loop _ _ read

theorem currentMemoryBytes (same : SameTables s s') :
    currentMemoryBytes s = currentMemoryBytes s' := by
  rw [Service.currentMemoryBytes, Service.currentMemoryBytes, same.store]

theorem infoText (same : SameTables s s') : infoText s = infoText s' := by
  unfold Service.infoText maxMemoryOrZero
  rw [same.currentMemoryBytes, same.maxMemoryBytes, same.store, same.evictedKeys]

end SameTables

namespace Alike

theorem of_removals (alike : Alike s s') (same : SameTables r r') (removals : Removals s r)
    (removals' : Removals s' r') : Alike r r' := by
  have consistent := removals.moves.consistent alike.consistent
  have consistent' := removals'.moves.consistent alike.consistent'
  have kept : ∀ {s r : CommandService}, Shrunk s r → Consistent r → ∀ key,
      r.store.get? key ≠ none → lastAccess r key = lastAccess s key := by
    intro s r shrunk consistent key stored
    obtain ⟨n, stamp⟩ := consistent.stamped key stored
    rw [lastAccess, lastAccess, stamp, shrunk.stamp key n stamp]
  have stored : ∀ key, r.store.get? key ≠ none → s.store.get? key ≠ none := by
    intro key here absent
    obtain ⟨entry, found⟩ := Option.ne_none_iff_exists'.mp here
    rw [removals.shrunk.store key entry found] at absent
    cases absent
  refine ⟨same, consistent, consistent', fun a b ha hb older => ?_⟩
  rw [kept removals'.shrunk consistent' a (same.store ▸ ha),
    kept removals'.shrunk consistent' b (same.store ▸ hb)]
  rw [kept removals.shrunk consistent a ha, kept removals.shrunk consistent b hb] at older
  exact alike.order a b (stored a ha) (stored b hb) older

private theorem lastAccess_touched {key : String} (stored : s.store.get? key ≠ none) (a : String) :
    lastAccess (Service.touchKey key s) a = if a = key then s.accessClock + 1 else lastAccess s a := by
  unfold lastAccess Service.touchKey
  rw [if_neg stored, Dict.get?_set]
  split <;> rfl

private theorem lastAccess_le (consistent : Consistent s) (a : String) :
    lastAccess s a ≤ s.accessClock := by
  unfold lastAccess
  cases stamp : s.accessOrder.get? a with
  | none => exact Nat.zero_le _
  | some n => exact consistent.stamp_le a n stamp

theorem written_and_touched (alike : Alike s s') {key : String} (same : SameTables r r')
    (stored : r.store.get? key ≠ none)
    (elsewhere : ∀ a, a ≠ key → r.store.get? a ≠ none → s.store.get? a ≠ none)
    (recency : r.accessOrder = s.accessOrder ∧ r.accessClock = s.accessClock)
    (recency' : r'.accessOrder = s'.accessOrder ∧ r'.accessClock = s'.accessClock)
    (moves : Moves s (Service.touchKey key r)) (moves' : Moves s' (Service.touchKey key r')) :
    Alike (Service.touchKey key r) (Service.touchKey key r') := by
  have stored' : r'.store.get? key ≠ none := same.store ▸ stored
  refine ⟨same.touchKey key, moves.consistent alike.consistent, moves'.consistent alike.consistent',
    fun a b ha hb older => ?_⟩
  rw [touchKey_store] at ha hb
  rw [lastAccess_touched stored, lastAccess_touched stored] at older
  rw [lastAccess_touched stored', lastAccess_touched stored']
  have before : ∀ c, lastAccess r c = lastAccess s c := fun c => by rw [lastAccess, recency.1, lastAccess]
  have before' : ∀ c, lastAccess r' c = lastAccess s' c := fun c => by
    rw [lastAccess, recency'.1, lastAccess]
  rw [before, before, recency.2] at older
  rw [before', before', recency'.2]
  have le := lastAccess_le alike.consistent b
  have le' := lastAccess_le alike.consistent' a
  by_cases ak : a = key
  · rw [if_pos ak] at older
    split at older <;> omega
  · rw [if_neg ak] at older ⊢
    by_cases bk : b = key
    · rw [if_pos bk]
      omega
    · rw [if_neg bk] at older ⊢
      exact alike.order a b (elsewhere a ak ha) (elsewhere b bk hb) older

theorem refl (consistent : Consistent s) : Alike s s :=
  ⟨⟨rfl, rfl, rfl, rfl, rfl⟩, consistent, consistent, fun _ _ _ _ older => older⟩

theorem trans (first : Alike s s') (second : Alike s' r) : Alike s r := by
  refine ⟨⟨first.tables.clock.trans second.tables.clock,
    first.tables.store.trans second.tables.store, first.tables.ttl.trans second.tables.ttl,
    first.tables.maxMemoryBytes.trans second.tables.maxMemoryBytes,
    first.tables.evictedKeys.trans second.tables.evictedKeys⟩, first.consistent,
    second.consistent', fun a b ha hb older => ?_⟩
  have same := first.tables.store
  exact second.order a b (same ▸ ha) (same ▸ hb) (first.order a b ha hb older)

theorem touched_again (consistent : Consistent s) {key : String} (stored : s.store.get? key ≠ none)
    (latest : ∀ other, s.store.get? other ≠ none → lastAccess s other ≤ lastAccess s key) :
    Alike (Service.touchKey key s) s := by
  refine ⟨⟨by simp, by simp, by simp, by simp, by simp⟩,
    Moves.consistent (.single (.touch s key)) consistent, consistent, fun a b ha hb older => ?_⟩
  rw [touchKey_store] at ha hb
  rw [lastAccess_touched stored, lastAccess_touched stored] at older
  have le := lastAccess_le consistent b
  by_cases ak : a = key
  · rw [if_pos ak] at older
    split at older <;> omega
  · rw [if_neg ak] at older
    by_cases bk : b = key
    · rw [bk]
      exact lt_of_le_of_ne (latest a ha) (fun same => ak (consistent.lastAccess_inj ha stored same))
    · rwa [if_neg bk] at older

theorem storeEntry_beside (consistent : Consistent s) (consistent' : Consistent r) {key : String}
    {entry : ValueEntry}
    (same : SameTables (mutateEntry key entry r) (mutateEntry key entry s))
    (recency : ∀ a, a ≠ key → lastAccess r a = lastAccess s a) :
    Alike (storeEntry key entry r) (storeEntry key entry s) := by
  have stored : ∀ q : CommandService, (mutateEntry key entry q).store.get? key ≠ none := by
    intro q
    simp [mutateEntry]
  refine ⟨same.touchKey key, Moves.consistent (.single (.put r key entry)) consistent',
    Moves.consistent (.single (.put s key entry)) consistent, fun a b _ _ older => ?_⟩
  have touched : ∀ (q : CommandService) a, lastAccess (storeEntry key entry q) a =
      if a = key then q.accessClock + 1 else lastAccess q a :=
    fun q => lastAccess_touched (stored q)
  rw [touched, touched] at older ⊢
  have le := lastAccess_le consistent' b
  have le' := lastAccess_le consistent a
  by_cases ak : a = key
  · rw [if_pos ak] at older
    split at older <;> omega
  · rw [if_neg ak] at older ⊢
    by_cases bk : b = key
    · rw [if_pos bk]
      omega
    · rw [if_neg bk] at older ⊢
      rwa [← recency a ak, ← recency b bk]

theorem forgetKey (alike : Alike s s') {key : String} (absent : s.store.get? key = none) :
    Alike (forgetKey key s) (forgetKey key s') :=
  alike.of_removals (alike.tables.forgetKey key) (.single (.forget absent))
    (.single (.forget (alike.tables.store ▸ absent)))

theorem forgotten (consistent : Consistent s) {key : String} (absent : s.store.get? key = none) :
    Alike (Service.forgetKey key s) s :=
  (refl consistent).of_removals ⟨rfl, rfl, rfl, rfl, rfl⟩ (.single (.forget absent)) .refl

theorem purgeIfExpired (alike : Alike s s') (key : String) :
    Alike (purgeIfExpired key s).2 (purgeIfExpired key s').2 :=
  alike.of_removals (alike.tables.purgeIfExpired key).2 (purgeIfExpired_removals key s)
    (purgeIfExpired_removals key s')

theorem touchKey (alike : Alike s s') (key : String) :
    Alike (touchKey key s) (touchKey key s') := by
  by_cases absent : s.store.get? key = none
  · have absent' : s'.store.get? key = none := alike.tables.store ▸ absent
    simp only [Service.touchKey, absent, absent', if_true]
    exact alike.forgetKey absent
  · exact alike.written_and_touched alike.tables absent (fun _ _ h => h) ⟨rfl, rfl⟩ ⟨rfl, rfl⟩
      (.single (.touch s key)) (.single (.touch s' key))

theorem storeEntry (alike : Alike s s') (key : String) (entry : ValueEntry) :
    Alike (storeEntry key entry s) (storeEntry key entry s') := by
  refine alike.written_and_touched (alike.tables.mutateEntry key entry) (by simp)
    (fun a h => ?_) ⟨rfl, rfl⟩ ⟨rfl, rfl⟩ (.single (.put s key entry)) (.single (.put s' key entry))
  simp [Dict.get?_set, h]

theorem deleteEntryAndTtl (alike : Alike s s') (key : String) :
    Alike (deleteEntryAndTtl key s) (deleteEntryAndTtl key s') :=
  alike.of_removals ((alike.tables.deleteKey key).forgetKey key) (deleteEntryAndTtl_removals key s)
    (deleteEntryAndTtl_removals key s')

theorem apply (alike : Alike s s') {key : String} (stored : s.store.get? key ≠ none)
    (update : EntryUpdate) : Alike (update.apply key s) (update.apply key s') := by
  cases update with
  | keep => exact alike
  | put entry =>
    have stored' : s'.store.get? key ≠ none := alike.tables.store ▸ stored
    refine ⟨alike.tables.mutateEntry key entry,
      Moves.consistent (.single (.change stored entry)) alike.consistent,
      Moves.consistent (.single (.change stored' entry)) alike.consistent',
      fun a b ha hb older => ?_⟩
    have before : ∀ a, (mutateEntry key entry s).store.get? a ≠ none → s.store.get? a ≠ none := by
      intro a here absent
      by_cases h : a = key
      · exact stored (h ▸ absent)
      · exact here (by simpa [mutateEntry, Dict.get?_set, h] using absent)
    exact alike.order a b (before a ha) (before b hb) older
  | remove => exact alike.deleteEntryAndTtl key

/-! Enforcement. -/

theorem purgeAllExpiredKeys (alike : Alike s s') :
    Alike (purgeAllExpiredKeys s) (purgeAllExpiredKeys s') :=
  alike.of_removals alike.tables.purgeAllExpiredKeys (purgeAllExpiredKeys_removals s)
    (purgeAllExpiredKeys_removals s')

theorem evictionCandidate (alike : Alike s s') (protectedKeys : List String) :
    evictionCandidate protectedKeys s = evictionCandidate protectedKeys s' := by
  have stored : ∀ key ∈ s.store.keys.filter (· ∉ protectedKeys), s.store.get? key ≠ none :=
    fun key member absent =>
      (Dict.get?_eq_none_iff _ _).mp absent (List.mem_of_mem_filter member)
  rw [evictionCandidate_eq_argmin, evictionCandidate_eq_argmin, ← alike.tables.store]
  refine argmin_congr (List.Perm.refl _) ?_ ?_
  · exact fun a ha b hb => alike.order a b (stored a ha) (stored b hb)
  · exact fun a ha b hb => alike.consistent.lastAccess_inj (stored a ha) (stored b hb)

theorem evictKey (alike : Alike s s') (key : String) : Alike (evictKey key s) (evictKey key s') :=
  alike.of_removals (alike.tables.evictKey key) (evictKey_removals key s) (evictKey_removals key s')

theorem evictUntilFits (alike : Alike s s') (maxMemory : ℕ) (protectedKeys : List String)
    (rounds : ℕ) : Alike (evictUntilFits maxMemory protectedKeys rounds s)
      (evictUntilFits maxMemory protectedKeys rounds s') := by
  induction rounds generalizing s s' with
  | zero => exact alike
  | succ rounds ih =>
    unfold Service.evictUntilFits
    rw [← alike.tables.currentMemoryBytes, ← alike.evictionCandidate]
    split
    · split
      · exact alike
      · exact ih (alike.evictKey _)
    · exact alike

theorem evictProtected (alike : Alike s s') (maxMemory : ℕ) (protectedKeys : List String) :
    Alike (evictProtected maxMemory protectedKeys s)
      (evictProtected maxMemory protectedKeys s') := by
  induction protectedKeys generalizing s s' with
  | nil => exact alike
  | cons key rest ih =>
    unfold Service.evictProtected
    rw [← alike.tables.currentMemoryBytes, ← alike.tables.store]
    split
    · exact alike
    · split
      · rename_i absent
        exact ih (alike.forgetKey absent)
      · exact ih (alike.evictKey key)

theorem ensureMaxMemory (alike : Alike s s') (protectedKeys : List String) :
    Alike (ensureMaxMemory protectedKeys s) (ensureMaxMemory protectedKeys s') := by
  unfold Service.ensureMaxMemory
  rw [← alike.tables.maxMemoryBytes]
  split
  · exact alike
  · rename_i maxMemory _
    have purged := alike.purgeAllExpiredKeys
    have loop := purged.evictUntilFits maxMemory protectedKeys (Service.purgeAllExpiredKeys s).store.size
    dsimp only
    rw [← purged.tables.store, ← loop.tables.currentMemoryBytes]
    split
    · exact loop
    · exact loop.evictProtected maxMemory protectedKeys

/-! Operations. -/

private theorem finish (alike : Alike s s') {key : String} (stored : s.store.get? key ≠ none)
    (op : TypedOp) (entry : ValueEntry) :
    (op.finish key entry s).1 = (op.finish key entry s').1 ∧
      Alike (op.finish key entry s).2 (op.finish key entry s').2 := by
  have updated := alike.apply stored (op.onEntry entry).2
  refine ⟨rfl, ?_⟩
  unfold TypedOp.finish
  dsimp only
  split
  · exact (updated.touchKey key).ensureMaxMemory [key]
  · exact updated

private theorem performTyped (alike : Alike s s') (key : String) (op : TypedOp) :
    (performTyped key op s).1 = (performTyped key op s').1 ∧
      Alike (performTyped key op s).2 (performTyped key op s').2 := by
  have purged := alike.purgeIfExpired key
  unfold Service.performTyped
  dsimp only
  rw [← purged.tables.store]
  split
  · rename_i absent
    have forgotten := purged.forgetKey absent
    split
    · exact ⟨rfl, forgotten⟩
    · rename_i container _
      exact (forgotten.storeEntry key container).finish (by simp) op container
  · rename_i entry found
    have touched := purged.touchKey key
    split
    · exact ⟨rfl, touched⟩
    · exact touched.finish (by simp [found]) op entry

private theorem set (alike : Alike s s') (key value : String) :
    Alike (perform (.set key value) s).2 (perform (.set key value) s').2 := by
  have written : SameTables (setServiceExecute key value s).2 (setServiceExecute key value s').2 :=
    ⟨alike.tables.clock, by simp [setServiceExecute, alike.tables.store],
      by simp [setServiceExecute, alike.tables.ttl], alike.tables.maxMemoryBytes,
      alike.tables.evictedKeys⟩
  have moves : ∀ r : CommandService,
      Moves r (Service.touchKey key (setServiceExecute key value r).2) :=
    fun r => .tail (.single (.persist r key)) (.put _ key (.string value))
  refine (alike.written_and_touched written (by simp [setServiceExecute]) (fun a h => ?_) ⟨rfl, rfl⟩
    ⟨rfl, rfl⟩ (moves s) (moves s')).ensureMaxMemory [key]
  simp [setServiceExecute, Dict.get?_set, h]

private theorem expire (alike : Alike s s') (key : String) (seconds : PyFloat) :
    (perform (.expire key seconds) s).1 = (perform (.expire key seconds) s').1 ∧
      Alike (perform (.expire key seconds) s).2 (perform (.expire key seconds) s').2 := by
  have purged := alike.purgeIfExpired key
  obtain ⟨reading, read⟩ := purged.tables.now
  simp only [perform_expire, ← purged.tables.store, ← reading]
  split
  · exact ⟨rfl, purged⟩
  · rename_i stored
    have stored' : (Service.purgeIfExpired key s').2.store.get? key ≠ none :=
      purged.tables.store ▸ stored
    have moves : ∀ r : CommandService, r.store.get? key ≠ none → ∀ expiresAt,
        Moves r (Service.touchKey key
          { (now r).2 with ttl := (now r).2.ttl.set key expiresAt }) := by
      intro r stored expiresAt
      have ticked : Moves r (now r).2 := .single (.removal (.tick _ _))
      exact (ticked.tail (.deadline (s := (now r).2) stored expiresAt)).tail (.touch _ key)
    refine ⟨rfl, purged.written_and_touched ?_ stored (fun _ _ h => h) ⟨rfl, rfl⟩ ⟨rfl, rfl⟩
      (moves _ stored _) (moves _ stored' _)⟩
    exact ⟨read.clock, read.store, by simp [read.ttl], read.maxMemoryBytes, read.evictedKeys⟩

private theorem flushdb (alike : Alike s s') : Alike (executeFlushdb s) (executeFlushdb s') := by
  have loop : SameTables (s.store.keys.foldl (fun s key => Service.deleteEntryAndTtl key s) s)
      (s.store.keys.foldl (fun s key => Service.deleteEntryAndTtl key s) s') :=
    SameTables.foldl (fun key same => (same.deleteKey key).forgetKey key) _ alike.tables
  have absent : ∀ key, (executeFlushdb s).store.get? key = none := fun key => flush_loop_empty s key
  refine ⟨?_, (perform_moves .flushdb s).consistent alike.consistent,
    (perform_moves .flushdb s').consistent alike.consistent', fun a _ here => (here (absent a)).elim⟩
  unfold executeFlushdb
  rw [← alike.tables.store]
  exact ⟨loop.clock, loop.store, loop.ttl, loop.maxMemoryBytes, rfl⟩

/-- The reply does not depend on the stamps, and neither do the tables afterwards. -/
theorem perform (alike : Alike s s') (op : Operation) :
    (perform op s).1 = (perform op s').1 ∧ Alike (perform op s).2 (perform op s').2 := by
  cases op with
  | reply outcome => exact ⟨rfl, alike⟩
  | set key value => exact ⟨rfl, alike.set key value⟩
  | del key =>
    have purged := alike.purgeIfExpired key
    simp only [perform_del, ← purged.tables.store]
    split
    · rename_i absent
      exact ⟨rfl, purged.forgetKey absent⟩
    · exact ⟨rfl, purged.deleteEntryAndTtl key⟩
  | expire key seconds => exact alike.expire key seconds
  | ttl key =>
    have purged := alike.purgeIfExpired key
    simp only [perform_ttl, ← purged.tables.store, ← purged.tables.ttl]
    split
    · exact ⟨rfl, purged⟩
    · split
      · exact ⟨rfl, purged⟩
      · obtain ⟨reading, read⟩ := purged.tables.now
        rw [← reading]
        exact ⟨rfl, purged.of_removals read (.single (.tick _ _)) (.single (.tick _ _))⟩
  | dbsize =>
    have purged := alike.purgeAllExpiredKeys
    exact ⟨by simp [Service.perform, executeDbsize, purged.tables.store], purged⟩
  | flushdb => exact ⟨rfl, alike.flushdb⟩
  | info =>
    have purged := alike.purgeAllExpiredKeys
    exact ⟨by simp only [Service.perform, purged.tables.infoText], purged⟩
  | configGet =>
    exact ⟨by simp [Service.perform, maxMemoryOrZero, alike.tables.maxMemoryBytes], alike⟩
  | configSet value =>
    have limited : Alike { s with maxMemoryBytes := normalizeMaxMemoryBytes (some (value : ℤ)) }
        { s' with maxMemoryBytes := normalizeMaxMemoryBytes (some (value : ℤ)) } :=
      ⟨⟨alike.tables.clock, alike.tables.store, alike.tables.ttl, rfl, alike.tables.evictedKeys⟩,
        Moves.consistent (.single (.limit s _)) alike.consistent,
        Moves.consistent (.single (.limit s' _)) alike.consistent', alike.order⟩
    exact ⟨rfl, limited.ensureMaxMemory []⟩
  | typed key op => exact alike.performTyped key op

theorem tick (alike : Alike s s') (readings : ℕ → ℚ) :
    Alike { s with clock := readings } { s' with clock := readings } :=
  alike.of_removals
    ⟨rfl, alike.tables.store, alike.tables.ttl, alike.tables.maxMemoryBytes, alike.tables.evictedKeys⟩
    (.single (.tick s readings)) (.single (.tick s' readings))

theorem step (alike : Alike s s') {event : Event} (accepted : event.Accepted) :
    Alike (event.step s) (event.step s') := by
  cases event with
  | command readings request =>
    obtain ⟨op, denotes⟩ := accepted_denotes accepted
    simp only [Event.step, execute_denotes denotes]
    exact ((alike.tick readings).perform op).2
  | sweep readings batchSize =>
    have ticked := alike.tick readings
    exact ticked.of_removals (ticked.tables.sweepOnce batchSize) (sweepOnce_removals batchSize _)
      (sweepOnce_removals batchSize _)

theorem run (alike : Alike s s') {events : List Event}
    (accepted : ∀ event ∈ events, event.Accepted) : Alike (run events s) (run events s') := by
  induction events generalizing s s' with
  | nil => exact alike
  | cons event events ih =>
    exact ih (alike.step (accepted event List.mem_cons_self))
      (fun later member => accepted later (List.mem_cons_of_mem _ member))

theorem replies (alike : Alike s s') {events : List Event}
    (accepted : ∀ event ∈ events, event.Accepted) : replies s events = replies s' events := by
  induction events generalizing s s' with
  | nil => rfl
  | cons event events ih =>
    have first := accepted event List.mem_cons_self
    have rest := ih (alike.step first)
      (fun later member => accepted later (List.mem_cons_of_mem _ member))
    cases event with
    | command readings request =>
      obtain ⟨op, denotes⟩ := accepted_denotes first
      have reply := ((alike.tick readings).perform op).1
      simp only [Service.replies, execute_denotes denotes, reply, rest]
    | sweep readings batchSize => exact rest

end Alike

/-! ### After a flush -/

/-- A new service under the limit that is in force. -/
def CommandService.fresh (clock : ℕ → ℚ) (s : CommandService) : CommandService :=
  CommandService.init clock (s.maxMemoryBytes.map (fun maxMemory : ℕ+ => (maxMemory : ℤ)))

private theorem fresh_limit (clock : ℕ → ℚ) (s : CommandService) :
    (CommandService.fresh clock s).maxMemoryBytes = s.maxMemoryBytes := by
  unfold CommandService.fresh CommandService.init
  cases s.maxMemoryBytes with
  | none => rfl
  | some maxMemory =>
    have positive : (0 : ℤ) < (maxMemory : ℤ) := by exact_mod_cast maxMemory.pos
    simp only [Option.map_some, normalizeMaxMemoryBytes, dif_pos positive]
    rfl

/-- Both tables are empty after the flush: it walks over the values only, but no deadline is
without one. -/
private theorem flushed_alike (before : Consistent s) (clock : ℕ → ℚ) :
    Alike { executeFlushdb s with clock := clock } (CommandService.fresh clock s) := by
  have consistent : Consistent (executeFlushdb s) := (perform_moves .flushdb s).consistent before
  have absent : ∀ key, (executeFlushdb s).store.get? key = none := fun key => flush_loop_empty s key
  have limit := (flush_loop_removals s).shrunk.maxMemoryBytes
  refine ⟨⟨rfl, Dict.eq_empty absent, Dict.eq_empty (fun key => consistent.noOrphan key (absent key)),
    limit.trans (fresh_limit clock s).symm, rfl⟩, consistent.tick clock, Consistent.init clock _,
    fun a _ here => (here (absent a)).elim⟩

private theorem tick_irrelevant (clock : ℕ → ℚ) (s : CommandService) (events : List Event) :
    replies s events = replies { s with clock := clock } events ∧
      (run events s).store = (run events { s with clock := clock }).store ∧
      (run events s).ttl = (run events { s with clock := clock }).ttl ∧
      (run events s).evictedKeys = (run events { s with clock := clock }).evictedKeys := by
  cases events with
  | nil => exact ⟨rfl, rfl, rfl, rfl⟩
  | cons event events => cases event <;> exact ⟨rfl, rfl, rfl, rfl⟩

/-- After a flush the server answers and evicts like a new one with the same limit. -/
theorem flushed_is_fresh (reached : Reachable s) (readings clock : ℕ → ℚ) {events : List Event}
    (accepted : ∀ event ∈ events, event.Accepted) :
    let flushed := Event.step (.command readings ⟨"FLUSHDB", []⟩) s
    let fresh := CommandService.fresh clock s
    fresh.maxMemoryBytes = s.maxMemoryBytes ∧
    replies flushed events = replies fresh events ∧
    (run events flushed).store = (run events fresh).store ∧
    (run events flushed).ttl = (run events fresh).ttl ∧
    (run events flushed).evictedKeys = (run events fresh).evictedKeys := by
  intro flushed fresh
  have alike : Alike { flushed with clock := clock } fresh :=
    flushed_alike (reached.consistent.tick readings) clock
  obtain ⟨sameReplies, sameStore, sameTtl, sameCount⟩ := tick_irrelevant clock flushed events
  have later := (alike.run accepted).tables
  refine ⟨fresh_limit clock s, sameReplies.trans (alike.replies accepted), ?_, ?_, ?_⟩
  · exact sameStore.trans later.store
  · exact sameTtl.trans later.ttl
  · exact sameCount.trans later.evictedKeys

private def crowded : CommandService :=
  run [.command (fun _ => 0) ⟨"SET", ["a", "111"]⟩, .command (fun _ => 0) ⟨"SET", ["b", "222"]⟩,
      .command (fun _ => 0) ⟨"SET", ["c", "333"]⟩, .command (fun _ => 0) ⟨"EXPIRE", ["c", "9"]⟩]
    (CommandService.init (fun _ => 0) (some 8))

private theorem crowded_reachable : Reachable crowded := by
  refine Reachable.run (.init _ (some 8)) ?_
  intro event member
  simp only [List.mem_cons, List.not_mem_nil, or_false] at member
  rcases member with rfl | rfl | rfl | rfl <;>
  · unfold Event.Accepted
    decide +kernel

theorem crowded_server_flushed :
    replies (Event.step (.command (fun _ => 1) ⟨"FLUSHDB", []⟩) crowded)
        [.command (fun _ => 2) ⟨"SET", ["c", "333"]⟩, .command (fun _ => 20) ⟨"INFO", []⟩] =
      replies (CommandService.fresh (fun _ => 0) crowded)
        [.command (fun _ => 2) ⟨"SET", ["c", "333"]⟩, .command (fun _ => 20) ⟨"INFO", []⟩] := by
  refine (flushed_is_fresh crowded_reachable (fun _ => 1) (fun _ => 0) ?_).2.1
  intro event member
  simp only [List.mem_cons, List.not_mem_nil, or_false] at member
  rcases member with rfl | rfl <;>
  · unfold Event.Accepted
    decide +kernel

end MiniRedis.Service
