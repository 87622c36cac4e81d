/- GID: MiniRedis/Service/Expiry
   generality: I
   digest: Lazy purges and sweeps answer like the removal of all expired keys before each command. -/

import MiniRedis.Base.Eviction
import MiniRedis.Service.Live

set_option autoImplicit false
set_option relaxedAutoImplicit false

namespace MiniRedis.Service

open MiniRedis.Base MiniRedis.Python MiniRedis.Protocol MiniRedis.Commands

variable {t : ℚ} {s s' : CommandService}

/-! ### Steps at one key -/

/-- The tables of `r` differ from those of `s` at one key only. -/
def SameElsewhere (key : String) (s r : CommandService) : Prop :=
  ∀ key', key' ≠ key → r.store.get? key' = s.store.get? key' ∧
    r.ttl.get? key' = s.ttl.get? key' ∧ r.accessOrder.get? key' = s.accessOrder.get? key'

theorem sameElsewhere_touchKey (key : String) (s : CommandService) :
    SameElsewhere key s (touchKey key s) := by
  intro key' h
  unfold touchKey
  split <;> simp [forgetKey, Dict.get?_erase, Dict.get?_set, h]

theorem sameElsewhere_mutateEntry (key : String) (entry : ValueEntry) (s : CommandService) :
    SameElsewhere key s (mutateEntry key entry s) := by
  intro key' h
  simp [mutateEntry, Dict.get?_set, h]

theorem sameElsewhere_deleteEntryAndTtl (key : String) (s : CommandService) :
    SameElsewhere key s (deleteEntryAndTtl key s) := by
  intro key' h
  simp [deleteEntryAndTtl, forgetKey, Dict.get?_erase, h]

/-- A key that is expired on neither side is the same on both. -/
structure SameAt (key : String) (s s' : CommandService) : Prop where
  store : s.store.get? key = s'.store.get? key
  ttl : s.ttl.get? key = s'.ttl.get? key
  stamp : s.store.get? key ≠ none → s.accessOrder.get? key = s'.accessOrder.get? key

theorem LiveEq.sameAt (h : LiveEq t s s') {key : String} (live : expiredAt t s key = false)
    (live' : expiredAt t s' key = false) : SameAt key s s' := by
  have entry := h.entry key
  have deadline := h.deadline key
  have stamp := h.stamp key
  simp only [liveEntry, liveDeadline, live, live', Bool.false_eq_true, if_false]
    at entry deadline stamp
  exact ⟨entry, deadline, stamp⟩

theorem LiveEq.update (h : LiveEq t s s') {r r' : CommandService} {key : String}
    (frame : SameElsewhere key s r) (frame' : SameElsewhere key s' r') (same : SameAt key r r')
    (accessClock : r.accessClock = r'.accessClock)
    (maxMemoryBytes : r.maxMemoryBytes = r'.maxMemoryBytes)
    (evictedKeys : r.evictedKeys = r'.evictedKeys) : LiveEq t r r' := by
  have expired : expiredAt t r key = expiredAt t r' key := expiredAt_congr same.ttl
  have elsewhere : ∀ {s r : CommandService}, SameElsewhere key s r → ∀ key', key' ≠ key →
      liveEntry t r key' = liveEntry t s key' ∧ liveDeadline t r key' = liveDeadline t s key' := by
    intro s r frame key' hne
    obtain ⟨hs, ht, _⟩ := frame key' hne
    rw [liveEntry, liveEntry, liveDeadline, liveDeadline, expiredAt_congr ht, hs, ht]
    exact ⟨rfl, rfl⟩
  refine ⟨fun key' => ?_, fun key' => ?_, fun key' live => ?_, accessClock, maxMemoryBytes,
    evictedKeys⟩
  · by_cases hk : key' = key
    · rw [hk, liveEntry, liveEntry, expired, same.store]
    · rw [(elsewhere frame key' hk).1, (elsewhere frame' key' hk).1, h.entry]
  · by_cases hk : key' = key
    · rw [hk, liveDeadline, liveDeadline, expired, same.ttl]
    · rw [(elsewhere frame key' hk).2, (elsewhere frame' key' hk).2, h.deadline]
  · by_cases hk : key' = key
    · subst hk
      refine same.stamp (fun absent => live ?_)
      simp [liveEntry, absent]
    · rw [(elsewhere frame key' hk).1] at live
      rw [(frame key' hk).2.2, (frame' key' hk).2.2, h.stamp key' live]

theorem LiveEq.touchKey (h : LiveEq t s s') {key : String} (same : SameAt key s s') :
    LiveEq t (touchKey key s) (touchKey key s') ∧
      SameAt key (Service.touchKey key s) (Service.touchKey key s') := by
  have touched : SameAt key (Service.touchKey key s) (Service.touchKey key s') ∧
      (Service.touchKey key s).accessClock = (Service.touchKey key s').accessClock := by
    unfold Service.touchKey
    rw [← same.store]
    split
    · exact ⟨⟨same.store, same.ttl, fun _ => by simp [forgetKey]⟩, h.accessClock⟩
    · exact ⟨⟨same.store, same.ttl, fun _ => by simp [h.accessClock]⟩, by simp [h.accessClock]⟩
  exact ⟨h.update (sameElsewhere_touchKey key s) (sameElsewhere_touchKey key s') touched.1
    touched.2 (by simp [h.maxMemoryBytes]) (by simp [h.evictedKeys]), touched.1⟩

theorem LiveEq.mutateEntry (h : LiveEq t s s') {key : String}
    (ttl : s.ttl.get? key = s'.ttl.get? key)
    (stamp : s.accessOrder.get? key = s'.accessOrder.get? key) (entry : ValueEntry) :
    LiveEq t (mutateEntry key entry s) (mutateEntry key entry s') ∧
      SameAt key (Service.mutateEntry key entry s) (Service.mutateEntry key entry s') := by
  have mutated : SameAt key (Service.mutateEntry key entry s) (Service.mutateEntry key entry s') :=
    ⟨by simp [Service.mutateEntry], ttl, fun _ => stamp⟩
  exact ⟨h.update (sameElsewhere_mutateEntry key entry s) (sameElsewhere_mutateEntry key entry s')
    mutated h.accessClock h.maxMemoryBytes h.evictedKeys, mutated⟩

theorem LiveEq.deleteEntryAndTtl (h : LiveEq t s s') (key : String) :
    LiveEq t (deleteEntryAndTtl key s) (deleteEntryAndTtl key s') ∧
      SameAt key (Service.deleteEntryAndTtl key s) (Service.deleteEntryAndTtl key s') := by
  have deleted : SameAt key (Service.deleteEntryAndTtl key s)
      (Service.deleteEntryAndTtl key s') := by
    constructor <;> simp [Service.deleteEntryAndTtl, forgetKey]
  exact ⟨h.update (sameElsewhere_deleteEntryAndTtl key s) (sameElsewhere_deleteEntryAndTtl key s')
    deleted h.accessClock h.maxMemoryBytes h.evictedKeys, deleted⟩

/-! ### Enforcement -/

/-- Two indistinguishable states without expired keys, both as the server builds them. -/
structure SettledPair (t : ℚ) (s s' : CommandService) : Prop where
  live : LiveEq t s s'
  settled : Settled t s
  settled' : Settled t s'
  consistent : Consistent s
  consistent' : Consistent s'

namespace SettledPair

theorem store (pair : SettledPair t s s') (key : String) :
    s.store.get? key = s'.store.get? key := by
  rw [← pair.settled.liveEntry, ← pair.settled'.liveEntry, pair.live.entry]

theorem currentMemoryBytes_eq (pair : SettledPair t s s') :
    currentMemoryBytes s = currentMemoryBytes s' :=
  Dict.sumBy_eq_of_get?_eq pair.store _

theorem stamp (pair : SettledPair t s s') {key : String} (stored : s.store.get? key ≠ none) :
    s.accessOrder.get? key = s'.accessOrder.get? key :=
  pair.live.stamp key (by rwa [pair.settled.liveEntry])

theorem evictionCandidate_eq (pair : SettledPair t s s') (protectedKeys : List String) :
    evictionCandidate protectedKeys s = evictionCandidate protectedKeys s' := by
  have stored : ∀ key ∈ s.store.keys.filter (· ∉ protectedKeys), s.store.get? key ≠ none :=
    fun key member absent =>
      (Dict.get?_eq_none_iff _ _).mp absent (List.mem_of_mem_filter member)
  rw [evictionCandidate_eq_argmin, evictionCandidate_eq_argmin]
  refine argmin_congr ((Dict.keys_perm_of_get?_eq pair.store).filter _) ?_ ?_
  · intro a ha b hb older
    rwa [lastAccess, lastAccess, ← pair.stamp (stored a ha), ← pair.stamp (stored b hb)]
  · exact fun a ha b hb => pair.consistent.lastAccess_inj (stored a ha) (stored b hb)

theorem keys_length_eq (pair : SettledPair t s s') : s.store.keys.length = s'.store.keys.length :=
  (Dict.keys_perm_of_get?_eq pair.store).length_eq

theorem infoText_eq (pair : SettledPair t s s') : infoText s = infoText s' := by
  have limit : maxMemoryOrZero s = maxMemoryOrZero s' := by
    simp only [maxMemoryOrZero, pair.live.maxMemoryBytes]
  unfold infoText
  rw [limit, pair.currentMemoryBytes_eq, pair.keys_length_eq, pair.live.evictedKeys]

theorem evictKey (pair : SettledPair t s s') (key : String) :
    SettledPair t (evictKey key s) (evictKey key s') := by
  have deleted := (pair.live.deleteEntryAndTtl key).1
  have shrunk := fun r : CommandService => (evictKey_removals key r).shrunk
  exact ⟨⟨deleted.entry, deleted.deadline, deleted.stamp, deleted.accessClock,
      deleted.maxMemoryBytes, by simp [Service.evictKey, pair.live.evictedKeys]⟩,
    pair.settled.of_shrunk (shrunk s), pair.settled'.of_shrunk (shrunk s'),
    Moves.consistent (evictKey_removals key s).moves pair.consistent,
    Moves.consistent (evictKey_removals key s').moves pair.consistent'⟩

theorem forgetKey (pair : SettledPair t s s') {key : String} (absent : s.store.get? key = none) :
    SettledPair t (forgetKey key s) (forgetKey key s') := by
  have absent' : s'.store.get? key = none := by rw [← pair.store, absent]
  have removed : Removal s (Service.forgetKey key s) := .forget absent
  have removed' : Removal s' (Service.forgetKey key s') := .forget absent'
  have forgotten := Swept.liveEq (t := t) (Swept.forgetKey absent)
  have forgotten' := Swept.liveEq (t := t) (Swept.forgetKey absent')
  exact ⟨forgotten.symm.trans (pair.live.trans forgotten'),
    pair.settled, pair.settled',
    Moves.consistent (.single (.removal removed)) pair.consistent,
    Moves.consistent (.single (.removal removed')) pair.consistent'⟩

theorem evictUntilFits (pair : SettledPair t s s') (maxMemory : ℕ) (protectedKeys : List String)
    (rounds : ℕ) :
    SettledPair t (evictUntilFits maxMemory protectedKeys rounds s)
      (evictUntilFits maxMemory protectedKeys rounds s') := by
  induction rounds generalizing s s' with
  | zero => exact pair
  | succ rounds ih =>
    unfold Service.evictUntilFits
    rw [← pair.currentMemoryBytes_eq, ← pair.evictionCandidate_eq]
    split
    · split
      · exact pair
      · exact ih (pair.evictKey _)
    · exact pair

theorem evictProtected (pair : SettledPair t s s') (maxMemory : ℕ) (protectedKeys : List String) :
    SettledPair t (evictProtected maxMemory protectedKeys s)
      (evictProtected maxMemory protectedKeys s') := by
  induction protectedKeys generalizing s s' with
  | nil => exact pair
  | cons key rest ih =>
    unfold Service.evictProtected
    rw [← pair.currentMemoryBytes_eq, ← pair.store]
    split
    · exact pair
    · split
      · rename_i absent
        exact ih (pair.forgetKey absent)
      · exact ih (pair.evictKey key)

end SettledPair

theorem LiveEq.purgeAll (h : LiveEq t s s') (moment : AtTime t s) (moment' : AtTime t s')
    (consistent : Consistent s) (consistent' : Consistent s') :
    SettledPair t (purgeAllExpiredKeys s) (purgeAllExpiredKeys s') := by
  obtain ⟨_, swept, settled⟩ := moment.purgeAll
  obtain ⟨_, swept', settled'⟩ := moment'.purgeAll
  exact ⟨swept.liveEq.symm.trans (h.trans swept'.liveEq), settled, settled',
    Moves.consistent (purgeAllExpiredKeys_removals s).moves consistent,
    Moves.consistent (purgeAllExpiredKeys_removals s').moves consistent'⟩

theorem LiveEq.ensureMaxMemory (h : LiveEq t s s') (moment : AtTime t s) (moment' : AtTime t s')
    (consistent : Consistent s) (consistent' : Consistent s') (protectedKeys : List String) :
    LiveEq t (ensureMaxMemory protectedKeys s) (ensureMaxMemory protectedKeys s') := by
  unfold Service.ensureMaxMemory
  rw [← h.maxMemoryBytes]
  split
  · exact h
  · rename_i maxMemory _
    have pair := h.purgeAll moment moment' consistent consistent'
    have size := Dict.size_eq_of_get?_eq pair.store
    have loop := pair.evictUntilFits maxMemory protectedKeys (purgeAllExpiredKeys s).store.size
    rw [size] at loop
    simp only [size, loop.currentMemoryBytes_eq]
    split
    · exact loop.live
    · exact (loop.evictProtected maxMemory protectedKeys).live

/-! ### One operation on two indistinguishable states -/

/-- Two states at one moment that agree on everything visible and on one settled key. -/
structure Twins (t : ℚ) (s s' : CommandService) : Prop where
  live : LiveEq t s s'
  moment : AtTime t s
  moment' : AtTime t s'
  consistent : Consistent s
  consistent' : Consistent s'

namespace Twins

theorem of_moves {r r' : CommandService} (twins : Twins t s s') (live : LiveEq t r r')
    (clock : r.clock = s.clock) (clock' : r'.clock = s'.clock) (moves : Moves s r)
    (moves' : Moves s' r') : Twins t r r' :=
  ⟨live, clock.trans twins.moment, clock'.trans twins.moment', moves.consistent twins.consistent,
    moves'.consistent twins.consistent'⟩

theorem purge (twins : Twins t s s') (key : String) :
    Twins t (purgeIfExpired key s).2 (purgeIfExpired key s').2 ∧
      SameAt key (purgeIfExpired key s).2 (purgeIfExpired key s').2 := by
  have live : LiveEq t (purgeIfExpired key s).2 (purgeIfExpired key s').2 :=
    (twins.moment.swept key).liveEq.symm.trans
      (twins.live.trans (twins.moment'.swept key).liveEq)
  refine ⟨⟨live, twins.moment.purged key, twins.moment'.purged key, ?_, ?_⟩,
    live.sameAt (twins.moment.settled key) (twins.moment'.settled key)⟩
  · exact (purgeIfExpired_removals key s).moves.consistent twins.consistent
  · exact (purgeIfExpired_removals key s').moves.consistent twins.consistent'

theorem touchKey (twins : Twins t s s') {key : String} (same : SameAt key s s') :
    Twins t (touchKey key s) (touchKey key s') ∧
      SameAt key (Service.touchKey key s) (Service.touchKey key s') := by
  obtain ⟨live, touched⟩ := twins.live.touchKey same
  exact ⟨twins.of_moves live (by simp) (by simp) (.single (.touch s key)) (.single (.touch s' key)),
    touched⟩

theorem forgetKey (twins : Twins t s s') {key : String} (absent : s.store.get? key = none)
    (absent' : s'.store.get? key = none) : Twins t (forgetKey key s) (forgetKey key s') := by
  have forgotten := Swept.liveEq (t := t) (Swept.forgetKey absent)
  have forgotten' := Swept.liveEq (t := t) (Swept.forgetKey absent')
  exact twins.of_moves (forgotten.symm.trans (twins.live.trans forgotten')) rfl rfl
    (.single (.removal (.forget absent))) (.single (.removal (.forget absent')))

theorem storeEntry (twins : Twins t s s') {key : String}
    (ttl : s.ttl.get? key = s'.ttl.get? key)
    (stamp : s.accessOrder.get? key = s'.accessOrder.get? key) (entry : ValueEntry) :
    Twins t (storeEntry key entry s) (storeEntry key entry s') ∧
      SameAt key (Service.storeEntry key entry s) (Service.storeEntry key entry s') := by
  obtain ⟨live, same⟩ := twins.live.mutateEntry ttl stamp entry
  obtain ⟨live, same⟩ := live.touchKey same
  exact ⟨twins.of_moves live (touchKey_clock _ _) (touchKey_clock _ _) (.single (.put s key entry))
    (.single (.put s' key entry)), same⟩

theorem deleteEntryAndTtl (twins : Twins t s s') (key : String) :
    Twins t (deleteEntryAndTtl key s) (deleteEntryAndTtl key s') ∧
      SameAt key (Service.deleteEntryAndTtl key s) (Service.deleteEntryAndTtl key s') := by
  obtain ⟨live, same⟩ := twins.live.deleteEntryAndTtl key
  exact ⟨twins.of_moves live rfl rfl (deleteEntryAndTtl_removals key s).moves
    (deleteEntryAndTtl_removals key s').moves, same⟩

theorem apply (twins : Twins t s s') {key : String} (same : SameAt key s s')
    (stored : s.store.get? key ≠ none) (update : EntryUpdate) :
    Twins t (update.apply key s) (update.apply key s') ∧
      SameAt key (update.apply key s) (update.apply key s') := by
  have stored' : s'.store.get? key ≠ none := by rwa [← same.store]
  cases update with
  | keep => exact ⟨twins, same⟩
  | put entry =>
    obtain ⟨live, mutated⟩ := twins.live.mutateEntry same.ttl (same.stamp stored) entry
    exact ⟨twins.of_moves live rfl rfl (.single (.change stored entry))
      (.single (.change stored' entry)), mutated⟩
  | remove => exact twins.deleteEntryAndTtl key

theorem ensureMaxMemory (twins : Twins t s s') (protectedKeys : List String) :
    LiveEq t (ensureMaxMemory protectedKeys s) (ensureMaxMemory protectedKeys s') :=
  twins.live.ensureMaxMemory twins.moment twins.moment' twins.consistent twins.consistent'
    protectedKeys

theorem finish (twins : Twins t s s') {key : String} (same : SameAt key s s')
    (stored : s.store.get? key ≠ none) (op : TypedOp) (entry : ValueEntry) :
    (op.finish key entry s).1 = (op.finish key entry s').1 ∧
      LiveEq t (op.finish key entry s).2 (op.finish key entry s').2 := by
  obtain ⟨updated, same⟩ := twins.apply same stored (op.onEntry entry).2
  refine ⟨rfl, ?_⟩
  unfold TypedOp.finish
  dsimp only
  split
  · exact (updated.touchKey same).1.ensureMaxMemory [key]
  · exact updated.live

theorem performTyped (twins : Twins t s s') (key : String) (op : TypedOp) :
    (performTyped key op s).1 = (performTyped key op s').1 ∧
      LiveEq t (performTyped key op s).2 (performTyped key op s').2 := by
  obtain ⟨purged, same⟩ := twins.purge key
  unfold Service.performTyped
  dsimp only
  rw [← same.store]
  split
  · rename_i absent
    have absent' : (purgeIfExpired key s').2.store.get? key = none := by rw [← same.store, absent]
    have forgotten := purged.forgetKey absent absent'
    split
    · exact ⟨rfl, forgotten.live⟩
    · rename_i container _
      obtain ⟨created, same⟩ := forgotten.storeEntry same.ttl (by simp [Service.forgetKey]) container
      exact created.finish same (by simp) op container
  · rename_i entry found
    obtain ⟨touched, same⟩ := purged.touchKey same
    split
    · exact ⟨rfl, touched.live⟩
    · exact touched.finish same (by simp [found]) op entry

private theorem del (twins : Twins t s s') (key : String) :
    (perform (.del key) s).1 = (perform (.del key) s').1 ∧
      LiveEq t (perform (.del key) s).2 (perform (.del key) s').2 := by
  obtain ⟨purged, same⟩ := twins.purge key
  simp only [perform_del, ← same.store]
  split
  · rename_i absent
    exact ⟨rfl, (purged.forgetKey absent (by rw [← same.store, absent])).live⟩
  · exact ⟨rfl, (purged.deleteEntryAndTtl key).1.live⟩

private theorem expire (twins : Twins t s s') (key : String) (seconds : PyFloat) :
    (perform (.expire key seconds) s).1 = (perform (.expire key seconds) s').1 ∧
      LiveEq t (perform (.expire key seconds) s).2 (perform (.expire key seconds) s').2 := by
  obtain ⟨purged, same⟩ := twins.purge key
  simp only [perform_expire, ← same.store, purged.moment.now, purged.moment'.now]
  split
  · exact ⟨rfl, purged.live⟩
  · rename_i stored
    have deadline : ∀ r : CommandService, SameElsewhere key r
        { r with ttl := r.ttl.set key (calculateExpiresAt t seconds) } := by
      intro r key' hne
      simp [Dict.get?_set, hne]
    have live := purged.live.update (deadline _) (deadline _)
      ⟨same.store, by simp, same.stamp⟩ purged.live.accessClock purged.live.maxMemoryBytes
      purged.live.evictedKeys
    exact ⟨rfl, (live.touchKey ⟨same.store, by simp, same.stamp⟩).1⟩

private theorem touchKey_set (key value : String) (s : CommandService) :
    Service.touchKey key (setServiceExecute key value s).2 =
      { s with
        store := s.store.set key (.string value)
        ttl := s.ttl.erase key
        accessClock := s.accessClock + 1
        accessOrder := s.accessOrder.set key (s.accessClock + 1) } := by
  simp [Service.touchKey, setServiceExecute]

private theorem set (twins : Twins t s s') (key value : String) :
    LiveEq t (perform (.set key value) s).2 (perform (.set key value) s').2 := by
  have frame : ∀ r : CommandService,
      SameElsewhere key r (Service.touchKey key (setServiceExecute key value r).2) := by
    intro r key' hne
    simp [touchKey_set, Dict.get?_set, Dict.get?_erase, hne]
  have moves : ∀ r : CommandService,
      Moves r (Service.touchKey key (setServiceExecute key value r).2) :=
    fun r => .tail (.single (.persist r key)) (.put _ key (.string value))
  -- the key is overwritten whether or not one side still held an expired value of it
  have live := twins.live.update (frame s) (frame s')
    ⟨by simp [touchKey_set], by simp [touchKey_set], fun _ => by
      simp [touchKey_set, twins.live.accessClock]⟩
    (by simp [touchKey_set, twins.live.accessClock])
    (by simp [touchKey_set, twins.live.maxMemoryBytes])
    (by simp [touchKey_set, twins.live.evictedKeys])
  exact (twins.of_moves live (by simp [touchKey_set]) (by simp [touchKey_set]) (moves s)
    (moves s')).ensureMaxMemory [key]

private theorem flushdb (twins : Twins t s s') :
    LiveEq t (perform .flushdb s).2 (perform .flushdb s').2 := by
  have absent : ∀ (r : CommandService) key, (perform .flushdb r).2.store.get? key = none :=
    fun r key => flush_loop_empty r key
  have consistent := (perform_moves .flushdb s).consistent twins.consistent
  have consistent' := (perform_moves .flushdb s').consistent twins.consistent'
  have shrunk := (flush_loop_removals s).shrunk
  have shrunk' := (flush_loop_removals s').shrunk
  refine ⟨fun key => ?_, fun key => ?_, fun key live => ?_, ?_, ?_, ?_⟩
  · simp [liveEntry, absent]
  · simp [liveDeadline, consistent.noOrphan key (absent s key),
      consistent'.noOrphan key (absent s' key)]
  · simp [liveEntry, absent] at live
  · exact shrunk.accessClock.trans (twins.live.accessClock.trans shrunk'.accessClock.symm)
  · exact shrunk.maxMemoryBytes.trans (twins.live.maxMemoryBytes.trans shrunk'.maxMemoryBytes.symm)
  · simp only [perform, executeFlushdb]

/-- The reply and everything visible afterwards are the same on both sides. -/
theorem perform (twins : Twins t s s') (op : Operation) :
    (perform op s).1 = (perform op s').1 ∧ LiveEq t (perform op s).2 (perform op s').2 := by
  cases op with
  | reply outcome => exact ⟨rfl, twins.live⟩
  | set key value => exact ⟨rfl, twins.set key value⟩
  | del key => exact twins.del key
  | expire key seconds => exact twins.expire key seconds
  | ttl key =>
    obtain ⟨purged, same⟩ := twins.purge key
    simp only [perform_ttl, ← same.store, ← same.ttl]
    split
    · exact ⟨rfl, purged.live⟩
    · split
      · exact ⟨rfl, purged.live⟩
      · rw [purged.moment.now, purged.moment'.now]
        exact ⟨rfl, purged.live⟩
  | dbsize =>
    have pair := twins.live.purgeAll twins.moment twins.moment' twins.consistent twins.consistent'
    exact ⟨by simp [Service.perform, executeDbsize, pair.keys_length_eq], pair.live⟩
  | flushdb => exact ⟨by simp only [Service.perform], twins.flushdb⟩
  | info =>
    have pair := twins.live.purgeAll twins.moment twins.moment' twins.consistent twins.consistent'
    exact ⟨by simp only [Service.perform, pair.infoText_eq], pair.live⟩
  | configGet =>
    exact ⟨by simp [Service.perform, maxMemoryOrZero, twins.live.maxMemoryBytes], twins.live⟩
  | configSet value =>
    have limit : ∀ r : CommandService, Moves r
        { r with maxMemoryBytes := normalizeMaxMemoryBytes (some (value : ℤ)) } :=
      fun r => .single (.limit r _)
    have live : LiveEq t { s with maxMemoryBytes := normalizeMaxMemoryBytes (some (value : ℤ)) }
        { s' with maxMemoryBytes := normalizeMaxMemoryBytes (some (value : ℤ)) } :=
      ⟨twins.live.entry, twins.live.deadline, twins.live.stamp, twins.live.accessClock, rfl,
        twins.live.evictedKeys⟩
    exact ⟨rfl, (twins.of_moves live rfl rfl (limit s) (limit s')).ensureMaxMemory []⟩
  | typed key op => exact twins.performTyped key op

end Twins

/-! ### Later moments -/

private theorem expiredAt_mono {t t' : ℚ} (h : t ≤ t') {key : String}
    (expired : expiredAt t s key = true) : expiredAt t' s key = true := by
  unfold expiredAt at expired ⊢
  cases hd : s.ttl.get? key with
  | none => simp [hd] at expired
  | some expiresAt =>
    simp only [hd, Option.any_some] at expired ⊢
    exact PyFloat.leRat_mono h expired

theorem live_later {t t' : ℚ} (h : t ≤ t') (s : CommandService) (key : String) :
    liveEntry t' s key =
      (if (liveDeadline t s key).any (·.leRat t') then none else liveEntry t s key) ∧
    liveDeadline t' s key =
      (if (liveDeadline t s key).any (·.leRat t') then none else liveDeadline t s key) := by
  cases now : expiredAt t s key with
  | true => simp [liveEntry, liveDeadline, now, expiredAt_mono h now]
  | false =>
    have deadline : liveDeadline t s key = s.ttl.get? key := by simp [liveDeadline, now]
    have entry : liveEntry t s key = s.store.get? key := by simp [liveEntry, now]
    rw [deadline, entry]
    exact ⟨rfl, rfl⟩

theorem LiveEq.mono {t t' : ℚ} (live : LiveEq t s s') (h : t ≤ t') : LiveEq t' s s' := by
  refine ⟨fun key => ?_, fun key => ?_, fun key visible => live.stamp key (fun absent => ?_),
    live.accessClock, live.maxMemoryBytes, live.evictedKeys⟩
  · rw [(live_later h s key).1, (live_later h s' key).1, live.entry, live.deadline]
  · rw [(live_later h s key).2, (live_later h s' key).2, live.deadline]
  · rw [(live_later h s key).1, absent] at visible
    simp at visible

/-! ### The reference semantics -/

/-- All keys whose deadline is over leave the store and the TTL table. -/
def removeExpired (t : ℚ) (s : CommandService) : CommandService :=
  { s with
    store := s.store.filter (fun key _ => !expiredAt t s key)
    ttl := s.ttl.filter (fun key _ => !expiredAt t s key) }

theorem removeExpired_swept (t : ℚ) (s : CommandService) : Swept t s (removeExpired t s) := by
  refine ⟨fun key => ?_, fun _ _ => rfl, rfl, rfl, rfl⟩
  simp only [removeExpired, Dict.get?_filter]
  cases expired : expiredAt t s key with
  | true => exact Or.inr ⟨rfl, by simp, by simp⟩
  | false => exact Or.inl ⟨by cases s.store.get? key <;> rfl, by cases s.ttl.get? key <;> rfl⟩

private theorem removeExpired_consistent (consistent : Consistent s) (t : ℚ) :
    Consistent (removeExpired t s) := by
  refine ⟨fun key absent => ?_, fun key stored => ?_, consistent.stamp_le, consistent.stamp_inj⟩
  · rcases (removeExpired_swept t s).tables key with ⟨hs, ht⟩ | ⟨_, _, ht⟩
    · rw [ht]
      exact consistent.noOrphan key (hs ▸ absent)
    · exact ht
  · rcases (removeExpired_swept t s).tables key with ⟨hs, _⟩ | ⟨_, hs, _⟩
    · exact consistent.stamped key (hs ▸ stored)
    · exact (stored hs).elim

/-- A command or a sweep at one moment. -/
inductive Action where
  | command (request : Command)
  | sweep (batchSize : ℤ)

/-- The event in which the clock stands still. -/
def Action.event (t : ℚ) : Action → Event
  | .command request => .command (fun _ => t) request
  | .sweep batchSize => .sweep (fun _ => t) batchSize

/-- Actions in the order in which they happen, with their times. -/
abbrev Schedule := List (ℚ × Action)

def Schedule.events (schedule : Schedule) : List Event :=
  schedule.map (fun entry => entry.2.event entry.1)

/-- The commands alone. -/
def Schedule.commands : Schedule → List (ℚ × Command)
  | [] => []
  | (t, .command request) :: rest => (t, request) :: Schedule.commands rest
  | (_, .sweep _) :: rest => Schedule.commands rest

/-- Outcomes and last state when every command starts with the removal of all expired keys. -/
def reference : CommandService → List (ℚ × Command) →
    List (Except PyException RespValue) × CommandService
  | s, [] => ([], s)
  | s, (t, request) :: rest =>
    let result := (execute request).exec (removeExpired t { s with clock := fun _ => t })
    let later := reference result.2 rest
    (result.1 :: later.1, later.2)

theorem Twins.of_reference {t : ℚ} (live : LiveEq t s s') (consistent : Consistent s)
    (consistent' : Consistent s') :
    Twins t { s with clock := fun _ => t } (removeExpired t { s' with clock := fun _ => t }) := by
  have removed := (removeExpired_swept t { s' with clock := fun _ => t }).liveEq
  refine ⟨?_, rfl, rfl, consistent.tick _, removeExpired_consistent (consistent'.tick _) t⟩
  exact (Swept.tick t s _).liveEq.symm.trans ((live.trans (Swept.tick t s' _).liveEq).trans removed)

private theorem reference_simulates {schedule : Schedule} {s s' : CommandService} {t : ℚ}
    (live : LiveEq t s s') (consistent : Consistent s) (consistent' : Consistent s')
    (later : ∀ entry ∈ schedule, t ≤ entry.1)
    (ordered : schedule.Pairwise (fun a b => a.1 ≤ b.1))
    (accepted : ∀ event ∈ schedule.events, event.Accepted) :
    replies s schedule.events = (reference s' schedule.commands).1 ∧
      ∀ final, t ≤ final → (∀ entry ∈ schedule, entry.1 ≤ final) →
        LiveEq final (run schedule.events s) (reference s' schedule.commands).2 := by
  induction schedule generalizing s s' t with
  | nil => exact ⟨rfl, fun final h _ => live.mono h⟩
  | cons entry schedule ih =>
    obtain ⟨t', action⟩ := entry
    have here : LiveEq t' s s' := live.mono (later _ List.mem_cons_self)
    obtain ⟨first, orderedRest⟩ := List.pairwise_cons.mp ordered
    have rest : ∀ event ∈ Schedule.events schedule, event.Accepted :=
      fun event member => accepted event (List.mem_cons_of_mem _ member)
    have ok := accepted _ List.mem_cons_self
    cases action with
    | command request =>
      have twins := Twins.of_reference here consistent consistent'
      obtain ⟨op, denotes⟩ := accepted_denotes ok
      obtain ⟨reply, live⟩ := twins.perform op
      have next := (perform_moves op _).consistent twins.consistent
      have next' := (perform_moves op _).consistent twins.consistent'
      obtain ⟨replies_eq, final_eq⟩ := ih live next next' first orderedRest rest
      simp only [Schedule.events, List.map_cons, Action.event, replies, Event.step,
        Schedule.commands, reference, run, List.foldl_cons, execute_denotes denotes]
      refine ⟨?_, fun final _ bound => ?_⟩
      · rw [reply]
        exact congrArg _ replies_eq
      · exact final_eq final (bound _ List.mem_cons_self)
          (fun entry member => bound entry (List.mem_cons_of_mem _ member))
    | sweep batchSize =>
      have swept : Swept t' s (Event.step (.sweep (fun _ => t') batchSize) s) :=
        (Swept.tick t' s (fun _ => t')).trans
          (AtTime.sweepOnce (s := { s with clock := fun _ => t' }) rfl batchSize)
      have next := (step_moves ok s).consistent consistent
      obtain ⟨replies_eq, final_eq⟩ := ih (swept.liveEq.symm.trans here) next consistent' first
        orderedRest rest
      refine ⟨replies_eq, fun final _ bound => ?_⟩
      exact final_eq final (bound _ List.mem_cons_self)
        (fun entry member => bound entry (List.mem_cons_of_mem _ member))

/-- Lazy expiry, the sweeper and the purges of the enforcement answer every command as if all
expired keys were removed right before it; sweeps in between change no reply, and at no later
moment anything that is visible. -/
theorem expiry_refines_eager_removal (clock : ℕ → ℚ) (maxMemoryBytes : Option ℤ)
    (schedule : Schedule) (ordered : schedule.Pairwise (fun a b => a.1 ≤ b.1))
    (accepted : ∀ event ∈ schedule.events, event.Accepted) :
    let s := CommandService.init clock maxMemoryBytes
    replies s schedule.events = (reference s schedule.commands).1 ∧
    (∀ t, (∀ entry ∈ schedule, entry.1 ≤ t) →
      LiveEq t (run schedule.events s) (reference s schedule.commands).2) ∧
    ∀ other : Schedule, other.Pairwise (fun a b => a.1 ≤ b.1) →
      (∀ event ∈ other.events, event.Accepted) → other.commands = schedule.commands →
      replies s other.events = replies s schedule.events := by
  have consistent := Consistent.init clock maxMemoryBytes
  have simulates : ∀ schedule : Schedule, schedule.Pairwise (fun a b => a.1 ≤ b.1) →
      (∀ event ∈ schedule.events, event.Accepted) →
      replies (CommandService.init clock maxMemoryBytes) schedule.events =
        (reference (CommandService.init clock maxMemoryBytes) schedule.commands).1 ∧
      ∀ t, (∀ entry ∈ schedule, entry.1 ≤ t) →
        LiveEq t (run schedule.events (CommandService.init clock maxMemoryBytes))
          (reference (CommandService.init clock maxMemoryBytes) schedule.commands).2 := by
    intro schedule ordered accepted
    cases schedule with
    | nil => exact ⟨rfl, fun t _ => .refl t _⟩
    | cons entry rest =>
      have start : ∀ later ∈ entry :: rest, entry.1 ≤ later.1 := by
        intro later member
        rcases List.mem_cons.mp member with rfl | member
        · exact le_refl _
        · exact (List.pairwise_cons.mp ordered).1 later member
      obtain ⟨same, visible⟩ := reference_simulates (LiveEq.refl entry.1 _) consistent consistent
        start ordered accepted
      exact ⟨same, fun t bound => visible t (bound entry List.mem_cons_self) bound⟩
  obtain ⟨same, visible⟩ := simulates schedule ordered accepted
  refine ⟨same, visible, fun other ordered' accepted' commands => ?_⟩
  rw [(simulates other ordered' accepted').1, commands, same]

private def sweptSchedule : Schedule :=
  [(0, .command ⟨"SET", ["k", "v"]⟩), (0, .command ⟨"EXPIRE", ["k", "1"]⟩), (5, .sweep 1),
    (6, .command ⟨"DBSIZE", []⟩)]

theorem swept_count_as_reference :
    sweptSchedule.length = 4 ∧
    replies (CommandService.init (fun _ => 0) (some 8)) sweptSchedule.events =
      (reference (CommandService.init (fun _ => 0) (some 8)) sweptSchedule.commands).1 := by
  refine ⟨rfl, (expiry_refines_eager_removal (fun _ => 0) (some 8) sweptSchedule ?_ ?_).1⟩
  · decide +kernel
  · intro event member
    simp only [Schedule.events, sweptSchedule, List.map_cons, List.map_nil, List.mem_cons,
      List.not_mem_nil, or_false, Action.event] at member
    rcases member with rfl | rfl | rfl | rfl <;> first | trivial | (unfold Event.Accepted; decide +kernel)

end MiniRedis.Service
