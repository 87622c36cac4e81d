/- GID: MiniRedis/Service/Live
   generality: I
   digest: What is visible of the tables at one moment, and that purges do not change it. -/

import MiniRedis.Service.Memory

set_option autoImplicit false
set_option relaxedAutoImplicit false

namespace MiniRedis.Service

open MiniRedis.Base MiniRedis.Python MiniRedis.Protocol MiniRedis.Commands

/-! ### The visible part of the tables -/

theorem expiredAt_congr {t : ℚ} {s s' : CommandService} {key : String}
    (same : s.ttl.get? key = s'.ttl.get? key) : expiredAt t s key = expiredAt t s' key := by
  rw [expiredAt, expiredAt, same]

def liveEntry (t : ℚ) (s : CommandService) (key : String) : Option ValueEntry :=
  if expiredAt t s key then none else s.store.get? key

def liveDeadline (t : ℚ) (s : CommandService) (key : String) : Option PyFloat :=
  if expiredAt t s key then none else s.ttl.get? key

@[simp] theorem liveEntry_tick (t : ℚ) (s : CommandService) (readings : ℕ → ℚ) (key : String) :
    liveEntry t { s with clock := readings } key = liveEntry t s key := rfl

/-- The state in which a purge leaves the key is the one its next reading shows. -/
theorem purgeIfExpired_store (key : String) (s : CommandService) :
    (purgeIfExpired key s).2.store.get? key = liveEntry (s.clock 0) s key := by
  obtain ⟨readings, ⟨live, h⟩ | ⟨expired, h⟩⟩ := purgeIfExpired_cases key s
  · rw [h, liveEntry, live]
    rfl
  · rw [h, liveEntry, expired]
    exact Dict.get?_erase_self _ _

/-- Two states that no command at time `t` can tell apart. -/
structure LiveEq (t : ℚ) (s s' : CommandService) : Prop where
  entry : ∀ key, liveEntry t s key = liveEntry t s' key
  deadline : ∀ key, liveDeadline t s key = liveDeadline t s' key
  stamp : ∀ key, liveEntry t s key ≠ none → s.accessOrder.get? key = s'.accessOrder.get? key
  accessClock : s.accessClock = s'.accessClock
  maxMemoryBytes : s.maxMemoryBytes = s'.maxMemoryBytes
  evictedKeys : s.evictedKeys = s'.evictedKeys

namespace LiveEq

variable {t : ℚ} {s s' s'' : CommandService}

theorem refl (t : ℚ) (s : CommandService) : LiveEq t s s :=
  ⟨fun _ => rfl, fun _ => rfl, fun _ _ => rfl, rfl, rfl, rfl⟩

theorem symm (h : LiveEq t s s') : LiveEq t s' s :=
  ⟨fun key => (h.entry key).symm, fun key => (h.deadline key).symm,
    fun key live => (h.stamp key (by rwa [h.entry key])).symm, h.accessClock.symm,
    h.maxMemoryBytes.symm, h.evictedKeys.symm⟩

theorem trans (h : LiveEq t s s') (h' : LiveEq t s' s'') : LiveEq t s s'' :=
  ⟨fun key => (h.entry key).trans (h'.entry key),
    fun key => (h.deadline key).trans (h'.deadline key),
    fun key live => (h.stamp key live).trans (h'.stamp key (by rwa [← h.entry key])),
    h.accessClock.trans h'.accessClock, h.maxMemoryBytes.trans h'.maxMemoryBytes,
    h.evictedKeys.trans h'.evictedKeys⟩

end LiveEq

/-! ### Removing what has expired -/

/-- `r` is `s` after some of the keys that are expired at `t` were removed from both
repositories, and keys without a value from the recency table. -/
structure Swept (t : ℚ) (s r : CommandService) : Prop where
  tables : ∀ key,
    r.store.get? key = s.store.get? key ∧ r.ttl.get? key = s.ttl.get? key ∨
    expiredAt t s key = true ∧ r.store.get? key = none ∧ r.ttl.get? key = none
  stamp : ∀ key, r.store.get? key ≠ none → r.accessOrder.get? key = s.accessOrder.get? key
  accessClock : r.accessClock = s.accessClock
  maxMemoryBytes : r.maxMemoryBytes = s.maxMemoryBytes
  evictedKeys : r.evictedKeys = s.evictedKeys

namespace Swept

variable {t : ℚ} {s r q : CommandService}

theorem refl (t : ℚ) (s : CommandService) : Swept t s s :=
  ⟨fun _ => Or.inl ⟨rfl, rfl⟩, fun _ _ => rfl, rfl, rfl, rfl⟩

theorem tick (t : ℚ) (s : CommandService) (readings : ℕ → ℚ) :
    Swept t s { s with clock := readings } :=
  ⟨fun _ => Or.inl ⟨rfl, rfl⟩, fun _ _ => rfl, rfl, rfl, rfl⟩

theorem trans (h : Swept t s r) (h' : Swept t r q) : Swept t s q := by
  refine ⟨fun key => ?_, fun key stored => ?_, h'.accessClock.trans h.accessClock,
    h'.maxMemoryBytes.trans h.maxMemoryBytes, h'.evictedKeys.trans h.evictedKeys⟩
  · rcases h.tables key with ⟨hs, ht⟩ | ⟨expired, hs, ht⟩
    · rcases h'.tables key with ⟨hs', ht'⟩ | ⟨expired', hs', ht'⟩
      · exact Or.inl ⟨hs'.trans hs, ht'.trans ht⟩
      · rw [expiredAt_congr ht] at expired'
        exact Or.inr ⟨expired', hs', ht'⟩
    · rcases h'.tables key with ⟨hs', ht'⟩ | ⟨_, hs', ht'⟩
      · exact Or.inr ⟨expired, hs'.trans hs, ht'.trans ht⟩
      · exact Or.inr ⟨expired, hs', ht'⟩
  · have stored' : r.store.get? key ≠ none := by
      rcases h'.tables key with ⟨hs', _⟩ | ⟨_, hs', _⟩
      · rwa [← hs']
      · exact (stored hs').elim
    exact (h'.stamp key stored).trans (h.stamp key stored')

theorem deleteKey {key : String} (expired : expiredAt t s key = true) :
    Swept t s (deleteKey key s) := by
  refine ⟨fun key' => ?_, fun _ _ => rfl, rfl, rfl, rfl⟩
  by_cases h : key' = key
  · subst h
    exact Or.inr ⟨expired, Dict.get?_erase_self _ _, Dict.get?_erase_self _ _⟩
  · exact Or.inl ⟨by simp [Service.deleteKey, Dict.get?_erase, h],
      by simp [Service.deleteKey, Dict.get?_erase, h]⟩

theorem forgetKey {key : String} (absent : s.store.get? key = none) :
    Swept t s (forgetKey key s) := by
  refine ⟨fun _ => Or.inl ⟨rfl, rfl⟩, fun key' stored => ?_, rfl, rfl, rfl⟩
  have hne : key' ≠ key := by
    rintro rfl
    exact stored absent
  simp [Service.forgetKey, Dict.get?_erase, hne]

theorem liveEq (h : Swept t s r) : LiveEq t s r := by
  have entry : ∀ key, liveEntry t s key = liveEntry t r key := by
    intro key
    rcases h.tables key with ⟨hs, ht⟩ | ⟨expired, hs, ht⟩
    · rw [liveEntry, liveEntry, expiredAt_congr ht, hs]
    · simp [liveEntry, expired, hs]
  refine ⟨entry, fun key => ?_, fun key live => ?_, h.accessClock.symm, h.maxMemoryBytes.symm,
    h.evictedKeys.symm⟩
  · rcases h.tables key with ⟨_, ht⟩ | ⟨expired, _, ht⟩
    · rw [liveDeadline, liveDeadline, expiredAt_congr ht, ht]
    · simp [liveDeadline, expired, ht]
  · rw [entry key, liveEntry] at live
    split at live
    · exact (live rfl).elim
    · exact (h.stamp key live).symm

end Swept

/-! ### Purges at one moment -/

section Moment

variable {t : ℚ} {s : CommandService}

/-- The clock stands still at `t`. -/
def AtTime (t : ℚ) (s : CommandService) : Prop := s.clock = fun _ => t

theorem AtTime.now (moment : AtTime t s) : now s = (t, s) := by
  obtain ⟨clock, _, _, _, _, _, _⟩ := s
  obtain rfl : clock = fun _ => t := moment
  rfl

theorem AtTime.purgeIfExpired (moment : AtTime t s) (key : String) :
    purgeIfExpired key s =
      if expiredAt t s key then (true, deleteKey key s) else (false, s) := by
  unfold Service.purgeIfExpired isExpired expiredAt
  cases hd : s.ttl.get? key with
  | none => rfl
  | some expiresAt =>
    rw [moment.now]
    cases he : expiresAt.leRat t <;> simp [he]

theorem AtTime.deleteKey (moment : AtTime t s) (key : String) : AtTime t (deleteKey key s) := moment

theorem AtTime.purged (moment : AtTime t s) (key : String) :
    AtTime t (Service.purgeIfExpired key s).2 := by
  rw [moment.purgeIfExpired]
  split
  · exact moment.deleteKey key
  · exact moment

theorem AtTime.swept (moment : AtTime t s) (key : String) :
    Swept t s (Service.purgeIfExpired key s).2 := by
  rw [moment.purgeIfExpired]
  split
  · rename_i expired
    exact .deleteKey expired
  · exact .refl t s

theorem AtTime.settled (moment : AtTime t s) (key : String) :
    expiredAt t (Service.purgeIfExpired key s).2 key = false := by
  rw [moment.purgeIfExpired]
  split
  · simp [expiredAt, Service.deleteKey]
  · rename_i live
    simpa using live

/-- Nothing that is expired is left. -/
def Settled (t : ℚ) (s : CommandService) : Prop := ∀ key, expiredAt t s key = false

theorem Settled.liveEntry (settled : Settled t s) (key : String) :
    liveEntry t s key = s.store.get? key := by
  simp [Service.liveEntry, settled key]

theorem Settled.liveDeadline (settled : Settled t s) (key : String) :
    liveDeadline t s key = s.ttl.get? key := by
  simp [Service.liveDeadline, settled key]

theorem Settled.of_shrunk {s' : CommandService} (settled : Settled t s) (shrunk : Shrunk s s') :
    Settled t s' := by
  intro key
  unfold expiredAt
  cases hd : s'.ttl.get? key with
  | none => rfl
  | some expiresAt =>
    have before := settled key
    rw [expiredAt, shrunk.ttl key expiresAt hd] at before
    exact before

private theorem purgeOrForget_moment (moment : AtTime t s) (key : String) :
    AtTime t (purgeOrForget s key) ∧ Swept t s (purgeOrForget s key) ∧
      expiredAt t (purgeOrForget s key) key = false := by
  unfold purgeOrForget
  dsimp only
  split
  · rename_i absent
    exact ⟨moment.purged key, (moment.swept key).trans (.forgetKey absent), moment.settled key⟩
  · exact ⟨moment.purged key, moment.swept key, moment.settled key⟩

private theorem purge_loop_moment (keys : List String) {s : CommandService} (moment : AtTime t s) :
    AtTime t (keys.foldl purgeOrForget s) ∧ Swept t s (keys.foldl purgeOrForget s) ∧
      ∀ key, key ∈ keys ∨ expiredAt t s key = false →
        expiredAt t (keys.foldl purgeOrForget s) key = false := by
  induction keys generalizing s with
  | nil => exact ⟨moment, .refl t s, fun key h => h.resolve_left List.not_mem_nil⟩
  | cons first keys ih =>
    obtain ⟨moment', swept', settled'⟩ := purgeOrForget_moment moment first
    obtain ⟨moment'', swept'', settled''⟩ := ih moment'
    refine ⟨moment'', swept'.trans swept'', fun key h => settled'' key ?_⟩
    by_cases same : key = first
    · exact Or.inr (same ▸ settled')
    · rcases h with member | live
      · exact Or.inl ((List.mem_cons.mp member).resolve_left same)
      · right
        rcases swept'.tables key with ⟨_, ht⟩ | ⟨expired, _⟩
        · rwa [expiredAt_congr ht]
        · rw [live] at expired
          cases expired

private theorem mem_ttl_of_expired {key : String} (expired : expiredAt t s key = true) :
    key ∈ s.ttl.keys := by
  by_contra absent
  rw [← Dict.get?_eq_none_iff] at absent
  simp [expiredAt, absent] at expired

theorem AtTime.purgeAll (moment : AtTime t s) :
    AtTime t (purgeAllExpiredKeys s) ∧ Swept t s (purgeAllExpiredKeys s) ∧
      Settled t (purgeAllExpiredKeys s) := by
  obtain ⟨moment', swept, settled⟩ := purge_loop_moment s.ttl.keys moment
  refine ⟨moment', swept, fun key => settled key ?_⟩
  cases expired : expiredAt t s key with
  | false => exact Or.inr rfl
  | true => exact Or.inl (mem_ttl_of_expired expired)

theorem AtTime.sweepOnce (moment : AtTime t s) (batchSize : ℤ) :
    Swept t s (sweepOnce batchSize s).2 := by
  have round : ∀ (acc : ℕ × CommandService) key, Swept t acc.2 (sweepKey t acc key).2 := by
    intro acc key
    unfold sweepKey
    split
    · exact .refl t _
    · rename_i expiresAt found
      split
      · rename_i expired
        exact .deleteKey (by simp [expiredAt, found, expired])
      · exact .refl t _
  have loop : ∀ (keys : List String) (acc : ℕ × CommandService),
      Swept t acc.2 (keys.foldl (sweepKey t) acc).2 := by
    intro keys
    induction keys with
    | nil => exact fun acc => .refl t _
    | cons key keys ih => exact fun acc => (round acc key).trans (ih _)
  simp only [Service.sweepOnce, moment.now]
  exact loop _ (0, s)

end Moment

end MiniRedis.Service
