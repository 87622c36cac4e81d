/- GID: MiniRedis/Arena/Refill
   generality: I
   digest: What each client call leaves under its key, and what a refill leaves of a hash. -/

import MiniRedis.Arena.Eviction
import MiniRedis.Arena.Lanes

set_option autoImplicit false
set_option relaxedAutoImplicit false

namespace MiniRedis.Arena

open MiniRedis.Base MiniRedis.Python

namespace InMemoryMiniRedisClient

variable {c : InMemoryMiniRedisClient} {key : String}

/-! ### Writes -/

theorem get?_written (key : String) (entry : RedisEntry) (c : InMemoryMiniRedisClient) :
    (written key entry c).entries.get? key =
      (some entry).filter (keptWithin c.maxMemoryBytes key (c.clock 0)) := by
  rw [written, get?_enforceMaxMemory]
  simp [store]

theorem ShrinksBeside.written (key : String) (entry : RedisEntry) (c : InMemoryMiniRedisClient) :
    ShrinksBeside key c (written key entry c) := by
  have stored : ShrinksBeside key c (touch key (store key entry c)) := by
    refine ⟨fun other different entry' found => ?_, by simp [store], .of_eq (by simp [store])⟩
    simpa [store, Dict.get?_set, different] using found
  exact stored.trans ((Shrinks.enforceMaxMemory [key] _).beside key)

theorem ShrinksBeside.rewritten (key : String) (entry : RedisEntry) (c : InMemoryMiniRedisClient) :
    ShrinksBeside key c (InMemoryMiniRedisClient.written key entry
      (InMemoryMiniRedisClient.purgeExpired c)) :=
  ((Shrinks.purgeExpired c).beside key).trans (.written key entry _)

theorem exec_hset_of_absent (fieldName value : String)
    (absent : (purgeExpired c).entries.get? key = none) :
    (hset key fieldName value).exec c =
      (.ok (), written key ⟨.hash (Dict.empty.set fieldName value), none⟩ (purgeExpired c)) := by
  simp [hset, Effect.exec_bind, absent]

theorem exec_hset_of_string {entry : RedisEntry} {text : String} (fieldName value : String)
    (found : (purgeExpired c).entries.get? key = some entry) (typed : entry.payload = .string text) :
    (hset key fieldName value).exec c = (.error WRONG_TYPE_MESSAGE, purgeExpired c) := by
  simp [hset, Effect.exec_bind, found, typed]

theorem exec_hset_of_hash {entry : RedisEntry} {fields : Dict String String}
    (fieldName value : String) (found : (purgeExpired c).entries.get? key = some entry)
    (hashed : entry.payload = .hash fields) :
    (hset key fieldName value).exec c =
      (.ok (), written key ⟨.hash (fields.set fieldName value), entry.expiresAt⟩
        (purgeExpired c)) := by
  simp [hset, Effect.exec_bind, found, hashed]

theorem ShrinksBeside.expire (key : String) (ttlSeconds : PyFloat) (c : InMemoryMiniRedisClient) :
    ShrinksBeside key c (expire key ttlSeconds c).2 := by
  unfold InMemoryMiniRedisClient.expire
  split
  · exact .refl key c
  · refine ⟨fun other different entry' found => ?_, by simp [store, monotonic],
      1, by simp [store, monotonic]⟩
    simpa [store, monotonic, Dict.get?_set, different] using found

theorem payload_expire (key : String) (ttlSeconds : PyFloat) (c : InMemoryMiniRedisClient) :
    ((expire key ttlSeconds c).2.entries.get? key).map RedisEntry.payload =
      (c.entries.get? key).map RedisEntry.payload := by
  unfold expire
  split
  · rfl
  · rename_i entry found
    simp [store, monotonic, found]

/-! ### Reads -/

/-- A read finds the stored entry before its deadline and changes no entry, or it finds nothing
that is not past its deadline and leaves nothing under its key. -/
theorem liveEntry_cases (key : String) (c : InMemoryMiniRedisClient) :
    (∃ c', liveEntry key c = (none, c') ∧ c'.entries = c.entries.erase key ∧
      c'.maxMemoryBytes = c.maxMemoryBytes ∧ Later c c' ∧
      ∀ entry, c.entries.get? key = some entry → entry.expired (c.clock 0) = true) ∨
    (∃ c' entry, liveEntry key c = (some entry, c') ∧ c.entries.get? key = some entry ∧
      c'.entries = c.entries ∧ c'.maxMemoryBytes = c.maxMemoryBytes ∧ Later c c' ∧
      entry.expired (c.clock 0) = false) := by
  unfold liveEntry
  split
  · rename_i absent
    refine Or.inl ⟨c, rfl, (Dict.erase_eq_self absent).symm, rfl, .of_eq rfl, fun entry found => ?_⟩
    rw [absent] at found
    cases found
  · rename_i entry found
    split
    · rename_i forever
      exact Or.inr ⟨c, entry, rfl, found, rfl, rfl, .of_eq rfl, by simp [RedisEntry.expired, forever]⟩
    · rename_i deadline mortal
      cases past : deadline.leRat (c.clock 0) with
      | true =>
        refine Or.inl ⟨(delete key (monotonic c).2).2, ?_, ?_, ?_, ⟨1, ?_⟩, fun entry' found' => ?_⟩
        · simp [monotonic, past]
        · rw [delete_entries]
          rfl
        · rw [delete_maxMemoryBytes]
          rfl
        · rw [delete_clock]
          rfl
        · rw [found] at found'
          cases found'
          simp [RedisEntry.expired, mortal, past]
      | false =>
        refine Or.inr ⟨(monotonic c).2, entry, ?_, found, rfl, rfl, ⟨1, rfl⟩, ?_⟩
        · simp [monotonic, past]
        · simp [RedisEntry.expired, mortal, past]

/-- Every entry under the key is a hash. -/
def HashAt (key : String) (c : InMemoryMiniRedisClient) : Prop :=
  ∀ entry, c.entries.get? key = some entry → ∃ fields, entry.payload = .hash fields

theorem exec_readHash_of_absent {α : Type} (select : Dict String String → Option α)
    (absent : c.entries.get? key = none) : (readHash select key).exec c = (.ok none, c) := by
  simp [readHash, Effect.exec_bind, liveEntry, absent]

theorem exec_readHash {α : Type} (select : Dict String String → Option α)
    (hashed : HashAt key c) :
    (∃ c', (readHash select key).exec c = (.ok none, c') ∧ c'.entries = c.entries.erase key ∧
      c'.maxMemoryBytes = c.maxMemoryBytes) ∨
    (∃ c' entry fields, (readHash select key).exec c = (.ok (select fields), c') ∧
      c.entries.get? key = some entry ∧ entry.payload = .hash fields ∧ c'.entries = c.entries ∧
      c'.maxMemoryBytes = c.maxMemoryBytes) := by
  rcases liveEntry_cases key c with
    ⟨c', read, erased, limit, -⟩ | ⟨c', entry, read, found, same, limit, -⟩
  · exact Or.inl ⟨c', by simp [readHash, Effect.exec_bind, read], erased, limit⟩
  · obtain ⟨fields, payload⟩ := hashed entry found
    refine Or.inr ⟨touch key c', entry, fields, ?_, found, payload, by simpa using same,
      by simpa using limit⟩
    simp [readHash, Effect.exec_bind, read, payload, Except.map]

end InMemoryMiniRedisClient

namespace RedisDBLaneAdapter

open InMemoryMiniRedisClient

/-! ### The refill loop -/

def fieldBytes (field : String × String) : ℕ := byteLength field.1 + byteLength field.2

/-- What one round of the refill leaves of the fields written so far. -/
def refillStep (maxMemoryBytes : Option ℕ+) (key : String) (held : Option (Dict String String))
    (field : String × String) : Option (Dict String String) :=
  (some ((held.getD Dict.empty).set field.1 field.2)).filter
    (fun fields => keptWithin maxMemoryBytes key 0 ⟨.hash fields, none⟩)

private def filledEntry (fields : Dict String String) : RedisEntry := ⟨.hash fields, none⟩

private theorem keptWithin_filled (maxMemoryBytes : Option ℕ+) (key : String) (now : ℚ)
    (fields : Dict String String) :
    keptWithin maxMemoryBytes key now (filledEntry fields) =
      keptWithin maxMemoryBytes key 0 (filledEntry fields) := by
  cases maxMemoryBytes <;> rfl

private theorem exec_hset_filling {c : InMemoryMiniRedisClient} {key : String}
    {held : Option (Dict String String)} (field : String × String)
    (holds : c.entries.get? key = held.map filledEntry) :
    ∃ c', (hset key field.1 field.2).exec c = (.ok (), c') ∧
      c'.entries.get? key = (refillStep c.maxMemoryBytes key held field).map filledEntry ∧
      ShrinksBeside key c c' := by
  have purged : (purgeExpired c).entries.get? key = held.map filledEntry := by
    rw [get?_purgeExpired, holds]
    cases held <;> rfl
  have outcome : ∀ fields, (written key (filledEntry fields) (purgeExpired c)).entries.get? key =
      ((some fields).filter (fun fields => keptWithin c.maxMemoryBytes key 0
        (filledEntry fields))).map filledEntry := by
    intro fields
    rw [get?_written, purgeExpired_maxMemoryBytes, Option.filter_some, Option.filter_some,
      keptWithin_filled]
    split <;> rfl
  cases held with
  | none =>
    exact ⟨_, exec_hset_of_absent field.1 field.2 purged, outcome _, .rewritten key _ c⟩
  | some fields =>
    exact ⟨_, exec_hset_of_hash field.1 field.2 purged rfl, outcome _, .rewritten key _ c⟩

theorem exec_fillFields {key : String} (items : List (String × String))
    {c : InMemoryMiniRedisClient} {held : Option (Dict String String)}
    (holds : c.entries.get? key = held.map filledEntry) :
    ∃ c', (fillFields key items).exec c = (.ok (), c') ∧
      c'.entries.get? key =
        (items.foldl (refillStep c.maxMemoryBytes key) held).map filledEntry ∧
      ShrinksBeside key c c' := by
  induction items generalizing c held with
  | nil => exact ⟨c, rfl, holds, .refl key c⟩
  | cons field items ih =>
    obtain ⟨c₁, first, holds₁, shrinks₁⟩ := exec_hset_filling field holds
    obtain ⟨c₂, rest, holds₂, shrinks₂⟩ := ih holds₁
    refine ⟨c₂, ?_, ?_, shrinks₁.trans shrinks₂⟩
    · rw [fillFields]
      exact (Effect.exec_bind_of_ok first).trans rest
    · rw [holds₂, shrinks₁.limit, List.foldl_cons]

/-! ### Whole or nothing -/

/-- A refill of the hash leaves all of it or nothing: it fits as a whole, or its last field
makes an eviction, counting from the last eviction before. -/
def WholeOrNothing (maxMemoryBytes : Option ℕ+) (key : String) (fields : Dict String String) :
    Prop :=
  ∀ maxMemory ∈ maxMemoryBytes,
    byteLength key + (fields.entries.map fieldBytes).sum ≤ maxMemory ∨
      (fields.entries.map fieldBytes).foldl (packed (byteLength key) maxMemory) none = none

instance (maxMemoryBytes : Option ℕ+) (key : String) (fields : Dict String String) :
    Decidable (WholeOrNothing maxMemoryBytes key fields) :=
  inferInstanceAs (Decidable (∀ maxMemory ∈ maxMemoryBytes,
    byteLength key + (fields.entries.map fieldBytes).sum ≤ maxMemory ∨
      (fields.entries.map fieldBytes).foldl (packed (byteLength key) maxMemory) none = none))

private theorem entrySizeBytes_filled (key : String) (fields : Dict String String) :
    entrySizeBytes key (filledEntry fields) =
      byteLength key + (fields.entries.map fieldBytes).sum := rfl

private theorem sum_set_fresh {fields : Dict String String} {field : String × String}
    (fresh : field.1 ∉ fields.keys) :
    ((fields.set field.1 field.2).entries.map fieldBytes).sum =
      (fields.entries.map fieldBytes).sum + fieldBytes field := by
  rw [Dict.entries_set_of_not_mem fresh]
  simp

/-- The refill holds something exactly when the packing of the sizes does. -/
private theorem foldl_refillStep_size (maxMemory : ℕ+) (key : String)
    (items : List (String × String)) {held : Option (Dict String String)}
    (nodup : (items.map Prod.fst).Nodup)
    (fresh : ∀ fields, held = some fields → ∀ name ∈ items.map Prod.fst, name ∉ fields.keys) :
    (items.foldl (refillStep (some maxMemory) key) held).map
        (fun fields => (fields.entries.map fieldBytes).sum) =
      (items.map fieldBytes).foldl (packed (byteLength key) maxMemory)
        (held.map (fun fields => (fields.entries.map fieldBytes).sum)) := by
  induction items generalizing held with
  | nil => rfl
  | cons field items ih =>
    simp only [List.map_cons, List.nodup_cons] at nodup
    have absent : field.1 ∉ (held.getD Dict.empty).keys := by
      cases held with
      | none => simp
      | some fields => exact fresh fields rfl field.1 (by simp)
    have size := sum_set_fresh absent
    have base : ((held.getD Dict.empty).entries.map fieldBytes).sum =
        (held.map (fun fields => (fields.entries.map fieldBytes).sum)).getD 0 := by
      cases held <;> rfl
    rw [List.foldl_cons, List.map_cons, List.foldl_cons, ih nodup.2]
    · congr 1
      rw [refillStep, Option.filter_some, packed, ← base, ← size]
      simp only [keptWithin, RedisEntry.expired, Option.elim_none, Bool.not_false, Bool.and_true,
        decide_eq_true_eq]
      exact apply_ite _ _ _ _
    · intro fields step name member
      have grown := Option.eq_some_of_filter_eq_some step
      cases Option.some.inj grown
      rw [Dict.mem_keys_set]
      rintro (rfl | stored)
      · exact nodup.1 member
      · cases held with
        | none => simp at stored
        | some fields => exact fresh fields rfl name (by simp [member]) stored

private theorem foldl_refillStep_whole (maxMemoryBytes : Option ℕ+) (key : String)
    (items : List (String × String)) {fields : Dict String String}
    (nodup : (items.map Prod.fst).Nodup) (fresh : ∀ name ∈ items.map Prod.fst, name ∉ fields.keys)
    (fits : ∀ maxMemory : ℕ+, maxMemoryBytes = some maxMemory →
      byteLength key + ((fields.entries ++ items).map fieldBytes).sum ≤ maxMemory) :
    items.foldl (refillStep maxMemoryBytes key) (some fields) =
      some (items.foldl (fun d e => d.set e.1 e.2) fields) := by
  induction items generalizing fields with
  | nil => rfl
  | cons field items ih =>
    simp only [List.map_cons, List.nodup_cons] at nodup
    have absent := fresh field.1 (by simp)
    have entries := Dict.entries_set_of_not_mem absent field.2
    have step : refillStep maxMemoryBytes key (some fields) field =
        some (fields.set field.1 field.2) := by
      rw [refillStep, Option.getD_some, Option.filter_some_pos]
      cases maxMemoryBytes with
      | none => rfl
      | some maxMemory =>
        have total := fits maxMemory rfl
        have size := sum_set_fresh absent
        simp only [List.map_append, List.map_cons, List.sum_append, List.sum_cons] at total
        have within : entrySizeBytes key (filledEntry (fields.set field.1 field.2)) ≤ maxMemory := by
          rw [entrySizeBytes_filled, size]
          omega
        simpa [keptWithin, RedisEntry.expired, filledEntry] using within
    rw [List.foldl_cons, List.foldl_cons, step]
    refine ih nodup.2 (fun name member => ?_) (fun maxMemory limited => ?_)
    · rw [Dict.mem_keys_set]
      rintro (rfl | stored)
      · exact nodup.1 member
      · exact fresh name (by simp [member]) stored
    · rw [entries]
      simpa using fits maxMemory limited

theorem refilled_eq {maxMemoryBytes : Option ℕ+} {key : String} {fields : Dict String String}
    (complete : WholeOrNothing maxMemoryBytes key fields) :
    fields.entries.foldl (refillStep maxMemoryBytes key) none = none ∨
      fields.entries.foldl (refillStep maxMemoryBytes key) none = some fields := by
  by_cases fits : ∀ maxMemory : ℕ+, maxMemoryBytes = some maxMemory →
      byteLength key + (fields.entries.map fieldBytes).sum ≤ maxMemory
  · cases items : fields.entries with
    | nil => exact Or.inl rfl
    | cons field rest =>
      right
      have started : (field :: rest).foldl (refillStep maxMemoryBytes key) none =
          (field :: rest).foldl (refillStep maxMemoryBytes key) (some Dict.empty) := rfl
      have fresh : ∀ name ∈ fields.entries.map Prod.fst,
          name ∉ (Dict.empty : Dict String String).keys := by simp
      rw [started, ← items, foldl_refillStep_whole maxMemoryBytes key _ fields.nodup fresh
        (by simpa [Dict.empty] using fits)]
      congr 1
      apply Dict.ext
      rw [Dict.entries_foldl_set fields.nodup fresh]
      rfl
  · left
    push Not at fits
    obtain ⟨maxMemory, rfl, exceeds⟩ := fits
    have emptied := (complete maxMemory rfl).resolve_left (not_le.mpr exceeds)
    have sizes := foldl_refillStep_size maxMemory key fields.entries fields.nodup
      (fun _ (impossible : none = some _) => by cases impossible)
    rw [Option.map_none, emptied] at sizes
    exact Option.map_eq_none_iff.mp sizes

theorem exec_fillHash {c : InMemoryMiniRedisClient} {key : String} {fields : Dict String String}
    (ttlSeconds : Option PyFloat) (absent : c.entries.get? key = none)
    (complete : WholeOrNothing c.maxMemoryBytes key fields) :
    ∃ c', (fillHash key fields ttlSeconds).exec c = (.ok (), c') ∧
      (∀ entry, c'.entries.get? key = some entry → entry.payload = .hash fields) ∧
      ShrinksBeside key c c' := by
  have nothing : c.entries.get? key = (none : Option (Dict String String)).map filledEntry := absent
  obtain ⟨c₁, filled, holds, shrinks⟩ := exec_fillFields fields.entries nothing
  have whole : ∀ payload, (c₁.entries.get? key).map RedisEntry.payload = some payload →
      payload = .hash fields := by
    intro payload stored
    rw [holds] at stored
    rcases refilled_eq complete with nothing | everything
    · simp [nothing] at stored
    · simpa [everything, filledEntry, eq_comm] using stored
  unfold fillHash
  rw [Effect.exec_bind_of_ok filled]
  cases ttlSeconds with
  | none =>
    exact ⟨c₁, rfl, fun entry found => whole _ (by rw [found]; rfl), shrinks⟩
  | some seconds =>
    refine ⟨(expire key seconds c₁).2, rfl, fun entry found => whole _ ?_,
      shrinks.trans (.expire key seconds c₁)⟩
    rw [← payload_expire key seconds, found]
    rfl

end RedisDBLaneAdapter

end MiniRedis.Arena
