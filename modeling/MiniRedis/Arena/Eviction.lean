/- GID: MiniRedis/Arena/Eviction
   generality: I
   digest: A write keeps its key exactly when its own entry fits the limit. -/

import MiniRedis.Base.Eviction
import MiniRedis.Arena.RedisClient

set_option autoImplicit false
set_option relaxedAutoImplicit false

namespace MiniRedis.Arena.InMemoryMiniRedisClient

open MiniRedis.Base MiniRedis.Python

variable {c c' c'' : InMemoryMiniRedisClient} {key : String}

/-! ### Steps that only remove entries -/

/-- The clock of `c'` is the one of `c` after some more readings. -/
def Later (c c' : InMemoryMiniRedisClient) : Prop := ∃ k, c'.clock = fun n => c.clock (n + k)

theorem Later.of_eq (same : c'.clock = c.clock) : Later c c' := ⟨0, same⟩

theorem Later.trans (first : Later c c') (second : Later c' c'') : Later c c'' := by
  obtain ⟨k, clock⟩ := first
  obtain ⟨k', clock'⟩ := second
  refine ⟨k' + k, ?_⟩
  rw [clock', clock]
  funext n
  show c.clock (n + k' + k) = c.clock (n + (k' + k))
  rw [Nat.add_assoc]

/-- Nothing is stored in `c'` that was not stored in `c`. -/
structure Shrinks (c c' : InMemoryMiniRedisClient) : Prop where
  sub : ∀ key entry, c'.entries.get? key = some entry → c.entries.get? key = some entry
  limit : c'.maxMemoryBytes = c.maxMemoryBytes
  later : Later c c'

theorem Shrinks.refl (c : InMemoryMiniRedisClient) : Shrinks c c :=
  ⟨fun _ _ found => found, rfl, .of_eq rfl⟩

theorem Shrinks.trans (first : Shrinks c c') (second : Shrinks c' c'') : Shrinks c c'' :=
  ⟨fun key entry found => first.sub key entry (second.sub key entry found),
    second.limit.trans first.limit, first.later.trans second.later⟩

/-- Beside `key`, nothing is stored in `c'` that was not stored in `c`. -/
structure ShrinksBeside (key : String) (c c' : InMemoryMiniRedisClient) : Prop where
  sub : ∀ other, other ≠ key → ∀ entry, c'.entries.get? other = some entry →
    c.entries.get? other = some entry
  limit : c'.maxMemoryBytes = c.maxMemoryBytes
  later : Later c c'

namespace ShrinksBeside

theorem refl (key : String) (c : InMemoryMiniRedisClient) : ShrinksBeside key c c :=
  ⟨fun _ _ _ found => found, rfl, .of_eq rfl⟩

theorem trans (first : ShrinksBeside key c c') (second : ShrinksBeside key c' c'') :
    ShrinksBeside key c c'' :=
  ⟨fun other different entry found =>
    first.sub other different entry (second.sub other different entry found),
    second.limit.trans first.limit, first.later.trans second.later⟩

end ShrinksBeside

theorem Shrinks.beside (shrinks : Shrinks c c') (key : String) : ShrinksBeside key c c' :=
  ⟨fun other _ entry found => shrinks.sub other entry found, shrinks.limit, shrinks.later⟩

@[simp] theorem delete_entries (key : String) (c : InMemoryMiniRedisClient) :
    (delete key c).2.entries = c.entries.erase key := by
  unfold delete
  split
  · rename_i absent
    exact (Dict.erase_eq_self absent).symm
  · rfl

@[simp] theorem delete_clock (key : String) (c : InMemoryMiniRedisClient) :
    (delete key c).2.clock = c.clock := by
  unfold delete
  split <;> rfl

@[simp] theorem delete_maxMemoryBytes (key : String) (c : InMemoryMiniRedisClient) :
    (delete key c).2.maxMemoryBytes = c.maxMemoryBytes := by
  unfold delete
  split <;> rfl

@[simp] theorem touch_entries (key : String) (c : InMemoryMiniRedisClient) :
    (touch key c).entries = c.entries := by
  unfold touch
  split <;> rfl

@[simp] theorem touch_clock (key : String) (c : InMemoryMiniRedisClient) :
    (touch key c).clock = c.clock := by
  unfold touch
  split <;> rfl

@[simp] theorem touch_maxMemoryBytes (key : String) (c : InMemoryMiniRedisClient) :
    (touch key c).maxMemoryBytes = c.maxMemoryBytes := by
  unfold touch
  split <;> rfl

@[simp] theorem evict_entries (key : String) (c : InMemoryMiniRedisClient) :
    (evict key c).entries = c.entries.erase key := by
  rw [← delete_entries]
  unfold evict
  split <;> rename_i deleted <;> rw [deleted]

@[simp] theorem evict_maxMemoryBytes (key : String) (c : InMemoryMiniRedisClient) :
    (evict key c).maxMemoryBytes = c.maxMemoryBytes := by
  rw [← delete_maxMemoryBytes key c]
  unfold evict
  split <;> rename_i deleted <;> rw [deleted]

@[simp] theorem evict_clock (key : String) (c : InMemoryMiniRedisClient) :
    (evict key c).clock = c.clock := by
  rw [← delete_clock key c]
  unfold evict
  split <;> rename_i deleted <;> rw [deleted]

/-! ### Expired entries -/

private theorem get?_foldl_purgeEntry (now : ℚ) (items : List (String × RedisEntry))
    (c : InMemoryMiniRedisClient) (key : String) :
    (items.foldl (purgeEntry now) c).entries.get? key =
      if ∃ item ∈ items, item.1 = key ∧ item.2.expired now = true then none
      else c.entries.get? key := by
  induction items generalizing c with
  | nil => simp
  | cons item items ih =>
    rw [List.foldl_cons, ih]
    by_cases later : ∃ item ∈ items, item.1 = key ∧ item.2.expired now = true
    · have any : ∃ item' ∈ item :: items, item'.1 = key ∧ item'.2.expired now = true := by
        obtain ⟨found, member, facts⟩ := later
        exact ⟨found, List.mem_cons_of_mem _ member, facts⟩
      rw [if_pos later, if_pos any]
    · rw [if_neg later]
      by_cases past : item.2.expired now = true
      · by_cases same : item.1 = key
        · rw [if_pos ⟨item, List.mem_cons_self, same, past⟩]
          simp [purgeEntry, past, same]
        · rw [if_neg (by simpa [same] using later)]
          simp [purgeEntry, past, Dict.get?_erase, Ne.symm same]
      · rw [if_neg (by simpa [past] using later)]
        simp [purgeEntry, past]

private theorem foldl_purgeEntry_frame (now : ℚ) (items : List (String × RedisEntry))
    (c : InMemoryMiniRedisClient) :
    (items.foldl (purgeEntry now) c).clock = c.clock ∧
      (items.foldl (purgeEntry now) c).maxMemoryBytes = c.maxMemoryBytes := by
  induction items generalizing c with
  | nil => exact ⟨rfl, rfl⟩
  | cons item items ih =>
    obtain ⟨clock, limit⟩ := ih (purgeEntry now c item)
    rw [List.foldl_cons, clock, limit, purgeEntry]
    split <;> simp

theorem get?_purgeExpired (c : InMemoryMiniRedisClient) (key : String) :
    (purgeExpired c).entries.get? key =
      (c.entries.get? key).filter (fun entry => !entry.expired (c.clock 0)) := by
  refine (get?_foldl_purgeEntry (c.clock 0) _ _ key).trans ?_
  split
  · rename_i some_expired
    obtain ⟨⟨_, entry⟩, member, rfl, past⟩ := some_expired
    have found : c.entries.get? _ = some entry := (Dict.get?_eq_some_iff _ _ _).mpr member
    rw [found, Option.filter_some_neg (by simpa using past)]
  · rename_i none_expired
    cases found : c.entries.get? key with
    | none => rfl
    | some entry =>
      have member := (Dict.get?_eq_some_iff _ _ _).mp found
      have live : entry.expired (c.clock 0) = false := by
        by_contra past
        exact none_expired ⟨(key, entry), member, rfl, by simpa using past⟩
      rw [Option.filter_some_pos (by simp [live])]

@[simp] theorem purgeExpired_maxMemoryBytes (c : InMemoryMiniRedisClient) :
    (purgeExpired c).maxMemoryBytes = c.maxMemoryBytes :=
  (foldl_purgeEntry_frame _ _ _).2

@[simp] theorem purgeExpired_clock (c : InMemoryMiniRedisClient) :
    (purgeExpired c).clock = fun n => c.clock (n + 1) :=
  (foldl_purgeEntry_frame _ _ _).1

theorem Shrinks.purgeExpired (c : InMemoryMiniRedisClient) :
    Shrinks c (purgeExpired c) := by
  refine ⟨fun key entry found => ?_, by simp, 1, by simp⟩
  rw [get?_purgeExpired] at found
  exact Option.eq_some_of_filter_eq_some found

/-! ### The eviction loops -/

theorem evictionCandidate_eq_none_iff (protectedKeys : List String) (c : InMemoryMiniRedisClient) :
    evictionCandidate protectedKeys c = none ↔
      ∀ key, c.entries.get? key ≠ none → key ∈ protectedKeys := by
  have scan : ∀ (keys : List String) (oldest : Option String),
      keys.foldl (olderOf protectedKeys c) oldest = none ↔
        oldest = none ∧ ∀ key ∈ keys, key ∈ protectedKeys := by
    intro keys
    induction keys with
    | nil => simp
    | cons key keys ih =>
      intro oldest
      rw [List.foldl_cons, ih]
      by_cases kept : key ∈ protectedKeys
      · simp [olderOf, kept]
      · cases oldest with
        | none => simp [olderOf, kept]
        | some oldestKey =>
          simp only [olderOf, kept, if_false]
          split <;> simp
  rw [evictionCandidate, scan]
  simp only [true_and, ne_eq, Dict.get?_eq_none_iff, not_not]

theorem evictionCandidate_mem {protectedKeys : List String} {c : InMemoryMiniRedisClient}
    (found : evictionCandidate protectedKeys c = some key) :
    c.entries.get? key ≠ none ∧ key ∉ protectedKeys := by
  have scan : ∀ (keys : List String) (oldest : Option String),
      keys.foldl (olderOf protectedKeys c) oldest = some key →
        oldest = some key ∨ (key ∈ keys ∧ key ∉ protectedKeys) := by
    intro keys
    induction keys with
    | nil => exact fun _ selected => Or.inl selected
    | cons first keys ih =>
      intro oldest selected
      rcases ih _ selected with now | ⟨member, unprotected⟩
      · by_cases kept : first ∈ protectedKeys
        · simp only [olderOf, kept, if_true] at now
          exact Or.inl now
        · have either : oldest = some key ∨ first = key := by
            cases oldest with
            | none => exact Or.inr (by simpa [olderOf, kept] using now)
            | some oldestKey =>
              simp only [olderOf, kept, if_false] at now
              split at now
              · exact Or.inr (Option.some.inj now)
              · exact Or.inl now
          refine either.imp id (fun same => ?_)
          subst same
          exact ⟨List.mem_cons_self, kept⟩
      · exact Or.inr ⟨List.mem_cons_of_mem _ member, unprotected⟩
  rcases scan _ _ found with started | ⟨member, unprotected⟩
  · cases started
  · exact ⟨fun absent => (Dict.get?_eq_none_iff _ _).mp absent member, unprotected⟩

theorem evictUntilFits_stops (maxMemory : ℕ) (protectedKeys : List String) {rounds : ℕ}
    {c : InMemoryMiniRedisClient} (enough : c.entries.size ≤ rounds) :
    usedMemoryBytes (evictUntilFits maxMemory protectedKeys rounds c) ≤ maxMemory ∨
      evictionCandidate protectedKeys (evictUntilFits maxMemory protectedKeys rounds c) = none := by
  induction rounds generalizing c with
  | zero =>
    right
    rw [evictUntilFits, evictionCandidate_eq_none_iff]
    intro key stored
    have empty : c.entries.entries = [] := List.length_eq_zero_iff.mp (Nat.le_zero.mp enough)
    exact (stored (by simp [Dict.get?, empty])).elim
  | succ rounds ih =>
    unfold evictUntilFits
    split
    · split
      · rename_i none_left
        exact Or.inr none_left
      · rename_i candidate found
        obtain ⟨entry, stored⟩ := Option.ne_none_iff_exists'.mp (evictionCandidate_mem found).1
        have size := Dict.size_erase stored
        exact ih (by rw [evict_entries]; omega)
    · rename_i fits
      exact Or.inl (not_lt.mp fits)

theorem get?_evictUntilFits (maxMemory : ℕ) (key : String) (rounds : ℕ)
    (c : InMemoryMiniRedisClient) :
    (evictUntilFits maxMemory [key] rounds c).entries.get? key = c.entries.get? key := by
  induction rounds generalizing c with
  | zero => rfl
  | succ rounds ih =>
    unfold evictUntilFits
    split
    · split
      · rfl
      · rename_i candidate found
        have different : key ≠ candidate := by
          simpa [eq_comm] using (evictionCandidate_mem found).2
        rw [ih (evict candidate c), evict_entries, Dict.get?_erase, if_neg different]
    · rfl

namespace Shrinks

theorem evict (key : String) (c : InMemoryMiniRedisClient) :
    Shrinks c (evict key c) := by
  refine ⟨fun other entry stored => ?_, by simp, .of_eq (by simp)⟩
  rw [evict_entries, Dict.get?_erase] at stored
  split at stored
  · cases stored
  · exact stored

theorem evictUntilFits (maxMemory : ℕ) (protectedKeys : List String) (rounds : ℕ)
    (c : InMemoryMiniRedisClient) :
    Shrinks c (evictUntilFits maxMemory protectedKeys rounds c) := by
  induction rounds generalizing c with
  | zero => exact .refl c
  | succ rounds ih =>
    unfold InMemoryMiniRedisClient.evictUntilFits
    split
    · split
      · exact .refl c
      · exact (evict _ c).trans (ih _)
    · exact .refl c

theorem evictProtected (maxMemory : ℕ) (protectedKeys : List String)
    (c : InMemoryMiniRedisClient) :
    Shrinks c (evictProtected maxMemory protectedKeys c) := by
  induction protectedKeys generalizing c with
  | nil => exact .refl c
  | cons key rest ih =>
    unfold InMemoryMiniRedisClient.evictProtected
    split
    · exact .refl c
    · exact (evict key c).trans (ih _)

theorem enforceMaxMemory (protectedKeys : List String)
    (c : InMemoryMiniRedisClient) :
    Shrinks c (enforceMaxMemory protectedKeys c) := by
  unfold InMemoryMiniRedisClient.enforceMaxMemory
  split
  · exact .refl c
  · rename_i maxMemory _
    have loop := (purgeExpired c).trans (evictUntilFits maxMemory protectedKeys
      (InMemoryMiniRedisClient.purgeExpired c).entries.size _)
    simp only
    split
    · exact loop
    · exact loop.trans (evictProtected maxMemory protectedKeys _)

end Shrinks

theorem usedMemoryBytes_of_only (only : ∀ other, c.entries.get? other ≠ none → other = key) :
    usedMemoryBytes c = (c.entries.get? key).elim 0 (entrySizeBytes key) := by
  have empty : (c.entries.erase key).sumBy entrySizeBytes = 0 := by
    have same : ∀ other, (c.entries.erase key).get? other =
        (Dict.empty : Dict String RedisEntry).get? other := by
      intro other
      rw [Dict.get?_erase, Dict.get?_empty]
      split
      · rfl
      · rename_i different
        by_contra stored
        exact different (only other stored)
    rw [Dict.sumBy_eq_of_get?_eq same]
    rfl
  cases found : c.entries.get? key with
  | none => rw [usedMemoryBytes, ← Dict.erase_eq_self found, empty]; rfl
  | some entry => rw [usedMemoryBytes, Dict.sumBy_erase found, empty]; rfl

theorem entrySizeBytes_le_usedMemoryBytes {entry : RedisEntry}
    (found : c.entries.get? key = some entry) : entrySizeBytes key entry ≤ usedMemoryBytes c := by
  rw [usedMemoryBytes, Dict.sumBy_erase found]
  omega

private theorem get?_afterLoop (maxMemory : ℕ)
    (exit : usedMemoryBytes c ≤ maxMemory ∨ evictionCandidate [key] c = none) :
    (if usedMemoryBytes c ≤ maxMemory then c else evictProtected maxMemory [key] c).entries.get? key =
      (c.entries.get? key).filter (fun entry => decide (entrySizeBytes key entry ≤ maxMemory)) := by
  split
  · rename_i fits
    cases found : c.entries.get? key with
    | none => rfl
    | some entry =>
      have size := entrySizeBytes_le_usedMemoryBytes found
      rw [Option.filter_some_pos (by simpa using size.trans fits)]
  · rename_i exceeds
    have only := (evictionCandidate_eq_none_iff _ _).mp (exit.resolve_left exceeds)
    have total := usedMemoryBytes_of_only (fun other stored => by simpa using only other stored)
    simp only [evictProtected, if_neg exceeds, evict_entries, Dict.get?_erase_self]
    cases found : c.entries.get? key with
    | none => rfl
    | some entry =>
      rw [found, Option.elim_some] at total
      rw [Option.filter_some_neg (by simpa [total] using exceeds)]

/-- The test an entry has to pass to outlive the enforcement after its own write. -/
def keptWithin (maxMemoryBytes : Option ℕ+) (key : String) (now : ℚ) (entry : RedisEntry) : Bool :=
  match maxMemoryBytes with
  | none => true
  | some maxMemory => decide (entrySizeBytes key entry ≤ maxMemory) && !entry.expired now

/-- The enforcement after a write gives the written key up only when it is past its deadline
or when it does not fit alone. -/
theorem get?_enforceMaxMemory (key : String) (c : InMemoryMiniRedisClient) :
    (enforceMaxMemory [key] c).entries.get? key =
      (c.entries.get? key).filter (keptWithin c.maxMemoryBytes key (c.clock 0)) := by
  unfold enforceMaxMemory keptWithin
  cases limited : c.maxMemoryBytes with
  | none => cases c.entries.get? key <;> rfl
  | some maxMemory =>
    have exit := evictUntilFits_stops maxMemory [key] (le_refl (purgeExpired c).entries.size)
    have kept := get?_evictUntilFits maxMemory key (purgeExpired c).entries.size (purgeExpired c)
    refine (get?_afterLoop maxMemory exit).trans ?_
    rw [kept, get?_purgeExpired, Option.filter_filter]
    simp only [Bool.and_comm]

end MiniRedis.Arena.InMemoryMiniRedisClient
