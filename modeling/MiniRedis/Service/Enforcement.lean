/- GID: MiniRedis/Service/Enforcement
   generality: I
   digest: Enforcement removes the shortest sufficient prefix of the live keys by their stamps. -/

import Mathlib.Data.List.Sort
import MiniRedis.Service.Expiry

set_option autoImplicit false
set_option relaxedAutoImplicit false

namespace MiniRedis.Service

open MiniRedis.Base MiniRedis.Python MiniRedis.Protocol MiniRedis.Commands

variable {t : ℚ} {s s' : CommandService}

/-! ### The eviction loop as a queue -/

/-- The unprotected keys of `s` in the order in which the loop takes them, with their sizes. -/
structure Queue (protectedKeys : List String) (size : String → ℕ) (own : ℕ)
    (order : List String) (s : CommandService) : Prop where
  mem_iff : ∀ key, key ∈ order ↔ s.store.get? key ≠ none ∧ key ∉ protectedKeys
  sorted : order.Pairwise (fun a b => lastAccess s a < lastAccess s b)
  memory : currentMemoryBytes s = own + (order.map size).sum
  size_eq : ∀ key ∈ order, ∀ entry, s.store.get? key = some entry →
    estimateEntryBytes key entry = size key

namespace Queue

variable {protectedKeys : List String} {size : String → ℕ} {own : ℕ} {order : List String}

theorem candidate_nil (queue : Queue protectedKeys size own [] s) :
    evictionCandidate protectedKeys s = none := by
  rw [evictionCandidate_eq_none_iff]
  intro key stored
  by_contra unprotected
  exact List.not_mem_nil ((queue.mem_iff key).mpr ⟨stored, unprotected⟩)

private theorem mem_filter_iff (key : String) :
    key ∈ s.store.keys.filter (· ∉ protectedKeys) ↔
      s.store.get? key ≠ none ∧ key ∉ protectedKeys := by
  rw [List.mem_filter, Ne, Dict.get?_eq_none_iff, not_not, decide_eq_true_eq]

theorem candidate_cons {key : String} (queue : Queue protectedKeys size own (key :: order) s) :
    evictionCandidate protectedKeys s = some key := by
  rw [evictionCandidate_eq_argmin]
  refine argmin_eq_some ?_ (fun other member hne => ?_)
  · exact (mem_filter_iff key).mpr ((queue.mem_iff key).mp List.mem_cons_self)
  · have later := (queue.mem_iff other).mpr ((mem_filter_iff other).mp member)
    exact (List.pairwise_cons.mp queue.sorted).1 other ((List.mem_cons.mp later).resolve_left hne)

theorem nodup (queue : Queue protectedKeys size own order s) : order.Nodup :=
  queue.sorted.imp (fun {_ _} h same => by simp [same] at h)

theorem evictKey {key : String} (queue : Queue protectedKeys size own (key :: order) s) :
    Queue protectedKeys size own order (evictKey key s) := by
  have fresh := (List.nodup_cons.mp queue.nodup).1
  have other : ∀ key' ∈ order, key' ≠ key := fun key' member h => fresh (h ▸ member)
  obtain ⟨entry, found⟩ := Option.ne_none_iff_exists'.mp
    ((queue.mem_iff key).mp List.mem_cons_self).1
  refine ⟨fun key' => ?_, ?_, ?_, fun key' member entry' found' => ?_⟩
  · have before := queue.mem_iff key'
    by_cases h : key' = key
    · subst h
      simp [Service.evictKey, Service.deleteEntryAndTtl, forgetKey, fresh]
    · simpa [Service.evictKey, Service.deleteEntryAndTtl, forgetKey, Dict.get?_erase, h] using before
  · refine (List.pairwise_cons.mp queue.sorted).2.imp_of_mem (fun {a b} ha hb h => ?_)
    simpa [lastAccess, Service.evictKey, Service.deleteEntryAndTtl, forgetKey, Dict.get?_erase,
      other a ha, other b hb] using h
  · have total := queue.memory
    have bytes := queue.size_eq key List.mem_cons_self entry found
    rw [currentMemoryBytes, Dict.sumBy_erase found, bytes, List.map_cons, List.sum_cons] at total
    change (s.store.erase key).sumBy estimateEntryBytes = _
    omega
  · refine queue.size_eq key' (List.mem_cons_of_mem _ member) entry' ?_
    simpa [Service.evictKey, Service.deleteEntryAndTtl, forgetKey, Dict.get?_erase,
      other key' member] using found'

end Queue

/-- Evict a list of keys, one after the other. -/
def evictKeys (keys : List String) (s : CommandService) : CommandService :=
  keys.foldl (fun s key => evictKey key s) s

theorem Queue.evictUntilFits {protectedKeys : List String} {size : String → ℕ} {own : ℕ}
    {order : List String} (queue : Queue protectedKeys size own order s) (maxMemory : ℕ)
    {rounds : ℕ} (enough : order.length ≤ rounds) :
    evictUntilFits maxMemory protectedKeys rounds s =
      evictKeys (order.take (shortestCut own maxMemory (order.map size))) s := by
  induction order generalizing s rounds with
  | nil =>
    cases rounds with
    | zero => rfl
    | succ rounds =>
      unfold Service.evictUntilFits
      rw [queue.candidate_nil]
      split <;> rfl
  | cons key order ih =>
    obtain ⟨rounds, rfl⟩ : ∃ n, rounds = n + 1 :=
      ⟨rounds - 1, by simp only [List.length_cons] at enough; omega⟩
    unfold Service.evictUntilFits
    rw [queue.memory, queue.candidate_cons, List.map_cons, shortestCut]
    split
    · rename_i exceeds
      rw [if_neg (not_le.mpr exceeds), List.take_succ_cons]
      exact ih queue.evictKey (Nat.le_of_succ_le_succ enough)
    · rename_i fits
      rw [if_pos (not_lt.mp fits)]
      rfl

theorem Queue.evictKeys {protectedKeys : List String} {size : String → ℕ} {own : ℕ}
    {order : List String} (queue : Queue protectedKeys size own order s) (n : ℕ) :
    Queue protectedKeys size own (order.drop n) (evictKeys (order.take n) s) := by
  induction n generalizing s order with
  | zero => exact queue
  | succ n ih =>
    cases order with
    | nil => exact queue
    | cons key order => exact ih queue.evictKey

theorem evictKeys_tables (keys : List String) (s : CommandService) (key : String) :
    (evictKeys keys s).store.get? key = (if key ∈ keys then none else s.store.get? key) ∧
      (evictKeys keys s).ttl.get? key = (if key ∈ keys then none else s.ttl.get? key) := by
  induction keys generalizing s with
  | nil => simp [evictKeys]
  | cons first keys ih =>
    have rest := ih (evictKey first s)
    simp only [evictKey, deleteEntryAndTtl, forgetKey, Dict.get?_erase] at rest
    simp only [evictKeys, List.foldl_cons, List.mem_cons] at rest ⊢
    rw [evictKey, deleteEntryAndTtl, forgetKey]
    by_cases h : key = first
    · simpa [h] using rest
    · simpa [h] using rest

theorem evictKeys_evictedKeys (keys : List String) (s : CommandService) :
    (evictKeys keys s).evictedKeys = s.evictedKeys + keys.length := by
  induction keys generalizing s with
  | nil => rfl
  | cons first keys ih =>
    have rest := ih (evictKey first s)
    simp only [evictKeys, List.foldl_cons, List.length_cons] at rest ⊢
    rw [rest]
    simp only [evictKey]
    omega

/-! ### Enforcement at one moment -/

def liveBytes (t : ℚ) (s : CommandService) (key : String) : ℕ :=
  (liveEntry t s key).elim 0 (estimateEntryBytes key)

theorem Consistent.liveDeadline_eq_none (consistent : Consistent s) {key : String}
    (absent : liveEntry t s key = none) : liveDeadline t s key = none := by
  unfold liveEntry at absent
  unfold liveDeadline
  split at absent
  · rename_i expired
    rw [if_pos expired]
  · rename_i live
    rw [if_neg live, consistent.noOrphan key absent]

/-- The live keys that are not protected, least stamp first. -/
structure StampOrder (t : ℚ) (protectedKeys : List String) (s : CommandService)
    (order : List String) : Prop where
  mem_iff : ∀ key, key ∈ order ↔ liveEntry t s key ≠ none ∧ key ∉ protectedKeys
  sorted : order.Pairwise (fun a b => lastAccess s a < lastAccess s b)

theorem StampOrder.nodup {protectedKeys order : List String}
    (listed : StampOrder t protectedKeys s order) : order.Nodup :=
  listed.sorted.imp (fun {_ _} h same => by simp [same] at h)

private theorem purgeAll_tables (moment : AtTime t s) (key : String) :
    (purgeAllExpiredKeys s).store.get? key = liveEntry t s key ∧
      (purgeAllExpiredKeys s).ttl.get? key = liveDeadline t s key := by
  obtain ⟨_, swept, settled⟩ := moment.purgeAll
  rw [← settled.liveEntry, ← settled.liveDeadline, swept.liveEq.entry, swept.liveEq.deadline]
  exact ⟨rfl, rfl⟩

theorem StampOrder.memory_all {order : List String} (listed : StampOrder t [] s order)
    (moment : AtTime t s) :
    currentMemoryBytes (purgeAllExpiredKeys s) = 0 + (order.map (liveBytes t s)).sum := by
  rw [currentMemoryBytes, Dict.sumBy_eq_sum_keys listed.nodup (fun key => ?_), zero_add]
  · simp only [(purgeAll_tables moment _).1]
    rfl
  · rw [listed.mem_iff, (purgeAll_tables moment key).1]
    simp

theorem StampOrder.memory_beside {order : List String} {key : String} {entry : ValueEntry}
    (listed : StampOrder t [key] s order) (moment : AtTime t s)
    (live : liveEntry t s key = some entry) :
    currentMemoryBytes (purgeAllExpiredKeys s) =
      estimateEntryBytes key entry + (order.map (liveBytes t s)).sum := by
  have stored : (purgeAllExpiredKeys s).store.get? key = some entry := by
    rw [(purgeAll_tables moment key).1, live]
  rw [currentMemoryBytes, Dict.sumBy_erase stored,
    Dict.sumBy_eq_sum_keys listed.nodup (fun key' => ?_)]
  · congr 2
    apply List.map_congr_left
    intro key' member
    have hne : key' ≠ key := by simpa using ((listed.mem_iff key').mp member).2
    rw [Dict.get?_erase, if_neg hne, (purgeAll_tables moment key').1, liveBytes]
  · rw [listed.mem_iff, Dict.get?_erase, (purgeAll_tables moment key').1]
    by_cases h : key' = key <;> simp [h]

private theorem StampOrder.queue {protectedKeys order : List String} {own : ℕ}
    (listed : StampOrder t protectedKeys s order) (moment : AtTime t s)
    (memory : currentMemoryBytes (purgeAllExpiredKeys s) =
      own + (order.map (liveBytes t s)).sum) :
    Queue protectedKeys (liveBytes t s) own order (purgeAllExpiredKeys s) := by
  have store := fun key => (purgeAll_tables moment key).1
  refine ⟨fun key => ?_, ?_, memory, fun key _ entry found => ?_⟩
  · rw [listed.mem_iff, store]
  · refine listed.sorted.imp_of_mem (fun {a b} ha hb h => ?_)
    have stamp := moment.purgeAll.2.1.liveEq.stamp
    rw [lastAccess, lastAccess, ← stamp a ((listed.mem_iff a).mp ha).1,
      ← stamp b ((listed.mem_iff b).mp hb).1]
    exact h
  · rw [store] at found
    simp [liveBytes, found]

private theorem StampOrder.loop {protectedKeys order : List String} {own : ℕ}
    (listed : StampOrder t protectedKeys s order) (moment : AtTime t s) (maxMemory : ℕ)
    (memory : currentMemoryBytes (purgeAllExpiredKeys s) =
      own + (order.map (liveBytes t s)).sum) :
    let cut := shortestCut own maxMemory (order.map (liveBytes t s))
    let stopped := evictKeys (order.take cut) (purgeAllExpiredKeys s)
    evictUntilFits maxMemory protectedKeys (purgeAllExpiredKeys s).store.size
        (purgeAllExpiredKeys s) = stopped ∧
      currentMemoryBytes stopped = own + ((order.map (liveBytes t s)).drop cut).sum ∧
      stopped.evictedKeys = s.evictedKeys + cut := by
  have queue := listed.queue moment memory
  have enough : order.length ≤ (purgeAllExpiredKeys s).store.size := by
    have sub : order ⊆ (purgeAllExpiredKeys s).store.keys := by
      intro key member
      have stored := ((queue.mem_iff key).mp member).1
      rwa [Ne, Dict.get?_eq_none_iff, not_not] at stored
    simpa [Dict.keys, Dict.size] using (List.subperm_of_subset queue.nodup sub).length_le
  have cut_le : shortestCut own maxMemory (order.map (liveBytes t s)) ≤ order.length := by
    simpa using shortestCut_le_length own maxMemory (order.map (liveBytes t s))
  refine ⟨queue.evictUntilFits maxMemory enough, ?_, ?_⟩
  · rw [(queue.evictKeys _).memory, List.map_drop]
  · rw [evictKeys_evictedKeys, List.length_take, min_eq_left cut_le,
      moment.purgeAll.2.1.evictedKeys]

/-- Where the protected part fits, enforcement removes the expired keys and the shortest prefix
of the order that suffices, and nothing else. -/
theorem StampOrder.ensureMaxMemory_fits {protectedKeys order : List String} {own : ℕ}
    {maxMemory : ℕ+} (listed : StampOrder t protectedKeys s order) (moment : AtTime t s)
    (limited : s.maxMemoryBytes = some maxMemory)
    (memory : currentMemoryBytes (purgeAllExpiredKeys s) = own + (order.map (liveBytes t s)).sum)
    (fits : own ≤ maxMemory) :
    let removed := order.take (shortestCut own maxMemory (order.map (liveBytes t s)))
    (∀ key,
      (ensureMaxMemory protectedKeys s).store.get? key =
        (if key ∈ removed then none else liveEntry t s key) ∧
      (ensureMaxMemory protectedKeys s).ttl.get? key =
        (if key ∈ removed then none else liveDeadline t s key)) ∧
    (ensureMaxMemory protectedKeys s).evictedKeys = s.evictedKeys + removed.length := by
  obtain ⟨loop, bytes, counted⟩ := listed.loop moment maxMemory memory
  have within := shortestCut_fits fits (order.map (liveBytes t s))
  simp only [Service.ensureMaxMemory, limited, loop, bytes, if_pos within]
  refine ⟨fun key => ?_, ?_⟩
  · obtain ⟨store, ttl⟩ := evictKeys_tables
      (order.take (shortestCut own maxMemory (order.map (liveBytes t s)))) (purgeAllExpiredKeys s) key
    rw [store, ttl, (purgeAll_tables moment key).1, (purgeAll_tables moment key).2]
    exact ⟨rfl, rfl⟩
  · rw [evictKeys_evictedKeys, moment.purgeAll.2.1.evictedKeys]

theorem StampOrder.ensureMaxMemory_exceeds {key : String} {order : List String}
    {entry : ValueEntry} {maxMemory : ℕ+} (listed : StampOrder t [key] s order)
    (moment : AtTime t s) (consistent : Consistent s) (limited : s.maxMemoryBytes = some maxMemory)
    (live : liveEntry t s key = some entry) (exceeds : maxMemory < estimateEntryBytes key entry) :
    (∀ key', (ensureMaxMemory [key] s).store.get? key' = none ∧
      (ensureMaxMemory [key] s).ttl.get? key' = none) ∧
    (ensureMaxMemory [key] s).evictedKeys = s.evictedKeys + order.length + 1 := by
  have memory := listed.memory_beside moment live
  obtain ⟨loop, bytes, counted⟩ := listed.loop moment maxMemory memory
  have all := shortestCut_eq_length exceeds (order.map (liveBytes t s))
  rw [List.length_map] at all
  rw [all, List.take_length] at loop bytes counted
  have remaining : ¬ currentMemoryBytes (evictKeys order (purgeAllExpiredKeys s)) ≤ maxMemory := by
    rw [bytes]
    omega
  have unlisted : key ∉ order := fun member => by simpa using ((listed.mem_iff key).mp member).2
  have stored : (evictKeys order (purgeAllExpiredKeys s)).store.get? key ≠ none := by
    rw [(evictKeys_tables order _ key).1, if_neg unlisted, (purgeAll_tables moment key).1, live]
    exact fun h => by cases h
  simp only [Service.ensureMaxMemory, limited, loop, if_neg remaining, evictProtected, if_neg stored]
  refine ⟨fun key' => ?_, ?_⟩
  · obtain ⟨store, ttl⟩ := evictKeys_tables order (purgeAllExpiredKeys s) key'
    simp only [evictKey, deleteEntryAndTtl, forgetKey, Dict.get?_erase, store, ttl,
      (purgeAll_tables moment key').1, (purgeAll_tables moment key').2]
    by_cases h : key' = key
    · simp [h]
    · by_cases member : key' ∈ order
      · simp [member]
      · have absent : liveEntry t s key' = none := by
          by_contra visible
          exact member ((listed.mem_iff key').mpr ⟨visible, by simpa using h⟩)
        simp [h, member, absent, consistent.liveDeadline_eq_none absent]
  · simp only [evictKey, counted]

end MiniRedis.Service
