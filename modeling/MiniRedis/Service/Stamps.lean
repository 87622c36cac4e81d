/- GID: MiniRedis/Service/Stamps
   generality: I
   digest: A stamp outlives its key exactly where a purge cannot reach the recency table. -/

import MiniRedis.Base.Trace
import MiniRedis.Service.Invariant

set_option autoImplicit false
set_option relaxedAutoImplicit false

namespace MiniRedis.Service

open MiniRedis.Base MiniRedis.Python MiniRedis.Protocol MiniRedis.Commands

/-- Only stored keys have a stamp, so there are no more stamps than keys. -/
def StampsWithinStore (s : CommandService) : Prop :=
  (∀ key ∈ s.accessOrder.keys, key ∈ s.store.keys) ∧ s.accessOrder.size ≤ s.store.size

instance : DecidablePred StampsWithinStore := fun s =>
  inferInstanceAs (Decidable ((∀ key ∈ s.accessOrder.keys, key ∈ s.store.keys) ∧ _))

/-- The event finds an expired key through the repositories alone. `TTL` and `EXPIRE` leave the
purge to the expiration manager, and the sweeper does not know the recency table. -/
def Event.StrandsStamp : Event → CommandService → Prop
  | .command readings request, s =>
    request.name ∈ ["TTL", "EXPIRE"] ∧
      ∃ key ∈ request.arguments.head?, expiredAt (readings 0) s key = true
  | .sweep readings batchSize, s =>
    ∃ key ∈ sliceUpTo s.ttl.keys batchSize, expiredAt (readings 0) s key = true

instance Event.StrandsStamp.decidable : ∀ (event : Event) (s : CommandService),
    Decidable (event.StrandsStamp s)
  | .command readings request, s =>
    inferInstanceAs (Decidable (request.name ∈ ["TTL", "EXPIRE"] ∧
      ∃ key ∈ request.arguments.head?, expiredAt (readings 0) s key = true))
  | .sweep readings batchSize, s =>
    inferInstanceAs (Decidable (∃ key ∈ sliceUpTo s.ttl.keys batchSize,
      expiredAt (readings 0) s key = true))

/-! ### Stamps of absent keys -/

variable {s : CommandService} {key : String}

private def NoStray (s : CommandService) : Prop :=
  ∀ key, s.store.get? key = none → s.accessOrder.get? key = none

private def NoStrayBut (key : String) (s : CommandService) : Prop :=
  ∀ other, other ≠ key → s.store.get? other = none → s.accessOrder.get? other = none

private theorem stampsWithinStore_iff : StampsWithinStore s ↔ NoStray s := by
  constructor
  · rintro ⟨within, -⟩ key absent
    rw [Dict.get?_eq_none_iff] at absent ⊢
    exact fun member => absent (within key member)
  · intro clean
    have within : ∀ key ∈ s.accessOrder.keys, key ∈ s.store.keys := by
      intro key member
      by_contra absent
      rw [← Dict.get?_eq_none_iff] at absent
      exact (Dict.get?_eq_none_iff _ _).mp (clean key absent) member
    exact ⟨within, Dict.size_le_of_keys_subset within⟩

private theorem NoStray.but (clean : NoStray s) (key : String) : NoStrayBut key s :=
  fun other _ absent => clean other absent

private theorem NoStrayBut.of_stored (clean : NoStrayBut key s) (stored : s.store.get? key ≠ none) :
    NoStray s := by
  intro other absent
  apply clean other _ absent
  rintro rfl
  exact stored absent

private theorem NoStrayBut.forgetKey (clean : NoStrayBut key s) : NoStray (forgetKey key s) := by
  intro other absent
  simp only [Service.forgetKey, Dict.get?_erase]
  split
  · rfl
  · exact clean other ‹_› absent

private theorem NoStrayBut.touchKey (clean : NoStrayBut key s) : NoStray (touchKey key s) := by
  by_cases absent : s.store.get? key = none
  · rw [Service.touchKey, if_pos absent]
    exact clean.forgetKey
  · rw [Service.touchKey, if_neg absent]
    intro other gone
    have different : other ≠ key := by
      rintro rfl
      exact absent gone
    simpa [Dict.get?_set, different] using clean other different gone

private theorem NoStrayBut.set (clean : NoStrayBut key s) (entry : ValueEntry) :
    NoStrayBut key { s with store := s.store.set key entry } := by
  intro other different absent
  simp only [Dict.get?_set, if_neg different] at absent
  exact clean other different absent

private theorem NoStrayBut.storeEntry (clean : NoStrayBut key s) (entry : ValueEntry) :
    NoStray (storeEntry key entry s) :=
  (clean.set entry).touchKey

private theorem NoStrayBut.deleteKey (clean : NoStrayBut key s) : NoStrayBut key (deleteKey key s) := by
  intro other different absent
  simp only [Service.deleteKey, Dict.get?_erase, if_neg different] at absent
  exact clean other different absent

private theorem NoStray.deleteEntryAndTtl (clean : NoStray s) (key : String) :
    NoStray (deleteEntryAndTtl key s) :=
  ((clean.but key).deleteKey).forgetKey

private theorem NoStray.purgeIfExpired (clean : NoStray s) (key : String) :
    NoStrayBut key (purgeIfExpired key s).2 := by
  obtain ⟨readings, ⟨-, h⟩ | ⟨-, h⟩⟩ := purgeIfExpired_cases key s
  · rw [h]
    exact clean.but key
  · rw [h]
    exact NoStrayBut.deleteKey (s := { s with clock := readings }) (clean.but key)

private theorem NoStray.purgeOrForget (clean : NoStray s) (key : String) :
    NoStray (purgeOrForget s key) := by
  unfold Service.purgeOrForget
  dsimp only
  split
  · exact (clean.purgeIfExpired key).forgetKey
  · exact (clean.purgeIfExpired key).of_stored ‹_›

private theorem NoStray.purgeAllExpiredKeys (clean : NoStray s) : NoStray (purgeAllExpiredKeys s) :=
  List.foldlRecOn s.ttl.keys Service.purgeOrForget clean (fun _ clean key _ => clean.purgeOrForget key)

private theorem NoStray.evictKey (clean : NoStray s) (key : String) : NoStray (evictKey key s) :=
  clean.deleteEntryAndTtl key

private theorem NoStray.evictUntilFits (clean : NoStray s) (maxMemory : ℕ)
    (protectedKeys : List String) (rounds : ℕ) :
    NoStray (evictUntilFits maxMemory protectedKeys rounds s) := by
  induction rounds generalizing s with
  | zero => exact clean
  | succ rounds ih =>
    unfold Service.evictUntilFits
    split
    · split
      · exact clean
      · exact ih (clean.evictKey _)
    · exact clean

private theorem NoStray.evictProtected (clean : NoStray s) (maxMemory : ℕ)
    (protectedKeys : List String) : NoStray (evictProtected maxMemory protectedKeys s) := by
  induction protectedKeys generalizing s with
  | nil => exact clean
  | cons key rest ih =>
    unfold Service.evictProtected
    split
    · exact clean
    · split
      · exact ih (clean.but key).forgetKey
      · exact ih (clean.evictKey key)

private theorem NoStray.ensureMaxMemory (clean : NoStray s) (protectedKeys : List String) :
    NoStray (ensureMaxMemory protectedKeys s) := by
  unfold Service.ensureMaxMemory
  split
  · exact clean
  · have loop := clean.purgeAllExpiredKeys.evictUntilFits
    dsimp only
    split
    · exact loop _ _ _
    · exact (loop _ _ _).evictProtected _ _

private theorem NoStray.apply (clean : NoStray s) (update : EntryUpdate) (key : String) :
    NoStray (update.apply key s) := by
  cases update with
  | keep => exact clean
  | put entry =>
    have stored : (mutateEntry key entry s).store.get? key ≠ none := by simp [mutateEntry]
    exact ((clean.but key).set entry).of_stored stored
  | remove => exact clean.deleteEntryAndTtl key

private theorem NoStray.finish (clean : NoStray s) (op : TypedOp) (key : String)
    (entry : ValueEntry) : NoStray (op.finish key entry s).2 := by
  have updated := clean.apply (op.onEntry entry).2 key
  unfold TypedOp.finish
  dsimp only
  split
  · exact (updated.but key).touchKey.ensureMaxMemory [key]
  · exact updated

private theorem NoStray.performTyped (clean : NoStray s) (key : String) (op : TypedOp) :
    NoStray (performTyped key op s).2 := by
  have purged := clean.purgeIfExpired key
  unfold Service.performTyped
  dsimp only
  split
  · split
    · exact purged.forgetKey
    · rename_i container _
      exact (((purged.forgetKey).but key).storeEntry container).finish op key container
  · split
    · exact purged.touchKey
    · exact purged.touchKey.finish op key _

/-! ### One event -/

private theorem purge_keeps_stamps (key : String) (s : CommandService) :
    (expiredAt (s.clock 0) s key = true → (purgeIfExpired key s).2.store.get? key = none) ∧
      (purgeIfExpired key s).2.accessOrder = s.accessOrder := by
  obtain ⟨readings, ⟨live, h⟩ | ⟨-, h⟩⟩ := purgeIfExpired_cases key s
  · rw [h]
    refine ⟨fun expired => ?_, rfl⟩
    rw [live] at expired
    cases expired
  · rw [h]
    exact ⟨fun _ => Dict.get?_erase_self _ _, rfl⟩

private theorem NoStray.perform (clean : NoStray s) {op : Operation}
    (direct : ∀ key, (op = .ttl key ∨ ∃ seconds, op = .expire key seconds) →
      expiredAt (s.clock 0) s key = false) : NoStray (perform op s).2 := by
  have live : ∀ key, expiredAt (s.clock 0) s key = false →
      NoStray (Service.purgeIfExpired key s).2 := by
    intro key fresh
    obtain ⟨readings, ⟨-, h⟩ | ⟨expired, -⟩⟩ := purgeIfExpired_cases key s
    · rw [h]
      exact clean
    · rw [fresh] at expired
      cases expired
  cases op with
  | reply outcome => exact clean
  | set key value =>
    exact (NoStrayBut.storeEntry (s := { s with ttl := s.ttl.erase key }) (clean.but key)
      (.string value)).ensureMaxMemory [key]
  | del key =>
    rw [perform_del]
    split
    · exact (clean.purgeIfExpired key).forgetKey
    · exact ((clean.purgeIfExpired key).of_stored ‹_›).deleteEntryAndTtl key
  | expire key seconds =>
    have purged := live key (direct key (Or.inr ⟨seconds, rfl⟩))
    rw [perform_expire]
    split
    · exact purged
    · exact NoStrayBut.touchKey (purged.but key)
  | ttl key =>
    have purged := live key (direct key (Or.inl rfl))
    rw [perform_ttl]
    split
    · exact purged
    · split
      · exact purged
      · exact purged
  | dbsize => exact clean.purgeAllExpiredKeys
  | flushdb =>
    intro key _
    exact Dict.get?_empty key
  | info => exact clean.purgeAllExpiredKeys
  | configGet => exact clean
  | configSet value => 
    exact NoStray.ensureMaxMemory
      (s := { s with maxMemoryBytes := normalizeMaxMemoryBytes (some value) }) clean []
  | typed key op => exact clean.performTyped key op

private theorem stray_after_purge (consistent : Consistent s) {op : Operation}
    (direct : op = .ttl key ∨ ∃ seconds, op = .expire key seconds)
    (expired : expiredAt (s.clock 0) s key = true) : ¬ NoStray (perform op s).2 := by
  obtain ⟨gone, same⟩ := purge_keeps_stamps key s
  have left : (perform op s).2 = (purgeIfExpired key s).2 := by
    rcases direct with rfl | ⟨seconds, rfl⟩
    · rw [perform_ttl, if_pos (gone expired)]
    · rw [perform_expire, if_pos (gone expired)]
  have stored : s.store.get? key ≠ none := by
    intro absent
    rw [expiredAt, consistent.noOrphan key absent] at expired
    cases expired
  obtain ⟨stamp, stamped⟩ := consistent.stamped key stored
  intro clean
  have missing := clean key (by rw [left]; exact gone expired)
  rw [left, same, stamped] at missing
  cases missing

private theorem sweepLoop_idle {t : ℚ} {keys : List String} {n : ℕ}
    (fresh : ∀ key ∈ keys, expiredAt t s key = false) :
    keys.foldl (sweepKey t) (n, s) = (n, s) := by
  induction keys with
  | nil => rfl
  | cons key rest ih =>
    rw [List.foldl_cons, sweepKey_eq, if_neg (by simp [fresh key List.mem_cons_self])]
    exact ih (fun other member => fresh other (List.mem_cons_of_mem key member))

private theorem sweepLoop_accessOrder (t : ℚ) (keys : List String) (n : ℕ) (s : CommandService) :
    (keys.foldl (sweepKey t) (n, s)).2.accessOrder = s.accessOrder := by
  induction keys generalizing n s with
  | nil => rfl
  | cons key rest ih =>
    rw [List.foldl_cons, sweepKey_eq]
    split <;> exact ih _ _

private theorem sweepLoop_deletes {t : ℚ} {keys : List String} {n : ℕ}
    (covered : key ∈ keys ∧ expiredAt t s key = true ∨ s.store.get? key = none) :
    (keys.foldl (sweepKey t) (n, s)).2.store.get? key = none := by
  induction keys generalizing n s with
  | nil => simpa using covered
  | cons first rest ih =>
    rw [List.foldl_cons, sweepKey_eq]
    by_cases same : key = first
    · subst same
      split
      · exact ih (Or.inr (Dict.get?_erase_self _ _))
      · rename_i live
        exact ih (Or.inr (covered.resolve_left (fun found => live found.2)))
    · have kept : expiredAt t (deleteKey first s) key = expiredAt t s key := by
        simp [expiredAt, deleteKey, Dict.get?_erase, same]
      have absent : s.store.get? key = none → (deleteKey first s).store.get? key = none := by
        intro gone
        simp [deleteKey, Dict.get?_erase, gone]
      have later : key ∈ rest ∧ expiredAt t s key = true ∨ s.store.get? key = none :=
        covered.imp_left (fun found => ⟨(List.mem_cons.mp found.1).resolve_left same, found.2⟩)
      split
      · exact ih (later.imp (fun found => ⟨found.1, kept.trans found.2⟩) absent)
      · exact ih later

private theorem noStray_sweep_iff (consistent : Consistent s) (clean : NoStray s) (batchSize : ℤ) :
    NoStray (sweepOnce batchSize s).2 ↔
      ¬ ∃ key ∈ sliceUpTo s.ttl.keys batchSize, expiredAt (s.clock 0) s key = true := by
  constructor
  · rintro kept ⟨key, member, expired⟩
    have stored : s.store.get? key ≠ none := by
      intro absent
      rw [expiredAt, consistent.noOrphan key absent] at expired
      cases expired
    obtain ⟨stamp, stamped⟩ := consistent.stamped key stored
    have gone : (sweepOnce batchSize s).2.store.get? key = none :=
      sweepLoop_deletes (Or.inl ⟨member, expired⟩)
    have same : (sweepOnce batchSize s).2.accessOrder = s.accessOrder :=
      sweepLoop_accessOrder _ _ _ _
    have missing := kept key gone
    rw [same, stamped] at missing
    cases missing
  · intro fresh
    have idle : sweepOnce batchSize s = (0, (now s).2) := by
      apply sweepLoop_idle
      intro key member
      rw [← Bool.not_eq_true]
      exact fun expired => fresh ⟨key, member, expired⟩
    rw [idle]
    exact clean

private theorem denotes_direct {request : Command} {op : Operation} (denotes : Denotes request op) :
    (op = .ttl key ∨ ∃ seconds, op = .expire key seconds) ↔
      request.name ∈ ["TTL", "EXPIRE"] ∧ key ∈ request.arguments.head? := by
  cases denotes with
  | typed typedKey denotesTyped => cases denotesTyped <;> simp
  | _ => simp

private theorem noStray_step_iff {event : Event} (accepted : event.Accepted)
    (consistent : Consistent s) (clean : NoStray s) :
    NoStray (event.step s) ↔ ¬ event.StrandsStamp s := by
  cases event with
  | sweep readings batchSize =>
    exact noStray_sweep_iff (consistent.tick readings) clean batchSize
  | command readings request =>
    obtain ⟨op, denotes⟩ := accepted_denotes accepted
    simp only [Event.step, execute_denotes denotes]
    constructor
    · rintro kept ⟨named, key, head, expired⟩
      exact stray_after_purge (consistent.tick readings)
        ((denotes_direct denotes).mpr ⟨named, head⟩) expired kept
    · intro safe
      refine NoStray.perform (s := { s with clock := readings }) clean (fun key direct => ?_)
      obtain ⟨named, head⟩ := (denotes_direct denotes).mp direct
      rw [← Bool.not_eq_true]
      exact fun expired => safe ⟨named, key, head, expired⟩

/-! ### Whole runs -/

/-- Along any run from empty tables, the recency table stays within the store exactly if no
event of the run strands a stamp. -/
theorem stamps_within_store_iff (clock : ℕ → ℚ) (maxMemoryBytes : Option ℤ) {events : List Event}
    (accepted : ∀ event ∈ events, event.Accepted) :
    Always Event.step StampsWithinStore events (CommandService.init clock maxMemoryBytes) ↔
      EachStep Event.step (fun event s => ¬ event.StrandsStamp s) events
        (CommandService.init clock maxMemoryBytes) := by
  apply always_iff_eachStep (I := Consistent) Event.Accepted
  · intro event s accepted consistent
    exact Moves.consistent (step_moves accepted s) consistent
  · intro event s accepted consistent within
    rw [stampsWithinStore_iff] at within ⊢
    exact noStray_step_iff accepted consistent within
  · exact accepted
  · exact .init clock maxMemoryBytes
  · rw [stampsWithinStore_iff]
    intro key _
    exact Dict.get?_empty key

private def askedLate (name : String) : List Event :=
  [.command (fun _ => 0) ⟨"SET", ["k", "v"]⟩, .command (fun _ => 0) ⟨"EXPIRE", ["k", "1"]⟩,
    .command (fun _ => 5) ⟨name, ["k"]⟩]

private theorem askedLate_accepted {name : String} (accepted : validate ⟨name, ["k"]⟩ = .ok ()) :
    ∀ event ∈ askedLate name, event.Accepted := by
  have set : validate ⟨"SET", ["k", "v"]⟩ = .ok () := by decide +kernel
  have expire : validate ⟨"EXPIRE", ["k", "1"]⟩ = .ok () := by decide +kernel
  simp only [askedLate, List.forall_mem_cons, List.not_mem_nil, false_implies, implies_true, and_true]
  exact ⟨set, expire, accepted⟩

/-- `GET` forgets the key that it found expired. -/
theorem get_keeps_stamps_within_store :
    Always Event.step StampsWithinStore (askedLate "GET") (CommandService.init (fun _ => 0) none) :=
  (stamps_within_store_iff (fun _ => 0) none (askedLate_accepted (by decide +kernel))).mpr
    (by decide +kernel)

/-- `TTL` removes the key and leaves its stamp. -/
theorem ttl_strands_stamp :
    (∀ event ∈ askedLate "TTL", event.Accepted) ∧
      ¬ Always Event.step StampsWithinStore (askedLate "TTL")
        (CommandService.init (fun _ => 0) none) :=
  ⟨askedLate_accepted (by decide +kernel), by decide +kernel⟩

end MiniRedis.Service
