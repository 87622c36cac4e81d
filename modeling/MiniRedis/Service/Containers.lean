/- GID: MiniRedis/Service/Containers
   generality: I
   digest: What a typed operation answers and what it leaves under its key. -/

import MiniRedis.Service.Locality
import MiniRedis.Service.Recency

set_option autoImplicit false
set_option relaxedAutoImplicit false

namespace MiniRedis.Service

open MiniRedis.Base MiniRedis.Python MiniRedis.Protocol MiniRedis.Commands

variable {t : ℚ} {s : CommandService} {key : String}

/-! ### One operation at its key -/

/-- What is stored after an update of a value. -/
def EntryUpdate.result (entry : ValueEntry) : EntryUpdate → Option ValueEntry
  | keep => some entry
  | put changed => some changed
  | remove => none

namespace TypedOp

/-- The reply to the value that is live under the key. -/
def reply (op : TypedOp) : Option ValueEntry → Except PyException RespValue
  | none => .ok (op.emptyContainer.elim op.absentReply fun container => (op.onEntry container).1)
  | some entry =>
    if entry.valueType ≠ op.valueType then .error (.commandError ERR_WRONG_TYPE)
    else .ok (op.onEntry entry).1

/-- The value that is left where no limit is enforced. -/
def left (op : TypedOp) : Option ValueEntry → Option ValueEntry
  | none => op.emptyContainer.bind fun container => (op.onEntry container).2.result container
  | some entry =>
    if entry.valueType ≠ op.valueType then some entry
    else (op.onEntry entry).2.result entry

end TypedOp

theorem performTyped_reply (key : String) (op : TypedOp) (s : CommandService) :
    (performTyped key op s).1 = op.reply (liveEntry (s.clock 0) s key) := by
  rw [← purgeIfExpired_store]
  unfold performTyped
  dsimp only
  cases (purgeIfExpired key s).2.store.get? key with
  | none => cases creates : op.emptyContainer <;> simp [TypedOp.reply, creates, TypedOp.finish]
  | some entry =>
    by_cases typed : entry.valueType = op.valueType <;>
      simp [TypedOp.reply, typed, TypedOp.finish]

private theorem apply_row (update : EntryUpdate) {entry : ValueEntry}
    (stored : s.store.get? key = some entry) :
    (update.apply key s).store.get? key = update.result entry ∧
      (update.apply key s).ttl.get? key =
        if update.result entry = none then none else s.ttl.get? key := by
  cases update with
  | keep => exact ⟨stored, rfl⟩
  | put changed => exact ⟨Dict.get?_set_self _ _ _, rfl⟩
  | remove => exact ⟨Dict.get?_erase_self _ _, Dict.get?_erase_self _ _⟩

private theorem finish_row (unlimited : s.maxMemoryBytes = none) (op : TypedOp)
    {entry : ValueEntry} (stored : s.store.get? key = some entry) :
    (op.finish key entry s).2.store.get? key = (op.onEntry entry).2.result entry ∧
      (op.finish key entry s).2.ttl.get? key =
        if (op.onEntry entry).2.result entry = none then none else s.ttl.get? key := by
  have row := apply_row (op.onEntry entry).2 stored
  have limit : ((op.onEntry entry).2.apply key s).maxMemoryBytes = none := by
    cases (op.onEntry entry).2 <;> exact unlimited
  unfold TypedOp.finish
  dsimp only
  split
  · rw [ensureMaxMemory_of_unlimited (by rw [touchKey_maxMemoryBytes, limit]), touchKey_store,
      touchKey_ttl]
    exact row
  · exact row

/-- Without a limit an operation leaves its value, under the deadline that was live before. -/
theorem performTyped_row (consistent : Consistent s) (unlimited : s.maxMemoryBytes = none)
    (key : String) (op : TypedOp) :
    let found := liveEntry (s.clock 0) s key
    (performTyped key op s).2.store.get? key = op.left found ∧
      (performTyped key op s).2.ttl.get? key =
        if op.left found = none then none else liveDeadline (s.clock 0) s key := by
  intro found
  have purge := purgeIfExpired_removals key s
  have purged := purge.moves.consistent consistent
  have limit := purge.shrunk.maxMemoryBytes.trans unlimited
  have store : (purgeIfExpired key s).2.store.get? key = found := purgeIfExpired_store key s
  have deadline : (purgeIfExpired key s).2.ttl.get? key = liveDeadline (s.clock 0) s key := by
    obtain ⟨readings, ⟨live, h⟩ | ⟨expired, h⟩⟩ := purgeIfExpired_cases key s
    · rw [h, liveDeadline, live]
      rfl
    · rw [h, liveDeadline, expired]
      exact Dict.get?_erase_self _ _
  unfold performTyped
  dsimp only
  rw [store, ← deadline]
  clear_value found
  cases found with
  | none =>
    have unheld := purged.noOrphan key store
    cases creates : op.emptyContainer with
    | none => simp [TypedOp.left, creates, forgetKey, store, unheld]
    | some container =>
      have left : op.left none = (op.onEntry container).2.result container := by
        simp [TypedOp.left, creates]
      have created : (storeEntry key container
          (forgetKey key (purgeIfExpired key s).2)).ttl.get? key = none := by
        rw [storeEntry, touchKey_ttl]
        exact unheld
      have stored : (storeEntry key container
          (forgetKey key (purgeIfExpired key s).2)).store.get? key = some container := by
        rw [storeEntry, touchKey_store]
        exact Dict.get?_set_self _ _ _
      have free : (storeEntry key container
          (forgetKey key (purgeIfExpired key s).2)).maxMemoryBytes = none := by
        rw [storeEntry, touchKey_maxMemoryBytes]
        exact limit
      obtain ⟨row, dated⟩ := finish_row free op stored
      rw [left, unheld]
      refine ⟨row, dated.trans ?_⟩
      rw [created]
  | some entry =>
    by_cases typed : entry.valueType = op.valueType
    · have left : op.left (some entry) = (op.onEntry entry).2.result entry := by
        simp [TypedOp.left, typed]
      have kept : (touchKey key (purgeIfExpired key s).2).store.get? key = some entry := by
        simp [store]
      obtain ⟨row, dated⟩ := finish_row ((touchKey_maxMemoryBytes _ _).trans limit) op kept
      rw [left]
      simp only [typed, ne_eq, not_true, if_false]
      rw [touchKey_ttl] at dated
      exact ⟨row, dated⟩
    · simp [TypedOp.left, typed, store]

theorem performTyped_live (consistent : Consistent s) (unlimited : s.maxMemoryBytes = none)
    (key : String) (op : TypedOp) :
    liveEntry (s.clock 0) (performTyped key op s).2 key =
      op.left (liveEntry (s.clock 0) s key) := by
  obtain ⟨row, dated⟩ := performTyped_row consistent unlimited key op
  have lasting : expiredAt (s.clock 0) (performTyped key op s).2 key = false := by
    rw [expiredAt, dated]
    split
    · rfl
    · cases expired : expiredAt (s.clock 0) s key with
      | true => simp [liveDeadline, expired]
      | false =>
        have lasting : (s.ttl.get? key).any (·.leRat (s.clock 0)) = false := expired
        simpa [liveDeadline, expired] using lasting
  rw [liveEntry, lasting, row]
  rfl

end MiniRedis.Service
