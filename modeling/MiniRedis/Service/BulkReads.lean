/- GID: MiniRedis/Service/BulkReads
   generality: I
   digest: Bulk reads list what point reads find, and depend on the live contents only. -/

import MiniRedis.Service.ListDeque
import MiniRedis.Service.Presence

set_option autoImplicit false
set_option relaxedAutoImplicit false

namespace MiniRedis.Service

open MiniRedis.Base MiniRedis.Python MiniRedis.Protocol MiniRedis.Commands

variable {t : ℚ} {s : CommandService} {key : String}

/-! ### Sorted listings -/

theorem sortedItems_spec (fields : Dict String String) :
    (sortedItems fields).Perm fields.entries ∧
      (sortedItems fields).Pairwise (fun a b => a.1 < b.1) := by
  have perm : (sortedItems fields).Perm fields.entries := List.perm_insertionSort _ _
  have weak : (sortedItems fields).Pairwise (fun a b => a.1 ≤ b.1) :=
    haveI : Std.Total fun a b : String × String => a.1 ≤ b.1 := ⟨fun a b => le_total a.1 b.1⟩
    haveI : IsTrans (String × String) fun a b => a.1 ≤ b.1 := ⟨fun _ _ _ => le_trans⟩
    List.pairwise_insertionSort _ _
  have distinct : (sortedItems fields).Pairwise (fun a b => a.1 ≠ b.1) :=
    List.pairwise_map.mp ((perm.map Prod.fst).nodup_iff.mpr fields.nodup)
  exact ⟨perm, (weak.and distinct).imp (fun both => lt_of_le_of_ne both.1 both.2)⟩

theorem mem_sortedItems (fields : Dict String String) (f v : String) :
    (f, v) ∈ sortedItems fields ↔ fields.get? f = some v := by
  rw [(sortedItems_spec fields).1.mem_iff, Dict.get?_eq_some_iff]

theorem sortedItems_congr {fields fields' : Dict String String}
    (same : ∀ f, fields.get? f = fields'.get? f) : sortedItems fields = sortedItems fields' := by
  obtain ⟨perm, ascending⟩ := sortedItems_spec fields
  obtain ⟨perm', ascending'⟩ := sortedItems_spec fields'
  refine List.Perm.eq_of_pairwise (fun a b _ _ before after => ?_) ascending ascending'
    (perm.trans ((Dict.perm_of_get?_eq same).trans perm'.symm))
  exact (lt_asymm before after).elim

theorem sortedMembers_ascending (members : Finset String) :
    (sortedMembers members).Pairwise (· < ·) := (Finset.sortedLT_sort members).pairwise

/-- `ZRANGE` lists every member once, whatever the scores are. -/
theorem orderedMembers_perm (zset : Dict String PyFloat) :
    (orderedMembers zset).Perm zset.keys := (List.perm_insertionSort _ _).map Prod.fst

theorem sliceSequence_all (values : List String) : sliceSequence values 0 (-1) = values := by
  rw [sliceSequence_eq, Deque.slice_all]

/-! ### Replies at one moment -/

/-- The outcome of a request at time `t`. -/
def ask (t : ℚ) (s : CommandService) (request : Command) : Except PyException RespValue :=
  ((execute request).exec { s with clock := fun _ => t }).1

theorem ask_typed {name : String} {rest : List String} {op : TypedOp}
    (denotes : DenotesTyped name rest op) (t : ℚ) (s : CommandService) (key : String) :
    ask t s ⟨name, key :: rest⟩ = op.reply (liveEntry t s key) := by
  rw [ask, execute_typed denotes, performTyped_reply, liveEntry_tick]

/-- The refusal of a value of another type. -/
def wrongType : Except PyException RespValue := .error (.commandError ERR_WRONG_TYPE)

/-- `HGETALL` lists in ascending order the fields that `HGET` finds, with their values. -/
def HashReadsAgree (t : ℚ) (s : CommandService) (key : String) : Prop :=
  (∃ fields : List (String × String),
    ask t s ⟨"HGETALL", [key]⟩ =
      .ok (.map (fields.map (fun e => (.blobString e.1, .blobString e.2)))) ∧
    fields.Pairwise (fun a b => a.1 < b.1) ∧
    ∀ f v, (f, v) ∈ fields ↔ ask t s ⟨"HGET", [key, f]⟩ = .ok (.blobString v)) ∨
  ask t s ⟨"HGETALL", [key]⟩ = wrongType ∧ ∀ f, ask t s ⟨"HGET", [key, f]⟩ = wrongType

/-- `SMEMBERS` lists in ascending order the members that `SISMEMBER` finds. -/
def SetReadsAgree (t : ℚ) (s : CommandService) (key : String) : Prop :=
  (∃ members : List String,
    ask t s ⟨"SMEMBERS", [key]⟩ = .ok (blobArray members) ∧ members.Pairwise (· < ·) ∧
    ∀ m, m ∈ members ↔ ask t s ⟨"SISMEMBER", [key, m]⟩ = .ok (.number 1)) ∨
  ask t s ⟨"SMEMBERS", [key]⟩ = wrongType ∧ ∀ m, ask t s ⟨"SISMEMBER", [key, m]⟩ = wrongType

/-- `ZRANGE 0 -1` lists once each member to which `ZSCORE` gives a score, and no other. -/
def ZsetReadsAgree (t : ℚ) (s : CommandService) (key : String) : Prop :=
  (∃ members : List String,
    ask t s ⟨"ZRANGE", [key, "0", "-1"]⟩ = .ok (blobArray members) ∧
    ∀ m, (ask t s ⟨"ZSCORE", [key, m]⟩ = .ok .null → members.count m = 0) ∧
      (ask t s ⟨"ZSCORE", [key, m]⟩ ≠ .ok .null → members.count m = 1)) ∨
  ask t s ⟨"ZRANGE", [key, "0", "-1"]⟩ = wrongType ∧ ∀ m, ask t s ⟨"ZSCORE", [key, m]⟩ = wrongType

private theorem hash_reads_agree (t : ℚ) (s : CommandService) (key : String) :
    HashReadsAgree t s key := by
  unfold HashReadsAgree
  simp only [ask_typed .hgetall, ask_typed (.hget _)]
  cases liveEntry t s key with
  | none => exact Or.inl ⟨[], rfl, .nil, by simp [TypedOp.reply, TypedOp.emptyContainer,
      TypedOp.absentReply]⟩
  | some entry =>
    cases entry with
    | hash fields =>
      refine Or.inl ⟨sortedItems fields, rfl, (sortedItems_spec fields).2, fun f v => ?_⟩
      rw [mem_sortedItems]
      cases found : fields.get? f <;>
        simp [TypedOp.reply, TypedOp.onEntry, ValueEntry.valueType, TypedOp.valueType,
          ValueEntry.hashValue, found, blobOrNull]
    | _ => exact Or.inr ⟨rfl, fun f => rfl⟩

private theorem set_reads_agree (t : ℚ) (s : CommandService) (key : String) :
    SetReadsAgree t s key := by
  unfold SetReadsAgree
  simp only [ask_typed .smembers, ask_typed (.sismember _)]
  cases liveEntry t s key with
  | none => exact Or.inl ⟨[], rfl, .nil, by simp [TypedOp.reply, TypedOp.emptyContainer,
      TypedOp.absentReply]⟩
  | some entry =>
    cases entry with
    | set members =>
      refine Or.inl ⟨sortedMembers members, rfl, sortedMembers_ascending members, fun m => ?_⟩
      by_cases member : m ∈ members <;>
        simp [TypedOp.reply, TypedOp.onEntry, ValueEntry.valueType, TypedOp.valueType,
          ValueEntry.setValue, sortedMembers, member]
    | _ => exact Or.inr ⟨rfl, fun m => rfl⟩

theorem zrange_all : DenotesTyped "ZRANGE" ["0", "-1"] (.zrange 0 (-1)) :=
  .zrange (by decide +kernel) (by decide +kernel)

theorem reply_zrange_all (scores : Dict String PyFloat) :
    TypedOp.reply (.zrange 0 (-1)) (some (.zset scores)) =
      .ok (blobArray (orderedMembers scores)) := by
  simp [TypedOp.reply, TypedOp.onEntry, ValueEntry.valueType, TypedOp.valueType,
    ValueEntry.zsetValue, sliceSequence_all]

private theorem zset_reads_agree (t : ℚ) (s : CommandService) (key : String) :
    ZsetReadsAgree t s key := by
  unfold ZsetReadsAgree
  simp only [ask_typed zrange_all, ask_typed (.zscore _)]
  cases liveEntry t s key with
  | none => exact Or.inl ⟨[], rfl, by simp [TypedOp.reply, TypedOp.emptyContainer,
      TypedOp.absentReply]⟩
  | some entry =>
    cases entry with
    | zset scores =>
      have perm := orderedMembers_perm scores
      refine Or.inl ⟨orderedMembers scores, reply_zrange_all scores, fun m => ?_⟩
      have found : TypedOp.reply (.zscore m) (some (.zset scores)) =
          .ok (blobOrNull ((scores.get? m).map formatG)) := rfl
      rw [found, perm.count_eq]
      cases scored : scores.get? m with
      | none =>
        have absent := (Dict.get?_eq_none_iff _ _).mp scored
        exact ⟨fun _ => List.count_eq_zero.mpr absent, fun given => (given rfl).elim⟩
      | some score =>
        have member := (Dict.mem_keys_iff scores m).mpr ⟨score, scored⟩
        refine ⟨fun null => by simp [blobOrNull] at null, fun _ => ?_⟩
        exact List.count_eq_one_of_mem scores.nodup member
    | _ => exact Or.inr ⟨rfl, fun m => rfl⟩

/-! ### Counts -/

private theorem purged_all (t : ℚ) (s : CommandService) (key : String) :
    (purgeAllExpiredKeys { s with clock := fun _ => t }).store.get? key = liveEntry t s key := by
  have moment : AtTime t { s with clock := fun _ => t } := rfl
  obtain ⟨-, swept, settled⟩ := moment.purgeAll
  rw [← settled.liveEntry, ← swept.liveEq.entry, liveEntry_tick]

private theorem counted (t : ℚ) (s : CommandService) :
    (purgeAllExpiredKeys { s with clock := fun _ => t }).store.keys.length =
      {key | liveEntry t s key ≠ none}.ncard := by
  simp only [← purged_all t s]
  rw [← Dict.size_eq_ncard, Dict.keys, List.length_map, Dict.size]

/-- The arguments with which `INFO` reports on the memory. -/
def InfoArguments (arguments : List String) : Prop :=
  arguments = [] ∨ ∃ domain, arguments = [domain] ∧ upper domain ∈ ["ALL", "MEMORY"]

/-- `DBSIZE` and the `keys` field of `INFO` count the keys for which `TTL` has an answer. -/
def CountsAgree (t : ℚ) (s : CommandService) : Prop :=
  let n := {key | ask t s ⟨"TTL", [key]⟩ ≠ .ok (.number (-2))}.ncard
  ask t s ⟨"DBSIZE", []⟩ = .ok (.number n) ∧
    ∀ arguments, InfoArguments arguments → ∃ used limit evicted : ℕ,
      ask t s ⟨"INFO", arguments⟩ = .ok (.blobString
        ("# Memory\r\nused_memory:" ++ toString used ++ "\r\nmaxmemory:" ++ toString limit ++
          "\r\nkeys:" ++ toString n ++ "\r\nevicted_keys:" ++ toString evicted))

private theorem counts_agree (t : ℚ) (s : CommandService) : CountsAgree t s := by
  have answered : {key | ask t s ⟨"TTL", [key]⟩ ≠ .ok (.number (-2))} =
      {key | liveEntry t s key ≠ none} := by
    ext key
    rw [Set.mem_ofPred_eq, Set.mem_ofPred_eq, ask, execute_denotes (.ttl key), Ne, ttl_absent_iff,
      liveEntry_tick]
  unfold CountsAgree
  rw [answered, ← counted t s]
  refine ⟨rfl, fun arguments shown => ?_⟩
  have denotes : Denotes ⟨"INFO", arguments⟩ .info := by
    rcases shown with rfl | ⟨domain, rfl, known⟩
    · exact .info
    · exact .infoSection known
  let purged := purgeAllExpiredKeys { s with clock := fun _ => t }
  refine ⟨currentMemoryBytes purged, maxMemoryOrZero purged, purged.evictedKeys, ?_⟩
  rw [ask, execute_denotes denotes]
  rfl

/-! ### Live contents -/

/-- The same value, whatever the order in which its fields or members were written. -/
def SameContents : Option ValueEntry → Option ValueEntry → Prop
  | some (.hash fields), some (.hash fields') => ∀ f, fields.get? f = fields'.get? f
  | some (.zset scores), some (.zset scores') => ∀ m, scores.get? m = scores'.get? m
  | found, found' => found = found'

private theorem SameContents.none_iff {found found' : Option ValueEntry}
    (same : SameContents found found') : found = none ↔ found' = none := by
  rcases found with _ | _ | _ | _ | _ | _ <;> rcases found' with _ | _ | _ | _ | _ | _ <;>
    simp_all [SameContents]

private theorem SameContents.hgetall {found found' : Option ValueEntry}
    (same : SameContents found found') :
    TypedOp.reply .hgetall found = TypedOp.reply .hgetall found' := by
  rcases found with _ | _ | fields | _ | _ | _ <;> rcases found' with _ | _ | fields' | _ | _ | _ <;>
    try first | rfl | cases same
  have listed := sortedItems_congr same
  show Except.ok (hashReply fields) = Except.ok (hashReply fields')
  rw [hashReply, hashReply, listed]

private theorem SameContents.smembers {found found' : Option ValueEntry}
    (same : SameContents found found') :
    TypedOp.reply .smembers found = TypedOp.reply .smembers found' := by
  rcases found with _ | _ | _ | _ | _ | _ <;> rcases found' with _ | _ | _ | _ | _ | _ <;>
    first
    | rfl
    | (cases same; rfl)
    | cases same

/-- At every moment bulk reads list what the point reads find, the counts are those of the keys
that `TTL` knows, and the listings and counts of two histories with the same live contents are the
same. -/
theorem bulk_reads_agree (t : ℚ) (s : CommandService) :
    (∀ key, HashReadsAgree t s key ∧ SetReadsAgree t s key ∧ ZsetReadsAgree t s key) ∧
    CountsAgree t s ∧
    ∀ (t' : ℚ) (s' : CommandService),
      (∀ key, SameContents (liveEntry t s key) (liveEntry t' s' key)) →
      (∀ key, ask t s ⟨"HGETALL", [key]⟩ = ask t' s' ⟨"HGETALL", [key]⟩ ∧
        ask t s ⟨"SMEMBERS", [key]⟩ = ask t' s' ⟨"SMEMBERS", [key]⟩) ∧
      ask t s ⟨"DBSIZE", []⟩ = ask t' s' ⟨"DBSIZE", []⟩ := by
  refine ⟨fun key => ⟨hash_reads_agree t s key, set_reads_agree t s key, zset_reads_agree t s key⟩,
    counts_agree t s, fun t' s' same => ⟨fun key => ⟨?_, ?_⟩, ?_⟩⟩
  · rw [ask_typed .hgetall, ask_typed .hgetall, (same key).hgetall]
  · rw [ask_typed .smembers, ask_typed .smembers, (same key).smembers]
  · have keys : {key | liveEntry t s key ≠ none} = {key | liveEntry t' s' key ≠ none} := by
      ext key
      exact not_congr (same key).none_iff
    have count : ∀ t s, ask t s ⟨"DBSIZE", []⟩ =
        .ok (.number {key | liveEntry t s key ≠ none}.ncard) := by
      intro t s
      rw [← counted t s]
      rfl
    rw [count, count, keys]

private def writtenHash (first second : String) : CommandService :=
  run [.command (fun _ => 0) ⟨"HSET", ["k", first, "v"]⟩,
    .command (fun _ => 0) ⟨"HSET", ["k", second, "v"]⟩] (CommandService.init (fun _ => 0) none)

theorem order_of_writes_not_listed (t : ℚ) :
    ask t (writtenHash "a" "b") ⟨"HGETALL", ["k"]⟩ =
      ask t (writtenHash "b" "a") ⟨"HGETALL", ["k"]⟩ := by
  have timeless : ∀ {r : CommandService}, r.ttl.keys = [] → ∀ key,
      liveEntry t r key = r.store.get? key := by
    intro r none_dated key
    have undated : r.ttl.get? key = none := by
      rw [Dict.get?_eq_none_iff, none_dated]
      exact List.not_mem_nil
    simp [liveEntry, expiredAt, undated]
  have only : ∀ {r : CommandService}, r.store.keys = ["k"] → ∀ key, key ≠ "k" →
      r.store.get? key = none := by
    intro r one key other
    rw [Dict.get?_eq_none_iff, one]
    simpa using other
  have shows := timeless (r := writtenHash "a" "b") (by decide +kernel)
  have shows' := timeless (r := writtenHash "b" "a") (by decide +kernel)
  refine ((bulk_reads_agree t (writtenHash "a" "b")).2.2 t (writtenHash "b" "a") ?_).1 "k" |>.1
  intro key
  rw [shows, shows']
  by_cases here : key = "k"
  · subst here
    have stored : (writtenHash "a" "b").store.get? "k" =
          some (.hash ((Dict.empty.set "a" "v").set "b" "v")) ∧
        (writtenHash "b" "a").store.get? "k" =
          some (.hash ((Dict.empty.set "b" "v").set "a" "v")) := by decide +kernel
    rw [stored.1, stored.2]
    intro f
    simp only [Dict.get?_set]
    split_ifs <;> simp_all
  · rw [only (r := writtenHash "a" "b") (by decide +kernel) key here,
      only (r := writtenHash "b" "a") (by decide +kernel) key here]
    exact rfl

end MiniRedis.Service
