/- GID: MiniRedis/Service/Presence
   generality: I
   digest: No stored container is empty, and absence once shown lasts until the key is created. -/

import MiniRedis.Service.Live

set_option autoImplicit false
set_option relaxedAutoImplicit false

namespace MiniRedis.Service

open MiniRedis.Base MiniRedis.Python MiniRedis.Protocol MiniRedis.Commands

/-! ### Elements -/

/-- The number of elements of a stored value; a string counts as one. -/
def ValueEntry.elementCount : ValueEntry → ℕ
  | .string _ => 1
  | .hash value => value.size
  | .list value => value.length
  | .set value => value.card
  | .zset value => value.size

/-- Every stored value has an element. -/
def Filled (s : CommandService) : Prop :=
  ∀ key entry, s.store.get? key = some entry → 0 < entry.elementCount

private theorem size_pos_of_keys {α : Type} {d : Dict String α} (h : d.keys ≠ []) : 0 < d.size := by
  rw [Dict.size, List.length_pos_iff]
  intro empty
  exact h (by rw [Dict.keys, empty, List.map_nil])

private theorem size_set_pos {α : Type} (d : Dict String α) (key : String) (v : α) :
    0 < (d.set key v).size := by
  apply size_pos_of_keys
  intro empty
  have member : key ∈ (d.set key v).keys := (Dict.mem_keys_set d key key v).mpr (Or.inl rfl)
  rw [empty] at member
  cases member

private theorem length_foldl_cons (values list : List String) :
    (values.foldl (fun list value => value :: list) list).length = values.length + list.length := by
  induction values generalizing list with
  | nil => simp
  | cons value values ih =>
    rw [List.foldl_cons, ih, List.length_cons, List.length_cons]
    omega

private theorem subset_addMembers (members : List String) (acc : ℤ × Finset String) :
    acc.2 ⊆ (addMembers members acc).2 := by
  induction members generalizing acc with
  | nil => exact Finset.Subset.refl _
  | cons member members ih =>
    exact (Finset.subset_insert member acc.2).trans
      (ih (if member ∉ acc.2 then acc.1 + 1 else acc.1, insert member acc.2))

private theorem size_addScores_pos (pairs : List (PyFloat × String)) (acc : ℤ × Dict String PyFloat)
    (h : pairs ≠ [] ∨ 0 < acc.2.size) : 0 < (TypedOp.addScores pairs acc).2.size := by
  induction pairs generalizing acc with
  | nil => exact h.resolve_left (fun ne => ne rfl)
  | cons pair pairs ih => exact ih _ (Or.inr (size_set_pos _ _ _))

/-- Whatever an accepted operation stores has an element: the growing ones were given some, and
the shrinking ones remove the key instead. -/
theorem DenotesTyped.put_filled {name : String} {rest : List String} {op : TypedOp}
    (denotes : DenotesTyped name rest op) {entry stored : ValueEntry}
    (put : (op.onEntry entry).2 = .put stored) : 0 < stored.elementCount := by
  cases denotes with
  | get | hget | hgetall | lrange | smembers | sismember | zrange | zscore => cases put
  | hset field value =>
    cases put
    exact size_set_pos _ _ _
  | hdel field =>
    simp only [TypedOp.onEntry] at put
    split at put
    · cases put
    · cases put
      exact size_pos_of_keys ‹_›
  | lpush value values =>
    cases put
    simp only [ValueEntry.elementCount, length_foldl_cons, List.length_cons]
    omega
  | rpush value values =>
    cases put
    simp only [ValueEntry.elementCount, List.length_append, List.length_cons]
    omega
  | lpop =>
    simp only [TypedOp.onEntry] at put
    split at put
    · cases put
    · dsimp only at put
      split at put
      · cases put
      · cases put
        exact List.length_pos_iff.mpr ‹_›
  | rpop =>
    simp only [TypedOp.onEntry] at put
    split at put
    · cases put
    · dsimp only at put
      split at put
      · cases put
      · cases put
        exact List.length_pos_iff.mpr ‹_›
  | sadd member members =>
    cases put
    refine Finset.card_pos.mpr ⟨member, ?_⟩
    exact subset_addMembers members _ (Finset.mem_insert_self member _)
  | srem member members =>
    simp only [TypedOp.onEntry] at put
    split at put
    · cases put
    · cases put
      exact Finset.card_pos.mpr (Finset.nonempty_iff_ne_empty.mpr ‹_›)
  | zadd read some_pair =>
    cases put
    exact size_addScores_pos _ _ (Or.inl some_pair)
  | zrem member members =>
    simp only [TypedOp.onEntry] at put
    split at put
    · cases put
    · cases put
      exact size_pos_of_keys ‹_›

theorem TypedOp.puts_of_grows {op : TypedOp} (grows : op.grows = true) (entry : ValueEntry) :
    ∃ stored, (op.onEntry entry).2 = .put stored := by
  cases op with
  | hset | lpush | rpush | sadd | zadd => exact ⟨_, rfl⟩
  | _ => cases grows

/-! ### The invariant -/

private theorem Filled.of_shrunk {s s' : CommandService} (filled : Filled s) (shrunk : Shrunk s s') :
    Filled s' :=
  fun key entry found => filled key entry (shrunk.store key entry found)

private theorem Filled.mutateEntry {s : CommandService} (filled : Filled s) (key : String)
    {entry : ValueEntry} (some_element : 0 < entry.elementCount) :
    Filled (mutateEntry key entry s) := by
  intro key' entry' found
  simp only [Service.mutateEntry, Dict.get?_set] at found
  split at found
  · cases found
    exact some_element
  · exact filled key' entry' found

private theorem Filled.touchKey {s : CommandService} (filled : Filled s) (key : String) :
    Filled (touchKey key s) :=
  fun key' entry found => filled key' entry (by simpa using found)

private theorem finish_filled {name : String} {rest : List String} {op : TypedOp}
    (denotes : DenotesTyped name rest op) (key : String) (entry : ValueEntry) {s : CommandService}
    (filled : ∀ key' entry', s.store.get? key' = some entry' →
      (op.grows = true → key' ≠ key) → 0 < entry'.elementCount) :
    Filled (op.finish key entry s).2 := by
  unfold TypedOp.finish
  dsimp only
  cases grows : op.grows with
  | true =>
    obtain ⟨stored, put⟩ := TypedOp.puts_of_grows grows entry
    have written : Filled (mutateEntry key stored s) := by
      intro key' entry' found
      simp only [mutateEntry, Dict.get?_set] at found
      split at found
      · cases found
        exact denotes.put_filled put
      · exact filled key' entry' found (fun _ => ‹_›)
    rw [put]
    exact (written.touchKey key).of_shrunk (ensureMaxMemory_removals [key] _).shrunk
  | false =>
    have before : Filled s := fun key' entry' found =>
      filled key' entry' found (fun h => by rw [grows] at h; cases h)
    cases update : (op.onEntry entry).2 with
    | keep => exact before
    | put stored => exact before.mutateEntry key (denotes.put_filled update)
    | remove => exact before.of_shrunk (deleteEntryAndTtl_removals key s).shrunk

private theorem performTyped_filled {name : String} {rest : List String} {op : TypedOp}
    (denotes : DenotesTyped name rest op) (key : String) {s : CommandService} (filled : Filled s) :
    Filled (performTyped key op s).2 := by
  have purged : Filled (purgeIfExpired key s).2 :=
    filled.of_shrunk (purgeIfExpired_removals key s).shrunk
  unfold performTyped
  dsimp only
  split
  · split
    · exact purged
    · rename_i container created
      have grows : op.grows = true := by rw [TypedOp.grows, created, Option.isSome_some]
      refine finish_filled denotes key container (fun key' entry' found apart => ?_)
      rw [storeEntry_store, Dict.get?_set, if_neg (apart grows)] at found
      exact purged key' entry' found
  · split
    · exact purged.touchKey key
    · exact finish_filled denotes key _ (fun key' entry' found _ =>
        purged.touchKey key key' entry' found)

private theorem perform_store_sub {op : Operation} (not_set : ∀ key value, op ≠ .set key value)
    (not_typed : ∀ key top, op ≠ .typed key top) {s : CommandService} {key : String}
    {entry : ValueEntry} (found : (perform op s).2.store.get? key = some entry) :
    s.store.get? key = some entry := by
  have purge : ∀ key', (purgeIfExpired key' s).2.store.get? key = some entry →
      s.store.get? key = some entry :=
    fun key' => (purgeIfExpired_removals key' s).shrunk.store key entry
  cases op with
  | reply | configGet => exact found
  | set key' value => exact (not_set key' value rfl).elim
  | typed key' op => exact (not_typed key' op rfl).elim
  | del key' =>
    rw [perform_del] at found
    split at found
    · exact purge key' found
    · exact purge key' ((deleteEntryAndTtl_removals key' _).shrunk.store key entry found)
  | expire key' seconds =>
    rw [perform_expire] at found
    split at found
    · exact purge key' found
    · exact purge key' (by simpa [now] using found)
  | ttl key' =>
    rw [perform_ttl] at found
    split at found
    · exact purge key' found
    · split at found <;> exact purge key' found
  | dbsize | info => exact (purgeAllExpiredKeys_removals s).shrunk.store key entry found
  | flushdb => exact (flush_loop_removals s).shrunk.store key entry found
  | configSet value =>
    have shrunk := (ensureMaxMemory_removals []
      { s with maxMemoryBytes := normalizeMaxMemoryBytes (some (value : ℤ)) }).shrunk
    exact shrunk.store key entry found

private theorem perform_filled {command : Command} {op : Operation} (denotes : Denotes command op)
    {s : CommandService} (filled : Filled s) : Filled (perform op s).2 := by
  cases denotes with
  | set key value =>
    have written : Filled (touchKey key (setServiceExecute key value s).2) := by
      refine Filled.touchKey ?_ key
      have one : 0 < (ValueEntry.string value).elementCount := Nat.one_pos
      exact filled.mutateEntry key one
    exact written.of_shrunk (ensureMaxMemory_removals [key] _).shrunk
  | typed key denotes => exact performTyped_filled denotes key filled
  | _ => exact fun key entry found => filled key entry (perform_store_sub (by simp) (by simp) found)

theorem Reachable.filled {s : CommandService} (reached : Reachable s) : Filled s := by
  induction reached with
  | init clock maxMemoryBytes =>
    intro key entry found
    cases found
  | @step s event reached accepted ih =>
    cases event with
    | command readings request =>
      obtain ⟨op, denotes⟩ := accepted_denotes accepted
      simp only [Event.step, execute_denotes denotes]
      exact perform_filled (s := { s with clock := readings }) denotes ih
    | sweep readings batchSize =>
      exact Filled.of_shrunk (s := { s with clock := readings }) ih
        (sweepOnce_removals batchSize _).shrunk

/-! ### What `TTL` and `DBSIZE` show of it -/

/-- The number of elements that are visible under a key at time `t`. -/
def elementsAt (t : ℚ) (s : CommandService) (key : String) : ℕ :=
  (liveEntry t s key).elim 0 ValueEntry.elementCount

private theorem stored_of_liveEntry {t : ℚ} {s : CommandService} {key : String} {entry : ValueEntry}
    (live : liveEntry t s key = some entry) : s.store.get? key = some entry := by
  unfold liveEntry at live
  split at live
  · cases live
  · exact live

private theorem Filled.elementsAt_pos {s : CommandService} (filled : Filled s) (t : ℚ)
    (key : String) : 0 < elementsAt t s key ↔ liveEntry t s key ≠ none := by
  unfold elementsAt
  cases found : liveEntry t s key with
  | none => simp
  | some entry => simpa using filled key entry (stored_of_liveEntry found)

private theorem remainingSeconds_ne (t : ℚ) (expiresAt : PyFloat) :
    (calculateRemainingSeconds t expiresAt).map RespValue.number ≠ .ok (.number (-2)) := by
  intro reply
  cases expiresAt with
  | nan | inf => cases reply
  | finite negative magnitude =>
    have same : max 0 ⌈PyFloat.signedValue negative magnitude - t⌉ = (-2 : ℤ) := by
      simpa [calculateRemainingSeconds, Except.map] using reply
    omega

theorem ttl_absent_iff (key : String) (s : CommandService) :
    (perform (.ttl key) s).1 = .ok (.number (-2)) ↔ liveEntry (s.clock 0) s key = none := by
  rw [perform_ttl, purgeIfExpired_store]
  constructor
  · intro reply
    by_contra live
    rw [if_neg live] at reply
    split at reply
    · simp at reply
    · exact remainingSeconds_ne _ _ reply
  · intro absent
    rw [if_pos absent]

private theorem dbsize_reply (t : ℚ) (s : CommandService) :
    (purgeAllExpiredKeys { s with clock := fun _ => t }).store.keys.length =
      s.store.keys.countP (fun key => (liveEntry t s key).isSome) := by
  obtain ⟨-, swept, settled⟩ := AtTime.purgeAll (t := t) (s := { s with clock := fun _ => t }) rfl
  rw [List.countP_eq_length_filter]
  refine List.Perm.length_eq ((List.perm_ext_iff_of_nodup (Dict.nodup _)
    (List.Nodup.filter _ s.store.nodup)).mpr (fun key => ?_))
  have live := swept.liveEq.entry key
  rw [settled.liveEntry, liveEntry_tick] at live
  rw [List.mem_filter, ← Dict.keys, Dict.mem_keys_iff, ← live, Option.isSome_iff_exists]
  constructor
  · rintro ⟨entry, found⟩
    exact ⟨(Dict.mem_keys_iff _ _).mpr ⟨entry, stored_of_liveEntry found⟩, entry, found⟩
  · exact fun member => member.2

/-- No reachable state stores an empty container, so a key exists for `TTL` and `DBSIZE` exactly
while it has an element. -/
theorem no_empty_aggregates {s : CommandService} (reached : Reachable s) :
    (∀ key entry, s.store.get? key = some entry → 0 < entry.elementCount) ∧
    (∀ (readings : ℕ → ℚ) (key : String),
      ((execute ⟨"TTL", [key]⟩).exec { s with clock := readings }).1 ≠ .ok (.number (-2)) ↔
        0 < elementsAt (readings 0) s key) ∧
    (∀ t : ℚ, ((execute ⟨"DBSIZE", []⟩).exec { s with clock := fun _ => t }).1 =
      .ok (.number (s.store.keys.countP (fun key => 0 < elementsAt t s key)))) ∧
    ∀ readings : ℕ → ℚ,
      let counted := (execute ⟨"DBSIZE", []⟩).exec { s with clock := readings }
      counted.1 = .ok (.number (counted.2.store.keys.countP (fun key =>
        0 < (counted.2.store.get? key).elim 0 ValueEntry.elementCount))) := by
  have filled := reached.filled
  refine ⟨filled, fun readings key => ?_, fun t => ?_, fun readings => ?_⟩
  · rw [execute_denotes (.ttl key), Ne, ttl_absent_iff, filled.elementsAt_pos]
    rfl
  · have counts : s.store.keys.countP (fun key => decide (0 < elementsAt t s key)) =
        s.store.keys.countP (fun key => (liveEntry t s key).isSome) := by
      refine List.countP_congr (fun key _ => ?_)
      rw [decide_eq_true_iff, filled.elementsAt_pos, Option.isSome_iff_ne_none]
    rw [execute_denotes .dbsize, counts, ← dbsize_reply]
    rfl
  · have kept : Filled (purgeAllExpiredKeys { s with clock := readings }) :=
      Filled.of_shrunk (s := { s with clock := readings }) filled
        (purgeAllExpiredKeys_removals _).shrunk
    rw [execute_denotes .dbsize]
    simp only [perform, executeDbsize]
    rw [List.countP_eq_length.mpr]
    intro key member
    obtain ⟨entry, found⟩ := (Dict.mem_keys_iff _ _).mp member
    simpa [found] using kept key entry found

private def smallSet : CommandService :=
  run [.command (fun _ => 0) ⟨"SADD", ["k", "a", "b"]⟩, .command (fun _ => 0) ⟨"SREM", ["k", "a"]⟩]
    (CommandService.init (fun _ => 0) none)

private theorem smallSet_reachable : Reachable smallSet := by
  refine Reachable.run (.init _ none) ?_
  intro event member
  simp only [List.mem_cons, List.not_mem_nil, or_false] at member
  rcases member with rfl | rfl <;>
  · unfold Event.Accepted
    decide +kernel

theorem small_set_still_counted :
    0 < elementsAt 7 smallSet "k" ∧
      ((execute ⟨"TTL", ["k"]⟩).exec { smallSet with clock := fun _ => 7 }).1 ≠
        .ok (.number (-2)) := by
  have one : 0 < elementsAt 7 smallSet "k" := by decide +kernel
  exact ⟨one, ((no_empty_aggregates smallSet_reachable).2.1 (fun _ => 7) "k").mpr one⟩

/-! ### Absence -/

/-- The event runs a command that stores its key where it is absent. -/
def Event.Creates (key : String) : Event → Prop
  | .command _ request =>
    request.name ∈ "SET" :: growingCommands ∧ request.arguments.head? = some key
  | .sweep _ _ => False

/-- The commands that ask for a key's presence, with the reply that denies it. -/
def probeReplies : List (String × RespValue) :=
  [("GET", .null), ("TTL", .number (-2)), ("EXPIRE", .number 0), ("DEL", .number 0),
    ("HGETALL", .map []), ("SMEMBERS", .array [])]

/-- In state `s` the event shows the key absent: a probe is answered so, `DEL` is run, whatever it
replies, or a sweep takes the key away. -/
def ShowsAbsent (key : String) (s : CommandService) : Event → Prop
  | .command readings request =>
    request.arguments.head? = some key ∧
      ∃ reply, (request.name, reply) ∈ probeReplies ∧
        (request.name = "DEL" ∨ ((execute request).exec { s with clock := readings }).1 = .ok reply)
  | .sweep readings batchSize =>
    s.store.get? key ≠ none ∧ (Event.step (.sweep readings batchSize) s).store.get? key = none

/-- The operations behind the probes of a key. -/
inductive IsProbe (key : String) : Operation → RespValue → Prop
  | typed {op : TypedOp} (listed : op = .get ∨ op = .hgetall ∨ op = .smembers) :
      IsProbe key (.typed key op) op.absentReply
  | ttl : IsProbe key (.ttl key) (.number (-2))
  | expire (seconds : PyFloat) : IsProbe key (.expire key seconds) (.number 0)
  | del : IsProbe key (.del key) (.number 0)

private theorem Denotes.isProbe {command : Command} {op : Operation} (denotes : Denotes command op)
    {key : String} (head : command.arguments.head? = some key) {reply : RespValue}
    (listed : (command.name, reply) ∈ probeReplies) :
    IsProbe key op reply ∧ (command.name = "DEL" → op = .del key) := by
  cases denotes with
  | typed key' denotes =>
    cases denotes <;> simp [probeReplies] at listed head
    · subst listed head
      exact ⟨.typed (Or.inl rfl), by simp⟩
    · subst listed head
      exact ⟨.typed (Or.inr (Or.inl rfl)), by simp⟩
    · subst listed head
      exact ⟨.typed (Or.inr (Or.inr rfl)), by simp⟩
  | del key' =>
    simp [probeReplies] at listed head
    subst listed head
    exact ⟨.del, fun _ => rfl⟩
  | expire key' read positive =>
    simp [probeReplies] at listed head
    subst listed head
    exact ⟨.expire _, by simp⟩
  | ttl key' =>
    simp [probeReplies] at listed head
    subst listed head
    exact ⟨.ttl, by simp⟩
  | _ => simp [probeReplies] at listed

private theorem hashReply_ne {fields : Dict String String} (some_field : 0 < fields.size) :
    hashReply fields ≠ .map [] := by
  intro reply
  have length : (sortedItems fields).length = fields.size := List.length_insertionSort _ _
  have none_left : sortedItems fields = [] := by simpa [hashReply] using reply
  rw [none_left, List.length_nil] at length
  omega

private theorem membersReply_ne {members : Finset String} (some_member : 0 < members.card) :
    blobArray (sortedMembers members) ≠ .array [] := by
  intro reply
  have length : (sortedMembers members).length = members.card := Finset.length_sort _
  have none_left : sortedMembers members = [] := by simpa [blobArray] using reply
  rw [none_left, List.length_nil] at length
  omega

private theorem onEntry_ne_absentReply {op : TypedOp}
    (listed : op = .get ∨ op = .hgetall ∨ op = .smembers) {entry : ValueEntry}
    (typed : entry.valueType = op.valueType) (some_element : 0 < entry.elementCount) :
    (op.onEntry entry).1 ≠ op.absentReply := by
  rcases listed with rfl | rfl | rfl
  · exact fun reply => by cases reply
  · cases entry with
    | hash fields => exact hashReply_ne some_element
    | _ => cases typed
  · cases entry with
    | set members => exact membersReply_ne some_element
    | _ => cases typed

private theorem performTyped_shows {op : TypedOp}
    (listed : op = .get ∨ op = .hgetall ∨ op = .smembers) {key : String} {s : CommandService}
    (filled : Filled s) (replied : (performTyped key op s).1 = .ok op.absentReply) :
    (performTyped key op s).2.store.get? key = none := by
  have looks : op.emptyContainer = none := by
    rcases listed with rfl | rfl | rfl <;> rfl
  have purged : Filled (purgeIfExpired key s).2 :=
    filled.of_shrunk (purgeIfExpired_removals key s).shrunk
  unfold performTyped at replied ⊢
  dsimp only at replied ⊢
  rw [looks] at replied ⊢
  cases found : (purgeIfExpired key s).2.store.get? key with
  | none => exact found
  | some entry =>
    rw [found] at replied
    dsimp only at replied
    split at replied
    · cases replied
    · rename_i typed
      have same : (op.onEntry entry).1 = op.absentReply := Except.ok.inj replied
      exact (onEntry_ne_absentReply listed (not_not.mp typed) (purged key entry found) same).elim

private theorem del_absent (key : String) (s : CommandService) :
    (perform (.del key) s).2.store.get? key = none := by
  rw [perform_del]
  split
  · assumption
  · exact Dict.get?_erase_self _ _

private theorem IsProbe.shows {key : String} {op : Operation} {reply : RespValue}
    (probe : IsProbe key op reply) {s : CommandService} (filled : Filled s)
    (replied : (perform op s).1 = .ok reply) : (perform op s).2.store.get? key = none := by
  cases probe with
  | typed listed => exact performTyped_shows listed filled replied
  | ttl =>
    have absent := (ttl_absent_iff key s).mp replied
    rw [← purgeIfExpired_store] at absent
    rw [perform_ttl, if_pos absent]
    exact absent
  | expire seconds =>
    rw [perform_expire] at replied ⊢
    split
    · assumption
    · rw [if_neg ‹_›] at replied
      simp at replied
  | del => exact del_absent key s

private theorem IsProbe.reply_of_absent {key : String} {op : Operation} {reply : RespValue}
    (probe : IsProbe key op reply) {s : CommandService} (absent : s.store.get? key = none) :
    (perform op s).1 = .ok reply := by
  have purged : (purgeIfExpired key s).2.store.get? key = none := by
    rw [purgeIfExpired_store, liveEntry, absent, ite_self]
  cases probe with
  | typed listed =>
    have looks : ∀ op : TypedOp, op = .get ∨ op = .hgetall ∨ op = .smembers →
        op.emptyContainer = none := by
      rintro op (rfl | rfl | rfl) <;> rfl
    simp only [perform, performTyped, purged, looks _ listed]
  | ttl => rw [perform_ttl, if_pos purged]
  | expire seconds => rw [perform_expire, if_pos purged]
  | del => rw [perform_del, if_pos purged]

private theorem Shrunk.absent {s s' : CommandService} (shrunk : Shrunk s s') {key : String}
    (absent : s.store.get? key = none) : s'.store.get? key = none := by
  rw [Option.eq_none_iff_forall_ne_some] at absent ⊢
  exact fun entry found => absent entry (shrunk.store key entry found)

private theorem finish_absent (op : TypedOp) {key key' : String} (apart : key ≠ key')
    (entry : ValueEntry) {s : CommandService} (absent : s.store.get? key = none) :
    (op.finish key' entry s).2.store.get? key = none := by
  have updated : ((op.onEntry entry).2.apply key' s).store.get? key = none := by
    cases (op.onEntry entry).2 with
    | keep => exact absent
    | put stored => simpa [EntryUpdate.apply, mutateEntry, Dict.get?_set, apart] using absent
    | remove => exact (deleteEntryAndTtl_removals key' s).shrunk.absent absent
  unfold TypedOp.finish
  dsimp only
  split
  · refine (ensureMaxMemory_removals [key'] _).shrunk.absent ?_
    simpa using updated
  · exact updated

private theorem performTyped_absent {op : TypedOp} {key key' : String} {s : CommandService}
    (absent : s.store.get? key = none) (not_created : op.grows = true → key ≠ key') :
    (performTyped key' op s).2.store.get? key = none := by
  have purged := (purgeIfExpired_removals key' s).shrunk.absent absent
  unfold performTyped
  dsimp only
  split
  · split
    · exact purged
    · rename_i container created
      have apart := not_created (by rw [TypedOp.grows, created, Option.isSome_some])
      refine finish_absent op apart container ?_
      rw [storeEntry_store, Dict.get?_set, if_neg apart]
      exact purged
  · rename_i entry found
    have apart : key ≠ key' := by
      rintro rfl
      rw [purged] at found
      cases found
    have touched : (touchKey key' (purgeIfExpired key' s).2).store.get? key = none := by
      simpa using purged
    split
    · exact touched
    · exact finish_absent op apart entry touched

private theorem perform_absent {command : Command} {op : Operation} (denotes : Denotes command op)
    {key : String} {s : CommandService} (absent : s.store.get? key = none)
    (not_created : ¬ (command.name ∈ "SET" :: growingCommands ∧ command.arguments.head? = some key)) :
    (perform op s).2.store.get? key = none := by
  cases denotes with
  | set key' value =>
    have apart : key ≠ key' := fun same => not_created ⟨List.mem_cons_self, by rw [same]; rfl⟩
    refine (ensureMaxMemory_removals [key'] _).shrunk.absent ?_
    simpa [setServiceExecute, Dict.get?_set, apart] using absent
  | typed key' denotes =>
    refine performTyped_absent absent (fun grows same => not_created ⟨?_, by rw [same]; rfl⟩)
    exact List.mem_cons_of_mem _ (denotes.listed.2.mpr grows)
  | _ =>
    rw [Option.eq_none_iff_forall_ne_some] at absent ⊢
    exact fun entry found => absent entry (perform_store_sub (by simp) (by simp) found)

private theorem step_absent {event : Event} (accepted : event.Accepted) {key : String}
    {s : CommandService} (absent : s.store.get? key = none) (not_created : ¬ event.Creates key) :
    (event.step s).store.get? key = none := by
  cases event with
  | command readings request =>
    obtain ⟨op, denotes⟩ := accepted_denotes accepted
    simp only [Event.step, execute_denotes denotes]
    exact perform_absent (s := { s with clock := readings }) denotes absent not_created
  | sweep readings batchSize =>
    exact (sweepOnce_removals batchSize { s with clock := readings }).shrunk.absent absent

private theorem run_absent {events : List Event} (accepted : ∀ event ∈ events, event.Accepted)
    {key : String} (not_created : ∀ event ∈ events, ¬ event.Creates key) {s : CommandService}
    (absent : s.store.get? key = none) : (run events s).store.get? key = none := by
  induction events generalizing s with
  | nil => exact absent
  | cons event events ih =>
    exact ih (fun later member => accepted later (List.mem_cons_of_mem _ member))
      (fun later member => not_created later (List.mem_cons_of_mem _ member))
      (step_absent (accepted event List.mem_cons_self) absent (not_created event List.mem_cons_self))

private theorem step_of_shown {s : CommandService} (reached : Reachable s) {key : String}
    {event : Event} (accepted : event.Accepted) (shown : ShowsAbsent key s event) :
    (event.step s).store.get? key = none := by
  cases event with
  | command readings request =>
    obtain ⟨head, reply, listed, shown⟩ := shown
    obtain ⟨op, denotes⟩ := accepted_denotes accepted
    obtain ⟨probe, del⟩ := denotes.isProbe head listed
    rw [execute_denotes denotes] at shown
    simp only [Event.step, execute_denotes denotes]
    rcases shown with name | replied
    · rw [del name]
      exact del_absent key _
    · exact probe.shows reached.filled replied
  | sweep readings batchSize => exact shown.2

/-- Once a key was shown absent, every probe of it is answered so until a command creates it,
whatever the clock does in between. -/
theorem absence_lasts {s : CommandService} (reached : Reachable s) {key : String} {first : Event}
    (accepted : first.Accepted) (shown : ShowsAbsent key s first) {middle : List Event}
    (all_accepted : ∀ event ∈ middle, event.Accepted)
    (not_created : ∀ event ∈ middle, ¬ event.Creates key) :
    let later := run middle (first.step s)
    later.store.get? key = none ∧ later.ttl.get? key = none ∧
    ∀ (readings : ℕ → ℚ) (request : Command) (reply : RespValue), validate request = .ok () →
      request.arguments.head? = some key → (request.name, reply) ∈ probeReplies →
      ((execute request).exec { later with clock := readings }).1 = .ok reply := by
  intro later
  have absent : later.store.get? key = none :=
    run_absent all_accepted not_created (step_of_shown reached accepted shown)
  have consistent : Consistent later :=
    ((reached.step accepted).run all_accepted).consistent
  refine ⟨absent, consistent.noOrphan key absent, fun readings request reply valid head listed => ?_⟩
  obtain ⟨op, denotes⟩ := accepted_denotes valid
  rw [execute_denotes denotes]
  exact (denotes.isProbe head listed).1.reply_of_absent (s := { later with clock := readings }) absent

private def fleetingKey : CommandService :=
  run [.command (fun _ => 0) ⟨"SET", ["k", "v"]⟩, .command (fun _ => 0) ⟨"EXPIRE", ["k", "1"]⟩]
    (CommandService.init (fun _ => 0) none)

private theorem fleetingKey_reachable : Reachable fleetingKey := by
  refine Reachable.run (.init _ none) ?_
  intro event member
  simp only [List.mem_cons, List.not_mem_nil, or_false] at member
  rcases member with rfl | rfl <;>
  · unfold Event.Accepted
    decide +kernel

/-- The clock falls back to before the deadline, and the key stays away. -/
theorem expired_key_not_revived :
    ((execute ⟨"TTL", ["k"]⟩).exec
      { run [.command (fun _ => 0) ⟨"SADD", ["other", "m"]⟩]
          (Event.step (.command (fun _ => 5) ⟨"GET", ["k"]⟩) fleetingKey) with
        clock := fun _ => 0 }).1 = .ok (.number (-2)) := by
  have gone : (purgeIfExpired "k" { fleetingKey with clock := fun _ => 5 }).2.store.get? "k" =
      none := by decide +kernel
  have shown : ShowsAbsent "k" fleetingKey (.command (fun _ => 5) ⟨"GET", ["k"]⟩) := by
    refine ⟨rfl, .null, by simp [probeReplies], Or.inr ?_⟩
    rw [execute_typed .get]
    simp only [performTyped, gone]
    rfl
  have accepted : (Event.command (fun _ => 5) ⟨"GET", ["k"]⟩).Accepted := by
    unfold Event.Accepted
    decide +kernel
  refine (absence_lasts fleetingKey_reachable accepted shown ?_ ?_).2.2 (fun _ => 0)
    ⟨"TTL", ["k"]⟩ (.number (-2)) (by decide +kernel) rfl (by simp [probeReplies])
  · intro event member
    rw [List.mem_singleton.mp member]
    unfold Event.Accepted
    decide +kernel
  · intro event member
    rw [List.mem_singleton.mp member]
    unfold Event.Creates
    decide

end MiniRedis.Service
