/- GID: MiniRedis/Service/LruStore
   generality: I
   digest: The server refines a cache in the order of last use with a deadline on every entry. -/

import MiniRedis.Base.LruCache
import MiniRedis.Service.Containers

set_option autoImplicit false
set_option relaxedAutoImplicit false

namespace MiniRedis.Service

open MiniRedis.Base MiniRedis.Python MiniRedis.Protocol MiniRedis.Commands

/-! ### What a command asks for -/

/-- The typed operation that a name asks for, with the arguments after the key. -/
def typedOperation (name : String) (rest : List String) : Option TypedOp :=
  match name, rest with
  | "GET", [] => some .get
  | "HSET", [field, value] => some (.hset field value)
  | "HGET", [field] => some (.hget field)
  | "HDEL", [field] => some (.hdel field)
  | "HGETALL", [] => some .hgetall
  | "LPUSH", value :: values => some (.lpush (value :: values))
  | "RPUSH", value :: values => some (.rpush (value :: values))
  | "LPOP", [] => some .lpop
  | "RPOP", [] => some .rpop
  | "LRANGE", [a, b] => (parseInt a).bind fun start => (parseInt b).map (.lrange start)
  | "SADD", member :: members => some (.sadd (member :: members))
  | "SREM", member :: members => some (.srem (member :: members))
  | "SMEMBERS", [] => some .smembers
  | "SISMEMBER", [member] => some (.sismember member)
  | "ZADD", arguments => (readPairs arguments).map .zadd
  | "ZREM", member :: members => some (.zrem (member :: members))
  | "ZRANGE", [a, b] => (parseInt a).bind fun start => (parseInt b).map (.zrange start)
  | "ZSCORE", [member] => some (.zscore member)
  | _, _ => none

theorem DenotesTyped.typedOperation_eq {name : String} {rest : List String} {op : TypedOp}
    (denotes : DenotesTyped name rest op) : typedOperation name rest = some op := by
  cases denotes with
  | lrange first last | zrange first last => simp [typedOperation, first, last]
  | zadd read => simp [typedOperation, read]
  | _ => rfl

/-- The operation that a valid command asks for. -/
def operationOf (command : Command) : Option Operation :=
  match command.name, command.arguments with
  | "AUTH", [_] => some (.reply (reject ERR_UNSUPPORTED_AUTH))
  | "HELLO", [_] => some (.reply (reject ERR_UNSUPPORTED_COMMAND))
  | "PING", [] => some (.reply (.ok (.simpleString "PONG")))
  | "PING", [message] => some (.reply (.ok (.blobString message)))
  | "SELECT", [_] | "CLIENT", _ :: _ => some (.reply (.ok (.simpleString "OK")))
  | "SET", [key, value] => some (.set key value)
  | "DEL", [key] => some (.del key)
  | "EXPIRE", [key, text] => (parseFloat text).map (.expire key)
  | "TTL", [key] => some (.ttl key)
  | "DBSIZE", [] => some .dbsize
  | "FLUSHDB", [] => some .flushdb
  | "INFO", [] => some .info
  | "INFO", [domain] =>
    if upper domain ∈ ["ALL", "MEMORY"] then some .info
    else some (.reply (reject ERR_UNSUPPORTED_COMMAND))
  | "CONFIG", subcommand :: parameter :: rest =>
    if lower parameter ≠ "maxmemory" then some (.reply (reject ERR_UNSUPPORTED_COMMAND))
    else if upper subcommand = "GET" then some .configGet
    else rest.head?.bind fun text => (parseInt text).map fun value => .configSet value.toNat
  | name, key :: rest => (typedOperation name rest).map (.typed key)
  | _, _ => none

theorem Denotes.operationOf_eq {command : Command} {op : Operation} (denotes : Denotes command op) :
    operationOf command = some op := by
  cases denotes with
  | expire key read positive => simp [operationOf, read]
  | infoSection known | infoOther known => simp [operationOf, known]
  | configOther subcommand rest unknown => simp [operationOf, unknown]
  | configGet get known => simp [operationOf, get, known]
  | configSet set known read => simp [operationOf, set, known, read]
  | typed key denotes =>
    have typed := denotes.typedOperation_eq
    cases denotes <;> simp_all [operationOf]
  | _ => rfl

/-! ### What the server is for -/

/-- A live value with its deadline. -/
abbrev Slot := ValueEntry × Option PyFloat

/-- The live values in the order of their last use. -/
abbrev LruStore := LruCache String Slot

namespace LruStore

def slotBytes (key : String) (slot : Slot) : ℕ := estimateEntryBytes key slot.1

def limitOf (maxMemoryBytes : Option ℕ+) : Option ℕ := maxMemoryBytes.map PNat.val

def init (maxMemoryBytes : Option ℤ) : LruStore :=
  ⟨Dict.empty, limitOf (normalizeMaxMemoryBytes maxMemoryBytes), 0⟩

/-- A slot whose deadline is over. -/
def due (t : ℚ) (slot : Slot) : Bool := slot.2.any (·.leRat t)

def expire (t : ℚ) (c : LruStore) : LruStore := c.keep (fun _ slot => !due t slot)

def report (c : LruStore) : String :=
  "# Memory\r\nused_memory:" ++ toString (c.items.sumBy slotBytes) ++
    "\r\nmaxmemory:" ++ toString (c.limit.getD 0) ++
    "\r\nkeys:" ++ toString c.items.size ++
    "\r\nevicted_keys:" ++ toString c.evicted

/-- A typed operation uses the slot it finds, whatever its type; a value that grew is the most
recent one when the cache is trimmed. -/
def performTyped (key : String) (op : TypedOp) (c : LruStore) :
    Except PyException RespValue × LruStore :=
  match c.items.get? key with
  | none =>
    match op.left none with
    | none => (op.reply none, c)
    | some entry => (op.reply none, (c.put key (entry, none)).trim slotBytes)
  | some (entry, deadline) =>
    if entry.valueType ≠ op.valueType then
      (.error (.commandError ERR_WRONG_TYPE), c.put key (entry, deadline))
    else
      match op.left (some entry) with
      | none => (op.reply (some entry), c.remove key)
      | some changed =>
        let c := c.put key (changed, deadline)
        (op.reply (some entry), if op.grows then c.trim slotBytes else c)

/-- What an operation at time `t` answers and leaves, where nothing in the cache is due. -/
def perform (t : ℚ) : Operation → LruStore → Except PyException RespValue × LruStore
  | .reply outcome, c => (outcome, c)
  | .set key value, c =>
    (.ok (.simpleString RESP_OK), (c.put key (.string value, none)).trim slotBytes)
  | .del key, c => (.ok (.number (if c.items.get? key = none then 0 else 1)), c.remove key)
  | .expire key seconds, c =>
    match c.items.get? key with
    | none => (.ok (.number 0), c)
    | some slot => (.ok (.number 1), c.put key (slot.1, some (calculateExpiresAt t seconds)))
  | .ttl key, c =>
    match c.items.get? key with
    | none => (.ok (.number (-2)), c)
    | some (_, none) => (.ok (.number (-1)), c)
    | some (_, some deadline) => ((calculateRemainingSeconds t deadline).map .number, c)
  | .dbsize, c => (.ok (.number c.items.size), c)
  | .flushdb, c => (.ok (.simpleString RESP_OK), c.clear)
  | .info, c => (.ok (.blobString c.report), c)
  | .configGet, c =>
    (.ok (.array [.blobString "maxmemory", .blobString (toString (c.limit.getD 0))]), c)
  | .configSet value, c =>
    (.ok (.simpleString RESP_OK),
      { c with limit := limitOf (normalizeMaxMemoryBytes (some (value : ℤ))) }.trim slotBytes)
  | .typed key op, c => performTyped key op c

/-- A valid command finds nothing that is due. -/
def execute (t : ℚ) (command : Command) (c : LruStore) : Except PyException RespValue × LruStore :=
  match operationOf command with
  | none => (reject ERR_UNSUPPORTED_COMMAND, c)
  | some op => perform t op (c.expire t)

/-- The outcomes of commands at their times, and the cache they leave. -/
def run : List (ℚ × Command) → LruStore → List (Except PyException RespValue) × LruStore
  | [], c => ([], c)
  | (t, command) :: rest, c =>
    let result := execute t command c
    let later := run rest result.2
    (result.1 :: later.1, later.2)

theorem execute_denotes {command : Command} {op : Operation} (denotes : Denotes command op) (t : ℚ)
    (c : LruStore) : execute t command c = perform t op (c.expire t) := by
  rw [execute, denotes.operationOf_eq]

end LruStore

/-! ### The tables behind it -/

/-- The server's tables show at time `t` what the cache holds; the stamps give its order. -/
structure Represents (t : ℚ) (s : CommandService) (c : LruStore) : Prop where
  slot : ∀ key, c.items.get? key =
    (liveEntry t s key).map (fun entry => (entry, liveDeadline t s key))
  order : c.items.keys.Pairwise (fun a b => lastAccess s a < lastAccess s b)
  limit : c.limit = LruStore.limitOf s.maxMemoryBytes
  evicted : c.evicted = s.evictedKeys

namespace Represents

variable {t : ℚ} {s r : CommandService} {c : LruStore} {key : String}

theorem live_iff (represents : Represents t s c) (key : String) :
    key ∈ c.items.keys ↔ liveEntry t s key ≠ none := by
  rw [← not_iff_not, ← Dict.get?_eq_none_iff, represents.slot, Option.map_eq_none_iff, not_not]

theorem entry (represents : Represents t s c) (key : String) :
    (c.items.get? key).map Prod.fst = liveEntry t s key := by
  simp [represents.slot, Function.comp_def]

private theorem expire_expire {t t' : ℚ} (le : t ≤ t') (c : LruStore) :
    (c.expire t).expire t' = c.expire t' := by
  refine congrArg (fun items : Dict String Slot => { c with items := items }) (Dict.ext ?_)
  refine (List.filter_filter ..).trans (List.filter_congr (fun entry _ => ?_))
  have still : LruStore.due t entry.2 = true → LruStore.due t' entry.2 = true := by
    rw [LruStore.due, LruStore.due]
    cases entry.2.2 with
    | none => exact id
    | some deadline => exact PyFloat.leRat_mono le
  cases isDue : LruStore.due t entry.2 <;> simp_all

private theorem nothing_due (represents : Represents t s c) : c.expire t = c := by
  refine congrArg (fun items : Dict String Slot => { c with items := items }) (Dict.ext ?_)
  refine List.filter_eq_self.mpr (fun entry member => ?_)
  have held := (Dict.get?_eq_some_iff c.items entry.1 entry.2).mpr member
  rw [represents.slot, Option.map_eq_some_iff] at held
  obtain ⟨value, -, slot⟩ := held
  have lasting : (liveDeadline t s entry.1).any (·.leRat t) = false := by
    cases now : expiredAt t s entry.1 with
    | true => simp [liveDeadline, now]
    | false => rwa [liveDeadline, now]
  rw [← slot]
  exact congrArg not lasting

theorem init (t : ℚ) (clock : ℕ → ℚ) (maxMemoryBytes : Option ℤ) :
    Represents t (CommandService.init clock maxMemoryBytes) (LruStore.init maxMemoryBytes) where
  slot key := by
    unfold liveEntry
    split <;> rfl
  order := List.Pairwise.nil
  limit := rfl
  evicted := rfl

theorem swept (represents : Represents t s c) (swept : Swept t s r) : Represents t r c := by
  have same := swept.liveEq
  refine ⟨fun key => ?_, ?_, ?_, ?_⟩
  · rw [represents.slot, same.entry, same.deadline]
  · refine represents.order.imp_of_mem (fun {a b} first second earlier => ?_)
    rw [lastAccess, lastAccess, ← same.stamp a ((represents.live_iff a).mp first),
      ← same.stamp b ((represents.live_iff b).mp second)]
    exact earlier
  · rw [represents.limit, same.maxMemoryBytes]
  · rw [represents.evicted, same.evictedKeys]

theorem later {t' : ℚ} (represents : Represents t s c) (le : t ≤ t') :
    Represents t' s (c.expire t') := by
  refine ⟨fun key => ?_, ?_, represents.limit, represents.evicted⟩
  · obtain ⟨entry, deadline⟩ := live_later le s key
    rw [entry, deadline, LruStore.expire, LruCache.keep, Dict.get?_filter, represents.slot]
    cases liveEntry t s key with
    | none => simp
    | some entry =>
      by_cases isDue : (liveDeadline t s key).any (·.leRat t') = true <;>
        simp [LruStore.due, isDue]
  · exact represents.order.sublist (Dict.keys_filter_sublist _ _)

private theorem live_congr (store : r.store.get? key = s.store.get? key)
    (ttl : r.ttl.get? key = s.ttl.get? key) :
    liveEntry t r key = liveEntry t s key ∧ liveDeadline t r key = liveDeadline t s key := by
  rw [liveEntry, liveDeadline, expiredAt_congr ttl, store, ttl]
  exact ⟨rfl, rfl⟩

private theorem lastAccess_congr (stamp : r.accessOrder.get? key = s.accessOrder.get? key) :
    lastAccess r key = lastAccess s key := by
  rw [lastAccess, lastAccess, stamp]

theorem renewed (represents : Represents t s c) (consistent : Consistent s)
    (frame : SameElsewhere key s r) {entry : ValueEntry} {deadline : Option PyFloat}
    (live : liveEntry t r key = some entry) (kept : liveDeadline t r key = deadline)
    (fresh : s.accessClock < lastAccess r key) (maxMemoryBytes : r.maxMemoryBytes = s.maxMemoryBytes)
    (evictedKeys : r.evictedKeys = s.evictedKeys) : Represents t r (c.put key (entry, deadline)) := by
  have bound : ∀ other, lastAccess s other ≤ s.accessClock := by
    intro other
    rw [lastAccess]
    cases stamp : s.accessOrder.get? other with
    | none => exact Nat.zero_le _
    | some n => exact consistent.stamp_le other n stamp
  refine ⟨fun other => ?_, ?_, ?_, ?_⟩
  · rw [LruCache.put, Dict.get?_renew]
    split_ifs with same
    · rw [same, live, kept]
      rfl
    · obtain ⟨store, ttl, -⟩ := frame other same
      obtain ⟨seen, dated⟩ := live_congr (t := t) store ttl
      rw [seen, dated, represents.slot]
  · rw [LruCache.put, Dict.keys_renew, List.pairwise_append]
    refine ⟨?_, List.pairwise_singleton _ _, ?_⟩
    · refine (represents.order.sublist List.filter_sublist).imp_of_mem
        (fun {a b} first second earlier => ?_)
      have apart : a ≠ key := of_decide_eq_true (List.mem_filter.mp first).2
      have apart' : b ≠ key := of_decide_eq_true (List.mem_filter.mp second).2
      rw [lastAccess_congr (frame a apart).2.2, lastAccess_congr (frame b apart').2.2]
      exact earlier
    · intro a member b last
      have apart : a ≠ key := of_decide_eq_true (List.mem_filter.mp member).2
      rw [List.mem_singleton.mp last, lastAccess_congr (frame a apart).2.2]
      exact (bound a).trans_lt fresh
  · rw [maxMemoryBytes]
    exact represents.limit
  · rw [evictedKeys]
    exact represents.evicted

theorem rewritten {slot : Slot} (represents : Represents t s (c.put key slot))
    (frame : SameElsewhere key s r) {entry : ValueEntry} {deadline : Option PyFloat}
    (live : liveEntry t r key = some entry) (kept : liveDeadline t r key = deadline)
    (stamp : r.accessOrder = s.accessOrder) (maxMemoryBytes : r.maxMemoryBytes = s.maxMemoryBytes)
    (evictedKeys : r.evictedKeys = s.evictedKeys) : Represents t r (c.put key (entry, deadline)) := by
  refine ⟨fun other => ?_, ?_, ?_, ?_⟩
  · have before := represents.slot other
    rw [LruCache.put, Dict.get?_renew] at before ⊢
    split_ifs at before ⊢ with same
    · rw [same, live, kept]
      rfl
    · obtain ⟨store, ttl, -⟩ := frame other same
      obtain ⟨seen, dated⟩ := live_congr (t := t) store ttl
      rw [seen, dated, before]
  · have before := represents.order
    rw [LruCache.put, Dict.keys_renew] at before ⊢
    exact before.imp (fun {a b} earlier => by rwa [lastAccess, lastAccess, stamp])
  · rw [maxMemoryBytes]
    exact represents.limit
  · rw [evictedKeys]
    exact represents.evicted

theorem removed (represents : Represents t s c) (frame : SameElsewhere key s r)
    (gone : liveEntry t r key = none) (maxMemoryBytes : r.maxMemoryBytes = s.maxMemoryBytes)
    (evictedKeys : r.evictedKeys = s.evictedKeys) : Represents t r (c.remove key) := by
  refine ⟨fun other => ?_, ?_, ?_, ?_⟩
  · rw [LruCache.remove, Dict.get?_erase]
    split_ifs with same
    · rw [same, gone]
      rfl
    · obtain ⟨store, ttl, -⟩ := frame other same
      obtain ⟨seen, dated⟩ := live_congr (t := t) store ttl
      rw [seen, dated, represents.slot]
  · rw [LruCache.remove, Dict.keys_erase]
    refine (represents.order.sublist List.filter_sublist).imp_of_mem
      (fun {a b} first second earlier => ?_)
    have apart : a ≠ key := of_decide_eq_true (List.mem_filter.mp first).2
    have apart' : b ≠ key := of_decide_eq_true (List.mem_filter.mp second).2
    rw [lastAccess_congr (frame a apart).2.2, lastAccess_congr (frame b apart').2.2]
    exact earlier
  · rw [maxMemoryBytes]
    exact represents.limit
  · rw [evictedKeys]
    exact represents.evicted

/-! ### Enforcement is a trim -/

private theorem sizes_eq (represents : Represents t s c) :
    c.items.entries.map (fun e => LruStore.slotBytes e.1 e.2) = c.items.keys.map (liveBytes t s) := by
  rw [Dict.map_entries_eq]
  apply List.map_congr_left
  intro key _
  rw [represents.slot, liveBytes]
  cases liveEntry t s key <;> rfl

private theorem dropped (represents : Represents t s c) {cut : ℕ}
    (tables : ∀ key,
      r.store.get? key = (if key ∈ c.items.keys.take cut then none else liveEntry t s key) ∧
      r.ttl.get? key = (if key ∈ c.items.keys.take cut then none else liveDeadline t s key))
    (kept : ∀ key, Kept s r key) (maxMemoryBytes : r.maxMemoryBytes = s.maxMemoryBytes)
    (evictedKeys : r.evictedKeys = s.evictedKeys + cut) :
    Represents t r { c with items := c.items.drop cut, evicted := c.evicted + cut } := by
  have settled : ∀ key, expiredAt t r key = false := by
    intro key
    rw [expiredAt, (tables key).2]
    split
    · rfl
    · rw [liveDeadline]
      cases expired : expiredAt t s key with
      | true => rfl
      | false => exact expired
  have seen : ∀ key, liveEntry t r key = r.store.get? key ∧ liveDeadline t r key = r.ttl.get? key := by
    intro key
    rw [liveEntry, liveDeadline, settled key]
    exact ⟨rfl, rfl⟩
  have slot : ∀ key, (c.items.drop cut).get? key =
      (liveEntry t r key).map (fun entry => (entry, liveDeadline t r key)) := by
    intro key
    rw [Dict.get?_drop, (seen key).1, (seen key).2, (tables key).1, (tables key).2, represents.slot]
    split <;> rfl
  refine ⟨slot, ?_, ?_, ?_⟩
  · have left : ∀ key ∈ (c.items.drop cut).keys, lastAccess r key = lastAccess s key := by
      intro key member
      obtain ⟨found, held⟩ := (Dict.mem_keys_iff _ key).mp member
      refine lastAccess_congr (kept key ?_).2
      intro absent
      rw [slot, (seen key).1, absent] at held
      cases held
    rw [Dict.keys_drop] at left ⊢
    refine (represents.order.sublist (List.drop_sublist _ _)).imp_of_mem
      (fun {a b} first second earlier => ?_)
    rw [left a first, left b second]
    exact earlier
  · rw [maxMemoryBytes]
    exact represents.limit
  · rw [evictedKeys, ← represents.evicted]

private theorem enforced (represents : Represents t s c) (consistent : Consistent s)
    (protectedKeys : List String) {maxMemory : ℕ+}
    (limited : s.maxMemoryBytes = some maxMemory)
    (enforces : ∀ cut, cut = shortestCut 0 maxMemory (c.items.keys.map (liveBytes t s)) →
      (∀ key,
        (ensureMaxMemory protectedKeys s).store.get? key =
          (if key ∈ c.items.keys.take cut then none else liveEntry t s key) ∧
        (ensureMaxMemory protectedKeys s).ttl.get? key =
          (if key ∈ c.items.keys.take cut then none else liveDeadline t s key)) ∧
      (ensureMaxMemory protectedKeys s).evictedKeys = s.evictedKeys + cut) :
    Represents t (ensureMaxMemory protectedKeys s) (c.trim LruStore.slotBytes) := by
  have removals := ensureMaxMemory_removals protectedKeys s
  obtain ⟨tables, counted⟩ := enforces _ rfl
  have limit : c.limit = some (maxMemory : ℕ) := by
    rw [represents.limit, limited]
    rfl
  have trim : c.trim LruStore.slotBytes =
      { c with
        items := c.items.drop (shortestCut 0 maxMemory (c.items.keys.map (liveBytes t s)))
        evicted := c.evicted + shortestCut 0 maxMemory (c.items.keys.map (liveBytes t s)) } := by
    unfold LruCache.trim
    rw [represents.sizes_eq]
    split
    · rename_i unlimited
      rw [unlimited] at limit
      cases limit
    · rename_i maxMemory' limited'
      rw [limit] at limited'
      cases limited'
      rfl
  rw [trim]
  exact represents.dropped tables (Kept.of_removals consistent removals)
    removals.shrunk.maxMemoryBytes counted

/-- Enforcement that protects the key used last is a trim: the order alone protects it. -/
theorem trimmed (represents : Represents t s c) (moment : AtTime t s) (consistent : Consistent s)
    (last : ∃ others, c.items.keys = others ++ [key]) :
    Represents t (ensureMaxMemory [key] s) (c.trim LruStore.slotBytes) := by
  obtain ⟨others, last⟩ := last
  cases limited : s.maxMemoryBytes with
  | none =>
    rw [ensureMaxMemory_of_unlimited limited, LruCache.trim_of_unlimited]
    · exact represents
    · rw [represents.limit, limited]
      rfl
  | some maxMemory =>
    have live : liveEntry t s key ≠ none := (represents.live_iff key).mp (by simp [last])
    obtain ⟨entry, found⟩ := Option.ne_none_iff_exists'.mp live
    have nodup : (others ++ [key]).Nodup := last ▸ c.items.nodup
    have fresh : key ∉ others := fun member =>
      List.disjoint_of_nodup_append nodup member (List.mem_singleton_self key)
    have listed : StampOrder t [key] s others := by
      refine ⟨fun other => ?_, (last ▸ represents.order).sublist (List.sublist_append_left _ _)⟩
      have member := represents.live_iff other
      rw [last, List.mem_append, List.mem_singleton] at member
      rw [List.mem_singleton, ← member]
      constructor
      · exact fun inside => ⟨Or.inl inside, fun same => fresh (same ▸ inside)⟩
      · exact fun ⟨inside, apart⟩ => inside.resolve_right apart
    have own : liveBytes t s key = estimateEntryBytes key entry := by rw [liveBytes, found]; rfl
    refine represents.enforced consistent [key] limited (fun cut cut_eq => ?_)
    rw [last, List.map_append, List.map_singleton, own] at cut_eq
    by_cases fits : estimateEntryBytes key entry ≤ maxMemory
    · rw [shortestCut_append_of_le fits] at cut_eq
      subst cut_eq
      have short : shortestCut (estimateEntryBytes key entry) maxMemory (others.map (liveBytes t s)) ≤
          others.length := by
        simpa using shortestCut_le_length (estimateEntryBytes key entry) maxMemory
          (others.map (liveBytes t s))
      obtain ⟨tables, counted⟩ := listed.ensureMaxMemory_fits moment limited
        (listed.memory_beside moment found) fits
      rw [last, List.take_append_of_le_length short]
      rw [List.length_take, min_eq_left short] at counted
      exact ⟨tables, counted⟩
    · have exceeds := not_le.mp fits
      rw [shortestCut_append_of_lt exceeds, List.length_map] at cut_eq
      subst cut_eq
      obtain ⟨tables, counted⟩ :=
        listed.ensureMaxMemory_exceeds moment consistent limited found exceeds
      have all : c.items.keys.take (others.length + 1) = c.items.keys := by
        rw [last]
        exact List.take_of_length_le (by simp)
      refine ⟨fun other => ?_, counted⟩
      rw [all, (tables other).1, (tables other).2]
      split_ifs with member
      · exact ⟨rfl, rfl⟩
      · have absent : liveEntry t s other = none := by
          rw [represents.live_iff] at member
          exact not_not.mp member
        exact ⟨absent.symm, (consistent.liveDeadline_eq_none absent).symm⟩

theorem trimmed_all (represents : Represents t s c) (moment : AtTime t s)
    (consistent : Consistent s) :
    Represents t (ensureMaxMemory [] s) (c.trim LruStore.slotBytes) := by
  cases limited : s.maxMemoryBytes with
  | none =>
    rw [ensureMaxMemory_of_unlimited limited, LruCache.trim_of_unlimited]
    · exact represents
    · rw [represents.limit, limited]
      rfl
  | some maxMemory =>
    have listed : StampOrder t [] s c.items.keys :=
      ⟨fun key => by simp [represents.live_iff key], represents.order⟩
    refine represents.enforced consistent [] limited (fun cut cut_eq => ?_)
    subst cut_eq
    have short : shortestCut 0 maxMemory (c.items.keys.map (liveBytes t s)) ≤ c.items.keys.length := by
      simpa using shortestCut_le_length 0 maxMemory (c.items.keys.map (liveBytes t s))
    obtain ⟨tables, counted⟩ := listed.ensureMaxMemory_fits moment limited
      (listed.memory_all moment) (Nat.zero_le _)
    rw [List.length_take, min_eq_left short] at counted
    exact ⟨tables, counted⟩

/-! ### Operations -/

private theorem purged_key (moment : AtTime t s) (key : String) :
    liveEntry t (purgeIfExpired key s).2 key = (purgeIfExpired key s).2.store.get? key ∧
      liveDeadline t (purgeIfExpired key s).2 key = (purgeIfExpired key s).2.ttl.get? key := by
  rw [liveEntry, liveDeadline, moment.settled key]
  exact ⟨rfl, rfl⟩

private theorem touched_last (stored : s.store.get? key ≠ none) :
    s.accessClock < lastAccess (touchKey key s) key := by
  rw [lastAccess, touchKey, if_neg stored]
  simp

private theorem live_touchKey (key other : String) :
    liveEntry t (touchKey key s) other = liveEntry t s other ∧
      liveDeadline t (touchKey key s) other = liveDeadline t s other :=
  live_congr (by rw [touchKey_store]) (by rw [touchKey_ttl])

private theorem written (represents : Represents t s c) (consistent : Consistent s)
    {entry : ValueEntry} {deadline : Option PyFloat} (frame : SameElsewhere key s r)
    (stored : r.store.get? key = some entry) (ttl : r.ttl.get? key = deadline)
    (lasting : deadline.any (·.leRat t) = false) (accessClock : s.accessClock ≤ r.accessClock)
    (maxMemoryBytes : r.maxMemoryBytes = s.maxMemoryBytes)
    (evictedKeys : r.evictedKeys = s.evictedKeys) :
    Represents t (touchKey key r) (c.put key (entry, deadline)) := by
  have settled : expiredAt t r key = false := by rw [expiredAt, ttl, lasting]
  obtain ⟨seen, dated⟩ := live_touchKey (t := t) (s := r) key key
  refine represents.renewed consistent (frame.trans (sameElsewhere_touchKey key r)) ?_ ?_ ?_ ?_ ?_
  · rw [seen, liveEntry, settled]
    exact stored
  · rw [dated, liveDeadline, settled]
    exact ttl
  · exact accessClock.trans_lt (touched_last (by simp [stored]))
  · rw [touchKey_maxMemoryBytes, maxMemoryBytes]
  · rw [touchKey_evictedKeys, evictedKeys]

private theorem finished {slot : Slot} (represents : Represents t s (c.put key slot))
    (moment : AtTime t s) (consistent : Consistent s) (entry : ValueEntry)
    (deadline : Option PyFloat) (stored : s.store.get? key = some entry)
    (ttl : s.ttl.get? key = deadline) (lasting : deadline.any (·.leRat t) = false) (op : TypedOp) :
    Represents t (op.finish key entry s).2
      (match (op.onEntry entry).2.result entry with
        | none => c.remove key
        | some changed =>
          let c := c.put key (changed, deadline)
          if op.grows then c.trim LruStore.slotBytes else c) := by
  have settled : expiredAt t s key = false := by rw [expiredAt, ttl, lasting]
  have seen : liveEntry t s key = some entry := by
    rw [liveEntry, settled]
    exact stored
  have dated : liveDeadline t s key = deadline := by
    rw [liveDeadline, settled]
    exact ttl
  cases grows : op.grows with
  | true =>
    obtain ⟨reply, value, updated⟩ := onEntry_put grows entry
    have frame := sameElsewhere_mutateEntry key value s
    have wrote : Represents t (touchKey key (mutateEntry key value s)) (c.put key (value, deadline)) := by
      have put := represents.written consistent frame (Dict.get?_set_self _ _ _) ttl lasting le_rfl
        rfl rfl
      rwa [LruCache.put_put] at put
    have moves : Moves s (touchKey key (mutateEntry key value s)) :=
      .tail (.single (.change (by simp [stored]) value)) (.touch _ key)
    simp only [TypedOp.finish, updated, EntryUpdate.apply, EntryUpdate.result, grows, if_true]
    refine wrote.trimmed ((touchKey_clock _ _).trans moment) (moves.consistent consistent) ?_
    exact ⟨_, Dict.keys_renew c.items key (value, deadline)⟩
  | false =>
    simp only [TypedOp.finish, grows, Bool.false_eq_true, if_false]
    cases (op.onEntry entry).2 with
    | keep =>
      exact represents.rewritten (fun _ _ => ⟨rfl, rfl, rfl⟩) seen dated rfl rfl rfl
    | put changed =>
      refine represents.rewritten (sameElsewhere_mutateEntry key changed s) ?_ ?_ rfl rfl rfl
      · rw [liveEntry, show expiredAt t (mutateEntry key changed s) key = false from settled]
        exact Dict.get?_set_self _ _ _
      · exact dated
    | remove =>
      have gone := represents.removed (sameElsewhere_deleteEntryAndTtl key s) (r := deleteEntryAndTtl key s)
        (by simp [liveEntry, deleteEntryAndTtl, forgetKey]) rfl rfl
      rwa [LruCache.remove_put] at gone

private theorem keeps_performTyped (represents : Represents t s c) (moment : AtTime t s)
    (consistent : Consistent s) (key : String) (op : TypedOp) :
    (performTyped key op s).1 = (LruStore.performTyped key op c).1 ∧
      Represents t (performTyped key op s).2 (LruStore.performTyped key op c).2 := by
  have purged := represents.swept (moment.swept key)
  have sound := (purgeIfExpired_removals key s).moves.consistent consistent
  obtain ⟨seen, dated⟩ := purged_key moment key
  have settled := moment.settled key
  have moment' := moment.purged key
  have slot := purged.slot key
  rw [seen, dated] at slot
  have reply : (performTyped key op s).1 = op.reply ((c.items.get? key).map Prod.fst) := by
    rw [performTyped_reply, represents.entry, show s.clock 0 = t from congrFun moment 0]
  refine ⟨?_, ?_⟩
  · rw [reply, LruStore.performTyped]
    cases c.items.get? key with
    | none => cases op.left none <;> rfl
    | some found =>
      obtain ⟨entry, deadline⟩ := found
      by_cases typed : entry.valueType = op.valueType
      · simp only [typed, ne_eq, not_true, if_false, Option.map_some]
        cases op.left (some entry) <;> rfl
      · simp [TypedOp.reply, typed]
  · rw [LruStore.performTyped, slot]
    unfold performTyped
    dsimp only
    generalize (purgeIfExpired key s).2 = s at *
    cases stored : s.store.get? key with
    | none =>
      have unheld := sound.noOrphan key stored
      cases creates : op.emptyContainer with
      | none =>
        simp only [Option.map_none, TypedOp.left, creates, Option.bind_none]
        exact purged.swept (.forgetKey stored)
      | some container =>
        have left : op.left none = (op.onEntry container).2.result container := by
          simp [TypedOp.left, creates]
        have grows : op.grows = true := by simp [TypedOp.grows, creates]
        obtain ⟨reply, value, updated⟩ := onEntry_put grows container
        have forgotten := purged.swept (Swept.forgetKey (t := t) stored)
        have forget : Consistent (forgetKey key s) := (Move.removal (.forget stored)).consistent sound
        have created : Represents t (storeEntry key container (forgetKey key s))
            (c.put key (container, none)) :=
          forgotten.written forget (sameElsewhere_mutateEntry key container _)
            (Dict.get?_set_self _ _ _) unheld rfl le_rfl rfl rfl
        have done := created.finished ((touchKey_clock _ _).trans moment')
          ((Move.put _ key container).consistent forget) container none
          (by simp [storeEntry]) (by rw [storeEntry, touchKey_ttl]; exact unheld) rfl op
        simp only [updated, EntryUpdate.result, grows, if_true] at done
        simp only [Option.map_none, left, updated, EntryUpdate.result]
        exact done
    | some entry =>
      have lasting : (s.ttl.get? key).any (·.leRat t) = false := settled
      have used : Represents t (touchKey key s) (c.put key (entry, s.ttl.get? key)) :=
        purged.written sound (fun _ _ => ⟨rfl, rfl, rfl⟩) stored rfl lasting le_rfl rfl rfl
      simp only [Option.map_some]
      by_cases typed : entry.valueType = op.valueType
      · have left : op.left (some entry) = (op.onEntry entry).2.result entry := by
          simp [TypedOp.left, typed]
        have done := used.finished ((touchKey_clock _ _).trans moment')
          ((Move.touch _ key).consistent sound) entry (s.ttl.get? key)
          (by simpa using stored) (by simp) lasting op
        simp only [typed, ne_eq, not_true, if_false, left]
        generalize (op.onEntry entry).2.result entry = left at done ⊢
        cases left <;> exact done
      · simp only [typed, ne_eq, not_false_iff, if_true]
        exact used

private theorem keeps_set (represents : Represents t s c) (moment : AtTime t s)
    (consistent : Consistent s) (key value : String) :
    Represents t (perform (.set key value) s).2 (LruStore.perform t (.set key value) c).2 := by
  have frame : SameElsewhere key s (setServiceExecute key value s).2 := by
    intro other apart
    simp [setServiceExecute, Dict.get?_set, Dict.get?_erase, apart]
  have wrote : Represents t (touchKey key (setServiceExecute key value s).2)
      (c.put key (.string value, none)) :=
    represents.written consistent frame (Dict.get?_set_self _ _ _) (Dict.get?_erase_self _ _) rfl
      le_rfl rfl rfl
  have moves : Moves s (touchKey key (setServiceExecute key value s).2) :=
    .tail (.single (.persist s key)) (.put _ key (.string value))
  exact wrote.trimmed ((touchKey_clock _ _).trans moment) (moves.consistent consistent)
    ⟨_, Dict.keys_renew c.items key _⟩

private theorem keeps_del (represents : Represents t s c) (moment : AtTime t s) (key : String) :
    (perform (.del key) s).1 = (LruStore.perform t (.del key) c).1 ∧
      Represents t (perform (.del key) s).2 (LruStore.perform t (.del key) c).2 := by
  have purged := represents.swept (moment.swept key)
  obtain ⟨seen, dated⟩ := purged_key moment key
  have slot := purged.slot key
  rw [seen, dated] at slot
  rw [perform_del]
  cases stored : (purgeIfExpired key s).2.store.get? key with
  | none =>
    rw [stored, Option.map_none] at slot
    have same : c.remove key = c := by rw [LruCache.remove, Dict.erase_eq_self slot]
    simp only [if_true, LruStore.perform, slot, same, true_and]
    exact purged.swept (.forgetKey stored)
  | some entry =>
    rw [stored, Option.map_some] at slot
    simp only [reduceCtorEq, if_false, LruStore.perform, slot, true_and]
    exact purged.removed (sameElsewhere_deleteEntryAndTtl key _)
      (by simp [liveEntry, deleteEntryAndTtl, forgetKey]) rfl rfl

private theorem keeps_expire (represents : Represents t s c) (moment : AtTime t s)
    (consistent : Consistent s) (key : String) {seconds : PyFloat}
    (positive : notPositive seconds = false) :
    (perform (.expire key seconds) s).1 = (LruStore.perform t (.expire key seconds) c).1 ∧
      Represents t (perform (.expire key seconds) s).2
        (LruStore.perform t (.expire key seconds) c).2 := by
  have purged := represents.swept (moment.swept key)
  have sound := (purgeIfExpired_removals key s).moves.consistent consistent
  obtain ⟨seen, dated⟩ := purged_key moment key
  have slot := purged.slot key
  have moment' := moment.purged key
  rw [seen, dated] at slot
  rw [perform_expire, LruStore.perform, slot]
  generalize (purgeIfExpired key s).2 = s at *
  cases stored : s.store.get? key with
  | none => exact ⟨rfl, purged⟩
  | some entry =>
    simp only [reduceCtorEq, if_false, moment'.now, Option.map_some, true_and]
    refine purged.written sound (fun other apart => ?_) stored (Dict.get?_set_self _ _ _) ?_
      le_rfl rfl rfl
    · simp [Dict.get?_set, apart]
    · rw [Option.any_some, calculateExpiresAt, PyFloat.leRat_addRat]
      exact positive

private theorem keeps_ttl (represents : Represents t s c) (moment : AtTime t s) (key : String) :
    (perform (.ttl key) s).1 = (LruStore.perform t (.ttl key) c).1 ∧
      Represents t (perform (.ttl key) s).2 (LruStore.perform t (.ttl key) c).2 := by
  have purged := represents.swept (moment.swept key)
  obtain ⟨seen, dated⟩ := purged_key moment key
  have slot := purged.slot key
  have moment' := moment.purged key
  rw [seen, dated] at slot
  rw [perform_ttl, LruStore.perform, slot]
  generalize (purgeIfExpired key s).2 = s at *
  cases stored : s.store.get? key with
  | none => exact ⟨rfl, purged⟩
  | some entry =>
    simp only [reduceCtorEq, if_false, Option.map_some]
    cases s.ttl.get? key with
    | none => exact ⟨rfl, purged⟩
    | some deadline =>
      simp only [moment'.now, true_and]
      exact purged

private theorem purged_all (represents : Represents t s c) (moment : AtTime t s) :
    Represents t (purgeAllExpiredKeys s) c ∧ Settled t (purgeAllExpiredKeys s) := by
  obtain ⟨-, swept, settled⟩ := moment.purgeAll
  exact ⟨represents.swept swept, settled⟩

private theorem count_eq (represents : Represents t s c) (settled : Settled t s) :
    s.store.keys.length = c.items.size := by
  have same : ∀ key, s.store.get? key = (c.items.map Prod.fst).get? key := by
    intro key
    rw [Dict.get?_map, represents.entry, settled.liveEntry]
  rw [← Dict.size_map Prod.fst c.items, ← Dict.size_eq_of_get?_eq same, Dict.keys, Dict.size,
    List.length_map]

private theorem maxMemory_eq (represents : Represents t s c) : c.limit.getD 0 = maxMemoryOrZero s := by
  rw [represents.limit, LruStore.limitOf, maxMemoryOrZero]
  cases s.maxMemoryBytes <;> rfl

private theorem report_eq (represents : Represents t s c) (settled : Settled t s) :
    infoText s = c.report := by
  have same : ∀ key, s.store.get? key = (c.items.map Prod.fst).get? key := by
    intro key
    rw [Dict.get?_map, represents.entry, settled.liveEntry]
  have bytes : currentMemoryBytes s = c.items.sumBy LruStore.slotBytes := by
    rw [currentMemoryBytes, Dict.sumBy_eq_of_get?_eq same, Dict.sumBy_map]
    rfl
  have keys := represents.count_eq settled
  have limit := represents.maxMemory_eq
  have evicted := represents.evicted
  unfold infoText LruStore.report
  generalize currentMemoryBytes s = used at *
  generalize s.store.keys.length = count at *
  generalize maxMemoryOrZero s = most at *
  subst used count most
  rw [evicted]

private theorem keeps_flushdb (represents : Represents t s c) :
    Represents t (executeFlushdb s) c.clear where
  slot key := by
    have gone : liveEntry t (executeFlushdb s) key = none := by
      rw [liveEntry, show (executeFlushdb s).store.get? key = none from flush_loop_empty s key]
      split <;> rfl
    rw [gone]
    rfl
  order := List.Pairwise.nil
  limit := by
    rw [LruCache.clear, represents.limit]
    exact congrArg LruStore.limitOf (flush_loop_removals s).shrunk.maxMemoryBytes.symm
  evicted := rfl

/-- Each operation answers as the cache does, and leaves tables that show what the cache holds. -/
theorem perform (represents : Represents t s c) (moment : AtTime t s) (consistent : Consistent s)
    {command : Command} {op : Operation} (denotes : Denotes command op) :
    (perform op s).1 = (LruStore.perform t op c).1 ∧
      Represents t (Service.perform op s).2 (LruStore.perform t op c).2 := by
  cases op with
  | reply => exact ⟨rfl, represents⟩
  | set key value => exact ⟨rfl, represents.keeps_set moment consistent key value⟩
  | del key => exact represents.keeps_del moment key
  | expire key seconds =>
    cases denotes with
    | expire _ _ positive => exact represents.keeps_expire moment consistent key positive
  | ttl key => exact represents.keeps_ttl moment key
  | dbsize =>
    obtain ⟨purged, settled⟩ := represents.purged_all moment
    refine ⟨?_, purged⟩
    rw [LruStore.perform, ← purged.count_eq settled]
    rfl
  | flushdb => exact ⟨rfl, represents.keeps_flushdb⟩
  | info =>
    obtain ⟨purged, settled⟩ := represents.purged_all moment
    refine ⟨?_, purged⟩
    rw [LruStore.perform, ← purged.report_eq settled]
    rfl
  | configGet =>
    refine ⟨?_, represents⟩
    rw [LruStore.perform, represents.maxMemory_eq]
    rfl
  | configSet value =>
    have limited : Represents t
        { s with maxMemoryBytes := normalizeMaxMemoryBytes (some (value : ℤ)) }
        { c with limit := LruStore.limitOf (normalizeMaxMemoryBytes (some (value : ℤ))) } :=
      ⟨represents.slot, represents.order, rfl, represents.evicted⟩
    exact ⟨rfl, limited.trimmed_all moment ((Move.limit s _).consistent consistent)⟩
  | typed key op => exact represents.keeps_performTyped moment consistent key op

/-! ### Runs -/

theorem execute (represents : Represents t s (c.expire t)) (consistent : Consistent s)
    {command : Command} (accepted : validate command = .ok ()) :
    let here := (Service.execute command).exec { s with clock := fun _ => t }
    here.1 = (LruStore.execute t command c).1 ∧
      Represents t here.2 ((LruStore.execute t command c).2.expire t) ∧ Consistent here.2 := by
  obtain ⟨op, denotes⟩ := accepted_denotes accepted
  have ticked := represents.swept (Swept.tick t s (fun _ => t))
  obtain ⟨reply, shown⟩ := ticked.perform rfl (consistent.tick _) denotes
  rw [Service.execute_denotes denotes, LruStore.execute_denotes denotes, shown.nothing_due]
  exact ⟨reply, shown, (perform_moves op _).consistent (consistent.tick _)⟩

theorem sweep (represents : Represents t s c) (consistent : Consistent s) (batchSize : ℤ) :
    let left := (sweepOnce batchSize { s with clock := fun _ => t }).2
    Represents t left c ∧ Consistent left := by
  have swept : Swept t s (sweepOnce batchSize { s with clock := fun _ => t }).2 :=
    (Swept.tick t s (fun _ => t)).trans
      (AtTime.sweepOnce (s := { s with clock := fun _ => t }) rfl batchSize)
  exact ⟨represents.swept swept,
    (@step_moves (.sweep (fun _ => t) batchSize) trivial s).consistent consistent⟩

theorem later_expired {t' : ℚ} (represents : Represents t s (c.expire t)) (le : t ≤ t') :
    Represents t' s (c.expire t') := by
  have now := represents.later le
  rwa [expire_expire le] at now

private theorem schedule {schedule : Schedule} (represents : Represents t s (c.expire t))
    (consistent : Consistent s) (later : ∀ entry ∈ schedule, t ≤ entry.1)
    (ordered : schedule.Pairwise (fun a b => a.1 ≤ b.1))
    (accepted : ∀ event ∈ schedule.events, event.Accepted) :
    replies s schedule.events = (LruStore.run schedule.commands c).1 ∧
      ∀ final, t ≤ final → (∀ entry ∈ schedule, entry.1 ≤ final) →
        Represents final (Service.run schedule.events s)
          ((LruStore.run schedule.commands c).2.expire final) := by
  induction schedule generalizing s c t with
  | nil => exact ⟨rfl, fun final le _ => represents.later_expired le⟩
  | cons entry schedule ih =>
    obtain ⟨t', action⟩ := entry
    have here := represents.later_expired (later _ List.mem_cons_self)
    obtain ⟨first, orderedRest⟩ := List.pairwise_cons.mp ordered
    have rest : ∀ event ∈ Schedule.events schedule, event.Accepted :=
      fun event member => accepted event (List.mem_cons_of_mem _ member)
    have ok := accepted _ List.mem_cons_self
    cases action with
    | command request =>
      obtain ⟨reply, shown, next⟩ := here.execute consistent ok
      obtain ⟨replies_eq, final_eq⟩ := ih shown next first orderedRest rest
      refine ⟨?_, fun final _ bound => ?_⟩
      · exact congrArg₂ List.cons reply replies_eq
      · exact final_eq final (bound _ List.mem_cons_self)
          (fun entry member => bound entry (List.mem_cons_of_mem _ member))
    | sweep batchSize =>
      obtain ⟨shown, next⟩ := here.sweep consistent batchSize
      obtain ⟨replies_eq, final_eq⟩ := ih shown next first orderedRest rest
      refine ⟨replies_eq, fun final _ bound => ?_⟩
      exact final_eq final (bound _ List.mem_cons_self)
        (fun entry member => bound entry (List.mem_cons_of_mem _ member))

end Represents

/-- Every schedule of commands and sweeps is answered, and leaves the tables, as the cache in
the order of last use would: stamps, sweeps, purges and enforcements are its implementation. -/
theorem server_refines_lru_store (clock : ℕ → ℚ) (maxMemoryBytes : Option ℤ)
    (schedule : Schedule) (ordered : schedule.Pairwise (fun a b => a.1 ≤ b.1))
    (accepted : ∀ event ∈ schedule.events, event.Accepted) :
    let cache := LruStore.run schedule.commands (LruStore.init maxMemoryBytes)
    replies (CommandService.init clock maxMemoryBytes) schedule.events = cache.1 ∧
      ∀ t, (∀ entry ∈ schedule, entry.1 ≤ t) →
        Represents t (run schedule.events (CommandService.init clock maxMemoryBytes))
          (cache.2.expire t) := by
  have consistent := Consistent.init clock maxMemoryBytes
  have init := fun t => Represents.init t clock maxMemoryBytes
  cases schedule with
  | nil => exact ⟨rfl, fun t _ => init t⟩
  | cons entry rest =>
    have start : ∀ later ∈ entry :: rest, entry.1 ≤ later.1 := by
      intro later member
      rcases List.mem_cons.mp member with rfl | member
      · exact le_rfl
      · exact (List.pairwise_cons.mp ordered).1 later member
    obtain ⟨same, shown⟩ :=
      Represents.schedule (c := LruStore.init maxMemoryBytes) (init entry.1) consistent start
        ordered accepted
    exact ⟨same, fun t bound => shown t (bound _ List.mem_cons_self) bound⟩

/-- A third value where two fit, after a read of the first one and a sweep. -/
private def crowdedSchedule : Schedule :=
  [(0, .command ⟨"SET", ["k", "v"]⟩), (1, .command ⟨"SET", ["l", "w"]⟩),
    (2, .command ⟨"GET", ["k"]⟩), (3, .sweep 1), (4, .command ⟨"SET", ["m", "x"]⟩)]

/-- The value that was read last stays. -/
example : (LruStore.run crowdedSchedule.commands (LruStore.init (some 4))).2.items.keys =
    ["k", "m"] := by decide +kernel

theorem crowded_schedule_as_lru_store :
    replies (CommandService.init (fun _ => 0) (some 4)) crowdedSchedule.events =
        (LruStore.run crowdedSchedule.commands (LruStore.init (some 4))).1 ∧
      Represents 5 (run crowdedSchedule.events (CommandService.init (fun _ => 0) (some 4)))
        ((LruStore.run crowdedSchedule.commands (LruStore.init (some 4))).2.expire 5) := by
  have ordered : crowdedSchedule.Pairwise (fun a b => a.1 ≤ b.1) := by decide +kernel
  have accepted : ∀ event ∈ crowdedSchedule.events, event.Accepted := by
    intro event member
    simp only [Schedule.events, crowdedSchedule, List.map_cons, List.map_nil, List.mem_cons,
      List.not_mem_nil, or_false, Action.event] at member
    rcases member with rfl | rfl | rfl | rfl | rfl <;> trivial
  obtain ⟨same, shown⟩ :=
    server_refines_lru_store (fun _ => 0) (some 4) crowdedSchedule ordered accepted
  exact ⟨same, shown 5 (by decide +kernel)⟩

end MiniRedis.Service
