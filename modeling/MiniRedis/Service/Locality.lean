/- GID: MiniRedis/Service/Locality
   generality: I
   digest: Without a memory limit a single-key command reads and writes its own key only. -/

import MiniRedis.Service.Invariant

set_option autoImplicit false
set_option relaxedAutoImplicit false

namespace MiniRedis.Service

open MiniRedis.Base MiniRedis.Python MiniRedis.Protocol MiniRedis.Commands

/-! ### Computations local to a key -/

/-- Two states without a limit whose clocks and whose tables at one key are the same. -/
structure AgreeAt (key : String) (s s' : CommandService) : Prop where
  clock : s.clock = s'.clock
  store : s.store.get? key = s'.store.get? key
  ttl : s.ttl.get? key = s'.ttl.get? key
  unlimited : s.maxMemoryBytes = none
  unlimited' : s'.maxMemoryBytes = none

/-- Still no limit, and away from the key the contents of `s`. -/
structure OnlyAt (key : String) (s r : CommandService) : Prop where
  store : ∀ key', key' ≠ key → r.store.get? key' = s.store.get? key'
  ttl : ∀ key', key' ≠ key → r.ttl.get? key' = s.ttl.get? key'
  unlimited : r.maxMemoryBytes = none

/-- The computation depends on one key of the tables and changes no other. -/
structure Local (key : String) {α : Type} (x : ServiceM α) : Prop where
  respects : Effect.Respects (AgreeAt key) x
  frame : ∀ s, Effect.Leaves (OnlyAt key s) x (OnlyAt key s)

namespace Local

variable {α β : Type} {key : String}

theorem pure (a : α) : Local key (Pure.pure a : ServiceM α) :=
  ⟨Effect.respects_pure a, fun _ => Effect.leaves_pure _ a⟩

theorem throw (e : PyException) : Local key (MonadExcept.throw e : ServiceM α) :=
  ⟨Effect.respects_throw e, fun _ => Effect.leaves_throw _ e⟩

theorem lift (outcome : Except PyException α) : Local key (liftM outcome : ServiceM α) :=
  ⟨Effect.respects_lift outcome, fun _ => Effect.leaves_lift _ outcome⟩

theorem bind {x : ServiceM α} {f : α → ServiceM β} (first : Local key x)
    (rest : ∀ a, Local key (f a)) : Local key (x >>= f) :=
  ⟨first.respects.bind fun a => (rest a).respects,
    fun s => (first.frame s).bind (fun _ only => only) fun a => (rest a).frame s⟩

theorem step {f : CommandService → α × CommandService}
    (same : ∀ s s', AgreeAt key s s' → (f s).1 = (f s').1 ∧ AgreeAt key (f s).2 (f s').2)
    (frame : ∀ s, s.maxMemoryBytes = none → OnlyAt key s (f s).2) :
    Local key (modifyGet f : ServiceM α) := by
  refine ⟨Effect.respects_modifyGet same, fun s => Effect.leaves_modifyGet (fun r only => ?_)⟩
  have changed := frame r only.unlimited
  exact ⟨fun key' h => (changed.store key' h).trans (only.store key' h),
    fun key' h => (changed.ttl key' h).trans (only.ttl key' h), changed.unlimited⟩

theorem change {f : CommandService → CommandService}
    (same : ∀ s s', AgreeAt key s s' → AgreeAt key (f s) (f s'))
    (frame : ∀ s, s.maxMemoryBytes = none → OnlyAt key s (f s)) :
    Local key (modify f : ServiceM PUnit) :=
  step (fun s s' agree => ⟨rfl, same s s' agree⟩) frame

theorem look {f : CommandService → ServiceM β} (same : ∀ s s', AgreeAt key s s' → f s = f s')
    (rest : ∀ s, Local key (f s)) : Local key (get >>= f) := by
  refine ⟨fun s s' agree => ?_, fun s r only => ?_⟩
  · rw [Effect.exec_bind, Effect.exec_bind]
    dsimp only [Effect.exec_get]
    rw [← same s s' agree]
    exact (rest s).respects s s' agree
  · rw [Effect.exec_bind]
    exact (rest r).frame s r only

end Local

/-! ### The steps of the single-key commands -/

section Steps

variable {key : String} {s s' : CommandService}

private theorem onlyAt_refl (unlimited : s.maxMemoryBytes = none) : OnlyAt key s s :=
  ⟨fun _ _ => rfl, fun _ _ => rfl, unlimited⟩

private theorem agree_forgetKey (agree : AgreeAt key s s') :
    AgreeAt key (forgetKey key s) (forgetKey key s') :=
  ⟨agree.clock, agree.store, agree.ttl, agree.unlimited, agree.unlimited'⟩

private theorem only_forgetKey (unlimited : s.maxMemoryBytes = none) :
    OnlyAt key s (forgetKey key s) :=
  ⟨fun _ _ => rfl, fun _ _ => rfl, unlimited⟩

private theorem agree_touchKey (agree : AgreeAt key s s') :
    AgreeAt key (touchKey key s) (touchKey key s') :=
  ⟨by simp [agree.clock], by simp [agree.store], by simp [agree.ttl], by simp [agree.unlimited],
    by simp [agree.unlimited']⟩

private theorem only_touchKey (unlimited : s.maxMemoryBytes = none) :
    OnlyAt key s (touchKey key s) :=
  ⟨fun _ _ => by simp, fun _ _ => by simp, by simp [unlimited]⟩

private theorem agree_mutateEntry (agree : AgreeAt key s s') (entry : ValueEntry) :
    AgreeAt key (mutateEntry key entry s) (mutateEntry key entry s') :=
  ⟨agree.clock, by simp [mutateEntry], agree.ttl, agree.unlimited, agree.unlimited'⟩

private theorem only_mutateEntry (unlimited : s.maxMemoryBytes = none) (entry : ValueEntry) :
    OnlyAt key s (mutateEntry key entry s) :=
  ⟨fun key' h => by simp [mutateEntry, Dict.get?_set, h], fun _ _ => rfl, unlimited⟩

private theorem agree_deleteKey (agree : AgreeAt key s s') :
    AgreeAt key (deleteKey key s) (deleteKey key s') :=
  ⟨agree.clock, by simp [deleteKey], by simp [deleteKey], agree.unlimited, agree.unlimited'⟩

private theorem only_deleteKey (unlimited : s.maxMemoryBytes = none) :
    OnlyAt key s (deleteKey key s) :=
  ⟨fun key' h => by simp [deleteKey, Dict.get?_erase, h],
    fun key' h => by simp [deleteKey, Dict.get?_erase, h], unlimited⟩

private theorem agree_purge (agree : AgreeAt key s s') :
    (purgeIfExpired key s).1 = (purgeIfExpired key s').1 ∧
      AgreeAt key (purgeIfExpired key s).2 (purgeIfExpired key s').2 := by
  unfold purgeIfExpired isExpired
  rw [← agree.ttl]
  cases hd : s.ttl.get? key with
  | none => exact ⟨rfl, agree⟩
  | some expiresAt =>
    have ticked : AgreeAt key (now s).2 (now s').2 :=
      ⟨by simp [now, agree.clock], agree.store, agree.ttl, agree.unlimited, agree.unlimited'⟩
    have same : (now s').1 = (now s).1 := by simp [now, agree.clock]
    dsimp only
    rw [same]
    split
    · exact ⟨rfl, agree_deleteKey ticked⟩
    · exact ⟨rfl, ticked⟩

private theorem only_purge (unlimited : s.maxMemoryBytes = none) :
    OnlyAt key s (purgeIfExpired key s).2 := by
  obtain ⟨readings, ⟨-, purged⟩ | ⟨-, purged⟩⟩ := purgeIfExpired_cases key s
  · rw [purged]
    exact ⟨fun _ _ => rfl, fun _ _ => rfl, unlimited⟩
  · rw [purged]
    have only : OnlyAt key { s with clock := readings } (deleteKey key { s with clock := readings }) :=
      only_deleteKey unlimited
    exact ⟨only.store, only.ttl, only.unlimited⟩

theorem ensureMaxMemory_of_unlimited (unlimited : s.maxMemoryBytes = none)
    (protectedKeys : List String) : ensureMaxMemory protectedKeys s = s := by
  unfold ensureMaxMemory
  rw [unlimited]

end Steps

namespace Local

variable {key : String}

theorem purgeIfExpired : Local key (modifyGet (purgeIfExpired key) : ServiceM Bool) :=
  step (fun _ _ agree => agree_purge agree) (fun _ unlimited => only_purge unlimited)

theorem touchKey : Local key (modify (touchKey key) : ServiceM PUnit) :=
  change (fun _ _ agree => agree_touchKey agree) (fun _ unlimited => only_touchKey unlimited)

theorem forgetKey : Local key (modify (forgetKey key) : ServiceM PUnit) :=
  change (fun _ _ agree => agree_forgetKey agree) (fun _ unlimited => only_forgetKey unlimited)

theorem mutateEntry (entry : ValueEntry) :
    Local key (modify (mutateEntry key entry) : ServiceM PUnit) :=
  change (fun _ _ agree => agree_mutateEntry agree entry)
    (fun _ unlimited => only_mutateEntry unlimited entry)

theorem storeEntry (entry : ValueEntry) :
    Local key (modify (storeEntry key entry) : ServiceM PUnit) := by
  refine change (fun _ _ agree => agree_touchKey (agree_mutateEntry agree entry))
    (fun s unlimited => ?_)
  have written : OnlyAt key s (Service.mutateEntry key entry s) := only_mutateEntry unlimited entry
  have touched : OnlyAt key (Service.mutateEntry key entry s) (Service.storeEntry key entry s) :=
    only_touchKey written.unlimited
  exact ⟨fun key' h => (touched.store key' h).trans (written.store key' h),
    fun key' h => (touched.ttl key' h).trans (written.ttl key' h), touched.unlimited⟩

theorem deleteEntryAndTtl : Local key (modify (deleteEntryAndTtl key) : ServiceM PUnit) := by
  refine change (fun _ _ agree => agree_forgetKey (agree_deleteKey agree)) (fun s unlimited => ?_)
  have deleted : OnlyAt key s (deleteKey key s) := only_deleteKey unlimited
  exact ⟨deleted.store, deleted.ttl, deleted.unlimited⟩

theorem ensureMaxMemory : Local key (modify (ensureMaxMemory [key]) : ServiceM PUnit) := by
  refine change (fun s s' agree => ?_) (fun s unlimited => ?_)
  · rwa [ensureMaxMemory_of_unlimited agree.unlimited, ensureMaxMemory_of_unlimited agree.unlimited']
  · rw [ensureMaxMemory_of_unlimited unlimited]
    exact onlyAt_refl unlimited

/-! The four services and the lookups. -/

theorem setService (value : String) :
    Local key (modifyGet (setServiceExecute key value) : ServiceM String) := by
  refine step (fun s s' agree => ⟨rfl, ?_⟩) (fun s unlimited => ?_)
  · exact ⟨agree.clock, by simp [setServiceExecute], by simp [setServiceExecute], agree.unlimited,
      agree.unlimited'⟩
  · exact ⟨fun key' h => by simp [setServiceExecute, Dict.get?_set, h],
      fun key' h => by simp [setServiceExecute, Dict.get?_erase, h], unlimited⟩

theorem getService :
    Local key (modifyGet (getServiceExecute key) : ServiceM (Option ValueEntry)) := by
  refine step (fun s s' agree => ?_) (fun s unlimited => only_purge unlimited)
  have purged := (agree_purge agree).2
  exact ⟨purged.store, purged⟩

theorem delService : Local key (modifyGet (delServiceExecute key) : ServiceM ℤ) := by
  refine step (fun s s' agree => ?_) (fun s unlimited => ?_)
  · obtain ⟨same, purged⟩ := agree_purge agree
    unfold delServiceExecute
    dsimp only
    rw [← same, ← purged.store]
    split
    · exact ⟨rfl, purged⟩
    · split
      · exact ⟨rfl, purged⟩
      · exact ⟨rfl, agree_deleteKey purged⟩
  · have purged : OnlyAt key s (Service.purgeIfExpired key s).2 := only_purge unlimited
    have deleted : OnlyAt key (Service.purgeIfExpired key s).2
        (deleteKey key (Service.purgeIfExpired key s).2) := only_deleteKey purged.unlimited
    unfold delServiceExecute
    dsimp only
    split
    · exact purged
    · split
      · exact purged
      · exact ⟨fun key' h => (deleted.store key' h).trans (purged.store key' h),
          fun key' h => (deleted.ttl key' h).trans (purged.ttl key' h), deleted.unlimited⟩

theorem expireService (seconds : PyFloat) :
    Local key (modifyGet (expireServiceExecute key seconds) : ServiceM ℤ) := by
  refine step (fun s s' agree => ?_) (fun s unlimited => ?_)
  · obtain ⟨same, purged⟩ := agree_purge agree
    unfold expireServiceExecute
    dsimp only
    rw [← same, ← purged.store]
    split
    · exact ⟨rfl, purged⟩
    · split
      · exact ⟨rfl, purged⟩
      · exact ⟨rfl, by simp [now, purged.clock], purged.store, by simp [now, purged.clock],
          purged.unlimited, purged.unlimited'⟩
  · have purged : OnlyAt key s (Service.purgeIfExpired key s).2 := only_purge unlimited
    unfold expireServiceExecute
    dsimp only
    split
    · exact purged
    · split
      · exact purged
      · refine ⟨purged.store, fun key' h => ?_, purged.unlimited⟩
        simpa [now, Dict.get?_set, h] using purged.ttl key' h

theorem now : Local key (modifyGet now : ServiceM ℚ) :=
  step (fun s s' agree => ⟨by simp [Service.now, agree.clock], by simp [Service.now, agree.clock],
      agree.store, agree.ttl, agree.unlimited, agree.unlimited'⟩)
    (fun _ unlimited => ⟨fun _ _ => rfl, fun _ _ => rfl, unlimited⟩)

theorem ttlService : Local key (ttlServiceExecute key) := by
  refine bind purgeIfExpired (fun purged => ?_)
  split
  · exact pure _
  · refine look (fun s s' agree => by rw [agree.store]) (fun s => ?_)
    split
    · exact pure _
    · refine look (fun s s' agree => by rw [agree.ttl]) (fun s => ?_)
      split
      · exact pure _
      · exact bind now (fun _ => lift _)

theorem getLiveEntry :
    Local key (modifyGet (getLiveEntry key) : ServiceM (Option ValueEntry)) := by
  refine step (fun s s' agree => ?_) (fun s unlimited => ?_)
  · have purged := (agree_purge agree).2
    unfold Service.getLiveEntry
    dsimp only
    rw [← purged.store]
    split
    · exact ⟨rfl, agree_forgetKey purged⟩
    · exact ⟨rfl, agree_touchKey purged⟩
  · have purged : OnlyAt key s (Service.purgeIfExpired key s).2 := only_purge unlimited
    unfold Service.getLiveEntry
    dsimp only
    split
    · exact ⟨purged.store, purged.ttl, purged.unlimited⟩
    · exact ⟨fun key' h => by simpa using purged.store key' h,
        fun key' h => by simpa using purged.ttl key' h, by simpa using purged.unlimited⟩

theorem getTypedEntry (valueType : ValueType) : Local key (getTypedEntry key valueType) := by
  refine bind getLiveEntry (fun entry => ?_)
  cases entry with
  | none => exact pure none
  | some entry =>
    dsimp only
    split
    · exact throw _
    · exact pure _

/-! The commands. -/

section Bodies

variable {α : Type}

private theorem written (entry : ValueEntry) (a : α) :
    Local key (do
      modify (Service.mutateEntry key entry)
      modify (Service.touchKey key)
      Pure.pure a : ServiceM α) :=
  bind (mutateEntry entry) (fun _ => bind touchKey (fun _ => pure a))

private theorem shrunken (entry : ValueEntry) (empty : Prop) [Decidable empty] (a : α) :
    Local key (do
      modify (Service.mutateEntry key entry)
      if empty then modify (Service.deleteEntryAndTtl key)
      Pure.pure a : ServiceM α) := by
  refine bind (mutateEntry entry) (fun _ => ?_)
  split
  · exact bind deleteEntryAndTtl (fun _ => pure a)
  · exact pure a

end Bodies

theorem hset (field value : String) : Local key (executeHset key field value) := by
  refine bind (getTypedEntry _) (fun entry => ?_)
  cases entry with
  | none => exact bind (bind (storeEntry _) (fun _ => pure _)) (fun _ => written _ _)
  | some entry => exact bind (pure _) (fun _ => written _ _)

theorem hget (field : String) : Local key (executeHget key field) := by
  refine bind (getTypedEntry _) (fun entry => ?_)
  cases entry <;> exact pure _

theorem hdel (field : String) : Local key (executeHdel key field) := by
  refine bind (getTypedEntry _) (fun entry => ?_)
  cases entry with
  | none => exact pure _
  | some entry => exact shrunken _ _ _

theorem hgetall : Local key (executeHgetall key) := by
  refine bind (getTypedEntry _) (fun entry => ?_)
  cases entry <;> exact pure _

theorem getOrCreateList : Local key (getOrCreateList key) := by
  refine bind (getTypedEntry _) (fun entry => ?_)
  cases entry with
  | none => exact bind (storeEntry _) (fun _ => pure _)
  | some entry => exact pure _

theorem lpush (values : List String) : Local key (executeLpush key values) :=
  bind getOrCreateList (fun _ => written _ _)

theorem rpush (values : List String) : Local key (executeRpush key values) :=
  bind getOrCreateList (fun _ => written _ _)

theorem lpop : Local key (executeLpop key) := by
  refine bind (getTypedEntry _) (fun entry => ?_)
  cases entry with
  | none => exact pure _
  | some entry =>
    dsimp only
    split
    · exact pure _
    · exact shrunken _ _ _

theorem rpop : Local key (executeRpop key) := by
  refine bind (getTypedEntry _) (fun entry => ?_)
  cases entry with
  | none => exact pure _
  | some entry =>
    dsimp only
    split
    · exact pure _
    · exact shrunken _ _ _

theorem lrange (start stop : ℤ) : Local key (executeLrange key start stop) := by
  refine bind (getTypedEntry _) (fun entry => ?_)
  cases entry <;> exact pure _

theorem getOrCreateSet : Local key (getOrCreateSet key) := by
  refine bind (getTypedEntry _) (fun entry => ?_)
  cases entry with
  | none => exact bind (storeEntry _) (fun _ => pure _)
  | some entry => exact pure _

theorem sadd (members : List String) : Local key (executeSadd key members) :=
  bind getOrCreateSet (fun _ => written _ _)

theorem srem (members : List String) : Local key (executeSrem key members) := by
  refine bind (getTypedEntry _) (fun entry => ?_)
  cases entry with
  | none => exact pure _
  | some entry => exact shrunken _ _ _

theorem smembers : Local key (executeSmembers key) := by
  refine bind (getTypedEntry _) (fun entry => ?_)
  cases entry <;> exact pure _

theorem sismember (member : String) : Local key (executeSismember key member) := by
  refine bind (getTypedEntry _) (fun entry => ?_)
  cases entry <;> exact pure _

theorem getOrCreateZset : Local key (getOrCreateZset key) := by
  refine bind (getTypedEntry _) (fun entry => ?_)
  cases entry with
  | none => exact bind (storeEntry _) (fun _ => pure _)
  | some entry => exact pure _

theorem zaddLoop (arguments : List String) (created : ℤ) (zset : Dict String PyFloat) :
    Local key (zaddLoop key arguments created zset) := by
  induction arguments using readPairs.induct generalizing created zset with
  | case1 => exact pure _
  | case2 score => exact bind (lift _) (fun _ => throw _)
  | case3 score member rest ih => exact bind (lift _) (fun _ => bind (mutateEntry _) (fun _ => ih _ _))

theorem zadd (arguments : List String) : Local key (executeZadd key arguments) :=
  bind getOrCreateZset (fun _ => bind (zaddLoop _ _ _) (fun _ => bind touchKey (fun _ => pure _)))

theorem zrem (members : List String) : Local key (executeZrem key members) := by
  refine bind (getTypedEntry _) (fun entry => ?_)
  cases entry with
  | none => exact pure _
  | some entry => exact shrunken _ _ _

theorem zrange (start stop : ℤ) : Local key (executeZrange key start stop) := by
  refine bind (getTypedEntry _) (fun entry => ?_)
  cases entry <;> exact pure _

theorem zscore (member : String) : Local key (executeZscore key member) := by
  refine bind (getTypedEntry _) (fun entry => ?_)
  cases entry <;> exact pure _

end Local

/-- The commands that name exactly one key, which is their first argument. -/
def singleKeyCommands : List String :=
  ["SET", "GET", "DEL", "EXPIRE", "TTL", "HSET", "HGET", "HDEL", "HGETALL", "LPUSH", "RPUSH",
    "LPOP", "RPOP", "LRANGE", "SADD", "SREM", "SMEMBERS", "SISMEMBER", "ZADD", "ZREM", "ZRANGE",
    "ZSCORE"]

theorem execute_local {command : Command} {key : String} (single : command.name ∈ singleKeyCommands)
    (head : command.arguments.head? = some key) : Local key (execute command) := by
  obtain ⟨name, arguments⟩ := command
  obtain ⟨rest, rfl⟩ : ∃ rest, arguments = key :: rest := List.head?_eq_some_iff.mp head
  simp only [singleKeyCommands, List.mem_cons, List.not_mem_nil, or_false] at single
  rcases single with rfl | rfl | rfl | rfl | rfl | rfl | rfl | rfl | rfl | rfl | rfl | rfl | rfl |
    rfl | rfl | rfl | rfl | rfl | rfl | rfl | rfl | rfl
  all_goals simp only [execute, argument, List.getElem?_cons_zero, Effect.lift_ok, pure_bind]
  · exact .bind (.lift _) fun value => .bind (.setService value) fun _ => .bind .touchKey fun _ =>
      .bind .ensureMaxMemory fun _ => .pure _
  · refine .bind .getService (fun entry => ?_)
    cases entry with
    | none => exact .bind .forgetKey fun _ => .pure _
    | some entry => exact .bind .touchKey fun _ => .bind (.lift _) fun _ => .pure _
  · exact .bind .delService fun _ => .bind .forgetKey fun _ => .pure _
  · refine .bind (.lift _) fun text => .bind (.lift _) fun seconds =>
      .bind (.expireService seconds) fun applied => ?_
    split
    · exact .bind .touchKey fun _ => .pure _
    · exact .pure _
  · exact .bind .ttlService fun _ => .pure _
  · exact .bind (.lift _) fun field => .bind (.lift _) fun value => .bind (.hset field value) fun _ =>
      .bind .ensureMaxMemory fun _ => .pure _
  · exact .bind (.lift _) fun field => .bind (.hget field) fun _ => .pure _
  · exact .bind (.lift _) fun field => .bind (.hdel field) fun _ => .pure _
  · exact .hgetall
  · exact .bind (.lpush _) fun _ => .bind .ensureMaxMemory fun _ => .pure _
  · exact .bind (.rpush _) fun _ => .bind .ensureMaxMemory fun _ => .pure _
  · exact .bind .lpop fun _ => .pure _
  · exact .bind .rpop fun _ => .pure _
  · exact .bind (.lift _) fun _ => .bind (.lift _) fun start => .bind (.lift _) fun _ =>
      .bind (.lift _) fun stop => .lrange start stop
  · exact .bind (.sadd _) fun _ => .bind .ensureMaxMemory fun _ => .pure _
  · exact .bind (.srem _) fun _ => .pure _
  · exact .smembers
  · exact .bind (.lift _) fun member => .bind (.sismember member) fun _ => .pure _
  · exact .bind (.zadd _) fun _ => .bind .ensureMaxMemory fun _ => .pure _
  · exact .bind (.zrem _) fun _ => .pure _
  · exact .bind (.lift _) fun _ => .bind (.lift _) fun start => .bind (.lift _) fun _ =>
      .bind (.lift _) fun stop => .zrange start stop
  · exact .bind (.lift _) fun member => .bind (.zscore member) fun _ => .pure _

/-! ### Reading commands -/

/-- The key's entry and deadline are those of `s`. -/
structure SameRow (key : String) (s r : CommandService) : Prop where
  store : r.store.get? key = s.store.get? key
  ttl : r.ttl.get? key = s.ttl.get? key

/-- The computation leaves a key alone that its first reading does not find expired. -/
def Reads (key : String) {α : Type} (x : ServiceM α) : Prop :=
  ∀ s, Effect.Leaves (fun r => SameRow key s r ∧ expiredAt (r.clock 0) r key = false) x
    (SameRow key s)

namespace Reads

variable {α β : Type} {key : String}

theorem lift {outcome : Except PyException α} {f : α → ServiceM β} (rest : ∀ a, Reads key (f a)) :
    Reads key (liftM outcome >>= f) :=
  fun s => (Effect.leaves_lift _ outcome).bind (fun _ start => start.1) (fun a => rest a s)

private theorem purge {s r : CommandService} (same : SameRow key s r)
    (live : expiredAt (r.clock 0) r key = false) : SameRow key s (purgeIfExpired key r).2 := by
  obtain ⟨readings, ⟨-, purged⟩ | ⟨expired, -⟩⟩ := purgeIfExpired_cases key r
  · rw [purged]
    exact ⟨same.store, same.ttl⟩
  · rw [live] at expired
    cases expired

/-- Once the purge is over, the rest must leave the key alone in any case. -/
theorem bind {x : ServiceM α} {f : α → ServiceM β} (first : Reads key x)
    (rest : ∀ s a, Effect.Leaves (SameRow key s) (f a) (SameRow key s)) : Reads key (x >>= f) :=
  fun s => (first s).bind (fun _ same => same) (rest s)

theorem purgeIfExpired : Reads key (modifyGet (purgeIfExpired key) : ServiceM Bool) :=
  fun _ => Effect.leaves_modifyGet fun _ start => purge start.1 start.2

theorem getService :
    Reads key (modifyGet (getServiceExecute key) : ServiceM (Option ValueEntry)) :=
  fun _ => Effect.leaves_modifyGet fun _ start => purge start.1 start.2

theorem getTypedEntry (valueType : ValueType) : Reads key (getTypedEntry key valueType) := by
  refine bind (x := modifyGet (getLiveEntry key)) (fun s => ?_) (fun s entry => ?_)
  · refine Effect.leaves_modifyGet fun r start => ?_
    have purged := purge start.1 start.2
    unfold getLiveEntry
    dsimp only
    split
    · exact ⟨purged.store, purged.ttl⟩
    · exact ⟨by simpa using purged.store, by simpa using purged.ttl⟩
  · cases entry with
    | none => exact Effect.leaves_pure _ _
    | some entry =>
      dsimp only
      split
      · exact Effect.leaves_throw _ _
      · exact Effect.leaves_pure _ _

theorem typed {valueType : ValueType} {f : Option ValueEntry → ServiceM α}
    (absent : ∃ a, f none = Pure.pure a) (present : ∀ entry, ∃ a, f (some entry) = Pure.pure a) :
    Reads key (Service.getTypedEntry key valueType >>= f) := by
  refine bind (getTypedEntry valueType) (fun s found => ?_)
  obtain ⟨a, answers⟩ : ∃ a, f found = Pure.pure a := by
    cases found with
    | none => exact absent
    | some entry => exact present entry
  rw [answers]
  exact Effect.leaves_pure _ a

private theorem leaves_look {s : CommandService} {f : CommandService → ServiceM α}
    (rest : ∀ r, Effect.Leaves (SameRow key s) (f r) (SameRow key s)) :
    Effect.Leaves (SameRow key s) (get >>= f) (SameRow key s) :=
  Effect.Leaves.bind (M := SameRow key s) (fun _ same => same) (fun _ same => same) rest

theorem ttlService : Reads key (ttlServiceExecute key) := by
  refine bind purgeIfExpired (fun s purged => ?_)
  split
  · exact Effect.leaves_pure _ _
  · refine leaves_look (fun r => ?_)
    split
    · exact Effect.leaves_pure _ _
    · refine leaves_look (fun r => ?_)
      split
      · exact Effect.leaves_pure _ _
      · exact Effect.Leaves.bind (Effect.leaves_modifyGet fun _ same => ⟨same.store, same.ttl⟩)
          (fun _ same => same) (fun _ => Effect.leaves_lift _ _)

end Reads

/-- The single-key commands that only look. -/
def readCommands : List String :=
  ["GET", "TTL", "HGET", "HGETALL", "LRANGE", "SMEMBERS", "SISMEMBER", "ZRANGE", "ZSCORE"]

theorem execute_reads {command : Command} {key : String} (reading : command.name ∈ readCommands)
    (head : command.arguments.head? = some key) : Reads key (execute command) := by
  obtain ⟨name, arguments⟩ := command
  obtain ⟨rest, rfl⟩ : ∃ rest, arguments = key :: rest := List.head?_eq_some_iff.mp head
  simp only [readCommands, List.mem_cons, List.not_mem_nil, or_false] at reading
  rcases reading with rfl | rfl | rfl | rfl | rfl | rfl | rfl | rfl | rfl
  all_goals simp only [execute, argument, List.getElem?_cons_zero, Effect.lift_ok, pure_bind]
  · refine .bind .getService (fun s found => ?_)
    cases found with
    | none =>
      exact Effect.Leaves.bind (M := SameRow key s)
        (Effect.leaves_modifyGet fun _ same => ⟨same.store, same.ttl⟩)
        (fun _ same => same) (fun _ => Effect.leaves_pure _ _)
    | some entry =>
      refine Effect.Leaves.bind (M := SameRow key s) (Effect.leaves_modifyGet fun _ same => ?_)
        (fun _ same => same) (fun _ => Effect.Leaves.bind (Effect.leaves_lift _ _)
          (fun _ same => same) (fun _ => Effect.leaves_pure _ _))
      exact ⟨by simpa using same.store, by simpa using same.ttl⟩
  · exact .bind .ttlService fun _ _ => Effect.leaves_pure _ _
  · exact .lift fun field => .bind (.typed ⟨_, rfl⟩ fun _ => ⟨_, rfl⟩) fun _ _ =>
      Effect.leaves_pure _ _
  · exact .typed ⟨_, rfl⟩ fun _ => ⟨_, rfl⟩
  · exact .lift fun _ => .lift fun _ => .lift fun _ => .lift fun _ =>
      .typed ⟨_, rfl⟩ fun _ => ⟨_, rfl⟩
  · exact .typed ⟨_, rfl⟩ fun _ => ⟨_, rfl⟩
  · exact .lift fun member => .bind (.typed ⟨_, rfl⟩ fun _ => ⟨_, rfl⟩) fun _ _ =>
      Effect.leaves_pure _ _
  · exact .lift fun _ => .lift fun _ => .lift fun _ => .lift fun _ =>
      .typed ⟨_, rfl⟩ fun _ => ⟨_, rfl⟩
  · exact .lift fun member => .bind (.typed ⟨_, rfl⟩ fun _ => ⟨_, rfl⟩) fun _ _ =>
      Effect.leaves_pure _ _

/-! ### Two runs, two keys -/

section Runs

variable {s s' : CommandService} {command command' : Command} {key key' : String}

private theorem agreeAt_readings (readings : ℕ → ℚ) (unlimited : s.maxMemoryBytes = none)
    (unlimited' : s'.maxMemoryBytes = none) (entry : s.store.get? key = s'.store.get? key)
    (deadline : s.ttl.get? key = s'.ttl.get? key) :
    AgreeAt key { s with clock := readings } { s' with clock := readings } :=
  ⟨rfl, entry, deadline, unlimited, unlimited'⟩

private theorem execute_onlyAt (readings : ℕ → ℚ) (unlimited : s.maxMemoryBytes = none)
    (single : command.name ∈ singleKeyCommands) (head : command.arguments.head? = some key) :
    OnlyAt key s ((execute command).exec { s with clock := readings }).2 :=
  (execute_local single head).frame s _ ⟨fun _ _ => rfl, fun _ _ => rfl, unlimited⟩

private theorem execute_after_other (readings later : ℕ → ℚ) (unlimited : s.maxMemoryBytes = none)
    (single : command.name ∈ singleKeyCommands) (head : command.arguments.head? = some key)
    (single' : command'.name ∈ singleKeyCommands) (head' : command'.arguments.head? = some key')
    (apart : key' ≠ key) :
    let before := ((execute command').exec { s with clock := later }).2
    let direct := (execute command).exec { s with clock := readings }
    let after := (execute command).exec { before with clock := readings }
    direct.1 = after.1 ∧ AgreeAt key direct.2 after.2 := by
  intro before
  have only : OnlyAt key' s before := execute_onlyAt later unlimited single' head'
  exact (execute_local single head).respects _ _ (agreeAt_readings readings unlimited only.unlimited
    (only.store key apart.symm).symm (only.ttl key apart.symm).symm)

/-- Without a limit a single-key command answers from its key's row, writes no other row, writes
none at all when it only reads, and so commutes with commands on other keys. -/
theorem single_key_commands_local (readings : ℕ → ℚ)
    (unlimited : s.maxMemoryBytes = none) (unlimited' : s'.maxMemoryBytes = none)
    (entry : s.store.get? key = s'.store.get? key) (deadline : s.ttl.get? key = s'.ttl.get? key)
    (single : command.name ∈ singleKeyCommands) (head : command.arguments.head? = some key) :
    let run := (execute command).exec { s with clock := readings }
    let run' := (execute command).exec { s' with clock := readings }
    (run.1 = run'.1 ∧ run.2.store.get? key = run'.2.store.get? key ∧
      run.2.ttl.get? key = run'.2.ttl.get? key) ∧
    (∀ other, other ≠ key → run.2.store.get? other = s.store.get? other ∧
      run.2.ttl.get? other = s.ttl.get? other ∧ run'.2.store.get? other = s'.store.get? other ∧
      run'.2.ttl.get? other = s'.ttl.get? other) ∧
    (command.name ∈ readCommands → expiredAt (readings 0) s key = false →
      run.2.store.get? key = s.store.get? key ∧ run.2.ttl.get? key = s.ttl.get? key) ∧
    ∀ (later : ℕ → ℚ) (command' : Command) (key' : String), key' ≠ key →
      command'.name ∈ singleKeyCommands → command'.arguments.head? = some key' →
      let second := (execute command').exec { run.2 with clock := later }
      let early := (execute command').exec { s with clock := later }
      let late := (execute command).exec { early.2 with clock := readings }
      late.1 = run.1 ∧ second.1 = early.1 ∧
      ∀ any, second.2.store.get? any = late.2.store.get? any ∧
        second.2.ttl.get? any = late.2.ttl.get? any := by
  have agree := (execute_local single head).respects _ _
    (agreeAt_readings readings unlimited unlimited' entry deadline)
  have only : OnlyAt key s _ := execute_onlyAt readings unlimited single head
  have only' : OnlyAt key s' _ := execute_onlyAt readings unlimited' single head
  refine ⟨⟨agree.1, agree.2.store, agree.2.ttl⟩, fun other h => ?_, fun reading live => ?_,
    fun later command' key' apart single' head' => ?_⟩
  · exact ⟨only.store other h, only.ttl other h, only'.store other h, only'.ttl other h⟩
  · have same := execute_reads reading head s { s with clock := readings } ⟨⟨rfl, rfl⟩, live⟩
    exact ⟨same.store, same.ttl⟩
  · obtain ⟨reply, row⟩ := execute_after_other readings later unlimited single head single' head' apart
    obtain ⟨reply', row'⟩ :=
      execute_after_other later readings unlimited single' head' single head apart.symm
    have early : OnlyAt key' s _ := execute_onlyAt later unlimited single' head'
    have second : OnlyAt key' _ _ := execute_onlyAt later only.unlimited single' head'
    have late : OnlyAt key _ _ := execute_onlyAt readings early.unlimited single head
    refine ⟨reply.symm, reply'.symm, fun any => ?_⟩
    -- each key is written by at most one of the two commands
    by_cases first : any = key
    · subst first
      exact ⟨(second.store any apart.symm).trans row.store, (second.ttl any apart.symm).trans row.ttl⟩
    · by_cases other : any = key'
      · subst other
        exact ⟨row'.store.symm.trans (late.store any apart).symm,
          row'.ttl.symm.trans (late.ttl any apart).symm⟩
      · exact ⟨((second.store any other).trans (only.store any first)).trans
            ((late.store any first).trans (early.store any other)).symm,
          ((second.ttl any other).trans (only.ttl any first)).trans
            ((late.ttl any first).trans (early.ttl any other)).symm⟩

end Runs

private def oneKey : CommandService :=
  Event.step (.command (fun _ => 0) ⟨"SET", ["a", "1"]⟩) (CommandService.init (fun _ => 0) none)

private def twoKeys : CommandService :=
  Event.step (.command (fun _ => 0) ⟨"EXPIRE", ["b", "5"]⟩)
    (Event.step (.command (fun _ => 0) ⟨"SADD", ["b", "m"]⟩) oneKey)

theorem pop_fails_alike_beside_another_key :
    ((execute ⟨"LPOP", ["a"]⟩).exec { oneKey with clock := fun _ => 9 }).1 =
      ((execute ⟨"LPOP", ["a"]⟩).exec { twoKeys with clock := fun _ => 9 }).1 :=
  (single_key_commands_local (fun _ => 9) (rfl : oneKey.maxMemoryBytes = none)
    (rfl : twoKeys.maxMemoryBytes = none) (by decide +kernel) (by decide +kernel) (by decide) rfl).1.1

end MiniRedis.Service
