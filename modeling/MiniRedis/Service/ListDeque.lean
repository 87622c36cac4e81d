/- GID: MiniRedis/Service/ListDeque
   generality: I
   digest: A list key is a double-ended queue that is there exactly while it has elements. -/

import MiniRedis.Base.Deque
import MiniRedis.Base.Trace
import MiniRedis.Service.Counting
import MiniRedis.Service.Deadlines

set_option autoImplicit false
set_option relaxedAutoImplicit false

namespace MiniRedis.Service

open MiniRedis.Base MiniRedis.Python MiniRedis.Protocol MiniRedis.Commands

variable {s : CommandService} {key : String} {d : Deque String}

/-! ### Requests as calls -/

/-- The commands on lists, and the one that sets a deadline. -/
def dequeCommands : List String := ["LPUSH", "RPUSH", "LPOP", "RPOP", "LRANGE", "EXPIRE"]

/-- An index of `LRANGE`. -/
def indexArgument (request : Command) (n : ℕ) : ℤ := ((request.arguments[n]?).bind parseInt).getD 0

/-- What a request asks of the deque under its key. -/
def dequeCall (request : Command) : DequeCall String :=
  match request.name with
  | "LPUSH" => .pushFront request.arguments.tail
  | "RPUSH" => .pushBack request.arguments.tail
  | "LPOP" => .popFront
  | "RPOP" => .popBack
  | "LRANGE" => .range (indexArgument request 1) (indexArgument request 2)
  | _ => .limit

def dequeReply : DequeReply String → RespValue
  | .length n => .number n
  | .popped value => blobOrNull value
  | .items values => blobArray values
  | .applied done => .number (if done then 1 else 0)

/-- The key is stored exactly while the deque has elements, with them, and has a deadline exactly
while the deque has its limit. -/
structure ShowsDeque (key : String) (s : CommandService) (d : Deque String) : Prop where
  store : s.store.get? key = if d.items = [] then none else some (.list d.items)
  deadline : (s.ttl.get? key).isSome = d.limited

theorem sliceSequence_eq (values : List String) (start stop : ℤ) :
    sliceSequence values start stop = Deque.slice values start stop := by
  rw [Deque.slice_eq]
  unfold sliceSequence Deque.position
  by_cases none_held : values = []
  · simp [none_held]
  · rw [if_neg none_held]
    have held : 0 < values.length := List.length_pos_iff.mpr none_held
    dsimp only
    generalize (if start < 0 then start + (values.length : ℤ) else start) = first
    generalize (if stop < 0 then stop + (values.length : ℤ) else stop) = last
    have from_zero : (if first < 0 then 0 else first).toNat = first.toNat := by
      split_ifs <;> omega
    by_cases outside : last < 0 ∨ (if first < 0 then 0 else first) ≥ (values.length : ℤ) ∨
        (if first < 0 then 0 else first) > last
    · rw [if_pos outside]
      refine (List.drop_eq_nil_of_le ?_).symm
      rw [List.length_take]
      split_ifs at outside <;> omega
    · rw [if_neg outside, from_zero]
      by_cases beyond : last ≥ (values.length : ℤ)
      · rw [if_pos beyond, List.take_of_length_le (by omega), List.take_of_length_le (by omega)]
      · rw [if_neg beyond]

/-- A window has, in order, the elements whose index lies between its ends, each counted from the
end where it is negative and moved to the end of the list where it lies beyond it; and windows that
follow each other make up the list. -/
theorem index_windows (values : List String) :
    (∀ start stop : ℤ,
      let n : ℤ := values.length
      let s := if start < 0 then start + n else start
      let e := if stop < 0 then stop + n else stop
      sliceSequence values start stop = (values.zipIdx.filter (fun element =>
        max 0 s ≤ element.2 ∧ (element.2 : ℤ) ≤ min (n - 1) e)).map Prod.fst) ∧
    ∀ a b : ℤ, 0 ≤ a → a ≤ b → b < values.length →
      sliceSequence values 0 a ++ sliceSequence values (a + 1) b ++
        sliceSequence values (b + 1) (-1) = values := by
  constructor
  · intro start stop n s e
    rw [sliceSequence_eq]
    exact Deque.slice_clamped values start stop
  · intro a b first ordered _
    simp only [sliceSequence_eq]
    exact Deque.slice_windows values first ordered

/-! ### One request -/

private theorem typed_step (consistent : Consistent s) (unlimited : s.maxMemoryBytes = none)
    (shows : ShowsDeque key s d) {readings : ℕ → ℚ}
    (lasting : expiredAt (readings 0) s key = false) {name : String} {rest : List String}
    {op : TypedOp} (denotes : DenotesTyped name rest op) {reply : RespValue} {d' : Deque String}
    (replies : op.reply (if d.items = [] then none else some (.list d.items)) = .ok reply)
    (leaves : op.left (if d.items = [] then none else some (.list d.items)) =
      if d'.items = [] then none else some (.list d'.items))
    (limited : d'.limited = (d.limited && !d'.items.isEmpty)) :
    let result := (execute ⟨name, key :: rest⟩).exec { s with clock := readings }
    result.1 = .ok reply ∧ ShowsDeque key result.2 d' := by
  have live : liveEntry (readings 0) s key =
      if d.items = [] then none else some (.list d.items) := by
    rw [liveEntry, lasting]
    exact shows.store
  have dated : liveDeadline (readings 0) s key = s.ttl.get? key := by
    rw [liveDeadline, lasting]
    rfl
  have replied := performTyped_reply key op { s with clock := readings }
  obtain ⟨row, deadline⟩ := performTyped_row (consistent.tick readings) unlimited key op
  rw [liveEntry_tick] at replied row deadline
  simp only [live, replies, leaves] at replied row deadline
  have kept : liveDeadline (readings 0) { s with clock := readings } key = s.ttl.get? key := dated
  rw [kept] at deadline
  intro result
  have ran : result = performTyped key op { s with clock := readings } :=
    execute_typed denotes key _
  refine ⟨by rw [ran, replied], ⟨by rw [ran, row], ?_⟩⟩
  rw [ran, deadline, limited, ← shows.deadline]
  by_cases ended : d'.items = [] <;> simp [ended]

private theorem expire_step (consistent : Consistent s) (shows : ShowsDeque key s d)
    {readings : ℕ → ℚ} (lasting : expiredAt (readings 0) s key = false) (seconds : PyFloat) :
    let result := perform (.expire key seconds) { s with clock := readings }
    result.1 = .ok (dequeReply (.applied (!d.items.isEmpty))) ∧
      ShowsDeque key result.2 d.limit := by
  have stored : (purgeIfExpired key { s with clock := readings }).2.store.get? key =
      if d.items = [] then none else some (.list d.items) := by
    rw [purgeIfExpired_store, liveEntry_tick, liveEntry, lasting]
    exact shows.store
  have purged := (purgeIfExpired_removals key _).moves.consistent (consistent.tick readings)
  rw [perform_expire]
  by_cases none_held : d.items = []
  · rw [if_pos none_held] at stored
    rw [if_pos stored]
    refine ⟨by simp [none_held, dequeReply], ⟨?_, ?_⟩⟩
    · rw [stored]
      simp [Deque.limit, none_held]
    · rw [purged.noOrphan key stored]
      simp [Deque.limit, none_held]
  · rw [if_neg none_held] at stored
    rw [if_neg (by simp [stored])]
    refine ⟨by simp [none_held, dequeReply], ⟨?_, ?_⟩⟩
    · simp [now, stored, Deque.limit, none_held]
    · simp [now, Deque.limit, none_held]

private theorem push_step (consistent : Consistent s) (unlimited : s.maxMemoryBytes = none)
    (shows : ShowsDeque key s d) {readings : ℕ → ℚ}
    (lasting : expiredAt (readings 0) s key = false) {name : String} {rest : List String}
    {op : TypedOp} (denotes : DenotesTyped name rest op) {d' : Deque String}
    (creates : op.emptyContainer = some (.list [])) (typed : op.valueType = .list)
    (writes : op.onEntry (.list d.items) = (.number d'.items.length, .put (.list d'.items)))
    (grown : d'.items ≠ []) (limited : d'.limited = d.limited) :
    let result := (execute ⟨name, key :: rest⟩).exec { s with clock := readings }
    result.1 = .ok (.number d'.items.length) ∧ ShowsDeque key result.2 d' := by
  refine typed_step consistent unlimited shows lasting denotes ?_ ?_ ?_
  · by_cases none_held : d.items = []
    · rw [none_held] at writes
      simp [none_held, TypedOp.reply, creates, writes]
    · simp [none_held, TypedOp.reply, ValueEntry.valueType, typed, writes]
  · by_cases none_held : d.items = []
    · rw [none_held] at writes
      simp [none_held, TypedOp.left, creates, writes, EntryUpdate.result, grown]
    · simp [none_held, TypedOp.left, ValueEntry.valueType, typed, writes, EntryUpdate.result, grown]
  · simp [limited, grown]

private theorem pop_step (consistent : Consistent s) (unlimited : s.maxMemoryBytes = none)
    (shows : ShowsDeque key s d) {readings : ℕ → ℚ}
    (lasting : expiredAt (readings 0) s key = false) {name : String} {rest : List String}
    {op : TypedOp} (denotes : DenotesTyped name rest op) {value : Option String}
    {left : List String} (creates : op.emptyContainer = none) (typed : op.valueType = .list)
    (absent : op.absentReply = .null) (nothing : d.items = [] → value = none ∧ left = [])
    (takes : d.items ≠ [] → op.onEntry (.list d.items) =
      (blobOrNull value, if left = [] then .remove else .put (.list left))) :
    let result := (execute ⟨name, key :: rest⟩).exec { s with clock := readings }
    result.1 = .ok (blobOrNull value) ∧ ShowsDeque key result.2 (d.keep left) := by
  refine typed_step consistent unlimited shows lasting denotes ?_ ?_ rfl
  · by_cases none_held : d.items = []
    · simp [none_held, TypedOp.reply, creates, absent, (nothing none_held).1, blobOrNull]
    · simp [none_held, TypedOp.reply, ValueEntry.valueType, typed, takes none_held]
  · by_cases none_held : d.items = []
    · simp [none_held, TypedOp.left, creates, Deque.keep, (nothing none_held).2]
    · by_cases ended : left = [] <;>
        simp [none_held, TypedOp.left, ValueEntry.valueType, typed, takes none_held, Deque.keep,
          EntryUpdate.result, ended]

private theorem range_step (consistent : Consistent s) (unlimited : s.maxMemoryBytes = none)
    (shows : ShowsDeque key s d) {readings : ℕ → ℚ}
    (lasting : expiredAt (readings 0) s key = false) {a b : String} {start stop : ℤ}
    (first : parseInt a = some start) (last : parseInt b = some stop) :
    let result := (execute ⟨"LRANGE", [key, a, b]⟩).exec { s with clock := readings }
    result.1 = .ok (blobArray (Deque.slice d.items start stop)) ∧ ShowsDeque key result.2 d := by
  have all_there : d.limited = (d.limited && !d.items.isEmpty) := by
    by_cases none_held : d.items = []
    · rw [d.unlimited_empty none_held]
      rfl
    · simp [none_held]
  refine typed_step consistent unlimited shows lasting (.lrange first last) ?_ ?_ all_there
  · by_cases none_held : d.items = []
    · simp [none_held, TypedOp.reply, TypedOp.emptyContainer, TypedOp.absentReply, Deque.slice,
        blobArray]
    · simp [none_held, TypedOp.reply, ValueEntry.valueType, TypedOp.valueType, TypedOp.onEntry,
        ValueEntry.listValue, sliceSequence_eq]
  · by_cases none_held : d.items = []
    · simp [none_held, TypedOp.left, TypedOp.emptyContainer]
    · simp [none_held, TypedOp.left, ValueEntry.valueType, TypedOp.valueType, TypedOp.onEntry,
        EntryUpdate.result]

/-- Each request answers as the deque does, and leaves the key to show the deque's next state. -/
theorem ShowsDeque.step (shows : ShowsDeque key s d) (consistent : Consistent s)
    (unlimited : s.maxMemoryBytes = none) {request : Command}
    (accepted : validate request = .ok ()) (named : request.name ∈ dequeCommands)
    (head : request.arguments.head? = some key) {readings : ℕ → ℚ}
    (lasting : expiredAt (readings 0) s key = false) :
    let result := (execute request).exec { s with clock := readings }
    result.1 = .ok (dequeReply (Deque.step (dequeCall request) d).1) ∧
      ShowsDeque key result.2 (Deque.step (dequeCall request) d).2 := by
  obtain ⟨op, denotes⟩ := accepted_denotes accepted
  cases denotes with
  | @expire key' text seconds read positive =>
    obtain rfl : key' = key := by simpa using head
    rw [execute_denotes (.expire key' read positive)]
    exact expire_step consistent shows lasting seconds
  | @typed name key' rest op denotes =>
    obtain rfl : key' = key := by simpa using head
    cases denotes with
    | lpush value values =>
      have pushed := foldl_pushed (value :: values) d.items
      exact push_step consistent unlimited shows lasting (.lpush value values)
        (show _ = _ from rfl) rfl
        (by simp [TypedOp.onEntry, ValueEntry.listValue, pushed, Deque.pushFront])
        (by simp [Deque.pushFront]) rfl
    | rpush value values =>
      exact push_step consistent unlimited shows lasting (.rpush value values)
        (show _ = _ from rfl) rfl
        (by simp [TypedOp.onEntry, ValueEntry.listValue, Deque.pushBack])
        (by simp [Deque.pushBack]) rfl
    | lpop =>
      refine pop_step consistent unlimited shows lasting .lpop rfl rfl rfl ?_ ?_
      · intro none_held
        simp [none_held]
      · intro some_held
        obtain ⟨value, left, same⟩ := List.exists_cons_of_ne_nil some_held
        simp [TypedOp.onEntry, ValueEntry.listValue, same, blobOrNull]
    | rpop =>
      refine pop_step consistent unlimited shows lasting .rpop rfl rfl rfl ?_ ?_
      · intro none_held
        simp [none_held]
      · intro some_held
        have last := List.getLast?_eq_some_getLast some_held
        by_cases ended : d.items.dropLast = [] <;>
          simp [TypedOp.onEntry, ValueEntry.listValue, last, blobOrNull, ended]
    | @lrange a b start stop first last =>
      have asked : dequeCall ⟨"LRANGE", [key', a, b]⟩ = .range start stop := by
        simp [dequeCall, indexArgument, first, last]
      rw [asked]
      exact range_step consistent unlimited shows lasting first last
    | _ => simp [dequeCommands] at named
  | _ => simp [dequeCommands] at named

/-! ### Sequences of requests -/

/-- The requests with the readings of the clock that each will make. -/
abbrev Requests := List ((ℕ → ℚ) × Command)

def Requests.events (requests : Requests) : List Event :=
  requests.map (fun request => .command request.1 request.2)

def Requests.calls (requests : Requests) : List (DequeCall String) :=
  requests.map (fun request => dequeCall request.2)

/-- The event does not find the key expired. -/
def Event.Lasting (key : String) : Event → CommandService → Prop
  | .command readings _, s => expiredAt (readings 0) s key = false
  | .sweep _ _, _ => True

/-- The accepted requests on lists, and for deadlines, that go to one key. -/
def OnDeque (key : String) (request : Command) : Prop :=
  validate request = .ok () ∧ request.name ∈ dequeCommands ∧ request.arguments.head? = some key

theorem showsDeque_empty (consistent : Consistent s) (absent : s.store.get? key = none) :
    ShowsDeque key s Deque.empty :=
  ⟨by simp [Deque.empty, absent], by simp [Deque.empty, consistent.noOrphan key absent]⟩

private theorem requests_as_deque (reached : Reachable s) (unlimited : s.maxMemoryBytes = none)
    (shows : ShowsDeque key s d) {requests : Requests}
    (all_listed : ∀ request ∈ requests, OnDeque key request.2)
    (lasting : EachStep Event.step (Event.Lasting key) requests.events s) :
    replies s requests.events =
        (outcomes Deque.step requests.calls d).map (fun reply => .ok (dequeReply reply)) ∧
      ShowsDeque key (run requests.events s) (after Deque.step requests.calls d) ∧
      Reachable (run requests.events s) ∧ (run requests.events s).maxMemoryBytes = none := by
  induction requests generalizing s d with
  | nil => exact ⟨rfl, shows, reached, unlimited⟩
  | cons request rest ih =>
    obtain ⟨readings, request⟩ := request
    obtain ⟨accepted, named, head⟩ := all_listed _ List.mem_cons_self
    obtain ⟨here, later⟩ := lasting
    obtain ⟨reply, next⟩ := shows.step reached.consistent unlimited accepted named head here
    have reached' : Reachable (Event.step (.command readings request) s) := .step reached accepted
    have unlimited' : (Event.step (.command readings request) s).maxMemoryBytes = none := by
      obtain ⟨op, denotes⟩ := accepted_denotes accepted
      rw [Event.step, execute_denotes denotes]
      refine (perform_maxMemoryBytes (fun value same => ?_) _).trans unlimited
      subst same
      cases denotes
      simp [dequeCommands] at named
    obtain ⟨same, last⟩ := ih reached' unlimited' next
      (fun other member => all_listed other (List.mem_cons_of_mem _ member)) later
    refine ⟨?_, last⟩
    simp only [Requests.events, Requests.calls, List.map_cons, replies, outcomes, List.cons.injEq]
    exact ⟨reply, same⟩

/-- Without a limit and as long as the key does not expire, every sequence of list requests and
`EXPIRE`s on a key that holds a list, or nothing, is answered by a double-ended queue. The key is
stored exactly while the queue has elements, its deadline ends with the last one, and what was
pushed is what was popped and what `LRANGE 0 -1` still shows. -/
theorem lists_are_deques (reached : Reachable s) (unlimited : s.maxMemoryBytes = none)
    (shows : ShowsDeque key s d) (requests : Requests)
    (all_listed : ∀ request ∈ requests, OnDeque key request.2)
    (lasting : EachStep Event.step (Event.Lasting key) requests.events s) :
    let told := outcomes Deque.step requests.calls d
    let last := after Deque.step requests.calls d
    replies s requests.events = told.map (fun reply => .ok (dequeReply reply)) ∧
    ShowsDeque key (run requests.events s) last ∧
    (Deque.pushed requests.calls ++ d.items).Perm (Deque.taken told ++ last.items) ∧
    ∀ readings : ℕ → ℚ, expiredAt (readings 0) (run requests.events s) key = false →
      ((execute ⟨"LRANGE", [key, "0", "-1"]⟩).exec
        { run requests.events s with clock := readings }).1 = .ok (blobArray last.items) := by
  intro told last
  obtain ⟨same, shows', reached', unlimited'⟩ :=
    requests_as_deque reached unlimited shows all_listed lasting
  refine ⟨same, shows', Deque.conserved requests.calls d, fun readings still => ?_⟩
  have zero : parseInt "0" = some 0 := by decide +kernel
  have minus_one : parseInt "-1" = some (-1) := by decide +kernel
  have all := (range_step reached'.consistent unlimited' shows' still zero minus_one).1
  rw [Deque.slice_all] at all
  exact all

private def usedUp : Requests :=
  [(fun _ => 0, ⟨"LPUSH", ["k", "a", "b"]⟩), (fun _ => 0, ⟨"EXPIRE", ["k", "9"]⟩),
    (fun _ => 1, ⟨"RPOP", ["k"]⟩), (fun _ => 1, ⟨"LPOP", ["k"]⟩),
    (fun _ => 2, ⟨"RPUSH", ["k", "c"]⟩)]

theorem used_up_list_starts_again :
    ShowsDeque "k" (run usedUp.events (CommandService.init (fun _ => 0) none))
      ⟨["c"], false, by simp⟩ := by
  have reached : Reachable (CommandService.init (fun _ => 0) none) := .init _ none
  have listed : ∀ request ∈ usedUp, OnDeque "k" request.2 := by
    intro request member
    simp only [usedUp, List.mem_cons, List.not_mem_nil, or_false] at member
    rcases member with rfl | rfl | rfl | rfl | rfl <;>
      exact ⟨by decide +kernel, by decide, rfl⟩
  have lasting : EachStep Event.step (Event.Lasting "k") usedUp.events
      (CommandService.init (fun _ => 0) none) :=
    ⟨by unfold Event.Lasting; decide +kernel, by unfold Event.Lasting; decide +kernel,
      by unfold Event.Lasting; decide +kernel, by unfold Event.Lasting; decide +kernel,
      by unfold Event.Lasting; decide +kernel, trivial⟩
  have last := (lists_are_deques reached rfl (showsDeque_empty reached.consistent rfl) usedUp listed
    lasting).2.1
  have ended : after Deque.step usedUp.calls Deque.empty = ⟨["c"], false, by simp⟩ := by
    apply Deque.ext <;> decide +kernel
  rwa [ended] at last

end MiniRedis.Service
