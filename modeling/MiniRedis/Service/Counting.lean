/- GID: MiniRedis/Service/Counting
   generality: I
   digest: Integer replies count the members, fields and elements that a command adds or removes. -/

import MiniRedis.Service.Containers

set_option autoImplicit false
set_option relaxedAutoImplicit false

namespace MiniRedis.Service

open MiniRedis.Base MiniRedis.Python MiniRedis.Protocol MiniRedis.Commands

variable {s : CommandService} {key : String}

/-! ### The loops that count -/

private theorem addMembers_spec (members : List String) (created : ℤ) (set : Finset String) :
    (addMembers members (created, set)).1 =
        created + (addMembers members (created, set)).2.card - set.card ∧
      ∀ m, m ∈ (addMembers members (created, set)).2 ↔ m ∈ set ∨ m ∈ members := by
  induction members generalizing created set with
  | nil => simp [addMembers]
  | cons first rest ih =>
    have step : addMembers (first :: rest) (created, set) =
        addMembers rest (if first ∉ set then created + 1 else created, insert first set) := rfl
    obtain ⟨count, mem⟩ := ih (if first ∉ set then created + 1 else created) (insert first set)
    rw [step]
    constructor
    · rw [count]
      by_cases present : first ∈ set
      · simp [present]
      · rw [if_pos present, Finset.card_insert_of_notMem present]
        push_cast
        omega
    · intro m
      rw [mem, Finset.mem_insert, List.mem_cons]
      tauto

private theorem removeMembers_spec (members : List String) (removed : ℤ) (set : Finset String) :
    (removeMembers members (removed, set)).1 =
        removed + set.card - (removeMembers members (removed, set)).2.card ∧
      ∀ m, m ∈ (removeMembers members (removed, set)).2 ↔ m ∈ set ∧ m ∉ members := by
  induction members generalizing removed set with
  | nil => simp [removeMembers]
  | cons first rest ih =>
    have step : removeMembers (first :: rest) (removed, set) =
        removeMembers rest (if first ∈ set then removed + 1 else removed, set.erase first) := rfl
    obtain ⟨count, mem⟩ := ih (if first ∈ set then removed + 1 else removed) (set.erase first)
    rw [step]
    constructor
    · rw [count]
      by_cases present : first ∈ set
      · have fewer := Finset.card_erase_add_one present
        rw [if_pos present]
        omega
      · rw [if_neg present, Finset.erase_eq_of_notMem present]
    · intro m
      rw [mem, Finset.mem_erase, List.mem_cons]
      tauto

/-- The score given last for a member. -/
def lastScore (pairs : List (PyFloat × String)) (member : String) : Option PyFloat :=
  (pairs.reverse.find? (fun pair => pair.2 = member)).map Prod.fst

theorem lastScore_cons (score : PyFloat) (first : String)
    (rest : List (PyFloat × String)) (member : String) :
    lastScore ((score, first) :: rest) member =
      (lastScore rest member).or (if first = member then some score else none) := by
  unfold lastScore
  rw [List.reverse_cons, List.find?_append]
  by_cases same : first = member <;>
    cases (rest.reverse.find? (fun pair => decide (pair.2 = member))) <;> simp [same]

theorem addScores_spec (pairs : List (PyFloat × String)) (created : ℤ)
    (zset : Dict String PyFloat) :
    (TypedOp.addScores pairs (created, zset)).1 =
        created + (TypedOp.addScores pairs (created, zset)).2.size - zset.size ∧
      ∀ m, (TypedOp.addScores pairs (created, zset)).2.get? m =
        (lastScore pairs m).or (zset.get? m) := by
  induction pairs generalizing created zset with
  | nil => simp [TypedOp.addScores, lastScore]
  | cons pair rest ih =>
    obtain ⟨score, first⟩ := pair
    have step : TypedOp.addScores ((score, first) :: rest) (created, zset) =
        TypedOp.addScores rest
          (if zset.get? first = none then created + 1 else created, zset.set first score) := rfl
    obtain ⟨count, found⟩ := ih (if zset.get? first = none then created + 1 else created)
      (zset.set first score)
    rw [step]
    constructor
    · have larger := Dict.size_set zset first score
      rw [count, larger]
      split_ifs
      · push_cast
        omega
      · push_cast
        omega
    · intro m
      rw [found, lastScore_cons, Dict.get?_set]
      by_cases same : m = first
      · subst same
        cases lastScore rest m <;> simp
      · rw [if_neg same, if_neg (fun h => same h.symm), Option.or_none]

private theorem removeScores_spec (members : List String) (removed : ℤ)
    (zset : Dict String PyFloat) :
    (removeScores members (removed, zset)).1 =
        removed + zset.size - (removeScores members (removed, zset)).2.size ∧
      ∀ m, (removeScores members (removed, zset)).2.get? m =
        if m ∈ members then none else zset.get? m := by
  induction members generalizing removed zset with
  | nil => simp [removeScores]
  | cons first rest ih =>
    have step : removeScores (first :: rest) (removed, zset) =
        removeScores rest
          (if zset.get? first = none then removed else removed + 1, zset.erase first) := rfl
    obtain ⟨count, found⟩ := ih (if zset.get? first = none then removed else removed + 1)
      (zset.erase first)
    rw [step]
    constructor
    · rw [count]
      cases present : zset.get? first with
      | none => simp [Dict.erase_eq_self present]
      | some score =>
        have fewer := Dict.size_erase present
        rw [if_neg (by simp)]
        omega
    · intro m
      rw [found, Dict.get?_erase]
      by_cases same : m = first <;> simp [same]

theorem foldl_pushed (values items : List String) :
    values.foldl (fun list value => value :: list) items = values.reverse ++ items := by
  induction values generalizing items with
  | nil => rfl
  | cons first rest ih =>
    rw [List.foldl_cons, ih, List.reverse_cons, List.append_assoc]
    rfl

/-! ### What a key holds, by type -/

/-- The set under a key, which is empty where the key is absent. -/
def setView : Option ValueEntry → Option (Finset String)
  | none => some ∅
  | some (.set members) => some members
  | some _ => none

def hashView : Option ValueEntry → Option (Dict String String)
  | none => some Dict.empty
  | some (.hash fields) => some fields
  | some _ => none

def listView : Option ValueEntry → Option (List String)
  | none => some []
  | some (.list items) => some items
  | some _ => none

def zsetView : Option ValueEntry → Option (Dict String PyFloat)
  | none => some Dict.empty
  | some (.zset scores) => some scores
  | some _ => none

/-- The request answers with a number and turns what the key holds into what the law says; a value
of another type refuses it and stays. -/
def Counts {γ : Type} (view : Option ValueEntry → Option γ) (law : γ → ℤ → γ → Prop)
    (s : CommandService) (readings : ℕ → ℚ) (key : String) (request : Command) : Prop :=
  let result := (execute request).exec { s with clock := readings }
  match view (liveEntry (readings 0) s key) with
  | some old =>
    ∃ n new, result.1 = .ok (.number n) ∧
      view (liveEntry (readings 0) result.2 key) = some new ∧ law old n new
  | none =>
    result.1 = .error (.commandError ERR_WRONG_TYPE) ∧
      liveEntry (readings 0) result.2 key = liveEntry (readings 0) s key

private theorem counts_of_denotes {γ : Type} {view : Option ValueEntry → Option γ}
    {law : γ → ℤ → γ → Prop} (consistent : Consistent s) (unlimited : s.maxMemoryBytes = none)
    (readings : ℕ → ℚ) {name : String} {rest : List String} {op : TypedOp}
    (denotes : DenotesTyped name rest op) (absent : (view none).isSome)
    (mistyped : ∀ entry, view (some entry) = none → entry.valueType ≠ op.valueType)
    (runs : ∀ found old, view found = some old → ∃ n new,
      op.reply found = .ok (.number n) ∧ view (op.left found) = some new ∧ law old n new) :
    Counts view law s readings key ⟨name, key :: rest⟩ := by
  have reply := performTyped_reply key op { s with clock := readings }
  have live := performTyped_live (consistent.tick readings) unlimited key op
  unfold Counts
  simp only [execute_typed denotes, reply, live, liveEntry_tick]
  generalize liveEntry (readings 0) s key = found
  cases held : view found with
  | some old => exact runs _ old held
  | none =>
    cases found with
    | none => simp [held] at absent
    | some entry =>
      have other := mistyped entry held
      exact ⟨by simp [TypedOp.reply, other], by simp [TypedOp.left, other]⟩

private theorem denotes_of_accepted {name : String} {rest : List String}
    (accepted : validate ⟨name, key :: rest⟩ = .ok ())
    (listed : typedCommands.lookup name ≠ none) : ∃ op, DenotesTyped name rest op := by
  obtain ⟨op, denotes⟩ := accepted_denotes accepted
  rcases denotes.typed_or with ⟨_, _, top, _, rfl, -, -⟩ | ⟨-, unlisted, -⟩
  · cases denotes with
    | typed _ denotes => exact ⟨_, denotes⟩
  · exact (listed unlisted).elim

private def listOps : List (String × (List String → TypedOp)) :=
  [("SADD", .sadd), ("SREM", .srem), ("ZREM", .zrem), ("LPUSH", .lpush), ("RPUSH", .rpush)]

private theorem list_op_of_accepted {name : String} {build : List String → TypedOp}
    {rest : List String} (listed : (name, build) ∈ listOps)
    (accepted : validate ⟨name, key :: rest⟩ = .ok ()) : DenotesTyped name rest (build rest) := by
  simp only [listOps, List.mem_cons, Prod.mk.injEq, List.not_mem_nil, or_false] at listed
  have typed : typedCommands.lookup name ≠ none := by
    rcases listed with ⟨rfl, -⟩ | ⟨rfl, -⟩ | ⟨rfl, -⟩ | ⟨rfl, -⟩ | ⟨rfl, -⟩ <;> decide
  obtain ⟨op, denotes⟩ := denotes_of_accepted accepted typed
  have same : op = build rest := by
    cases denotes <;> simp at listed <;> subst listed <;> rfl
  rwa [same] at denotes

theorem zadd_of_accepted {arguments : List String}
    (accepted : validate ⟨"ZADD", key :: arguments⟩ = .ok ()) :
    ∃ pairs, readPairs arguments = some pairs ∧ DenotesTyped "ZADD" arguments (.zadd pairs) := by
  obtain ⟨op, denotes⟩ := denotes_of_accepted accepted (by decide)
  generalize named : "ZADD" = name at denotes
  cases denotes with
  | zadd read some_pair => exact ⟨_, read, .zadd read some_pair⟩
  | _ => simp at named

/-! ### The counts -/

private theorem valueType_ne_set (entry : ValueEntry) (other : setView (some entry) = none) :
    entry.valueType ≠ .set := by
  cases entry with
  | set value => cases other
  | _ => simp [ValueEntry.valueType]

private theorem valueType_ne_zset (entry : ValueEntry) (other : zsetView (some entry) = none) :
    entry.valueType ≠ .zset := by
  cases entry with
  | zset value => cases other
  | _ => simp [ValueEntry.valueType]

private theorem valueType_ne_hash (entry : ValueEntry) (other : hashView (some entry) = none) :
    entry.valueType ≠ .hash := by
  cases entry with
  | hash value => cases other
  | _ => simp [ValueEntry.valueType]

private theorem valueType_ne_list (entry : ValueEntry) (other : listView (some entry) = none) :
    entry.valueType ≠ .list := by
  cases entry with
  | list value => cases other
  | _ => simp [ValueEntry.valueType]

section Laws

variable (consistent : Consistent s) (unlimited : s.maxMemoryBytes = none) (readings : ℕ → ℚ)

include consistent unlimited

private theorem counts_sadd {members : List String}
    (denotes : DenotesTyped "SADD" members (.sadd members)) :
    Counts setView
      (fun old n new => n = new.card - old.card ∧ ∀ m, m ∈ new ↔ m ∈ old ∨ m ∈ members)
      s readings key ⟨"SADD", key :: members⟩ := by
  refine counts_of_denotes consistent unlimited readings denotes rfl valueType_ne_set ?_
  intro found old held
  obtain ⟨count, mem⟩ := addMembers_spec members 0 old
  rw [zero_add] at count
  rcases found with _ | value | value | value | value | value <;> cases held
  · exact ⟨(addMembers members (0, ∅)).1, (addMembers members (0, ∅)).2, rfl, rfl, count, mem⟩
  · exact ⟨(addMembers members (0, old)).1, (addMembers members (0, old)).2, rfl, rfl, count, mem⟩

private theorem counts_srem {members : List String}
    (denotes : DenotesTyped "SREM" members (.srem members)) :
    Counts setView
      (fun old n new => n = old.card - new.card ∧ ∀ m, m ∈ new ↔ m ∈ old ∧ m ∉ members)
      s readings key ⟨"SREM", key :: members⟩ := by
  refine counts_of_denotes consistent unlimited readings denotes rfl valueType_ne_set ?_
  intro found old held
  obtain ⟨count, mem⟩ := removeMembers_spec members 0 old
  rcases found with _ | value | value | value | value | value <;> cases held
  · exact ⟨0, ∅, rfl, rfl, by simp, by simp⟩
  · have kept : setView (TypedOp.left (.srem members) (some (.set old))) =
        some (removeMembers members (0, old)).2 := by
      by_cases empty : (removeMembers members (0, old)).2 = ∅ <;>
        simp [TypedOp.left, TypedOp.onEntry, ValueEntry.valueType, TypedOp.valueType,
          ValueEntry.setValue, empty, EntryUpdate.result, setView]
    rw [zero_add] at count
    exact ⟨(removeMembers members (0, old)).1, _, rfl, kept, count, mem⟩

private theorem counts_zadd {arguments : List String} {pairs : List (PyFloat × String)}
    (denotes : DenotesTyped "ZADD" arguments (.zadd pairs)) :
    Counts zsetView
      (fun old n new => n = new.size - old.size ∧
        ∀ m, new.get? m = (lastScore pairs m).or (old.get? m))
      s readings key ⟨"ZADD", key :: arguments⟩ := by
  refine counts_of_denotes consistent unlimited readings denotes rfl valueType_ne_zset ?_
  intro found old held
  obtain ⟨count, scores⟩ := addScores_spec pairs 0 old
  rw [zero_add] at count
  rcases found with _ | value | value | value | value | value <;> cases held
  · exact ⟨(TypedOp.addScores pairs (0, Dict.empty)).1,
      (TypedOp.addScores pairs (0, Dict.empty)).2,
      rfl, rfl, count, scores⟩
  · exact ⟨(TypedOp.addScores pairs (0, old)).1, (TypedOp.addScores pairs (0, old)).2, rfl, rfl,
      count, scores⟩

private theorem counts_zrem {members : List String}
    (denotes : DenotesTyped "ZREM" members (.zrem members)) :
    Counts zsetView
      (fun old n new => n = old.size - new.size ∧
        ∀ m, new.get? m = if m ∈ members then none else old.get? m)
      s readings key ⟨"ZREM", key :: members⟩ := by
  refine counts_of_denotes consistent unlimited readings denotes rfl valueType_ne_zset ?_
  intro found old held
  obtain ⟨count, scores⟩ := removeScores_spec members 0 old
  rw [zero_add] at count
  rcases found with _ | value | value | value | value | value <;> cases held
  · exact ⟨0, Dict.empty, rfl, rfl, by simp, by simp⟩
  · have kept : zsetView (TypedOp.left (.zrem members) (some (.zset old))) =
        some (removeScores members (0, old)).2 := by
      by_cases empty : (removeScores members (0, old)).2.keys = []
      · have gone := Dict.eq_empty_of_keys empty
        simp [TypedOp.left, TypedOp.onEntry, ValueEntry.valueType, TypedOp.valueType,
          ValueEntry.zsetValue, EntryUpdate.result, zsetView, gone]
      · simp [TypedOp.left, TypedOp.onEntry, ValueEntry.valueType, TypedOp.valueType,
          ValueEntry.zsetValue, empty, EntryUpdate.result, zsetView]
    exact ⟨(removeScores members (0, old)).1, _, rfl, kept, count, scores⟩

private theorem counts_hset (field value : String) :
    Counts hashView
      (fun old n new => n = new.size - old.size ∧
        ∀ f, new.get? f = if f = field then some value else old.get? f)
      s readings key ⟨"HSET", [key, field, value]⟩ := by
  refine counts_of_denotes consistent unlimited readings (.hset field value) rfl valueType_ne_hash ?_
  intro found old held
  have larger := Dict.size_set old field value
  have count : (if old.get? field = none then 1 else 0 : ℤ) =
      (old.set field value).size - old.size := by
    rw [larger]
    split_ifs <;> simp
  have fields := fun f => Dict.get?_set old field f value
  rcases found with _ | _ | _ | _ | _ | _ <;> cases held
  · exact ⟨_, Dict.empty.set field value, rfl, rfl, count, fields⟩
  · exact ⟨_, old.set field value, rfl, rfl, count, fields⟩

private theorem counts_hdel (field : String) :
    Counts hashView
      (fun old n new => n = old.size - new.size ∧
        ∀ f, new.get? f = if f = field then none else old.get? f)
      s readings key ⟨"HDEL", [key, field]⟩ := by
  refine counts_of_denotes consistent unlimited readings (.hdel field) rfl valueType_ne_hash ?_
  intro found old held
  have count : (if old.get? field = none then 0 else 1 : ℤ) =
      old.size - (old.erase field).size := by
    cases present : old.get? field with
    | none => simp [Dict.erase_eq_self present]
    | some value =>
      have fewer := Dict.size_erase present
      rw [if_neg (by simp)]
      omega
  have fields := fun f => Dict.get?_erase old field f
  rcases found with _ | _ | _ | _ | _ | _ <;> cases held
  · exact ⟨0, Dict.empty, rfl, rfl, by simp, by simp⟩
  · have kept : hashView (TypedOp.left (.hdel field) (some (.hash old))) =
        some (old.erase field) := by
      by_cases empty : (old.erase field).keys = []
      · have gone := Dict.eq_empty_of_keys empty
        simp [TypedOp.left, TypedOp.onEntry, ValueEntry.valueType, TypedOp.valueType,
          ValueEntry.hashValue, EntryUpdate.result, hashView, gone]
      · simp [TypedOp.left, TypedOp.onEntry, ValueEntry.valueType, TypedOp.valueType,
          ValueEntry.hashValue, empty, EntryUpdate.result, hashView]
    exact ⟨_, old.erase field, rfl, kept, count, fields⟩

private theorem counts_lpush {values : List String}
    (denotes : DenotesTyped "LPUSH" values (.lpush values)) :
    Counts listView
      (fun old n new => n = old.length + values.length ∧ new = values.reverse ++ old)
      s readings key ⟨"LPUSH", key :: values⟩ := by
  refine counts_of_denotes consistent unlimited readings denotes rfl valueType_ne_list ?_
  intro found old held
  have pushed := foldl_pushed values old
  have count : ((values.foldl (fun list value => value :: list) old).length : ℤ) =
      old.length + values.length := by
    rw [pushed, List.length_append, List.length_reverse]
    push_cast
    omega
  rcases found with _ | _ | _ | _ | _ | _ <;> cases held
  · exact ⟨_, _, rfl, rfl, count, pushed⟩
  · exact ⟨_, _, rfl, rfl, count, pushed⟩

private theorem counts_rpush {values : List String}
    (denotes : DenotesTyped "RPUSH" values (.rpush values)) :
    Counts listView
      (fun old n new => n = old.length + values.length ∧ new = old ++ values)
      s readings key ⟨"RPUSH", key :: values⟩ := by
  refine counts_of_denotes consistent unlimited readings denotes rfl valueType_ne_list ?_
  intro found old held
  have count : ((old ++ values).length : ℤ) = old.length + values.length := by
    rw [List.length_append]
    push_cast
    rfl
  rcases found with _ | _ | _ | _ | _ | _ <;> cases held
  · exact ⟨_, _, rfl, rfl, count, rfl⟩
  · exact ⟨_, _, rfl, rfl, count, rfl⟩

end Laws

/-- Without a limit the integer replies count what changed, and afterwards the key holds exactly
what it held and what was given, each member and field with the value given last. -/
theorem replies_count_changes {s : CommandService} (reached : Reachable s)
    (unlimited : s.maxMemoryBytes = none) (readings : ℕ → ℚ) (key : String) :
    (∀ members, validate ⟨"SADD", key :: members⟩ = .ok () →
      Counts setView
        (fun old n new => n = new.card - old.card ∧ ∀ m, m ∈ new ↔ m ∈ old ∨ m ∈ members)
        s readings key ⟨"SADD", key :: members⟩) ∧
    (∀ members, validate ⟨"SREM", key :: members⟩ = .ok () →
      Counts setView
        (fun old n new => n = old.card - new.card ∧ ∀ m, m ∈ new ↔ m ∈ old ∧ m ∉ members)
        s readings key ⟨"SREM", key :: members⟩) ∧
    (∀ arguments, validate ⟨"ZADD", key :: arguments⟩ = .ok () →
      ∃ pairs, readPairs arguments = some pairs ∧
        Counts zsetView
          (fun old n new => n = new.size - old.size ∧
            ∀ m, new.get? m = (lastScore pairs m).or (old.get? m))
          s readings key ⟨"ZADD", key :: arguments⟩) ∧
    (∀ members, validate ⟨"ZREM", key :: members⟩ = .ok () →
      Counts zsetView
        (fun old n new => n = old.size - new.size ∧
          ∀ m, new.get? m = if m ∈ members then none else old.get? m)
        s readings key ⟨"ZREM", key :: members⟩) ∧
    (∀ field value, Counts hashView
      (fun old n new => n = new.size - old.size ∧
        ∀ f, new.get? f = if f = field then some value else old.get? f)
      s readings key ⟨"HSET", [key, field, value]⟩) ∧
    (∀ field, Counts hashView
      (fun old n new => n = old.size - new.size ∧
        ∀ f, new.get? f = if f = field then none else old.get? f)
      s readings key ⟨"HDEL", [key, field]⟩) ∧
    (∀ values, validate ⟨"LPUSH", key :: values⟩ = .ok () →
      Counts listView (fun old n new => n = old.length + values.length ∧ new = values.reverse ++ old)
        s readings key ⟨"LPUSH", key :: values⟩) ∧
    ∀ values, validate ⟨"RPUSH", key :: values⟩ = .ok () →
      Counts listView (fun old n new => n = old.length + values.length ∧ new = old ++ values)
        s readings key ⟨"RPUSH", key :: values⟩ := by
  have consistent := reached.consistent
  refine ⟨fun members accepted => ?_, fun members accepted => ?_, fun arguments accepted => ?_,
    fun members accepted => ?_, fun field value => ?_, fun field => ?_, fun values accepted => ?_,
    fun values accepted => ?_⟩
  · exact counts_sadd consistent unlimited readings (list_op_of_accepted (by simp [listOps]) accepted)
  · exact counts_srem consistent unlimited readings (list_op_of_accepted (by simp [listOps]) accepted)
  · obtain ⟨pairs, read, denotes⟩ := zadd_of_accepted accepted
    exact ⟨pairs, read, counts_zadd consistent unlimited readings denotes⟩
  · exact counts_zrem consistent unlimited readings (list_op_of_accepted (by simp [listOps]) accepted)
  · exact counts_hset consistent unlimited readings field value
  · exact counts_hdel consistent unlimited readings field
  · exact counts_lpush consistent unlimited readings (list_op_of_accepted (by simp [listOps]) accepted)
  · exact counts_rpush consistent unlimited readings (list_op_of_accepted (by simp [listOps]) accepted)

/-- A repeated member and one that is there already count once and not at all. -/
theorem repeated_members_counted_once :
    let start : CommandService := CommandService.init (fun _ => 0) none
    let s := Event.step (.command (fun _ => 0) ⟨"SADD", ["k", "a"]⟩) start
    validate ⟨"SADD", ["k", "b", "a", "b"]⟩ = .ok () ∧
      ((execute ⟨"SADD", ["k", "b", "a", "b"]⟩).exec { s with clock := fun _ => 0 }).1 =
        .ok (.number 1) := by
  intro start s
  have reached : Reachable s := by
    refine .step (.init _ none) ?_
    unfold Event.Accepted
    decide +kernel
  have accepted : validate ⟨"SADD", ["k", "b", "a", "b"]⟩ = .ok () := by decide +kernel
  have counted := (replies_count_changes reached (by decide +kernel) (fun _ => 0) "k").1 _ accepted
  have before : setView (liveEntry 0 s "k") = some {"a"} := by decide +kernel
  have after : setView (liveEntry 0
      ((execute ⟨"SADD", ["k", "b", "a", "b"]⟩).exec { s with clock := fun _ => 0 }).2 "k") =
      some {"a", "b"} := by decide +kernel
  simp only [Counts, before, after] at counted
  obtain ⟨n, new, reply, same, count, -⟩ := counted
  cases same
  have one : (({"a", "b"} : Finset String).card : ℤ) - ({"a"} : Finset String).card = 1 := by
    decide +kernel
  exact ⟨accepted, by rw [reply, count, one]⟩

end MiniRedis.Service
