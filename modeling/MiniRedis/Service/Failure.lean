/- GID: MiniRedis/Service/Failure
   generality: I
   digest: Which commands raise, what a raised error leaves unchanged, and what escapes. -/

import MiniRedis.Service.Invariant

set_option autoImplicit false
set_option relaxedAutoImplicit false

namespace MiniRedis.Service

open MiniRedis.Base MiniRedis.Python MiniRedis.Protocol MiniRedis.Commands

/-! ### Outcomes of the operations -/

private theorem reply_outcome {command : Command} {outcome : Except PyException RespValue}
    (denotes : Denotes command (.reply outcome)) :
    (∃ value, outcome = .ok value) ∨ outcome = reject ERR_UNSUPPORTED_AUTH ∨
      outcome = reject ERR_UNSUPPORTED_COMMAND := by
  cases denotes with
  | auth => exact Or.inr (Or.inl rfl)
  | hello | infoOther | configOther => exact Or.inr (Or.inr rfl)
  | ping | pingMessage | select | client => exact Or.inl ⟨_, rfl⟩

/-- A typed operation raises exactly where it finds a live value of another type, and then it
has changed no more than the recency of the key. -/
theorem performTyped_outcome (key : String) (op : TypedOp) (s : CommandService) :
    (∃ entry readings, s.store.get? key = some entry ∧ expiredAt (s.clock 0) s key = false ∧
      entry.valueType ≠ op.valueType ∧
      performTyped key op s =
        (.error (.commandError ERR_WRONG_TYPE), touchKey key { s with clock := readings })) ∨
    ((∃ value, (performTyped key op s).1 = .ok value) ∧
      ∀ entry, s.store.get? key = some entry → expiredAt (s.clock 0) s key = false →
        entry.valueType = op.valueType) := by
  obtain ⟨readings, ⟨live, h⟩ | ⟨expired, h⟩⟩ := purgeIfExpired_cases key s
  · unfold performTyped
    rw [h]
    cases found : s.store.get? key with
    | none =>
      right
      refine ⟨?_, by simp⟩
      simp only [found]
      cases op.emptyContainer <;> exact ⟨_, rfl⟩
    | some entry =>
      by_cases typed : entry.valueType = op.valueType
      · right
        simp only [found, typed, not_true, ne_eq, if_false]
        exact ⟨⟨_, rfl⟩, by simp [typed]⟩
      · left
        refine ⟨entry, readings, rfl, live, typed, ?_⟩
        simp [found, typed]
  · right
    unfold performTyped
    rw [h]
    simp only [deleteKey, Dict.get?_erase_self]
    refine ⟨?_, by simp [expired]⟩
    cases op.emptyContainer <;> exact ⟨_, rfl⟩

/-- A deadline that never comes and that no integer can count down. -/
def Uncountable (expiresAt : PyFloat) : Prop := expiresAt = .inf false ∨ expiresAt = .nan

private theorem perform_ttl_outcome {s : CommandService} (consistent : Consistent s)
    (key : String) :
    (∃ expiresAt, s.ttl.get? key = some expiresAt ∧ Uncountable expiresAt ∧
      ∃ e, PyException.isCommandError e = false ∧ (perform (.ttl key) s).1 = .error e) ∨
    ((∀ expiresAt, s.ttl.get? key = some expiresAt → ¬ Uncountable expiresAt) ∧
      ∃ seconds, (perform (.ttl key) s).1 = .ok (.number seconds)) := by
  rw [perform_ttl]
  obtain ⟨readings, ⟨live, h⟩ | ⟨expired, h⟩⟩ := purgeIfExpired_cases key s
  · rw [h]
    cases hd : s.ttl.get? key with
    | none =>
      right
      refine ⟨by simp, ?_⟩
      by_cases absent : s.store.get? key = none
      · exact ⟨-2, by simp [absent]⟩
      · exact ⟨-1, by simp [absent]⟩
    | some expiresAt =>
      have stored : s.store.get? key ≠ none := by
        intro absent
        rw [consistent.noOrphan key absent] at hd
        cases hd
      cases expiresAt with
      | nan => exact Or.inl ⟨_, rfl, Or.inr rfl, .valueError, rfl, by simp [stored]; rfl⟩
      | inf negative =>
        cases negative with
        | true => simp [expiredAt, hd, PyFloat.leRat] at live
        | false => exact Or.inl ⟨_, rfl, Or.inl rfl, .overflowError, rfl, by simp [stored]; rfl⟩
      | finite negative magnitude =>
        right
        refine ⟨?_, ?_⟩
        · simp [Uncountable]
        · simp only [stored, if_false]
          exact ⟨_, rfl⟩
  · right
    rw [h]
    refine ⟨?_, -2, by simp [deleteKey]⟩
    intro expiresAt hd uncountable
    rcases uncountable with rfl | rfl <;> simp [expiredAt, hd, PyFloat.leRat] at expired

private theorem perform_outcome {command : Command} {op : Operation} (denotes : Denotes command op)
    (untyped : ∀ key top, op ≠ .typed key top) (other : ∀ key, op ≠ .ttl key)
    (s : CommandService) :
    (∃ value, (perform op s).1 = .ok value) ∨
      ∃ message, message ≠ ERR_WRONG_TYPE ∧
        perform op s = (.error (.commandError message), s) := by
  cases op with
  | reply outcome =>
    rcases reply_outcome denotes with h | rfl | rfl
    · exact Or.inl h
    · exact Or.inr ⟨_, by decide, rfl⟩
    · exact Or.inr ⟨_, by decide, rfl⟩
  | ttl key => exact (other key rfl).elim
  | typed key top => exact (untyped key top rfl).elim
  | expire key seconds =>
    left
    rw [perform_expire]
    split <;> exact ⟨_, rfl⟩
  | set | del | dbsize | flushdb | info | configGet | configSet => exact Or.inl ⟨_, rfl⟩

private theorem untyped_error {command : Command} {op : Operation} (denotes : Denotes command op)
    (untyped : ∀ key top, op ≠ .typed key top) {s : CommandService} (consistent : Consistent s)
    {message : String} (failed : (perform op s).1 = .error (.commandError message)) :
    message ≠ ERR_WRONG_TYPE ∧ (perform op s).2 = s := by
  by_cases isTtl : ∃ key, op = .ttl key
  · obtain ⟨key, rfl⟩ := isTtl
    rcases perform_ttl_outcome consistent key with ⟨_, _, _, e, internal, h⟩ | ⟨_, seconds, h⟩
    · rw [h] at failed
      cases failed
      cases internal
    · rw [h] at failed
      cases failed
  · rcases perform_outcome denotes untyped (fun key h => isTtl ⟨key, h⟩) s with ⟨_, h⟩ | ⟨_, hm, h⟩
    · rw [h] at failed
      cases failed
    · rw [h] at failed ⊢
      cases failed
      exact ⟨hm, rfl⟩

/-! ### Type errors and unchanged tables -/

/-- A command that raises an error reply leaves the tables, the limit and the counter alone, and
the type error is raised exactly for a live key of another type. -/
theorem failed_command_changes_nothing {s : CommandService} (reached : Reachable s)
    (readings : ℕ → ℚ) {command : Command} (accepted : validate command = .ok ()) :
    let result := (execute command).exec { s with clock := readings }
    (result.1 = .error (.commandError ERR_WRONG_TYPE) ↔
      ∃ key valueType entry, command.arguments.head? = some key ∧
        typedCommands.lookup command.name = some valueType ∧
        s.store.get? key = some entry ∧ expiredAt (readings 0) s key = false ∧
        entry.valueType ≠ valueType) ∧
    ∀ message, result.1 = .error (.commandError message) →
      result.2.store = s.store ∧ result.2.ttl = s.ttl ∧
        result.2.maxMemoryBytes = s.maxMemoryBytes ∧ result.2.evictedKeys = s.evictedKeys := by
  obtain ⟨op, denotes⟩ := accepted_denotes accepted
  simp only [execute_denotes denotes]
  rcases denotes.typed_or with ⟨key, rest, top, arguments, rfl, listed, -⟩ | ⟨untyped, unlisted, -⟩
  · simp only [arguments, listed, List.head?_cons, perform]
    rcases performTyped_outcome key top { s with clock := readings } with
      ⟨entry, later, found, live, mismatch, h⟩ | ⟨⟨value, h⟩, typed⟩
    · rw [h]
      refine ⟨⟨fun _ => ⟨key, _, entry, rfl, rfl, found, live, mismatch⟩, fun _ => rfl⟩, ?_⟩
      exact fun message _ => by simp
    · rw [h]
      refine ⟨⟨(fun h => by cases h), ?_⟩, (fun _ h => by cases h)⟩
      rintro ⟨_, _, entry, ⟨⟩, ⟨⟩, found, live, mismatch⟩
      exact (mismatch (typed entry found live)).elim
  · have consistent := reached.consistent.tick readings
    refine ⟨⟨fun failed => ?_, ?_⟩, fun message failed => ?_⟩
    · exact ((untyped_error denotes untyped consistent failed).1 rfl).elim
    · rintro ⟨_, _, _, _, listed, _⟩
      rw [unlisted] at listed
      cases listed
    · rw [(untyped_error denotes untyped consistent failed).2]
      exact ⟨rfl, rfl, rfl, rfl⟩

private def listRun : List Event := [.command (fun _ => 0) ⟨"RPUSH", ["k", "v"]⟩]

private theorem listRun_reachable :
    Reachable (run listRun (CommandService.init (fun _ => 0) none)) := by
  refine Reachable.run (.init _ _) ?_
  intro event member
  simp only [listRun, List.mem_cons, List.not_mem_nil, or_false] at member
  rw [member]
  unfold Event.Accepted
  decide +kernel

theorem hget_of_list_raises :
    ((execute ⟨"HGET", ["k", "f"]⟩).exec
      { run listRun (CommandService.init (fun _ => 0) none) with clock := fun _ => 0 }).1 =
        .error (.commandError ERR_WRONG_TYPE) := by
  refine (failed_command_changes_nothing listRun_reachable (fun _ => 0) (by decide +kernel)).1.mpr ?_
  exact ⟨"k", .hash, .list ["v"], rfl, rfl, by decide +kernel, by decide +kernel, by decide⟩

/-! ### What escapes -/

/-- A value or an error the session can answer with. -/
def Answerable (outcome : Except PyException RespValue) : Prop :=
  (∃ value, outcome = .ok value) ∨ ∃ message, outcome = .error (.commandError message)

/-- `TTL` on a key with an infinite deadline or one that is no number. -/
def AsksUncountable (command : Command) (s : CommandService) : Prop :=
  command.name = "TTL" ∧ ∃ key expiresAt, command.arguments.head? = some key ∧
    s.ttl.get? key = some expiresAt ∧ Uncountable expiresAt

private theorem denotes_ttl_iff {command : Command} {op : Operation} (denotes : Denotes command op)
    (key : String) : op = .ttl key ↔ command = ⟨"TTL", [key]⟩ := by
  cases denotes with
  | typed _ denotes => cases denotes <;> simp
  | _ => simp

private theorem denotes_ttl_of_name {command : Command} {op : Operation}
    (denotes : Denotes command op) (name : command.name = "TTL") :
    ∃ key, command = ⟨"TTL", [key]⟩ := by
  cases denotes with
  | ttl key => exact ⟨key, rfl⟩
  | typed _ denotes => cases denotes <;> simp at name
  | _ => simp at name

/-- A command is answered unless it asks for such a time. -/
theorem answerable_iff {s : CommandService} (consistent : Consistent s) {command : Command}
    (accepted : validate command = .ok ()) :
    Answerable ((execute command).exec s).1 ↔ ¬ AsksUncountable command s := by
  obtain ⟨op, denotes⟩ := accepted_denotes accepted
  rw [execute_denotes denotes]
  by_cases isTtl : ∃ key, op = .ttl key
  · obtain ⟨key, rfl⟩ := isTtl
    obtain rfl := (denotes_ttl_iff denotes key).mp rfl
    rcases perform_ttl_outcome consistent key with ⟨d, hd, hu, e, internal, h⟩ | ⟨none_such, n, h⟩
    · rw [h]
      constructor
      · rintro (⟨_, ⟨⟩⟩ | ⟨_, ⟨⟩⟩)
        cases internal
      · intro countable
        exact (countable ⟨rfl, key, d, rfl, hd, hu⟩).elim
    · rw [h]
      refine ⟨fun _ => ?_, fun _ => Or.inl ⟨_, rfl⟩⟩
      rintro ⟨_, _, d, ⟨⟩, hd, hu⟩
      exact none_such d hd hu
  · have answered : Answerable (perform op s).1 := by
      by_cases isTyped : ∃ key top, op = .typed key top
      · obtain ⟨key, top, rfl⟩ := isTyped
        rcases performTyped_outcome key top s with ⟨_, _, _, _, _, h⟩ | ⟨⟨value, h⟩, _⟩
        · exact Or.inr ⟨_, by rw [perform, h]⟩
        · exact Or.inl ⟨value, h⟩
      · rcases perform_outcome denotes (fun key top h => isTyped ⟨key, top, h⟩)
          (fun key h => isTtl ⟨key, h⟩) s with h | ⟨message, _, h⟩
        · exact Or.inl h
        · exact Or.inr ⟨message, by rw [h]⟩
    refine ⟨fun _ asks => ?_, fun _ => answered⟩
    obtain ⟨key, rfl⟩ := denotes_ttl_of_name denotes asks.1
    exact isTtl ⟨key, (denotes_ttl_iff denotes key).mpr rfl⟩

private theorem forall_split_cons (P : List Event → Command → Prop) (event : Event)
    (events : List Event) :
    (∀ before readings request after,
      event :: events = before ++ .command readings request :: after → P before request) ↔
      (∀ readings request, event = .command readings request → P [] request) ∧
      ∀ before readings request after,
        events = before ++ .command readings request :: after → P (event :: before) request := by
  constructor
  · intro h
    refine ⟨fun readings request first => h [] readings request events (by simp [first]), ?_⟩
    intro before readings request after split
    exact h (event :: before) readings request after (by simp [split])
  · rintro ⟨first, later⟩ before readings request after split
    cases before with
    | nil =>
      simp only [List.nil_append, List.cons.injEq] at split
      exact first readings request split.1
    | cons head before =>
      simp only [List.cons_append, List.cons.injEq] at split
      obtain ⟨rfl, split⟩ := split
      exact later before readings request after split

private theorem replies_answerable_iff {s : CommandService} (reached : Reachable s)
    {events : List Event} (accepted : ∀ event ∈ events, event.Accepted) :
    (∀ outcome ∈ replies s events, Answerable outcome) ↔
      ∀ before readings request after, events = before ++ .command readings request :: after →
        ¬ AsksUncountable request (run before s) := by
  induction events generalizing s with
  | nil => simp [replies]
  | cons event events ih =>
    have first : event.Accepted := accepted event List.mem_cons_self
    have rest := ih (reached.step first) (fun e member => accepted e (List.mem_cons_of_mem _ member))
    rw [forall_split_cons (fun before request => ¬ AsksUncountable request (run before s))]
    cases event with
    | command readings request =>
      have here := answerable_iff (reached.consistent.tick readings) first
      simp only [replies, List.forall_mem_cons, rest, here]
      refine and_congr ⟨?_, fun h => h readings request rfl⟩ Iff.rfl
      rintro h _ _ ⟨⟩
      exact h
    | sweep readings batchSize =>
      simp only [replies, rest]
      refine ⟨fun h => ⟨by simp, h⟩, And.right⟩

/-- An accepted command fails internally exactly when it asks for the remaining seconds of a
deadline that was set to infinity or to no number; so a run without such a question answers
every command. -/
theorem answerable_iff_countable {s : CommandService} (reached : Reachable s)
    {events : List Event} (accepted : ∀ event ∈ events, event.Accepted) :
    (∀ readings command, validate command = .ok () →
      (Answerable ((execute command).exec { s with clock := readings }).1 ↔
        ¬ AsksUncountable command s)) ∧
    ((∀ outcome ∈ replies s events, Answerable outcome) ↔
      ∀ before readings request after, events = before ++ .command readings request :: after →
        ¬ AsksUncountable request (run before s)) := by
  refine ⟨fun readings command valid => ?_, replies_answerable_iff reached accepted⟩
  exact answerable_iff (reached.consistent.tick readings) valid

private def endless : List Event :=
  [.command (fun _ => 0) ⟨"SET", ["k", "v"]⟩, .command (fun _ => 0) ⟨"EXPIRE", ["k", "inf"]⟩]

private theorem endless_accepted : ∀ event ∈ endless, event.Accepted := by
  intro event member
  simp only [endless, List.mem_cons, List.not_mem_nil, or_false] at member
  rcases member with rfl | rfl <;> unfold Event.Accepted <;> decide +kernel

private theorem endless_reachable :
    Reachable (run endless (CommandService.init (fun _ => 0) none)) :=
  Reachable.run (.init _ _) endless_accepted

private theorem endless_asks :
    AsksUncountable ⟨"TTL", ["k"]⟩ (run endless (CommandService.init (fun _ => 0) none)) :=
  ⟨rfl, "k", .inf false, rfl, by decide +kernel, Or.inl rfl⟩

theorem answerable_endless_get :
    Answerable ((execute ⟨"GET", ["k"]⟩).exec
      { run endless (CommandService.init (fun _ => 0) none) with clock := fun _ => 0 }).1 := by
  refine ((answerable_iff_countable endless_reachable endless_accepted).1 _ _
    (by decide +kernel)).mpr ?_
  rintro ⟨name, _⟩
  simp at name

theorem not_answerable_endless_ttl :
    ¬ ∀ s, Reachable s → ∀ readings command, validate command = .ok () → command.name ≠ "HELLO" →
      Answerable ((execute command).exec { s with clock := readings }).1 := by
  intro always
  have accepted : validate ⟨"TTL", ["k"]⟩ = .ok () := by decide +kernel
  have answered := always _ endless_reachable (fun _ => 0) _ accepted (by decide)
  exact (answerable_iff (endless_reachable.consistent.tick _) accepted).mp answered endless_asks

end MiniRedis.Service
