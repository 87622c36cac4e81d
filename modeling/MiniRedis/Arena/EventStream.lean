/- GID: MiniRedis/Arena/EventStream
   generality: I
   digest: A client misses exactly the events published between its snapshot and its subscription. -/

import MiniRedis.Base.Trace

set_option autoImplicit false
set_option relaxedAutoImplicit false

namespace MiniRedis.Arena.EventStream

open MiniRedis.Base

variable {ι Envelope : Type}

/-! ### History and bus -/

structure EventHistory (Envelope : Type) where
  maxEvents : ℕ := 200
  events : List Envelope := []

namespace EventHistory

/-- `append`: `events[-max_events:]` is the whole list for a maximum of zero. -/
def append (envelope : Envelope) (history : EventHistory Envelope) : EventHistory Envelope :=
  let events := history.events ++ [envelope]
  { history with
    events := if history.maxEvents = 0 then events
      else events.drop (events.length - history.maxEvents) }

def snapshot (history : EventHistory Envelope) : List Envelope := history.events

def clear (history : EventHistory Envelope) : EventHistory Envelope := { history with events := [] }

end EventHistory

/-- The queues of the subscribers, by the client that reads them. -/
structure ArenaEventBus (ι Envelope : Type) where
  subscribers : ι → Option (List Envelope)

namespace ArenaEventBus

def publish (envelope : Envelope) (bus : ArenaEventBus ι Envelope) : ArenaEventBus ι Envelope :=
  ⟨fun client => (bus.subscribers client).map (· ++ [envelope])⟩

def subscribe [DecidableEq ι] (client : ι) (bus : ArenaEventBus ι Envelope) :
    ArenaEventBus ι Envelope :=
  ⟨Function.update bus.subscribers client (some [])⟩

def unsubscribe [DecidableEq ι] (client : ι) (bus : ArenaEventBus ι Envelope) :
    ArenaEventBus ι Envelope :=
  ⟨Function.update bus.subscribers client none⟩

end ArenaEventBus

/-! ### Streams -/

/-- Where an `event_stream` is suspended. -/
inductive Phase (Envelope : Type) where
  /-- It has not started. -/
  | connecting
  /-- At the yield of a snapshot event, with these still to be yielded. -/
  | replaying (rest : List Envelope)
  /-- In the loop over its queue. -/
  | subscribed
  | closed

structure Client (Envelope : Type) where
  phase : Phase Envelope := .connecting
  sent : List Envelope := []

structure Gateway (ι Envelope : Type) where
  history : EventHistory Envelope
  bus : ArenaEventBus ι Envelope
  clients : ι → Client Envelope

namespace Gateway

variable [DecidableEq ι]

/-- `_publish`, which suspends nowhere. -/
def publish (envelope : Envelope) (g : Gateway ι Envelope) : Gateway ι Envelope :=
  { g with history := g.history.append envelope, bus := g.bus.publish envelope }

/-- The stream of a client comes to another suspension. -/
def suspend (client : ι) (phase : Phase Envelope) (g : Gateway ι Envelope) : Gateway ι Envelope :=
  { g with clients := Function.update g.clients client { g.clients client with phase } }

/-- The stream of a client yields an event. -/
def send (client : ι) (envelope : Envelope) (g : Gateway ι Envelope) : Gateway ι Envelope :=
  let sent := (g.clients client).sent ++ [envelope]
  { g with clients := Function.update g.clients client { g.clients client with sent } }

/-- The loop over the snapshot up to its next yield, and the subscription at its end. -/
def replay (client : ι) (rest : List Envelope) (g : Gateway ι Envelope) : Gateway ι Envelope :=
  match rest with
  | envelope :: rest => (g.send client envelope).suspend client (.replaying rest)
  | [] => { g with bus := g.bus.subscribe client }.suspend client .subscribed

/-- One read of the queue; without an event it ends in a keep-alive. -/
def read (client : ι) (g : Gateway ι Envelope) : Gateway ι Envelope :=
  match g.bus.subscribers client with
  | some (envelope :: queue) =>
    { g with bus := ⟨Function.update g.bus.subscribers client (some queue)⟩ }.send client envelope
  | _ => g

/-- `event_stream` from one suspension to the next. -/
def advance (client : ι) (g : Gateway ι Envelope) : Gateway ι Envelope :=
  match (g.clients client).phase with
  | .connecting => g.replay client g.history.snapshot
  | .replaying rest => g.replay client rest
  | .subscribed => g.read client
  | .closed => g

/-- The client goes away: the stream unsubscribes its queue if it has one. -/
def disconnect (client : ι) (g : Gateway ι Envelope) : Gateway ι Envelope :=
  { g with bus := g.bus.unsubscribe client }.suspend client .closed

end Gateway

inductive Action (ι Envelope : Type) where
  | publish (envelope : Envelope)
  /-- A reset clears the history. -/
  | clear
  | advance (client : ι)
  | disconnect (client : ι)

def Gateway.step [DecidableEq ι] (action : Action ι Envelope) (g : Gateway ι Envelope) :
    Gateway ι Envelope :=
  match action with
  | .publish envelope => g.publish envelope
  | .clear => { g with history := g.history.clear }
  | .advance client => g.advance client
  | .disconnect client => g.disconnect client

/-! ### What clients are owed -/

/-- The gateway beside what each client is to be sent. -/
structure Account (ι Envelope : Type) where
  gateway : Gateway ι Envelope
  owed : ι → List Envelope

/-- A client is owed the history at its connection, and each event that is published until it
disconnects. -/
def owedAfter [DecidableEq ι] (action : Action ι Envelope) (account : Account ι Envelope)
    (client : ι) : List Envelope :=
  match action, (account.gateway.clients client).phase with
  | .publish envelope, .replaying _ => account.owed client ++ [envelope]
  | .publish envelope, .subscribed => account.owed client ++ [envelope]
  | .advance starting, .connecting =>
    if starting = client then account.gateway.history.snapshot else account.owed client
  | _, _ => account.owed client

def step [DecidableEq ι] (action : Action ι Envelope) (account : Account ι Envelope) :
    Account ι Envelope :=
  ⟨account.gateway.step action, owedAfter action account⟩

/-- Before any client connects. -/
def start (maxEvents : ℕ) : Account ι Envelope :=
  ⟨⟨{ maxEvents }, ⟨fun _ => none⟩, fun _ => {}⟩, fun _ => []⟩

/-- What a stream will still send if nothing more is published. -/
def Gateway.toCome (g : Gateway ι Envelope) (client : ι) : List Envelope :=
  match (g.clients client).phase with
  | .replaying rest => rest
  | .subscribed => (g.bus.subscribers client).getD []
  | .connecting | .closed => []

/-- What was sent to a client and what is still to come are together what it is owed, each event
once and in order; a client that has gone was sent a first part of it. -/
def Accounted (g : Gateway ι Envelope) (owed : List Envelope) (client : ι) : Prop :=
  match (g.clients client).phase with
  | .closed => (g.clients client).sent <+: owed
  | _ => (g.clients client).sent ++ g.toCome client = owed

def NoGap (account : Account ι Envelope) : Prop :=
  ∀ client, Accounted account.gateway (account.owed client) client

/-- Nothing is published while a stream is suspended in its snapshot. -/
def Undisturbed (action : Action ι Envelope) (account : Account ι Envelope) : Prop :=
  match action with
  | .publish _ => ∀ client rest, (account.gateway.clients client).phase ≠ .replaying rest
  | _ => True

/-- A client that has read all there is was sent all that it is owed. -/
theorem NoGap.caught_up {account : Account ι Envelope} (kept : NoGap account) {client : ι}
    (subscribed : (account.gateway.clients client).phase = .subscribed)
    (read : account.gateway.toCome client = []) :
    (account.gateway.clients client).sent = account.owed client := by
  have accounted := kept client
  simp only [Accounted, subscribed, read, List.append_nil] at accounted
  exact accounted

/-! ### Steps -/

/-- A stream has a queue exactly while it reads from it, and sends nothing before it starts. -/
structure Consistent (account : Account ι Envelope) : Prop where
  queues : ∀ client, account.gateway.bus.subscribers client = none ↔
    (account.gateway.clients client).phase ≠ .subscribed
  fresh : ∀ client, (account.gateway.clients client).phase = .connecting →
    (account.gateway.clients client).sent = []

private theorem accounted_congr {g g' : Gateway ι Envelope} {client : ι} {owed : List Envelope}
    (clients : g'.clients client = g.clients client)
    (queue : g'.bus.subscribers client = g.bus.subscribers client) :
    Accounted g' owed client ↔ Accounted g owed client := by
  simp only [Accounted, Gateway.toCome, clients, queue]

private theorem accounted_of_open {g : Gateway ι Envelope} {owed : List Envelope} {client : ι}
    (opened : (g.clients client).phase ≠ .closed)
    (total : (g.clients client).sent ++ g.toCome client = owed) : Accounted g owed client := by
  unfold Accounted
  split
  · rename_i closed
    exact (opened closed).elim
  · exact total

variable [DecidableEq ι] {account : Account ι Envelope}

private theorem advance_frame (g : Gateway ι Envelope) {client other : ι} (apart : other ≠ client) :
    (g.advance client).clients other = g.clients other ∧
      (g.advance client).bus.subscribers other = g.bus.subscribers other := by
  have replayed : ∀ rest, (g.replay client rest).clients other = g.clients other ∧
      (g.replay client rest).bus.subscribers other = g.bus.subscribers other := by
    intro rest
    cases rest <;>
      simp [Gateway.replay, Gateway.send, Gateway.suspend, ArenaEventBus.subscribe, apart]
  unfold Gateway.advance
  split
  · exact replayed _
  · exact replayed _
  · unfold Gateway.read
    split <;> simp [Gateway.send, apart]
  · exact ⟨rfl, rfl⟩

private theorem replay_spec (g : Gateway ι Envelope) (client : ι) (rest : List Envelope)
    (unread : g.bus.subscribers client = none) :
    let g' := g.replay client rest
    (g'.clients client).phase ≠ .closed ∧
      (g'.clients client).sent ++ g'.toCome client = (g.clients client).sent ++ rest ∧
      (g'.bus.subscribers client = none ↔ (g'.clients client).phase ≠ .subscribed) ∧
      (g'.clients client).phase ≠ .connecting := by
  cases rest <;>
    simp [Gateway.replay, Gateway.send, Gateway.suspend, Gateway.toCome, ArenaEventBus.subscribe,
      unread]

private theorem read_spec (g : Gateway ι Envelope) {client : ι} {queue : List Envelope}
    (subscribed : (g.clients client).phase = .subscribed)
    (held : g.bus.subscribers client = some queue) :
    let g' := g.read client
    (g'.clients client).phase = .subscribed ∧
      (g'.clients client).sent ++ g'.toCome client = (g.clients client).sent ++ queue ∧
      g'.bus.subscribers client ≠ none := by
  cases queue <;> simp [Gateway.read, held, Gateway.send, Gateway.toCome, subscribed]

private theorem noGap_publish_iff (envelope : Envelope) (sound : Consistent account)
    (kept : NoGap account) :
    NoGap (step (.publish envelope) account) ↔
      ∀ client rest, (account.gateway.clients client).phase ≠ .replaying rest := by
  constructor
  · intro after client rest suspended
    have before := kept client
    have after := after client
    simp only [Accounted, step, Gateway.step, Gateway.publish, owedAfter, Gateway.toCome,
      suspended] at before after
    rw [before] at after
    have lengths := congrArg List.length after
    rw [List.length_append, List.length_singleton] at lengths
    omega
  · intro undisturbed client
    have before := kept client
    have held := sound.queues client
    simp only [Accounted, step, Gateway.step, Gateway.publish, ArenaEventBus.publish, owedAfter,
      Gateway.toCome] at before ⊢
    cases phase : (account.gateway.clients client).phase with
    | connecting => simpa [phase] using before
    | replaying rest => exact (undisturbed client rest phase).elim
    | subscribed =>
      obtain ⟨queue, subscribed⟩ : ∃ queue, account.gateway.bus.subscribers client = some queue :=
        Option.ne_none_iff_exists'.mp (fun none => held.mp none phase)
      simp only [phase, subscribed, Option.getD_some, Option.map_some] at before ⊢
      rw [← before, List.append_assoc]
    | closed => simpa [phase] using before

private theorem queues_step (action : Action ι Envelope) (sound : Consistent account) (other : ι) :
    let g := (step action account).gateway
    (g.bus.subscribers other = none ↔ (g.clients other).phase ≠ .subscribed) ∧
      ((g.clients other).phase = .connecting → (g.clients other).sent = []) := by
  have held := sound.queues other
  have fresh := sound.fresh other
  cases action with
  | publish envelope =>
    simpa [step, Gateway.step, Gateway.publish, ArenaEventBus.publish] using ⟨held, fresh⟩
  | clear => exact ⟨held, fresh⟩
  | advance client =>
    by_cases same : other = client
    · subst same
      simp only [step, Gateway.step, Gateway.advance]
      split
      · rename_i phase
        obtain ⟨-, -, queue, started⟩ := replay_spec account.gateway other
          account.gateway.history.snapshot (held.mpr (by simp [phase]))
        exact ⟨queue, fun connecting => (started connecting).elim⟩
      · rename_i rest phase
        obtain ⟨-, -, queue, started⟩ := replay_spec account.gateway other rest
          (held.mpr (by simp [phase]))
        exact ⟨queue, fun connecting => (started connecting).elim⟩
      · rename_i phase
        obtain ⟨queue, some_queue⟩ := Option.ne_none_iff_exists'.mp (fun none => held.mp none phase)
        obtain ⟨subscribed, -, kept⟩ := read_spec account.gateway phase some_queue
        refine ⟨iff_of_false kept (not_not.mpr subscribed), fun connecting => ?_⟩
        rw [subscribed] at connecting
        cases connecting
      · exact ⟨held, fresh⟩
    · obtain ⟨clients, queue⟩ := advance_frame account.gateway same
      simp only [step, Gateway.step, clients, queue]
      exact ⟨held, fresh⟩
  | disconnect client =>
    by_cases same : other = client
    · subst same
      simp [step, Gateway.step, Gateway.disconnect, Gateway.suspend, ArenaEventBus.unsubscribe]
    · simpa [step, Gateway.step, Gateway.disconnect, Gateway.suspend, ArenaEventBus.unsubscribe,
        same] using ⟨held, fresh⟩

private theorem consistent_step (action : Action ι Envelope) (account : Account ι Envelope)
    (sound : Consistent account) : Consistent (step action account) :=
  ⟨fun other => (queues_step action sound other).1, fun other => (queues_step action sound other).2⟩

private theorem noGap_advance (client : ι) (sound : Consistent account) (kept : NoGap account) :
    NoGap (step (.advance client) account) := by
  intro other
  have before := kept other
  have held := sound.queues other
  by_cases same : other = client
  · subst same
    simp only [step, Gateway.step, owedAfter, Gateway.advance]
    cases phase : (account.gateway.clients other).phase with
    | connecting =>
      obtain ⟨opened, total, -⟩ := replay_spec account.gateway other
        account.gateway.history.snapshot (held.mpr (by simp [phase]))
      rw [sound.fresh other phase, List.nil_append] at total
      exact accounted_of_open opened (by simpa using total)
    | replaying rest =>
      simp only [Accounted, phase, Gateway.toCome] at before
      obtain ⟨opened, total, -⟩ :=
        replay_spec account.gateway other rest (held.mpr (by simp [phase]))
      exact accounted_of_open opened (total.trans before)
    | subscribed =>
      obtain ⟨queue, some_queue⟩ := Option.ne_none_iff_exists'.mp (fun none => held.mp none phase)
      simp only [Accounted, phase, Gateway.toCome, some_queue, Option.getD_some] at before
      obtain ⟨subscribed, total, -⟩ := read_spec account.gateway phase some_queue
      exact accounted_of_open (by simp [subscribed]) (total.trans before)
    | closed => exact before
  · obtain ⟨clients, queue⟩ := advance_frame account.gateway same
    have owed : owedAfter (.advance client) account other = account.owed other := by
      cases phase : (account.gateway.clients other).phase <;>
        simp [owedAfter, phase, Ne.symm same]
    show Accounted _ (owedAfter (.advance client) account other) other
    rw [owed]
    exact (accounted_congr clients queue).mpr before

private theorem noGap_disconnect (client : ι) (kept : NoGap account) :
    NoGap (step (.disconnect client) account) := by
  intro other
  have before := kept other
  by_cases same : other = client
  · subst same
    have part : (account.gateway.clients other).sent <+: account.owed other := by
      unfold Accounted at before
      split at before
      · exact before
      · exact ⟨_, before⟩
    simpa [Accounted, step, Gateway.step, Gateway.disconnect, Gateway.suspend, owedAfter] using part
  · refine (accounted_congr ?_ ?_).mpr before <;>
      simp [step, Gateway.step, Gateway.disconnect, Gateway.suspend, ArenaEventBus.unsubscribe,
        same]

private theorem noGap_step_iff (action : Action ι Envelope) (account : Account ι Envelope)
    (sound : Consistent account) (kept : NoGap account) :
    NoGap (step action account) ↔ Undisturbed action account := by
  cases action with
  | publish envelope => exact noGap_publish_iff envelope sound kept
  | clear => exact iff_of_true kept trivial
  | advance client => exact iff_of_true (noGap_advance client sound kept) trivial
  | disconnect client => exact iff_of_true (noGap_disconnect client kept) trivial

/-- However publishes and streams are interleaved, every client is sent the history at its
connection and then each later event, once and in order, exactly if nothing is published between a
snapshot and the subscription that follows it. -/
theorem no_gap_iff_undisturbed (maxEvents : ℕ) (actions : List (Action ι Envelope)) :
    Always step NoGap actions (start maxEvents) ↔
      EachStep step Undisturbed actions (start maxEvents) := by
  refine always_iff_eachStep (fun _ => True) (fun a s _ => consistent_step a s)
    (fun a s _ => noGap_step_iff a s) (fun _ _ => trivial) ?_ ?_
  · exact ⟨fun client => by simp [start], fun client _ => rfl⟩
  · intro client
    simp [start, Accounted, Gateway.toCome]

private def disturbed : List (Action Unit String) :=
  [.publish "first", .advance (), .publish "second", .advance ()]

theorem event_missed_while_replaying :
    ¬ ∀ actions : List (Action Unit String), Always step NoGap actions (start 200) := by
  intro always
  have last : ∀ (actions : List (Action Unit String)) (account : Account Unit String),
      Always step NoGap actions account → NoGap (runAll step actions account) := by
    intro actions
    induction actions with
    | nil => exact fun _ kept => kept
    | cons action actions ih => exact fun account kept => ih _ kept.2
  have kept := last disturbed (start 200) (always disturbed)
  have missed : ((runAll step disturbed (start 200)).gateway.clients ()).sent = ["first"] ∧
      (runAll step disturbed (start 200)).owed () = ["first", "second"] := by decide
  have caught : ((runAll step disturbed (start 200)).gateway.clients ()).sent =
      (runAll step disturbed (start 200)).owed () := kept.caught_up rfl rfl
  rw [missed.1, missed.2] at caught
  exact absurd caught (by decide)

end MiniRedis.Arena.EventStream
