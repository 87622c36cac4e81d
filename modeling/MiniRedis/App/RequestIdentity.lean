/- GID: MiniRedis/App/RequestIdentity
   generality: I
   digest: A run's log identifies its requests exactly where no bucket is given twice. -/

import MiniRedis.App.Timeline
import MiniRedis.Python.Decimal

set_option autoImplicit false
set_option relaxedAutoImplicit false

namespace MiniRedis.App

open MiniRedis.Base MiniRedis.Python

/-! ### Ids -/

private theorem toList_cacheId (bucket : ℤ) (index : ℕ) :
    (Request.cache bucket index).id.toList =
      "cache-".toList ++ ((toString bucket).toList ++ '-' :: (toString index).toList) := by
  simp [Request.id]

private theorem dash_not_mem_toString_nat (n : ℕ) : '-' ∉ (toString n).toList :=
  fun member => absurd (isDigit_of_mem_toString_nat member) (by decide)

private theorem split_at_last_dash {l l' r r' : List Char} (plain : '-' ∉ r) (plain' : '-' ∉ r')
    (same : l ++ '-' :: r = l' ++ '-' :: r') : l = l' ∧ r = r' := by
  have reversed := congrArg List.reverse same
  simp only [List.reverse_append, List.reverse_cons, List.append_assoc, List.singleton_append] at reversed
  have first := congrArg (List.takeWhile (· ≠ '-')) reversed
  have apart : ∀ s t : List Char, '-' ∉ s → (s.reverse ++ '-' :: t).takeWhile (· ≠ '-') = s.reverse := by
    intro s t absent
    rw [List.takeWhile_append_of_pos]
    · simp
    · intro c member
      rw [decide_eq_true_iff]
      rintro rfl
      exact absent (List.mem_reverse.mp member)
  rw [apart r _ plain, apart r' _ plain'] at first
  obtain rfl := List.reverse_injective first
  simpa using reversed

theorem Request.id_injective : Function.Injective Request.id := by
  intro request request' same
  have chars := congrArg String.toList same
  cases request with
  | baseline index =>
    cases request' with
    | baseline index' =>
      have texts : toString index = toString index' := by simpa [Request.id] using same
      rw [toString_nat_injective texts]
    | cache bucket' index' => simp [Request.id] at chars
    | reference index' => simp [Request.id] at chars
  | cache bucket index =>
    cases request' with
    | baseline index' => simp [Request.id] at chars
    | cache bucket' index' =>
      rw [toList_cacheId, toList_cacheId, List.append_cancel_left_eq] at chars
      obtain ⟨buckets, indices⟩ := split_at_last_dash (dash_not_mem_toString_nat index)
        (dash_not_mem_toString_nat index') chars
      rw [toString_int_injective (String.toList_injective buckets),
        toString_nat_injective (String.toList_injective indices)]
    | reference index' => simp [Request.id] at chars
  | reference index =>
    cases request' with
    | baseline index' => simp [Request.id] at chars
    | cache bucket' index' => simp [Request.id] at chars
    | reference index' =>
      have texts : toString index = toString index' := by simpa [Request.id] using same
      rw [toString_nat_injective texts]

private theorem Request.id_eq_append (request : Request) :
    ∃ (text : String) (index : ℕ), request.id = text ++ toString index := by
  cases request with
  | baseline index => exact ⟨_, index, rfl⟩
  | cache bucket index => exact ⟨_, index, rfl⟩
  | reference index => exact ⟨_, index, rfl⟩

private theorem dropWhile_eventId {request : Request} {name : String}
    (plain : ∀ c ∈ name.toList, c.isDigit = false) :
    (request.id ++ "-" ++ name).toList.reverse.dropWhile (fun c => !c.isDigit) =
      request.id.toList.reverse := by
  obtain ⟨text, index, split⟩ := request.id_eq_append
  obtain ⟨front, c, chars, digit⟩ := toString_nat_toList_concat index
  have reversed : (request.id ++ "-" ++ name).toList.reverse =
      ('-' :: name.toList).reverse ++ request.id.toList.reverse := by
    simp
  have tail : ∀ c ∈ ('-' :: name.toList).reverse, (!c.isDigit) = true := by
    intro c member
    rcases List.mem_cons.mp (List.mem_reverse.mp member) with rfl | member
    · rfl
    · rw [plain c member]
      rfl
  rw [reversed, List.dropWhile_append_of_pos tail, split, String.toList_append, chars]
  simp [digit]

theorem eventId_injective {request request' : Request} {name name' : String}
    (plain : ∀ c ∈ name.toList, c.isDigit = false) (plain' : ∀ c ∈ name'.toList, c.isDigit = false)
    (same : request.id ++ "-" ++ name = request'.id ++ "-" ++ name') :
    request = request' ∧ name = name' := by
  have ids : request.id.toList.reverse = request'.id.toList.reverse := by
    rw [← dropWhile_eventId plain, ← dropWhile_eventId plain', same]
  have requests := Request.id_injective (String.toList_injective (List.reverse_injective ids))
  subst requests
  exact ⟨rfl, by simpa using same⟩

private theorem Path.plain_steps (path : Path) :
    path.steps.all (fun step => step.1.toList.all (fun c => c.isDigit = false)) = true := by
  cases path <;> decide +kernel

private theorem Path.nodup_steps (path : Path) : (path.steps.map Prod.fst).Nodup := by
  cases path <;> decide +kernel

private theorem Path.starts (path : Path) : ("start", .requestStarted, none) ∈ path.steps := by
  cases path <;> decide +kernel

/-! ### Blocks and their ids -/

private theorem Block.eventIds (block : Block) :
    block.events.map FlowEvent.eventId =
      (block.path.steps.map Prod.fst).map (fun name => block.request.id ++ "-" ++ name) := by
  have ids := congrArg (List.map Tag.eventId) block.recorded
  simp only [Path.tags, List.map_map] at ids ⊢
  exact ids

private theorem Block.plain_of_mem {block : Block} {eventId : String}
    (member : eventId ∈ block.events.map FlowEvent.eventId) :
    ∃ name, (∀ c ∈ name.toList, c.isDigit = false) ∧ eventId = block.request.id ++ "-" ++ name := by
  rw [Block.eventIds, List.map_map] at member
  obtain ⟨step, inside, rfl⟩ := List.mem_map.mp member
  refine ⟨step.1, ?_, rfl⟩
  have plain := List.all_eq_true.mp (List.all_eq_true.mp block.path.plain_steps step inside)
  exact fun c member => of_decide_eq_true (plain c member)

private theorem Block.nodup_eventIds (block : Block) :
    (block.events.map FlowEvent.eventId).Nodup := by
  rw [Block.eventIds]
  apply List.Nodup.map _ block.path.nodup_steps
  intro name name' same
  simpa using same

theorem nodup_eventIds_of_requests {blocks : List Block} (distinct : (blocks.map Block.request).Nodup) :
    ((blocks.flatMap Block.events).map FlowEvent.eventId).Nodup := by
  rw [List.map_flatMap, List.nodup_flatMap]
  refine ⟨fun block _ => block.nodup_eventIds, ?_⟩
  rw [List.Nodup, List.pairwise_map] at distinct
  apply distinct.imp
  intro block block' different eventId member member'
  obtain ⟨name, plain, rfl⟩ := Block.plain_of_mem member
  obtain ⟨name', plain', same⟩ := Block.plain_of_mem member'
  exact different (eventId_injective plain plain' same).1

private theorem map_sublist_flatMap {α β : Type} {f : α → β} {g : α → List β} {l : List α}
    (chosen : ∀ a ∈ l, f a ∈ g a) : (l.map f).Sublist (l.flatMap g) := by
  induction l with
  | nil => exact .slnil
  | cons a l ih =>
    rw [List.map_cons, List.flatMap_cons, ← List.singleton_append]
    apply List.Sublist.append
    · exact List.singleton_sublist.mpr (chosen a List.mem_cons_self)
    · exact ih (fun b member => chosen b (List.mem_cons_of_mem a member))

theorem nodup_requests_of_eventIds {blocks : List Block}
    (distinct : ((blocks.flatMap Block.events).map FlowEvent.eventId).Nodup) :
    (blocks.map Block.request).Nodup := by
  rw [List.map_flatMap] at distinct
  have started : (blocks.map (fun block => block.request.id ++ "-" ++ "start")).Nodup := by
    refine List.Nodup.sublist (map_sublist_flatMap ?_) distinct
    intro block _
    rw [Block.eventIds]
    exact List.mem_map_of_mem (List.mem_map_of_mem block.path.starts)
  apply List.Nodup.of_map (fun request : Request => request.id ++ "-" ++ "start")
  rw [List.map_map]
  exact started

/-! ### Requests of a configuration -/

private theorem mode_of_baseline {config : RunConfig} {request : Request}
    (member : request ∈ config.baselineRequests) : request.mode = .dbOnly := by
  obtain ⟨index, -, rfl⟩ := List.mem_map.mp member
  rfl

private theorem mode_of_cache {config : RunConfig} {request : Request}
    (member : request ∈ config.cacheRequests) : request.mode = .cacheAside := by
  obtain ⟨bucket, -, member⟩ := List.mem_flatMap.mp member
  obtain ⟨index, -, rfl⟩ := List.mem_map.mp member
  rfl

private theorem mode_of_reference {config : RunConfig} {request : Request}
    (member : request ∈ config.referenceRequests) : request.mode = .redisOnlyReference := by
  unfold RunConfig.referenceRequests at member
  split at member
  · obtain ⟨index, -, rfl⟩ := List.mem_map.mp member
    rfl
  · cases member

theorem nodup_requests {config : RunConfig} (distinct : config.buckets.Nodup) :
    config.requests.Nodup := by
  have range := List.nodup_range (n := config.iterationCount.toNat)
  have cache : config.cacheRequests.Nodup := by
    rw [RunConfig.cacheRequests, List.nodup_flatMap]
    refine ⟨fun bucket _ => range.map (fun _ _ same => by cases same; rfl), distinct.imp ?_⟩
    intro bucket bucket' different request member member'
    obtain ⟨index, -, rfl⟩ := List.mem_map.mp member
    obtain ⟨index', -, same⟩ := List.mem_map.mp member'
    cases same
    exact different rfl
  have reference : config.referenceRequests.Nodup := by
    unfold RunConfig.referenceRequests
    split
    · exact range.map (fun _ _ same => by cases same; rfl)
    · exact List.nodup_nil
  have baseline : config.baselineRequests.Nodup := range.map (fun _ _ same => by cases same; rfl)
  rw [RunConfig.requests, List.nodup_append, List.nodup_append]
  refine ⟨baseline, ⟨cache, reference, ?_⟩, ?_⟩
  · rintro request member request' member' rfl
    cases (mode_of_cache member).symm.trans (mode_of_reference member')
  · rintro request member request' member' rfl
    rcases List.mem_append.mp member' with member' | member'
    · cases (mode_of_baseline member).symm.trans (mode_of_cache member')
    · cases (mode_of_baseline member).symm.trans (mode_of_reference member')

theorem nodup_buckets_of_requests {config : RunConfig} (iterated : 0 < config.iterationCount)
    (distinct : config.requests.Nodup) : config.buckets.Nodup := by
  have cache : config.cacheRequests.Nodup := by
    rw [RunConfig.requests] at distinct
    exact distinct.of_append_right.of_append_left
  apply List.Nodup.of_map (fun bucket => Request.cache bucket 0)
  refine List.Nodup.sublist (map_sublist_flatMap ?_) cache
  intro bucket _
  apply List.mem_map_of_mem
  rw [List.mem_range]
  omega

theorem map_mode_requests (config : RunConfig) :
    config.requests.map Request.mode = List.replicate config.baselineRequests.length .dbOnly ++
      (List.replicate config.cacheRequests.length .cacheAside ++
        List.replicate config.referenceRequests.length .redisOnlyReference) := by
  have uniform : ∀ {requests : List Request} {mode : Mode},
      (∀ request ∈ requests, request.mode = mode) →
      requests.map Request.mode = List.replicate requests.length mode := by
    intro requests mode same
    rw [List.eq_replicate_iff]
    refine ⟨List.length_map _, ?_⟩
    intro mode' member
    obtain ⟨request, inside, rfl⟩ := List.mem_map.mp member
    exact same request inside
  rw [RunConfig.requests, List.map_append, List.map_append,
    uniform (fun _ => mode_of_baseline), uniform (fun _ => mode_of_cache),
    uniform (fun _ => mode_of_reference)]

theorem length_cacheRequests (config : RunConfig) :
    config.cacheRequests.length = config.buckets.length * config.iterationCount.toNat := by
  simp [RunConfig.cacheRequests, List.length_flatMap]

/-! ### What the log tells -/

/-- Every event has an id of its own, and every executed request has one timeline. -/
structure IdentifiesRequests (round2 : ℚ → ℚ) (config : RunConfig) (events : List FlowEvent) : Prop where
  events_distinct : (events.map FlowEvent.eventId).Nodup
  timelines : ∃ timelines, buildRequestTimelines round2 events = some timelines ∧
    timelines.map RequestTimeline.requestId = config.requests.map Request.id ∧
    ((timelines.map RequestTimeline.mode).count .dbOnly : ℤ) = config.iterationCount ∧
    ((timelines.map RequestTimeline.mode).count .cacheAside : ℤ) =
      config.iterationCount * config.hitRateBuckets.length ∧
    ((timelines.map RequestTimeline.mode).count .redisOnlyReference : ℤ) =
      if config.includeReference then config.iterationCount else 0

private theorem timelines_identify {round2 : ℚ → ℚ} {config : RunConfig} {blocks : List Block}
    (accepted : config.Accepted) (executed : blocks.map Block.request = config.requests)
    (distinct : config.requests.Nodup) :
    IdentifiesRequests round2 config (blocks.flatMap Block.events) := by
  rw [← executed] at distinct
  refine ⟨nodup_eventIds_of_requests distinct, ?_⟩
  have ids : (blocks.map (fun block => block.request.id)).Nodup := by
    rw [← Function.comp_def Request.id Block.request, ← List.map_map]
    exact distinct.map Request.id_injective
  obtain ⟨timelines, built, shows⟩ := buildRequestTimelines_shows round2 ids
  have named : timelines.map RequestTimeline.requestId = config.requests.map Request.id := by
    rw [← executed, List.map_map, ← List.forall₂_eq_eq_eq, List.forall₂_map_left_iff, List.forall₂_map_right_iff]
    exact shows.flip.imp (fun _ _ shown => shown.requestId)
  have modes : timelines.map RequestTimeline.mode = config.requests.map Request.mode := by
    rw [← executed, List.map_map, ← List.forall₂_eq_eq_eq, List.forall₂_map_left_iff, List.forall₂_map_right_iff]
    exact shows.flip.imp (fun _ _ shown => shown.mode)
  have iterated := accepted.iterations
  have buckets : config.buckets = config.hitRateBuckets := if_neg accepted.some_bucket
  refine ⟨timelines, built, named, ?_⟩
  rw [modes, map_mode_requests, length_cacheRequests, buckets]
  have baseline : (config.baselineRequests.length : ℤ) = config.iterationCount := by
    simp only [RunConfig.baselineRequests, List.length_map, List.length_range]
    omega
  have reference : (config.referenceRequests.length : ℤ) =
      if config.includeReference then config.iterationCount else 0 := by
    unfold RunConfig.referenceRequests
    split
    · simp only [List.length_map, List.length_range]
      omega
    · rfl
  refine ⟨?_, ?_, ?_⟩
  · simpa [List.count_replicate] using baseline
  · have cache : ((config.hitRateBuckets.length * config.iterationCount.toNat : ℕ) : ℤ) =
        config.iterationCount * config.hitRateBuckets.length := by
      rw [Nat.cast_mul, Int.toNat_of_nonneg iterated.le, mul_comm]
    simpa [List.count_replicate] using cache
  · simpa [List.count_replicate] using reference

/-- The log of a completed run identifies its requests exactly where no bucket is given twice. -/
theorem identifies_requests_iff (elapsedMs : ℚ → ℚ → ℚ) (round2 : ℚ → ℚ) {body : RunBody}
    {config : RunConfig} {env : Environment} {totals : RunTotals} {events : List FlowEvent}
    (built : buildRunConfig body = .ok config)
    (completed : (run elapsedMs config env).exec [] = (.ok totals, events)) :
    IdentifiesRequests round2 config events ↔ config.hitRateBuckets.Nodup := by
  have accepted := accepted_of_buildRunConfig built
  have buckets : config.buckets = config.hitRateBuckets := if_neg accepted.some_bucket
  obtain ⟨blocks, rfl, executed, -⟩ := (completed_of_run elapsedMs completed).written
  constructor
  · intro identifies
    have distinct := nodup_requests_of_eventIds identifies.events_distinct
    rw [executed] at distinct
    rw [← buckets]
    exact nodup_buckets_of_requests accepted.iterations distinct
  · intro distinct
    rw [← buckets] at distinct
    exact timelines_identify accepted executed (nodup_requests distinct)

/-- A run in which time stands still and every call is answered, each lookup with no value. -/
def calmEnvironment : Environment where
  bootstrap := ⟨false, .ok true, false, some (.ok true)⟩
  warmup := fun _ => (false, .ok ())
  baseline := fun _ => ⟨false, fun _ => 0, .ok ()⟩
  cache := fun _ => ⟨false, fun _ => .ok (), fun _ => 0, .ok none, .ok (), .ok ()⟩
  reference := fun _ => ⟨false, .ok (), fun _ => 0, .ok ()⟩
  aggregationCancelled := false

/-- The milliseconds between two readings in seconds. -/
def exactMs (started finished : ℚ) : ℚ := (finished - started) * 1000

def bucketsBody (buckets : List ℤ) : RunBody where
  iterationCount := some (.int 1)
  hitRateBuckets := some (.array (buckets.map .int))
  includeReference := some (.bool true)

def bucketsConfig (buckets : List ℤ) : RunConfig :=
  ⟨"detail_page", 1, 1, buckets, 30, true⟩

theorem distinct_buckets_identified :
    buildRunConfig (bucketsBody [0, 100]) = .ok (bucketsConfig [0, 100]) ∧
    ∃ totals, (run exactMs (bucketsConfig [0, 100]) calmEnvironment).exec [] =
        (.ok totals, ((run exactMs (bucketsConfig [0, 100]) calmEnvironment).exec []).2) ∧
      IdentifiesRequests id (bucketsConfig [0, 100])
        ((run exactMs (bucketsConfig [0, 100]) calmEnvironment).exec []).2 := by
  have built : buildRunConfig (bucketsBody [0, 100]) = .ok (bucketsConfig [0, 100]) := by rfl
  obtain ⟨totals, _, completed⟩ := Effect.exists_of_isOk
    (x := run exactMs (bucketsConfig [0, 100]) calmEnvironment) (s := []) (by decide +kernel)
  obtain rfl := congrArg Prod.snd completed
  exact ⟨built, totals, completed, (identifies_requests_iff exactMs id built completed).mpr (by decide)⟩

/-- Two runs of one bucket write the same ids. -/
theorem repeated_bucket_not_identified :
    buildRunConfig (bucketsBody [50, 50]) = .ok (bucketsConfig [50, 50]) ∧
    ∃ totals, (run exactMs (bucketsConfig [50, 50]) calmEnvironment).exec [] =
        (.ok totals, ((run exactMs (bucketsConfig [50, 50]) calmEnvironment).exec []).2) ∧
      ¬ IdentifiesRequests id (bucketsConfig [50, 50])
        ((run exactMs (bucketsConfig [50, 50]) calmEnvironment).exec []).2 := by
  obtain ⟨totals, _, completed⟩ := Effect.exists_of_isOk
    (x := run exactMs (bucketsConfig [50, 50]) calmEnvironment) (s := []) (by decide +kernel)
  obtain rfl := congrArg Prod.snd completed
  refine ⟨by rfl, totals, completed, fun identifies => ?_⟩
  exact absurd identifies.events_distinct (by decide +kernel)

end MiniRedis.App
