/- GID: MiniRedis/App/RunScript
   generality: I
   digest: A run, however it ends, writes a first part of the script that its inputs give. -/

import MiniRedis.App.EventLog

set_option autoImplicit false
set_option relaxedAutoImplicit false

namespace MiniRedis.App

open MiniRedis.Base

/-! ### The script of a run -/

/-- A request with the path that its calls make it take and the times of its events. -/
structure Serving where
  request : Request
  path : Path
  times : List ℚ
  timed : path.steps.length = times.length

def Serving.marks (serving : Serving) : List (Tag × ℚ) := serving.path.marks serving.request serving.times

section

variable (elapsedMs : ℚ → ℚ → ℚ)

def BaselineCalls.serving (calls : BaselineCalls) (index : ℕ) : Serving :=
  ⟨.baseline index, .dbOnly, calls.times elapsedMs, rfl⟩

def CacheCalls.serving (calls : CacheCalls) (request : Request) : Serving :=
  ⟨request, calls.path, calls.times elapsedMs, calls.length_times elapsedMs⟩

def ReferenceCalls.serving (calls : ReferenceCalls) (index : ℕ) : Serving :=
  ⟨.reference index, .reference, calls.times elapsedMs, rfl⟩

/-- Requests through the cache, which are numbered from `start` on. -/
def cacheServings (calls : ℕ → CacheCalls) (start : ℕ) (requests : List Request) : List Serving :=
  (requests.zipIdx start).map (fun numbered => (calls numbered.2).serving elapsedMs numbered.1)

/-- The requests of a run as its environment answers them. -/
def RunConfig.servings (config : RunConfig) (env : Environment) : List Serving :=
  let indices := List.range config.iterationCount.toNat
  indices.map (fun index => (env.baseline index).serving elapsedMs index) ++
    (cacheServings elapsedMs env.cache 0 config.cacheRequests ++
      if config.includeReference then
        indices.map (fun index => (env.reference index).serving elapsedMs index)
      else [])

/-! ### Runs follow the script -/

/-- The marks of some servings, one after the other. -/
def script (servings : List Serving) : List (Tag × ℚ) := servings.flatMap Serving.marks

theorem script_append (servings servings' : List Serving) :
    script (servings ++ servings') = script servings ++ script servings' := List.flatMap_append

private theorem sampleLoop_traces {round : ℕ → RunnerM ℚ} (serving : ℕ → Serving) (d : ℕ → ℚ)
    (traced : ∀ index, Effect.Traces FlowEvent.mark (serving index).marks (round index) (· = d index))
    (indices : List ℕ) :
    Effect.Traces FlowEvent.mark (script (indices.map serving))
      (indices.foldlM (fun samples index => do
        let sample ← round index
        return samples ++ [sample]) []) (fun _ => True) := by
  have singletons : script (indices.map serving) =
      script ((indices.flatMap (fun index => [index])).map serving) := by
    rw [List.flatMap_singleton']
  rw [singletons]
  apply Effect.traces_foldlM (S := fun _ is => script (is.map serving)) (I := fun _ _ => True)
    (fun _ => rfl) (fun _ is js => by rw [List.map_append, script_append]) _ 0 trivial
  intro index _ _ samples _
  have alone : script ([index].map serving) = (serving index).marks := List.append_nil _
  rw [alone]
  exact (traced index).bind_silent (fun _ _ => Effect.traces_pure trivial)

theorem runBaseline_traces (config : RunConfig) (calls : ℕ → BaselineCalls) :
    Effect.Traces FlowEvent.mark
      (script ((List.range config.iterationCount.toNat).map (fun index =>
        (calls index).serving elapsedMs index)))
      (runBaseline elapsedMs config calls) (fun _ => True) := by
  unfold runBaseline
  exact sampleLoop_traces (fun index => (calls index).serving elapsedMs index)
    (fun index => (calls index).duration elapsedMs)
    (fun index => baselineRequest_traces elapsedMs (calls index) index) _

theorem referenceStage_traces (config : RunConfig) (calls : ℕ → ReferenceCalls) :
    Effect.Traces FlowEvent.mark
      (script (if config.includeReference then
        (List.range config.iterationCount.toNat).map (fun index => (calls index).serving elapsedMs index)
      else []))
      (referenceStage elapsedMs config calls) (fun _ => True) := by
  unfold referenceStage runReference
  split
  · exact sampleLoop_traces (fun index => (calls index).serving elapsedMs index)
      (fun index => (calls index).duration elapsedMs)
      (fun index => referenceRequest_traces elapsedMs (calls index) index) _
  · exact Effect.traces_pure trivial

theorem runCache_traces (config : RunConfig) (calls : ℕ → CacheCalls) :
    Effect.Traces FlowEvent.mark (script (cacheServings elapsedMs calls 0 config.cacheRequests))
      (runCache elapsedMs config calls) (fun _ => True) := by
  have stay : ∀ n, script (cacheServings elapsedMs calls n []) = [] := fun _ => rfl
  have compose : ∀ n is js, script (cacheServings elapsedMs calls n (is ++ js)) =
      script (cacheServings elapsedMs calls n is) ++
        script (cacheServings elapsedMs calls (n + is.length) js) := by
    intro n is js
    rw [← script_append, cacheServings, List.zipIdx_append, List.map_append]
    rfl
  have loops : Effect.Traces FlowEvent.mark _ _ _ := Effect.traces_foldlM
    (S := fun n is => script (cacheServings elapsedMs calls n is))
    (I := fun n (totals : CacheTotals) => totals.cacheTotal = n)
    (l := config.buckets) (g := fun bucket =>
      (List.range config.iterationCount.toNat).map (Request.cache bucket))
    (f := fun totals bucket =>
      (List.range config.iterationCount.toNat).foldlM (fun totals index =>
        cacheRequest elapsedMs config (calls totals.cacheTotal) bucket totals index) totals)
    stay compose ?_ 0 (a := {}) rfl
  · exact loops.mono (fun _ _ => trivial)
  · intro bucket _ n totals counted
    rw [List.map_eq_flatMap]
    apply Effect.traces_foldlM (S := fun n is => script (cacheServings elapsedMs calls n is))
      (I := fun n (totals : CacheTotals) => totals.cacheTotal = n) stay compose _ n counted
    intro index _ n totals counted
    have round := cacheRequest_traces elapsedMs config (calls totals.cacheTotal) bucket totals index
    have alone : script (cacheServings elapsedMs calls n [.cache bucket index]) =
        (calls totals.cacheTotal).path.marks (.cache bucket index)
          ((calls totals.cacheTotal).times elapsedMs) := by
      rw [counted]
      exact List.append_nil _
    rw [alone]
    exact round.mono (fun _ kept => by rw [kept.counted.total, counted]; rfl)

/-- The log of a run is a first part of its script, and all of it where the run completes. -/
theorem run_follows_script {config : RunConfig} {env : Environment}
    {outcome : Except RunFailure RunTotals} {events : List FlowEvent}
    (written : (run elapsedMs config env).exec [] = (outcome, events)) :
    events.map FlowEvent.mark <+: script (config.servings elapsedMs env) ∧
      ∀ totals, outcome = .ok totals →
        events.map FlowEvent.mark = script (config.servings elapsedMs env) := by
  obtain ⟨checks, silent, split⟩ := run_eq_after_checks elapsedMs config env
  have stages : Effect.Traces FlowEvent.mark (script (config.servings elapsedMs env))
      (runStages elapsedMs config env) (fun _ => True) := by
    rw [RunConfig.servings, script_append, script_append]
    apply (runBaseline_traces elapsedMs config env.baseline).bind
    intro _ _
    apply (runCache_traces elapsedMs config env.cache).bind
    intro _ _
    apply (referenceStage_traces elapsedMs config env.reference).bind_silent
    intro _ _
    exact after_ensureNotCancelled (Effect.traces_pure trivial)
  have traced : Effect.Traces FlowEvent.mark (script (config.servings elapsedMs env))
      (run elapsedMs config env) (fun _ => True) := by
    rw [split]
    exact silent.bind (fun _ _ => stages)
  obtain ⟨added, grown, part, returned⟩ := traced []
  rw [written] at grown returned
  obtain rfl : events = added := grown
  exact ⟨part, fun totals same => (returned totals same).1⟩

end

end MiniRedis.App
