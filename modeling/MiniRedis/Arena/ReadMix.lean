/- GID: MiniRedis/Arena/ReadMix
   generality: I
   digest: Reads are spread evenly over hot and cold keys, and a share of zero is read as sixty. -/

import MiniRedis.Arena.Gateway
import MiniRedis.Arena.ScenarioRunner
import MiniRedis.Base.Cycle

set_option autoImplicit false
set_option relaxedAutoImplicit false

namespace MiniRedis.Arena

open MiniRedis.Base MiniRedis.Python

/-! ### Keys -/

private theorem hotKeys_eq : hotKeys = (List.range 4).map (fun i => "s:r:" ++ zeroPadded 3 i) := by
  decide +kernel

private theorem coldKeys_eq :
    coldKeys = (List.range' 4 20).map (fun i => "s:r:" ++ zeroPadded 3 i) := by
  decide +kernel

private theorem keys_nodup : (hotKeys ++ coldKeys).Nodup := by
  rw [hotKeys_eq, coldKeys_eq]
  decide +kernel

private theorem hotKeys_length : hotKeys.length = 4 := by
  rw [hotKeys_eq, List.length_map, List.length_range]

private theorem coldKeys_length : coldKeys.length = 20 := by
  rw [coldKeys_eq, List.length_map, List.length_range']

private theorem cycled_eq_iff {pool : List String} (distinct : pool.Nodup) {j : ℕ}
    (inside : j < pool.length) (i : ℕ) : cycled pool i = pool[j] ↔ i % pool.length = j := by
  have place : i % pool.length < pool.length := Nat.mod_lt i (by omega)
  rw [cycled, List.getD_eq_getElem?_getD, List.getElem?_eq_getElem place,
    Option.getD_some]
  exact distinct.getElem_inj_iff

private theorem cycled_mem {pool : List String} (inhabited : 0 < pool.length) (i : ℕ) :
    cycled pool i ∈ pool := by
  have place : i % pool.length < pool.length := Nat.mod_lt i inhabited
  rw [cycled, List.getD_eq_getElem?_getD, List.getElem?_eq_getElem place,
    Option.getD_some]
  exact List.getElem_mem place

/-- Whether a read goes to a hot key. -/
def isHot (hotPercent : ℤ) (index : ℕ) : Prop := ((index * 37 % 100 : ℕ) : ℤ) < hotPercent

instance (hotPercent : ℤ) : DecidablePred (isHot hotPercent) :=
  fun index => inferInstanceAs (Decidable (((index * 37 % 100 : ℕ) : ℤ) < hotPercent))

private theorem readAction_key (hotPercent : ℤ) (index : ℕ) :
    (readAction hotPercent index).key =
      if isHot hotPercent index then cycled hotKeys index else cycled coldKeys index := by
  have key : (readAction hotPercent index).key =
      cycled (if isHot hotPercent index then hotKeys else coldKeys) index := rfl
  rw [key]
  by_cases hot : isHot hotPercent index
  · rw [if_pos hot, if_pos hot]
  · rw [if_neg hot, if_neg hot]

private theorem key_mem_hotKeys_iff (hotPercent : ℤ) (index : ℕ) :
    (readAction hotPercent index).key ∈ hotKeys ↔ isHot hotPercent index := by
  have apart := (List.nodup_append.mp keys_nodup).2.2
  rw [readAction_key]
  by_cases hot : isHot hotPercent index
  · rw [if_pos hot]
    exact iff_of_true (cycled_mem (by rw [hotKeys_length]; decide) index) hot
  · rw [if_neg hot]
    have cold : cycled coldKeys index ∈ coldKeys :=
      cycled_mem (by rw [coldKeys_length]; decide) index
    exact iff_of_false (fun member => apart _ member _ cold rfl) hot

private theorem key_eq_hot_iff (hotPercent : ℤ) (index : ℕ) {j : ℕ} (inside : j < hotKeys.length) :
    (readAction hotPercent index).key = hotKeys[j] ↔ isHot hotPercent index ∧ index % 4 = j := by
  obtain ⟨distinct, -, apart⟩ := List.nodup_append.mp keys_nodup
  rw [readAction_key]
  by_cases hot : isHot hotPercent index
  · rw [if_pos hot, cycled_eq_iff distinct inside, hotKeys_length]
    exact (and_iff_right hot).symm
  · rw [if_neg hot]
    have cold : cycled coldKeys index ∈ coldKeys :=
      cycled_mem (by rw [coldKeys_length]; decide) index
    exact iff_of_false (fun same => apart _ (List.getElem_mem inside) _ cold same.symm)
      (fun both => hot both.1)

private theorem key_eq_cold_iff (hotPercent : ℤ) (index : ℕ) {j : ℕ}
    (inside : j < coldKeys.length) :
    (readAction hotPercent index).key = coldKeys[j] ↔ ¬isHot hotPercent index ∧ index % 20 = j := by
  obtain ⟨-, distinct, apart⟩ := List.nodup_append.mp keys_nodup
  rw [readAction_key]
  by_cases hot : isHot hotPercent index
  · rw [if_pos hot]
    have warm : cycled hotKeys index ∈ hotKeys :=
      cycled_mem (by rw [hotKeys_length]; decide) index
    exact iff_of_false (fun same => apart _ warm _ (List.getElem_mem inside) same)
      (fun both => both.1 hot)
  · rw [if_neg hot, cycled_eq_iff distinct inside, coldKeys_length]
    exact (and_iff_right hot).symm

/-! ### One period -/

private theorem isHot_periodic (hotPercent : ℤ) (index : ℕ) :
    isHot hotPercent (index + 100) ↔ isHot hotPercent index := by
  have same : (index + 100) * 37 % 100 = index * 37 % 100 := by omega
  rw [isHot, isHot, same]

private theorem hot_reads : ∀ p ∈ READ_LEVELS,
    ((List.range 100).countP (fun i => decide (isHot p i)) : ℤ) = p := by
  decide +kernel

private theorem hot_reads_of_key : ∀ p ∈ READ_LEVELS, ∀ j < 4,
    ((List.range 100).countP (fun i => decide (isHot p i ∧ i % 4 = j)) : ℤ) = p / 4 := by
  decide +kernel

private theorem cold_reads_of_key : ∀ p ∈ READ_LEVELS, ∀ j < 20,
    ((List.range 100).countP (fun i => decide (¬isHot p i ∧ i % 20 = j)) : ℤ) = (100 - p) / 20 := by
  decide +kernel

/-! ### Windows -/

/-- A hundred reads that follow each other. -/
def window {α : Type} (first : ℕ) (l : List α) : List α := (l.drop first).take 100

/-- How often the key is read. -/
def readsOf (key : String) (actions : List ScenarioAction) : ℕ :=
  actions.countP (fun action => action.command = .get ∧ action.key = key)

private theorem count_window (hotPercent : ℤ) (choice : String → Bool)
    (chosen : ℕ → Prop) [DecidablePred chosen]
    (choice_iff : ∀ i, choice (readAction hotPercent i).key = true ↔ chosen i)
    (periodic : ∀ i, chosen (i + 100) ↔ chosen i) {total first : ℕ}
    (inside : first + 100 ≤ total) :
    (window first ((List.range total).map (readAction hotPercent))).countP
        (fun action => action.command = .get ∧ choice action.key = true) =
      (List.range 100).countP (fun i => decide (chosen i)) := by
  have same : ∀ i, decide ((readAction hotPercent i).command = .get ∧
      choice (readAction hotPercent i).key = true) = decide (chosen i) := by
    intro i
    rw [decide_eq_decide, choice_iff]
    exact and_iff_right rfl
  unfold window
  rw [countP_window_of_periodic (readAction hotPercent) _ (fun i => ?_) inside]
  · simp only [same]
  · rw [same, same, decide_eq_decide]
    exact periodic i

/-- Every hundred reads of a plan read each of the four hot keys as often as any other, and each of
the twenty cold keys, in all in the shares that the level says. -/
theorem read_plan_balanced (users durationSeconds hotPercent : ℤ)
    (supported : hotPercent ∈ READ_LEVELS) :
    ∃ plan, buildReadPlan users durationSeconds hotPercent = .ok plan ∧
      hotKeys.length = 4 ∧ coldKeys.length = 20 ∧ (hotKeys ++ coldKeys).Nodup ∧
      ∀ first, first + 100 ≤ plan.actions.length →
        (∀ key ∈ hotKeys, (readsOf key (window first plan.actions) : ℤ) = hotPercent / 4) ∧
        ∀ key ∈ coldKeys,
          (readsOf key (window first plan.actions) : ℤ) = (100 - hotPercent) / 20 := by
  refine ⟨_, if_pos supported, hotKeys_length, coldKeys_length, keys_nodup, fun first inside => ?_⟩
  rw [List.length_map, List.length_range] at inside
  constructor
  · intro key member
    obtain ⟨j, within, rfl⟩ := List.getElem_of_mem member
    have count := count_window hotPercent (fun key => decide (key = hotKeys[j]))
      (fun i => isHot hotPercent i ∧ i % 4 = j)
      (fun i => by rw [decide_eq_true_iff]; exact key_eq_hot_iff hotPercent i within)
      (fun i => by rw [isHot_periodic, show (i + 100) % 4 = i % 4 by omega]) inside
    simp only [decide_eq_true_eq] at count
    rw [readsOf, count]
    exact hot_reads_of_key hotPercent supported j (hotKeys_length ▸ within)
  · intro key member
    obtain ⟨j, within, rfl⟩ := List.getElem_of_mem member
    have count := count_window hotPercent (fun key => decide (key = coldKeys[j]))
      (fun i => ¬isHot hotPercent i ∧ i % 20 = j)
      (fun i => by rw [decide_eq_true_iff]; exact key_eq_cold_iff hotPercent i within)
      (fun i => by rw [isHot_periodic, show (i + 100) % 20 = i % 20 by omega]) inside
    simp only [decide_eq_true_eq] at count
    rw [readsOf, count]
    exact cold_reads_of_key hotPercent supported j (coldKeys_length ▸ within)

theorem forty_percent_balanced :
    (40 : ℤ) ∈ READ_LEVELS ∧ ∃ plan, buildReadPlan 10 10 40 = .ok plan ∧
      plan.actions.length = 100 ∧ readsOf "s:r:000" (window 0 plan.actions) = 10 ∧
      readsOf "s:r:004" (window 0 plan.actions) = 3 := by
  obtain ⟨plan, built, -, -, -, balanced⟩ := read_plan_balanced 10 10 40 (by decide)
  have length : plan.actions.length = 100 := by
    rw [buildReadPlan, if_pos (by decide)] at built
    rw [← Except.ok.inj built, List.length_map, List.length_range]
    decide
  obtain ⟨hot, cold⟩ := balanced 0 (by omega)
  have warm := hot "s:r:000" (by decide +kernel)
  have cool := cold "s:r:004" (by decide +kernel)
  exact ⟨by decide, plan, built, length, by omega, by omega⟩

/-! ### The stream of a scenario -/

/-- How an await of `_run_plan` ends. A task is cancelled while it waits for its next action, or
the gateway raises into it. -/
inductive AwaitEnd where
  | answered
  | raised
  | cancelled

/-- The segments that `_run_plan` issues: it goes on after each answer, whatever it is. -/
def issued : List Segment → (ℕ → AwaitEnd) → List Segment
  | [], _ => []
  | segment :: rest, ends =>
    match ends 0 with
    | .answered => segment :: issued rest (fun n => ends (n + 1))
    | .raised => [segment]
    | .cancelled => []

def Segment.command? : Segment → Option ManualCommandInput
  | .execute input => some input
  | _ => none

/-- The `GET` requests among the segments. -/
def getRequests (segments : List Segment) : List ManualCommandInput :=
  (segments.filterMap Segment.command?).filter (fun input => input.command = .get)

/-- The label names the share, and of a hundred reads that are issued one after the other it is
the share that goes to hot keys, whenever and however the scenario ends. -/
def HonoursShare (hotPercent : ℤ) (input : ScenarioRunInput) : Prop :=
  ScenarioRunner.scenarioLabel input = "read " ++ toString hotPercent ++ "%" ∧
    ∀ ends first, let gets := getRequests (issued input.segments ends)
      first + 100 ≤ gets.length →
        ((window first gets).countP (fun request => request.key ∈ hotKeys) : ℤ) = hotPercent

private theorem issued_front (segments : List Segment) (ends : ℕ → AwaitEnd) :
    issued segments ends <+: segments := by
  induction segments generalizing ends with
  | nil => exact List.prefix_rfl
  | cons segment rest ih =>
    unfold issued
    split
    · exact (List.prefix_cons_inj segment).mpr (ih _)
    · exact ⟨rest, rfl⟩
    · exact List.nil_prefix

private theorem window_of_front {α : Type} {l l' : List α} (front : l <+: l') {first : ℕ}
    (inside : first + 100 ≤ l.length) : window first l = window first l' := by
  obtain ⟨rest, rfl⟩ := front
  rw [window, window, List.drop_append_of_le_length (by omega),
    List.take_append_of_le_length (by rw [List.length_drop]; omega)]

private def readRequest (input : ScenarioRunInput) (action : ScenarioAction) : ManualCommandInput :=
  { command := action.command
    key := action.key
    value := action.value
    ttlEnabled := input.ttlEnabled
    ttlSeconds := input.ttlSeconds }

private theorem getRequests_of_plan {input : ScenarioRunInput} (read : input.scenarioId = .read)
    (supported : input.hotPercent ∈ READ_LEVELS) :
    getRequests input.segments =
      (List.range (totalActions input.users input.durationSeconds)).map
        (fun i => readRequest input (readAction input.hotPercent i)) := by
  have plan : input.plan = .ok ⟨(List.range (totalActions input.users input.durationSeconds)).map
      (readAction input.hotPercent), buildCatalogDocuments⟩ := by
    simp only [ScenarioRunInput.plan, read]
    exact if_pos supported
  have documents : buildCatalogDocuments.entries ≠ [] := by decide +kernel
  have all_get : ∀ request ∈ (List.range (totalActions input.users input.durationSeconds)).map
      (fun i => readRequest input (readAction input.hotPercent i)),
      decide (request.command = .get) = true := by
    intro request member
    obtain ⟨i, -, rfl⟩ := List.mem_map.mp member
    rfl
  have commands : input.segments.filterMap Segment.command? =
      (List.range (totalActions input.users input.durationSeconds)).map
        (fun i => readRequest input (readAction input.hotPercent i)) := by
    simp only [ScenarioRunInput.segments, plan, if_neg documents, List.filterMap_append,
      List.map_map, List.filterMap_map]
    exact congrFun List.filterMap_eq_map _
  rw [getRequests, commands, List.filter_eq_self.mpr all_get]

private theorem getRequests_prefix {segments segments' : List Segment}
    (front : segments <+: segments') : getRequests segments <+: getRequests segments' :=
  (front.filterMap _).filter _

private theorem hot_requests {input : ScenarioRunInput} {total first : ℕ}
    (supported : input.hotPercent ∈ READ_LEVELS) (inside : first + 100 ≤ total) :
    ((window first ((List.range total).map
        (fun i => readRequest input (readAction input.hotPercent i)))).countP
      (fun request => request.key ∈ hotKeys) : ℤ) = input.hotPercent := by
  have choice : ∀ i, decide ((readRequest input (readAction input.hotPercent i)).key ∈ hotKeys) =
      decide (isHot input.hotPercent i) := by
    intro i
    rw [decide_eq_decide]
    exact key_mem_hotKeys_iff input.hotPercent i
  unfold window
  rw [countP_window_of_periodic _ _ (fun i => ?_) inside]
  · simp only [choice]
    exact hot_reads input.hotPercent supported
  · rw [choice, choice, decide_eq_decide]
    exact isHot_periodic input.hotPercent i

/-- Every share that the interface accepts is honoured, but for the share of zero. -/
theorem share_honoured_iff {input : ScenarioRunInput} {hotPercent : ℤ}
    (read : input.scenarioId = .read) (given : input.readHotPercent = some hotPercent)
    (accepted : hotPercent ∈ READ_LEVELS) : HonoursShare hotPercent input ↔ hotPercent ≠ 0 := by
  constructor
  · rintro ⟨label, -⟩ rfl
    have sixty : ScenarioRunner.scenarioLabel input = "read " ++ toString (60 : ℤ) ++ "%" := by
      simp only [ScenarioRunner.scenarioLabel, read, ScenarioRunInput.hotPercent, given, if_true]
    rw [sixty] at label
    exact absurd label (by decide)
  · intro nonzero
    have share : input.hotPercent = hotPercent := by
      simp only [ScenarioRunInput.hotPercent, given, if_neg nonzero]
    have supported : input.hotPercent ∈ READ_LEVELS := share ▸ accepted
    constructor
    · simp only [ScenarioRunner.scenarioLabel, read, share]
    · intro ends first gets inside
      have front := getRequests_prefix (issued_front input.segments ends)
      have short := front.length_le
      rw [getRequests_of_plan read supported, List.length_map, List.length_range] at short
      rw [window_of_front front inside, getRequests_of_plan read supported,
        hot_requests supported (inside.trans short), share]

private def hundredReads (hotPercent : ℤ) : ScenarioRunInput where
  scenarioId := .read
  users := 10
  durationSeconds := 10
  readHotPercent := some hotPercent

theorem forty_percent_honoured :
    (40 : ℤ) ∈ READ_LEVELS ∧ HonoursShare 40 (hundredReads 40) := by
  have honoured : HonoursShare 40 (hundredReads 40) :=
    (share_honoured_iff rfl rfl (by decide)).mpr (by decide)
  exact ⟨by decide, honoured⟩

/-- Of the reads that should all go to cold keys, sixty go to hot ones. -/
theorem zero_percent_not_honoured :
    (0 : ℤ) ∈ READ_LEVELS ∧
      ScenarioRunner.scenarioLabel (hundredReads 0) = "read 60%" ∧
      ((window 0 (getRequests (issued (hundredReads 0).segments (fun _ => .answered)))).countP
        (fun request => request.key ∈ hotKeys)) = 60 ∧
      ¬ HonoursShare 0 (hundredReads 0) := by
  have label : ScenarioRunner.scenarioLabel (hundredReads 0) = "read 60%" := by decide
  have hot : (window 0 (getRequests (issued (hundredReads 0).segments
      (fun _ => .answered)))).countP (fun request => request.key ∈ hotKeys) = 60 := by
    decide +kernel
  refine ⟨by decide, label, hot, fun honoured => ?_⟩
  rw [HonoursShare, label] at honoured
  exact absurd honoured.1 (by decide)

end MiniRedis.Arena
