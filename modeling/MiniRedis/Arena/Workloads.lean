/- GID: MiniRedis/Arena/Workloads
   generality: I
   digest: The plans of the read, write and mixed scenarios and the documents they seed. -/

import MiniRedis.Arena.Lanes

set_option autoImplicit false
set_option relaxedAutoImplicit false

namespace MiniRedis.Arena

open MiniRedis.Base MiniRedis.Python

/-- An action of a plan; the runner waits before each one. -/
structure ScenarioAction where
  command : CommandName
  key : String
  value : Option String := none
  deriving DecidableEq

structure ScenarioPlan where
  actions : List ScenarioAction
  seedDocuments : Dict String String

def READ_LEVELS : List ℤ := [0, 20, 40, 60, 80, 100]

def CATALOG_SIZE : ℕ := 24

def HOTSET_SIZE : ℕ := 4

/-- `f"{n:03d}"` for the width 3. -/
def zeroPadded (width n : ℕ) : String :=
  String.ofList ((toString n).toList.leftpad width '0')

def valueForIndex (index : ℕ) (tag : String) : String :=
  "\x7b\"tag\":\"" ++ tag ++ "\",\"id\":" ++ toString index ++ ",\"title\":\"arena-" ++ tag ++ "-" ++
    zeroPadded 3 index ++ "\",\"body\":\"payload-" ++ zeroPadded 2 (index % 7 + 1) ++
    "-abcdefghij\"\x7d"

def buildCatalogDocuments : Dict String String :=
  (List.range CATALOG_SIZE).foldl
    (fun documents index =>
      documents.set ("s:r:" ++ zeroPadded 3 index) (valueForIndex index "read"))
    Dict.empty

def hotKeys : List String := buildCatalogDocuments.keys.take HOTSET_SIZE

def coldKeys : List String := buildCatalogDocuments.keys.drop HOTSET_SIZE

/-- `pool[index % len(pool)]` for a pool that is not empty. -/
def cycled (pool : List String) (index : ℕ) : String := pool.getD (index % pool.length) ""

/-- `max(users * duration_seconds, 1)`. -/
def totalActions (users durationSeconds : ℤ) : ℕ := (max (users * durationSeconds) 1).toNat

def readAction (hotPercent : ℤ) (index : ℕ) : ScenarioAction where
  command := .get
  key := cycled (if ((index * 37 % 100 : ℕ) : ℤ) < hotPercent then hotKeys else coldKeys) index

def buildReadPlan (users durationSeconds hotPercent : ℤ) : Except String ScenarioPlan :=
  if hotPercent ∈ READ_LEVELS then
    .ok ⟨(List.range (totalActions users durationSeconds)).map (readAction hotPercent),
      buildCatalogDocuments⟩
  else .error ("Unsupported read hot percent: " ++ toString hotPercent)

def writeAction (index : ℕ) : ScenarioAction where
  command := .set
  key := "s:w:" ++ zeroPadded 3 index
  value := some (valueForIndex index "write")

def buildWritePlan (users durationSeconds : ℤ) : ScenarioPlan :=
  ⟨(List.range (totalActions users durationSeconds)).map writeAction, Dict.empty⟩

def mixedAction (index : ℕ) : ScenarioAction :=
  let phase := index % 10
  if phase ≤ 5 then
    { command := .get
      key := cycled (if phase ∈ [0, 1, 2, 3] then hotKeys else coldKeys) index }
  else if phase = 6 ∨ phase = 7 then
    { command := .set
      key := if phase = 6 then cycled hotKeys index else "s:m:w:" ++ zeroPadded 3 index
      value := some (valueForIndex index "mixed") }
  else
    { command := .del
      key := cycled (if phase = 8 then coldKeys else hotKeys) index }

def buildMixedPlan (users durationSeconds : ℤ) : ScenarioPlan :=
  ⟨(List.range (totalActions users durationSeconds)).map mixedAction, buildCatalogDocuments⟩

/-! ### Scenarios -/

inductive ScenarioId where
  | read
  | write
  | mixed
  deriving DecidableEq

structure ScenarioRunInput where
  scenarioId : ScenarioId
  users : ℤ
  durationSeconds : ℤ
  readHotPercent : Option ℤ := none
  ttlEnabled : Bool := false
  ttlSeconds : Option PyFloat := none

/-- `read_hot_percent or 60`: a share of zero counts as not given. -/
def ScenarioRunInput.hotPercent (input : ScenarioRunInput) : ℤ :=
  match input.readHotPercent with
  | none => 60
  | some percent => if percent = 0 then 60 else percent

/-- The plan that `_run_plan` builds; an exception is its text. -/
def ScenarioRunInput.plan (input : ScenarioRunInput) : Except String ScenarioPlan :=
  match input.scenarioId with
  | .read => buildReadPlan input.users input.durationSeconds input.hotPercent
  | .write => .ok (buildWritePlan input.users input.durationSeconds)
  | .mixed => .ok (buildMixedPlan input.users input.durationSeconds)

example : (buildWritePlan 1 2).actions.map ScenarioAction.key = ["s:w:000", "s:w:001"] := by
  decide +kernel

end MiniRedis.Arena
