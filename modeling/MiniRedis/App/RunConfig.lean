/- GID: MiniRedis/App/RunConfig
   generality: I
   digest: The configuration of a benchmark run as read from the body of a request. -/

import MiniRedis.Base.Outcome
import MiniRedis.Python.Number

set_option autoImplicit false
set_option relaxedAutoImplicit false

namespace MiniRedis.App

open MiniRedis.Base MiniRedis.Python

structure RunConfig where
  scenario : String
  iterationCount : ℤ
  concurrency : ℤ
  hitRateBuckets : List ℤ
  ttlSeconds : ℤ
  includeReference : Bool := false
  deriving DecidableEq

/-! ### Values of a JSON body -/

inductive JsonValue where
  | null
  | bool (value : Bool)
  | int (value : ℤ)
  | float (value : PyFloat)
  | string (value : String)
  | array (items : List JsonValue)
  | object (entries : List (String × JsonValue))

/-- What a request can be refused with. Only a `ValueError` has an answer of its own. -/
inductive ConfigError where
  | invalidLiteral
  | valueError (message : String)
  | typeError
  | overflowError
  deriving DecidableEq

namespace JsonValue

/-- `int(value)`: a float is cut off towards zero. -/
def toInt : JsonValue → Except ConfigError ℤ
  | null | array _ | object _ => .error .typeError
  | bool value => .ok (if value then 1 else 0)
  | int value => .ok value
  | float .nan => .error .invalidLiteral
  | float (.inf _) => .error .overflowError
  | float (.finite negative magnitude) =>
    .ok (if negative then -(⌊magnitude⌋₊ : ℤ) else (⌊magnitude⌋₊ : ℤ))
  | string value =>
    match parseInt value with
    | some n => .ok n
    | none => .error .invalidLiteral

/-- The values of a `for` loop: a string has its characters, an object its keys. -/
def iterate : JsonValue → Except ConfigError (List JsonValue)
  | array items => .ok items
  | string value => .ok (value.toList.map (fun c => string c.toString))
  | object entries => .ok (entries.map (fun entry => string entry.1))
  | null | bool _ | int _ | float _ => .error .typeError

/-- `bool(value)`. -/
def truthy : JsonValue → Bool
  | null => false
  | bool value => value
  | int value => value ≠ 0
  | float (.finite _ magnitude) => magnitude ≠ 0
  | float _ => true
  | string value => value ≠ ""
  | array items => !items.isEmpty
  | object entries => !entries.isEmpty

end JsonValue

/-! ### `_build_run_config` -/

def DEFAULT_HIT_RATE_BUCKETS : List ℤ := [0, 10, 20, 30, 40, 50, 60, 70, 80, 90, 100]

/-- The fields of a body that are read, as far as they are there; `str` is applied to the
scenario already. -/
structure RunBody where
  scenario : Option String := none
  iterationCount : Option JsonValue := none
  concurrency : Option JsonValue := none
  hitRateBuckets : Option JsonValue := none
  ttlSeconds : Option JsonValue := none
  includeReference : Option JsonValue := none

/-- `int(body.get(field, default))`. -/
def intField (value : Option JsonValue) (default : ℤ) : Except ConfigError ℤ :=
  (value.getD (.int default)).toInt

def bucketsField (value : Option JsonValue) : Except ConfigError (List ℤ) := do
  let values ← (value.getD (.array (DEFAULT_HIT_RATE_BUCKETS.map .int))).iterate
  values.mapM JsonValue.toInt

def require (condition : Bool) (message : String) : Except ConfigError Unit :=
  if condition then .ok () else .error (.valueError message)

def buildRunConfig (body : RunBody) : Except ConfigError RunConfig := do
  let iterationCount ← intField body.iterationCount 10
  let concurrency ← intField body.concurrency 1
  let hitRateBuckets ← bucketsField body.hitRateBuckets
  let ttlSeconds ← intField body.ttlSeconds 30
  let includeReference := (body.includeReference.getD (.bool false)).truthy
  require (0 < iterationCount) "iteration_count must be greater than 0"
  require (0 < concurrency) "concurrency must be greater than 0"
  require (0 < ttlSeconds) "ttl_seconds must be greater than 0"
  require (!hitRateBuckets.isEmpty) "hit_rate_buckets must not be empty"
  require (hitRateBuckets.all (fun bucket => 0 ≤ bucket && bucket ≤ 100))
    "hit_rate_buckets must be between 0 and 100"
  return ⟨body.scenario.getD "detail_page", iterationCount, concurrency, hitRateBuckets, ttlSeconds,
    includeReference⟩

/-- What an accepted configuration is known to have. -/
structure RunConfig.Accepted (config : RunConfig) : Prop where
  iterations : 0 < config.iterationCount
  concurrent : 0 < config.concurrency
  lifetime : 0 < config.ttlSeconds
  some_bucket : config.hitRateBuckets ≠ []
  buckets : ∀ bucket ∈ config.hitRateBuckets, 0 ≤ bucket ∧ bucket ≤ 100

private theorem require_eq_ok {condition : Bool} {message : String} {u : Unit}
    (run : require condition message = .ok u) : condition = true := by
  unfold require at run
  split at run
  · assumption
  · cases run

theorem accepted_of_buildRunConfig {body : RunBody} {config : RunConfig}
    (built : buildRunConfig body = .ok config) : config.Accepted := by
  obtain ⟨iterationCount, -, built⟩ := exists_ok_of_bind built
  obtain ⟨concurrency, -, built⟩ := exists_ok_of_bind built
  obtain ⟨hitRateBuckets, -, built⟩ := exists_ok_of_bind built
  obtain ⟨ttlSeconds, -, built⟩ := exists_ok_of_bind built
  obtain ⟨_, iterations, built⟩ := exists_ok_of_bind built
  obtain ⟨_, concurrent, built⟩ := exists_ok_of_bind built
  obtain ⟨_, lifetime, built⟩ := exists_ok_of_bind built
  obtain ⟨_, inhabited, built⟩ := exists_ok_of_bind built
  obtain ⟨_, ranged, built⟩ := exists_ok_of_bind built
  cases built
  refine ⟨of_decide_eq_true (require_eq_ok iterations), of_decide_eq_true (require_eq_ok concurrent),
    of_decide_eq_true (require_eq_ok lifetime), ?_, ?_⟩
  · simpa using require_eq_ok inhabited
  · simpa using require_eq_ok ranged

end MiniRedis.App
