/- GID: MiniRedis/App/HitRate
   generality: I
   digest: A run measures the hit rates it was asked for, as long as Redis keeps what it is given. -/

import MiniRedis.App.RequestIdentity
import MiniRedis.App.Summary
import Mathlib.Tactic.FieldSimp
import Mathlib.Tactic.Linarith

set_option autoImplicit false
set_option relaxedAutoImplicit false

namespace MiniRedis.App

open MiniRedis.Base MiniRedis.Python

/-! ### The number of hits asked for -/

/-- The requests that are to find their key. -/
def RunConfig.shouldHit (config : RunConfig) : Request → Bool
  | .cache bucket index => (index : ℤ) < targetHitCount config.iterationCount bucket
  | _ => false

end MiniRedis.App
