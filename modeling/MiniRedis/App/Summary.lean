/- GID: MiniRedis/App/Summary
   generality: I
   digest: The percentile and the break-even rate of a summary, and when they are what they say. -/

import MiniRedis.App.CacheAccounting
import MiniRedis.Base.Ranking
import MiniRedis.Python.Rounding

set_option autoImplicit false
set_option relaxedAutoImplicit false

namespace MiniRedis.App

open MiniRedis.Base MiniRedis.Python

namespace Runner

def elapsedMs (started finished : ℚ) : ℚ := roundTo2 ((finished - started) * 1000)

end Runner

/-- `statistics.fmean`, and 0 where there is nothing to average. -/
def fmean (samples : List ℚ) : ℚ := samples.sum / samples.length

/-! ### `percentile_95` -/

/-- The product `len(ordered) * 0.95` is cut to a whole number; there is nothing before the first
position. -/
def percentile95 (samples : List ℚ) : ℚ :=
  if samples = [] then 0
  else
    let ordered := samples.insertionSort (· ≤ ·)
    ordered.getD (19 * ordered.length / 20 - 1) 0

/-- The arithmetic of `truncated_product`: the float nearest to 0.95 is a little smaller, which is
less than half a unit of any product, and the product is at least a twentieth away from the next
whole number. -/
private theorem div_eq_of_near {n unit m : ℕ} (wide : 2 ^ 4 ≤ unit)
    (short : ((n * unit : ℕ) : ℚ) * (8556839292003942 / 2 ^ 53) < 2 ^ 53)
    (near : |(m : ℚ) - (n * unit : ℕ) * (8556839292003942 / 2 ^ 53)| ≤ 1 / 2) :
    m / unit = 19 * n / 20 := by
  have below : 20 * (19 * n / 20 * unit) ≤ 19 * (n * unit) := by
    have cut : 20 * (19 * n / 20) ≤ 19 * n := Nat.mul_div_le (19 * n) 20
    calc 20 * (19 * n / 20 * unit) = 20 * (19 * n / 20) * unit := (Nat.mul_assoc _ _ _).symm
      _ ≤ 19 * n * unit := Nat.mul_le_mul_right unit cut
      _ = 19 * (n * unit) := Nat.mul_assoc _ _ _
  have above : 19 * (n * unit) ≤ 20 * (19 * n / 20 * unit) + 19 * unit := by
    have cut : 19 * n ≤ 20 * (19 * n / 20) + 19 := by omega
    calc 19 * (n * unit) = 19 * n * unit := (Nat.mul_assoc _ _ _).symm
      _ ≤ (20 * (19 * n / 20) + 19) * unit := Nat.mul_le_mul_right unit cut
      _ = 20 * (19 * n / 20 * unit) + 19 * unit := by rw [Nat.add_mul, Nat.mul_assoc]
  obtain ⟨far, far'⟩ := abs_le.mp near
  generalize n * unit = total at *
  generalize 19 * n / 20 = whole at *
  have below' : (20 * (whole * unit : ℕ) : ℚ) ≤ 19 * total := by exact_mod_cast below
  have above' : (19 * total : ℚ) ≤ 20 * (whole * unit : ℕ) + 19 * unit := by exact_mod_cast above
  have wide' : (2 ^ 4 : ℚ) ≤ unit := by exact_mod_cast wide
  have least : whole * unit ≤ m := by
    have less : ((whole * unit : ℕ) : ℚ) < m + 1 := by linarith
    exact Nat.lt_add_one_iff.mp (by exact_mod_cast less)
  have most : m < (whole + 1) * unit := by
    have less : (m : ℚ) < (whole * unit : ℕ) + unit := by linarith
    rw [Nat.add_mul, Nat.one_mul]
    exact_mod_cast less
  exact Nat.div_eq_of_lt_le least most

/-- In floats, too, the product is cut to the whole part of the exact one, up to lengths that no
memory holds. -/
theorem truncated_product {n : ℕ} {factor : ℚ≥0} (long : n ≤ 2 ^ 46)
    (nearest : roundBinary64 false (19 / 20) = .finite false factor) :
    ∃ product, roundBinary64 false (n * factor) = .finite false product ∧
      ⌊product⌋₊ = 19 * n / 20 := by
  have known : factor = 8556839292003942 / 2 ^ 53 := by
    have computed : roundBinary64 false (19 / 20) =
        .finite false (8556839292003942 / 2 ^ 53) := by decide +kernel
    rw [computed] at nearest
    injection nearest with _ same
    exact same.symm
  by_cases none : n = 0
  · subst none
    exact ⟨0, by simp [roundBinary64], by simp⟩
  · have counted : (1 : ℚ≥0) ≤ n := by exact_mod_cast Nat.one_le_iff_ne_zero.mpr none
    have half : (1 : ℚ≥0) / 2 ≤ factor := by rw [known]; decide +kernel
    have below_one : factor < 1 := by rw [known]; decide +kernel
    have large : (2 : ℚ≥0) ^ (-1 : ℤ) ≤ n * factor := by
      rw [zpow_neg_one, ← one_div]
      calc (1 : ℚ≥0) / 2 ≤ factor := half
        _ = 1 * factor := (one_mul _).symm
        _ ≤ n * factor := mul_le_mul_of_nonneg_right counted zero_le
    have positive : 0 < (n : ℚ≥0) * factor := lt_of_lt_of_le (by positivity) large
    have small : (n : ℚ≥0) * factor < 2 ^ (46 : ℤ) := by
      calc (n : ℚ≥0) * factor < n * 1 := mul_lt_mul_of_pos_left below_one (by positivity)
        _ = n := mul_one _
        _ ≤ 2 ^ (46 : ℤ) := by exact_mod_cast long
    have least := (Int.zpow_le_iff_le_log (R := ℚ≥0) one_lt_two positive).mp large
    have most := (Int.lt_zpow_iff_log_lt (R := ℚ≥0) one_lt_two positive).mp small
    obtain ⟨j, log⟩ : ∃ j : ℕ, Int.log 2 ((n : ℚ≥0) * factor) = 52 - (j : ℤ) :=
      ⟨(52 - Int.log 2 ((n : ℚ≥0) * factor)).toNat, by omega⟩
    have low := Int.zpow_log_le_self (R := ℚ≥0) one_lt_two positive
    have high := Int.lt_zpow_succ_log_self (R := ℚ≥0) one_lt_two ((n : ℚ≥0) * factor)
    rw [log] at low high
    have high' : (n : ℚ≥0) * factor < 2 ^ (53 - (j : ℤ)) := by
      rwa [show 53 - (j : ℤ) = 52 - j + 1 by omega]
    refine ⟨_, roundBinary64_of_bounds false low high' (by omega), ?_⟩
    have grouped : (n : ℚ≥0) * factor * 2 ^ j = (n * 2 ^ j : ℕ) * factor := by
      push_cast
      ring
    have short : ((n * 2 ^ j : ℕ) : ℚ≥0) * factor < 2 ^ 53 := by
      rw [← grouped]
      calc (n : ℚ≥0) * factor * 2 ^ j < 2 ^ (53 - (j : ℤ)) * 2 ^ j :=
          mul_lt_mul_of_pos_right high' (pow_pos two_pos j)
        _ = 2 ^ 53 := by
          rw [← zpow_natCast 2 j, ← zpow_add₀ two_ne_zero, sub_add_cancel]
          rfl
    have error := abs_le.mp (abs_roundHalfEven_sub_le ((n : ℚ≥0) * factor * 2 ^ j))
    generalize roundHalfEven ((n : ℚ≥0) * factor * 2 ^ j) = m at error
    rw [grouped, known] at error
    rw [known] at short
    have short' : ((n * 2 ^ j : ℕ) : ℚ) * (8556839292003942 / 2 ^ 53) < 2 ^ 53 := by
      exact_mod_cast short
    have floor : ⌊(m : ℚ≥0) / 2 ^ j⌋₊ = m / 2 ^ j := by
      have division := Nat.floor_div_eq_div (K := ℚ≥0) m (2 ^ j)
      rwa [Nat.cast_pow, Nat.cast_ofNat] at division
    rw [floor]
    apply div_eq_of_near (Nat.pow_le_pow_right two_pos (show 4 ≤ j by omega)) short'
    rw [abs_le]
    exact_mod_cast error

/-- One of the samples, with at least 95 of 100 samples not above it. -/
def IsPercentile95 (samples : List ℚ) (v : ℚ) : Prop :=
  v ∈ samples ∧ 19 * samples.length ≤ 20 * samples.countP (· ≤ v)

/-- In sorted order, the sample at a position counted from one and the next one are equal: fewer
samples are smaller, and more are not greater. -/
def TiedAt (position : ℕ) (samples : List ℚ) : Prop :=
  ∃ v, samples.countP (· < v) < position ∧ position < samples.countP (· ≤ v)

private theorem getElem?_percentile95 {samples : List ℚ} (some_sample : samples ≠ []) :
    (samples.insertionSort (· ≤ ·))[19 * samples.length / 20 - 1]? = some (percentile95 samples) := by
  have length : (samples.insertionSort (· ≤ ·)).length = samples.length := List.length_insertionSort _ _
  have positive := List.length_pos_iff.mpr some_sample
  have inside : 19 * samples.length / 20 - 1 < (samples.insertionSort (· ≤ ·)).length := by omega
  simp only [percentile95, if_neg some_sample, length, List.getD_eq_getElem?_getD,
    List.getElem?_eq_getElem inside, Option.getD_some]

/-- The result is a 95th percentile of the samples exactly where 95 of 100 of them are a whole
number, or a tie hides that one too few is counted. -/
theorem percentile95_iff {samples : List ℚ} (some_sample : samples ≠ []) :
    (IsPercentile95 samples (percentile95 samples) ∧
      ∀ samples', samples'.Perm samples → percentile95 samples' = percentile95 samples) ↔
    samples.length = 1 ∨ 20 ∣ samples.length ∨ TiedAt (19 * samples.length / 20) samples := by
  have there := getElem?_percentile95 some_sample
  have positive := List.length_pos_iff.mpr some_sample
  have member : percentile95 samples ∈ samples :=
    (List.mem_insertionSort _).mp (List.mem_of_getElem? there)
  have forgets : ∀ samples', samples'.Perm samples → percentile95 samples' = percentile95 samples := by
    intro samples' perm
    have also : samples' ≠ [] := fun none => some_sample (by
      rw [none] at perm
      exact perm.nil_eq.symm)
    have there' := getElem?_percentile95 also
    rw [perm.length_eq, insertionSort_eq_of_perm perm, there] at there'
    exact (Option.some.inj there').symm
  obtain ⟨few, many⟩ := getElem?_insertionSort_iff.mp there
  rw [IsPercentile95, and_iff_left forgets, and_iff_right member]
  constructor
  · intro enough
    by_cases whole : samples.length = 1 ∨ 20 ∣ samples.length
    · exact whole.imp_right Or.inl
    · refine Or.inr (Or.inr ⟨percentile95 samples, ?_, ?_⟩)
      · omega
      · omega
  · rintro (single | whole | ⟨v, fewer, more⟩)
    · omega
    · omega
    · have tied : (samples.insertionSort (· ≤ ·))[19 * samples.length / 20 - 1]? = some v :=
        getElem?_insertionSort_iff.mpr ⟨by omega, by omega⟩
      rw [there] at tied
      rw [Option.some.inj tied]
      omega

theorem twenty_samples_percentile :
    IsPercentile95 ((List.range 20).map (↑)) (percentile95 ((List.range 20).map (↑))) ∧
      ∀ samples', samples'.Perm ((List.range 20).map (↑)) →
        percentile95 samples' = percentile95 ((List.range 20).map (↑)) :=
  (percentile95_iff (by decide)).mpr (Or.inr (Or.inl (by decide)))

/-- Of two samples the smaller one is returned. -/
theorem two_samples_no_percentile : ¬ IsPercentile95 [1, 2] (percentile95 [1, 2]) := by
  rintro ⟨-, enough⟩
  revert enough
  decide +kernel

/-! ### `build_summary` -/

/-- The rounded averages of the buckets with samples. -/
def bucketAverages (totals : CacheTotals) : Dict ℤ ℚ :=
  (totals.bucketSamples.filter (fun _ values => values ≠ [])).map (fun values => roundTo2 (fmean values))

/-- The first bucket in order whose average is known and at most the one of the database. -/
def breakEvenHitRate (buckets : List ℤ) (averages : Dict ℤ ℚ) (dbAvgMs : ℚ) : Option ℤ :=
  (buckets.insertionSort (· ≤ ·)).find? (fun bucket =>
    (averages.get? bucket).any (fun average => average ≤ dbAvgMs))

/-- The fields of a `RunSummary` that are numbers of the samples. -/
structure LatencySummary where
  dbAvgMs : ℚ
  redisAvgMs : ℚ
  p95DbMs : ℚ
  p95RedisMs : ℚ
  p95ReferenceMs : Option ℚ
  speedupRatio : ℚ
  improvementPercent : ℚ
  breakEvenHitRate : Option ℤ
  cacheHitRate : ℚ

/-- `build_summary` as far as it computes with the samples. -/
def buildLatencies (buckets : List ℤ) (totals : RunTotals) : LatencySummary :=
  let dbAvgMs := fmean totals.baselineSamples
  let redisAvgMs := fmean totals.cache.samples
  { dbAvgMs := roundTo2 dbAvgMs
    redisAvgMs := roundTo2 redisAvgMs
    p95DbMs := roundTo2 (percentile95 totals.baselineSamples)
    p95RedisMs := roundTo2 (percentile95 totals.cache.samples)
    p95ReferenceMs :=
      if totals.referenceSamples = [] then none
      else some (roundTo2 (percentile95 totals.referenceSamples))
    speedupRatio := if redisAvgMs ≠ 0 then roundTo2 (dbAvgMs / redisAvgMs) else 0
    improvementPercent := if dbAvgMs ≠ 0 then roundTo2 ((1 - redisAvgMs / dbAvgMs) * 100) else 0
    breakEvenHitRate := breakEvenHitRate buckets (bucketAverages totals.cache) dbAvgMs
    cacheHitRate :=
      if totals.cache.cacheTotal ≠ 0 then
        roundTo2 ((totals.cache.cacheHits : ℚ) / totals.cache.cacheTotal * 100)
      else 0 }

/-! ### The break-even rate -/

section

variable (elapsedMs : ℚ → ℚ → ℚ) (config : RunConfig) (env : Environment)

/-- The durations of the requests to the database alone. -/
def baselineDurations : List ℚ :=
  (List.range config.iterationCount.toNat).map (fun index => (env.baseline index).duration elapsedMs)

/-- The durations of a bucket's requests through the cache. -/
def bucketDurations (bucket : ℤ) : List ℚ :=
  bucketSamplesFrom elapsedMs env.cache bucket 0 config.cacheRequests

/-- The average of a bucket, as `view` shows it, is at most the one of the database. -/
def Competes (view : ℚ → ℚ) (bucket : ℤ) : Prop :=
  bucketDurations elapsedMs config env bucket ≠ [] ∧
    view (fmean (bucketDurations elapsedMs config env bucket)) ≤
      fmean (baselineDurations elapsedMs config env)

instance (view : ℚ → ℚ) (bucket : ℤ) : Decidable (Competes elapsedMs config env view bucket) :=
  inferInstanceAs (Decidable (_ ∧ _))

end

/-- The smallest of some buckets with a property, or none where there is none. -/
def IsBreakEven (buckets : List ℤ) (competes : ℤ → Prop) : Option ℤ → Prop
  | some bucket => IsLeast {b | b ∈ buckets ∧ competes b} bucket
  | none => ∀ bucket ∈ buckets, ¬ competes bucket

private theorem isBreakEven_iff {buckets : List ℤ} {competes : ℤ → Prop} [DecidablePred competes]
    {result : Option ℤ} :
    IsBreakEven buckets competes result ↔
      (buckets.insertionSort (· ≤ ·)).find? (fun bucket => competes bucket) = result := by
  cases result with
  | none =>
    rw [find?_insertionSort_eq_none_iff]
    simp [IsBreakEven]
  | some bucket =>
    rw [find?_insertionSort_eq_some_iff]
    simp [IsBreakEven]

variable {elapsedMs : ℚ → ℚ → ℚ} {config : RunConfig} {env : Environment} {totals : RunTotals}
  {events : List FlowEvent}

private def durationOf (elapsedMs : ℚ → ℚ → ℚ) (calls : ℕ → BaselineCalls) : Request → ℚ
  | .baseline index => (calls index).duration elapsedMs
  | .cache _ _ | .reference _ => 0

private theorem samples_of_run
    (completed : (run elapsedMs config env).exec [] = (.ok totals, events)) :
    totals.baselineSamples = baselineDurations elapsedMs config env ∧
      Timed elapsedMs env.cache config.cacheRequests {} totals.cache := by
  have baseline := runBaseline_keeps elapsedMs config env.baseline
    (R := fun requests samples samples' _ =>
      samples' = samples ++ requests.map (durationOf elapsedMs env.baseline))
    (fun samples => (List.append_nil samples).symm)
    (fun first rest => by rw [rest, first, List.append_assoc, ← List.map_append])
    (fun spec => by rw [spec.sample]; rfl)
  have reference := runReference_keeps elapsedMs config env.reference (R := fun _ _ _ _ => True)
    (fun _ => trivial) (fun _ _ => trivial) (fun _ => trivial)
  obtain ⟨first, second, third, -, samples, timed, -⟩ :=
    run_keeps elapsedMs baseline (runCache_timed elapsedMs config env.cache) reference completed
  refine ⟨samples.trans ?_, timed⟩
  rw [List.nil_append, RunConfig.baselineRequests, List.map_map]
  rfl

private theorem breakEvenHitRate_of_run
    (completed : (run elapsedMs config env).exec [] = (.ok totals, events)) :
    (buildLatencies config.hitRateBuckets totals).breakEvenHitRate =
      (config.hitRateBuckets.insertionSort (· ≤ ·)).find?
        (fun bucket => Competes elapsedMs config env roundTo2 bucket) := by
  obtain ⟨baseline, timed⟩ := samples_of_run completed
  have same : ∀ bucket,
      ((bucketAverages totals.cache).get? bucket).any (fun average =>
        average ≤ fmean totals.baselineSamples) =
      decide (Competes elapsedMs config env roundTo2 bucket) := by
    intro bucket
    have samples : totals.cache.samplesOf bucket = bucketDurations elapsedMs config env bucket :=
      timed.buckets bucket
    rw [bucketAverages, Dict.get?_map, Dict.get?_filter, baseline, Bool.eq_iff_iff,
      decide_eq_true_iff, Competes, ← samples, CacheTotals.samplesOf]
    cases totals.cache.bucketSamples.get? bucket with
    | none => simp
    | some values => by_cases empty : values = [] <;> simp [empty, Option.filter]
  simp only [buildLatencies, breakEvenHitRate, same]

/-- The break-even rate of a completed run is the smallest bucket whose average is at most the one
of the database exactly where, at the first bucket for which it matters, the average and its
rounding are on one side. -/
theorem break_even_iff (completed : (run elapsedMs config env).exec [] = (.ok totals, events)) :
    IsBreakEven config.hitRateBuckets (Competes elapsedMs config env id)
        (buildLatencies config.hitRateBuckets totals).breakEvenHitRate ↔
      ∀ bucket, IsLeast {b | b ∈ config.hitRateBuckets ∧
          (Competes elapsedMs config env id b ∨ Competes elapsedMs config env roundTo2 b)} bucket →
        (Competes elapsedMs config env id bucket ∧ Competes elapsedMs config env roundTo2 bucket) := by
  rw [isBreakEven_iff, breakEvenHitRate_of_run completed, find?_eq_find?_iff]
  apply forall_congr'
  intro bucket
  rw [find?_insertionSort_eq_some_iff]
  simp

-- Three requests each to the database alone and through the cache, where no key is stored.
private def threeRequests : RunConfig := ⟨"detail_page", 3, 1, [0], 30, false⟩

private def threeDurations (slower : Bool) : Environment where
  bootstrap := ⟨false, .ok true, false, none⟩
  warmup _ := (false, .ok ())
  baseline _ := ⟨false, fun reading => if reading = 0 then 0 else mkRat 1 1000, .ok ()⟩
  cache k := ⟨false, fun _ => .ok (), fun reading => if reading = 0 then 0
    else if slower ∧ k = 2 then mkRat 101 100000 else mkRat 1 1000, .ok none, .ok (), .ok ()⟩
  reference _ := ⟨false, .ok (), fun _ => 0, .ok ()⟩
  aggregationCancelled := false

private theorem three_requests_complete (slower : Bool) :
    ∃ totals events, (run Runner.elapsedMs threeRequests (threeDurations slower)).exec [] =
      (.ok totals, events) :=
  Effect.exists_of_isOk (by cases slower <;> decide +kernel)

theorem equal_durations_break_even :
    ∃ totals events, (run Runner.elapsedMs threeRequests (threeDurations false)).exec [] =
        (.ok totals, events) ∧
      IsBreakEven threeRequests.hitRateBuckets
        (Competes Runner.elapsedMs threeRequests (threeDurations false) id)
        (buildLatencies threeRequests.hitRateBuckets totals).breakEvenHitRate := by
  obtain ⟨totals, events, completed⟩ := three_requests_complete false
  refine ⟨totals, events, completed, (break_even_iff completed).mpr ?_⟩
  rintro bucket ⟨⟨member, -⟩, -⟩
  obtain rfl : bucket = 0 := List.mem_singleton.mp member
  exact ⟨by decide +kernel, by decide +kernel⟩

/-- The average of the bucket is above a millisecond by less than the rounding shows. -/
theorem slower_bucket_breaks_even :
    ∃ totals events, threeRequests.hitRateBuckets.Nodup ∧
      (run Runner.elapsedMs threeRequests (threeDurations true)).exec [] =
        (.ok totals, events) ∧
      ¬ IsBreakEven threeRequests.hitRateBuckets
        (Competes Runner.elapsedMs threeRequests (threeDurations true) id)
        (buildLatencies threeRequests.hitRateBuckets totals).breakEvenHitRate := by
  obtain ⟨totals, events, completed⟩ := three_requests_complete true
  refine ⟨totals, events, by decide, completed, ?_⟩
  rw [breakEvenHitRate_of_run completed]
  have found : (threeRequests.hitRateBuckets.insertionSort (· ≤ ·)).find? (fun bucket =>
      Competes Runner.elapsedMs threeRequests (threeDurations true) roundTo2 bucket) =
      some 0 := by decide +kernel
  rw [found]
  rintro ⟨⟨-, competes⟩, -⟩
  revert competes
  decide +kernel

end MiniRedis.App
