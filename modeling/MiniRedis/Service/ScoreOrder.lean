/- GID: MiniRedis/Service/ScoreOrder
   generality: I
   digest: Scores order a sorted set exactly where none of them is a NaN beside another member. -/

import Mathlib.Data.Prod.Lex
import Mathlib.Order.WithBotTop
import MiniRedis.Service.BulkReads

set_option autoImplicit false
set_option relaxedAutoImplicit false

namespace MiniRedis.Service

open MiniRedis.Base MiniRedis.Python MiniRedis.Protocol MiniRedis.Commands

/-! ### Comparable scores -/

/-- The place of a score among the extended numbers; a NaN has none and stands at the bottom. -/
def scoreRank : PyFloat → WithBot (WithTop ℚ)
  | .nan => ⊥
  | .inf negative => if negative then ⊥ else ((⊤ : WithTop ℚ) : WithBot (WithTop ℚ))
  | .finite negative magnitude =>
    ((PyFloat.signedValue negative magnitude : WithTop ℚ) : WithBot (WithTop ℚ))

private theorem lt_iff_rank {x y : PyFloat} (known : x ≠ .nan) (known' : y ≠ .nan) :
    x.lt y = true ↔ scoreRank x < scoreRank y := by
  cases x with
  | nan => exact (known rfl).elim
  | inf a =>
    cases y with
    | nan => exact (known' rfl).elim
    | inf b => cases a <;> cases b <;> simp [PyFloat.lt, scoreRank]
    | finite b y => cases a <;> simp [PyFloat.lt, scoreRank]
  | finite a x =>
    cases y with
    | nan => exact (known' rfl).elim
    | inf b =>
      have below : scoreRank (.finite a x) < scoreRank (.inf false) :=
        WithBot.coe_lt_coe.mpr (WithTop.coe_lt_top _)
      cases b
      · exact iff_of_true rfl below
      · simp [PyFloat.lt, scoreRank]
    | finite b y => simp [PyFloat.lt, scoreRank]

private theorem eq_iff_rank {x y : PyFloat} (known : x ≠ .nan) (known' : y ≠ .nan) :
    x.eq y = true ↔ scoreRank x = scoreRank y := by
  cases x with
  | nan => exact (known rfl).elim
  | inf a =>
    cases y with
    | nan => exact (known' rfl).elim
    | inf b => cases a <;> cases b <;> simp [PyFloat.eq, scoreRank]
    | finite b y => cases a <;> simp [PyFloat.eq, scoreRank]
  | finite a x =>
    cases y with
    | nan => exact (known' rfl).elim
    | inf b => cases b <;> simp [PyFloat.eq, scoreRank]
    | finite b y => simp [PyFloat.eq, scoreRank]

/-- The place of a member in the listing: by its score, then by its name. -/
def listingRank (element : String × PyFloat) : WithBot (WithTop ℚ) ×ₗ String :=
  toLex (scoreRank element.2, element.1)

/-- Without a NaN the comparison of the code is the one of the ranks. -/
theorem scoreLt_iff {a b : String × PyFloat} (known : a.2 ≠ .nan) (known' : b.2 ≠ .nan) :
    scoreLt a b = true ↔ listingRank a < listingRank b := by
  rw [listingRank, listingRank, Prod.Lex.toLex_lt_toLex]
  unfold scoreLt
  by_cases same : a.2.eq b.2 = true
  · have rank := (eq_iff_rank known known').mp same
    simp [same, rank]
  · have apart : scoreRank a.2 ≠ scoreRank b.2 := fun h => same ((eq_iff_rank known known').mpr h)
    rw [if_neg same, lt_iff_rank known known']
    simp [apart]

private theorem known_of_compared {x y : PyFloat} (compared : x.lt y = true ∨ x.eq y = true) :
    x ≠ .nan ∧ y ≠ .nan := by
  constructor
  · rintro rfl
    rcases compared with before | same
    · cases before
    · cases same
  · rintro rfl
    cases x <;>
    · rcases compared with before | same
      · cases before
      · cases same

private theorem scoreLt_known {a b : String × PyFloat} (before : scoreLt a b = true) :
    a.2 ≠ .nan ∧ b.2 ≠ .nan := by
  unfold scoreLt at before
  split at before
  · exact known_of_compared (Or.inr ‹_›)
  · exact known_of_compared (Or.inl before)

private theorem scoreLt_asymm {a b : String × PyFloat} (before : scoreLt a b = true)
    (after : scoreLt b a = true) : False := by
  obtain ⟨known, known'⟩ := scoreLt_known before
  exact lt_asymm ((scoreLt_iff known known').mp before) ((scoreLt_iff known' known).mp after)

/-! ### The listing -/

/-- The condition under which scores put the members in one order. -/
def Comparable (scores : Dict String PyFloat) : Prop :=
  (∀ m, scores.get? m ≠ some .nan) ∨ scores.size ≤ 1

/-- The entries of a sorted set in the order of `ZRANGE`. -/
def listing (scores : Dict String PyFloat) : List (String × PyFloat) :=
  scores.entries.insertionSort (fun a b => !scoreLt b a)

private theorem listing_perm (scores : Dict String PyFloat) :
    (listing scores).Perm scores.entries := List.perm_insertionSort _ _

private theorem listing_ascending {scores : Dict String PyFloat} (comparable : Comparable scores) :
    (listing scores).Pairwise (fun a b => scoreLt a b = true) := by
  have perm := listing_perm scores
  rcases comparable with known | single
  · have known' : ∀ a ∈ listing scores, a.2 ≠ .nan := by
      rintro ⟨m, x⟩ member rfl
      exact known m ((Dict.get?_eq_some_iff _ _ _).mpr (perm.mem_iff.mp member))
    have ranks : (listing scores).map listingRank =
        (scores.entries.map listingRank).insertionSort (· ≤ ·) := by
      apply List.map_insertionSort
      intro a ina b inb
      have hab := scoreLt_iff (known' b (perm.mem_iff.mpr inb)) (known' a (perm.mem_iff.mpr ina))
      rw [Bool.not_eq_true', Bool.eq_false_iff, Ne, hab, not_lt]
    have weak : (listing scores).Pairwise (fun a b => listingRank a ≤ listingRank b) := by
      rw [← List.pairwise_map, ranks]
      exact List.pairwise_insertionSort _ _
    have distinct : (listing scores).Pairwise (fun a b => a.1 ≠ b.1) :=
      List.pairwise_map.mp ((perm.map Prod.fst).nodup_iff.mpr scores.nodup)
    refine (weak.and distinct).imp_of_mem fun {a b} ina inb both => ?_
    refine (scoreLt_iff (known' a ina) (known' b inb)).mpr (lt_of_le_of_ne both.1 fun same => ?_)
    exact both.2 (congrArg (fun rank => (ofLex rank).2) same)
  · have short : (listing scores).length ≤ 1 := perm.length_eq ▸ single
    match listing scores, short with
    | [], _ => exact .nil
    | [_], _ => exact List.pairwise_singleton _ _

private theorem orderedMembers_congr {scores scores' : Dict String PyFloat}
    (comparable : Comparable scores) (same : ∀ m, scores'.get? m = scores.get? m) :
    orderedMembers scores' = orderedMembers scores := by
  have comparable' : Comparable scores' := by
    rw [Comparable, Dict.size_eq_of_get?_eq same]
    simpa only [Comparable, same] using comparable
  have equal : listing scores' = listing scores := by
    refine List.Perm.eq_of_pairwise (fun a b _ _ before after => ?_)
      (listing_ascending comparable') (listing_ascending comparable)
      ((listing_perm scores').trans
        ((Dict.perm_of_get?_eq same).trans (listing_perm scores).symm))
    exact (scoreLt_asymm before after).elim
  exact congrArg (List.map Prod.fst) equal

/-- All members, by score and among equal scores by name. -/
def OrderedBy (scores : Dict String PyFloat) (members : List String) : Prop :=
  members.Perm scores.keys ∧
    members.Pairwise (fun a b => ∃ x y, scores.get? a = some x ∧ scores.get? b = some y ∧
      (x.lt y = true ∨ x.eq y = true ∧ a < b))

private theorem orderedMembers_ordered {scores : Dict String PyFloat}
    (comparable : Comparable scores) : OrderedBy scores (orderedMembers scores) := by
  refine ⟨orderedMembers_perm scores, List.pairwise_map.mpr ?_⟩
  refine (listing_ascending comparable).imp_of_mem fun {a b} ina inb before => ?_
  have stored : ∀ e ∈ listing scores, scores.get? e.1 = some e.2 := fun e member =>
    (Dict.get?_eq_some_iff _ _ _).mpr ((listing_perm scores).mem_iff.mp member)
  refine ⟨a.2, b.2, stored a ina, stored b inb, ?_⟩
  unfold scoreLt at before
  split at before
  · exact Or.inr ⟨‹_›, by simpa using before⟩
  · exact Or.inl before

private theorem OrderedBy.comparable {scores : Dict String PyFloat} {members : List String}
    (ordered : OrderedBy scores members) : Comparable scores := by
  obtain ⟨perm, ascending⟩ := ordered
  by_contra incomparable
  obtain ⟨nan_scored, several⟩ := not_or.mp incomparable
  push Not at nan_scored
  obtain ⟨m, scored⟩ := nan_scored
  have apart : members.Pairwise
      (fun a b => scores.get? a ≠ some .nan ∧ scores.get? b ≠ some .nan) := by
    refine ascending.imp ?_
    rintro a b ⟨x, y, hx, hy, before⟩
    obtain ⟨known, known'⟩ := known_of_compared (before.imp_right And.left)
    rw [hx, hy]
    exact ⟨fun same => known (Option.some.inj same), fun same => known' (Option.some.inj same)⟩
  have inside : m ∈ members :=
    perm.mem_iff.mpr ((Dict.mem_keys_iff scores m).mpr ⟨.nan, scored⟩)
  have length : members.length = scores.size := by
    rw [perm.length_eq, Dict.keys, List.length_map, Dict.size]
  -- The NaN stands beside some other member, before it or after it.
  obtain ⟨before, after, rfl⟩ := List.append_of_mem inside
  rcases before with _ | ⟨other, before⟩
  · rcases after with _ | ⟨other, after⟩
    · simp at length
      omega
    · have first := List.rel_of_pairwise_cons apart (List.mem_cons_self (a := other) (l := after))
      exact first.1 scored
  · have first := List.rel_of_pairwise_cons apart
      (List.mem_append_right before (List.mem_cons_self (a := m) (l := after)))
    exact first.2 scored

/-! ### Replies -/

/-- `ZRANGE key 0 -1` lists the members by score and name, and any state that holds the same scores
gives the same reply. -/
def ListsByScore (t : ℚ) (s : CommandService) (key : String) (scores : Dict String PyFloat) :
    Prop :=
  (∃ members, ask t s ⟨"ZRANGE", [key, "0", "-1"]⟩ = .ok (blobArray members) ∧
    OrderedBy scores members) ∧
  ∀ t' s' key' scores', zsetView (liveEntry t' s' key') = some scores' →
    (∀ m, scores'.get? m = scores.get? m) →
    ask t' s' ⟨"ZRANGE", [key', "0", "-1"]⟩ = ask t s ⟨"ZRANGE", [key, "0", "-1"]⟩

private theorem ask_zrange {t : ℚ} {s : CommandService} {key : String}
    {scores : Dict String PyFloat} (stored : zsetView (liveEntry t s key) = some scores) :
    ask t s ⟨"ZRANGE", [key, "0", "-1"]⟩ = .ok (blobArray (orderedMembers scores)) := by
  rw [ask_typed zrange_all]
  cases found : liveEntry t s key with
  | none =>
    rw [found] at stored
    cases stored
    rfl
  | some entry =>
    rw [found] at stored
    cases entry with
    | zset held =>
      cases stored
      exact reply_zrange_all scores
    | _ => cases stored

/-- The scores order the listing exactly where no NaN stands beside another member. -/
theorem zrange_lists_by_score_iff (t : ℚ) (s : CommandService) (key : String)
    (scores : Dict String PyFloat) (stored : zsetView (liveEntry t s key) = some scores) :
    ListsByScore t s key scores ↔
      (∀ m, scores.get? m ≠ some .nan) ∨ scores.size ≤ 1 := by
  constructor
  · rintro ⟨⟨members, -, ordered⟩, -⟩
    exact ordered.comparable
  · intro comparable
    refine ⟨⟨orderedMembers scores, ask_zrange stored, orderedMembers_ordered comparable⟩, ?_⟩
    intro t' s' key' scores' stored' same
    rw [ask_zrange stored, ask_zrange stored', orderedMembers_congr comparable same]

private def scored (first x second y : String) : CommandService :=
  run [.command (fun _ => 0) ⟨"ZADD", ["k", x, first, y, second]⟩]
    (CommandService.init (fun _ => 0) none)

theorem scored_members_listed :
    ListsByScore 0 (scored "b" "2" "a" "-inf") "k"
      ((Dict.empty.set "b" (.finite false 2)).set "a" (.inf true)) := by
  refine (zrange_lists_by_score_iff 0 (scored "b" "2" "a" "-inf") "k"
    ((Dict.empty.set "b" (.finite false 2)).set "a" (.inf true)) (by decide +kernel)).mpr
    (Or.inl fun m => ?_)
  rw [Dict.get?_set, Dict.get?_set, Dict.get?_empty]
  split_ifs <;> simp

/-- `nan` passes the validator, and the reply then shows which member was added first. -/
theorem nan_score_unordered :
    validate ⟨"ZADD", ["k", "nan", "a", "1", "b"]⟩ = .ok () ∧
    validate ⟨"ZADD", ["k", "1", "b", "nan", "a"]⟩ = .ok () ∧
    ask 0 (scored "a" "nan" "b" "1") ⟨"ZRANGE", ["k", "0", "-1"]⟩ = .ok (blobArray ["a", "b"]) ∧
    ask 0 (scored "b" "1" "a" "nan") ⟨"ZRANGE", ["k", "0", "-1"]⟩ = .ok (blobArray ["b", "a"]) ∧
    ¬ ∀ scores, zsetView (liveEntry 0 (scored "a" "nan" "b" "1") "k") = some scores →
      ListsByScore 0 (scored "a" "nan" "b" "1") "k" scores := by
  have held : zsetView (liveEntry 0 (scored "a" "nan" "b" "1") "k") =
      some ((Dict.empty.set "a" .nan).set "b" (.finite false 1)) := by decide +kernel
  have held' : zsetView (liveEntry 0 (scored "b" "1" "a" "nan") "k") =
      some ((Dict.empty.set "b" (.finite false 1)).set "a" .nan) := by decide +kernel
  have first : orderedMembers ((Dict.empty.set "a" .nan).set "b" (.finite false 1)) =
      ["a", "b"] := by decide +kernel
  have second : orderedMembers ((Dict.empty.set "b" (.finite false 1)).set "a" .nan) =
      ["b", "a"] := by decide +kernel
  have listed := ask_zrange held
  have listed' := ask_zrange held'
  rw [first] at listed
  rw [second] at listed'
  refine ⟨by decide +kernel, by decide +kernel, listed, listed', fun lists => ?_⟩
  have agree := (lists _ held).2 0 (scored "b" "1" "a" "nan") "k" _ held' fun m => by
    simp only [Dict.get?_set]
    split_ifs <;> simp_all
  rw [listed, listed'] at agree
  simp [blobArray] at agree

end MiniRedis.Service
