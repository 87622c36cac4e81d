/- GID: MiniRedis/App/TimelineOrder
   generality: I
   digest: The timelines of a run keep the recorded order exactly where time passes in time. -/

import MiniRedis.App.RunScript
import MiniRedis.App.RequestIdentity
import MiniRedis.App.Summary
import Mathlib.Data.String.Basic

set_option autoImplicit false
set_option relaxedAutoImplicit false

namespace MiniRedis.App

open MiniRedis.Base MiniRedis.Python

/-! ### The timelines of any log -/

instance : Std.Total sortsBefore where
  total a b := by
    unfold sortsBefore
    rcases lt_trichotomy a.timestamp b.timestamp with earlier | same | later
    · exact Or.inl (Or.inl earlier)
    · exact (le_total a.eventId b.eventId).imp (fun le => Or.inr ⟨same, le⟩)
        (fun le => Or.inr ⟨same.symm, le⟩)
    · exact Or.inr (Or.inl later)

instance : IsTrans FlowEvent sortsBefore where
  trans a b c := by
    rintro (earlier | ⟨same, le⟩) (earlier' | ⟨same', le'⟩)
    · exact Or.inl (earlier.trans earlier')
    · exact Or.inl (same' ▸ earlier)
    · exact Or.inl (same ▸ earlier')
    · exact Or.inr ⟨same.trans same', le.trans le'⟩

/-- A log always has its timelines: one for each request, with its events in sorted order. -/
theorem buildRequestTimelines_sorts (round2 : ℚ → ℚ) (events : List FlowEvent) :
    ∃ timelines, buildRequestTimelines round2 events = some timelines ∧
      (∀ event ∈ events, ∃ timeline ∈ timelines, timeline.requestId = event.requestId) ∧
      ∀ timeline ∈ timelines, (∃ event ∈ events, event.requestId = timeline.requestId) ∧
        timeline.events = (events.filter (fun event => event.requestId = timeline.requestId)).insertionSort
          sortsBefore := by
  have occurs : ∀ id ∈ (events.map FlowEvent.requestId).eraseDups,
      ∃ event ∈ events, event.requestId = id :=
    fun id member => List.mem_map.mp (List.mem_eraseDups.mp member)
  have inhabited : ∀ group ∈ (groupBy FlowEvent.requestId events).entries, group.2 ≠ [] := by
    rw [entries_groupBy]
    intro group member
    obtain ⟨id, named, rfl⟩ := List.mem_map.mp member
    obtain ⟨event, inside, same⟩ := occurs id named
    exact List.ne_nil_of_mem (List.mem_filter.mpr ⟨inside, decide_eq_true same⟩)
  obtain ⟨timelines, built, sorts⟩ := exists_mapM (fun group member =>
    buildRequestTimeline_holds round2 group.1 (inhabited group member))
  rw [entries_groupBy, List.forall₂_map_left_iff] at sorts
  refine ⟨timelines, built, ?_, ?_⟩
  · intro event member
    have named : event.requestId ∈ (events.map FlowEvent.requestId).eraseDups :=
      List.mem_eraseDups.mpr (List.mem_map_of_mem member)
    generalize (events.map FlowEvent.requestId).eraseDups = ids at sorts named
    clear occurs inhabited built
    induction sorts with
    | nil => cases named
    | cons sorted _ ih =>
      rcases List.mem_cons.mp named with same | named
      · exact ⟨_, List.mem_cons_self, sorted.requestId.trans same.symm⟩
      · obtain ⟨timeline, inside, same⟩ := ih named
        exact ⟨timeline, List.mem_cons_of_mem _ inside, same⟩
  · generalize (events.map FlowEvent.requestId).eraseDups = ids at sorts occurs
    clear inhabited built
    induction sorts with
    | nil => exact fun _ member => by cases member
    | cons sorted _ ih =>
      intro timeline member
      rcases List.mem_cons.mp member with rfl | member
      · rw [sorted.requestId]
        exact ⟨occurs _ List.mem_cons_self, sorted.sorted⟩
      · exact ih (fun id named => occurs id (List.mem_cons_of_mem _ named)) timeline member

/-- A timeline has the events of its request in recorded order; the start comes first, and a
response last. -/
structure KeepsOrder (events : List FlowEvent) (timeline : RequestTimeline) : Prop where
  recorded : timeline.events = events.filter (fun event => event.requestId = timeline.requestId)
  starts : ∃ first ∈ timeline.events.head?, first.eventType = .requestStarted
  responds : ∀ event ∈ timeline.events, event.eventType = .responseSent →
    timeline.events.getLast? = some event

def TimelinesKeepOrder (round2 : ℚ → ℚ) (events : List FlowEvent) : Prop :=
  ∃ timelines, buildRequestTimelines round2 events = some timelines ∧
    ∀ timeline ∈ timelines, KeepsOrder events timeline

/-- Two marks of one request are in the order of a timeline. -/
def InPlace (a b : Tag × ℚ) : Prop :=
  a.1.requestId = b.1.requestId → a.2 < b.2 ∨ a.2 = b.2 ∧ a.1.eventId ≤ b.1.eventId

private theorem recorded_iff_inPlace {events : List FlowEvent} {timelines : List RequestTimeline}
    (named : ∀ event ∈ events, ∃ timeline ∈ timelines, timeline.requestId = event.requestId)
    (sorts : ∀ timeline ∈ timelines, timeline.events =
      (events.filter (fun event => event.requestId = timeline.requestId)).insertionSort sortsBefore) :
    (∀ timeline ∈ timelines, timeline.events =
        events.filter (fun event => event.requestId = timeline.requestId)) ↔
      (events.map FlowEvent.mark).Pairwise InPlace := by
  rw [List.pairwise_map]
  constructor
  · intro recorded
    -- Two events of one request are both in its timeline, which is sorted.
    have sorted : ∀ id, (∃ event ∈ events, event.requestId = id) →
        (events.filter (fun event => event.requestId = id)).Pairwise sortsBefore := by
      rintro id ⟨event, member, rfl⟩
      obtain ⟨timeline, inside, same⟩ := named event member
      rw [← same, ← recorded timeline inside, sorts timeline inside]
      exact List.pairwise_insertionSort sortsBefore _
    rw [List.pairwise_iff_forall_sublist]
    intro a b inside same
    have member : a ∈ events := inside.subset List.mem_cons_self
    have grouped := List.pairwise_filter.mp (sorted a.requestId ⟨a, member, rfl⟩)
    exact List.pairwise_iff_forall_sublist.mp grouped inside (decide_eq_true rfl)
      (decide_eq_true same.symm)
  · intro inPlace timeline member
    rw [sorts timeline member]
    apply List.Pairwise.insertionSort_eq
    rw [List.pairwise_filter]
    apply inPlace.imp
    intro a b placed first second
    have same := (of_decide_eq_true first).trans (of_decide_eq_true second).symm
    exact placed same

/-! ### The order within a request -/

namespace Serving

/-- The names of the events, with their times. -/
def stamps (serving : Serving) : List (String × ℚ) :=
  (serving.path.steps.map Prod.fst).zip serving.times

/-- Among the first events of a request, time passes before each whose name comes first in the
alphabet. -/
def Advances (serving : Serving) (count : ℕ) : Prop :=
  (serving.stamps.take count).IsChain (fun a b => b.1 < a.1 → a.2 < b.2)

instance (serving : Serving) (count : ℕ) : Decidable (serving.Advances count) :=
  inferInstanceAs (Decidable (List.IsChain _ _))

/-- The clock starts with the request and does not go back. -/
structure Steady (serving : Serving) : Prop where
  starts : serving.times.head? = some 0
  passes : serving.times.Pairwise (· ≤ ·)

end Serving

private theorem append_le_append_iff (id a b : String) : id ++ a ≤ id ++ b ↔ a ≤ b := by
  rw [← not_lt, ← not_lt, not_iff_not, String.lt_iff_toList_lt, String.lt_iff_toList_lt,
    String.toList_append, String.toList_append]
  induction id.toList with
  | nil => rfl
  | cons c l ih => simpa using ih

private def StampLe (a b : String × ℚ) : Prop := a.2 < b.2 ∨ a.2 = b.2 ∧ a.1 ≤ b.1

private instance : Trans StampLe StampLe StampLe where
  trans := by
    rintro a b c (earlier | ⟨same, le⟩) (earlier' | ⟨same', le'⟩)
    · exact Or.inl (earlier.trans earlier')
    · exact Or.inl (same' ▸ earlier)
    · exact Or.inl (same ▸ earlier')
    · exact Or.inr ⟨same.trans same', le.trans le'⟩

private theorem marks_eq_map (serving : Serving) :
    serving.marks.map (fun mark => (mark.1.eventId, mark.1.requestId, mark.2)) =
      serving.stamps.map (fun stamp =>
        (serving.request.id ++ "-" ++ stamp.1, serving.request.id, stamp.2)) := by
  rw [Serving.marks, Path.marks, Path.tags, Serving.stamps]
  generalize serving.path.steps = steps
  generalize serving.times = times
  induction steps generalizing times with
  | nil => rfl
  | cons step steps ih =>
    cases times with
    | nil => rfl
    | cons time times => simp [ih]

private theorem inPlace_iff_pairwise_stampLe (serving : Serving) (count : ℕ) :
    (serving.marks.take count).Pairwise InPlace ↔ (serving.stamps.take count).Pairwise StampLe := by
  have placed : ∀ l : List (Tag × ℚ), l.Pairwise InPlace ↔
      (l.map (fun mark => (mark.1.eventId, mark.1.requestId, mark.2))).Pairwise
        (fun a b => a.2.1 = b.2.1 → a.2.2 < b.2.2 ∨ a.2.2 = b.2.2 ∧ a.1 ≤ b.1) := by
    intro l
    rw [List.pairwise_map]
    rfl
  rw [placed, List.map_take, marks_eq_map, ← List.map_take, List.pairwise_map]
  apply List.Pairwise.iff
  intro a b
  simp [StampLe, append_le_append_iff]

private theorem isChain_iff_of_pairwise {α : Type} {R S T : α → α → Prop} {l : List α}
    (known : l.Pairwise T) (same : ∀ a b, T a b → (R a b ↔ S a b)) : l.IsChain R ↔ l.IsChain S := by
  induction l with
  | nil => simp
  | cons a l ih =>
    cases l with
    | nil => simp
    | cons b l =>
      obtain ⟨first, rest⟩ := List.pairwise_cons.mp known
      rw [List.isChain_cons_cons, List.isChain_cons_cons, same a b (first b List.mem_cons_self),
        ih rest]

private theorem inPlace_iff_advances {serving : Serving} (steady : serving.Steady) (count : ℕ) :
    (serving.marks.take count).Pairwise InPlace ↔ serving.Advances count := by
  rw [inPlace_iff_pairwise_stampLe, ← List.isChain_iff_pairwise, Serving.Advances]
  have times : serving.stamps.map Prod.snd = serving.times :=
    List.map_snd_zip (by rw [List.length_map, serving.timed])
  have passes : (serving.stamps.take count).Pairwise (fun a b => a.2 ≤ b.2) := by
    have all := steady.passes
    rw [← times, List.pairwise_map] at all
    exact all.sublist (List.take_sublist _ _)
  apply isChain_iff_of_pairwise passes
  intro a b le
  constructor
  · rintro (earlier | ⟨-, before⟩) after
    · exact earlier
    · exact (not_lt.mpr before after).elim
  · intro advances
    rcases le.lt_or_eq with earlier | same
    · exact Or.inl earlier
    · refine Or.inr ⟨same, ?_⟩
      rw [← not_lt]
      intro after
      exact (advances after).ne same

/-! ### The requests begun -/

/-- The requests begun when so many events are written, with the numbers of their events. -/
def begun : ℕ → List Serving → List (Serving × ℕ)
  | 0, _ => []
  | _ + 1, [] => []
  | n + 1, serving :: rest =>
    (serving, min (n + 1) serving.marks.length) :: begun (n + 1 - serving.marks.length) rest

private theorem take_script (n : ℕ) (servings : List Serving) :
    (script servings).take n = (begun n servings).flatMap (fun block => block.1.marks.take block.2) := by
  induction servings generalizing n with
  | nil => cases n <;> simp [script, begun]
  | cons serving rest ih =>
    cases n with
    | zero => simp [begun]
    | succ n =>
      have next := ih (n + 1 - serving.marks.length)
      rw [script] at next
      rw [begun, script, List.flatMap_cons, List.flatMap_cons, List.take_append, next]
      congr 1
      exact List.take_eq_take_min

private theorem begun_whole (n : ℕ) (servings : List Serving) :
    (begun n servings).Pairwise (fun block _ => block.2 = block.1.marks.length) := by
  induction servings generalizing n with
  | nil => cases n <;> exact List.Pairwise.nil
  | cons serving rest ih =>
    cases n with
    | zero => exact List.Pairwise.nil
    | succ n =>
      rw [begun, List.pairwise_cons]
      refine ⟨?_, ih _⟩
      intro block member
      have left : n + 1 - serving.marks.length ≠ 0 := by
        intro none
        rw [none] at member
        cases rest <;> cases member
      show min (n + 1) serving.marks.length = serving.marks.length
      omega

private theorem mem_begun {n : ℕ} {servings : List Serving} {block : Serving × ℕ}
    (member : block ∈ begun n servings) :
    block.1 ∈ servings ∧ (block.1.marks ≠ [] → 0 < block.2) ∧ block.2 ≤ block.1.marks.length := by
  induction servings generalizing n with
  | nil => cases n <;> cases member
  | cons serving rest ih =>
    cases n with
    | zero => cases member
    | succ n =>
      rcases List.mem_cons.mp member with rfl | member
      · refine ⟨List.mem_cons_self, ?_, Nat.min_le_right _ _⟩
        intro some_mark
        have positive : 0 < serving.marks.length := List.length_pos_iff.mpr some_mark
        show 0 < min (n + 1) serving.marks.length
        omega
      · obtain ⟨inside, counts⟩ := ih member
        exact ⟨List.mem_cons_of_mem _ inside, counts⟩

/-! ### Single requests -/

private theorem Path.steps_start (path : Path) :
    ∃ second rest, path.steps = ("start", .requestStarted, none) :: second :: rest ∧
      second.1 < "start" := by
  cases path <;> exact ⟨_, _, rfl, by decide⟩

private theorem Path.responds_last (path : Path) :
    ∀ step ∈ path.steps.dropLast, step.2.1 ≠ .responseSent := by
  cases path <;> decide

namespace Serving

private theorem length_marks (serving : Serving) : serving.marks.length = serving.path.steps.length := by
  simp [marks, Path.marks, Path.tags, serving.timed]

private theorem requestId_of_mem {serving : Serving} {mark : Tag × ℚ} (member : mark ∈ serving.marks) :
    mark.1.requestId = serving.request.id := by
  obtain ⟨step, -, same⟩ := List.mem_map.mp (List.of_mem_zip member).1
  rw [← same]

private theorem head_marks {serving : Serving} (steady : serving.Steady) :
    ∃ tag rest, serving.marks = (tag, 0) :: rest ∧ tag.requestId = serving.request.id ∧
      tag.eventType = .requestStarted := by
  obtain ⟨second, rest, steps, -⟩ := serving.path.steps_start
  have timed := serving.timed
  have starts := steady.starts
  rw [marks, Path.marks, Path.tags, steps]
  cases times : serving.times with
  | nil => simp [times] at starts
  | cons time times =>
    rw [times] at starts
    obtain rfl : time = 0 := Option.some.inj starts
    exact ⟨_, _, rfl, rfl, rfl⟩

private theorem exists_later_mark {serving : Serving} (steady : serving.Steady)
    (advances : serving.Advances serving.marks.length) : ∃ mark ∈ serving.marks, 0 < mark.2 := by
  obtain ⟨second, rest, steps, before⟩ := serving.path.steps_start
  have timed := serving.timed
  have starts := steady.starts
  rw [Advances, length_marks, stamps, steps] at advances
  rw [steps] at timed
  rw [marks, Path.marks, Path.tags, steps]
  rcases times : serving.times with _ | ⟨time, _ | ⟨time', times'⟩⟩
  · simp [times] at timed
  · simp [times] at timed
  · rw [times] at starts advances
    obtain rfl : time = 0 := Option.some.inj starts
    refine ⟨(_, time'), List.mem_cons_of_mem _ List.mem_cons_self, ?_⟩
    exact (List.isChain_cons_cons.mp advances).1 before

end Serving

/-! ### Whole logs -/

private theorem inPlace_of_other {block block' : Serving × ℕ} (other : block.1.request ≠ block'.1.request) :
    ∀ a ∈ block.1.marks.take block.2, ∀ b ∈ block'.1.marks.take block'.2, InPlace a b := by
  intro a first b second same
  rw [Serving.requestId_of_mem (List.mem_of_mem_take first),
    Serving.requestId_of_mem (List.mem_of_mem_take second)] at same
  exact (other (Request.id_injective same)).elim

/-- A request cannot be begun again: its second start would come before its first events. -/
private theorem not_inPlace_of_again {block block' : Serving × ℕ} (steady : block.1.Steady)
    (steady' : block'.1.Steady) (advances : block.1.Advances block.2)
    (whole : block.2 = block.1.marks.length) (started : 0 < block'.2)
    (again : block.1.request = block'.1.request) :
    ¬ ∀ a ∈ block.1.marks.take block.2, ∀ b ∈ block'.1.marks.take block'.2, InPlace a b := by
  intro placed
  rw [whole] at advances placed
  obtain ⟨mark, member, later⟩ := Serving.exists_later_mark steady advances
  obtain ⟨tag, rest, marks, named, -⟩ := Serving.head_marks steady'
  have start : (tag, (0 : ℚ)) ∈ block'.1.marks.take block'.2 := by
    obtain ⟨count, count_eq⟩ := Nat.exists_eq_succ_of_ne_zero started.ne'
    rw [marks, count_eq, List.take_succ_cons]
    exact List.mem_cons_self
  rw [List.take_length] at placed
  have same : mark.1.requestId = tag.requestId := by
    rw [Serving.requestId_of_mem member, again, named]
  rcases placed mark member (tag, 0) start same with earlier | ⟨equal, -⟩
  · exact lt_asymm later earlier
  · exact later.ne' equal

private theorem inPlace_begun_iff {n : ℕ} {servings : List Serving}
    (steady : ∀ serving ∈ servings, serving.Steady) :
    ((script servings).take n).Pairwise InPlace ↔
      ((begun n servings).map (fun block => block.1.request)).Nodup ∧
        ∀ block ∈ begun n servings, block.1.Advances block.2 := by
  rw [take_script, List.pairwise_flatMap, and_comm]
  have within : (∀ block ∈ begun n servings, (block.1.marks.take block.2).Pairwise InPlace) ↔
      ∀ block ∈ begun n servings, block.1.Advances block.2 :=
    forall₂_congr (fun block member => inPlace_iff_advances (steady _ (mem_begun member).1) block.2)
  rw [within]
  apply and_congr_left
  intro advances
  rw [List.Nodup, List.pairwise_map]
  constructor
  · intro across
    rw [List.pairwise_iff_forall_sublist] at across ⊢
    intro block block' inside again
    have first := inside.subset List.mem_cons_self
    have second := inside.subset (List.mem_cons_of_mem block List.mem_cons_self)
    have steady' := steady _ (mem_begun second).1
    have whole := List.pairwise_iff_forall_sublist.mp (begun_whole n servings) inside
    have some_mark : block'.1.marks ≠ [] := by
      obtain ⟨tag, rest, marks, -⟩ := Serving.head_marks steady'
      rw [marks]
      exact List.cons_ne_nil _ _
    exact not_inPlace_of_again (steady _ (mem_begun first).1) steady' (advances block first) whole
      ((mem_begun second).2.1 some_mark) again (across inside)
  · exact fun distinct => distinct.imp inPlace_of_other

private theorem filter_begun {blocks : List (Serving × ℕ)} {block : Serving × ℕ}
    (distinct : (blocks.map (fun block => block.1.request)).Nodup) (member : block ∈ blocks) :
    (blocks.flatMap (fun block => block.1.marks.take block.2)).filter
        (fun mark => mark.1.requestId = block.1.request.id) = block.1.marks.take block.2 := by
  have own : (block.1.marks.take block.2).filter
      (fun mark => mark.1.requestId = block.1.request.id) = block.1.marks.take block.2 := by
    rw [List.filter_eq_self]
    intro mark inside
    exact decide_eq_true (Serving.requestId_of_mem (List.mem_of_mem_take inside))
  have others : ∀ l : List (Serving × ℕ), (∀ other ∈ l, other.1.request ≠ block.1.request) →
      (l.flatMap (fun block => block.1.marks.take block.2)).filter
        (fun mark => mark.1.requestId = block.1.request.id) = [] := by
    intro l apart
    rw [List.filter_eq_nil_iff]
    intro mark inside
    obtain ⟨other, there, inside⟩ := List.mem_flatMap.mp inside
    rw [decide_eq_true_iff, Serving.requestId_of_mem (List.mem_of_mem_take inside)]
    exact fun same => apart other there (Request.id_injective same)
  obtain ⟨before, after, rfl⟩ := List.append_of_mem member
  rw [List.map_append, List.map_cons, List.nodup_append, List.nodup_cons] at distinct
  obtain ⟨-, ⟨later, -⟩, earlier⟩ := distinct
  rw [List.flatMap_append, List.flatMap_cons, List.filter_append, List.filter_append, own,
    others before, others after, List.nil_append, List.append_nil]
  · intro other there same
    exact later (List.mem_map.mpr ⟨other, there, same⟩)
  · intro other there
    exact earlier _ (List.mem_map_of_mem there) _ List.mem_cons_self

private theorem ends_of_block {serving : Serving} (steady : serving.Steady) {count : ℕ}
    (started : 0 < count) {events : List FlowEvent}
    (marked : events.map FlowEvent.mark = serving.marks.take count) :
    (∃ first ∈ events.head?, first.eventType = .requestStarted) ∧
      ∀ event ∈ events, event.eventType = .responseSent → events.getLast? = some event := by
  constructor
  · obtain ⟨tag, rest, marks, -, start⟩ := Serving.head_marks steady
    obtain ⟨count, rfl⟩ := Nat.exists_eq_succ_of_ne_zero started.ne'
    rw [marks, List.take_succ_cons] at marked
    obtain ⟨first, rest', rfl, same, -⟩ := List.map_eq_cons_iff.mp marked
    refine ⟨first, rfl, ?_⟩
    rw [← start]
    exact congrArg (fun mark : Tag × ℚ => mark.1.eventType) same
  · intro event member response
    obtain ⟨i, inside, rfl⟩ := List.mem_iff_getElem.mp member
    have step : ∃ step, serving.path.steps[i]? = some step ∧ step.2.1 = .responseSent := by
      have marked : (serving.marks.take count)[i]? = some events[i].mark := by
        rw [← marked, List.getElem?_map, List.getElem?_eq_getElem inside, Option.map_some]
      rw [List.getElem?_take] at marked
      split at marked
      · have tagged := (List.getElem?_zip_eq_some.mp marked).1
        rw [Path.tags, List.getElem?_map, Option.map_eq_some_iff] at tagged
        obtain ⟨step, there, same⟩ := tagged
        exact ⟨step, there, (congrArg Tag.eventType same).trans response⟩
      · cases marked
    obtain ⟨step, there, responds⟩ := step
    have final : i + 1 = serving.path.steps.length := by
      have within := (List.getElem?_eq_some_iff.mp there).1
      by_contra more
      have kept : serving.path.steps.dropLast[i]? = some step := by
        rw [List.getElem?_dropLast, if_pos (by omega), there]
      exact Path.responds_last serving.path step (List.mem_of_getElem? kept) responds
    have short : events.length ≤ serving.path.steps.length := by
      have lengths := congrArg List.length marked
      rw [List.length_map, List.length_take, Serving.length_marks] at lengths
      omega
    rw [List.getLast?_eq_getElem?, show events.length - 1 = i by omega]
    exact List.getElem?_eq_getElem inside

/-! ### Clocks -/

/-- No reading of a clock is before an earlier one. -/
structure SteadyClocks (env : Environment) : Prop where
  baseline : ∀ index, Monotone (env.baseline index).clock
  cache : ∀ k, Monotone (env.cache k).clock
  reference : ∀ index, Monotone (env.reference index).clock

private theorem roundTo2_mono {x y : ℚ} (positive : 0 ≤ x) (le : x ≤ y) : roundTo2 x ≤ roundTo2 y := by
  rw [roundTo2, roundTo2, if_neg (not_lt.mpr positive), if_neg (not_lt.mpr (positive.trans le))]
  have scaled : Rat.nnabs x * 100 ≤ Rat.nnabs y * 100 := by
    rw [← NNRat.coe_le_coe]
    push_cast
    rw [abs_of_nonneg positive, abs_of_nonneg (positive.trans le)]
    linarith
  rw [Rat.mkRat_eq_div, Rat.mkRat_eq_div]
  have rounded : ((roundHalfEven (Rat.nnabs x * 100) : ℤ) : ℚ) ≤
      (roundHalfEven (Rat.nnabs y * 100) : ℤ) := by
    exact_mod_cast roundHalfEven_mono scaled
  exact div_le_div_of_nonneg_right rounded (by norm_num)

private theorem roundTo2_zero : roundTo2 0 = 0 := by decide +kernel

private theorem elapsedMs_mono {started finished finished' : ℚ} (le : started ≤ finished)
    (le' : finished ≤ finished') :
    Runner.elapsedMs started finished ≤ Runner.elapsedMs started finished' :=
  roundTo2_mono (by linarith) (by linarith)

private theorem elapsedMs_self (started : ℚ) : Runner.elapsedMs started started = 0 := by
  rw [Runner.elapsedMs, sub_self, zero_mul, roundTo2_zero]

private theorem times_pairwise {clock : ℕ → ℚ} (steady : Monotone clock) {readings : List ℕ}
    (ordered : readings.Pairwise (· ≤ ·)) :
    (0 :: readings.map (fun reading => Runner.elapsedMs (clock 0) (clock reading))).Pairwise
      (· ≤ ·) := by
  rw [List.pairwise_cons, List.pairwise_map]
  constructor
  · intro time member
    obtain ⟨reading, -, rfl⟩ := List.mem_map.mp member
    rw [← elapsedMs_self (clock 0)]
    exact elapsedMs_mono le_rfl (steady (Nat.zero_le reading))
  · exact ordered.imp (fun le => elapsedMs_mono (steady (Nat.zero_le _)) (steady le))

private theorem steady_servings {config : RunConfig} {env : Environment} (clocks : SteadyClocks env) :
    ∀ serving ∈ config.servings Runner.elapsedMs env, serving.Steady := by
  intro serving member
  rcases List.mem_append.mp member with member | member
  · obtain ⟨index, -, rfl⟩ := List.mem_map.mp member
    have times : (env.baseline index).times Runner.elapsedMs =
        0 :: [1, 2, 2].map (fun reading =>
          Runner.elapsedMs ((env.baseline index).clock 0) ((env.baseline index).clock reading)) :=
      congrArg (· :: _) (elapsedMs_self _)
    refine ⟨?_, ?_⟩
    · change ((env.baseline index).times Runner.elapsedMs).head? = some 0
      rw [times]
      rfl
    · change ((env.baseline index).times Runner.elapsedMs).Pairwise (· ≤ ·)
      rw [times]
      exact times_pairwise (clocks.baseline index) (by decide)
  · rcases List.mem_append.mp member with member | member
    · obtain ⟨numbered, -, rfl⟩ := List.mem_map.mp member
      refine ⟨rfl, ?_⟩
      change ((env.cache numbered.2).times Runner.elapsedMs).Pairwise (· ≤ ·)
      rw [CacheCalls.times]
      apply times_pairwise (clocks.cache numbered.2)
      cases (env.cache numbered.2).path <;> decide
    · split at member
      · obtain ⟨index, -, rfl⟩ := List.mem_map.mp member
        exact ⟨rfl, times_pairwise (clocks.reference index) (by decide)⟩
      · cases member

/-! ### Requests that are out of order -/

/-- Events that carry one reading are put in the order of their names: a hit before the end of its
lookup, and an error before the fallback. -/
theorem CacheCalls.not_advances_of_shared_reading (elapsedMs : ℚ → ℚ → ℚ) {calls : CacheCalls}
    (request : Request) (shared : calls.path = .hit ∨ calls.path.failed = true) :
    ¬ (calls.serving elapsedMs request).Advances (calls.serving elapsedMs request).marks.length := by
  rw [Serving.Advances, Serving.length_marks, Serving.stamps]
  change ¬ (((calls.path.steps.map Prod.fst).zip (calls.times elapsedMs)).take
    calls.path.steps.length).IsChain _
  rw [CacheCalls.times]
  intro advances
  have links := List.isChain_iff_getElem.mp advances
  clear advances
  generalize calls.path = path at shared links
  cases path with
  | hit =>
    have before : "hit" < "lookup-finish" := by decide
    exact lt_irrefl _ (links 2 (by simp [Path.steps]) before)
  | fallback =>
    have before : "error" < "fallback" := by decide
    exact lt_irrefl _ (links 2 (by simp [Path.steps]) before)
  | writebackFailed =>
    have before : "writeback-error" < "writeback-fallback" := by decide
    exact lt_irrefl _ (links 6 (by simp [Path.steps]) before)
  | dbOnly | miss | reference => simp [Path.failed] at shared

/-! ### The recorded order -/

/-- The timelines of a run's log, however the run ended, keep the recorded order exactly where no
request is begun twice and time passes before every event whose name comes first in the alphabet. -/
theorem timelines_keep_order_iff (round2 : ℚ → ℚ) {config : RunConfig} {env : Environment}
    {outcome : Except RunFailure RunTotals} {events : List FlowEvent} (clocks : SteadyClocks env)
    (written : (run Runner.elapsedMs config env).exec [] = (outcome, events)) :
    TimelinesKeepOrder round2 events ↔
      ((begun events.length (config.servings Runner.elapsedMs env)).map
        (fun block => block.1.request)).Nodup ∧
      ∀ block ∈ begun events.length (config.servings Runner.elapsedMs env),
        block.1.Advances block.2 := by
  have steady : ∀ serving ∈ config.servings Runner.elapsedMs env, serving.Steady :=
    steady_servings clocks
  have marked : events.map FlowEvent.mark =
      (script (config.servings Runner.elapsedMs env)).take events.length := by
    have part := (run_follows_script Runner.elapsedMs written).1
    rw [List.prefix_iff_eq_take, List.length_map] at part
    exact part
  obtain ⟨timelines, built, named, sorts⟩ := buildRequestTimelines_sorts round2 events
  have order := recorded_iff_inPlace named (fun timeline member => (sorts timeline member).2)
  rw [marked, inPlace_begun_iff steady] at order
  rw [← order]
  constructor
  · rintro ⟨timelines', built', keeps⟩
    rw [built] at built'
    cases built'
    exact fun timeline member => (keeps timeline member).recorded
  · intro recorded
    refine ⟨timelines, built, ?_⟩
    intro timeline member
    have kept := recorded timeline member
    obtain ⟨distinct, -⟩ := order.mp recorded
    obtain ⟨event, inside, same⟩ := (sorts timeline member).1
    have there : event.mark ∈ (begun events.length (config.servings Runner.elapsedMs env)).flatMap
        (fun block => block.1.marks.take block.2) := by
      rw [← take_script, ← marked]
      exact List.mem_map_of_mem inside
    obtain ⟨block, begins, there⟩ := List.mem_flatMap.mp there
    have id : timeline.requestId = block.1.request.id :=
      same.symm.trans (Serving.requestId_of_mem (List.mem_of_mem_take there))
    have own : timeline.events.map FlowEvent.mark = block.1.marks.take block.2 := by
      rw [← filter_begun distinct begins, ← take_script, ← marked, kept, id, List.filter_map]
      rfl
    have started : 0 < block.2 :=
      (mem_begun begins).2.1 (List.ne_nil_of_mem (List.mem_of_mem_take there))
    obtain ⟨starts, responds⟩ := ends_of_block (steady _ (mem_begun begins).1) started own
    exact ⟨kept, starts, responds⟩

-- One request to the database alone and one through the cache.
private def oneEach : RunConfig := ⟨"detail_page", 1, 1, [100], 30, false⟩

private def ticking (lookup : Except RedisFailure (Option String)) : Environment where
  bootstrap := ⟨false, .ok true, false, none⟩
  warmup _ := (false, .ok ())
  baseline _ := ⟨false, fun reading => mkRat reading 1000, .ok ()⟩
  cache _ := ⟨false, fun _ => .ok (), fun reading => mkRat reading 1000, lookup, .ok (), .ok ()⟩
  reference _ := ⟨false, .ok (), fun _ => 0, .ok ()⟩
  aggregationCancelled := false

private theorem steady_ticking (lookup : Except RedisFailure (Option String)) :
    SteadyClocks (ticking lookup) := by
  have ticks : Monotone (fun reading : ℕ => mkRat reading 1000) := by
    intro i j le
    change mkRat i 1000 ≤ mkRat j 1000
    rw [Rat.mkRat_eq_div, Rat.mkRat_eq_div]
    exact div_le_div_of_nonneg_right (by exact_mod_cast le) (by norm_num)
  exact ⟨fun _ => ticks, fun _ => ticks, fun _ => monotone_const⟩

theorem missed_request_keeps_order :
    TimelinesKeepOrder id ((run Runner.elapsedMs oneEach (ticking (.ok none))).exec []).2 := by
  have complete : ((run Runner.elapsedMs oneEach (ticking (.ok none))).exec []).2.length = 12 := by
    decide +kernel
  have order := @timelines_keep_order_iff id oneEach _ _ _ (steady_ticking (.ok none))
    (Prod.mk.eta (p := (run Runner.elapsedMs oneEach (ticking (.ok none))).exec [])).symm
  rw [complete] at order
  exact order.mpr (by decide +kernel)

/-- The hit is stamped with the time at which the lookup finished, and is put before it. -/
theorem hit_before_its_lookup :
    SteadyClocks (ticking (.ok (some "cached"))) ∧
      ¬ TimelinesKeepOrder id
        ((run Runner.elapsedMs oneEach (ticking (.ok (some "cached")))).exec []).2 := by
  refine ⟨steady_ticking _, ?_⟩
  have moved : (buildRequestTimelines id
      ((run Runner.elapsedMs oneEach (ticking (.ok (some "cached")))).exec []).2).all
        (fun timelines => timelines.all (fun timeline => timeline.events.map FlowEvent.eventId =
          (((run Runner.elapsedMs oneEach (ticking (.ok (some "cached")))).exec []).2.filter
            (fun event => event.requestId = timeline.requestId)).map FlowEvent.eventId)) = false := by
    decide +kernel
  revert moved
  generalize ((run Runner.elapsedMs oneEach (ticking (.ok (some "cached")))).exec []).2 = events
  rintro moved ⟨timelines, built, keeps⟩
  have same : timelines.all (fun timeline => timeline.events.map FlowEvent.eventId =
      (events.filter (fun event => event.requestId = timeline.requestId)).map FlowEvent.eventId) =
      true := by
    rw [List.all_eq_true]
    intro timeline member
    rw [decide_eq_true_iff, (keeps timeline member).recorded]
  rw [built, Option.all_some, same] at moved
  cases moved

end MiniRedis.App
