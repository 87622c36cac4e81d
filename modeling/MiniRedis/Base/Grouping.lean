/- GID: MiniRedis/Base/Grouping
   generality: G
   digest: Grouping a log by a key gives back the blocks it was written in. -/

import MiniRedis.Base.Dict

set_option autoImplicit false
set_option relaxedAutoImplicit false

namespace MiniRedis.Base

variable {κ α : Type} [DecidableEq κ]

/-- One element goes to the end of its group, and a new group to the end of the groups. -/
def addToGroup (key : α → κ) (grouped : Dict κ (List α)) (a : α) : Dict κ (List α) :=
  grouped.set (key a) ((grouped.get? (key a)).getD [] ++ [a])

/-- The elements by key, with the keys in the order of their first elements. -/
def groupBy (key : α → κ) (l : List α) : Dict κ (List α) :=
  l.foldl (addToGroup key) Dict.empty

/-! ### What is in the groups -/

private theorem groupBy_append_singleton (key : α → κ) (l : List α) (a : α) :
    groupBy key (l ++ [a]) = addToGroup key (groupBy key l) a := by
  rw [groupBy, List.foldl_append]
  rfl

theorem keys_groupBy (key : α → κ) (l : List α) : (groupBy key l).keys = (l.map key).eraseDups := by
  induction l using List.reverseRecOn with
  | nil => rfl
  | append_singleton l a ih =>
    rw [groupBy_append_singleton, addToGroup, Dict.keys_set, ih, List.map_append, List.map_singleton,
      List.eraseDups_append]
    generalize l.map key = keys
    by_cases known : key a ∈ keys
    · rw [if_pos (List.mem_eraseDups.mpr known)]
      simp [List.removeAll, known]
    · rw [if_neg (fun member => known (List.mem_eraseDups.mp member))]
      simp [List.removeAll, known, List.eraseDups_cons]

theorem get?_groupBy (key : α → κ) (l : List α) (k : κ) :
    ((groupBy key l).get? k).getD [] = l.filter (fun a => key a = k) := by
  induction l using List.reverseRecOn with
  | nil => rfl
  | append_singleton l a ih =>
    rw [groupBy_append_singleton, addToGroup, Dict.get?_set, List.filter_append]
    split_ifs with same
    · rw [← same, Option.getD_some, ih]
      simp [same]
    · rw [ih]
      simp [Ne.symm same]

theorem entries_groupBy (key : α → κ) (l : List α) :
    (groupBy key l).entries =
      (l.map key).eraseDups.map (fun k => (k, l.filter (fun a => key a = k))) := by
  rw [← keys_groupBy, Dict.keys, List.map_map]
  conv_lhs => rw [← List.map_id (groupBy key l).entries]
  apply List.map_congr_left
  rintro ⟨k, group⟩ member
  have stored := (Dict.get?_eq_some_iff _ _ _).mpr member
  have all := get?_groupBy key l k
  rw [stored, Option.getD_some] at all
  rw [all]
  rfl

/-- Grouping loses nothing: the groups together are the list. -/
theorem flatMap_groups_perm (key : α → κ) {keys : List κ} (nodup : keys.Nodup) {l : List α}
    (covered : ∀ a ∈ l, key a ∈ keys) :
    (keys.flatMap (fun k => l.filter (fun a => key a = k))).Perm l := by
  induction keys generalizing l with
  | nil =>
    have none : l = [] := List.eq_nil_iff_forall_not_mem.mpr (fun a member => by
      cases covered a member)
    rw [none]
    rfl
  | cons k keys ih =>
    obtain ⟨fresh, nodup⟩ := List.nodup_cons.mp nodup
    have others := ih nodup (l := l.filter (fun a => !decide (key a = k))) (by
      intro a member
      obtain ⟨member, other⟩ := List.mem_filter.mp member
      exact (List.mem_cons.mp (covered a member)).resolve_left (by simpa using other))
    have same : keys.flatMap (fun k' => (l.filter (fun a => !decide (key a = k))).filter (fun a => key a = k')) =
        keys.flatMap (fun k' => l.filter (fun a => key a = k')) := by
      apply List.flatMap_congr
      intro k' member
      have apart : k' ≠ k := fun same => fresh (same ▸ member)
      rw [List.filter_filter]
      apply List.filter_congr
      intro a _
      by_cases here : key a = k' <;> simp [here, apart]
    rw [same] at others
    rw [List.flatMap_cons]
    exact (others.append_left _).trans (List.filter_append_perm (fun a => key a = k) l)

/-! ### Blocks -/

private theorem foldl_addToGroup_known {key : α → κ} {k : κ} {l : List α}
    (uniform : ∀ a ∈ l, key a = k) (grouped : Dict κ (List α)) (group : List α) :
    l.foldl (addToGroup key) (grouped.set k group) = grouped.set k (group ++ l) := by
  induction l generalizing group with
  | nil => rw [List.append_nil, List.foldl_nil]
  | cons a l ih =>
    have added : addToGroup key (grouped.set k group) a = grouped.set k (group ++ [a]) := by
      rw [addToGroup, uniform a List.mem_cons_self, Dict.get?_set_self, Option.getD_some, Dict.set_set]
    rw [List.foldl_cons, added, ih (fun b member => uniform b (List.mem_cons_of_mem a member)),
      List.append_assoc, List.singleton_append]

private theorem foldl_addToGroup_new {key : α → κ} {k : κ} {l : List α}
    {grouped : Dict κ (List α)} (uniform : ∀ a ∈ l, key a = k) (inhabited : l ≠ [])
    (fresh : grouped.get? k = none) :
    l.foldl (addToGroup key) grouped = grouped.set k l := by
  cases l with
  | nil => exact (inhabited rfl).elim
  | cons a l =>
    have added : addToGroup key grouped a = grouped.set k [a] := by
      rw [addToGroup, uniform a List.mem_cons_self, fresh, Option.getD_none, List.nil_append]
    rw [List.foldl_cons, added,
      foldl_addToGroup_known (fun b member => uniform b (List.mem_cons_of_mem a member)),
      List.singleton_append]

/-- A log written block by block, each under a key of its own, is grouped into its blocks. -/
theorem entries_groupBy_flatMap {key : α → κ} {blocks : List (κ × List α)}
    (distinct : (blocks.map Prod.fst).Nodup) (uniform : ∀ block ∈ blocks, ∀ a ∈ block.2, key a = block.1)
    (inhabited : ∀ block ∈ blocks, block.2 ≠ []) :
    (groupBy key (blocks.flatMap Prod.snd)).entries = blocks := by
  induction blocks using List.reverseRecOn with
  | nil => rfl
  | append_singleton blocks block ih =>
    obtain ⟨k, l⟩ := block
    rw [List.map_append, List.nodup_append] at distinct
    obtain ⟨earlier, -, apart⟩ := distinct
    have grouped := ih earlier
      (fun block member => uniform block (List.mem_append_left _ member))
      (fun block member => inhabited block (List.mem_append_left _ member))
    have fresh : (groupBy key (blocks.flatMap Prod.snd)).get? k = none := by
      rw [Dict.get?_eq_none_iff, Dict.keys, grouped]
      exact fun member => apart k member k (by simp) rfl
    have last : (k, l) ∈ blocks ++ [(k, l)] := List.mem_append_right _ (List.mem_singleton_self _)
    have step : groupBy key ((blocks ++ [(k, l)]).flatMap Prod.snd) =
        l.foldl (addToGroup key) (groupBy key (blocks.flatMap Prod.snd)) := by
      rw [List.flatMap_append, List.flatMap_singleton, groupBy, List.foldl_append]
      rfl
    rw [step, foldl_addToGroup_new (uniform (k, l) last) (inhabited (k, l) last) fresh,
      Dict.entries_set_of_not_mem ((Dict.get?_eq_none_iff _ _).mp fresh)]
    exact congrArg (· ++ [(k, l)]) grouped

end MiniRedis.Base
