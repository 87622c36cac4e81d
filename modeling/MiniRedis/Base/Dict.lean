/- GID: MiniRedis/Base/Dict
   generality: G
   digest: Insertion-ordered dictionaries are determined up to order by their lookups. -/

import Mathlib.Data.List.Basic
import Mathlib.Data.List.Nodup
import Mathlib.Data.List.Perm.Subperm
import Mathlib.Data.Set.Card
import Mathlib.Algebra.Order.BigOperators.Group.List
import Mathlib.Algebra.Order.Ring.Nat

set_option autoImplicit false
set_option relaxedAutoImplicit false

namespace MiniRedis.Base

/-- A finite map that remembers the order in which its keys were first inserted.
Overwriting keeps a key's place; a key that was removed and inserted again comes last. -/
@[ext] structure Dict (κ α : Type) where
  entries : List (κ × α)
  nodup : (entries.map Prod.fst).Nodup
  deriving DecidableEq

namespace Dict

variable {κ α : Type}

def empty : Dict κ α := ⟨[], List.nodup_nil⟩

def keys (d : Dict κ α) : List κ := d.entries.map Prod.fst

def size (d : Dict κ α) : ℕ := d.entries.length

/-- The sum of a weight over all entries. -/
def sumBy (d : Dict κ α) (w : κ → α → ℕ) : ℕ := (d.entries.map (fun e => w e.1 e.2)).sum

/-- Keep the entries that satisfy a test, in their order. -/
def filter (d : Dict κ α) (p : κ → α → Bool) : Dict κ α :=
  ⟨d.entries.filter (fun e => p e.1 e.2), d.nodup.sublist (List.filter_sublist.map Prod.fst)⟩

/-- Change every value, and no key. -/
def map {β : Type} (f : α → β) (d : Dict κ α) : Dict κ β :=
  ⟨d.entries.map (fun e => (e.1, f e.2)), by rw [List.map_map]; exact d.nodup⟩

@[simp] theorem keys_empty : (empty : Dict κ α).keys = [] := rfl

@[simp] theorem map_empty {β : Type} (f : α → β) : (empty : Dict κ α).map f = empty := rfl

@[simp] theorem keys_map {β : Type} (f : α → β) (d : Dict κ α) : (d.map f).keys = d.keys := by
  rw [keys, map, List.map_map]
  rfl

@[simp] theorem size_map {β : Type} (f : α → β) (d : Dict κ α) : (d.map f).size = d.size := List.length_map _

theorem sumBy_map {β : Type} (f : α → β) (d : Dict κ α) (w : κ → β → ℕ) :
    (d.map f).sumBy w = d.sumBy (fun k v => w k (f v)) := by
  rw [sumBy, map, List.map_map]
  rfl

variable [DecidableEq κ]

def get? (d : Dict κ α) (k : κ) : Option α := d.entries.lookup k

private def replace (k : κ) (v : α) (e : κ × α) : κ × α := if e.1 = k then (k, v) else e

private theorem map_fst_replace (l : List (κ × α)) (k : κ) (v : α) :
    (l.map (replace k v)).map Prod.fst = l.map Prod.fst := by
  rw [List.map_map]
  apply List.map_congr_left
  intro e _
  by_cases h : e.1 = k <;> simp [replace, h]

/-- `d[k] = v`. -/
def set (d : Dict κ α) (k : κ) (v : α) : Dict κ α :=
  if member : k ∈ d.entries.map Prod.fst then
    ⟨d.entries.map (replace k v), by rw [map_fst_replace]; exact d.nodup⟩
  else
    ⟨d.entries ++ [(k, v)], by
      rw [List.map_append]
      exact d.nodup.append (List.nodup_singleton k) (by simpa using member)⟩

/-- `d.pop(k, None)`. -/
def erase (d : Dict κ α) (k : κ) : Dict κ α := d.filter (fun k' _ => k' ≠ k)

/-! ### Lookups -/

theorem get?_eq_some_iff (d : Dict κ α) (k : κ) (v : α) :
    d.get? k = some v ↔ (k, v) ∈ d.entries := by
  obtain ⟨l, hn⟩ := d
  simp only [get?]
  induction l with
  | nil => simp
  | cons e l ih =>
    obtain ⟨k', v'⟩ := e
    simp only [List.map_cons, List.nodup_cons] at hn
    by_cases h : k = k'
    · subst h
      have fresh : (k, v) ∉ l := fun hm => hn.1 (List.mem_map.mpr ⟨(k, v), hm, rfl⟩)
      simp [fresh, eq_comm]
    · have hb : (k == k') = false := by simpa using h
      simp [List.lookup_cons, hb, ih hn.2, h]

theorem mem_keys_iff (d : Dict κ α) (k : κ) : k ∈ d.keys ↔ ∃ v, d.get? k = some v := by
  simp only [keys, get?_eq_some_iff, List.mem_map]
  constructor
  · rintro ⟨⟨k', v⟩, hm, rfl⟩
    exact ⟨v, hm⟩
  · rintro ⟨v, hm⟩
    exact ⟨(k, v), hm, rfl⟩

theorem get?_eq_none_iff (d : Dict κ α) (k : κ) : d.get? k = none ↔ k ∉ d.keys := by
  rw [mem_keys_iff, not_exists]
  constructor
  · intro h v hv
    rw [h] at hv
    cases hv
  · intro h
    cases hk : d.get? k with
    | none => rfl
    | some v => exact (h v hk).elim

theorem eq_empty {d : Dict κ α} (absent : ∀ k, d.get? k = none) : d = empty := by
  apply Dict.ext
  refine List.eq_nil_iff_forall_not_mem.mpr ?_
  rintro ⟨k, v⟩ member
  have found := (get?_eq_some_iff d k v).mpr member
  rw [absent k] at found
  cases found

theorem eq_empty_of_keys {d : Dict κ α} (none_left : d.keys = []) : d = empty :=
  eq_empty (fun k => (get?_eq_none_iff d k).mpr (by simp [none_left]))

@[simp] theorem get?_empty (k : κ) : (empty : Dict κ α).get? k = none := rfl

private theorem mem_entries_set (d : Dict κ α) (k k' : κ) (v v' : α) :
    (k', v') ∈ (d.set k v).entries ↔ if k' = k then v' = v else (k', v') ∈ d.entries := by
  unfold set
  split_ifs with member heq heq
  · subst heq
    simp only [List.mem_map, replace]
    constructor
    · rintro ⟨e, _, he⟩
      by_cases h : e.1 = k'
      · simp only [h, if_true, Prod.mk.injEq] at he
        exact he.2.symm
      · simp only [h, if_false] at he
        exact (h (congrArg Prod.fst he)).elim
    · rintro rfl
      obtain ⟨e, hm, he⟩ := List.mem_map.mp member
      exact ⟨e, hm, by simp [he]⟩
  · simp only [List.mem_map, replace]
    constructor
    · rintro ⟨e, hm, he⟩
      by_cases h : e.1 = k
      · simp only [h, if_true, Prod.mk.injEq] at he
        exact (heq he.1.symm).elim
      · simp only [h, if_false] at he
        exact he ▸ hm
    · intro hm
      exact ⟨(k', v'), hm, by simp [heq]⟩
  · subst heq
    have fresh : (k', v') ∉ d.entries := fun hm => member (List.mem_map.mpr ⟨_, hm, rfl⟩)
    simp [fresh]
  · simp [heq]

theorem get?_set (d : Dict κ α) (k k' : κ) (v : α) :
    (d.set k v).get? k' = if k' = k then some v else d.get? k' := by
  apply Option.ext
  intro v'
  rw [get?_eq_some_iff, mem_entries_set]
  split_ifs with h
  · simp [eq_comm]
  · rw [get?_eq_some_iff]

@[simp] theorem get?_set_self (d : Dict κ α) (k : κ) (v : α) : (d.set k v).get? k = some v := by
  simp [get?_set]

theorem entries_set_ne_nil (d : Dict κ α) (k : κ) (v : α) : (d.set k v).entries ≠ [] := by
  intro empty
  have found := get?_set_self d k v
  rw [get?, empty] at found
  cases found

theorem get?_filter (d : Dict κ α) (p : κ → α → Bool) (k : κ) :
    (d.filter p).get? k = (d.get? k).filter (p k) := by
  apply Option.ext
  intro v
  rw [get?_eq_some_iff, Option.filter_eq_some_iff, get?_eq_some_iff]
  simp [filter]

theorem get?_erase (d : Dict κ α) (k k' : κ) :
    (d.erase k).get? k' = if k' = k then none else d.get? k' := by
  rw [erase, get?_filter]
  split_ifs with h
  · simp [h]
  · cases d.get? k' <;> simp [h]

theorem keys_erase (d : Dict κ α) (k : κ) : (d.erase k).keys = d.keys.filter (· ≠ k) := by
  rw [keys, erase, filter, keys, List.filter_map]
  rfl

@[simp] theorem get?_erase_self (d : Dict κ α) (k : κ) : (d.erase k).get? k = none := by
  simp [get?_erase]

theorem mem_keys_set (d : Dict κ α) (k k' : κ) (v : α) :
    k' ∈ (d.set k v).keys ↔ k' = k ∨ k' ∈ d.keys := by
  by_cases h : k' = k <;> simp [mem_keys_iff, get?_set, h]

/-! ### Entries as a multiset -/

theorem perm_of_get?_eq {d d' : Dict κ α} (same : ∀ k, d.get? k = d'.get? k) :
    d.entries.Perm d'.entries := by
  refine (List.perm_ext_iff_of_nodup (List.Nodup.of_map _ d.nodup)
    (List.Nodup.of_map _ d'.nodup)).mpr ?_
  rintro ⟨k, v⟩
  rw [← get?_eq_some_iff, ← get?_eq_some_iff, same]

theorem get?_eq_of_perm {d d' : Dict κ α} (perm : d.entries.Perm d'.entries) (k : κ) :
    d.get? k = d'.get? k := by
  apply Option.ext
  intro v
  rw [get?_eq_some_iff, get?_eq_some_iff, perm.mem_iff]

theorem keys_perm_of_get?_eq {d d' : Dict κ α} (same : ∀ k, d.get? k = d'.get? k) :
    d.keys.Perm d'.keys := (perm_of_get?_eq same).map Prod.fst

theorem size_eq_of_get?_eq {d d' : Dict κ α} (same : ∀ k, d.get? k = d'.get? k) :
    d.size = d'.size := (perm_of_get?_eq same).length_eq

omit [DecidableEq κ] in
theorem size_le_of_keys_subset {β : Type} {d : Dict κ α} {d' : Dict κ β}
    (subset : ∀ k ∈ d.keys, k ∈ d'.keys) : d.size ≤ d'.size := by
  have shorter := (List.subperm_of_subset d.nodup subset).length_le
  simpa [keys, size] using shorter

theorem size_eq_ncard (d : Dict κ α) : d.size = {k | d.get? k ≠ none}.ncard := by
  have same : {k | d.get? k ≠ none} = ↑d.keys.toFinset := by
    ext k
    simp [get?_eq_none_iff]
  have count : d.keys.toFinset.card = d.keys.length := List.toFinset_card_of_nodup d.nodup
  rw [same, Set.ncard_coe_finset, count, keys, List.length_map, size]

theorem sumBy_eq_of_get?_eq {d d' : Dict κ α} (same : ∀ k, d.get? k = d'.get? k)
    (w : κ → α → ℕ) : d.sumBy w = d'.sumBy w :=
  ((perm_of_get?_eq same).map _).sum_eq

theorem erase_perm {d : Dict κ α} {k : κ} {v : α} (h : d.get? k = some v) :
    d.entries.Perm ((k, v) :: (d.erase k).entries) := by
  have fresh : (k, v) ∉ (d.erase k).entries := by
    rw [← get?_eq_some_iff, get?_erase_self]
    exact fun he => by cases he
  refine (List.perm_ext_iff_of_nodup (List.Nodup.of_map _ d.nodup)
    (List.nodup_cons.mpr ⟨fresh, List.Nodup.of_map _ (d.erase k).nodup⟩)).mpr ?_
  rintro ⟨k', v'⟩
  rw [List.mem_cons, ← get?_eq_some_iff, ← get?_eq_some_iff, get?_erase]
  by_cases hk : k' = k
  · subst hk
    simp [h, eq_comm]
  · simp [hk]

theorem sumBy_eq_sum_keys {d : Dict κ α} {order : List κ} (nodup : order.Nodup)
    (members : ∀ k, k ∈ order ↔ d.get? k ≠ none) (w : κ → α → ℕ) :
    d.sumBy w = (order.map (fun k => (d.get? k).elim 0 (w k))).sum := by
  have perm : d.keys.Perm order := by
    refine (List.perm_ext_iff_of_nodup d.nodup nodup).mpr (fun k => ?_)
    rw [members, Ne, get?_eq_none_iff, not_not, keys]
  rw [← (perm.map _).sum_eq, sumBy, keys, List.map_map]
  congr 1
  apply List.map_congr_left
  rintro ⟨k, v⟩ member
  simp [(get?_eq_some_iff d k v).mpr member]

theorem sumBy_erase {d : Dict κ α} {k : κ} {v : α} (h : d.get? k = some v)
    (w : κ → α → ℕ) : d.sumBy w = w k v + (d.erase k).sumBy w := by
  have hs := ((erase_perm h).map (fun e => w e.1 e.2)).sum_eq
  simpa [sumBy] using hs

theorem sumBy_set (d : Dict κ α) (k : κ) (v : α) (w : κ → α → ℕ) :
    (d.set k v).sumBy w = w k v + (d.erase k).sumBy w := by
  rw [sumBy_erase (get?_set_self d k v) w]
  congr 1
  apply sumBy_eq_of_get?_eq
  intro k'
  rw [get?_erase, get?_erase, get?_set]
  split_ifs <;> rfl

theorem sumBy_le_of_get?_sub {d d' : Dict κ α}
    (sub : ∀ k v, d'.get? k = some v → d.get? k = some v) (w : κ → α → ℕ) :
    d'.sumBy w ≤ d.sumBy w := by
  have inclusion : d'.entries ⊆ d.entries := by
    rintro ⟨k, v⟩ member
    exact (get?_eq_some_iff d k v).mp (sub k v ((get?_eq_some_iff d' k v).mpr member))
  obtain ⟨l, hp, hs⟩ := List.subperm_of_subset (List.Nodup.of_map _ d'.nodup) inclusion
  rw [sumBy, sumBy, ← (hp.map _).sum_eq]
  exact (hs.map _).sum_le_sum (fun _ _ => Nat.zero_le _)

theorem size_erase {d : Dict κ α} {k : κ} {v : α} (h : d.get? k = some v) :
    d.size = (d.erase k).size + 1 := by
  have hl := (erase_perm h).length_eq
  simpa [size] using hl

theorem erase_eq_self {d : Dict κ α} {k : κ} (h : d.get? k = none) : d.erase k = d := by
  apply Dict.ext
  rw [get?_eq_none_iff] at h
  refine List.filter_eq_self.mpr ?_
  intro e he
  have hne : e.1 ≠ k := fun hk => h (hk ▸ List.mem_map.mpr ⟨e, he, rfl⟩)
  simpa using hne

theorem size_set (d : Dict κ α) (k : κ) (v : α) :
    (d.set k v).size = d.size + if d.get? k = none then 1 else 0 := by
  have count : ∀ d : Dict κ α, d.sumBy (fun _ _ => 1) = d.size := fun d => by simp [sumBy, size]
  have added := sumBy_set d k v (fun _ _ => 1)
  rw [count, count] at added
  cases present : d.get? k with
  | none =>
    rw [erase_eq_self present] at added
    rw [if_pos rfl]
    omega
  | some w =>
    have fewer := size_erase present
    rw [if_neg (by simp)]
    omega

private theorem entries_set_of_mem {d : Dict κ α} {k : κ} (member : k ∈ d.keys) (v : α) :
    (d.set k v).entries = d.entries.map (replace k v) := by
  simp only [set, dif_pos (show k ∈ d.entries.map Prod.fst from member)]

theorem entries_set_of_not_mem {d : Dict κ α} {k : κ} (fresh : k ∉ d.keys) (v : α) :
    (d.set k v).entries = d.entries ++ [(k, v)] := by
  simp only [set, dif_neg (show k ∉ d.entries.map Prod.fst from fresh)]

theorem entries_foldl_set {l : List (κ × α)} {d : Dict κ α} (nodup : (l.map Prod.fst).Nodup)
    (fresh : ∀ k ∈ l.map Prod.fst, k ∉ d.keys) :
    (l.foldl (fun d e => d.set e.1 e.2) d).entries = d.entries ++ l := by
  induction l generalizing d with
  | nil => simp
  | cons e l ih =>
    simp only [List.map_cons, List.nodup_cons] at nodup
    have absent := fresh e.1 (by simp)
    have rest : ∀ k ∈ l.map Prod.fst, k ∉ (d.set e.1 e.2).keys := by
      intro k member
      rw [mem_keys_set]
      rintro (rfl | stored)
      · exact nodup.1 member
      · exact fresh k (by simp [member]) stored
    rw [List.foldl_cons, ih nodup.2 rest, entries_set_of_not_mem absent]
    simp

theorem keys_set (d : Dict κ α) (k : κ) (v : α) :
    (d.set k v).keys = if k ∈ d.keys then d.keys else d.keys ++ [k] := by
  split_ifs with member
  · rw [keys, entries_set_of_mem member, map_fst_replace]
    rfl
  · rw [keys, entries_set_of_not_mem member, List.map_append]
    rfl

private theorem map_replace_of_not_mem {l : List (κ × α)} {k : κ} (v : α)
    (fresh : k ∉ l.map Prod.fst) : l.map (replace k v) = l := by
  conv_rhs => rw [← List.map_id l]
  apply List.map_congr_left
  intro e he
  have hne : e.1 ≠ k := fun h => fresh (h ▸ List.mem_map.mpr ⟨e, he, rfl⟩)
  simp [replace, hne]

theorem entries_set_of_split {d : Dict κ α} {k : κ} {w : α} {front rest : List (κ × α)}
    (split : d.entries = front ++ (k, w) :: rest) (v : α) :
    (d.set k v).entries = front ++ (k, v) :: rest := by
  have nodup := d.nodup
  rw [split, List.map_append, List.map_cons, List.nodup_append, List.nodup_cons] at nodup
  obtain ⟨-, ⟨later, -⟩, apart⟩ := nodup
  have before : k ∉ front.map Prod.fst := fun member => apart k member k List.mem_cons_self rfl
  have member : k ∈ d.keys := by simp [keys, split]
  rw [entries_set_of_mem member, split, List.map_append, List.map_cons,
    map_replace_of_not_mem v before, map_replace_of_not_mem v later]
  simp [replace]

theorem set_set (d : Dict κ α) (k : κ) (v w : α) : (d.set k v).set k w = d.set k w := by
  apply Dict.ext
  have stored : k ∈ (d.set k v).keys := (mem_keys_set d k k v).mpr (Or.inl rfl)
  rw [entries_set_of_mem stored]
  by_cases member : k ∈ d.keys
  · rw [entries_set_of_mem member, entries_set_of_mem member, List.map_map]
    apply List.map_congr_left
    intro e _
    by_cases h : e.1 = k <;> simp [replace, h]
  · rw [entries_set_of_not_mem member, entries_set_of_not_mem member, List.map_append,
      map_replace_of_not_mem w member]
    simp [replace]

theorem set_of_only {d : Dict κ α} {k : κ} (only : ∀ k' ∈ d.keys, k' = k) (v : α) :
    d.set k v = empty.set k v := by
  apply Dict.ext
  have single : (empty.set k v : Dict κ α).entries = [(k, v)] :=
    entries_set_of_not_mem (by simp) v
  rw [single]
  obtain ⟨entries, nodup⟩ := d
  match entries with
  | [] => exact entries_set_of_not_mem (by simp [keys]) v
  | [(k', w)] =>
    have same : k' = k := only k' (by simp [keys])
    rw [entries_set_of_mem (by simp [keys, same])]
    simp [replace, same]
  | (k', w) :: (k'', w') :: rest =>
    have first : k' = k := only k' (by simp [keys])
    have second : k'' = k := only k'' (by simp [keys])
    simp [first, second] at nodup

theorem erase_set (d : Dict κ α) (k : κ) (v : α) : (d.set k v).erase k = d.erase k := by
  apply Dict.ext
  simp only [erase, filter]
  by_cases member : k ∈ d.keys
  · have same : (fun e : κ × α => decide (e.1 ≠ k)) ∘ replace k v = fun e => decide (e.1 ≠ k) := by
      funext e
      by_cases h : e.1 = k <;> simp [replace, h]
    have fresh : k ∉ (d.entries.filter (fun e => decide (e.1 ≠ k))).map Prod.fst := by
      simp
    rw [entries_set_of_mem member, List.filter_map, same, map_replace_of_not_mem v fresh]
  · rw [entries_set_of_not_mem member]
    simp

/-! ### Changed values -/

section Map

variable {β : Type} (f : α → β)

theorem get?_map (d : Dict κ α) (k : κ) : (d.map f).get? k = (d.get? k).map f := by
  apply Option.ext
  intro v
  rw [get?_eq_some_iff, Option.map_eq_some_iff, map]
  simp only [List.mem_map, Prod.exists, Prod.mk.injEq, get?_eq_some_iff]
  constructor
  · rintro ⟨_, value, member, rfl, rfl⟩
    exact ⟨value, member, rfl⟩
  · rintro ⟨value, member, rfl⟩
    exact ⟨k, value, member, rfl, rfl⟩

theorem map_erase (d : Dict κ α) (k : κ) : (d.erase k).map f = (d.map f).erase k := by
  apply Dict.ext
  simp only [map, erase, filter, List.filter_map]
  rfl

theorem map_set (d : Dict κ α) (k : κ) (v : α) : (d.set k v).map f = (d.map f).set k (f v) := by
  apply Dict.ext
  by_cases member : k ∈ d.keys
  · rw [entries_set_of_mem (by rwa [keys_map])]
    simp only [map, entries_set_of_mem member, List.map_map]
    apply List.map_congr_left
    intro e _
    by_cases same : e.1 = k <;> simp [replace, same]
  · rw [entries_set_of_not_mem (by rwa [keys_map])]
    simp [map, entries_set_of_not_mem member]

end Map

end Dict

end MiniRedis.Base
