/- GID: MiniRedis/Base/LruCache
   generality: G
   digest: A cache in the order of last use, which drops its front until the rest fits. -/

import MiniRedis.Base.Dict
import MiniRedis.Base.Eviction

set_option autoImplicit false
set_option relaxedAutoImplicit false

namespace MiniRedis.Base

variable {κ α : Type} {size : κ → α → ℕ}

/-! ### Dictionaries as queues -/

namespace Dict

/-- Take the first entries out. -/
def drop (d : Dict κ α) (n : ℕ) : Dict κ α :=
  ⟨d.entries.drop n, d.nodup.sublist ((List.drop_sublist n d.entries).map Prod.fst)⟩

theorem keys_drop (d : Dict κ α) (n : ℕ) : (d.drop n).keys = d.keys.drop n := List.map_drop

theorem keys_filter_sublist (d : Dict κ α) (p : κ → α → Bool) : (d.filter p).keys.Sublist d.keys :=
  List.filter_sublist.map Prod.fst

variable [DecidableEq κ]

/-- Write an entry and put it last. -/
def renew (d : Dict κ α) (k : κ) (v : α) : Dict κ α := (d.erase k).set k v

theorem erase_erase (d : Dict κ α) (k : κ) : (d.erase k).erase k = d.erase k :=
  erase_eq_self (get?_erase_self d k)

theorem entries_renew (d : Dict κ α) (k : κ) (v : α) :
    (d.renew k v).entries = (d.erase k).entries ++ [(k, v)] :=
  entries_set_of_not_mem ((get?_eq_none_iff _ k).mp (get?_erase_self d k)) v

theorem keys_renew (d : Dict κ α) (k : κ) (v : α) :
    (d.renew k v).keys = d.keys.filter (· ≠ k) ++ [k] := by
  rw [keys, entries_renew, List.map_append, ← keys_erase]
  rfl

theorem get?_renew (d : Dict κ α) (k k' : κ) (v : α) :
    (d.renew k v).get? k' = if k' = k then some v else d.get? k' := by
  rw [renew, get?_set, get?_erase]
  split_ifs <;> rfl

theorem get?_drop (d : Dict κ α) (n : ℕ) (k : κ) :
    (d.drop n).get? k = if k ∈ d.keys.take n then none else d.get? k := by
  have parts : d.keys = d.keys.take n ++ (d.drop n).keys := by
    rw [keys_drop, List.take_append_drop]
  have nodup : (d.keys.take n ++ (d.drop n).keys).Nodup := parts ▸ d.nodup
  split_ifs with taken
  · rw [get?_eq_none_iff]
    exact List.disjoint_of_nodup_append nodup taken
  · apply Option.ext
    intro v
    rw [get?_eq_some_iff, get?_eq_some_iff]
    constructor
    · exact fun member => List.mem_of_mem_drop member
    · intro member
      rw [← List.take_append_drop n d.entries, List.mem_append] at member
      refine member.resolve_left (fun front => taken ?_)
      rw [keys, ← List.map_take]
      exact List.mem_map_of_mem front

theorem renew_renew (d : Dict κ α) (k : κ) (v w : α) : (d.renew k v).renew k w = d.renew k w := by
  rw [renew, renew, erase_set, renew, erase_erase]

theorem erase_renew (d : Dict κ α) (k : κ) (v : α) : (d.renew k v).erase k = d.erase k := by
  rw [renew, erase_set, erase_erase]

theorem map_entries_eq (d : Dict κ α) (f : κ → α → ℕ) :
    d.entries.map (fun e => f e.1 e.2) = d.keys.map (fun k => (d.get? k).elim 0 (f k)) := by
  rw [keys, List.map_map]
  apply List.map_congr_left
  rintro ⟨k, v⟩ member
  simp [(get?_eq_some_iff d k v).mpr member]

end Dict

/-! ### The cut beside one last size -/

theorem shortestCut_append_of_le {limit own : ℕ} (fits : own ≤ limit) (sizes : List ℕ) :
    shortestCut 0 limit (sizes ++ [own]) = shortestCut own limit sizes := by
  induction sizes with
  | nil => simp [shortestCut, fits]
  | cons first sizes ih =>
    have total : 0 + (first :: sizes ++ [own]).sum = own + (first :: sizes).sum := by
      simp only [List.sum_append, List.sum_cons, List.sum_nil]
      omega
    rw [List.cons_append, shortestCut, shortestCut, ih, ← List.cons_append, total]

theorem shortestCut_append_of_lt {limit own : ℕ} (exceeds : limit < own) (sizes : List ℕ) :
    shortestCut 0 limit (sizes ++ [own]) = sizes.length + 1 := by
  induction sizes with
  | nil => simp [shortestCut, not_le.mpr exceeds]
  | cons first sizes ih =>
    have large : ¬ 0 + (first :: (sizes ++ [own])).sum ≤ limit := by
      simp only [List.sum_append, List.sum_cons, List.sum_nil]
      omega
    rw [List.cons_append, shortestCut, if_neg large, ih]
    rfl

/-! ### The cache -/

/-- A cache whose entries stand in the order of their last use, the least recent one first. -/
structure LruCache (κ α : Type) where
  items : Dict κ α
  limit : Option ℕ
  evicted : ℕ

namespace LruCache

/-- Keep what passes a test, in its order. -/
def keep (c : LruCache κ α) (p : κ → α → Bool) : LruCache κ α := { c with items := c.items.filter p }

/-- Forget everything, and what was evicted. -/
def clear (c : LruCache κ α) : LruCache κ α := { c with items := Dict.empty, evicted := 0 }

/-- Drop the least recent entries until the rest is within the limit. -/
def trim (size : κ → α → ℕ) (c : LruCache κ α) : LruCache κ α :=
  match c.limit with
  | none => c
  | some limit =>
    let cut := shortestCut 0 limit (c.items.entries.map (fun e => size e.1 e.2))
    { c with items := c.items.drop cut, evicted := c.evicted + cut }

variable [DecidableEq κ]

/-- Write an entry, which is then the most recent one. -/
def put (c : LruCache κ α) (k : κ) (v : α) : LruCache κ α := { c with items := c.items.renew k v }

def remove (c : LruCache κ α) (k : κ) : LruCache κ α := { c with items := c.items.erase k }

variable {c : LruCache κ α}

theorem put_put (k : κ) (v w : α) : (c.put k v).put k w = c.put k w := by
  rw [put, put, put, Dict.renew_renew]

theorem remove_put (k : κ) (v : α) : (c.put k v).remove k = c.remove k := by
  rw [remove, put, remove, Dict.erase_renew]

omit [DecidableEq κ] in
theorem trim_of_unlimited (unlimited : c.limit = none) : c.trim size = c := by
  unfold trim
  rw [unlimited]

end LruCache

end MiniRedis.Base
