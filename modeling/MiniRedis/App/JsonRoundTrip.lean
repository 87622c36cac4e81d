/- GID: MiniRedis/App/JsonRoundTrip
   generality: G
   digest: The text of a JSON value is printable ASCII and is read as this value again. -/

import MiniRedis.App.JsonText

set_option autoImplicit false
set_option relaxedAutoImplicit false

namespace MiniRedis.App

open MiniRedis.Base MiniRedis.Python

namespace JsonText

/-! ### Values are read back -/

mutual

/-- A value that Python can hold and write: its floats are binary64, its integers have no more digits
than `int` reads, and no object has a key twice. -/
def Plain : JsonValue → Prop
  | .null | .bool _ | .string _ => True
  | .int n => n.natAbs < readableBound
  | .float x => x.Exact
  | .array items => PlainItems items
  | .object entries => (entries.map Prod.fst).Nodup ∧ PlainEntries entries

def PlainItems : List JsonValue → Prop
  | [] => True
  | item :: items => Plain item ∧ PlainItems items

def PlainEntries : List (String × JsonValue) → Prop
  | [] => True
  | (_, value) :: entries => Plain value ∧ PlainEntries entries

end

mutual

/-- The fuel that reading a value takes. -/
def steps : JsonValue → ℕ
  | .null | .bool _ | .string _ | .int _ | .float _ => 1
  | .array items => 1 + stepsItems items
  | .object entries => 1 + stepsEntries entries

def stepsItems : List JsonValue → ℕ
  | [] => 0
  | item :: items => 1 + steps item + stepsItems items

def stepsEntries : List (String × JsonValue) → ℕ
  | [] => 0
  | (_, value) :: entries => 1 + steps value + stepsEntries entries

end

theorem skipBlanks_append {blanks : List Char} (all : ∀ c ∈ blanks, isBlank c = true)
    (rest : List Char) : skipBlanks (blanks ++ rest) = skipBlanks rest :=
  List.dropWhile_append_of_pos all

theorem skipBlanks_cons {c : Char} (text : isBlank c = false) (rest : List Char) :
    skipBlanks (c :: rest) = c :: rest := by
  rw [skipBlanks, List.dropWhile_cons_of_neg]
  rw [text]
  exact Bool.false_ne_true

theorem isBlank_lineBreak (indent : Option ℕ) (level : ℕ) :
    ∀ c ∈ lineBreak indent level, isBlank c = true := by
  intro c member
  cases indent with
  | none => cases member
  | some width =>
    rcases List.mem_cons.mp member with rfl | member
    · rfl
    · rw [List.eq_of_mem_replicate member]
      rfl

private theorem exists_separator (indent : Option ℕ) (level : ℕ) :
    ∃ blanks, itemSeparator indent level = ',' :: blanks ∧ ∀ c ∈ blanks, isBlank c = true := by
  cases indent with
  | none => exact ⟨[' '], rfl, List.forall_mem_singleton.mpr rfl⟩
  | some width => exact ⟨lineBreak (some width) level, rfl, isBlank_lineBreak _ _⟩

/-- A text that a value begins with: no blank, and no bracket that closes. -/
def Begins (cs : List Char) : Prop := ∃ c rest, cs = c :: rest ∧ isBlank c = false ∧ c ≠ ']'

private theorem begins_append {cs : List Char} (begins : Begins cs) (rest : List Char) :
    Begins (cs ++ rest) := by
  obtain ⟨c, cs, rfl, text, other⟩ := begins
  exact ⟨c, cs ++ rest, rfl, text, other⟩

private theorem begins_number (negative : Bool) {c : Char} (digit : c.isDigit = true)
    (cs : List Char) : Begins ((if negative then ['-'] else []) ++ c :: cs) := by
  cases negative with
  | true => exact ⟨'-', c :: cs, rfl, rfl, by decide⟩
  | false =>
    refine ⟨c, cs, rfl, ?_, ?_⟩
    · have range := toNat_of_isDigit digit
      simp only [isBlank, Bool.or_eq_false_iff, beq_eq_false_iff_ne]
      refine ⟨⟨⟨?_, ?_⟩, ?_⟩, ?_⟩ <;> rintro rfl <;> exact absurd digit (by decide)
    · rintro rfl
      exact absurd digit (by decide)

private theorem exists_digit (n : ℕ) :
    ∃ c cs, (toString n).toList = c :: cs ∧ c.isDigit = true := by
  obtain ⟨c, cs, starts⟩ := List.exists_cons_of_ne_nil
    (show (toString n).toList ≠ [] by rw [toString_nat_toList]; exact Nat.toDigits_ne_nil)
  exact ⟨c, cs, starts, isDigit_of_mem_toString_nat (by rw [starts]; exact List.mem_cons_self)⟩

private theorem floatText_finite (negative : Bool) (q : ℚ≥0) :
    floatText (.finite negative q) =
      (if negative then ['-'] else []) ++ (reprLiteral q).text := by
  rw [floatText, reprFloat, String.toList_ofList]

private theorem begins_dumpsValue (indent : Option ℕ) (level : ℕ) {value : JsonValue}
    (plain : Plain value) : Begins (dumpsValue indent level value) := by
  cases value with
  | null => exact ⟨'n', _, by rw [dumpsValue]; rfl, rfl, by decide⟩
  | bool value =>
    cases value
    · exact ⟨'f', _, by rw [dumpsValue]; rfl, rfl, by decide⟩
    · exact ⟨'t', _, by rw [dumpsValue]; rfl, rfl, by decide⟩
  | int n =>
    obtain ⟨c, cs, starts, digit⟩ := exists_digit n.natAbs
    rw [dumpsValue, toString_int_signed, starts]
    exact begins_number _ digit cs
  | float x =>
    rw [dumpsValue]
    cases x with
    | nan => exact ⟨'N', _, rfl, rfl, by decide⟩
    | inf negative =>
      cases negative
      · exact ⟨'I', _, rfl, rfl, by decide⟩
      · exact ⟨'-', _, rfl, rfl, by decide⟩
    | finite negative q =>
      have exact_q : IsBinary64 q := by
        rw [Plain] at plain
        exact plain
      obtain ⟨c, cs, starts, digit⟩ := Literal.exists_head (reprLiteral_reads exact_q negative).1
      rw [floatText_finite, starts]
      exact begins_number negative digit cs
  | string text =>
    rw [dumpsValue, toList_dumpsString]
    exact ⟨'"', _, rfl, rfl, by decide⟩
  | array items =>
    cases items
    · exact ⟨'[', _, by rw [dumpsValue]; rfl, rfl, by decide⟩
    · exact ⟨'[', _, by rw [dumpsValue]; rfl, rfl, by decide⟩
  | object entries =>
    cases entries
    · exact ⟨'\x7b', _, by rw [dumpsValue], rfl, by decide⟩
    · rename_i entry _
      obtain ⟨key, value⟩ := entry
      exact ⟨'\x7b', _, by rw [dumpsValue]; rfl, rfl, by decide⟩

private theorem loadValue_scalar {cs : List Char}
    (other : ∀ c ∈ cs.head?, c ≠ '"' ∧ c ≠ '[' ∧ c ≠ '\x7b') (fuel : ℕ) :
    loadValue (fuel + 1) cs = (loadWord cs).or (loadNumber cs) := by
  unfold loadValue
  split
  · exact ((other '"' rfl).1 rfl).elim
  · exact ((other '[' rfl).2.1 rfl).elim
  · exact ((other '\x7b' rfl).2.2 rfl).elim
  · rfl

private theorem loadValue_word {word : String × JsonValue} (listed : word ∈ words) (fuel : ℕ)
    (rest : List Char) : loadValue (fuel + 1) (word.1.toList ++ rest) = some (word.2, rest) := by
  have other : ∀ c ∈ (word.1.toList ++ rest).head?, c ≠ '"' ∧ c ≠ '[' ∧ c ≠ '\x7b' := by
    simp only [words, List.mem_cons, List.not_mem_nil, or_false] at listed
    rcases listed with rfl | rfl | rfl | rfl | rfl | rfl
    all_goals
      rintro c first
      cases first
      decide
  rw [loadValue_scalar other, loadWord_append listed, Option.some_or]

private theorem loadValue_number {negative : Bool} {c : Char} (digit : c.isDigit = true)
    {cs : List Char} (fuel : ℕ) :
    loadValue (fuel + 1) ((if negative then ['-'] else []) ++ c :: cs) =
      loadNumber ((if negative then ['-'] else []) ++ c :: cs) := by
  rw [loadValue_scalar _ fuel, loadWord_signed negative digit, Option.none_or]
  intro d first
  cases negative with
  | true =>
    cases first
    decide
  | false =>
    cases first
    refine ⟨?_, ?_, ?_⟩ <;> rintro rfl <;> exact absurd digit (by decide)

theorem stops_cons {c : Char} (other : c.isDigit = false ∧ c ≠ '.' ∧ c ≠ 'e' ∧ c ≠ 'E')
    (rest : List Char) : Stops (c :: rest) := by
  rintro d first
  cases first
  exact other

theorem stops_blanks {blanks rest : List Char} (all : ∀ c ∈ blanks, isBlank c = true)
    (stops : Stops rest) : Stops (blanks ++ rest) := by
  cases blanks with
  | nil => exact stops
  | cons c blanks =>
    apply stops_cons
    have blank := all c List.mem_cons_self
    simp only [isBlank, Bool.or_eq_true, beq_iff_eq] at blank
    rcases blank with ((rfl | rfl) | rfl) | rfl <;> decide

/-- What is written of a value is read as this value, whatever follows it. -/
structure ReadsBack (indent : Option ℕ) (value : JsonValue) : Prop where
  begins : ∀ level, Begins (dumpsValue indent level value)
  reads : ∀ {fuel : ℕ} (level : ℕ) {rest : List Char}, steps value ≤ fuel → Stops rest →
    loadValue fuel (dumpsValue indent level value ++ rest) = some (value, rest)

theorem skipBlanks_begins {cs : List Char} (begins : Begins cs) : skipBlanks cs = cs := by
  obtain ⟨c, rest, rfl, text, -⟩ := begins
  exact skipBlanks_cons text rest

private def keyText (key : String) (text : List Char) : List Char :=
  (dumpsString key).toList ++ ([':', ' '] ++ text)

private theorem loadEntries_key (key : String) {value : JsonValue} {fuel : ℕ} {text more : List Char}
    (begins : Begins text) (read : loadValue fuel text = some (value, more)) :
    loadEntries (fuel + 1) (keyText key text) =
      match skipBlanks more with
      | ',' :: cs => do
        let (pairs, rest) ← loadEntries fuel (skipBlanks cs)
        return ((key, value) :: pairs, rest)
      | '\x7d' :: rest => return ([(key, value)], rest)
      | _ => none := by
  rw [keyText, toList_dumpsString, List.cons_append, List.append_assoc, List.singleton_append,
    loadEntries, loadString_dumpsString, Option.bind_eq_bind, Option.bind_some]
  dsimp only
  rw [List.cons_append, skipBlanks_cons (by decide)]
  change (loadValue fuel (skipBlanks ([' '] ++ text)) >>= _) = _
  rw [skipBlanks_append (List.forall_mem_singleton.mpr rfl), skipBlanks_begins begins, read,
    String.ofList_toList]
  rfl

section Nested

variable {indent : Option ℕ} {level : ℕ} {blanks : List Char} (all : ∀ c ∈ blanks, isBlank c = true)
  (rest : List Char)

include all

private theorem stops_items (items : List JsonValue) :
    Stops (dumpsItems indent level items ++ (blanks ++ ']' :: rest)) := by
  cases items with
  | nil =>
    rw [dumpsItems, List.nil_append]
    exact stops_blanks all (stops_cons (by decide) rest)
  | cons item items =>
    obtain ⟨gap, separator, -⟩ := exists_separator indent level
    rw [dumpsItems, separator]
    exact stops_cons (by decide) _

private theorem loadItems_dumpsItems (item : JsonValue) (items : List JsonValue) (fuel : ℕ)
    (first : ReadsBack indent item) (others : ∀ value ∈ items, ReadsBack indent value)
    (enough : stepsItems (item :: items) ≤ fuel) :
    loadItems fuel (dumpsValue indent level item ++
      (dumpsItems indent level items ++ (blanks ++ ']' :: rest))) = some (item :: items, rest) := by
  induction items generalizing item fuel with
  | nil =>
    obtain ⟨fuel, rfl⟩ : ∃ n, fuel = n + 1 := Nat.exists_eq_succ_of_ne_zero (by
      rw [stepsItems] at enough
      omega)
    rw [stepsItems] at enough
    have stops : Stops (dumpsItems indent level [] ++ (blanks ++ ']' :: rest)) := stops_items all rest []
    have read := first.reads level (show steps item ≤ fuel by omega) stops
    rw [loadItems, read]
    rw [dumpsItems, List.nil_append, Option.bind_eq_bind, Option.bind_some]
    dsimp only
    rw [skipBlanks_append all, skipBlanks_cons (by decide)]
    rfl
  | cons next items ih =>
    obtain ⟨fuel, rfl⟩ : ∃ n, fuel = n + 1 := Nat.exists_eq_succ_of_ne_zero (by
      rw [stepsItems] at enough
      omega)
    rw [stepsItems] at enough
    have stops : Stops (dumpsItems indent level (next :: items) ++ (blanks ++ ']' :: rest)) :=
      stops_items all rest (next :: items)
    have read := first.reads level (show steps item ≤ fuel by omega) stops
    have later := ih next fuel (others next List.mem_cons_self)
      (fun value member => others value (List.mem_cons_of_mem next member)) (by omega)
    obtain ⟨gap, separator, blank⟩ := exists_separator indent level
    have begins := begins_append ((others next List.mem_cons_self).begins level)
      (dumpsItems indent level items ++ (blanks ++ ']' :: rest))
    rw [loadItems, read]
    rw [dumpsItems, separator, Option.bind_eq_bind, Option.bind_some]
    dsimp only
    rw [List.append_assoc, List.append_assoc, List.cons_append, skipBlanks_cons (by decide)]
    change (loadItems fuel (skipBlanks (gap ++ _)) >>= fun p => pure (item :: p.1, p.2)) = _
    rw [skipBlanks_append blank, skipBlanks_begins begins, later]
    rfl

private theorem stops_entries (entries : List (String × JsonValue)) :
    Stops (dumpsEntries indent level entries ++ (blanks ++ '\x7d' :: rest)) := by
  cases entries with
  | nil =>
    rw [dumpsEntries, List.nil_append]
    exact stops_blanks all (stops_cons (by decide) rest)
  | cons entry entries =>
    obtain ⟨key, value⟩ := entry
    obtain ⟨gap, separator, -⟩ := exists_separator indent level
    rw [dumpsEntries, separator]
    exact stops_cons (by decide) _

private theorem loadEntries_dumpsEntries (key : String) (value : JsonValue)
    (entries : List (String × JsonValue)) (fuel : ℕ) (first : ReadsBack indent value)
    (others : ∀ entry ∈ entries, ReadsBack indent entry.2)
    (enough : stepsEntries ((key, value) :: entries) ≤ fuel) :
    loadEntries fuel (keyText key (dumpsValue indent level value ++
      (dumpsEntries indent level entries ++ (blanks ++ '\x7d' :: rest)))) =
        some ((key, value) :: entries, rest) := by
  induction entries generalizing key value fuel with
  | nil =>
    obtain ⟨fuel, rfl⟩ : ∃ n, fuel = n + 1 := Nat.exists_eq_succ_of_ne_zero (by
      rw [stepsEntries] at enough
      omega)
    rw [stepsEntries] at enough
    have stops : Stops (dumpsEntries indent level [] ++ (blanks ++ '\x7d' :: rest)) :=
      stops_entries all rest []
    have read := first.reads level (show steps value ≤ fuel by omega) stops
    have begins := begins_append (first.begins level)
      (dumpsEntries indent level [] ++ (blanks ++ '\x7d' :: rest))
    rw [loadEntries_key key begins read, dumpsEntries, List.nil_append, skipBlanks_append all,
      skipBlanks_cons (by decide)]
    rfl
  | cons next entries ih =>
    obtain ⟨fuel, rfl⟩ : ∃ n, fuel = n + 1 := Nat.exists_eq_succ_of_ne_zero (by
      rw [stepsEntries] at enough
      omega)
    rw [stepsEntries] at enough
    obtain ⟨nextKey, nextValue⟩ := next
    have stops : Stops (dumpsEntries indent level ((nextKey, nextValue) :: entries) ++
        (blanks ++ '\x7d' :: rest)) := stops_entries all rest _
    have read := first.reads level (show steps value ≤ fuel by omega) stops
    have begins := begins_append (first.begins level)
      (dumpsEntries indent level ((nextKey, nextValue) :: entries) ++ (blanks ++ '\x7d' :: rest))
    have later := ih nextKey nextValue fuel (others _ List.mem_cons_self)
      (fun entry member => others entry (List.mem_cons_of_mem _ member)) (by omega)
    obtain ⟨gap, separator, blank⟩ := exists_separator indent level
    have quoted : Begins (keyText nextKey (dumpsValue indent level nextValue ++
        (dumpsEntries indent level entries ++ (blanks ++ '\x7d' :: rest)))) := by
      rw [keyText, toList_dumpsString]
      exact ⟨'"', _, rfl, rfl, by decide⟩
    have shape : dumpsEntries indent level ((nextKey, nextValue) :: entries) ++
        (blanks ++ '\x7d' :: rest) = ',' :: (gap ++ keyText nextKey
          (dumpsValue indent level nextValue ++ (dumpsEntries indent level entries ++
            (blanks ++ '\x7d' :: rest)))) := by
      rw [dumpsEntries, separator, keyText]
      simp only [List.append_assoc, List.cons_append]
    rw [loadEntries_key key begins read, shape, skipBlanks_cons (by decide)]
    change (loadEntries fuel (skipBlanks (gap ++ _)) >>= fun p => pure ((key, value) :: p.1, p.2)) = _
    rw [skipBlanks_append blank, skipBlanks_begins quoted, later]
    rfl

end Nested

private theorem exists_fuel {value : JsonValue} {fuel : ℕ} (enough : steps value ≤ fuel) :
    ∃ n, fuel = n + 1 := by
  apply Nat.exists_eq_succ_of_ne_zero
  cases value <;> rw [steps] at enough <;> omega

private theorem readsBack_word {indent : Option ℕ} {value : JsonValue} (text : String)
    (listed : (text, value) ∈ words) (begins : Begins text.toList)
    (written : ∀ level, dumpsValue indent level value = text.toList) : ReadsBack indent value where
  begins level := by
    rw [written]
    exact begins
  reads := by
    intro fuel level rest enough _
    obtain ⟨n, rfl⟩ := exists_fuel enough
    rw [written]
    exact loadValue_word listed n rest

private theorem readsBack_number {indent : Option ℕ} {value : JsonValue} {negative : Bool} {c : Char}
    {cs : List Char} (digit : c.isDigit = true)
    (written : ∀ level, dumpsValue indent level value = (if negative then ['-'] else []) ++ c :: cs)
    (loaded : ∀ rest, Stops rest →
      loadNumber ((if negative then ['-'] else []) ++ c :: (cs ++ rest)) = some (value, rest)) :
    ReadsBack indent value where
  begins level := by
    rw [written]
    exact begins_number negative digit cs
  reads := by
    intro fuel level rest enough stops
    obtain ⟨n, rfl⟩ := exists_fuel enough
    rw [written, List.append_assoc, List.cons_append, loadValue_number digit]
    exact loaded rest stops

private theorem readsBack_int (indent : Option ℕ) {n : ℤ} (small : n.natAbs < readableBound) :
    ReadsBack indent (.int n) := by
  obtain ⟨c, cs, starts, digit⟩ := exists_digit n.natAbs
  have text : (toString n).toList = (if decide (n < 0) then ['-'] else []) ++ c :: cs := by
    rw [toString_int_signed, starts]
  refine readsBack_number digit (fun level => by rw [dumpsValue, text]) (fun rest stops => ?_)
  have read := loadNumber_int small stops
  rw [text, List.append_assoc] at read
  exact read

private theorem readsBack_finite (indent : Option ℕ) (negative : Bool) {q : ℚ≥0}
    (binary : IsBinary64 q) : ReadsBack indent (.float (.finite negative q)) := by
  obtain ⟨sound, value⟩ := reprLiteral_reads binary negative
  obtain ⟨c, cs, starts, digit⟩ := Literal.exists_head sound
  refine readsBack_number digit (fun level => by rw [dumpsValue, floatText_finite, starts])
    (fun rest stops => ?_)
  have read := loadNumber_literal sound negative stops
  rw [value, starts, List.append_assoc] at read
  exact read

private theorem readsBack_string (indent : Option ℕ) (text : String) :
    ReadsBack indent (.string text) where
  begins level := by
    rw [dumpsValue, toList_dumpsString]
    exact ⟨'"', _, rfl, rfl, by decide⟩
  reads := by
    intro fuel level rest enough _
    obtain ⟨n, rfl⟩ := exists_fuel enough
    rw [dumpsValue, toList_dumpsString, List.cons_append, List.append_assoc, List.singleton_append,
      loadValue, loadString_dumpsString, Option.map_some]
    dsimp only
    rw [String.ofList_toList]

private theorem readsBack_array (indent : Option ℕ) {items : List JsonValue}
    (each : ∀ value ∈ items, ReadsBack indent value) : ReadsBack indent (.array items) where
  begins level := by
    cases items
    · exact ⟨'[', _, by rw [dumpsValue]; rfl, rfl, by decide⟩
    · exact ⟨'[', _, by rw [dumpsValue]; rfl, rfl, by decide⟩
  reads := by
    intro fuel level rest enough _
    obtain ⟨n, rfl⟩ := exists_fuel enough
    cases items with
    | nil =>
      rw [dumpsValue]
      rfl
    | cons item items =>
      rw [steps] at enough
      have first := each item List.mem_cons_self
      have begins := begins_append (first.begins (level + 1))
        (dumpsItems indent (level + 1) items ++ (lineBreak indent level ++ ']' :: rest))
      have loaded : loadItems n (dumpsValue indent (level + 1) item ++
          (dumpsItems indent (level + 1) items ++ (lineBreak indent level ++ ']' :: rest))) =
          some (item :: items, rest) :=
        loadItems_dumpsItems (isBlank_lineBreak indent level) rest item items n first
          (fun value member => each value (List.mem_cons_of_mem item member)) (by omega)
      have shape : dumpsValue indent level (.array (item :: items)) ++ rest =
          '[' :: (lineBreak indent (level + 1) ++ (dumpsValue indent (level + 1) item ++
            (dumpsItems indent (level + 1) items ++ (lineBreak indent level ++ ']' :: rest)))) := by
        rw [dumpsValue]
        simp only [List.append_assoc, List.cons_append, List.nil_append]
      rw [shape, loadValue, skipBlanks_append (isBlank_lineBreak indent (level + 1)),
        skipBlanks_begins begins]
      generalize dumpsValue indent (level + 1) item ++ _ = body at begins loaded
      obtain ⟨c, tail, rfl, -, other⟩ := begins
      split
      · rename_i same
        exact (other (List.cons.inj same).1).elim
      · rw [loaded]
        rfl

theorem ofPairs_nodup {pairs : List (String × JsonValue)} (distinct : (pairs.map Prod.fst).Nodup) :
    ofPairs pairs = .object pairs := by
  rw [ofPairs, Dict.entries_foldl_set distinct (by simp)]
  rfl

private theorem readsBack_object (indent : Option ℕ) {entries : List (String × JsonValue)}
    (distinct : (entries.map Prod.fst).Nodup)
    (each : ∀ entry ∈ entries, ReadsBack indent entry.2) : ReadsBack indent (.object entries) where
  begins level := by
    cases entries with
    | nil => exact ⟨'\x7b', _, by rw [dumpsValue], rfl, by decide⟩
    | cons entry entries =>
      obtain ⟨key, value⟩ := entry
      exact ⟨'\x7b', _, by rw [dumpsValue]; rfl, rfl, by decide⟩
  reads := by
    intro fuel level rest enough _
    obtain ⟨n, rfl⟩ := exists_fuel enough
    cases entries with
    | nil =>
      rw [dumpsValue]
      rfl
    | cons entry entries =>
      obtain ⟨key, value⟩ := entry
      rw [steps] at enough
      have loaded : loadEntries n (keyText key (dumpsValue indent (level + 1) value ++
          (dumpsEntries indent (level + 1) entries ++ (lineBreak indent level ++ '\x7d' :: rest)))) =
          some ((key, value) :: entries, rest) :=
        loadEntries_dumpsEntries (isBlank_lineBreak indent level) rest key value entries n
          (each _ List.mem_cons_self)
          (fun entry member => each entry (List.mem_cons_of_mem _ member)) (by omega)
      have shape : dumpsValue indent level (.object ((key, value) :: entries)) ++ rest =
          '\x7b' :: (lineBreak indent (level + 1) ++ keyText key (dumpsValue indent (level + 1) value ++
            (dumpsEntries indent (level + 1) entries ++ (lineBreak indent level ++ '\x7d' :: rest)))) := by
        rw [dumpsValue, keyText]
        simp only [List.append_assoc, List.cons_append, List.nil_append]
      have quoted : ∃ tail, keyText key (dumpsValue indent (level + 1) value ++
          (dumpsEntries indent (level + 1) entries ++ (lineBreak indent level ++ '\x7d' :: rest))) =
          '"' :: tail := by
        rw [keyText, toList_dumpsString]
        exact ⟨_, rfl⟩
      rw [shape, loadValue, skipBlanks_append (isBlank_lineBreak indent (level + 1))]
      generalize keyText key _ = body at quoted loaded
      obtain ⟨tail, rfl⟩ := quoted
      rw [skipBlanks_cons (by decide)]
      change (loadEntries n ('"' :: tail)).map (fun p => (ofPairs p.1, p.2)) = _
      rw [loaded, Option.map_some, ofPairs_nodup distinct]

private theorem plain_of_mem_items {items : List JsonValue} (plain : PlainItems items) :
    ∀ value ∈ items, Plain value := by
  induction items with
  | nil => simp
  | cons item items ih =>
    rw [PlainItems] at plain
    exact List.forall_mem_cons.mpr ⟨plain.1, ih plain.2⟩

private theorem plain_of_mem_entries {entries : List (String × JsonValue)}
    (plain : PlainEntries entries) : ∀ entry ∈ entries, Plain entry.2 := by
  induction entries with
  | nil => simp
  | cons entry entries ih =>
    rw [PlainEntries] at plain
    exact List.forall_mem_cons.mpr ⟨plain.1, ih plain.2⟩

/-- Every value that Python can hold is read back from its text. -/
theorem readsBack (indent : Option ℕ) : ∀ value : JsonValue, Plain value → ReadsBack indent value
  | .null, _ => readsBack_word "null" (by simp [words]) ⟨'n', _, rfl, rfl, by decide⟩
      (fun level => by rw [dumpsValue])
  | .bool true, _ => readsBack_word "true" (by simp [words]) ⟨'t', _, rfl, rfl, by decide⟩
      (fun level => by rw [dumpsValue]; rfl)
  | .bool false, _ => readsBack_word "false" (by simp [words])
      ⟨'f', _, rfl, rfl, by decide⟩ (fun level => by rw [dumpsValue]; rfl)
  | .int _, plain => readsBack_int indent (by rw [Plain] at plain; exact plain)
  | .float .nan, _ => readsBack_word "NaN" (by simp [words]) ⟨'N', _, rfl, rfl, by decide⟩
      (fun level => by rw [dumpsValue]; rfl)
  | .float (.inf true), _ => readsBack_word "-Infinity" (by simp [words])
      ⟨'-', _, rfl, rfl, by decide⟩ (fun level => by rw [dumpsValue]; rfl)
  | .float (.inf false), _ => readsBack_word "Infinity" (by simp [words])
      ⟨'I', _, rfl, rfl, by decide⟩ (fun level => by rw [dumpsValue]; rfl)
  | .float (.finite negative _), plain =>
    readsBack_finite indent negative (by rw [Plain] at plain; exact plain)
  | .string text, _ => readsBack_string indent text
  | .array items, plain => readsBack_array indent (fun value member =>
      readsBack indent value (plain_of_mem_items (by rw [Plain] at plain; exact plain) value member))
  | .object entries, plain => readsBack_object indent (by rw [Plain] at plain; exact plain.1)
      (fun entry member => readsBack indent entry.2
        (plain_of_mem_entries (by rw [Plain] at plain; exact plain.2) entry member))
termination_by value => value
decreasing_by
  · have smaller := List.sizeOf_lt_of_mem member
    rw [JsonValue.array.sizeOf_spec]
    omega
  · have smaller := List.sizeOf_lt_of_mem member
    have part : sizeOf entry = 1 + sizeOf entry.1 + sizeOf entry.2 := Prod.mk.sizeOf_spec entry.1 entry.2
    rw [JsonValue.object.sizeOf_spec]
    omega

/-! ### The text as a whole -/

private theorem length_separator (indent : Option ℕ) (level : ℕ) :
    1 ≤ (itemSeparator indent level).length := by
  obtain ⟨blanks, separator, -⟩ := exists_separator indent level
  rw [separator]
  exact Nat.le_add_left 1 _

private theorem length_dumpsValue_pos (indent : Option ℕ) (level : ℕ) {value : JsonValue}
    (plain : Plain value) : 1 ≤ (dumpsValue indent level value).length := by
  obtain ⟨c, rest, starts, -⟩ := begins_dumpsValue indent level plain
  rw [starts]
  exact Nat.le_add_left 1 _

mutual

theorem steps_le_length (indent : Option ℕ) : ∀ (level : ℕ) (value : JsonValue), Plain value →
    steps value ≤ (dumpsValue indent level value).length
  | level, .null, plain => by rw [steps]; exact length_dumpsValue_pos indent level plain
  | level, .bool _, plain => by rw [steps]; exact length_dumpsValue_pos indent level plain
  | level, .int _, plain => by rw [steps]; exact length_dumpsValue_pos indent level plain
  | level, .float _, plain => by rw [steps]; exact length_dumpsValue_pos indent level plain
  | level, .string _, plain => by rw [steps]; exact length_dumpsValue_pos indent level plain
  | level, .array [], plain => by rw [steps, stepsItems]; exact length_dumpsValue_pos indent level plain
  | level, .array (item :: items), plain => by
    rw [Plain, PlainItems] at plain
    have first := steps_le_length indent (level + 1) item plain.1
    have others := stepsItems_le_length indent (level + 1) items plain.2
    rw [steps, stepsItems, dumpsValue]
    simp only [List.length_append, List.length_cons, List.length_nil]
    omega
  | level, .object [], plain => by
    rw [steps, stepsEntries]
    exact length_dumpsValue_pos indent level plain
  | level, .object ((key, value) :: entries), plain => by
    rw [Plain, PlainEntries] at plain
    have first := steps_le_length indent (level + 1) value plain.2.1
    have others := stepsEntries_le_length indent (level + 1) entries plain.2.2
    rw [steps, stepsEntries, dumpsValue]
    simp only [List.length_append, List.length_cons, List.length_nil]
    omega

theorem stepsItems_le_length (indent : Option ℕ) : ∀ (level : ℕ) (items : List JsonValue),
    PlainItems items → stepsItems items ≤ (dumpsItems indent level items).length
  | _, [], _ => by rw [stepsItems]; exact Nat.zero_le _
  | level, item :: items, plain => by
    rw [PlainItems] at plain
    have first := steps_le_length indent level item plain.1
    have others := stepsItems_le_length indent level items plain.2
    have separator := length_separator indent level
    rw [stepsItems, dumpsItems, List.length_append, List.length_append]
    omega

theorem stepsEntries_le_length (indent : Option ℕ) :
    ∀ (level : ℕ) (entries : List (String × JsonValue)),
      PlainEntries entries → stepsEntries entries ≤ (dumpsEntries indent level entries).length
  | _, [], _ => by rw [stepsEntries]; exact Nat.zero_le _
  | level, (key, value) :: entries, plain => by
    rw [PlainEntries] at plain
    have first := steps_le_length indent level value plain.1
    have others := stepsEntries_le_length indent level entries plain.2
    have separator := length_separator indent level
    rw [stepsEntries, dumpsEntries]
    simp only [List.length_append]
    omega

end

/-- `json.loads(json.dumps(value)) == value`, with or without indentation. -/
theorem loads_dumps (indent : Option ℕ) {value : JsonValue} (plain : Plain value) :
    loads (dumps indent value) = some value := by
  have enough := steps_le_length indent 0 value plain
  have reads := readsBack indent value plain
  have read := reads.reads 0 (Nat.le_succ_of_le enough) (show Stops [] by simp [Stops])
  rw [List.append_nil] at read
  rw [loads, dumps, String.toList_ofList]
  simp only [skipBlanks_begins (reads.begins 0), Option.bind_eq_bind]
  rw [read]
  rfl

/-! ### What the text is made of -/

def Printable (c : Char) : Prop := 0x20 ≤ c.toNat ∧ c.toNat ≤ 0x7E

/-- A character of a text: a line break stands only where the text is indented. -/
def Written (indent : Option ℕ) (c : Char) : Prop := Printable c ∨ indent.isSome ∧ c = '\n'

instance (c : Char) : Decidable (Printable c) := inferInstanceAs (Decidable (_ ∧ _))

private theorem printable_of_all {cs : List Char} (all : cs.all (fun c => decide (Printable c)) = true) :
    ∀ c ∈ cs, Printable c :=
  fun c member => of_decide_eq_true (List.all_eq_true.mp all c member)

private theorem printable_of_isDigit {c : Char} (digit : c.isDigit = true) : Printable c := by
  have range := toNat_of_isDigit digit
  exact ⟨by omega, by omega⟩

private theorem printable_unicodeEscape (n : ℕ) : ∀ c ∈ (unicodeEscape n).toList, Printable c := by
  have digit : ∀ k, Printable (Nat.digitChar (k % 16)) := by
    intro k
    have all : ∀ d < 16, Printable (Nat.digitChar d) := by decide
    exact all _ (Nat.mod_lt k (by decide))
  rw [unicodeEscape, String.toList_ofList]
  simp only [List.forall_mem_cons]
  exact ⟨by decide, by decide, digit _, digit _, digit _, digit _, by simp⟩

private theorem printable_escapeChar (c : Char) : ∀ d ∈ (escapeChar c).toList, Printable d := by
  unfold escapeChar
  split
  on_goal 8 =>
    dsimp only
    split_ifs with printable narrow
    · have alone : c.toString.toList = [c] := String.toList_singleton c
      rw [alone, List.forall_mem_singleton]
      exact printable
    · exact printable_unicodeEscape _
    · rw [String.toList_append, List.forall_mem_append]
      exact ⟨printable_unicodeEscape _, printable_unicodeEscape _⟩
  all_goals exact List.forall_mem_cons.mpr ⟨by decide, List.forall_mem_singleton.mpr (by decide)⟩

private theorem printable_dumpsString (text : String) :
    ∀ c ∈ (dumpsString text).toList, Printable c := by
  rw [toList_dumpsString, List.forall_mem_cons, List.forall_mem_append]
  refine ⟨by decide, ?_, List.forall_mem_singleton.mpr (by decide)⟩
  intro c member
  obtain ⟨d, -, escaped⟩ := List.mem_flatMap.mp member
  exact printable_escapeChar d c escaped

private theorem printable_literal {l : Literal} (sound : l.WellFormed) : ∀ c ∈ l.text, Printable c := by
  rw [Literal.text, List.forall_mem_append, List.forall_mem_append]
  refine ⟨⟨fun c member => printable_of_isDigit (sound.wholeDigits c member), ?_⟩, ?_⟩
  · unfold Literal.pointText
    split_ifs
    · simp
    · rw [List.forall_mem_cons]
      exact ⟨by decide, fun c member => printable_of_isDigit (sound.fractionDigits c member)⟩
  · unfold Literal.scaleText
    cases l.exponent with
    | none => simp
    | some e =>
      rw [Option.elim_some, exponentText, List.forall_mem_cons, List.forall_mem_cons]
      refine ⟨by decide, ?_, fun c member => printable_of_isDigit (exponentDigits_isDigit e c member)⟩
      split_ifs <;> decide

private theorem printable_signed (negative : Bool) {cs : List Char} (printable : ∀ c ∈ cs, Printable c) :
    ∀ c ∈ (if negative then ['-'] else []) ++ cs, Printable c := by
  rw [List.forall_mem_append]
  refine ⟨?_, printable⟩
  split_ifs
  · exact List.forall_mem_singleton.mpr (by decide)
  · simp

private theorem printable_scalar {value : JsonValue} (plain : Plain value) (indent : Option ℕ)
    (level : ℕ) (flat : (∀ items, value ≠ .array items) ∧ ∀ entries, value ≠ .object entries) :
    ∀ c ∈ dumpsValue indent level value, Printable c := by
  cases value with
  | null =>
    rw [dumpsValue]
    exact printable_of_all (by decide)
  | bool value => cases value <;> rw [dumpsValue] <;> exact printable_of_all (by decide)
  | int n =>
    rw [dumpsValue, toString_int_signed]
    exact printable_signed _ (fun c member => printable_of_isDigit (isDigit_of_mem_toString_nat member))
  | float x =>
    rw [dumpsValue]
    cases x with
    | nan => exact printable_of_all (by decide)
    | inf negative => cases negative <;> exact printable_of_all (by decide)
    | finite negative q =>
      rw [floatText_finite]
      rw [Plain] at plain
      have binary : IsBinary64 q := plain
      exact printable_signed _ (printable_literal (reprLiteral_reads binary negative).1)
  | string text =>
    rw [dumpsValue]
    exact printable_dumpsString text
  | array items => exact (flat.1 items rfl).elim
  | object entries => exact (flat.2 entries rfl).elim

private theorem written_lineBreak (indent : Option ℕ) (level : ℕ) :
    ∀ c ∈ lineBreak indent level, Written indent c := by
  cases indent with
  | none => simp [lineBreak]
  | some width =>
    rw [lineBreak, List.forall_mem_cons]
    refine ⟨Or.inr ⟨rfl, rfl⟩, fun c member => ?_⟩
    rw [List.eq_of_mem_replicate member]
    exact Or.inl (by decide)

private theorem written_separator (indent : Option ℕ) (level : ℕ) :
    ∀ c ∈ itemSeparator indent level, Written indent c := by
  cases indent with
  | none =>
    rw [itemSeparator, List.forall_mem_cons, List.forall_mem_singleton]
    exact ⟨Or.inl (by decide), Or.inl (by decide)⟩
  | some width =>
    rw [itemSeparator, List.forall_mem_cons]
    exact ⟨Or.inl (by decide), written_lineBreak _ _⟩

private theorem written_key {indent : Option ℕ} (key : String) :
    ∀ c ∈ (dumpsString key).toList, Written indent c :=
  fun c member => Or.inl (printable_dumpsString key c member)

mutual

theorem written_dumpsValue (indent : Option ℕ) : ∀ (level : ℕ) (value : JsonValue), Plain value →
    ∀ c ∈ dumpsValue indent level value, Written indent c
  | level, .null, plain => fun c member => Or.inl (printable_scalar plain indent level (by simp) c member)
  | level, .bool _, plain => fun c member =>
    Or.inl (printable_scalar plain indent level (by simp) c member)
  | level, .int _, plain => fun c member =>
    Or.inl (printable_scalar plain indent level (by simp) c member)
  | level, .float _, plain => fun c member =>
    Or.inl (printable_scalar plain indent level (by simp) c member)
  | level, .string _, plain => fun c member =>
    Or.inl (printable_scalar plain indent level (by simp) c member)
  | level, .array [], _ => by
    rw [dumpsValue]
    exact fun c member => Or.inl (printable_of_all (by decide) c member)
  | level, .array (item :: items), plain => by
    rw [Plain, PlainItems] at plain
    have first := written_dumpsValue indent (level + 1) item plain.1
    have others := written_dumpsItems indent (level + 1) items plain.2
    rw [dumpsValue]
    simp only [List.cons_append, List.forall_mem_cons, List.forall_mem_append]
    exact ⟨Or.inl (by decide), ⟨⟨⟨written_lineBreak _ _, first⟩, others⟩, written_lineBreak _ _⟩,
      Or.inl (by decide), by simp⟩
  | level, .object [], _ => by
    rw [dumpsValue, List.forall_mem_cons, List.forall_mem_singleton]
    exact ⟨Or.inl (by decide), Or.inl (by decide)⟩
  | level, .object ((key, value) :: entries), plain => by
    rw [Plain, PlainEntries] at plain
    have first := written_dumpsValue indent (level + 1) value plain.2.1
    have others := written_dumpsEntries indent (level + 1) entries plain.2.2
    rw [dumpsValue]
    simp only [List.cons_append, List.forall_mem_cons, List.forall_mem_append]
    exact ⟨Or.inl (by decide), ⟨⟨⟨⟨⟨written_lineBreak _ _, written_key key⟩, Or.inl (by decide),
      Or.inl (by decide), by simp⟩, first⟩, others⟩, written_lineBreak _ _⟩, Or.inl (by decide), by simp⟩

theorem written_dumpsItems (indent : Option ℕ) : ∀ (level : ℕ) (items : List JsonValue),
    PlainItems items → ∀ c ∈ dumpsItems indent level items, Written indent c
  | _, [], _ => by simp [dumpsItems]
  | level, item :: items, plain => by
    rw [PlainItems] at plain
    have first := written_dumpsValue indent level item plain.1
    have others := written_dumpsItems indent level items plain.2
    rw [dumpsItems, List.forall_mem_append, List.forall_mem_append]
    exact ⟨⟨written_separator indent level, first⟩, others⟩

theorem written_dumpsEntries (indent : Option ℕ) :
    ∀ (level : ℕ) (entries : List (String × JsonValue)),
      PlainEntries entries → ∀ c ∈ dumpsEntries indent level entries, Written indent c
  | _, [], _ => by simp [dumpsEntries]
  | level, (key, value) :: entries, plain => by
    rw [PlainEntries] at plain
    have first := written_dumpsValue indent level value plain.1
    have others := written_dumpsEntries indent level entries plain.2
    rw [dumpsEntries]
    simp only [List.forall_mem_cons, List.forall_mem_append]
    exact ⟨⟨⟨⟨written_separator indent level, written_key key⟩, Or.inl (by decide), Or.inl (by decide),
      by simp⟩, first⟩, others⟩

end

end JsonText

end MiniRedis.App
