/- GID: MiniRedis/App/JsonText
   generality: G
   digest: JSON values written as ASCII text and read again; strings, numbers and words come back. -/

import MiniRedis.App.RunConfig
import MiniRedis.Python.FloatRepr
import MiniRedis.Python.Json

set_option autoImplicit false
set_option relaxedAutoImplicit false

namespace MiniRedis.App

open MiniRedis.Base MiniRedis.Python

namespace JsonText

/-! ### `json.dumps` -/

/-- A line break and the indentation of a level, where the text is indented. -/
def lineBreak (indent : Option ℕ) (level : ℕ) : List Char :=
  match indent with
  | none => []
  | some width => '\n' :: List.replicate (width * level) ' '

def itemSeparator (indent : Option ℕ) (level : ℕ) : List Char :=
  match indent with
  | none => [',', ' ']
  | some _ => ',' :: lineBreak indent level

def floatText : PyFloat → List Char
  | .nan => "NaN".toList
  | .inf negative => if negative then "-Infinity".toList else "Infinity".toList
  | .finite negative q => (reprFloat (.finite negative q)).toList

mutual

/-- A value at some level of nesting, under `ensure_ascii=True`. -/
def dumpsValue (indent : Option ℕ) (level : ℕ) : JsonValue → List Char
  | .null => "null".toList
  | .bool value => if value then "true".toList else "false".toList
  | .int value => (toString value).toList
  | .float value => floatText value
  | .string value => (dumpsString value).toList
  | .array [] => "[]".toList
  | .array (item :: items) =>
    '[' :: lineBreak indent (level + 1) ++ dumpsValue indent (level + 1) item ++
      dumpsItems indent (level + 1) items ++ lineBreak indent level ++ [']']
  | .object [] => ['\x7b', '\x7d']
  | .object ((key, value) :: entries) =>
    '\x7b' :: lineBreak indent (level + 1) ++ (dumpsString key).toList ++ [':', ' '] ++
      dumpsValue indent (level + 1) value ++ dumpsEntries indent (level + 1) entries ++
      lineBreak indent level ++ ['\x7d']

def dumpsItems (indent : Option ℕ) (level : ℕ) : List JsonValue → List Char
  | [] => []
  | item :: items =>
    itemSeparator indent level ++ dumpsValue indent level item ++ dumpsItems indent level items

def dumpsEntries (indent : Option ℕ) (level : ℕ) : List (String × JsonValue) → List Char
  | [] => []
  | (key, value) :: entries =>
    itemSeparator indent level ++ (dumpsString key).toList ++ [':', ' '] ++
      dumpsValue indent level value ++ dumpsEntries indent level entries

end

/-- `json.dumps(value, ensure_ascii=True, indent=indent)`. -/
def dumps (indent : Option ℕ) (value : JsonValue) : String := String.ofList (dumpsValue indent 0 value)

/-! ### `json.loads` -/

def isBlank (c : Char) : Bool := c == ' ' || c == '\t' || c == '\n' || c == '\r'

def skipBlanks (cs : List Char) : List Char := cs.dropWhile isBlank

def hexValue (c : Char) : Option ℕ :=
  if c.isDigit then some (c.toNat - 48)
  else if 'a'.toNat ≤ c.toNat ∧ c.toNat ≤ 'f'.toNat then some (c.toNat - 87)
  else if 'A'.toNat ≤ c.toNat ∧ c.toNat ≤ 'F'.toNat then some (c.toNat - 55)
  else none

/-- The 16-bit unit of four hexadecimal digits. -/
def hexUnit (a b c d : Char) : Option ℕ := do
  return (((← hexValue a) * 16 + (← hexValue b)) * 16 + (← hexValue c)) * 16 + (← hexValue d)

/-- The character that a backslash and a letter other than `u` stand for. -/
def plainEscape : Char → Option Char
  | '"' => some '"'
  | '\\' => some '\\'
  | '/' => some '/'
  | 'b' => some '\x08'
  | 'f' => some '\x0c'
  | 'n' => some '\n'
  | 'r' => some '\r'
  | 't' => some '\t'
  | _ => none

def isHighSurrogate (n : ℕ) : Bool := 0xD800 ≤ n && n ≤ 0xDBFF

def isLowSurrogate (n : ℕ) : Bool := 0xDC00 ≤ n && n ≤ 0xDFFF

/-- The rest of a string after its opening quote; control characters are refused, and so is a
surrogate without its other half. -/
def loadString : List Char → Option (List Char × List Char)
  | [] => none
  | '"' :: cs => some ([], cs)
  | '\\' :: 'u' :: a :: b :: c :: d :: '\\' :: 'u' :: a' :: b' :: c' :: d' :: cs => do
    let unit ← hexUnit a b c d
    if isHighSurrogate unit then
      let unit' ← hexUnit a' b' c' d'
      if isLowSurrogate unit' then
        let (text, rest) ← loadString cs
        return (Char.ofNat (0x10000 + (unit - 0xD800) * 0x400 + (unit' - 0xDC00)) :: text, rest)
      else none
    else if isLowSurrogate unit then none
    else
      let (text, rest) ← loadString ('\\' :: 'u' :: a' :: b' :: c' :: d' :: cs)
      return (Char.ofNat unit :: text, rest)
  | '\\' :: 'u' :: a :: b :: c :: d :: cs => do
    let unit ← hexUnit a b c d
    if isHighSurrogate unit || isLowSurrogate unit then none
    else
      let (text, rest) ← loadString cs
      return (Char.ofNat unit :: text, rest)
  | '\\' :: c :: cs => do
    let plain ← plainEscape c
    let (text, rest) ← loadString cs
    return (plain :: text, rest)
  | c :: cs =>
    if c.toNat < 0x20 ∨ c = '\\' then none
    else (loadString cs).map (fun (text, rest) => (c :: text, rest))

/-- The digits after a point, if there are some. -/
def scanFraction (cs : List Char) : List Char × List Char :=
  match cs with
  | '.' :: rest =>
    match rest.span Char.isDigit with
    | ([], _) => ([], cs)
    | (digits, rest) => ('.' :: digits, rest)
  | _ => ([], cs)

/-- An exponent, if it has digits. -/
def scanExponent (cs : List Char) : List Char × List Char :=
  match cs with
  | mark :: rest =>
    if mark = 'e' ∨ mark = 'E' then
      let (sign, rest) := match rest with
        | '+' :: rest => (['+'], rest)
        | '-' :: rest => (['-'], rest)
        | rest => ([], rest)
      match rest.span Char.isDigit with
      | ([], _) => ([], cs)
      | (digits, rest) => (mark :: sign ++ digits, rest)
    else ([], cs)
  | [] => ([], cs)

/-- The digits before the point: a zero stands alone. -/
def scanWhole (cs : List Char) : Option (List Char × List Char) :=
  match cs with
  | '0' :: rest => some (['0'], rest)
  | c :: _ => if c.isDigit then some (cs.span Char.isDigit) else none
  | [] => none

/-- A number is a float where it has a fraction or an exponent. -/
def loadNumber (cs : List Char) : Option (JsonValue × List Char) := do
  let (sign, cs) := match cs with
    | '-' :: rest => (['-'], rest)
    | _ => ([], cs)
  let (whole, cs) ← scanWhole cs
  let (fraction, cs) := scanFraction cs
  let (exponent, cs) := scanExponent cs
  if fraction = [] ∧ exponent = [] then
    let n ← parseInt (String.ofList (sign ++ whole))
    return (.int n, cs)
  else
    let x ← parseFloat (String.ofList (sign ++ whole ++ fraction ++ exponent))
    return (.float x, cs)

/-- The values that are words. -/
def words : List (String × JsonValue) :=
  [("null", .null), ("true", .bool true), ("false", .bool false), ("NaN", .float .nan),
    ("Infinity", .float (.inf false)), ("-Infinity", .float (.inf true))]

def loadWord (cs : List Char) : Option (JsonValue × List Char) :=
  (words.find? (fun word => word.1.toList.isPrefixOf cs)).map
    (fun word => (word.2, cs.drop word.1.toList.length))

/-- A dictionary of pairs: the last value of a key, at the place of its first. -/
def ofPairs (pairs : List (String × JsonValue)) : JsonValue :=
  .object (pairs.foldl (fun d pair => d.set pair.1 pair.2) (Dict.empty (κ := String))).entries

mutual

/-- A value, which is not nested deeper than the fuel allows. -/
def loadValue : ℕ → List Char → Option (JsonValue × List Char)
  | 0, _ => none
  | fuel + 1, cs =>
    match cs with
    | '"' :: cs => (loadString cs).map (fun (text, rest) => (.string (String.ofList text), rest))
    | '[' :: cs =>
      match skipBlanks cs with
      | ']' :: rest => some (.array [], rest)
      | cs => (loadItems fuel cs).map (fun (items, rest) => (.array items, rest))
    | '\x7b' :: cs =>
      match skipBlanks cs with
      | '\x7d' :: rest => some (.object [], rest)
      | cs => (loadEntries fuel cs).map (fun (pairs, rest) => (ofPairs pairs, rest))
    | cs => (loadWord cs).or (loadNumber cs)

/-- The items up to the closing bracket. -/
def loadItems : ℕ → List Char → Option (List JsonValue × List Char)
  | 0, _ => none
  | fuel + 1, cs => do
    let (item, cs) ← loadValue fuel cs
    match skipBlanks cs with
    | ',' :: cs =>
      let (items, rest) ← loadItems fuel (skipBlanks cs)
      return (item :: items, rest)
    | ']' :: rest => return ([item], rest)
    | _ => none

/-- The pairs up to the closing brace. -/
def loadEntries : ℕ → List Char → Option (List (String × JsonValue) × List Char)
  | 0, _ => none
  | fuel + 1, cs =>
    match cs with
    | '"' :: cs => do
      let (key, cs) ← loadString cs
      match skipBlanks cs with
      | ':' :: cs =>
        let (value, cs) ← loadValue fuel (skipBlanks cs)
        match skipBlanks cs with
        | ',' :: cs =>
          let (pairs, rest) ← loadEntries fuel (skipBlanks cs)
          return ((String.ofList key, value) :: pairs, rest)
        | '\x7d' :: rest => return ([(String.ofList key, value)], rest)
        | _ => none
      | _ => none
    | _ => none

end

/-- `json.loads(text)`; `none` is the error of a text that is no JSON. -/
def loads (text : String) : Option JsonValue := do
  let cs := text.toList
  let (value, rest) ← loadValue (cs.length + 1) (skipBlanks cs)
  if skipBlanks rest = [] then some value else none

/-! ### Strings are read back -/

private theorem hexValue_digitChar {d : ℕ} (small : d < 16) : hexValue (Nat.digitChar d) = some d := by
  have all : ∀ d < 16, hexValue (Nat.digitChar d) = some d := by decide
  exact all d small

private theorem hexUnit_digits {n : ℕ} (small : n < 0x10000) :
    hexUnit (Nat.digitChar (n / 4096 % 16)) (Nat.digitChar (n / 256 % 16))
      (Nat.digitChar (n / 16 % 16)) (Nat.digitChar (n % 16)) = some n := by
  have digit : ∀ k, hexValue (Nat.digitChar (k % 16)) = some (k % 16) :=
    fun k => hexValue_digitChar (Nat.mod_lt k (by decide))
  simp only [hexUnit, digit, Option.bind_eq_bind, Option.bind_some, Option.pure_def]
  congr 1
  omega

private theorem loadString_unit {a b c d : Char} {n : ℕ} (unit : hexUnit a b c d = some n)
    (high : isHighSurrogate n = false) (low : isLowSurrogate n = false) (rest : List Char) :
    loadString ('\\' :: 'u' :: a :: b :: c :: d :: rest) =
      (loadString rest).map (fun p => (Char.ofNat n :: p.1, p.2)) := by
  rw [loadString.eq_def]
  split
  · rename_i h
    cases h
  · rename_i h
    cases h
  · rename_i h
    cases h
    simp [unit, high, low, Option.map_eq_bind]
  · rename_i h
    cases h
    simp [unit, high, low, Option.map_eq_bind]
  · rename_i none h
    cases h
    exact (none _ _ _ _ _ rfl rfl).elim
  · rename_i none h
    cases h
    exact (none _ _ rfl rfl).elim

private theorem loadString_pair {a b c d a' b' c' d' : Char} {n m : ℕ}
    (unit : hexUnit a b c d = some n) (unit' : hexUnit a' b' c' d' = some m)
    (high : isHighSurrogate n = true) (low : isLowSurrogate m = true) (rest : List Char) :
    loadString ('\\' :: 'u' :: a :: b :: c :: d :: '\\' :: 'u' :: a' :: b' :: c' :: d' :: rest) =
      (loadString rest).map (fun p =>
        (Char.ofNat (0x10000 + (n - 0xD800) * 0x400 + (m - 0xDC00)) :: p.1, p.2)) := by
  rw [loadString]
  simp [unit, unit', high, low, Option.map_eq_bind]

private theorem loadString_plain {c : Char} (printable : 0x20 ≤ c.toNat) (quote : c ≠ '"')
    (backslash : c ≠ '\\') (rest : List Char) :
    loadString (c :: rest) = (loadString rest).map (fun p => (c :: p.1, p.2)) := by
  rw [loadString.eq_def]
  split
  · rename_i h
    cases h
  · rename_i h
    cases h
    exact (quote rfl).elim
  · rename_i h
    cases h
    exact (backslash rfl).elim
  · rename_i h
    cases h
    exact (backslash rfl).elim
  · rename_i h
    cases h
    exact (backslash rfl).elim
  · rename_i h
    cases h
    rw [if_neg (not_or.mpr ⟨by omega, backslash⟩)]

private theorem not_surrogate (c : Char) :
    isHighSurrogate c.toNat = false ∧ isLowSurrogate c.toNat = false := by
  have valid : c.toNat < 0xD800 ∨ 0xDFFF < c.toNat ∧ c.toNat < 0x110000 := c.valid
  simp only [isHighSurrogate, isLowSurrogate, Bool.and_eq_false_iff, decide_eq_false_iff_not]
  omega

private theorem loadString_escapeChar (c : Char) (rest : List Char) :
    loadString ((escapeChar c).toList ++ rest) =
      (loadString rest).map (fun p => (c :: p.1, p.2)) := by
  have named : ∀ {d : Char}, plainEscape d = some c → d ≠ 'u' →
      loadString ('\\' :: d :: rest) = (loadString rest).map (fun p => (c :: p.1, p.2)) := by
    intro d plain other
    rw [loadString.eq_def]
    split
    · rename_i h
      cases h
    · rename_i h
      cases h
    · rename_i h
      cases h
      exact (other rfl).elim
    · rename_i h
      cases h
      exact (other rfl).elim
    · rename_i h
      cases h
      simp [plain, Option.map_eq_bind]
    · rename_i none h
      cases h
      exact (none _ _ rfl rfl).elim
  unfold escapeChar
  split
  · exact named (d := '"') rfl (by decide)
  · exact named (d := '\\') rfl (by decide)
  · exact named (d := 'n') rfl (by decide)
  · exact named (d := 'r') rfl (by decide)
  · exact named (d := 't') rfl (by decide)
  · exact named (d := 'f') rfl (by decide)
  · exact named (d := 'b') rfl (by decide)
  · rename_i quote backslash _ _ _ _ _
    dsimp only
    split_ifs with printable narrow
    · have alone : c.toString.toList = [c] := String.toList_singleton c
      rw [alone]
      exact loadString_plain printable.1 quote backslash rest
    · have valid := not_surrogate c
      have read := loadString_unit (hexUnit_digits narrow) valid.1 valid.2 rest
      rw [Char.ofNat_toNat] at read
      rw [unicodeEscape, String.toList_ofList]
      exact read
    · have valid : c.toNat < 0xD800 ∨ 0xDFFF < c.toNat ∧ c.toNat < 0x110000 := c.valid
      have read := loadString_pair (hexUnit_digits (n := 0xD800 + (c.toNat - 0x10000) / 0x400) (by omega))
        (hexUnit_digits (n := 0xDC00 + (c.toNat - 0x10000) % 0x400) (by omega))
        (by simp only [isHighSurrogate, Bool.and_eq_true, decide_eq_true_eq]; omega)
        (by simp only [isLowSurrogate, Bool.and_eq_true, decide_eq_true_eq]; omega) rest
      have whole : 0x10000 + (0xD800 + (c.toNat - 0x10000) / 0x400 - 0xD800) * 0x400 +
          (0xDC00 + (c.toNat - 0x10000) % 0x400 - 0xDC00) = c.toNat := by omega
      rw [whole, Char.ofNat_toNat] at read
      rw [String.toList_append, unicodeEscape, unicodeEscape, String.toList_ofList,
        String.toList_ofList, List.append_assoc]
      exact read

theorem toList_dumpsString (s : String) :
    (dumpsString s).toList = '"' :: (s.toList.flatMap (fun c => (escapeChar c).toList) ++ ['"']) := by
  rw [dumpsString, String.toList_append, String.toList_append, String.toList_join, List.flatMap_map]
  rfl

theorem loadString_dumpsString (s : String) (rest : List Char) :
    loadString (s.toList.flatMap (fun c => (escapeChar c).toList) ++ '"' :: rest) =
      some (s.toList, rest) := by
  generalize s.toList = cs
  induction cs with
  | nil => rw [List.flatMap_nil, List.nil_append, loadString]
  | cons c cs ih => rw [List.flatMap_cons, List.append_assoc, loadString_escapeChar, ih, Option.map_some]

/-! ### Numbers are read back -/

/-- What follows a value does not go on with a number. -/
def Stops (rest : List Char) : Prop :=
  ∀ c ∈ rest.head?, c.isDigit = false ∧ c ≠ '.' ∧ c ≠ 'e' ∧ c ≠ 'E'

private theorem span_digits {digits rest : List Char} (all : ∀ c ∈ digits, c.isDigit = true)
    (stop : ∀ c ∈ rest.head?, c.isDigit = false) :
    (digits ++ rest).span Char.isDigit = (digits, rest) := span_append all stop

private theorem scanWhole_append {whole rest : List Char} (digits : ∀ c ∈ whole, c.isDigit = true)
    (leading : whole = ['0'] ∨ ∃ c cs, whole = c :: cs ∧ c ≠ '0')
    (stop : ∀ c ∈ rest.head?, c.isDigit = false) : scanWhole (whole ++ rest) = some (whole, rest) := by
  rcases leading with rfl | ⟨c, cs, rfl, other⟩
  · rfl
  · have digit := digits c List.mem_cons_self
    have split := span_digits digits stop
    rw [List.cons_append] at split ⊢
    unfold scanWhole
    split
    · rename_i same
      exact (other (List.cons.inj same).1).elim
    · rename_i c' _ _ same
      obtain ⟨rfl, -⟩ := List.cons.inj same
      rw [if_pos digit, split]
    · rename_i same
      cases same

private theorem scanFraction_append {l : Literal} {rest : List Char}
    (digits : ∀ c ∈ l.fraction, c.isDigit = true)
    (stop : ∀ c ∈ rest.head?, c.isDigit = false ∧ c ≠ '.') :
    scanFraction (l.pointText ++ rest) = (l.pointText, rest) := by
  unfold Literal.pointText
  split_ifs with empty
  · unfold scanFraction
    rw [List.nil_append]
    split
    · exact ((stop '.' rfl).2 rfl).elim
    · rfl
  · have split := span_digits digits (fun c first => (stop c first).1)
    obtain ⟨c, cs, starts⟩ := List.exists_cons_of_ne_nil empty
    rw [starts] at split ⊢
    rw [List.cons_append, scanFraction, split]

private theorem scanExponent_append {l : Literal} {rest : List Char}
    (stop : ∀ c ∈ rest.head?, c.isDigit = false ∧ c ≠ 'e' ∧ c ≠ 'E') :
    scanExponent (l.scaleText ++ rest) = (l.scaleText, rest) := by
  unfold Literal.scaleText
  cases l.exponent with
  | none =>
    rw [Option.elim_none, List.nil_append]
    unfold scanExponent
    split
    · rename_i mark _
      have other := stop mark rfl
      rw [if_neg (not_or.mpr other.2)]
    · rfl
  | some e =>
    have digits := exponentDigits_isDigit e
    have nonempty : (if (toString e.natAbs).length < 2 then ['0'] else []) ++
        (toString e.natAbs).toList ≠ [] := by
      rw [toString_nat_toList]
      exact List.append_ne_nil_of_right_ne_nil _ Nat.toDigits_ne_nil
    rw [Option.elim_some, exponentText]
    generalize (if (toString e.natAbs).length < 2 then ['0'] else []) ++ (toString e.natAbs).toList =
      ds at digits nonempty
    have split := span_digits digits (fun c first => (stop c first).1)
    obtain ⟨c, cs, starts⟩ := List.exists_cons_of_ne_nil nonempty
    rw [starts] at split ⊢
    by_cases negative : e < 0
    · simp only [negative, if_true, List.cons_append, scanExponent, true_or]
      rw [← List.cons_append, split]
      rfl
    · simp only [negative, if_false, List.cons_append, scanExponent, true_or, if_true]
      rw [← List.cons_append, split]
      rfl

private theorem loadNumber_parts (negative : Bool)
    {cs cs' cs'' rest whole fraction exponent : List Char} (unsigned : ∀ c ∈ cs.head?, c ≠ '-')
    (wholes : scanWhole cs = some (whole, cs')) (fractions : scanFraction cs' = (fraction, cs''))
    (exponents : scanExponent cs'' = (exponent, rest)) :
    loadNumber ((if negative then ['-'] else []) ++ cs) =
      if fraction = [] ∧ exponent = [] then
        (parseInt (String.ofList ((if negative then ['-'] else []) ++ whole))).map
          (fun n => (.int n, rest))
      else
        (parseFloat (String.ofList ((if negative then ['-'] else []) ++ whole ++ fraction ++
          exponent))).map (fun x => (.float x, rest)) := by
  have split : (match (if negative then ['-'] else []) ++ cs with
      | '-' :: rest => (['-'], rest)
      | _ => ([], (if negative then ['-'] else []) ++ cs)) =
      ((if negative then ['-'] else []), cs) := by
    cases negative with
    | true => rfl
    | false =>
      simp only [Bool.false_eq_true, if_false, List.nil_append]
      split
      · exact (unsigned '-' rfl rfl).elim
      · rfl
  unfold loadNumber
  rw [split]
  simp only [wholes, fractions, exponents, Option.bind_eq_bind, Option.bind_some, Option.pure_def,
    Option.map_eq_bind]
  rfl

private theorem ne_minus_of_isDigit {c : Char} (digit : c.isDigit = true) : c ≠ '-' := by
  rintro rfl
  exact absurd digit (by decide)

theorem loadNumber_literal {l : Literal} (sound : l.WellFormed) (negative : Bool) {rest : List Char}
    (stops : Stops rest) :
    loadNumber ((if negative then ['-'] else []) ++ l.text ++ rest) =
      some (.float (roundBinary64 negative l.value), rest) := by
  have point : ∀ c ∈ (l.scaleText ++ rest).head?, c.isDigit = false ∧ c ≠ '.' := by
    intro c first
    unfold Literal.scaleText at first
    cases exponent : l.exponent with
    | none =>
      rw [exponent] at first
      exact ⟨(stops c first).1, (stops c first).2.1⟩
    | some e =>
      rw [exponent] at first
      cases first
      decide
  have whole : ∀ c ∈ (l.pointText ++ (l.scaleText ++ rest)).head?, c.isDigit = false := by
    intro c first
    unfold Literal.pointText at first
    split_ifs at first
    · exact (point c first).1
    · cases first
      rfl
  have unsigned : ∀ c ∈ (l.whole ++ (l.pointText ++ (l.scaleText ++ rest))).head?, c ≠ '-' := by
    intro c first
    obtain ⟨d, ds, starts⟩ := List.exists_cons_of_ne_nil sound.whole_ne_nil
    rw [starts] at first
    cases first
    exact ne_minus_of_isDigit (sound.wholeDigits c (by rw [starts]; exact List.mem_cons_self))
  have marked : ¬ (l.pointText = [] ∧ l.scaleText = []) := by
    rintro ⟨noPoint, noScale⟩
    unfold Literal.pointText at noPoint
    unfold Literal.scaleText at noScale
    rcases sound.marked with fraction | exponent
    · rw [if_neg fraction] at noPoint
      cases noPoint
    · obtain ⟨e, same⟩ := Option.ne_none_iff_exists'.mp exponent
      rw [same] at noScale
      cases noScale
  have read := loadNumber_parts negative unsigned
    (scanWhole_append sound.wholeDigits sound.leading whole)
    (scanFraction_append sound.fractionDigits point)
    (scanExponent_append (fun c first => ⟨(stops c first).1, (stops c first).2.2⟩))
  have joined : (if negative then ['-'] else []) ++ l.whole ++ l.pointText ++ l.scaleText =
      (if negative then ['-'] else []) ++ l.text := by
    simp only [Literal.text, List.append_assoc]
  rw [if_neg marked, joined, Literal.parseFloat_text sound, Option.map_some] at read
  rw [← read]
  simp only [Literal.text, List.append_assoc]

private theorem leading_toString (n : ℕ) :
    (toString n).toList = ['0'] ∨ ∃ c cs, (toString n).toList = c :: cs ∧ c ≠ '0' := by
  rcases eq_or_ne n 0 with rfl | nonzero
  · exact Or.inl rfl
  · obtain ⟨c, cs, starts⟩ := List.exists_cons_of_ne_nil
      (show (toString n).toList ≠ [] by rw [toString_nat_toList]; exact Nat.toDigits_ne_nil)
    exact Or.inr ⟨c, cs, starts, head_toString_ne nonzero starts⟩

theorem toString_int_signed (n : ℤ) :
    (toString n).toList = (if decide (n < 0) then ['-'] else []) ++ (toString n.natAbs).toList := by
  rw [toString_int_toList, toString_nat_toList]
  simp only [decide_eq_true_eq]

theorem loadNumber_int {n : ℤ} (small : n.natAbs < readableBound) {rest : List Char}
    (stops : Stops rest) : loadNumber ((toString n).toList ++ rest) = some (.int n, rest) := by
  have digits : ∀ c ∈ (toString n.natAbs).toList, c.isDigit = true :=
    fun c => isDigit_of_mem_toString_nat
  have unsigned : ∀ c ∈ ((toString n.natAbs).toList ++ rest).head?, c ≠ '-' := by
    intro c first
    obtain ⟨d, ds, starts⟩ := List.exists_cons_of_ne_nil
      (show (toString n.natAbs).toList ≠ [] by rw [toString_nat_toList]; exact Nat.toDigits_ne_nil)
    rw [starts] at first digits
    cases first
    exact ne_minus_of_isDigit (digits c List.mem_cons_self)
  have plain : scanFraction rest = ([], rest) ∧ scanExponent rest = ([], rest) := by
    exact ⟨scanFraction_append (l := ⟨[], [], none⟩) (by simp)
        (fun c first => ⟨(stops c first).1, (stops c first).2.1⟩),
      scanExponent_append (l := ⟨[], [], none⟩)
        (fun c first => ⟨(stops c first).1, (stops c first).2.2⟩)⟩
  have read := loadNumber_parts (decide (n < 0)) unsigned
    (scanWhole_append digits (leading_toString n.natAbs) (fun c first => (stops c first).1))
    plain.1 plain.2
  have none : ([] : List Char) = [] ∧ ([] : List Char) = [] := ⟨rfl, rfl⟩
  rw [if_pos none, ← toString_int_signed, String.ofList_toList, parseInt_toString small,
    Option.map_some, ← List.append_assoc, ← toString_int_signed] at read
  exact read

/-! ### Words are read back -/

theorem loadWord_append {word : String × JsonValue} (listed : word ∈ words) (rest : List Char) :
    loadWord (word.1.toList ++ rest) = some (word.2, rest) := by
  simp only [words, List.mem_cons, List.not_mem_nil, or_false] at listed
  rcases listed with rfl | rfl | rfl | rfl | rfl | rfl <;> rfl

private theorem words_start {word : String × JsonValue} (listed : word ∈ words) :
    ∃ c d ws, word.1.toList = c :: d :: ws ∧ c.isDigit = false ∧ (c = '-' → d.isDigit = false) := by
  simp only [words, List.mem_cons, List.not_mem_nil, or_false] at listed
  rcases listed with rfl | rfl | rfl | rfl | rfl | rfl
  all_goals exact ⟨_, _, _, rfl, by decide, by decide⟩

theorem loadWord_signed (negative : Bool) {c : Char} (digit : c.isDigit = true)
    (cs : List Char) : loadWord ((if negative then ['-'] else []) ++ c :: cs) = none := by
  have unfound : words.find? (fun word =>
      word.1.toList.isPrefixOf ((if negative then ['-'] else []) ++ c :: cs)) = none := by
    rw [List.find?_eq_none]
    intro word listed starts
    obtain ⟨w, w', ws, spelled, letter, letter'⟩ := words_start listed
    rw [spelled, List.isPrefixOf_iff_prefix] at starts
    cases negative with
    | true =>
      obtain ⟨first, later⟩ := List.cons_prefix_cons.mp starts
      obtain ⟨second, -⟩ := List.cons_prefix_cons.mp later
      rw [← second, letter' first] at digit
      cases digit
    | false =>
      obtain ⟨first, -⟩ := List.cons_prefix_cons.mp starts
      rw [← first, letter] at digit
      cases digit
  rw [loadWord, unfound, Option.map_none]

end JsonText

end MiniRedis.App
