/- GID: MiniRedis/Python/FloatRepr
   generality: G
   digest: The shortest text of a float is read back as this float. -/

import MiniRedis.Python.Binary64
import MiniRedis.Python.FloatText

set_option autoImplicit false
set_option relaxedAutoImplicit false

namespace MiniRedis.Python

/-! ### Literals -/

/-- The parts of an unsigned decimal literal. -/
structure Literal where
  whole : List Char
  fraction : List Char
  exponent : Option ℤ

/-- An exponent has a sign and two digits at least. -/
def exponentText (e : ℤ) : List Char :=
  'e' :: (if e < 0 then '-' else '+') ::
    ((if (toString e.natAbs).length < 2 then ['0'] else []) ++ (toString e.natAbs).toList)

namespace Literal

def pointText (l : Literal) : List Char := if l.fraction = [] then [] else '.' :: l.fraction

def scaleText (l : Literal) : List Char := l.exponent.elim [] exponentText

def text (l : Literal) : List Char := l.whole ++ l.pointText ++ l.scaleText

def value (l : Literal) : ℚ≥0 :=
  (ofDigits (digitValues (l.whole ++ l.fraction)) : ℚ≥0) *
    ((10 : ℕ) : ℚ≥0) ^ (l.exponent.getD 0 - l.fraction.length)

/-- A literal of a float: without a needless zero in front, and told from an integer. -/
structure WellFormed (l : Literal) : Prop where
  wholeDigits : ∀ c ∈ l.whole, c.isDigit = true
  fractionDigits : ∀ c ∈ l.fraction, c.isDigit = true
  leading : l.whole = ['0'] ∨ ∃ c cs, l.whole = c :: cs ∧ c ≠ '0'
  marked : l.fraction ≠ [] ∨ l.exponent ≠ none

end Literal

/-! ### `float.__repr__` -/

/-- The decimals of some significant digits around a magnitude, in units of their last place; the
nearest comes first. -/
def nearestDecimals (digits : ℕ) (q : ℚ≥0) : List ℕ :=
  let d := roundHalfEven (q / decimalUnit digits q)
  [d, if d * decimalUnit digits q ≤ q then d + 1 else d - 1]

/-- The first decimal that is read as the magnitude again, and the exponent of its last place. -/
def shortestDecimal (q : ℚ≥0) : ℕ × ℤ :=
  ((List.range' 1 17).findSome? fun digits =>
    ((nearestDecimals digits q).find? fun d : ℕ =>
      roundBinary64 false (d * decimalUnit digits q) = .finite false q).map
        fun d => (d, Int.log 10 q + 1 - digits)).getD (0, 0)

/-- A number near one is written without an exponent, and always with a point. -/
def reprLiteral (q : ℚ≥0) : Literal :=
  if q = 0 then ⟨['0'], ['0'], none⟩
  else
    let (d, k) := shortestDecimal q
    let ds := dropTrailingZeros (toString d).toList
    let e := k + (toString d).toList.length - 1
    if -4 ≤ e ∧ e < 16 then
      if e < 0 then ⟨['0'], List.replicate ((-e).toNat - 1) '0' ++ ds, none⟩
      else if ds.length ≤ e.toNat + 1 then
        ⟨ds ++ List.replicate (e.toNat + 1 - ds.length) '0', ['0'], none⟩
      else ⟨ds.take (e.toNat + 1), ds.drop (e.toNat + 1), none⟩
    else ⟨ds.take 1, ds.drop 1, some e⟩

def reprFloat : PyFloat → String
  | .nan => "nan"
  | .inf negative => if negative then "-inf" else "inf"
  | .finite negative q => String.ofList ((if negative then ['-'] else []) ++ (reprLiteral q).text)

/-! ### Reading a literal -/

namespace Literal

theorem WellFormed.whole_ne_nil {l : Literal} (sound : l.WellFormed) : l.whole ≠ [] := by
  rcases sound.leading with zero | ⟨c, cs, split, -⟩
  · rw [zero]
    exact List.cons_ne_nil _ _
  · rw [split]
    exact List.cons_ne_nil _ _

private theorem exponentText_scaleText (l : Literal) :
    ExponentText l.scaleText (l.exponent.getD 0) := by
  unfold scaleText
  cases l.exponent with
  | none => exact Or.inl ⟨rfl, rfl⟩
  | some e => exact Or.inr ⟨_, rfl, readExponent_formatted e⟩

private theorem unmarked {l : Literal} (sound : l.WellFormed) :
    ∀ c ∈ l.whole ++ l.pointText, (!(c == 'e' || c == 'E')) = true := by
  have digit : ∀ c : Char, c.isDigit = true → (!(c == 'e' || c == 'E')) = true := by
    intro c digit
    rw [Bool.not_eq_true', Bool.or_eq_false_iff, beq_eq_false_iff_ne, beq_eq_false_iff_ne]
    constructor <;> rintro rfl <;> exact absurd digit (by decide)
  intro c member
  rcases List.mem_append.mp member with member | member
  · exact digit c (sound.wholeDigits c member)
  · unfold pointText at member
    split_ifs at member
    · cases member
    · rcases List.mem_cons.mp member with rfl | member
      · rfl
      · exact digit c (sound.fractionDigits c member)

theorem readDecimal_text {l : Literal} (sound : l.WellFormed) : readDecimal l.text = some l.value := by
  have mantissa : l.text.span (fun c => !(c == 'e' || c == 'E')) =
      (l.whole ++ l.pointText, l.scaleText) := by
    apply span_append (unmarked sound)
    intro c first
    rcases exponentText_scaleText l with ⟨empty, -⟩ | ⟨ds, split, -⟩
    · rw [empty] at first
      cases first
    · rw [split] at first
      cases first
      rfl
  have parts : (l.whole ++ l.pointText).span (· != '.') = (l.whole, l.pointText) := by
    apply span_append
    · intro c member
      rw [bne_iff_ne]
      rintro rfl
      exact absurd (sound.wholeDigits _ member) (by decide)
    · intro c first
      unfold pointText at first
      split_ifs at first
      · cases first
      · cases first
        rfl
  have fraction : l.pointText = [] ∧ l.fraction = [] ∨ l.pointText = '.' :: l.fraction := by
    unfold pointText
    split_ifs with empty
    · exact Or.inl ⟨rfl, empty⟩
    · exact Or.inr rfl
  have assembled : ((readOptionalDigits l.fraction).bind fun fs =>
      (some (l.exponent.getD 0)).map fun e : ℤ =>
        (ofDigits (digitValues l.whole ++ fs) : ℚ≥0) * 10 ^ (e - fs.length)) = some l.value := by
    rw [readOptionalDigits_of_isDigit sound.fractionDigits, Option.bind_some, Option.map_some,
      ← digitValues_append, length_digitValues, value, Nat.cast_ofNat]
  unfold readDecimal
  simp only [mantissa, parts, readOptionalDigits_of_isDigit sound.wholeDigits, Option.bind_some]
  rw [if_neg (fun empty => sound.whole_ne_nil empty.1)]
  rcases exponentText_scaleText l with ⟨unscaled, exponent⟩ | ⟨ds, split, exponent⟩
  · rw [exponent] at assembled
    rw [unscaled]
    rcases fraction with ⟨point, empty⟩ | point
    · rw [empty] at assembled
      rw [point]
      exact assembled
    · rw [point]
      exact assembled
  · rw [← exponent] at assembled
    rw [split]
    rcases fraction with ⟨point, empty⟩ | point
    · rw [empty] at assembled
      rw [point]
      exact assembled
    · rw [point]
      exact assembled

theorem exists_head {l : Literal} (sound : l.WellFormed) :
    ∃ c rest, l.text = c :: rest ∧ c.isDigit = true := by
  obtain ⟨c, cs, split⟩ := List.exists_cons_of_ne_nil sound.whole_ne_nil
  refine ⟨c, cs ++ l.pointText ++ l.scaleText, ?_, sound.wholeDigits c (by rw [split]; simp)⟩
  rw [text, split]
  rfl

private theorem text_unblank {l : Literal} (sound : l.WellFormed) :
    ∀ c ∈ l.text, isNumericBlank c = false := by
  intro c member
  rcases List.mem_append.mp member with member | member
  · rcases List.mem_append.mp member with member | member
    · exact isNumericBlank_of_isDigit (sound.wholeDigits c member)
    · unfold pointText at member
      split_ifs at member
      · cases member
      · rcases List.mem_cons.mp member with rfl | member
        · decide
        · exact isNumericBlank_of_isDigit (sound.fractionDigits c member)
  · unfold scaleText at member
    cases exponent : l.exponent with
    | none =>
      rw [exponent] at member
      cases member
    | some e =>
      rw [exponent] at member
      rcases List.mem_cons.mp member with rfl | member
      · decide
      · rcases List.mem_cons.mp member with rfl | member
        · split_ifs <;> decide
        · exact isNumericBlank_of_isDigit (exponentDigits_isDigit e c member)

theorem parseFloat_text {l : Literal} (sound : l.WellFormed) (negative : Bool) :
    parseFloat (String.ofList ((if negative then ['-'] else []) ++ l.text)) =
      some (roundBinary64 negative l.value) := by
  obtain ⟨c, later, starts, digit⟩ := exists_head sound
  have unblank : ∀ c ∈ (if negative then ['-'] else []) ++ l.text, isNumericBlank c = false := by
    intro c member
    rcases List.mem_append.mp member with sign | member
    · split_ifs at sign
      · rw [List.mem_singleton.mp sign]
        decide
      · cases sign
    · exact text_unblank sound c member
  have sign : readSign (stripChars isNumericBlank
      (String.ofList ((if negative then ['-'] else []) ++ l.text)).toList) = (negative, l.text) := by
    rw [String.toList_ofList, stripChars_of_not unblank]
    cases negative with
    | true => rfl
    | false =>
      rw [starts]
      have other : c ≠ '+' ∧ c ≠ '-' := by
        constructor <;> rintro rfl <;> exact absurd digit (by decide)
      simp [readSign, other]
  have words : ∀ word : String, (word.toList.head?.any Char.isDigit) = false →
      String.ofList (l.text.map Char.toLower) ≠ word := by
    intro word letter
    rw [starts]
    exact word_ne_of_isDigit digit later letter
  unfold parseFloat
  rw [sign]
  dsimp only
  rw [if_neg (not_or.mpr ⟨words _ (by decide), words _ (by decide)⟩), if_neg (words _ (by decide)),
    readDecimal_text sound, Option.map_some]

end Literal

/-! ### The shortest decimal -/

theorem roundBinary64_finite_iff {q r : ℚ≥0} (negative : Bool) :
    roundBinary64 negative q = .finite negative r ↔ roundBinary64 false q = .finite false r := by
  unfold roundBinary64
  dsimp only
  split_ifs <;> simp

private theorem shortestDecimal_accepted {q : ℚ≥0} (exact : IsBinary64 q) (nonzero : q ≠ 0) :
    roundBinary64 false ((shortestDecimal q).1 * ((10 : ℕ) : ℚ≥0) ^ (shortestDecimal q).2) =
      .finite false q := by
  unfold shortestDecimal
  generalize tried : (fun digits : ℕ => ((nearestDecimals digits q).find? fun d : ℕ =>
    decide (roundBinary64 false (d * decimalUnit digits q) = .finite false q)).map
      fun d => (d, Int.log 10 q + 1 - (digits : ℤ))) = try_digits
  cases found : (List.range' 1 17).findSome? try_digits with
  | none =>
    exfalso
    have last := List.findSome?_eq_none_iff.mp found 17 (by decide)
    subst tried
    rw [Option.map_eq_none_iff, List.find?_eq_none] at last
    apply last (roundHalfEven (q / decimalUnit 17 q)) (by simp [nearestDecimals])
    rw [decide_eq_true_iff]
    exact exact.seventeen_digits false nonzero
  | some decimal =>
    obtain ⟨digits, -, accepted⟩ := List.exists_of_findSome?_eq_some found
    subst tried
    obtain ⟨d, chosen, rfl⟩ := Option.map_eq_some_iff.mp accepted
    have reads := List.find?_some chosen
    exact of_decide_eq_true reads

private theorem shortestDecimal_ne_zero {q : ℚ≥0} (exact : IsBinary64 q) (nonzero : q ≠ 0) :
    (shortestDecimal q).1 ≠ 0 := by
  intro zero
  have accepted := shortestDecimal_accepted exact nonzero
  rw [zero, Nat.cast_zero, zero_mul, roundBinary64, if_pos rfl] at accepted
  injection accepted with _ same
  exact nonzero same.symm

/-! ### The digits of a decimal -/

private theorem ofDigits_lt {cs : List Char} (digits : ∀ c ∈ cs, c.isDigit = true) :
    ofDigits (digitValues cs) < 10 ^ cs.length := by
  induction cs with
  | nil => exact Nat.one_pos
  | cons c cs ih =>
    have small := toNat_of_isDigit (digits c List.mem_cons_self)
    have rest := ih (fun d member => digits d (List.mem_cons_of_mem c member))
    have first : ofDigits (digitValues [c]) = c.toNat - 48 := by simp [ofDigits, digitValues]
    have split : digitValues (c :: cs) = digitValues [c] ++ digitValues cs := rfl
    rw [split, ofDigits_append, first, length_digitValues, List.length_cons, Nat.pow_succ]
    have most : (c.toNat - 48) * 10 ^ cs.length ≤ 9 * 10 ^ cs.length :=
      Nat.mul_le_mul_right _ (by omega)
    omega

private theorem ofDigits_toString (d : ℕ) : ofDigits (digitValues (toString d).toList) = d := by
  rw [toString_nat_toList, digitValues, ofDigits_map, Nat.ofDigitChars_ten_toDigits]

theorem head_toString_ne {d : ℕ} (nonzero : d ≠ 0) {c : Char} {cs : List Char}
    (starts : (toString d).toList = c :: cs) : c ≠ '0' := by
  rintro rfl
  have digits : ∀ c ∈ cs, c.isDigit = true := fun c member =>
    isDigit_of_mem_toString_nat (by rw [starts]; exact List.mem_cons_of_mem _ member)
  have value := ofDigits_toString d
  have split : digitValues ('0' :: cs) = List.replicate 1 0 ++ digitValues cs := rfl
  rw [starts, split, ofDigits_append, ofDigits_replicate_zero, Nat.zero_mul, Nat.zero_add] at value
  have small := ofDigits_lt digits
  rw [value] at small
  rcases Nat.eq_zero_or_pos cs.length with none | some
  · rw [none] at small
    omega
  · have short := (Nat.length_toDigits_le_iff (b := 10) (by decide) some).mpr small
    rw [← toString_nat_toList, starts, List.length_cons] at short
    omega

private theorem exists_digits {d : ℕ} (nonzero : d ≠ 0) : ∃ zeros,
    (toString d).toList.length = (dropTrailingZeros (toString d).toList).length + zeros ∧
      ofDigits (digitValues (dropTrailingZeros (toString d).toList)) * 10 ^ zeros = d ∧
      (∀ c ∈ dropTrailingZeros (toString d).toList, c.isDigit = true) ∧
      ∃ c cs, dropTrailingZeros (toString d).toList = c :: cs ∧ c ≠ '0' := by
  obtain ⟨zeros, split⟩ := dropTrailingZeros_spec (toString d).toList
  have value := ofDigits_toString d
  generalize dropTrailingZeros (toString d).toList = ds at split
  have last : digitValues (List.replicate zeros '0') = List.replicate zeros 0 := List.map_replicate
  rw [split, digitValues_append, last, ofDigits_append, ofDigits_replicate_zero, Nat.add_zero,
    List.length_replicate] at value
  refine ⟨zeros, ?_, value, ?_, ?_⟩
  · rw [split, List.length_append, List.length_replicate]
  · intro c member
    apply isDigit_of_mem_toString_nat (n := d)
    rw [split]
    exact List.mem_append_left _ member
  · cases ds with
    | nil => exact (nonzero (by rw [← value]; exact Nat.zero_mul _)).elim
    | cons c cs => exact ⟨c, cs, rfl, head_toString_ne nonzero (split.trans rfl)⟩

private theorem cast_mul_pow (n p : ℕ) (k : ℤ) :
    ((n * 10 ^ p : ℕ) : ℚ≥0) * ((10 : ℕ) : ℚ≥0) ^ k = n * ((10 : ℕ) : ℚ≥0) ^ (p + k) := by
  rw [zpow_add₀ (Nat.cast_ne_zero.mpr (by decide)), zpow_natCast, Nat.cast_mul, Nat.cast_pow,
    mul_assoc]

/-! ### Reading a float back -/

private theorem reprLiteral_spec {q : ℚ≥0} (exact : IsBinary64 q) (nonzero : q ≠ 0) :
    (reprLiteral q).WellFormed ∧ (reprLiteral q).value =
      (shortestDecimal q).1 * ((10 : ℕ) : ℚ≥0) ^ (shortestDecimal q).2 := by
  have nonzero' := shortestDecimal_ne_zero exact nonzero
  unfold reprLiteral
  rw [if_neg nonzero]
  rcases pair : shortestDecimal q with ⟨d, k⟩
  rw [pair] at nonzero'
  dsimp only at nonzero' ⊢
  obtain ⟨zeros, length, value, digits, leading⟩ := exists_digits nonzero'
  rw [length]
  generalize dropTrailingZeros (toString d).toList = ds at length value digits leading
  rw [← value]
  have nonempty : 0 < ds.length := by
    obtain ⟨c, cs, rfl, -⟩ := leading
    exact Nat.succ_pos _
  have zero : ∀ n, ∀ c ∈ List.replicate n '0', c.isDigit = true := by
    intro n c member
    rw [List.eq_of_mem_replicate member]
    decide
  have grouped : ∀ {whole fraction : List Char} {exponent : Option ℤ} {n : ℕ},
      ofDigits (digitValues (whole ++ fraction)) = ofDigits (digitValues ds) * 10 ^ n →
      (n : ℤ) + (exponent.getD 0 - fraction.length) = zeros + k →
      Literal.value ⟨whole, fraction, exponent⟩ =
        ((ofDigits (digitValues ds) * 10 ^ zeros : ℕ) : ℚ≥0) * ((10 : ℕ) : ℚ≥0) ^ k := by
    intro whole fraction exponent n same scale
    rw [Literal.value, same, cast_mul_pow, cast_mul_pow, scale]
  split_ifs with near small short
  · refine ⟨⟨by simp, ?_, Or.inl rfl, Or.inl ?_⟩, grouped (n := 0) ?_ ?_⟩
    · intro c member
      exact (List.mem_append.mp member).elim (zero _ c) (digits c)
    · exact List.append_ne_nil_of_right_ne_nil _ (List.length_pos_iff.mp nonempty)
    · have zeros_first : digitValues ('0' :: List.replicate ((-(k + (ds.length + zeros : ℕ) - 1)).toNat - 1) '0') =
          List.replicate ((-(k + (ds.length + zeros : ℕ) - 1)).toNat - 1 + 1) 0 :=
        List.map_replicate (n := (-(k + (ds.length + zeros : ℕ) - 1)).toNat - 1 + 1)
      rw [List.singleton_append, ← List.cons_append, digitValues_append, zeros_first, ofDigits_append,
        ofDigits_replicate_zero, Nat.zero_mul, Nat.zero_add, pow_zero, mul_one]
    · rw [List.length_append, List.length_replicate]
      simp only [Option.getD_none]
      omega
  · refine ⟨⟨?_, by simp, Or.inr ?_, Or.inl (List.cons_ne_nil _ _)⟩,
      grouped (n := (k + (ds.length + zeros : ℕ) - 1).toNat + 1 - ds.length + 1) ?_ ?_⟩
    · intro c member
      exact (List.mem_append.mp member).elim (digits c) (zero _ c)
    · obtain ⟨c, cs, rfl, other⟩ := leading
      exact ⟨c, _, rfl, other⟩
    · rw [List.append_assoc, ← List.replicate_succ', digitValues_append]
      have last : ∀ n, digitValues (List.replicate n '0') = List.replicate n 0 :=
        fun n => List.map_replicate
      rw [last, ofDigits_append, ofDigits_replicate_zero, List.length_replicate, Nat.add_zero]
    · simp only [Option.getD_none, List.length_singleton]
      omega
  · refine ⟨⟨fun c member => digits c (List.mem_of_mem_take member),
      fun c member => digits c (List.mem_of_mem_drop member), Or.inr ?_, Or.inl ?_⟩,
      grouped (n := 0) ?_ ?_⟩
    · obtain ⟨c, cs, rfl, other⟩ := leading
      exact ⟨c, _, rfl, other⟩
    · rw [ne_eq, List.drop_eq_nil_iff]
      exact short
    · rw [List.take_append_drop, pow_zero, mul_one]
    · rw [List.length_drop]
      simp only [Option.getD_none]
      omega
  · refine ⟨⟨fun c member => digits c (List.mem_of_mem_take member),
      fun c member => digits c (List.mem_of_mem_drop member), Or.inr ?_, Or.inr (Option.some_ne_none _)⟩,
      grouped (n := 0) ?_ ?_⟩
    · obtain ⟨c, cs, rfl, other⟩ := leading
      exact ⟨c, _, rfl, other⟩
    · rw [List.take_append_drop, pow_zero, mul_one]
    · rw [List.length_drop]
      simp only [Option.getD_some]
      omega

theorem reprLiteral_reads {q : ℚ≥0} (exact : IsBinary64 q) (negative : Bool) :
    (reprLiteral q).WellFormed ∧
      roundBinary64 negative (reprLiteral q).value = .finite negative q := by
  rcases eq_or_ne q 0 with rfl | nonzero
  · have zero : reprLiteral 0 = ⟨['0'], ['0'], none⟩ := if_pos rfl
    rw [zero]
    refine ⟨⟨by simp, by simp, Or.inl rfl, Or.inl (List.cons_ne_nil _ _)⟩, ?_⟩
    have value : Literal.value ⟨['0'], ['0'], none⟩ = 0 := zero_mul _
    rw [value, roundBinary64, if_pos rfl]
  · obtain ⟨sound, value⟩ := reprLiteral_spec exact nonzero
    refine ⟨sound, ?_⟩
    rw [value, roundBinary64_finite_iff]
    exact shortestDecimal_accepted exact nonzero

/-- Every float is read back from its text. -/
theorem parseFloat_reprFloat {x : PyFloat} (exact : x.Exact) : parseFloat (reprFloat x) = some x := by
  cases x with
  | nan => decide +kernel
  | inf negative => cases negative <;> decide +kernel
  | finite negative q =>
    obtain ⟨sound, value⟩ := reprLiteral_reads exact negative
    rw [reprFloat, Literal.parseFloat_text sound, value]

end MiniRedis.Python
