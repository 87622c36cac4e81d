/- GID: MiniRedis/Python/FloatText
   generality: G
   digest: What is written in six digits is read back as the number that has these digits. -/

import MiniRedis.Python.Decimal
import MiniRedis.Python.Rounding
import Mathlib.Data.List.TakeWhile

set_option autoImplicit false
set_option relaxedAutoImplicit false

namespace MiniRedis.Python

/-! ### Digits -/

theorem ofDigits_append (as bs : List ℕ) :
    ofDigits (as ++ bs) = ofDigits as * 10 ^ bs.length + ofDigits bs := by
  have from_start : ∀ (ds : List ℕ) (n : ℕ), ds.foldl (fun n d => 10 * n + d) n =
      n * 10 ^ ds.length + ofDigits ds := by
    intro ds
    induction ds with
    | nil => simp [ofDigits]
    | cons d ds ih =>
      intro n
      rw [ofDigits, List.foldl_cons, List.foldl_cons, ih, ih, List.length_cons, Nat.pow_succ]
      ring
  rw [ofDigits, List.foldl_append, from_start]
  rfl

theorem ofDigits_replicate_zero (k : ℕ) : ofDigits (List.replicate k 0) = 0 := by
  induction k with
  | zero => rfl
  | succ k ih =>
    rw [List.replicate_succ', ofDigits_append, ih]
    rfl

/-- The values of ASCII digits. -/
def digitValues (cs : List Char) : List ℕ := cs.map (fun c => c.toNat - 48)

theorem digitValues_append (cs ds : List Char) :
    digitValues (cs ++ ds) = digitValues cs ++ digitValues ds := List.map_append

theorem length_digitValues (cs : List Char) : (digitValues cs).length = cs.length := List.length_map _

theorem readOptionalDigits_of_isDigit {cs : List Char} (digits : ∀ c ∈ cs, c.isDigit = true) :
    readOptionalDigits cs = some (digitValues cs) := by
  unfold readOptionalDigits
  split
  · rename_i empty
    rw [empty]
    rfl
  · rename_i nonempty
    exact readDigits_of_isDigit nonempty digits

theorem dropTrailingZeros_spec (cs : List Char) :
    ∃ k, cs = dropTrailingZeros cs ++ List.replicate k '0' := by
  refine ⟨(cs.reverse.takeWhile (· == '0')).length, ?_⟩
  have zeros : cs.reverse.takeWhile (· == '0') =
      List.replicate (cs.reverse.takeWhile (· == '0')).length '0' := by
    rw [List.eq_replicate_iff]
    refine ⟨rfl, fun c member => ?_⟩
    have zero := List.mem_takeWhile_imp member
    exact eq_of_beq zero
  conv_lhs => rw [← List.reverse_reverse cs, ← List.takeWhile_append_dropWhile (p := (· == '0'))
    (l := cs.reverse), List.reverse_append, zeros, List.reverse_replicate]
  rfl

theorem toList_fractionText (cs : List Char) : (fractionText cs).toList =
    if dropTrailingZeros cs = [] then [] else '.' :: dropTrailingZeros cs := by
  unfold fractionText
  split
  · rename_i empty
    rw [if_pos empty]
    rfl
  · rename_i some_digit
    rw [if_neg some_digit]
    simp only [String.toList_append, String.toList_ofList]
    rfl

/-! ### Decimal literals -/

theorem span_append {p : Char → Bool} {front rest : List Char}
    (all : ∀ c ∈ front, p c = true) (stop : ∀ c ∈ rest.head?, p c = false) :
    (front ++ rest).span p = (front, rest) := by
  rw [List.span_eq_takeWhile_dropWhile, List.takeWhile_append_of_pos all,
    List.dropWhile_append_of_pos all]
  cases rest with
  | nil => simp
  | cons c rest => simp [stop c rfl]

/-- The end of a literal that multiplies it by a power of ten. -/
def ExponentText (cs : List Char) (exponent : ℤ) : Prop :=
  cs = [] ∧ exponent = 0 ∨ ∃ ds, cs = 'e' :: ds ∧ readExponent ds = some exponent

private theorem not_mark_of_isDigit {c : Char} (digit : c.isDigit = true) :
    (!(c == 'e' || c == 'E')) = true := by
  rw [Bool.not_eq_true', Bool.or_eq_false_iff, beq_eq_false_iff_ne, beq_eq_false_iff_ne]
  constructor <;> rintro rfl <;> exact absurd digit (by decide)

private theorem readExponent_of_text (rest : List Char) (exponent : ℤ) :
    ExponentText rest exponent →
      (match rest with
      | [] => some 0
      | _ :: ds => readExponent ds) = some exponent := by
  rintro (⟨rfl, rfl⟩ | ⟨ds, rfl, reads⟩)
  · rfl
  · exact reads

theorem readDecimal_of_digits {whole cs rest : List Char} {exponent : ℤ} (nonempty : whole ≠ [])
    (digits : ∀ c ∈ whole, c.isDigit = true) (digits' : ∀ c ∈ cs, c.isDigit = true)
    (scaled : ExponentText rest exponent) :
    readDecimal (whole ++ (fractionText cs).toList ++ rest) =
      some ((ofDigits (digitValues (whole ++ cs)) : ℚ≥0) * 10 ^ (exponent - cs.length)) := by
  obtain ⟨zeros, split⟩ := dropTrailingZeros_spec cs
  have point := toList_fractionText cs
  generalize dropTrailingZeros cs = fraction at split point
  have digits'' : ∀ c ∈ fraction, c.isDigit = true :=
    fun c member => digits' c (by rw [split]; exact List.mem_append_left _ member)
  have mantissa : (whole ++ (fractionText cs).toList ++ rest).span
      (fun c => !(c == 'e' || c == 'E')) = (whole ++ (fractionText cs).toList, rest) := by
    apply span_append
    · intro c member
      have plain : c.isDigit = true ∨ c = '.' := by
        rw [point, List.mem_append] at member
        rcases member with member | member
        · exact Or.inl (digits c member)
        · split_ifs at member
          · cases member
          · exact (List.mem_cons.mp member).symm.imp_left (digits'' c)
      rcases plain with digit | rfl
      · exact not_mark_of_isDigit digit
      · rfl
    · intro c first
      rcases scaled with ⟨rfl, -⟩ | ⟨ds, rfl, -⟩
      · cases first
      · cases first
        rfl
  have parts : (whole ++ (fractionText cs).toList).span (· != '.') =
      (whole, (fractionText cs).toList) := by
    apply span_append
    · intro c member
      rw [bne_iff_ne]
      rintro rfl
      exact absurd (digits _ member) (by decide)
    · intro c first
      rw [point] at first
      split_ifs at first
      · cases first
      · cases first
        rfl
  have read : (match (fractionText cs).toList with | [] => [] | _ :: ds => ds) = fraction := by
    rw [point]
    split_ifs with empty
    · exact empty.symm
    · rfl
  have value : (ofDigits (digitValues whole ++ digitValues fraction) : ℚ≥0) *
      10 ^ (exponent - (digitValues fraction).length) =
      (ofDigits (digitValues (whole ++ cs)) : ℚ≥0) * 10 ^ (exponent - cs.length) := by
    have last : digitValues (List.replicate zeros '0') = List.replicate zeros 0 := List.map_replicate
    rw [split, ← List.append_assoc, digitValues_append, digitValues_append, last,
      ofDigits_append (digitValues whole ++ digitValues fraction), ofDigits_replicate_zero,
      Nat.add_zero, List.length_append, List.length_replicate, List.length_replicate]
    push_cast
    rw [mul_assoc, ← zpow_natCast, ← zpow_add₀ (by norm_num), length_digitValues]
    congr 2
    ring
  have assembled : ((readOptionalDigits fraction).bind fun fs => (some exponent).map fun e : ℤ =>
      (ofDigits (digitValues whole ++ fs) : ℚ≥0) * 10 ^ (e - fs.length)) =
      some ((ofDigits (digitValues (whole ++ cs)) : ℚ≥0) * 10 ^ (exponent - cs.length)) := by
    rw [readOptionalDigits_of_isDigit digits'']
    exact congrArg some value
  rw [← read, ← readExponent_of_text rest exponent scaled] at assembled
  unfold readDecimal
  simp only [mantissa, parts, readOptionalDigits_of_isDigit digits, Option.bind_some]
  rw [if_neg (fun empty => nonempty empty.1)]
  exact assembled

/-! ### Six digits -/

/-- The nearest number of six significant digits. -/
def sixDigitValue (q : ℚ≥0) : ℚ≥0 :=
  let unit := ((10 : ℕ) : ℚ≥0) ^ (Int.log 10 q - 5)
  roundHalfEven (q / unit) * unit

private theorem sixDigitValue_eq (q : ℚ≥0) : sixDigitValue q =
    roundHalfEven (q / 10 ^ (Int.log 10 q - 5)) * 10 ^ (Int.log 10 q - 5) := by
  rw [sixDigitValue, Nat.cast_ofNat]

private theorem sixDigits_spec {q : ℚ≥0} (nonzero : q ≠ 0) :
    100000 ≤ (sixDigits q).1 ∧ (sixDigits q).1 < 1000000 ∧
      ((sixDigits q).1 : ℚ≥0) * 10 ^ ((sixDigits q).2 - 5) = sixDigitValue q := by
  have positive : 0 < q := pos_iff_ne_zero.mpr nonzero
  have ten : (10 : ℚ≥0) ≠ 0 := by norm_num
  have low := Int.zpow_log_le_self (R := ℚ≥0) (b := 10) (by decide) positive
  have high := Int.lt_zpow_succ_log_self (R := ℚ≥0) (b := 10) (by decide) q
  have unit : (0 : ℚ≥0) < 10 ^ (Int.log 10 q - 5) := zpow_pos (by norm_num) _
  have at_least : ((100000 : ℕ) : ℚ≥0) ≤ q / 10 ^ (Int.log 10 q - 5) := by
    rw [le_div_iff₀ unit]
    calc ((100000 : ℕ) : ℚ≥0) * 10 ^ (Int.log 10 q - 5) = 10 ^ (5 : ℤ) * 10 ^ (Int.log 10 q - 5) := by
          norm_num
      _ = 10 ^ Int.log 10 q := by rw [← zpow_add₀ ten, add_sub_cancel]
      _ ≤ q := by exact_mod_cast low
  have at_most : q / 10 ^ (Int.log 10 q - 5) ≤ ((1000000 : ℕ) : ℚ≥0) := by
    rw [div_le_iff₀ unit]
    calc q ≤ 10 ^ (Int.log 10 q + 1) := by exact_mod_cast high.le
      _ = 10 ^ (6 : ℤ) * 10 ^ (Int.log 10 q - 5) := by
          rw [← zpow_add₀ ten]
          congr 1
          ring
      _ = ((1000000 : ℕ) : ℚ≥0) * 10 ^ (Int.log 10 q - 5) := by norm_num
  have rounded := roundHalfEven_mono at_least
  have rounded' := roundHalfEven_mono at_most
  rw [roundHalfEven_natCast] at rounded rounded'
  rw [sixDigitValue_eq]
  unfold sixDigits
  dsimp only
  split_ifs with carried
  · refine ⟨le_rfl, show 100000 < 1000000 by decide, ?_⟩
    rw [carried, show Int.log 10 q + 1 - 5 = 1 + (Int.log 10 q - 5) by ring, zpow_add₀ ten,
      ← mul_assoc]
    norm_num
  · exact ⟨rounded, lt_of_le_of_ne rounded' carried, rfl⟩

private theorem sixDigits_text {q : ℚ≥0} (nonzero : q ≠ 0) :
    (toString (sixDigits q).1).toList.length = 6 ∧
      ofDigits (digitValues (toString (sixDigits q).1).toList) = (sixDigits q).1 := by
  obtain ⟨low, high, -⟩ := sixDigits_spec nonzero
  constructor
  · rw [toString_nat_toList]
    have most := (Nat.length_toDigits_le_iff (b := 10) (k := 6) (by decide) (by decide)).mpr high
    have least : ¬ (Nat.toDigits 10 (sixDigits q).1).length ≤ 5 := by
      rw [Nat.length_toDigits_le_iff (by decide) (by decide)]
      omega
    omega
  · rw [toString_nat_toList, digitValues, ofDigits_map, Nat.ofDigitChars_ten_toDigits]

theorem exponentDigits_isDigit (e : ℤ) :
    ∀ c ∈ (if (toString e.natAbs).length < 2 then ['0'] else []) ++ (toString e.natAbs).toList,
      c.isDigit = true := by
  intro c member
  rcases List.mem_append.mp member with zero | digit
  · split_ifs at zero
    · rw [List.mem_singleton.mp zero]
      decide
    · cases zero
  · exact isDigit_of_mem_toString_nat digit

theorem readExponent_formatted (e : ℤ) :
    readExponent ((if e < 0 then '-' else '+') ::
      ((if (toString e.natAbs).length < 2 then ['0'] else []) ++ (toString e.natAbs).toList)) =
      some e := by
  have digits := exponentDigits_isDigit e
  have nonempty : (if (toString e.natAbs).length < 2 then ['0'] else []) ++
      (toString e.natAbs).toList ≠ [] := by
    rw [toString_nat_toList]
    exact List.append_ne_nil_of_right_ne_nil _ Nat.toDigits_ne_nil
  have value : ofDigits (((if (toString e.natAbs).length < 2 then ['0'] else []) ++
      (toString e.natAbs).toList).map (fun c => c.toNat - 48)) = e.natAbs := by
    rw [List.map_append, ofDigits_append, toString_nat_toList, ofDigits_map (Nat.toDigits _ _),
      Nat.ofDigitChars_ten_toDigits]
    split_ifs <;> simp [ofDigits]
  generalize (if (toString e.natAbs).length < 2 then ['0'] else []) ++ (toString e.natAbs).toList =
    ds at digits nonempty value
  have read := readDigits_of_isDigit nonempty digits
  unfold readExponent
  by_cases negative : e < 0
  · simp only [negative, if_true, readSign, read, Option.map_some, value]
    congr 1
    omega
  · simp only [negative, if_false, readSign, read, Option.map_some, value]
    congr 1
    simp
    omega

private theorem formatMagnitude_text {q : ℚ≥0} (nonzero : q ≠ 0) :
    ∃ whole cs rest exponent, (formatMagnitude q).toList = whole ++ (fractionText cs).toList ++ rest ∧
      whole ≠ [] ∧ (∀ c ∈ whole, c.isDigit = true) ∧ (∀ c ∈ cs, c.isDigit = true) ∧
      ExponentText rest exponent ∧ (∀ c ∈ rest, isNumericBlank c = false) ∧
      (ofDigits (digitValues (whole ++ cs)) : ℚ≥0) * 10 ^ (exponent - cs.length) =
        sixDigitValue q := by
  obtain ⟨-, -, value⟩ := sixDigits_spec nonzero
  obtain ⟨six, digits⟩ := sixDigits_text nonzero
  have plain : ∀ c ∈ (toString (sixDigits q).1).toList, c.isDigit = true :=
    fun c => isDigit_of_mem_toString_nat
  unfold formatMagnitude
  rw [if_neg nonzero]
  rcases pair : sixDigits q with ⟨d, e⟩
  rw [pair] at value six digits plain
  dsimp only at value six digits plain ⊢
  generalize (toString d).toList = ds at six digits plain
  by_cases near : -4 ≤ e ∧ e < 6
  · rw [if_pos near]
    by_cases small : e < 0
    · rw [if_pos small]
      have zeros : (List.replicate ((-e).toNat - 1) '0' ++ ds).length = (5 - e).toNat := by
        rw [List.length_append, List.length_replicate, six]
        omega
      refine ⟨['0'], List.replicate ((-e).toNat - 1) '0' ++ ds, [], 0, ?_, by simp, by simp, ?_,
        Or.inl ⟨rfl, rfl⟩, by simp, ?_⟩
      · rw [String.toList_append, List.append_nil]
        rfl
      · intro c member
        rcases List.mem_append.mp member with zero | digit
        · rw [List.eq_of_mem_replicate zero]
          decide
        · exact plain c digit
      · have leading : digitValues ('0' :: List.replicate ((-e).toNat - 1) '0') =
            List.replicate ((-e).toNat - 1 + 1) 0 := List.map_replicate (n := (-e).toNat - 1 + 1)
        rw [List.singleton_append, ← List.cons_append, digitValues_append, leading, ofDigits_append,
          ofDigits_replicate_zero, Nat.zero_mul, Nat.zero_add, digits, zeros, ← value]
        congr 2
        omega
    · rw [if_neg small]
      refine ⟨ds.take (e.toNat + 1), ds.drop (e.toNat + 1), [], 0, ?_, ?_, ?_, ?_,
        Or.inl ⟨rfl, rfl⟩, by simp, ?_⟩
      · rw [String.toList_append, String.toList_ofList, List.append_nil]
      · rw [ne_eq, List.take_eq_nil_iff, ← List.length_eq_zero_iff, six]
        omega
      · exact fun c member => plain c (List.mem_of_mem_take member)
      · exact fun c member => plain c (List.mem_of_mem_drop member)
      · rw [List.take_append_drop, digits, ← value, List.length_drop, six]
        congr 2
        omega
  · rw [if_neg near]
    refine ⟨ds.take 1, ds.drop 1, 'e' :: (if e < 0 then '-' else '+') ::
      ((if (toString e.natAbs).length < 2 then ['0'] else []) ++ (toString e.natAbs).toList), e,
      ?_, ?_, ?_, ?_, Or.inr ⟨_, rfl, readExponent_formatted e⟩, ?_, ?_⟩
    · simp only [String.toList_append, String.toList_ofList, List.append_assoc]
      congr 2
      split_ifs <;> rfl
    · rw [ne_eq, List.take_eq_nil_iff, ← List.length_eq_zero_iff, six]
      omega
    · exact fun c member => plain c (List.mem_of_mem_take member)
    · exact fun c member => plain c (List.mem_of_mem_drop member)
    · have signs : ∀ c ∈ ['e', if e < 0 then '-' else '+'], isNumericBlank c = false := by
        rw [List.forall_mem_cons, List.forall_mem_singleton]
        refine ⟨by decide, ?_⟩
        split_ifs <;> decide
      intro c member
      rcases List.mem_append.mp (show c ∈ ['e', _] ++ _ from member) with sign | member
      · exact signs c sign
      · exact isNumericBlank_of_isDigit (exponentDigits_isDigit e c member)
    · rw [List.take_append_drop, digits, ← value, List.length_drop, six]
      rfl

/-! ### Reading back -/

theorem toLower_of_isDigit {c : Char} (digit : c.isDigit = true) : c.toLower = c := by
  obtain ⟨-, high⟩ := toNat_of_isDigit digit
  unfold Char.toLower
  rw [dif_neg]
  rintro ⟨low, -⟩
  have low' : 65 ≤ c.toNat := UInt32.le_iff_toNat_le.mp low
  omega

theorem word_ne_of_isDigit {c : Char} (digit : c.isDigit = true) (cs : List Char)
    {word : String} (letter : (word.toList.head?.any Char.isDigit) = false) :
    String.ofList ((c :: cs).map Char.toLower) ≠ word := by
  rintro rfl
  rw [String.toList_ofList, List.map_cons, List.head?_cons, toLower_of_isDigit digit] at letter
  exact absurd digit (by simpa using letter)

theorem parseFloat_formatG (negative : Bool) {q : ℚ≥0} (nonzero : q ≠ 0) :
    parseFloat (formatG (.finite negative q)) = some (roundBinary64 negative (sixDigitValue q)) := by
  obtain ⟨whole, cs, rest, exponent, text, nonempty, digits, digits', scaled, plain, value⟩ :=
    formatMagnitude_text nonzero
  have read := readDecimal_of_digits nonempty digits digits' scaled
  rw [← text, value] at read
  have unblank : ∀ c ∈ (formatMagnitude q).toList, isNumericBlank c = false := by
    intro c member
    rw [text, toList_fractionText] at member
    rcases List.mem_append.mp member with member | member
    · rcases List.mem_append.mp member with member | member
      · exact isNumericBlank_of_isDigit (digits c member)
      · split_ifs at member
        · cases member
        · rcases List.mem_cons.mp member with rfl | member
          · decide
          · obtain ⟨zeros, split⟩ := dropTrailingZeros_spec cs
            apply isNumericBlank_of_isDigit (digits' c _)
            rw [split]
            exact List.mem_append_left _ member
    · exact plain c member
  obtain ⟨c, later, starts, digit⟩ :
      ∃ c later, (formatMagnitude q).toList = c :: later ∧ c.isDigit = true := by
    obtain ⟨c, whole, rfl⟩ := List.exists_cons_of_ne_nil nonempty
    exact ⟨c, _, text, digits c List.mem_cons_self⟩
  have sign : readSign (stripChars isNumericBlank (formatG (.finite negative q)).toList) =
      (negative, (formatMagnitude q).toList) := by
    have unblank' : ∀ c ∈ (formatG (.finite negative q)).toList, isNumericBlank c = false := by
      intro c member
      rw [formatG, String.toList_append] at member
      rcases List.mem_append.mp member with sign | member
      · split_ifs at sign
        · rw [List.mem_singleton.mp sign]
          decide
        · cases sign
      · exact unblank c member
    rw [stripChars_of_not unblank', formatG, String.toList_append]
    cases negative with
    | true => rfl
    | false =>
      rw [starts]
      have other : c ≠ '+' ∧ c ≠ '-' := by
        constructor <;> rintro rfl <;> exact absurd digit (by decide)
      simp [readSign, other]
  have words : ∀ word : String, (word.toList.head?.any Char.isDigit) = false →
      String.ofList ((formatMagnitude q).toList.map Char.toLower) ≠ word := by
    intro word letter
    rw [starts]
    exact word_ne_of_isDigit digit later letter
  unfold parseFloat
  rw [sign]
  dsimp only
  rw [if_neg (not_or.mpr ⟨words _ (by decide), words _ (by decide)⟩), if_neg (words _ (by decide)),
    read, Option.map_some]

/-! ### Whole numbers -/

/-- At most six significant digits. -/
def FewDigits (m : ℕ) : Prop := ∃ d k : ℕ, d < 10 ^ 6 ∧ m = d * 10 ^ k

private theorem sixDigitValue_of_small {m : ℕ} (small : Nat.log 10 m ≤ 5) :
    sixDigitValue m = m := by
  obtain ⟨k, split⟩ := Nat.exists_eq_add_of_le small
  have unit : (10 : ℚ≥0) ^ (Int.log 10 (m : ℚ≥0) - 5) = ((10 ^ k : ℕ) : ℚ≥0)⁻¹ := by
    rw [Int.log_natCast, show ((Nat.log 10 m : ℕ) : ℤ) - 5 = -(k : ℤ) by omega, zpow_neg,
      zpow_natCast, Nat.cast_pow, Nat.cast_ofNat]
  have nonzero : ((10 ^ k : ℕ) : ℚ≥0) ≠ 0 := Nat.cast_ne_zero.mpr (pow_ne_zero k (by decide))
  rw [sixDigitValue_eq, unit, div_inv_eq_mul, ← Nat.cast_mul, roundHalfEven_natCast, Nat.cast_mul,
    mul_inv_cancel_right₀ nonzero]

private theorem sixDigitValue_of_large {m k : ℕ} (large : Nat.log 10 m = 5 + k) :
    sixDigitValue m = (roundHalfEven (m / (10 ^ k : ℕ)) * 10 ^ k : ℕ) := by
  have unit : (10 : ℚ≥0) ^ (Int.log 10 (m : ℚ≥0) - 5) = ((10 ^ k : ℕ) : ℚ≥0) := by
    rw [Int.log_natCast, show ((Nat.log 10 m : ℕ) : ℤ) - 5 = (k : ℤ) by omega, zpow_natCast,
      Nat.cast_pow, Nat.cast_ofNat]
  rw [sixDigitValue_eq, unit, Nat.cast_mul]

private theorem rounded_eq_iff {m k : ℕ} (large : Nat.log 10 m = 5 + k) :
    roundHalfEven (m / (10 ^ k : ℕ)) * 10 ^ k = m ↔ FewDigits m := by
  have unit : ((10 ^ k : ℕ) : ℚ≥0) ≠ 0 := Nat.cast_ne_zero.mpr (pow_ne_zero k (by decide))
  have nonzero : m ≠ 0 := by
    rintro rfl
    rw [Nat.log_zero_right] at large
    omega
  have below : m < 10 ^ (5 + k + 1) := by
    rw [← large]
    exact Nat.lt_pow_succ_log_self (by decide) m
  constructor
  · intro same
    have few : roundHalfEven (m / (10 ^ k : ℕ)) < 10 ^ 6 := by
      rw [← same, show 5 + k + 1 = 6 + k by omega, Nat.pow_add] at below
      exact Nat.lt_of_mul_lt_mul_right below
    exact ⟨_, k, few, same.symm⟩
  · rintro ⟨d, j, few, rfl⟩
    have scale : k ≤ j := by
      have least : 10 ^ (5 + k) ≤ d * 10 ^ j := by
        rw [← large]
        exact Nat.pow_log_le_self 10 nonzero
      have most : d * 10 ^ j < 10 ^ (6 + j) := by
        rw [Nat.pow_add]
        exact Nat.mul_lt_mul_of_pos_right few (by positivity)
      have exponents := (Nat.pow_lt_pow_iff_right (by decide)).mp (least.trans_lt most)
      omega
    obtain ⟨i, rfl⟩ := Nat.exists_eq_add_of_le scale
    have whole : ((d * 10 ^ (k + i) : ℕ) : ℚ≥0) / (10 ^ k : ℕ) = (d * 10 ^ i : ℕ) := by
      rw [div_eq_iff unit, ← Nat.cast_mul]
      congr 1
      ring
    rw [whole, roundHalfEven_natCast]
    ring

private theorem lt_two_pow_of_le {m a b : ℕ} (small : m < 2 ^ a) (le : a ≤ b) : m < 2 ^ b :=
  small.trans_le (Nat.pow_le_pow_right Nat.two_pos le)

theorem parseFloat_formatG_natCast (negative : Bool) {m : ℕ} (small : m < 2 ^ 53) :
    ∃ y : ℕ, parseFloat (formatG (.finite negative m)) = some (.finite negative y) ∧
      (y = m ↔ FewDigits m) := by
  rcases Nat.eq_zero_or_pos m with rfl | positive
  · refine ⟨0, ?_, iff_of_true rfl ⟨0, 0, by decide, rfl⟩⟩
    rw [Nat.cast_zero]
    cases negative <;> decide +kernel
  · have nonzero : (m : ℚ≥0) ≠ 0 := Nat.cast_ne_zero.mpr positive.ne'
    rw [parseFloat_formatG negative nonzero]
    have scale : Nat.log 10 m < 16 :=
      Nat.log_lt_of_lt_pow positive.ne' (small.trans (by decide))
    rcases Nat.le_total (Nat.log 10 m) 5 with short | long
    · have few : m < 10 ^ 6 := Nat.lt_pow_of_log_lt (by decide) (by omega)
      refine ⟨m, ?_, iff_of_true rfl ⟨m, 0, few, by rw [pow_zero, mul_one]⟩⟩
      rw [sixDigitValue_of_small short, roundBinary64_natCast negative (k := m) (j := 0) (by simp)
        small (lt_two_pow_of_le small (by omega))]
    · obtain ⟨k, large⟩ := Nat.exists_eq_add_of_le long
      refine ⟨_, ?_, rounded_eq_iff large⟩
      rw [sixDigitValue_of_large large]
      generalize rounded : roundHalfEven (m / (10 ^ k : ℕ)) = r
      have most : r ≤ 10 ^ 6 := by
        rw [← rounded, ← roundHalfEven_natCast (10 ^ 6)]
        apply roundHalfEven_mono
        rw [div_le_iff₀ (by positivity), ← Nat.cast_mul]
        have below := Nat.lt_pow_succ_log_self (show 1 < 10 by decide) m
        rw [large, show (5 + k).succ = 6 + k by omega, Nat.pow_add] at below
        exact_mod_cast below.le
      have fives : r * 5 ^ k ≤ 10 ^ 6 * 5 ^ 10 :=
        Nat.mul_le_mul most (Nat.pow_le_pow_right (by decide) (by omega))
      have tens : r * 10 ^ k ≤ 10 ^ 6 * 10 ^ 10 :=
        Nat.mul_le_mul most (Nat.pow_le_pow_right (by decide) (by omega))
      have scaled : r * 10 ^ k = r * 5 ^ k * 2 ^ k := by
        rw [mul_assoc, ← Nat.mul_pow]
      have fits : r * 10 ^ k < 2 ^ 54 := tens.trans_lt (by decide)
      rw [roundBinary64_natCast negative scaled (fives.trans_lt (by decide))
        (lt_two_pow_of_le fits (by omega))]

/-! ### The text of an integer -/

/-- A decimal literal, with a sign and between blanks, whose exact value is the integer. -/
def DenotesInteger (text : String) (n : ℤ) : Prop :=
  ∃ magnitude, readDecimal (readSign (stripChars isNumericBlank text.toList)).2 = some magnitude ∧
    PyFloat.signedValue (readSign (stripChars isNumericBlank text.toList)).1 magnitude = n

/-- `float(text) == n`. -/
def ReadsAs (text : String) (n : ℤ) : Prop :=
  ∃ x, parseFloat text = some x ∧ x.eq (.ofRat n) = true

private theorem digitValue_of_toLower {c : Char} (letter : c.toLower = 'i' ∨ c.toLower = 'n') :
    digitValue c = none ∧ (!(c == 'e' || c == 'E')) = true ∧ (c != '.') = true := by
  have code : c.toNat ∈ [73, 105, 78, 110] := by
    have lower : c.toLower.toNat = if 65 ≤ c.toNat ∧ c.toNat ≤ 90 then c.toNat + 32 else c.toNat := by
      unfold Char.toLower
      split
      · rename_i upper
        have low : 65 ≤ c.toNat := UInt32.le_iff_toNat_le.mp upper.1
        have high : c.toNat ≤ 90 := UInt32.le_iff_toNat_le.mp upper.2
        rw [if_pos ⟨low, high⟩]
        change (c.toNat + 32) % 2 ^ 32 = c.toNat + 32
        omega
      · rename_i other
        rw [if_neg]
        rintro ⟨low, high⟩
        exact other ⟨UInt32.le_iff_toNat_le.mpr low, UInt32.le_iff_toNat_le.mpr high⟩
    have codes : c.toLower.toNat = 105 ∨ c.toLower.toNat = 110 :=
      letter.imp (congrArg Char.toNat) (congrArg Char.toNat)
    rw [lower] at codes
    simp only [List.mem_cons, List.not_mem_nil, or_false]
    split_ifs at codes <;> omega
  have known := Char.ofNat_toNat c
  generalize c.toNat = k at code known
  simp only [List.mem_cons, List.not_mem_nil, or_false] at code
  rcases code with rfl | rfl | rfl | rfl <;> subst known <;> decide

private theorem readDigits_of_unread {c : Char} (unread : digitValue c = none) (more : List Char) :
    readDigits (c :: more) = none := by
  unfold readDigits
  split
  · rfl
  all_goals
    rename_i same
    cases same
    rw [unread]
    rfl

private theorem readDecimal_of_word {cs : List Char} (word : String.ofList (cs.map Char.toLower) = "inf" ∨
    String.ofList (cs.map Char.toLower) = "infinity" ∨ String.ofList (cs.map Char.toLower) = "nan") :
    readDecimal cs = none := by
  obtain ⟨c, rest, rfl, letter⟩ : ∃ c rest, cs = c :: rest ∧ (c.toLower = 'i' ∨ c.toLower = 'n') := by
    have chars := word.imp (congrArg String.toList)
      (Or.imp (congrArg String.toList) (congrArg String.toList))
    rw [String.toList_ofList] at chars
    cases cs with
    | nil => rcases chars with same | same | same <;> cases same
    | cons c rest =>
      refine ⟨c, rest, rfl, ?_⟩
      rcases chars with same | same | same
      · exact Or.inl (List.cons.inj same).1
      · exact Or.inl (List.cons.inj same).1
      · exact Or.inr (List.cons.inj same).1
  obtain ⟨unread, inside, inside'⟩ := digitValue_of_toLower letter
  have refused : ∀ more, readOptionalDigits (c :: more) = none := by
    intro more
    rw [readOptionalDigits, if_neg (List.cons_ne_nil _ _)]
    exact readDigits_of_unread unread more
  unfold readDecimal
  simp only [List.span_eq_takeWhile_dropWhile, List.takeWhile_cons, inside, inside', if_true, refused,
    Option.bind_none, ite_self]

private theorem eq_natAbs_of_signedValue {negative : Bool} {magnitude : ℚ≥0} {n : ℤ}
    (value : PyFloat.signedValue negative magnitude = n) : magnitude = n.natAbs := by
  have size : |(n : ℚ)| = magnitude := by
    rw [← value]
    cases negative with
    | true => exact (abs_neg _).trans (abs_of_nonneg magnitude.coe_nonneg)
    | false => exact abs_of_nonneg magnitude.coe_nonneg
  rw [← NNRat.coe_inj, ← size, NNRat.coe_natCast, Nat.cast_natAbs, Int.cast_abs]

theorem parseFloat_of_denotesInteger {text : String} {n : ℤ} (denotes : DenotesInteger text n)
    (small : n.natAbs < 2 ^ 53) : ∃ negative,
      parseFloat text = some (.finite negative n.natAbs) ∧
        PyFloat.signedValue negative (n.natAbs : ℚ≥0) = n := by
  obtain ⟨magnitude, read, value⟩ := denotes
  obtain rfl := eq_natAbs_of_signedValue value
  generalize split : readSign (stripChars isNumericBlank text.toList) = parts at read value
  obtain ⟨negative, cs⟩ := parts
  refine ⟨negative, ?_, value⟩
  unfold parseFloat
  rw [split]
  dsimp only at read ⊢
  rw [if_neg, if_neg, read, Option.map_some, roundBinary64_natCast negative (k := n.natAbs) (j := 0)
    (by simp) small (lt_two_pow_of_le small (by omega))]
  · intro word
    rw [readDecimal_of_word (Or.inr (Or.inr word))] at read
    cases read
  · intro word
    rw [readDecimal_of_word (word.imp_right Or.inl)] at read
    cases read

/-- What is written of an integer is read as this integer exactly where it has six significant
digits at most. -/
theorem readsAs_formatG_iff {negative : Bool} {n : ℤ} (small : n.natAbs < 2 ^ 53)
    (value : PyFloat.signedValue negative (n.natAbs : ℚ≥0) = n) :
    ReadsAs (formatG (.finite negative n.natAbs)) n ↔ FewDigits n.natAbs := by
  obtain ⟨y, read, few⟩ := parseFloat_formatG_natCast negative small
  rw [← few]
  have injective : PyFloat.signedValue negative (y : ℚ≥0) = n ↔ y = n.natAbs := by
    constructor
    · intro same
      exact Nat.cast_injective (eq_natAbs_of_signedValue same)
    · rintro rfl
      exact value
  have equal : PyFloat.eq (.finite negative y) (.ofRat n) = true ↔
      PyFloat.signedValue negative (y : ℚ≥0) = n := by
    rw [PyFloat.ofRat, PyFloat.eq, decide_eq_true_iff, PyFloat.signedValue_ofRat]
  rw [← injective, ← equal, ReadsAs, read]
  constructor
  · rintro ⟨x, same, reads⟩
    cases same
    exact reads
  · exact fun reads => ⟨_, rfl, reads⟩

end MiniRedis.Python
