/- GID: MiniRedis/Python/Decimal
   generality: G
   digest: Integers written in decimal are plain ASCII and read back as themselves. -/

import MiniRedis.Python.Number

set_option autoImplicit false
set_option relaxedAutoImplicit false

namespace MiniRedis.Python

/-! ### ASCII text -/

theorem isAscii_iff (s : String) : isAscii s = true ↔ ∀ c ∈ s.toList, c.toNat < 128 := by
  simp [isAscii, List.all_eq_true]

private theorem sum_utf8Size_eq_iff (cs : List Char) :
    cs.length ≤ (cs.flatMap String.utf8EncodeChar).length ∧
      ((cs.flatMap String.utf8EncodeChar).length = cs.length ↔ ∀ c ∈ cs, c.toNat < 128) := by
  induction cs with
  | nil => simp
  | cons c cs ih =>
    obtain ⟨longer, same⟩ := ih
    have positive := c.utf8Size_pos
    have one := utf8Size_eq_one_iff c
    simp only [List.flatMap_cons, List.length_append, utf8EncodeChar_length, List.length_cons,
      List.forall_mem_cons, ← one, ← same]
    omega

theorem length_le_byteLength (s : String) : s.toList.length ≤ byteLength s :=
  (sum_utf8Size_eq_iff s.toList).1

theorem byteLength_eq_iff (s : String) : byteLength s = s.toList.length ↔ isAscii s = true := by
  rw [isAscii_iff]
  exact (sum_utf8Size_eq_iff s.toList).2

theorem encodeUtf8_of_ascii {s : String} (ascii : isAscii s = true) :
    encodeUtf8 s = s.toList.map (fun c => UInt8.ofNat c.toNat) := by
  rw [isAscii_iff] at ascii
  rw [encodeUtf8]
  generalize s.toList = cs at ascii ⊢
  induction cs with
  | nil => rfl
  | cons c cs ih =>
    have small := ascii c List.mem_cons_self
    have rest := ih (fun d member => ascii d (List.mem_cons_of_mem c member))
    have low : c.toNat ≤ 127 := by omega
    rw [List.flatMap_cons, List.map_cons, rest]
    simp [String.utf8EncodeChar, low]

theorem decodeAscii_encodeUtf8 {s : String} (ascii : isAscii s = true) :
    decodeAscii (encodeUtf8 s) = some s := by
  have small := (isAscii_iff s).mp ascii
  have bytes : ∀ c ∈ s.toList, (UInt8.ofNat c.toNat).toNat = c.toNat := by
    intro c member
    have := small c member
    simp [UInt8.toNat_ofNat', Nat.mod_eq_of_lt (show c.toNat < 256 by omega)]
  have low : (encodeUtf8 s).all (· < 128) = true := by
    rw [encodeUtf8_of_ascii ascii, List.all_map, List.all_eq_true]
    intro c member
    have := small c member
    simp only [Function.comp_apply, decide_eq_true_eq, UInt8.lt_iff_toNat_lt, bytes c member]
    exact this
  have chars : s.toList.map (fun c => Char.ofNat (UInt8.ofNat c.toNat).toNat) = s.toList := by
    conv_rhs => rw [← List.map_id s.toList]
    refine List.map_congr_left (fun c member => ?_)
    rw [bytes c member, Char.ofNat_toNat, id]
  rw [decodeAscii, if_pos low, encodeUtf8_of_ascii ascii, List.map_map]
  simp only [Function.comp_def, chars, String.ofList_toList]

theorem low_of_ascii {s : String} (ascii : isAscii s = true) : ∀ x ∈ encodeUtf8 s, x.toNat < 128 := by
  intro x member
  rw [encodeUtf8_of_ascii ascii, List.mem_map] at member
  obtain ⟨c, listed, rfl⟩ := member
  have small := (isAscii_iff s).mp ascii c listed
  rw [UInt8.toNat_ofNat', Nat.mod_eq_of_lt (by omega)]
  exact small

/-! ### Decimal text -/

theorem toNat_of_isDigit {c : Char} (digit : c.isDigit = true) :
    48 ≤ c.toNat ∧ c.toNat ≤ 57 := by
  simp only [Char.isDigit, Bool.and_eq_true, decide_eq_true_eq, ge_iff_le] at digit
  exact digit

private theorem digitValue_of_isDigit {c : Char} (digit : c.isDigit = true) :
    digitValue c = some (c.toNat - 48) := by
  obtain ⟨low, high⟩ := toNat_of_isDigit digit
  have found : (48 ≤ c.toNat && c.toNat < 48 + 10) = true := by
    simp only [Bool.and_eq_true, decide_eq_true_eq]
    omega
  simp [digitValue, decimalZeros, found]

theorem readDigits_of_isDigit {cs : List Char} (nonempty : cs ≠ [])
    (digits : ∀ c ∈ cs, c.isDigit = true) :
    readDigits cs = some (cs.map (fun c => c.toNat - 48)) := by
  fun_induction readDigits cs with
  | case1 => exact (nonempty rfl).elim
  | case2 c =>
    rw [digitValue_of_isDigit (digits c List.mem_cons_self)]
    rfl
  | case3 c cs ih =>
    have underscore := digits '_' (by simp)
    exact absurd underscore (by decide)
  | case4 c c' cs _ ih =>
    rw [digitValue_of_isDigit (digits c List.mem_cons_self),
      ih (List.cons_ne_nil _ _) (fun d member => digits d (List.mem_cons_of_mem c member))]
    rfl

theorem ofDigits_map (cs : List Char) :
    ofDigits (cs.map (fun c => c.toNat - 48)) = Nat.ofDigitChars 10 cs 0 := by
  rw [ofDigits, Nat.ofDigitChars_eq_foldl, List.foldl_map]
  rfl

theorem stripChars_of_not {p : Char → Bool} {cs : List Char}
    (plain : ∀ c ∈ cs, p c = false) : stripChars p cs = cs := by
  have kept : ∀ ds : List Char, (∀ c ∈ ds, p c = false) → ds.dropWhile p = ds := by
    intro ds none
    cases ds with
    | nil => rfl
    | cons d ds => simp [none d List.mem_cons_self]
  rw [stripChars, kept cs plain, kept cs.reverse (fun c h => plain c (List.mem_reverse.mp h)),
    List.reverse_reverse]

theorem isNumericBlank_of_isDigit {c : Char} (digit : c.isDigit = true) :
    isNumericBlank c = false := by
  obtain ⟨low, high⟩ := toNat_of_isDigit digit
  simp only [isNumericBlank, isSpace, Bool.and_eq_false_iff, decide_eq_false_iff_not, List.mem_cons,
    List.not_mem_nil, or_false]
  left
  omega

/-- The largest magnitude with no more digits than `int` reads is below this bound. -/
def readableBound : ℕ := 10 ^ maxStrDigits

/-- `sys.maxsize`, the bound on the length of every sequence. -/
def maxSize : ℕ := 2 ^ 63 - 1

theorem maxSize_lt_readableBound : maxSize < readableBound := by
  calc maxSize < 2 ^ 63 := by decide
    _ ≤ 10 ^ 63 := Nat.pow_le_pow_left (by decide) 63
    _ ≤ 10 ^ maxStrDigits := Nat.pow_le_pow_right (by decide) (by decide)

theorem toDigits_isDigit (n : ℕ) : ∀ c ∈ Nat.toDigits 10 n, c.isDigit = true :=
  fun _ member => Nat.isDigit_of_mem_toDigits (by decide) (by decide) member

private theorem toDigits_length {n : ℕ} (small : n < readableBound) :
    (Nat.toDigits 10 n).length ≤ maxStrDigits :=
  (Nat.length_toDigits_le_iff (by decide) (by decide)).mpr small

theorem toString_natCast (n : ℕ) : toString (n : ℤ) = toString n := rfl

theorem toString_int_toList (n : ℤ) :
    (toString n).toList = (if n < 0 then ['-'] else []) ++ Nat.toDigits 10 n.natAbs := by
  cases n with
  | ofNat n => simp [toString, Int.repr]
  | negSucc n => simp [toString, Int.repr, Int.negSucc_lt_zero]

theorem parseInt_toString {n : ℤ} (small : n.natAbs < readableBound) :
    parseInt (toString n) = some n := by
  have digits := toDigits_isDigit n.natAbs
  have nonempty : Nat.toDigits 10 n.natAbs ≠ [] := Nat.toDigits_ne_nil
  have read := readDigits_of_isDigit nonempty digits
  have value := ofDigits_map (Nat.toDigits 10 n.natAbs)
  rw [Nat.ofDigitChars_ten_toDigits] at value
  have length := toDigits_length small
  have plain : ∀ c ∈ (toString n).toList, isNumericBlank c = false := by
    intro c member
    rw [toString_int_toList, List.mem_append] at member
    rcases member with sign | digit
    · split at sign
      · rw [List.mem_singleton.mp sign]
        decide
      · exact absurd sign List.not_mem_nil
    · exact isNumericBlank_of_isDigit (digits c digit)
  rw [parseInt, stripChars_of_not plain, toString_int_toList]
  by_cases negative : n < 0
  · simp only [negative, if_true, List.singleton_append, readSign, read, Option.bind_some,
      List.length_map, length, value]
    congr 1
    omega
  · have unsigned : readSign (Nat.toDigits 10 n.natAbs) = (false, Nat.toDigits 10 n.natAbs) := by
      unfold readSign
      split
      · rename_i cs h
        exact absurd (digits '+' (by rw [h]; simp)) (by decide)
      · rename_i cs h
        exact absurd (digits '-' (by rw [h]; simp)) (by decide)
      · rfl
    simp only [negative, if_false, List.nil_append, unsigned, read, Option.bind_some,
      List.length_map, length, value, if_true, Bool.false_eq_true]
    congr 1
    omega

theorem toString_int_injective : Function.Injective (toString : ℤ → String) := by
  intro n m same
  have chars := congrArg String.toList same
  rw [toString_int_toList, toString_int_toList] at chars
  have digits : ∀ k : ℕ, '-' ∉ Nat.toDigits 10 k := fun k member =>
    absurd (toDigits_isDigit k '-' member) (by decide)
  have abs : (n < 0 ↔ m < 0) ∧ Nat.toDigits 10 n.natAbs = Nat.toDigits 10 m.natAbs := by
    by_cases negative : n < 0 <;> by_cases negative' : m < 0
    · simpa [negative, negative'] using chars
    · simp only [negative, negative', if_true, if_false, List.singleton_append, List.nil_append] at chars
      exact absurd (chars ▸ List.mem_cons_self) (digits m.natAbs)
    · simp only [negative, negative', if_true, if_false, List.singleton_append, List.nil_append] at chars
      exact absurd (chars.symm ▸ List.mem_cons_self) (digits n.natAbs)
    · simpa [negative, negative'] using chars
  have values := congrArg (fun cs => Nat.ofDigitChars 10 cs 0) abs.2
  simp only [Nat.ofDigitChars_ten_toDigits] at values
  omega

theorem toString_nat_injective : Function.Injective (toString : ℕ → String) := by
  intro n m same
  exact Int.ofNat.inj (toString_int_injective same)

theorem toString_nat_toList (n : ℕ) : (toString n).toList = Nat.toDigits 10 n := by
  rw [← toString_natCast, toString_int_toList]
  simp

theorem toString_nat_toList_concat (n : ℕ) :
    ∃ front c, (toString n).toList = front ++ [c] ∧ c.isDigit = true := by
  have nonempty : Nat.toDigits 10 n ≠ [] := Nat.toDigits_ne_nil
  refine ⟨_, _, (toString_nat_toList n).trans (List.dropLast_append_getLast nonempty).symm, ?_⟩
  exact toDigits_isDigit n _ (List.getLast_mem nonempty)

theorem isDigit_of_mem_toString_nat {n : ℕ} {c : Char} (member : c ∈ (toString n).toList) :
    c.isDigit = true := by
  rw [toString_nat_toList] at member
  exact toDigits_isDigit n c member

theorem isAscii_toString (n : ℤ) : isAscii (toString n) = true := by
  rw [isAscii_iff, toString_int_toList]
  intro c member
  rcases List.mem_append.mp member with sign | digit
  · split at sign
    · rw [List.mem_singleton.mp sign]
      decide
    · exact absurd sign List.not_mem_nil
  · have := toNat_of_isDigit (toDigits_isDigit n.natAbs c digit)
    omega

theorem toNat_ge_of_mem_toString {n : ℤ} {c : Char} (member : c ∈ (toString n).toList) :
    32 ≤ c.toNat := by
  rw [toString_int_toList] at member
  rcases List.mem_append.mp member with sign | digit
  · split at sign
    · rw [List.mem_singleton.mp sign]
      decide
    · exact absurd sign List.not_mem_nil
  · have := toNat_of_isDigit (toDigits_isDigit n.natAbs c digit)
    omega

end MiniRedis.Python
