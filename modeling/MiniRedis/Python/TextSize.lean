/- GID: MiniRedis/Python/TextSize
   generality: G
   digest: How few bytes a text can have that reads as a given integer or a given word. -/

import Mathlib.Algebra.Order.Ring.Nat
import Mathlib.Data.List.TakeWhile
import Mathlib.Tactic.Ring
import MiniRedis.Python.Decimal

set_option autoImplicit false
set_option relaxedAutoImplicit false

namespace MiniRedis.Python

/-! ### Bytes -/

/-- The bytes of a run of characters. -/
def charBytes (cs : List Char) : ℕ := (cs.flatMap String.utf8EncodeChar).length

theorem byteLength_eq (s : String) : byteLength s = charBytes s.toList := rfl

@[simp] theorem charBytes_nil : charBytes [] = 0 := rfl

@[simp] theorem charBytes_cons (c : Char) (cs : List Char) :
    charBytes (c :: cs) = c.utf8Size + charBytes cs := by
  rw [charBytes, List.flatMap_cons, List.length_append, utf8EncodeChar_length]
  rfl

@[simp] theorem charBytes_append (cs ds : List Char) :
    charBytes (cs ++ ds) = charBytes cs + charBytes ds := by
  rw [charBytes, List.flatMap_append, List.length_append]
  rfl

theorem length_le_charBytes (cs : List Char) : cs.length ≤ charBytes cs := by
  have longer := length_le_byteLength (String.ofList cs)
  rwa [byteLength_eq, String.toList_ofList] at longer

theorem charBytes_le_four_mul (cs : List Char) : charBytes cs ≤ 4 * cs.length := by
  induction cs with
  | nil => rfl
  | cons c cs ih =>
    have := c.utf8Size_le_four
    rw [charBytes_cons, List.length_cons]
    omega

theorem eq_encodeUtf8_of_decodeUtf8 {b : Bytes} {s : String} (decoded : decodeUtf8 b = some s) :
    b = encodeUtf8 s := by
  obtain ⟨cs, found, rfl⟩ := Option.map_eq_some_iff.mp decoded
  obtain ⟨l, same⟩ := ByteArray.isSome_utf8Decode?_iff.mp (Option.isSome_of_eq_some found)
  rw [same, List.utf8Decode?_utf8Encode] at found
  cases found
  rw [← List.toList_data_toByteArray (l := b), same, List.utf8Encode, List.toList_data_toByteArray,
    encodeUtf8, String.toList_ofList]

theorem decodeUtf8_append (s : String) (b : Bytes) :
    decodeUtf8 (encodeUtf8 s ++ b) = (decodeUtf8 b).map (s ++ ·) := by
  have chars : ∀ cs : List Char, decodeUtf8 (cs.flatMap String.utf8EncodeChar ++ b) =
      (decodeUtf8 b).map (String.ofList cs ++ ·) := by
    intro cs
    induction cs with
    | nil =>
      rw [List.flatMap_nil, List.nil_append]
      cases decodeUtf8 b <;> simp
    | cons c cs ih =>
      have step := ByteArray.utf8Decode?_utf8Encode_singleton_append
        (l := (cs.flatMap String.utf8EncodeChar ++ b).toByteArray) (c := c)
      have first : ((c :: cs).flatMap String.utf8EncodeChar ++ b).toByteArray =
          [c].utf8Encode ++ (cs.flatMap String.utf8EncodeChar ++ b).toByteArray := by
        rw [List.utf8Encode_singleton, ← List.toByteArray_append, List.flatMap_cons,
          List.append_assoc]
      have pushed : decodeUtf8 ((c :: cs).flatMap String.utf8EncodeChar ++ b) =
          (decodeUtf8 (cs.flatMap String.utf8EncodeChar ++ b)).map (String.ofList [c] ++ ·) := by
        rw [decodeUtf8, decodeUtf8, first, step, Option.map_map, Option.map_map]
        congr 1
        funext more
        simp
      rw [pushed, ih, Option.map_map]
      congr 1
      funext more
      rw [Function.comp_apply, ← String.append_assoc, ← String.ofList_append]
      rfl
  simpa [encodeUtf8] using chars s.toList

private theorem utf8Size_eq (c : Char) :
    c.utf8Size = if c.toNat < 0x80 then 1 else if c.toNat < 0x800 then 2
      else if c.toNat < 0x10000 then 3 else 4 := by
  have code : c.toNat = c.val.toNat := rfl
  rw [Char.utf8Size, code]
  simp only [UInt32.le_iff_toNat_le, UInt32.toNat_ofNatLT]
  split_ifs <;> omega

/-! ### Digits -/

/-- The decimal digits of a number. -/
def digits (n : ℕ) : ℕ := (Nat.toDigits 10 n).length

theorem digits_pos (n : ℕ) : 0 < digits n := Nat.length_toDigits_pos

theorem digits_le_iff {n k : ℕ} (positive : 0 < k) : digits n ≤ k ↔ n < 10 ^ k :=
  Nat.length_toDigits_le_iff (by decide) positive

theorem digits_mono {n m : ℕ} (le : n ≤ m) : digits n ≤ digits m :=
  (digits_le_iff (digits_pos m)).mpr
    (lt_of_le_of_lt le ((digits_le_iff (digits_pos m)).mp le_rfl))

theorem digits_four_mul (n : ℕ) : digits (4 * n) ≤ digits n + 1 := by
  have bound := (digits_le_iff (digits_pos n)).mp le_rfl
  rw [digits_le_iff (Nat.succ_pos _), Nat.pow_succ]
  omega

theorem length_toString (n : ℕ) : (toString n).toList.length = digits n := by
  rw [digits, Nat.toString_eq_ofList_toDigits, String.toList_ofList]

/-! ### Integers in text -/

private theorem digitValue_lt {c : Char} {d : ℕ} (value : digitValue c = some d) : d < 10 := by
  obtain ⟨z, found, rfl⟩ := Option.map_eq_some_iff.mp value
  have inside := List.find?_some found
  simp only [Bool.and_eq_true, decide_eq_true_eq] at inside
  omega

private theorem readDigits_spec {cs : List Char} {ds : List ℕ} (read : readDigits cs = some ds) :
    0 < cs.length ∧ ds.length ≤ cs.length ∧ ∀ d ∈ ds, d < 10 := by
  fun_induction readDigits cs generalizing ds with
  | case1 => cases read
  | case2 c =>
    obtain ⟨d, value, rfl⟩ := Option.map_eq_some_iff.mp read
    simpa using digitValue_lt value
  | case3 c cs ih =>
    obtain ⟨d, value, read⟩ := Option.bind_eq_some_iff.mp read
    obtain ⟨later, after, rfl⟩ := Option.map_eq_some_iff.mp read
    obtain ⟨-, shorter, small⟩ := ih after
    simp only [List.length_cons, List.forall_mem_cons]
    exact ⟨by omega, by omega, digitValue_lt value, small⟩
  | case4 c c' cs _ ih =>
    obtain ⟨d, value, read⟩ := Option.bind_eq_some_iff.mp read
    obtain ⟨later, after, rfl⟩ := Option.map_eq_some_iff.mp read
    obtain ⟨-, shorter, small⟩ := ih after
    simp only [List.length_cons, List.forall_mem_cons] at shorter ⊢
    exact ⟨by omega, by omega, digitValue_lt value, small⟩

private theorem foldl_digits_lt {ds : List ℕ} (small : ∀ d ∈ ds, d < 10) (n : ℕ) :
    ds.foldl (fun n d => 10 * n + d) n < (n + 1) * 10 ^ ds.length := by
  induction ds generalizing n with
  | nil => simp
  | cons d ds ih =>
    rw [List.forall_mem_cons] at small
    have next := ih small.2 (10 * n + d)
    calc (d :: ds).foldl (fun n d => 10 * n + d) n
        < (10 * n + d + 1) * 10 ^ ds.length := next
      _ ≤ (10 * (n + 1)) * 10 ^ ds.length := Nat.mul_le_mul_right _ (by omega)
      _ = (n + 1) * 10 ^ (d :: ds).length := by rw [List.length_cons, Nat.pow_succ]; ring

private theorem length_stripChars_le (p : Char → Bool) (cs : List Char) :
    (stripChars p cs).length ≤ cs.length := by
  rw [stripChars, List.length_reverse]
  have inner := (List.dropWhile_suffix (l := (cs.dropWhile p).reverse) p).length_le
  have outer := (List.dropWhile_suffix (l := cs) p).length_le
  rw [List.length_reverse] at inner
  omega

private theorem length_readSign_le (cs : List Char) : (readSign cs).2.length ≤ cs.length := by
  unfold readSign
  split <;> simp

theorem digits_le_of_parseInt {line : List Char} {n : ℤ}
    (parsed : parseInt (String.ofList line) = some n) : digits n.natAbs ≤ line.length := by
  rw [parseInt, String.toList_ofList] at parsed
  obtain ⟨ds, read, parsed⟩ := Option.bind_eq_some_iff.mp parsed
  obtain ⟨positive, shorter, small⟩ := readDigits_spec read
  change 0 < (readSign _).2.length at positive
  change _ ≤ (readSign _).2.length at shorter
  have stripped := length_stripChars_le isNumericBlank line
  have unsigned := length_readSign_le (stripChars isNumericBlank line)
  have value : n.natAbs = ofDigits ds := by
    split at parsed
    · cases parsed
      split <;> simp
    · cases parsed
  rw [digits_le_iff (by omega), value]
  have bound := foldl_digits_lt small 0
  rw [Nat.zero_add, Nat.one_mul] at bound
  exact lt_of_lt_of_le bound (Nat.pow_le_pow_right (by decide) (by omega))

/-! ### Words -/

private theorem dropWhile_spec (p : Char → Bool) (cs : List Char) :
    ∃ blank, cs = blank ++ cs.dropWhile p ∧ ∀ c ∈ blank, p c = true :=
  ⟨cs.takeWhile p, List.takeWhile_append_dropWhile.symm, fun _ => List.mem_takeWhile_imp⟩

theorem stripChars_spec (p : Char → Bool) (cs : List Char) :
    ∃ before after, cs = before ++ stripChars p cs ++ after ∧ (∀ c ∈ before, p c = true) ∧
      ∀ c ∈ after, p c = true := by
  obtain ⟨before, first, blank⟩ := dropWhile_spec p cs
  obtain ⟨after, last, blank'⟩ := dropWhile_spec p (cs.dropWhile p).reverse
  refine ⟨before, after.reverse, ?_, blank, fun c member => blank' c (List.mem_reverse.mp member)⟩
  have kept : cs.dropWhile p = stripChars p cs ++ after.reverse := by
    rw [stripChars, ← List.reverse_append, ← last, List.reverse_reverse]
  rw [List.append_assoc, ← kept]
  exact first

/-- Two letters that one character can become in upper case. -/
def joined (a b : Char) : Bool :=
  (a, b) ∈ [('S', 'S'), ('F', 'F'), ('F', 'I'), ('F', 'L'), ('S', 'T')]

/-- How far below three bytes the characters of a letter stay. -/
def letterCredit (a : Char) : ℕ := if a = 'I' ∨ a = 'S' then 1 else 2

theorem upperChar_cases (c : Char) :
    (∃ a, upperChar c = [a] ∧ (a.toNat < 128 → c.utf8Size + letterCredit a ≤ 3)) ∨
      ∃ a b more, upperChar c = a :: b :: more ∧ joined a b = true ∧
        (upperChar c).length ≤ c.utf8Size ∧ c.utf8Size ≤ 3 := by
  unfold upperChar
  split <;> rename_i code
  case h_11 =>
    refine Or.inl ⟨_, rfl, fun ascii => ?_⟩
    have plain : c.toNat < 128 := by
      unfold Char.toUpper at ascii
      split at ascii
      · rename_i lower
        exact lt_of_le_of_lt (UInt32.le_iff_toNat_le.mp lower.2) (by decide)
      · exact ascii
    rw [(utf8Size_eq_one_iff c).mpr plain, letterCredit]
    split <;> decide
  case h_2 | h_3 => exact Or.inl ⟨_, rfl, fun _ => by rw [utf8Size_eq, code]; decide⟩
  all_goals exact Or.inr ⟨_, _, _, rfl, by decide, by rw [utf8Size_eq, code]; decide,
    by rw [utf8Size_eq, code]; decide⟩

theorem upperChar_of_lt {c : Char} (low : c.toNat < 65) : upperChar c = [c] := by
  unfold upperChar
  split
  case h_11 =>
    unfold Char.toUpper
    rw [dif_neg]
    intro lower
    have letter : 97 ≤ c.toNat := UInt32.le_iff_toNat_le.mp lower.1
    omega
  all_goals omega

theorem length_upper_le (cs : List Char) : (cs.flatMap upperChar).length ≤ charBytes cs := by
  induction cs with
  | nil => rfl
  | cons c cs ih =>
    have here : (upperChar c).length ≤ c.utf8Size := by
      rcases upperChar_cases c with ⟨a, image, -⟩ | ⟨_, _, _, -, -, short, -⟩
      · rw [image]
        exact c.utf8Size_pos
      · exact short
    rw [List.flatMap_cons, List.length_append, charBytes_cons]
    omega

/-- A word of ASCII letters none of which is joined to the next comes from as many characters, and
its letters bound their bytes. -/
theorem charBytes_of_upper {cs word : List Char} (mapped : cs.flatMap upperChar = word)
    (ascii : word.all (fun a => decide (a.toNat < 128)) = true)
    (apart : word.IsChain (fun a b => joined a b = false)) :
    charBytes cs + (word.map letterCredit).sum ≤ 3 * cs.length := by
  induction cs generalizing word with
  | nil =>
    subst mapped
    simp
  | cons c cs ih =>
    rw [List.flatMap_cons] at mapped
    rcases upperChar_cases c with ⟨a, image, credit⟩ | ⟨a, b, more, image, both, -⟩
    · rw [image, List.singleton_append] at mapped
      subst mapped
      rw [List.all_cons, Bool.and_eq_true, decide_eq_true_eq] at ascii
      have later := ih rfl ascii.2 apart.of_cons
      have first := credit ascii.1
      rw [charBytes_cons, List.map_cons, List.sum_cons, List.length_cons]
      omega
    · rw [image, List.cons_append, List.cons_append] at mapped
      subst mapped
      rw [List.isChain_cons_cons, both] at apart
      exact absurd apart.1 (by decide)

theorem charBytes_of_blank {cs : List Char} (blank : ∀ c ∈ cs, isSpace c = true) :
    charBytes cs ≤ 3 * cs.length := by
  induction cs with
  | nil => rfl
  | cons c cs ih =>
    rw [List.forall_mem_cons] at blank
    have later := ih blank.2
    have narrow : c.utf8Size ≤ 3 := by
      have code : c.toNat < 0x10000 := by
        have listed := blank.1
        simp only [isSpace, decide_eq_true_eq, List.mem_cons, List.not_mem_nil, or_false] at listed
        omega
      rw [utf8Size_eq]
      split_ifs <;> omega
    rw [charBytes_cons, List.length_cons]
    omega

end MiniRedis.Python
