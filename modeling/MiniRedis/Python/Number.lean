/- GID: MiniRedis/Python/Number
   generality: G
   digest: Python integers and floats read from text, compared, and written in six digits. -/

import Mathlib.Data.Int.Log
import Mathlib.Data.NNRat.Floor
import Mathlib.Data.Rat.Floor
import Mathlib.Algebra.Order.Field.Basic
import MiniRedis.Python.Text

set_option autoImplicit false
set_option relaxedAutoImplicit false

namespace MiniRedis.Python

/-! ### Numeric text -/

/-- Zero digits of the decimal digit blocks of Unicode 14. -/
def decimalZeros : List ℕ :=
  [0x30, 0x660, 0x6F0, 0x7C0, 0x966, 0x9E6, 0xA66, 0xAE6, 0xB66, 0xBE6, 0xC66, 0xCE6, 0xD66,
    0xDE6, 0xE50, 0xED0, 0xF20, 0x1040, 0x1090, 0x17E0, 0x1810, 0x1946, 0x19D0, 0x1A80, 0x1A90,
    0x1B50, 0x1BB0, 0x1C40, 0x1C50, 0xA620, 0xA8D0, 0xA900, 0xA9D0, 0xA9F0, 0xAA50, 0xABF0,
    0xFF10, 0x104A0, 0x10D30, 0x11066, 0x110F0, 0x11136, 0x111D0, 0x112F0, 0x11450, 0x114D0,
    0x11650, 0x116C0, 0x11730, 0x118E0, 0x11950, 0x11C50, 0x11D50, 0x11DA0, 0x16A60, 0x16AC0,
    0x16B50, 0x1D7CE, 0x1D7D8, 0x1D7E2, 0x1D7EC, 0x1D7F6, 0x1E140, 0x1E2F0, 0x1E950, 0x1FBF0]

/-- The value of a decimal digit of any script. -/
def digitValue (c : Char) : Option ℕ :=
  (decimalZeros.find? (fun z => z ≤ c.toNat && c.toNat < z + 10)).map (fun z => c.toNat - z)

/-- The blanks `int` and `float` skip: unlike `str.strip` they keep the four ASCII separators. -/
def isNumericBlank (c : Char) : Bool := isSpace c && !(0x1C ≤ c.toNat && c.toNat ≤ 0x1F)

/-- Read a digit sequence; a single underscore may stand between two digits. -/
def readDigits : List Char → Option (List ℕ)
  | [] => none
  | [c] => (digitValue c).map ([·])
  | c :: '_' :: cs => (digitValue c).bind (fun d => (readDigits cs).map (d :: ·))
  | c :: c' :: cs => (digitValue c).bind (fun d => (readDigits (c' :: cs)).map (d :: ·))

def ofDigits (ds : List ℕ) : ℕ := ds.foldl (fun n d => 10 * n + d) 0

/-- Split an optional leading sign off; the Boolean tells a minus. -/
def readSign : List Char → Bool × List Char
  | '+' :: cs => (false, cs)
  | '-' :: cs => (true, cs)
  | cs => (false, cs)

/-- The longest digit sequence `int` accepts. -/
def maxStrDigits : ℕ := 4300

/-- `int(s)`; `none` is a `ValueError`. -/
def parseInt (s : String) : Option ℤ :=
  let (negative, cs) := readSign (stripChars isNumericBlank s.toList)
  (readDigits cs).bind fun ds =>
    if ds.length ≤ maxStrDigits then
      some (if negative then -(ofDigits ds : ℤ) else (ofDigits ds : ℤ))
    else none

/-! ### Floats -/

/-- A binary64 value: the magnitude of a finite one is exact, and zero keeps its sign. -/
inductive PyFloat where
  | nan
  | inf (negative : Bool)
  | finite (negative : Bool) (magnitude : ℚ≥0)
  deriving DecidableEq

namespace PyFloat

def isFinite : PyFloat → Bool
  | finite _ _ => true
  | _ => false

/-- The exact value of a finite float. -/
def signedValue (negative : Bool) (magnitude : ℚ≥0) : ℚ :=
  if negative then -(magnitude : ℚ) else (magnitude : ℚ)

/-- The finite float of an exact value. -/
def ofRat (q : ℚ) : PyFloat := finite (decide (q < 0)) (Rat.nnabs q)

/-- `x == y`: NaN differs from everything and the two zeros agree. -/
def eq : PyFloat → PyFloat → Bool
  | inf a, inf b => a == b
  | finite a x, finite b y => signedValue a x = signedValue b y
  | _, _ => false

/-- `x < y`: false as soon as a NaN takes part. -/
def lt : PyFloat → PyFloat → Bool
  | nan, _ => false
  | _, nan => false
  | inf a, inf b => a && !b
  | inf a, finite _ _ => a
  | finite _ _, inf b => !b
  | finite a x, finite b y => signedValue a x < signedValue b y

/-- `now >= x` for an exact `now`. -/
def leRat : PyFloat → ℚ → Bool
  | nan, _ => false
  | inf a, _ => a
  | finite a x, now => signedValue a x ≤ now

theorem leRat_mono {x : PyFloat} {t t' : ℚ} (le : t ≤ t') (past : x.leRat t = true) :
    x.leRat t' = true := by
  cases x with
  | nan => exact past
  | inf negative => exact past
  | finite negative magnitude =>
    simp only [leRat, decide_eq_true_eq] at past ⊢
    exact past.trans le

/-- `now + x` for an exact `now`, computed exactly. -/
def addRat (now : ℚ) : PyFloat → PyFloat
  | nan => nan
  | inf a => inf a
  | finite a x => ofRat (now + signedValue a x)

theorem signedValue_ofRat (q : ℚ) : signedValue (decide (q < 0)) (Rat.nnabs q) = q := by
  rw [signedValue, Rat.coe_nnabs]
  by_cases negative : q < 0
  · rw [if_pos (decide_eq_true negative), abs_of_neg negative, neg_neg]
  · rw [if_neg (by simpa using negative), abs_of_nonneg (not_lt.mp negative)]

theorem leRat_addRat (now : ℚ) (x : PyFloat) : (x.addRat now).leRat now = x.leRat 0 := by
  cases x with
  | nan => rfl
  | inf negative => rfl
  | finite negative magnitude =>
    simp only [addRat, ofRat, leRat, signedValue_ofRat]
    exact decide_eq_decide.mpr (by constructor <;> intro h <;> linarith)

end PyFloat

/-- Round to the nearest natural number, ties to the even one. -/
def roundHalfEven (q : ℚ≥0) : ℕ :=
  let f := ⌊q⌋₊
  if q < f + 1 / 2 then f
  else if f + 1 / 2 < q then f + 1
  else if f % 2 = 0 then f else f + 1

/-- Round an exact magnitude to binary64: 53 bits, gradual underflow, overflow to infinity. -/
def roundBinary64 (negative : Bool) (q : ℚ≥0) : PyFloat :=
  if q = 0 then .finite negative 0
  else
    let ulp : ℚ≥0 := 2 ^ (max (Int.log 2 q) (-1022) - 52)
    let r : ℚ≥0 := roundHalfEven (q / ulp) * ulp
    if 2 ^ 1024 ≤ r then .inf negative else .finite negative r

/-- `round(x, 2)` of an exact number. -/
def roundTo2 (x : ℚ) : ℚ :=
  let hundredths := mkRat (roundHalfEven (Rat.nnabs x * 100)) 100
  if x < 0 then -hundredths else hundredths

namespace PyFloat

/-- `round(x, 2)`. -/
def round2 : PyFloat → PyFloat
  | finite negative q => roundBinary64 negative (Rat.nnabs (roundTo2 q))
  | x => x

/-- `x + y`. -/
def add : PyFloat → PyFloat → PyFloat
  | nan, _ | _, nan => nan
  | inf a, inf b => if a = b then inf a else nan
  | inf a, finite _ _ | finite _ _, inf a => inf a
  | finite a x, finite b y =>
    let sum := signedValue a x + signedValue b y
    roundBinary64 (if sum = 0 then a && b else sum < 0) (Rat.nnabs sum)

end PyFloat

/-- A possibly empty digit sequence. -/
def readOptionalDigits (cs : List Char) : Option (List ℕ) :=
  if cs = [] then some [] else readDigits cs

/-- The exponent after `e`, with its optional sign. -/
def readExponent (cs : List Char) : Option ℤ :=
  let (negative, ds) := readSign cs
  (readDigits ds).map (fun ds => if negative then -(ofDigits ds : ℤ) else (ofDigits ds : ℤ))

/-- The exact magnitude of an unsigned decimal literal. -/
def readDecimal (cs : List Char) : Option ℚ≥0 :=
  let isExponentMark := fun c : Char => c == 'e' || c == 'E'
  let (mantissa, rest) := cs.span (fun c => !isExponentMark c)
  let exponent := match rest with
    | [] => some 0
    | _ :: ds => readExponent ds
  let (whole, rest) := mantissa.span (· != '.')
  let fraction := match rest with
    | [] => []
    | _ :: ds => ds
  if whole = [] ∧ fraction = [] then none
  else
    (readOptionalDigits whole).bind fun ws =>
    (readOptionalDigits fraction).bind fun fs =>
    exponent.map fun e : ℤ => (ofDigits (ws ++ fs) : ℚ≥0) * 10 ^ (e - fs.length)

/-- `float(s)`; `none` is a `ValueError`. -/
def parseFloat (s : String) : Option PyFloat :=
  let (negative, cs) := readSign (stripChars isNumericBlank s.toList)
  let word := String.ofList (cs.map Char.toLower)
  if word = "inf" ∨ word = "infinity" then some (.inf negative)
  else if word = "nan" then some .nan
  else (readDecimal cs).map (roundBinary64 negative)

/-! ### Float text -/

def dropTrailingZeros (cs : List Char) : List Char := (cs.reverse.dropWhile (· == '0')).reverse

/-- Digits after the point, without trailing zeros and without a bare point. -/
def fractionText (cs : List Char) : String :=
  match dropTrailingZeros cs with
  | [] => ""
  | cs => "." ++ String.ofList cs

/-- The six significant digits of a positive magnitude and its decimal exponent. -/
def sixDigits (q : ℚ≥0) : ℕ × ℤ :=
  let e := Int.log 10 q
  let d := roundHalfEven (q / 10 ^ (e - 5))
  if d = 1000000 then (100000, e + 1) else (d, e)

def formatMagnitude (q : ℚ≥0) : String :=
  if q = 0 then "0"
  else
    let (d, e) := sixDigits q
    let ds := (toString d).toList
    if -4 ≤ e ∧ e < 6 then
      if e < 0 then "0" ++ fractionText (List.replicate ((-e).toNat - 1) '0' ++ ds)
      else String.ofList (ds.take (e.toNat + 1)) ++ fractionText (ds.drop (e.toNat + 1))
    else
      let exponent := toString e.natAbs
      String.ofList (ds.take 1) ++ fractionText (ds.drop 1) ++ "e" ++
        (if e < 0 then "-" else "+") ++ (if exponent.length < 2 then "0" else "") ++ exponent

/-- `format(x, "g")`. -/
def formatG : PyFloat → String
  | .nan => "nan"
  | .inf negative => if negative then "-inf" else "inf"
  | .finite negative q => (if negative then "-" else "") ++ formatMagnitude q

end MiniRedis.Python
