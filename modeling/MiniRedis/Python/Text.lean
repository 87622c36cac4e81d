/- GID: MiniRedis/Python/Text
   generality: G
   digest: Python text as sequences of Unicode scalar values, with its UTF-8 codec. -/

import Mathlib.Data.List.Basic
import Mathlib.Data.List.Infix

set_option autoImplicit false
set_option relaxedAutoImplicit false

namespace MiniRedis.Python

abbrev Bytes := List UInt8

/-! ### The UTF-8 codec -/

/-- `s.encode("utf-8")`. -/
def encodeUtf8 (s : String) : Bytes := s.toList.flatMap String.utf8EncodeChar

/-- `b.decode("utf-8")`; `none` is a `UnicodeDecodeError`. -/
def decodeUtf8 (b : Bytes) : Option String :=
  b.toByteArray.utf8Decode?.map (fun cs => String.ofList cs.toList)

/-- `b.decode("ascii")`; `none` is a `UnicodeDecodeError`. -/
def decodeAscii (b : Bytes) : Option String :=
  if b.all (· < 128) then some (String.ofList (b.map (fun x => Char.ofNat x.toNat))) else none

/-- `len(s.encode("utf-8"))`. -/
def byteLength (s : String) : ℕ := (encodeUtf8 s).length

def isAscii (s : String) : Bool := s.toList.all (fun c => c.toNat < 128)

@[simp] theorem decodeUtf8_encodeUtf8 (s : String) : decodeUtf8 (encodeUtf8 s) = some s := by
  have encoded : (encodeUtf8 s).toByteArray = s.toList.utf8Encode := rfl
  rw [decodeUtf8, encoded, List.utf8Decode?_utf8Encode]
  simp

@[simp] theorem encodeUtf8_append (s t : String) :
    encodeUtf8 (s ++ t) = encodeUtf8 s ++ encodeUtf8 t := by
  simp [encodeUtf8]

theorem utf8EncodeChar_length (c : Char) : (String.utf8EncodeChar c).length = c.utf8Size := by
  simp

theorem utf8Size_eq_one_iff (c : Char) : c.utf8Size = 1 ↔ c.toNat < 128 := by
  have hc : c.toNat = c.val.toNat := rfl
  have h127 : (127 : UInt32).toNat = 127 := rfl
  rw [Char.utf8Size_eq_one_iff, UInt32.le_iff_toNat_le]
  omega

/-! ### Case mapping and stripping -/

/-- Code points whose full uppercase mapping is ASCII are mapped as Unicode says; other
non-ASCII code points are kept. A result equals an ASCII word exactly when the result of
`str.upper` does, and results are compared with ASCII words only. -/
def upperChar (c : Char) : List Char :=
  match c.toNat with
  | 0xDF => ['S', 'S']
  | 0x131 => ['I']
  | 0x17F => ['S']
  | 0xFB00 => ['F', 'F']
  | 0xFB01 => ['F', 'I']
  | 0xFB02 => ['F', 'L']
  | 0xFB03 => ['F', 'F', 'I']
  | 0xFB04 => ['F', 'F', 'L']
  | 0xFB05 => ['S', 'T']
  | 0xFB06 => ['S', 'T']
  | _ => [c.toUpper]

/-- `s.upper()`, see `upperChar`. -/
def upper (s : String) : String := String.ofList (s.toList.flatMap upperChar)

/-- Only the Kelvin sign has an ASCII lowercase besides the ASCII letters. -/
def lowerChar (c : Char) : Char := if c.toNat = 0x212A then 'k' else c.toLower

/-- `s.lower()`, with the same reservation as `upper`. -/
def lower (s : String) : String := String.ofList (s.toList.map lowerChar)

/-- `c.isspace()`. -/
def isSpace (c : Char) : Bool :=
  c.toNat ∈ [0x9, 0xA, 0xB, 0xC, 0xD, 0x1C, 0x1D, 0x1E, 0x1F, 0x20, 0x85, 0xA0, 0x1680,
    0x2000, 0x2001, 0x2002, 0x2003, 0x2004, 0x2005, 0x2006, 0x2007, 0x2008, 0x2009, 0x200A,
    0x2028, 0x2029, 0x202F, 0x205F, 0x3000]

def stripChars (p : Char → Bool) (cs : List Char) : List Char :=
  ((cs.dropWhile p).reverse.dropWhile p).reverse

/-- `s.strip()`. -/
def strip (s : String) : String := String.ofList (stripChars isSpace s.toList)

end MiniRedis.Python
