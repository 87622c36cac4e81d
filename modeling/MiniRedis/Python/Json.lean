/- GID: MiniRedis/Python/Json
   generality: G
   digest: String maps written as compact ASCII JSON objects with sorted keys. -/

import Mathlib.Data.List.Sort
import Mathlib.Data.String.Basic
import MiniRedis.Base.Dict

set_option autoImplicit false
set_option relaxedAutoImplicit false

namespace MiniRedis.Python

open MiniRedis.Base

/-- `"\\u{0:04x}".format(n)` for a 16-bit unit. -/
def unicodeEscape (n : ℕ) : String :=
  String.ofList ('\\' :: 'u' ::
    [Nat.digitChar (n / 4096 % 16), Nat.digitChar (n / 256 % 16), Nat.digitChar (n / 16 % 16),
      Nat.digitChar (n % 16)])

/-- A character of a JSON string under `ensure_ascii`; beyond the 16-bit range it becomes a
surrogate pair. -/
def escapeChar (c : Char) : String :=
  match c with
  | '"' => "\\\""
  | '\\' => "\\\\"
  | '\n' => "\\n"
  | '\r' => "\\r"
  | '\t' => "\\t"
  | '\x0c' => "\\f"
  | '\x08' => "\\b"
  | c =>
    let n := c.toNat
    if 0x20 ≤ n ∧ n ≤ 0x7E then c.toString
    else if n < 0x10000 then unicodeEscape n
    else
      unicodeEscape (0xD800 + (n - 0x10000) / 0x400) ++
        unicodeEscape (0xDC00 + (n - 0x10000) % 0x400)

def dumpsString (s : String) : String := "\"" ++ String.join (s.toList.map escapeChar) ++ "\""

/-- `json.dumps(fields, separators=(",", ":"), sort_keys=True)`. -/
def dumpsFields (fields : Dict String String) : String :=
  let items := fields.entries.insertionSort (fun a b => a.1 ≤ b.1)
  let texts := items.map (fun e => dumpsString e.1 ++ ":" ++ dumpsString e.2)
  "\x7b" ++ ",".intercalate texts ++ "\x7d"

example : dumpsFields ((Dict.empty.set "b" "é\n").set "a" "😀") =
    "\x7b\"a\":\"\\ud83d\\ude00\",\"b\":\"\\u00e9\\n\"\x7d" := by decide +kernel

end MiniRedis.Python
