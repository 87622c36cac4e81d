/- GID: MiniRedis/Protocol/ResponseEncoder
   generality: I
   digest: Replies in the two dialects of the protocol, with lengths in bytes. -/

import MiniRedis.Base.Outcome
import MiniRedis.Protocol.Types
import MiniRedis.Python.Text

set_option autoImplicit false
set_option relaxedAutoImplicit false

namespace MiniRedis.Protocol

open MiniRedis.Base MiniRedis.Python

def CRLF : Bytes := [13, 10]

/-- A line of text after its type mark. -/
def encodeLine (mark : Char) (text : String) : Bytes :=
  encodeUtf8 (String.singleton mark ++ text ++ "\r\n")

/-- The payload of a blob after its length. -/
def encodePayload (text : String) : Bytes :=
  encodeLine '$' (toString (byteLength text)) ++ encodeUtf8 text ++ CRLF

mutual

/-- `RespResponseEncoder.encode` with room on the stack for the whole value. In version 2 a map is
the array of its keys and values in turn. -/
def encode (version : ℤ) : RespValue → Bytes
  | .simpleString value => encodeLine '+' value
  | .blobString value => encodePayload value
  | .number value => encodeLine ':' (toString value)
  | .null => if version = 2 then encodeLine '$' "-1" else encodeLine '_' ""
  | .simpleError message => encodeLine '-' (RESP_ERR_PREFIX ++ " " ++ message)
  | .boolean value =>
    if version = 2 then encodeLine ':' (if value then "1" else "0")
    else encodeLine '#' (if value then "t" else "f")
  | .array items => encodeLine '*' (toString items.length) ++ encodeItems version items
  | .map entries =>
    (if version = 2 then encodeLine '*' (toString (2 * entries.length))
      else encodeLine '%' (toString entries.length)) ++ encodeEntries version entries

def encodeItems (version : ℤ) : List RespValue → Bytes
  | [] => []
  | item :: items => encode version item ++ encodeItems version items

def encodeEntries (version : ℤ) : List (RespValue × RespValue) → Bytes
  | [] => []
  | (key, value) :: entries =>
    encode version key ++ encode version value ++ encodeEntries version entries

end

/-! ### Lines, items and entries -/

theorem encodeLine_bytes (mark : Char) (text : String) :
    encodeLine mark text = encodeUtf8 (String.singleton mark) ++ (encodeUtf8 text ++ CRLF) := by
  rw [encodeLine, encodeUtf8_append, encodeUtf8_append, List.append_assoc]
  rfl

theorem length_encodeLine_pos (mark : Char) (text : String) :
    0 < (encodeLine mark text).length := by
  have newline : CRLF.length = 2 := rfl
  rw [encodeLine_bytes, List.length_append, List.length_append, newline]
  omega

theorem encodeItems_eq (version : ℤ) (items : List RespValue) :
    encodeItems version items = items.flatMap (encode version) := by
  induction items with
  | nil => rfl
  | cons item items ih => rw [encodeItems, ih, List.flatMap_cons]

theorem encodeEntries_eq (version : ℤ) (entries : List (RespValue × RespValue)) :
    encodeEntries version entries =
      entries.flatMap (fun entry => encode version entry.1 ++ encode version entry.2) := by
  induction entries with
  | nil => rfl
  | cons entry entries ih => rw [encodeEntries, ih, List.flatMap_cons]

/-- The keys and values of a map in turn. -/
def flatten (entries : List (RespValue × RespValue)) : List RespValue :=
  entries.flatMap (fun entry => [entry.1, entry.2])

theorem length_flatten (entries : List (RespValue × RespValue)) :
    (flatten entries).length = 2 * entries.length := by
  induction entries with
  | nil => rfl
  | cons entry entries ih =>
    simp only [flatten, List.flatMap_cons, List.length_append, List.length_cons, List.length_nil]
      at ih ⊢
    omega

theorem encodeEntries_flatten (version : ℤ) (entries : List (RespValue × RespValue)) :
    encodeEntries version entries = (flatten entries).flatMap (encode version) := by
  induction entries with
  | nil => rfl
  | cons entry entries ih =>
    rw [encodeEntries, ih]
    simp [flatten, List.flatMap_cons]

/-! ### Little room -/

end MiniRedis.Protocol
