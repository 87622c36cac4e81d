/- GID: MiniRedis/Client/MiniRedisCli
   generality: I
   digest: The command-line client writes request frames and reads replies from a byte stream. -/

import MiniRedis.Base.Dict
import MiniRedis.Base.Stream
import MiniRedis.Protocol.ResponseEncoder
import MiniRedis.Python.Number

set_option autoImplicit false
set_option relaxedAutoImplicit false

namespace MiniRedis.Client

open MiniRedis.Base MiniRedis.Python MiniRedis.Protocol

/-! ### What both clients share -/

/-- A token of a request. -/
inductive Part where
  | text (value : String)
  | number (value : ℤ)
  deriving DecidableEq

/-- The Python value of a reply. -/
inductive ReplyValue where
  | text (value : String)
  | number (value : ℤ)
  | none
  | list (items : List ReplyValue)
  | dict (entries : List (String × ReplyValue))

/-- What reading a reply can raise. A `UnicodeDecodeError` is a `ValueError`; the text of a
container that is used as a key is not modelled. -/
inductive ClientFailure where
  | connectionError (message : String)
  | miniRedisError (message : String)
  | valueError
  | recursionError
  | containerKey
  deriving DecidableEq

/-- A decoded text, or the `UnicodeDecodeError`. -/
def decoded (text : Option String) : Except ClientFailure String :=
  match text with
  | some text => .ok text
  | none => .error .valueError

/-- `int(text)` of a decoded text. -/
def decodedInt (text : Option String) : Except ClientFailure ℤ := do
  match parseInt (← decoded text) with
  | some n => .ok n
  | none => .error .valueError

/-- `str(value)`. -/
def strOf : ReplyValue → Except ClientFailure String
  | .text value => .ok value
  | .number value => .ok (toString value)
  | .none => .ok "None"
  | .list _ => .error .containerKey
  | .dict _ => .error .containerKey

/-- `result[str(key)] = value` for each pair in turn. -/
def collectDict : List (String × ReplyValue) → Dict String ReplyValue → Dict String ReplyValue
  | [], result => result
  | (key, value) :: pairs, result => collectDict pairs (result.set key value)

/-- `repr` of a single byte. -/
def reprByte (byte : UInt8) : String :=
  let digit := fun n : ℕ => String.singleton n.digitChar
  if byte = 9 then "b'\\t'"
  else if byte = 10 then "b'\\n'"
  else if byte = 13 then "b'\\r'"
  else if byte = 92 then "b'\\\\'"
  else if byte = 39 then "b\"'\""
  else if 32 ≤ byte ∧ byte < 127 then "b'" ++ String.singleton (Char.ofNat byte.toNat) ++ "'"
  else "b'\\x" ++ digit (byte.toNat / 16) ++ digit (byte.toNat % 16) ++ "'"

namespace Cli

/-! ### Requests -/

def encodeBlobString (value : String) : Bytes :=
  encodeLine '$' (toString (byteLength value)) ++ encodeUtf8 value ++ CRLF

def encodeNumber (value : ℤ) : Bytes := encodeLine ':' (toString value)

def encodePart : Part → Bytes
  | .number value => encodeNumber value
  | .text value => encodeBlobString value

def encodeArray (items : List Part) : Bytes :=
  encodeLine '*' (toString items.length) ++ items.flatMap encodePart

def buildHelloFrame : Bytes := encodeArray [.text "HELLO", .number 3]

def buildCommandFrame (command : String) (arguments : List String) : Bytes :=
  encodeArray (.text command :: arguments.map .text)

/-! ### Replies -/

inductive ReplyKind where
  | simpleString
  | error
  | number
  | null
  | blobString
  | map
  | array
  deriving DecidableEq

structure RespObject where
  kind : ReplyKind
  value : ReplyValue

/-- The bytes that are still to come. -/
abbrev Reader := Effect Bytes ClientFailure

/-- `stream.readline()`: through the first line feed, or to the end. -/
def readline : Bytes → Bytes × Bytes
  | [] => ([], [])
  | byte :: rest =>
    if byte = 10 then ([byte], rest)
    else ((byte :: (readline rest).1), (readline rest).2)

def readLine : Reader Bytes := do
  let line ← modifyGet readline
  if line = [] then throw (.connectionError "server closed the connection")
  else if ¬ CRLF <:+ line then throw (.connectionError "received an incomplete RESP line")
  else return line.take (line.length - 2)

def readExact (size : ℕ) : Reader Bytes := do
  let data ← modifyGet (fun stream : Bytes => (stream.take size, stream.drop size))
  if data.length ≠ size then throw (.connectionError "received an incomplete RESP payload")
  else return data

def readNull : Reader RespObject := do
  if (← readLine) ≠ [] then throw (.connectionError "invalid RESP null payload")
  else return ⟨.null, .none⟩

def readBlob : Reader RespObject := do
  let size ← decodedInt (decodeAscii (← readLine))
  if size < 0 then return ⟨.null, .none⟩
  else
    let value ← decoded (decodeUtf8 (← readExact size.toNat))
    if (← readLine) ≠ [] then throw (.connectionError "invalid RESP blob string terminator")
    else return ⟨.blobString, .text value⟩

def readError : Reader RespObject := do
  let message ← decoded (decodeUtf8 (← readLine))
  if "ERR ".toList <+: message.toList then
    return ⟨.error, .text (String.ofList (message.toList.drop 4))⟩
  else return ⟨.error, .text message⟩

/-- A map; `materialize_response_value` gives the value of its argument for every kind. -/
def readMap (readItem : Reader RespObject) : Reader RespObject := do
  let itemCount ← decodedInt (decodeAscii (← readLine))
  let pairs ← Effect.times (do
    let key ← readItem
    let item ← readItem
    return ((← strOf key.value), item.value)) itemCount.toNat
  return ⟨.map, .dict (collectDict pairs Dict.empty).entries⟩

def readArray (readItem : Reader RespObject) : Reader RespObject := do
  let itemCount ← decodedInt (decodeAscii (← readLine))
  if itemCount < 0 then return ⟨.null, .none⟩
  else
    let items ← Effect.times readItem itemCount.toNat
    return ⟨.array, .list (items.map RespObject.value)⟩

/-- `read_response`, for replies nested less deep than `depth`. -/
def readResponse : ℕ → Reader RespObject
  | 0 => throw .recursionError
  | depth + 1 => do
    match ← modifyGet (fun stream : Bytes => (stream.head?, stream.tail)) with
    | none => throw (.connectionError "server closed the connection")
    | some byte =>
      if byte = 43 then return ⟨.simpleString, .text (← decoded (decodeUtf8 (← readLine)))⟩
      else if byte = 45 then readError
      else if byte = 58 then return ⟨.number, .number (← decodedInt (decodeAscii (← readLine)))⟩
      else if byte = 95 then readNull
      else if byte = 36 then readBlob
      else if byte = 37 then readMap (readResponse depth)
      else if byte = 42 then readArray (readResponse depth)
      else throw (.connectionError ("unsupported RESP type prefix: " ++ reprByte byte))

/-- Read one reply off a stream. Every level of nesting takes a byte, so the length of the
stream bounds the depth. -/
def response : Reader RespObject := do
  readResponse ((← get).length + 1)

end Cli

end MiniRedis.Client
