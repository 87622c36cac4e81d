/- GID: MiniRedis/Client/MiniRedisClient
   generality: I
   digest: The benchmark client writes commands and parses replies from a socket. -/

import MiniRedis.Client.MiniRedisCli

set_option autoImplicit false
set_option relaxedAutoImplicit false

namespace MiniRedis.Client.Benchmark

open MiniRedis.Base MiniRedis.Python MiniRedis.Protocol

/-! ### Requests -/

def encodePart (part : Part) : Bytes :=
  let encoded := match part with
    | .number value => encodeUtf8 (toString value)
    | .text value => encodeUtf8 value
  encodeLine '$' (toString encoded.length) ++ (encoded ++ CRLF)

/-- `_encode_command`. -/
def encodeCommand (parts : List Part) : Bytes :=
  encodeLine '*' (toString parts.length) ++ parts.flatMap encodePart

/-! ### Replies -/

/-- A connection: the bytes still to come, and how many more than one byte each call of `recv`
finds ready. -/
structure Socket where
  pending : Bytes
  ready : ℕ → ℕ

/-- `sock.recv(n)`: between one and `n` bytes, and none only at the end of the stream. -/
def recv (n : ℕ) (sock : Socket) : Bytes × Socket :=
  let size := min n (sock.ready 0 + 1)
  (sock.pending.take size, ⟨sock.pending.drop size, fun i => sock.ready (i + 1)⟩)

abbrev Parser := Effect Socket ClientFailure

/-- The loop of `_readline`, for lines of fewer than `rounds` bytes. -/
def readlineLoop : ℕ → Bytes → Parser Bytes
  | 0, _ => throw .recursionError
  | rounds + 1, data => do
    let chunk ← modifyGet (recv 1)
    if chunk = [] then throw (.miniRedisError "connection closed while reading response")
    else
      let data := data ++ chunk
      if CRLF <:+ data then return data.take (data.length - 2)
      else readlineLoop rounds data

/-- `_readline`; every round takes a byte. -/
def readline : Parser Bytes := do
  readlineLoop ((← get).pending.length + 1) []

/-- The loop that completes a payload of `total` bytes. -/
def payloadLoop (total : ℤ) : ℕ → Bytes → Parser Bytes
  | 0, payload => return payload
  | rounds + 1, payload => do
    if (payload.length : ℤ) < total then
      let chunk ← modifyGet (recv (total - payload.length).toNat)
      if chunk = [] then throw (.miniRedisError "connection closed while reading bulk string")
      else payloadLoop total rounds (payload ++ chunk)
    else return payload

def parseBlob : Parser ReplyValue := do
  let length ← decodedInt (decodeUtf8 (← readline))
  if length = -1 then return .none
  else
    -- every round takes a byte, so there are no more rounds than missing bytes
    let payload ← payloadLoop (length + 2) (length + 2).toNat []
    return .text (← decoded (decodeUtf8 (payload.take (payload.length - 2))))

def parseMap (parseItem : Parser ReplyValue) : Parser ReplyValue := do
  let count ← decodedInt (decodeUtf8 (← readline))
  let pairs ← Effect.times (do
    let key ← parseItem
    let value ← parseItem
    return ((← strOf key), value)) count.toNat
  return .dict (collectDict pairs Dict.empty).entries

def parseArray (parseItem : Parser ReplyValue) : Parser ReplyValue := do
  let count ← decodedInt (decodeUtf8 (← readline))
  return .list (← Effect.times parseItem count.toNat)

/-- `_parse_resp`, for replies nested less deep than `depth`. -/
def parseResp : ℕ → Parser ReplyValue
  | 0 => throw .recursionError
  | depth + 1 => do
    match ← modifyGet (recv 1) with
    | [] => throw (.miniRedisError "empty response")
    | byte :: _ =>
      if byte = 43 then return .text (← decoded (decodeUtf8 (← readline)))
      else if byte = 36 then parseBlob
      else if byte = 58 then return .number (← decodedInt (decodeUtf8 (← readline)))
      else if byte = 95 then
        let _ ← readline
        return .none
      else if byte = 45 then throw (.miniRedisError (← decoded (decodeUtf8 (← readline))))
      else if byte = 37 then parseMap (parseResp depth)
      else if byte = 42 then parseArray (parseResp depth)
      else throw (.miniRedisError ("unsupported RESP prefix: " ++ reprByte byte))

/-- Parse one reply off a connection. Every level of nesting takes a byte, so the length of what
is pending bounds the depth. -/
def response : Parser ReplyValue := do
  parseResp ((← get).pending.length + 1)

end MiniRedis.Client.Benchmark
