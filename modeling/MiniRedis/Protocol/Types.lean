/- GID: MiniRedis/Protocol/Types
   generality: I
   digest: RESP values, reply texts, and the exceptions the server code can raise. -/

import Mathlib.Data.Int.Notation

set_option autoImplicit false
set_option relaxedAutoImplicit false

namespace MiniRedis.Protocol

/-! ### Texts -/

def RESP_OK : String := "OK"
def RESP_ERR_PREFIX : String := "ERR"
def ERR_EMPTY_COMMAND : String := "empty command"
def ERR_PROTOCOL_ERROR : String := "protocol error"
def ERR_UNSUPPORTED_COMMAND : String := "unsupported command"
def ERR_WRONG_NUMBER_OF_ARGUMENTS : String := "wrong number of arguments"
def ERR_INVALID_INTEGER : String := "invalid integer"
def ERR_INVALID_FLOAT : String := "invalid float"
def ERR_INVALID_TTL : String := "invalid ttl"
def ERR_INVALID_DB : String := "DB index is out of range"
def ERR_UNSUPPORTED_PROTOCOL_VERSION : String := "unsupported protocol version"
def ERR_UNSUPPORTED_AUTH : String := "AUTH is not configured"
def ERR_UNSUPPORTED_CLIENT_SUBCOMMAND : String := "unsupported CLIENT subcommand"
def ERR_WRONG_TYPE : String :=
  "WRONGTYPE Operation against a key holding the wrong kind of value"

/-- Exceptions by the handlers that tell them apart. `CommandError` is answered with its
message; every other one ends the session without a reply. -/
inductive PyException where
  | commandError (message : String)
  | indexError
  | valueError
  | overflowError
  | recursionError
  deriving DecidableEq

def PyException.isCommandError : PyException → Bool
  | commandError _ => true
  | _ => false

inductive RespValue where
  | simpleString (value : String)
  | blobString (value : String)
  | number (value : ℤ)
  | null
  | simpleError (message : String)
  | array (items : List RespValue)
  | map (entries : List (RespValue × RespValue))
  | boolean (value : Bool)

end MiniRedis.Protocol
