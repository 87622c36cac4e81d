/- GID: MiniRedis/Command/Validator
   generality: I
   digest: Request arrays become commands, and two arity tables decide which are accepted. -/

import MiniRedis.Protocol.Types
import MiniRedis.Python.Number

set_option autoImplicit false
set_option relaxedAutoImplicit false

namespace MiniRedis.Commands

open MiniRedis.Protocol MiniRedis.Python

structure Command where
  name : String
  arguments : List String
  deriving DecidableEq

/-! ### The parser -/

/-- `CommandParser._coerce_token`. -/
def coerceToken : RespValue → Except PyException String
  | .blobString value => .ok value
  | .simpleString value => .ok value
  | .number value => .ok (toString value)
  | _ => .error (.commandError ERR_PROTOCOL_ERROR)

/-- `CommandParser.parse`, on the items of the request array. -/
def parse (items : List RespValue) : Except PyException Command :=
  if items = [] then .error (.commandError ERR_EMPTY_COMMAND)
  else do
    let parts ← items.mapM coerceToken
    let commandName := strip (parts.headD "")
    if commandName = "" then .error (.commandError ERR_EMPTY_COMMAND)
    else .ok ⟨upper commandName, parts.tail⟩

/-! ### The validator -/

/-- Commands with a fixed number of arguments. -/
def SUPPORTED_ARITY : List (String × ℕ) :=
  [("HELLO", 1), ("AUTH", 1), ("SELECT", 1), ("SET", 2), ("GET", 1), ("DEL", 1), ("EXPIRE", 2),
    ("TTL", 1), ("DBSIZE", 0), ("FLUSHDB", 0), ("HSET", 3), ("HGET", 2), ("HDEL", 2),
    ("HGETALL", 1), ("LPOP", 1), ("RPOP", 1), ("LRANGE", 3), ("SMEMBERS", 1), ("SISMEMBER", 2),
    ("ZRANGE", 3), ("ZSCORE", 2)]

/-- Commands with a least number of arguments. -/
def MIN_ARITY : List (String × ℕ) :=
  [("PING", 0), ("INFO", 0), ("CLIENT", 1), ("CONFIG", 2), ("LPUSH", 2), ("RPUSH", 2),
    ("SADD", 2), ("SREM", 2), ("ZADD", 3), ("ZREM", 2)]

def reject {α : Type} (message : String) : Except PyException α :=
  .error (.commandError message)

/-- `arguments[i]`. -/
def argument (arguments : List String) (i : ℕ) : Except PyException String :=
  match arguments[i]? with
  | some value => .ok value
  | none => .error .indexError

def validateIntegerArgument (value : String) : Except PyException ℤ :=
  match parseInt value with
  | some n => .ok n
  | none => reject ERR_INVALID_INTEGER

def validateFloatArgument (value : String) : Except PyException PyFloat :=
  match parseFloat value with
  | some x => .ok x
  | none => reject ERR_INVALID_FLOAT

/-- `seconds <= 0`: a NaN is not, the negative infinity is. -/
def notPositive (seconds : PyFloat) : Bool := seconds.leRat 0

/-- The scores stand at the odd positions of a `ZADD`. -/
def validateScores : List String → Except PyException Unit
  | score :: _ :: rest => do
    let _ ← validateFloatArgument score
    validateScores rest
  | [score] => do
    let _ ← validateFloatArgument score
  | [] => .ok ()

/-- The arity check against the two tables. -/
def validateArity (command : Command) : Except PyException Unit :=
  match SUPPORTED_ARITY.lookup command.name, MIN_ARITY.lookup command.name with
  | none, none => reject ERR_UNSUPPORTED_COMMAND
  | some arity, _ =>
    if command.arguments.length ≠ arity then reject ERR_WRONG_NUMBER_OF_ARGUMENTS else .ok ()
  | none, some arity =>
    if command.arguments.length < arity then reject ERR_WRONG_NUMBER_OF_ARGUMENTS else .ok ()

/-- The checks of `CONFIG` on its subcommand. -/
def validateConfig (arguments : List String) : Except PyException Unit := do
  let subcommand := upper (← argument arguments 0)
  if subcommand = "GET" then
    if arguments.length ≠ 2 then reject ERR_WRONG_NUMBER_OF_ARGUMENTS
  else if subcommand = "SET" then
    if arguments.length ≠ 3 then reject ERR_WRONG_NUMBER_OF_ARGUMENTS
    else
      let value ← validateIntegerArgument (← argument arguments 2)
      if value < 0 then reject ERR_INVALID_INTEGER
  else reject ERR_UNSUPPORTED_COMMAND

/-- The checks of `CLIENT` on its subcommand. -/
def validateClient (arguments : List String) : Except PyException Unit := do
  let subcommand := upper (← argument arguments 0)
  if subcommand = "SETNAME" then
    if arguments.length ≠ 2 then reject ERR_WRONG_NUMBER_OF_ARGUMENTS
  else if subcommand = "SETINFO" then
    if arguments.length ≠ 3 then reject ERR_WRONG_NUMBER_OF_ARGUMENTS
  else if subcommand = "MAINT_NOTIFICATIONS" then
    if arguments.length < 2 then reject ERR_WRONG_NUMBER_OF_ARGUMENTS
  else reject ERR_UNSUPPORTED_CLIENT_SUBCOMMAND

/-- `CommandValidator.validate`. The names are distinct constants, so its chain of
independent tests is one dispatch after the arity check. -/
def validate (command : Command) : Except PyException Unit := do
  validateArity command
  match command.name with
  | "HELLO" => do
    let _ ← validateIntegerArgument (← argument command.arguments 0)
  | "EXPIRE" => do
    let seconds ← validateFloatArgument (← argument command.arguments 1)
    if notPositive seconds then reject ERR_INVALID_TTL
  | "SELECT" => do
    let dbIndex ← validateIntegerArgument (← argument command.arguments 0)
    if dbIndex < 0 then reject ERR_INVALID_DB
  | "LRANGE" => do
    let _ ← validateIntegerArgument (← argument command.arguments 1)
    let _ ← validateIntegerArgument (← argument command.arguments 2)
  | "ZRANGE" => do
    let _ ← validateIntegerArgument (← argument command.arguments 1)
    let _ ← validateIntegerArgument (← argument command.arguments 2)
  | "ZADD" =>
    if command.arguments.length % 2 = 0 then reject ERR_WRONG_NUMBER_OF_ARGUMENTS
    else validateScores command.arguments.tail
  | "PING" =>
    if command.arguments.length > 1 then reject ERR_WRONG_NUMBER_OF_ARGUMENTS
  | "INFO" =>
    if command.arguments.length > 1 then reject ERR_WRONG_NUMBER_OF_ARGUMENTS
  | "CONFIG" => validateConfig command.arguments
  | "CLIENT" => validateClient command.arguments
  | _ => .ok ()

end MiniRedis.Commands
