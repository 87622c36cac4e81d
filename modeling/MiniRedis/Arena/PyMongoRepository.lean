/- GID: MiniRedis/Arena/PyMongoRepository
   generality: I
   digest: The document repository over a collection, beside the calls of both repositories. -/

import MiniRedis.Arena.Repository
import MiniRedis.Base.Document

set_option autoImplicit false
set_option relaxedAutoImplicit false

namespace MiniRedis.Arena

open MiniRedis.Base

/-- A `TypeError` of the repository, or an exception of the driver. -/
inductive MongoFailure where
  | typeError (message : String)
  | pyMongoError
  deriving DecidableEq

abbrev PyMongoM := Effect Collection MongoFailure

namespace PyMongoArenaRepository

/-- Replace the collection, where the server took the write. -/
def written (outcome : Option Collection) : PyMongoM Unit :=
  match outcome with
  | some collection => set collection
  | none => throw .pyMongoError

/-- Whether `document.get("kind", "string")` is the kind. -/
def hasKind (document : Document) (kind : String) : Bool :=
  match (document.get? "kind").getD (.text "string") with
  | .text stored => stored = kind
  | .document _ => false

/-- `document.get("fields", {})`; the fields of a hash always are a document. -/
def fieldsOf (document : Document) : Document :=
  match document.get? "fields" with
  | some (.document fields) => fields
  | _ => []

def stringDocument (key value : String) : Document :=
  [("_id", .text key), ("kind", .text "string"), ("value", .text value)]

def hashDocument (key : String) (fields : Document) : Document :=
  [("_id", .text key), ("kind", .text "hash"), ("fields", .document fields)]

def hashUpdate (fieldName value : String) : Document.Update where
  sets := [("kind", .text "hash"), ("fields." ++ fieldName, .text value)]
  unsets := ["value"]

section

variable (rules : NameRules)

def write (key value : String) : PyMongoM String := do
  let document := (← get).findOne key
  written ((← get).replaceOne rules key (stringDocument key value))
  pure (InMemoryMongoRepository.writeState document.isNone)

def read (key : String) : PyMongoM (Option Value) := do
  match (← get).findOne key with
  | none => pure none
  | some document =>
    if hasKind document "string" then pure (document.get? "value")
    else throw (.typeError WRONG_TYPE_MESSAGE)

def hset (key fieldName value : String) : PyMongoM String := do
  match (← get).findOne key with
  | none =>
    written ((← get).replaceOne rules key (hashDocument key [(fieldName, .text value)]))
    pure (InMemoryMongoRepository.writeState true)
  | some document =>
    if hasKind document "hash" then
      let fieldCreated := ((fieldsOf document).get? fieldName).isNone
      written ((← get).updateOne rules key (hashUpdate fieldName value))
      pure (InMemoryMongoRepository.writeState fieldCreated)
    else throw (.typeError WRONG_TYPE_MESSAGE)

def hget (key fieldName : String) : PyMongoM (Option Value) := do
  match (← get).findOne key with
  | none => pure none
  | some document =>
    if hasKind document "hash" then pure ((fieldsOf document).get? fieldName)
    else throw (.typeError WRONG_TYPE_MESSAGE)

/-- `str(value)`; a document is given with the text of its dictionary. -/
def textOf (reprDict : Document → String) : Value → String
  | .text content => content
  | .document fields => reprDict fields

def hgetall (reprDict : Document → String) (key : String) :
    PyMongoM (Option (List (String × String))) := do
  match (← get).findOne key with
  | none => pure none
  | some document =>
    if hasKind document "hash" then
      pure (some ((fieldsOf document).map (fun field => (field.1, textOf reprDict field.2))))
    else throw (.typeError WRONG_TYPE_MESSAGE)

def delete (key : String) : PyMongoM Bool := do
  let deletedCount ← modifyGet (fun collection => collection.deleteOne key)
  pure (deletedCount ≠ 0)

def deleteMany (keys : List String) : PyMongoM Unit :=
  if keys = [] then pure () else modify (fun collection => collection.deleteMany keys)

def clear : PyMongoM Unit := set (Dict.empty : Collection)

def seed (documents : Dict String String) : PyMongoM Unit :=
  documents.entries.forM (fun item => do
    written ((← get).replaceOne rules item.1 (stringDocument item.1 item.2)))

end

end PyMongoArenaRepository

/-! ### Calls of a repository -/

inductive RepositoryCall where
  | write (key value : String)
  | read (key : String)
  | hset (key fieldName value : String)
  | hget (key fieldName : String)
  | hgetall (key : String)
  | delete (key : String)
  | deleteMany (keys : List String)
  | clear
  | seed (documents : Dict String String)

inductive RepositoryResult where
  | state (text : String)
  | value (value : Option Value)
  | fields (fields : Option (List (String × String)))
  | deleted (flag : Bool)
  | done

def InMemoryMongoRepository.perform (call : RepositoryCall) (r : InMemoryMongoRepository) :
    Except String RepositoryResult × InMemoryMongoRepository :=
  match call with
  | .write key value =>
    let (state, r) := write key value r
    (.ok (.state state), r)
  | .read key => ((fun found => .value (found.map .text)) <$> read key : RepositoryM _).exec r
  | .hset key fieldName value => (.state <$> hset key fieldName value : RepositoryM _).exec r
  | .hget key fieldName =>
    ((fun found => .value (found.map .text)) <$> hget key fieldName : RepositoryM _).exec r
  | .hgetall key => ((fun found => .fields (found.map Dict.entries)) <$> hgetall key : RepositoryM _).exec r
  | .delete key =>
    let (flag, r) := delete key r
    (.ok (.deleted flag), r)
  | .deleteMany keys => (.ok .done, deleteMany keys r)
  | .clear => (.ok .done, clear r)
  | .seed documents => (.ok .done, seed documents r)

def PyMongoArenaRepository.perform (rules : NameRules) (reprDict : Document → String)
    (call : RepositoryCall) (collection : Collection) :
    Except MongoFailure RepositoryResult × Collection :=
  match call with
  | .write key value => (.state <$> write rules key value : PyMongoM _).exec collection
  | .read key => (.value <$> read key : PyMongoM _).exec collection
  | .hset key fieldName value => (.state <$> hset rules key fieldName value : PyMongoM _).exec collection
  | .hget key fieldName => (.value <$> hget key fieldName : PyMongoM _).exec collection
  | .hgetall key => (.fields <$> hgetall reprDict key : PyMongoM _).exec collection
  | .delete key => (.deleted <$> delete key : PyMongoM _).exec collection
  | .deleteMany keys => ((fun _ => .done) <$> deleteMany keys : PyMongoM _).exec collection
  | .clear => ((fun _ => .done) <$> clear : PyMongoM _).exec collection
  | .seed documents => ((fun _ => .done) <$> seed rules documents : PyMongoM _).exec collection

end MiniRedis.Arena
