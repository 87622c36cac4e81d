/- GID: MiniRedis/Arena/Repository
   generality: I
   digest: The in-memory document repository behind both lanes of the arena. -/

import MiniRedis.Arena.RedisClient

set_option autoImplicit false
set_option relaxedAutoImplicit false

namespace MiniRedis.Arena

open MiniRedis.Base

/-- Documents by key; an `ArenaDocument` is its kind with its payload. -/
structure InMemoryMongoRepository where
  documents : Dict String Payload

/-- A repository call may raise `TypeError`; an exception is its text. -/
abbrev RepositoryM := Effect InMemoryMongoRepository String

namespace InMemoryMongoRepository

def init : InMemoryMongoRepository := ⟨Dict.empty⟩

def writeState (created : Bool) : String := if created then "created" else "updated"

def store (key : String) (document : Payload) (r : InMemoryMongoRepository) :
    InMemoryMongoRepository := ⟨r.documents.set key document⟩

def write (key value : String) (r : InMemoryMongoRepository) : String × InMemoryMongoRepository :=
  (writeState (r.documents.get? key = none), store key (.string value) r)

def read (key : String) : RepositoryM (Option String) := do
  match (← get).documents.get? key with
  | none => pure none
  | some (.hash _) => throw WRONG_TYPE_MESSAGE
  | some (.string value) => pure (some value)

def hset (key fieldName value : String) : RepositoryM String := do
  match (← get).documents.get? key with
  | none =>
    modify (store key (.hash (Dict.empty.set fieldName value)))
    pure (writeState true)
  | some (.string _) => throw WRONG_TYPE_MESSAGE
  | some (.hash fields) =>
    modify (store key (.hash (fields.set fieldName value)))
    pure (writeState (fields.get? fieldName = none))

def hget (key fieldName : String) : RepositoryM (Option String) := do
  match (← get).documents.get? key with
  | none => pure none
  | some (.string _) => throw WRONG_TYPE_MESSAGE
  | some (.hash fields) => pure (fields.get? fieldName)

def hgetall (key : String) : RepositoryM (Option (Dict String String)) := do
  match (← get).documents.get? key with
  | none => pure none
  | some (.string _) => throw WRONG_TYPE_MESSAGE
  | some (.hash fields) => pure (some fields)

def delete (key : String) (r : InMemoryMongoRepository) : Bool × InMemoryMongoRepository :=
  if r.documents.get? key = none then (false, r) else (true, ⟨r.documents.erase key⟩)

def deleteMany (keys : List String) (r : InMemoryMongoRepository) : InMemoryMongoRepository :=
  keys.foldl (fun r key => (delete key r).2) r

def clear (_ : InMemoryMongoRepository) : InMemoryMongoRepository := ⟨Dict.empty⟩

def seed (documents : Dict String String) (r : InMemoryMongoRepository) :
    InMemoryMongoRepository :=
  documents.entries.foldl (fun r item => store item.1 (.string item.2) r) r

theorem delete_documents (key : String) (r : InMemoryMongoRepository) :
    (delete key r).2.documents = r.documents.erase key := by
  unfold delete
  split
  · rename_i absent
    exact (Dict.erase_eq_self absent).symm
  · rfl

theorem get?_deleteMany (keys : List String) (r : InMemoryMongoRepository) (other : String) :
    (deleteMany keys r).documents.get? other =
      if other ∈ keys then none else r.documents.get? other := by
  unfold deleteMany
  induction keys generalizing r with
  | nil => simp
  | cons key keys ih =>
    rw [List.foldl_cons, ih, delete_documents, Dict.get?_erase]
    by_cases same : other = key <;> simp [same]

end InMemoryMongoRepository

end MiniRedis.Arena
