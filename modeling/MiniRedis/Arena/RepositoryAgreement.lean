/- GID: MiniRedis/Arena/RepositoryAgreement
   generality: I
   digest: Both document repositories are interchangeable where no hash grows by a dotted name. -/

import MiniRedis.Arena.PyMongoRepository
import MiniRedis.Base.Lockstep

set_option autoImplicit false
set_option relaxedAutoImplicit false

namespace MiniRedis.Arena

open MiniRedis.Base

/-! ### One collection for one dictionary of documents -/

def documentOf (key : String) : Payload → Document
  | .string value => PyMongoArenaRepository.stringDocument key value
  | .hash fields => PyMongoArenaRepository.hashDocument key (Document.ofTexts fields)

/-- The collection has the documents of the dictionary, and no others. -/
def Stores (r : InMemoryMongoRepository) (collection : Collection) : Prop :=
  ∀ key, collection.get? key = (r.documents.get? key).map (documentOf key)

/-- The results are the same, or both fail with the same type error. -/
def SameResult : Except String RepositoryResult → Except MongoFailure RepositoryResult → Prop
  | .ok result, .ok result' => result = result'
  | .error message, .error (.typeError message') => message = message'
  | _, _ => False

/-- A field that is stored must have a name that the server takes, and in a hash that is there
already one that is a path of one component. -/
def KeepsPlainFields (rules : NameRules) (call : RepositoryCall) (r : InMemoryMongoRepository) :
    Prop :=
  match call with
  | .hset key fieldName _ =>
    match r.documents.get? key with
    | none => rules.storable fieldName = true
    | some (.string _) => True
    | some (.hash _) => '.' ∉ fieldName.toList ∧ rules.addressable fieldName = true
  | _ => True

namespace PyMongoArenaRepository

variable {rules : NameRules} {reprDict : Document → String} {collection : Collection}
  {key fieldName value : String}

private theorem storable_own (rules : NameRules) :
    rules.storable "_id" = true ∧ rules.storable "kind" = true ∧
      rules.storable "value" = true ∧ rules.storable "fields" = true :=
  ⟨rules.storable_of_letters (by decide) (by decide +kernel),
    rules.storable_of_letters (by decide) (by decide +kernel),
    rules.storable_of_letters (by decide) (by decide +kernel),
    rules.storable_of_letters (by decide) (by decide +kernel)⟩

private theorem addressable_own (rules : NameRules) : rules.addressable "kind" = true ∧
    rules.addressable "value" = true ∧ rules.addressable "fields" = true :=
  ⟨rules.addressable_of_letters (by decide) (by decide +kernel),
    rules.addressable_of_letters (by decide) (by decide +kernel),
    rules.addressable_of_letters (by decide) (by decide +kernel)⟩

private theorem replaceOne_string (value : String) :
    collection.replaceOne rules key (stringDocument key value) =
      some (collection.set key (stringDocument key value)) := by
  have names : (namesOf (stringDocument key value)).all rules.storable = true := by
    obtain ⟨id, kind, value, fields⟩ := storable_own rules
    simp [stringDocument, namesOf, Value.names, id, kind, value]
  rw [Collection.replaceOne, if_pos names]

private theorem replaceOne_hash (fieldName value : String) :
    collection.replaceOne rules key (hashDocument key [(fieldName, .text value)]) =
      if rules.storable fieldName then
        some (collection.set key (hashDocument key [(fieldName, .text value)])) else none := by
  have names : (namesOf (hashDocument key [(fieldName, .text value)])).all rules.storable =
      rules.storable fieldName := by
    obtain ⟨id, kind, value, fields⟩ := storable_own rules
    simp [hashDocument, namesOf, Value.names, id, kind, fields]
  rw [Collection.replaceOne, names]

private theorem apply_hashUpdate (fields : Document) :
    (hashUpdate fieldName value).apply rules (hashDocument key fields) =
      if (Document.pathOf fieldName).all rules.addressable then
        (Document.setPath (.text value) (Document.pathOf fieldName) fields).map (hashDocument key)
      else none := by
  have kindPath : Document.pathOf "kind" = ["kind"] :=
    Document.pathOf_of_plain (by decide +kernel)
  have valuePath : Document.pathOf "value" = ["value"] :=
    Document.pathOf_of_plain (by decide +kernel)
  have fieldPath : Document.pathOf ("fields." ++ fieldName) =
      "fields" :: Document.pathOf fieldName := by
    have plain : '.' ∉ "fields".toList := by decide +kernel
    have parted : "fields." = "fields" ++ "." := by decide +kernel
    rw [parted]
    exact Document.pathOf_append_dot fieldName plain
  obtain ⟨kind, own, fieldsName⟩ := addressable_own rules
  have paths : ((hashUpdate fieldName value).paths.all (fun path => path.all rules.addressable)) =
      (Document.pathOf fieldName).all rules.addressable := by
    simp [Document.Update.paths, hashUpdate, kindPath, valuePath, fieldPath, kind, own, fieldsName]
  rw [Document.Update.apply, paths]
  split
  · obtain ⟨first, rest, path⟩ := List.exists_cons_of_ne_nil (Document.pathOf_ne_nil fieldName)
    simp only [hashUpdate, List.foldlM_cons, List.foldlM_nil, kindPath, fieldPath, path]
    cases inner : Document.setPath (.text value) (first :: rest) fields with
    | none =>
      simp [hashDocument, Document.setPath, Document.set, Document.get?, List.lookup_cons, inner]
    | some fields' =>
      simp [hashDocument, Document.setPath, Document.set, Document.get?, List.lookup_cons, inner,
        valuePath, Document.unsetPath, Document.unset]
  · rfl

/-! ### What the calls do -/

private theorem exec_write : (write rules key value).exec collection =
    (.ok (InMemoryMongoRepository.writeState (collection.get? key).isNone),
      collection.set key (stringDocument key value)) := by
  simp [write, Effect.exec_bind, replaceOne_string, written, Collection.findOne, Except.map]

private theorem exec_hset_absent (absent : collection.get? key = none) :
    (hset rules key fieldName value).exec collection =
      if rules.storable fieldName then (.ok (InMemoryMongoRepository.writeState true),
        collection.set key (hashDocument key [(fieldName, .text value)]))
      else (.error .pyMongoError, collection) := by
  by_cases taken : rules.storable fieldName = true <;>
    simp [hset, Effect.exec_bind, Collection.findOne, absent, replaceOne_hash, taken, written,
      Except.map]

private theorem exec_hset_string {stored : String}
    (known : collection.get? key = some (stringDocument key stored)) :
    (hset rules key fieldName value).exec collection =
      (.error (.typeError WRONG_TYPE_MESSAGE), collection) := by
  have kind : hasKind (stringDocument key stored) "hash" = false := by rfl
  simp [hset, Effect.exec_bind, Collection.findOne, known, kind]

private theorem exec_hset_hash {fields : Document}
    (known : collection.get? key = some (hashDocument key fields)) :
    (hset rules key fieldName value).exec collection =
      match (if (Document.pathOf fieldName).all rules.addressable then
        Document.setPath (.text value) (Document.pathOf fieldName) fields else none) with
      | some fields' => (.ok (InMemoryMongoRepository.writeState (fields.get? fieldName).isNone),
          collection.set key (hashDocument key fields'))
      | none => (.error .pyMongoError, collection) := by
  have kind : hasKind (hashDocument key fields) "hash" = true := by rfl
  have inner : fieldsOf (hashDocument key fields) = fields := by rfl
  have update : collection.updateOne rules key (hashUpdate fieldName value) =
      ((if (Document.pathOf fieldName).all rules.addressable then
        Document.setPath (.text value) (Document.pathOf fieldName) fields else none).map
          (fun fields' => collection.set key (hashDocument key fields'))) := by
    rw [Collection.updateOne, known]
    simp only [apply_hashUpdate]
    split
    · rw [Option.map_map]
      rfl
    · rfl
  rw [hset, Effect.exec_bind_of_ok (Effect.exec_get collection), Collection.findOne, known]
  simp only [kind, if_true, inner, Effect.exec_bind, Effect.exec_get, update]
  generalize (if (Document.pathOf fieldName).all rules.addressable then
    Document.setPath (.text value) (Document.pathOf fieldName) fields else none) = outcome
  cases outcome with
  | none => rfl
  | some fields' => rfl

private theorem exec_hgetall_hash (reprDict : Document → String) {fields : Document}
    (known : collection.get? key = some (hashDocument key fields)) :
    (hgetall reprDict key).exec collection =
      (.ok (some (fields.map (fun field => (field.1, textOf reprDict field.2)))), collection) := by
  rw [hgetall, Effect.exec_bind_of_ok (Effect.exec_get collection), Collection.findOne, known]
  rfl

private theorem exec_seed (documents : Dict String String) :
    (seed rules documents).exec collection =
      (.ok (), documents.entries.foldl
        (fun collection item => collection.set item.1 (stringDocument item.1 item.2)) collection) := by
  unfold seed
  induction documents.entries generalizing collection with
  | nil => rfl
  | cons item items ih =>
    have first : (do written ((← get).replaceOne rules item.1 (stringDocument item.1 item.2)) :
        PyMongoM Unit).exec collection =
        (.ok (), collection.set item.1 (stringDocument item.1 item.2)) := by
      simp [Effect.exec_bind, replaceOne_string, written]
    rw [List.forM_eq_forM, List.forM_cons, Effect.exec_bind_of_ok first, List.foldl_cons]
    exact ih

end PyMongoArenaRepository

/-! ### The step -/

namespace InMemoryMongoRepository

variable {r : InMemoryMongoRepository} {key fieldName value : String}

private theorem exec_hset_absent (absent : r.documents.get? key = none) :
    (hset key fieldName value).exec r =
      (.ok (writeState true), store key (.hash (Dict.empty.set fieldName value)) r) := by
  rw [hset, Effect.exec_bind_of_ok (Effect.exec_get r)]
  simp only [absent]
  rfl

private theorem exec_hset_string {stored : String}
    (known : r.documents.get? key = some (.string stored)) :
    (hset key fieldName value).exec r = (.error WRONG_TYPE_MESSAGE, r) := by
  rw [hset, Effect.exec_bind_of_ok (Effect.exec_get r)]
  simp only [known]
  rfl

private theorem exec_hset_hash {fields : Dict String String}
    (known : r.documents.get? key = some (.hash fields)) :
    (hset key fieldName value).exec r = (.ok (writeState (fields.get? fieldName = none)),
      store key (.hash (fields.set fieldName value)) r) := by
  rw [hset, Effect.exec_bind_of_ok (Effect.exec_get r)]
  simp only [known]
  rfl

private theorem exec_hgetall_hash {fields : Dict String String}
    (known : r.documents.get? key = some (.hash fields)) :
    (hgetall key).exec r = (.ok (some fields), r) := by
  rw [hgetall, Effect.exec_bind_of_ok (Effect.exec_get r)]
  simp only [known]
  rfl

end InMemoryMongoRepository

theorem stores_set {r : InMemoryMongoRepository} {collection : Collection}
    (stores : Stores r collection) (key : String) (payload : Payload) :
    Stores (InMemoryMongoRepository.store key payload r)
      (collection.set key (documentOf key payload)) := by
  intro key'
  rw [InMemoryMongoRepository.store, Dict.get?_set, Dict.get?_set]
  split
  · rename_i same
    rw [same]
    rfl
  · exact stores key'

private theorem stores_seed {r : InMemoryMongoRepository} {collection : Collection}
    (stores : Stores r collection) (items : List (String × String)) :
    Stores (items.foldl (fun r item => InMemoryMongoRepository.store item.1 (.string item.2) r) r)
      (items.foldl (fun collection item => collection.set item.1
        (PyMongoArenaRepository.stringDocument item.1 item.2)) collection) := by
  induction items generalizing r collection with
  | nil => exact stores
  | cons item items ih => exact ih (stores_set stores item.1 (.string item.2))

private theorem get?_none_iff {r : InMemoryMongoRepository} {collection : Collection}
    (stores : Stores r collection) (key : String) :
    (collection.get? key).isNone = decide (r.documents.get? key = none) := by
  rw [stores key]
  cases r.documents.get? key <;> rfl

/-- The calls that only look. -/
def RepositoryCall.Reads : RepositoryCall → Prop
  | .read _ | .hget _ _ | .hgetall _ => True
  | _ => False

private theorem reads_alike {r : InMemoryMongoRepository} {collection : Collection}
    (rules : NameRules) (reprDict : Document → String) (stores : Stores r collection)
    (call : RepositoryCall) (reads : call.Reads) :
    SameResult (InMemoryMongoRepository.perform call r).1
        (PyMongoArenaRepository.perform rules reprDict call collection).1 ∧
      (InMemoryMongoRepository.perform call r).2 = r ∧
      (PyMongoArenaRepository.perform rules reprDict call collection).2 = collection := by
  have string : ∀ key value kind, PyMongoArenaRepository.hasKind
      (PyMongoArenaRepository.stringDocument key value) kind = decide ("string" = kind) :=
    fun _ _ _ => rfl
  have hash : ∀ key fields kind, PyMongoArenaRepository.hasKind
      (PyMongoArenaRepository.hashDocument key fields) kind = decide ("hash" = kind) :=
    fun _ _ _ => rfl
  have inner : ∀ key fields, PyMongoArenaRepository.fieldsOf
      (PyMongoArenaRepository.hashDocument key fields) = fields := fun _ _ => rfl
  have texts : ∀ fields : Dict String String, (Document.ofTexts fields).map
      (fun field => (field.1, PyMongoArenaRepository.textOf reprDict field.2)) = fields.entries := by
    intro fields
    simp [Document.ofTexts, PyMongoArenaRepository.textOf, Function.comp_def]
  cases call with
  | read key =>
    have known := stores key
    rcases stored : r.documents.get? key with _ | value | fields <;> rw [stored] at known <;>
      simp [InMemoryMongoRepository.perform, PyMongoArenaRepository.perform,
        InMemoryMongoRepository.read, PyMongoArenaRepository.read, Effect.exec_bind, stored,
        Collection.findOne, known, documentOf, string, hash, SameResult]
    rfl
  | hget key fieldName =>
    have known := stores key
    rcases stored : r.documents.get? key with _ | value | fields <;> rw [stored] at known <;>
      simp [InMemoryMongoRepository.perform, PyMongoArenaRepository.perform,
        InMemoryMongoRepository.hget, PyMongoArenaRepository.hget, Effect.exec_bind, stored,
        Collection.findOne, known, documentOf, string, hash, inner, Document.get?_ofTexts,
        SameResult]
  | hgetall key =>
    have known := stores key
    rcases stored : r.documents.get? key with _ | value | fields <;> rw [stored] at known <;>
      simp [InMemoryMongoRepository.perform, PyMongoArenaRepository.perform,
        InMemoryMongoRepository.hgetall, PyMongoArenaRepository.hgetall, Effect.exec_bind, stored,
        Collection.findOne, known, documentOf, string, hash, inner, texts, SameResult]
  | _ => cases reads

private theorem reads_step (rules : NameRules) (reprDict : Document → String)
    {r : InMemoryMongoRepository} {collection : Collection} (stores : Stores r collection)
    (call : RepositoryCall) (reads : call.Reads) :
    SameResult (InMemoryMongoRepository.perform call r).1
        (PyMongoArenaRepository.perform rules reprDict call collection).1 ∧
      Stores (InMemoryMongoRepository.perform call r).2
        (PyMongoArenaRepository.perform rules reprDict call collection).2 := by
  obtain ⟨same, kept, kept'⟩ := reads_alike rules reprDict stores call reads
  rw [kept, kept']
  exact ⟨same, stores⟩

/-- A call on fields with plain names has the same outcome, and the collection still has the same
documents. -/
theorem perform_alike (rules : NameRules) (reprDict : Document → String)
    {r : InMemoryMongoRepository} {collection : Collection} (stores : Stores r collection)
    {call : RepositoryCall} (plain : KeepsPlainFields rules call r) :
    SameResult (InMemoryMongoRepository.perform call r).1
        (PyMongoArenaRepository.perform rules reprDict call collection).1 ∧
      Stores (InMemoryMongoRepository.perform call r).2
        (PyMongoArenaRepository.perform rules reprDict call collection).2 := by
  cases call with
  | read key => exact reads_step rules reprDict stores (.read key) trivial
  | hget key fieldName => exact reads_step rules reprDict stores (.hget key fieldName) trivial
  | hgetall key => exact reads_step rules reprDict stores (.hgetall key) trivial
  | write key value =>
    have absent := get?_none_iff stores key
    simp only [InMemoryMongoRepository.perform, PyMongoArenaRepository.perform, Effect.exec_map,
      PyMongoArenaRepository.exec_write, InMemoryMongoRepository.write, absent]
    exact ⟨rfl, stores_set stores key (.string value)⟩
  | hset key fieldName value =>
    have known := stores key
    rcases stored : r.documents.get? key with _ | old | fields
    all_goals rw [stored] at known
    · have storable : rules.storable fieldName = true := by
        simpa [KeepsPlainFields, stored] using plain
      have grown : Dict.empty.set fieldName value =
          ⟨[(fieldName, value)], List.nodup_singleton _⟩ := rfl
      simp only [InMemoryMongoRepository.perform, PyMongoArenaRepository.perform, Effect.exec_map,
        PyMongoArenaRepository.exec_hset_absent known, storable, if_true,
        InMemoryMongoRepository.exec_hset_absent stored]
      exact ⟨rfl, stores_set stores key (.hash (Dict.empty.set fieldName value))⟩
    · simp only [InMemoryMongoRepository.perform, PyMongoArenaRepository.perform, Effect.exec_map,
        PyMongoArenaRepository.exec_hset_string known,
        InMemoryMongoRepository.exec_hset_string stored]
      exact ⟨rfl, stores⟩
    · have addressed : '.' ∉ fieldName.toList ∧ rules.addressable fieldName = true := by
        simpa [KeepsPlainFields, stored] using plain
      have path := Document.pathOf_of_plain addressed.1
      have created : ((Document.ofTexts fields).get? fieldName).isNone =
          decide (fields.get? fieldName = none) := by
        rw [Document.get?_ofTexts]
        cases fields.get? fieldName <;> rfl
      simp only [InMemoryMongoRepository.perform, PyMongoArenaRepository.perform, Effect.exec_map,
        PyMongoArenaRepository.exec_hset_hash known,
        InMemoryMongoRepository.exec_hset_hash stored, path, List.all_cons, List.all_nil,
        addressed.2, Bool.and_true, if_true, Document.setPath,
        Document.ofTexts_set, created]
      exact ⟨rfl, stores_set stores key (.hash (fields.set fieldName value))⟩
  | delete key =>
    have known := stores key
    have kept : Stores (InMemoryMongoRepository.delete key r).2 (collection.erase key) := by
      intro key'
      rw [InMemoryMongoRepository.delete_documents, Dict.get?_erase, Dict.get?_erase]
      split
      · rfl
      · exact stores key'
    refine ⟨?_, kept⟩
    rcases stored : r.documents.get? key with _ | payload <;> rw [stored] at known <;>
      simp [InMemoryMongoRepository.perform, PyMongoArenaRepository.perform,
        InMemoryMongoRepository.delete, PyMongoArenaRepository.delete, Collection.deleteOne, stored,
        known, Except.map, SameResult]
  | deleteMany keys =>
    have outcome : PyMongoArenaRepository.perform rules reprDict (.deleteMany keys) collection =
        (.ok .done, collection.deleteMany keys) := by
      rw [PyMongoArenaRepository.perform, PyMongoArenaRepository.deleteMany, Effect.exec_map]
      split
      · rename_i empty
        have whole : collection.deleteMany keys = collection := by
          apply Dict.ext
          simp [Collection.deleteMany, Dict.filter, empty]
        rw [whole]
        rfl
      · rfl
    rw [outcome]
    refine ⟨rfl, ?_⟩
    intro key
    have left := InMemoryMongoRepository.get?_deleteMany keys r key
    rw [Collection.deleteMany, Dict.get?_filter, stores key]
    refine Eq.trans ?_ (congrArg (Option.map (documentOf key)) left.symm)
    by_cases member : key ∈ keys
    · simp [member]
    · cases r.documents.get? key <;> simp [member]
  | clear => exact ⟨rfl, fun key => by rfl⟩
  | seed documents =>
    simp only [InMemoryMongoRepository.perform, PyMongoArenaRepository.perform, Effect.exec_map,
      PyMongoArenaRepository.exec_seed]
    exact ⟨rfl, stores_seed stores documents.entries⟩

/-! ### What a dotted name leaves behind -/

private theorem setPath_dotted {fieldName : String} (dotted : '.' ∈ fieldName.toList)
    (fields : Dict String String) (value : Value) {fields' : Document}
    (updated : Document.setPath value (Document.pathOf fieldName) (Document.ofTexts fields) =
      some fields') :
    ∃ first, fields'.map Prod.fst = fields.keys ++ [first] ∧ first ≠ fieldName := by
  obtain ⟨first, second, rest, path, different⟩ := Document.pathOf_of_dotted dotted
  rw [path, Document.setPath, Document.get?_ofTexts] at updated
  rotate_left
  · simp
  cases known : fields.get? first with
  | some text =>
    rw [known] at updated
    cases updated
  | none =>
    rw [known] at updated
    have fresh : first ∉ (Document.ofTexts fields).map Prod.fst := by
      rw [Document.map_fst_ofTexts]
      exact (fields.get?_eq_none_iff first).mp known
    obtain ⟨inner, -, rfl⟩ := Option.map_eq_some_iff.mp updated
    refine ⟨first, ?_, different⟩
    rw [Document.set_of_not_mem fresh, List.map_append, Document.map_fst_ofTexts]
    rfl

private theorem keys_set_ne {fields : Dict String String} {fieldName first value : String}
    (different : first ≠ fieldName) :
    (fields.set fieldName value).keys ≠ fields.keys ++ [first] := by
  intro same
  by_cases member : fieldName ∈ fields.keys
  · obtain ⟨stored, known⟩ := (fields.mem_keys_iff fieldName).mp member
    obtain ⟨front, rest, split⟩ :=
      List.append_of_mem ((fields.get?_eq_some_iff fieldName stored).mp known)
    have length := congrArg List.length same
    rw [Dict.keys, Dict.keys, Dict.entries_set_of_split split, split] at length
    simp at length
  · rw [Dict.keys, Dict.entries_set_of_not_mem member, List.map_append] at same
    have last := List.append_cancel_left same
    exact different (List.singleton_inj.mp last).symm

/-- After a call on any other name the two differ at once or when the hash is read. -/
theorem differs_after_dotted (rules : NameRules) (reprDict : Document → String)
    {r : InMemoryMongoRepository} {collection : Collection} (stores : Stores r collection)
    {call : RepositoryCall} (odd : ¬ KeepsPlainFields rules call r) :
    ∃ reading : RepositoryCall, reading.Reads ∧
      ¬ (SameResult (InMemoryMongoRepository.perform call r).1
          (PyMongoArenaRepository.perform rules reprDict call collection).1 ∧
        SameResult
          (InMemoryMongoRepository.perform reading (InMemoryMongoRepository.perform call r).2).1
          (PyMongoArenaRepository.perform rules reprDict reading
            (PyMongoArenaRepository.perform rules reprDict call collection).2).1) := by
  cases call with
  | hset key fieldName value =>
    refine ⟨.hgetall key, trivial, ?_⟩
    have known := stores key
    rcases stored : r.documents.get? key with _ | old | fields
    all_goals rw [stored] at known
    · have refused : ¬ rules.storable fieldName = true := by
        simpa [KeepsPlainFields, stored] using odd
      rintro ⟨same, -⟩
      simp only [InMemoryMongoRepository.perform, PyMongoArenaRepository.perform, Effect.exec_map,
        PyMongoArenaRepository.exec_hset_absent known, refused,
        InMemoryMongoRepository.exec_hset_absent stored] at same
      exact same
    · simp [KeepsPlainFields, stored] at odd
    · have grown : (PyMongoArenaRepository.hset rules key fieldName value).exec collection = _ :=
        PyMongoArenaRepository.exec_hset_hash known
      rintro ⟨same, later⟩
      simp only [InMemoryMongoRepository.perform, PyMongoArenaRepository.perform, Effect.exec_map,
        InMemoryMongoRepository.exec_hset_hash stored, grown] at same later
      by_cases addressed : (Document.pathOf fieldName).all rules.addressable = true
      · cases updated : Document.setPath (.text value) (Document.pathOf fieldName)
            (Document.ofTexts fields) with
        | none =>
          simp only [addressed, if_true, updated] at same
          exact same
        | some fields' =>
          have dotted : '.' ∈ fieldName.toList := by
            by_contra plain
            rw [Document.pathOf_of_plain plain] at addressed
            exact odd (by simpa [KeepsPlainFields, stored, plain] using addressed)
          obtain ⟨first, names, different⟩ := setPath_dotted dotted fields (.text value) updated
          have read := PyMongoArenaRepository.exec_hgetall_hash reprDict
            (Dict.get?_set_self collection key (PyMongoArenaRepository.hashDocument key fields'))
          have held :
              (InMemoryMongoRepository.store key
                (.hash (fields.set fieldName value)) r).documents.get? key =
              some (.hash (fields.set fieldName value)) := Dict.get?_set_self _ _ _
          simp only [addressed, if_true, updated, read, InMemoryMongoRepository.exec_hgetall_hash held]
            at later
          have same :=
            congrArg (List.map Prod.fst) (Option.some.inj (RepositoryResult.fields.inj later))
          rw [List.map_map] at same
          exact keys_set_ne different (same.trans names)
      · simp only [addressed] at same
        exact same
  | _ => exact (odd trivial).elim

/-! ### Whole runs -/

/-- The outcomes are the same in the run, and in every run that is cut short and then reads. -/
def Interchangeable (rules : NameRules) (reprDict : Document → String)
    (calls : List RepositoryCall) : Prop :=
  ∀ first, first <+: calls → ∀ reading : RepositoryCall, reading.Reads →
    List.Forall₂ SameResult
      (outcomes InMemoryMongoRepository.perform (first ++ [reading]) InMemoryMongoRepository.init)
      (outcomes (PyMongoArenaRepository.perform rules reprDict) (first ++ [reading]) Dict.empty)

/-- From empty repositories a run whose fields have plain names has the same outcomes, and only such
runs leave the two repositories interchangeable all along. -/
theorem repositories_agree (rules : NameRules) (reprDict : Document → String)
    (calls : List RepositoryCall) :
    (Along InMemoryMongoRepository.perform (KeepsPlainFields rules) calls InMemoryMongoRepository.init →
      List.Forall₂ SameResult
        (outcomes InMemoryMongoRepository.perform calls InMemoryMongoRepository.init)
        (outcomes (PyMongoArenaRepository.perform rules reprDict) calls Dict.empty)) ∧
    (Interchangeable rules reprDict calls ↔
      Along InMemoryMongoRepository.perform (KeepsPlainFields rules) calls InMemoryMongoRepository.init) := by
  have start : Stores InMemoryMongoRepository.init (Dict.empty : Collection) := fun _ => rfl
  constructor
  · intro plain
    have step : ∀ call (_ : List RepositoryCall) r collection, Stores r collection →
        KeepsPlainFields rules call r → _ := fun _ _ _ _ stores plain =>
      perform_alike rules reprDict stores plain
    exact (outcomes_alike (R := fun _ => Stores) step start plain).1
  · apply probed_alike_iff (R := Stores) _ _ _ start
    · exact fun _ _ _ stores plain => perform_alike rules reprDict stores plain
    · intro call r reads
      cases call with
      | hset key fieldName value => exact reads.elim
      | _ => trivial
    · exact fun _ _ _ stores odd => differs_after_dotted rules reprDict stores odd

private theorem plain_of_letters {name : String}
    (letters : name.toList.all (fun c => c.isAlpha || c = '_') = true) {c : Char}
    (other : (c.isAlpha || c = '_') = false) : c ∉ name.toList := by
  intro member
  rw [List.all_eq_true.mp letters c member] at other
  cases other

private theorem terminated_of_letters {name : String}
    (letters : name.toList.all (fun c => c.isAlpha || c = '_') = true) :
    ∀ c ∈ name.toList, c ≠ '\x00' := by
  rintro c member rfl
  exact plain_of_letters letters (by decide) member

/-- What the documentation says of names: none has a null character, and a component of a path
is not empty and not a positional operator. -/
def documentedRules : NameRules where
  storable name := name.toList.all (· ≠ '\x00')
  addressable name := name.toList.all (· ≠ '\x00') && name ≠ "" &&
    !(name = "$" || name.toList.take 2 = ['$', '['])
  storable_of_letters := by
    intro name _ letters
    simpa using terminated_of_letters letters
  addressable_of_letters := by
    intro name inhabited letters
    have terminated := terminated_of_letters letters
    have undollared := plain_of_letters letters (c := '$') (by decide)
    have single : name ≠ "$" := by
      rintro rfl
      exact undollared (by decide +kernel)
    have filtered : name.toList.take 2 ≠ ['$', '['] := by
      intro same
      exact undollared (List.mem_of_mem_take (same ▸ List.mem_cons_self))
    simpa [inhabited, single, filtered] using terminated

private def shownText {ε : Type} : Except ε RepositoryResult → Option String
  | .ok (.value (some (.text content))) => some content
  | _ => none

private theorem shownText_eq {o : Except String RepositoryResult}
    {o' : Except MongoFailure RepositoryResult} (same : SameResult o o') : shownText o = shownText o' := by
  cases o with
  | ok result =>
    cases o' with
    | ok result' =>
      obtain rfl : result = result' := same
      rcases result with _ | (_ | _ | _) | _ | _ | _ <;> rfl
    | error failure => cases failure <;> exact same.elim
  | error message =>
    cases o' with
    | ok result' => exact same.elim
    | error failure => rfl

/-- A hash that grows by a dotted name and is read. -/
def dottedCalls : List RepositoryCall :=
  [.hset "k" "x" "1", .hset "k" "a.b" "2", .hget "k" "a.b"]

/-- The field is found in memory and not in the collection, which has it nested. No dictionary is
shown as a text here. -/
theorem dotted_field_not_found :
    ¬ List.Forall₂ SameResult
      (outcomes InMemoryMongoRepository.perform dottedCalls InMemoryMongoRepository.init)
      (outcomes (PyMongoArenaRepository.perform documentedRules (fun _ => "")) dottedCalls
        Dict.empty) := by
  intro same
  have texts : (outcomes InMemoryMongoRepository.perform dottedCalls InMemoryMongoRepository.init).map
      shownText = (outcomes (PyMongoArenaRepository.perform documentedRules (fun _ => "")) dottedCalls
        Dict.empty).map shownText := by
    rw [← List.forall₂_eq_eq_eq, List.forall₂_map_left_iff, List.forall₂_map_right_iff]
    exact same.imp (fun _ _ => shownText_eq)
  exact absurd texts (by decide +kernel)

end MiniRedis.Arena
