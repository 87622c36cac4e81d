/- GID: MiniRedis/App/BaselineDetails
   generality: I
   digest: What clients shared by threads store and fetch while they connect, seed and fail. -/

import MiniRedis.Base.Dict
import MiniRedis.Base.Trace
import Mathlib.Logic.Function.Basic

set_option autoImplicit false
set_option relaxedAutoImplicit false

namespace MiniRedis.App.BaselineDetails

open MiniRedis.Base

/-! ### The collection -/

structure Document where
  recordId : String
  title : String
  body : String
  deriving DecidableEq

/-- What is made up for a record that is not found. -/
def fallbackDocument (recordId : String) : Document :=
  ⟨recordId, "Detail " ++ recordId, "Body for " ++ recordId⟩

/-- The two calls of a collection: `find_one` of a `record_id`, and `update_one` of the `record_id`
of a document with `$setOnInsert` of the document and `upsert=True`. -/
structure Database (σ : Type) where
  find : String → σ → Option Document
  updateOne : Document → σ → σ

/-- `$setOnInsert` leaves a document that matches alone, and where none matches `upsert` inserts one. -/
structure Database.SetsOnInsert {σ : Type} (db : Database σ) : Prop where
  matched : ∀ document stored collection, db.find document.recordId collection = some stored →
    db.find document.recordId (db.updateOne document collection) = some stored
  inserted : ∀ document collection, db.find document.recordId collection = none →
    db.find document.recordId (db.updateOne document collection) = some document
  others : ∀ document recordId collection, recordId ≠ document.recordId →
    db.find recordId (db.updateOne document collection) = db.find recordId collection

/-! ### Clients and threads -/

inductive Call where
  | healthCheck
  | fetchDetail (recordId : String)
  | seed

/-- How the next call to the database ends. One that raises may have been carried out. -/
inductive Reply where
  | answered
  | raised (applied : Bool)

/-- Where a thread stands between two calls to the database. -/
inductive Phase where
  | idle
  | connecting (call : Call)
  | connected (call : Call)
  | seeding (rest : List Document) (next : Option Call)
  | ready (call : Call)
  | inserting (recordId : String)

/-- Whether `_collection` is set, and `_seeded`. -/
structure Client where
  published : Bool := false
  seeded : Bool := false

/-- The clients are shared by the threads. -/
structure World (κ τ σ : Type) where
  collection : σ
  clients : κ → Client
  phases : τ → Phase
  fetched : List (String × Document)

/-- A thread's next call to the database, which begins the call of its client where it is idle. -/
structure Turn (τ : Type) where
  thread : τ
  call : Call
  reply : Reply

/-- A call of a client ends with what its database raises. -/
def Reply.proceed (phase : Phase) : Reply → Phase
  | .answered => phase
  | .raised _ => .idle

section

variable {κ τ σ : Type} [DecidableEq κ] [DecidableEq τ]

namespace World

def moveTo (thread : τ) (phase : Phase) (world : World κ τ σ) : World κ τ σ :=
  { world with phases := Function.update world.phases thread phase }

def setClient (client : κ) (value : Client) (world : World κ τ σ) : World κ τ σ :=
  { world with clients := Function.update world.clients client value }

def insert (db : Database σ) (document : Document) (reply : Reply) (world : World κ τ σ) :
    World κ τ σ :=
  match reply with
  | .raised false => world
  | _ => { world with collection := db.updateOne document world.collection }

def answer (recordId : String) (document : Document) (world : World κ τ σ) : World κ τ σ :=
  { world with fetched := world.fetched ++ [(recordId, document)] }

/-- No client has connected. -/
def start (collection : σ) : World κ τ σ where
  collection
  clients _ := {}
  phases _ := .idle
  fetched := []

end World

variable (db : Database σ) (owner : τ → κ) (documents : List Document)

/-- The first thing a call does is `_get_collection`. It sets `_collection` before it seeds, and
does not look at `_seeded` where it finds it set. -/
def step (turn : Turn τ) (world : World κ τ σ) : World κ τ σ :=
  let client := world.clients (owner turn.thread)
  match world.phases turn.thread with
  | .idle =>
    world.moveTo turn.thread (if client.published then .ready turn.call else .connecting turn.call)
  | .connecting call =>
    match turn.reply with
    | .answered =>
      (world.setClient (owner turn.thread) { client with published := true }).moveTo turn.thread
        (.connected call)
    | .raised _ => world.moveTo turn.thread .idle
  | .connected call =>
    -- where it is not seeded, the seed file is read
    world.moveTo turn.thread
      (if client.seeded then .ready call else turn.reply.proceed (.seeding documents (some call)))
  | .seeding (document :: rest) next =>
    (world.insert db document turn.reply).moveTo turn.thread (turn.reply.proceed (.seeding rest next))
  | .seeding [] next =>
    (world.setClient (owner turn.thread) { client with seeded := true }).moveTo turn.thread
      (next.elim .idle .ready)
  | .ready .healthCheck => world.moveTo turn.thread .idle
  | .ready .seed => world.moveTo turn.thread (turn.reply.proceed (.seeding documents none))
  | .ready (.fetchDetail recordId) =>
    match turn.reply with
    | .raised _ => world.moveTo turn.thread .idle
    | .answered =>
      match db.find recordId world.collection with
      | some document => (world.answer recordId document).moveTo turn.thread .idle
      | none => world.moveTo turn.thread (.inserting recordId)
  | .inserting recordId =>
    let world := (world.insert db (fallbackDocument recordId) turn.reply).moveTo turn.thread .idle
    match turn.reply with
    | .answered => world.answer recordId (fallbackDocument recordId)
    | .raised _ => world

/-- Any threads, in any order of their calls to the database. -/
abbrev run (schedule : List (Turn τ)) (world : World κ τ σ) : World κ τ σ :=
  runAll (step db owner documents) schedule world

/-! ### The one document of a record -/

/-- What was stored before, or the first document of the seed file, or what is made up. -/
def documentOf (before : σ) (recordId : String) : Document :=
  (db.find recordId before).getD
    ((documents.find? (fun document => document.recordId = recordId)).getD
      (fallbackDocument recordId))

/-- The collection has a document of each of some records. -/
def Has (collection : σ) (documents : List Document) : Prop :=
  ∀ document ∈ documents, (db.find document.recordId collection).isSome

/-- A fetch of a record of the seed file finds it. -/
def FindsSeeded (collection : σ) : Phase → Prop
  | .ready (.fetchDetail recordId) =>
    recordId ∈ documents.map Document.recordId → (db.find recordId collection).isSome
  | _ => True

instance (collection : σ) : ∀ phase, Decidable (FindsSeeded db documents collection phase)
  | .ready (.fetchDetail recordId) =>
    inferInstanceAs (Decidable (recordId ∈ documents.map Document.recordId →
      (db.find recordId collection).isSome))
  | .idle | .connecting _ | .connected _ | .seeding _ _ | .inserting _ | .ready .healthCheck
  | .ready .seed => inferInstanceAs (Decidable True)

/-- What a thread has seen to, by where it stands. The records in `made` may be made up. -/
def Fits (made : String → Prop) (collection : σ) : Phase → Prop
  | .seeding rest _ => ∃ seeded, documents = seeded ++ rest ∧ Has db collection seeded
  | .inserting recordId => made recordId
  | _ => True

/-- What holds between any two calls to the database. -/
structure Agreed (made : String → Prop) (before : σ) (world : World κ τ σ) : Prop where
  stored : ∀ recordId document, db.find recordId world.collection = some document →
    document = documentOf db documents before recordId ∨
      made recordId ∧ document = fallbackDocument recordId
  older : ∀ recordId, (db.find recordId before).isSome → (db.find recordId world.collection).isSome
  phases : ∀ thread, Fits db documents made world.collection (world.phases thread)
  seeded : ∀ client, (world.clients client).seeded = true → Has db world.collection documents
  fetched : ∀ answer ∈ world.fetched, ∃ document,
    db.find answer.1 world.collection = some document ∧
      (answer.2 = document ∨ made answer.1 ∧ answer.2 = fallbackDocument answer.1)

end

section

variable {σ : Type} {db : Database σ} (upserts : db.SetsOnInsert)

include upserts

theorem find_updateOne (document : Document) (collection : σ) (recordId : String) :
    db.find recordId (db.updateOne document collection) =
      (db.find recordId collection).or
        (if recordId = document.recordId then some document else none) := by
  by_cases same : recordId = document.recordId
  · subst same
    rw [if_pos rfl]
    cases stored : db.find document.recordId collection with
    | none => exact upserts.inserted document collection stored
    | some other => exact upserts.matched document other collection stored
  · rw [if_neg same, Option.or_none]
    exact upserts.others document recordId collection same

theorem find_updateOne_of_some {document stored : Document} {collection : σ} {recordId : String}
    (there : db.find recordId collection = some stored) :
    db.find recordId (db.updateOne document collection) = some stored := by
  rw [find_updateOne upserts, there]
  rfl

private theorem isSome_updateOne {document : Document} {collection : σ} {recordId : String}
    (there : (db.find recordId collection).isSome) :
    (db.find recordId (db.updateOne document collection)).isSome := by
  obtain ⟨stored, found⟩ := Option.isSome_iff_exists.mp there
  rw [find_updateOne_of_some upserts found]
  rfl

private theorem isSome_updateOne_self (document : Document) (collection : σ) :
    (db.find document.recordId (db.updateOne document collection)).isSome := by
  rw [find_updateOne upserts, if_pos rfl, Option.isSome_or]
  exact Bool.or_true _

private theorem Has.updateOne {collection : σ} {documents : List Document}
    (has : Has db collection documents) (document : Document) :
    Has db (db.updateOne document collection) documents :=
  fun other member => isSome_updateOne upserts (has other member)

private theorem Fits.updateOne {documents : List Document} {made : String → Prop} {collection : σ}
    {phase : Phase} (fits : Fits db documents made collection phase) (document : Document) :
    Fits db documents made (db.updateOne document collection) phase := by
  cases phase with
  | seeding rest next =>
    obtain ⟨seeded, split, has⟩ := fits
    exact ⟨seeded, split, has.updateOne upserts document⟩
  | _ => exact fits

end

section

variable {κ τ σ : Type} [DecidableEq κ] [DecidableEq τ] {db : Database σ} {owner : τ → κ}
  {documents : List Document} {made : String → Prop} {before : σ} {world : World κ τ σ}

/-! ### One call -/

private theorem fits_proceed {collection : σ} {phase : Phase}
    (fits : Fits db documents made collection phase) (reply : Reply) :
    Fits db documents made collection (reply.proceed phase) := by
  cases reply with
  | answered => exact fits
  | raised applied => trivial

private theorem find?_of_has {collection : σ} {documents : List Document} {recordId : String}
    (has : Has db collection documents) (absent : db.find recordId collection = none) :
    documents.find? (fun document => document.recordId = recordId) = none := by
  rw [List.find?_eq_none]
  intro document member same
  have there := has document member
  rw [of_decide_eq_true same, absent] at there
  cases there

namespace Agreed

omit [DecidableEq κ] in
private theorem moveTo (agreed : Agreed db documents made before world) (thread : τ) (phase : Phase)
    (fits : Fits db documents made world.collection phase) :
    Agreed db documents made before (world.moveTo thread phase) where
  stored := agreed.stored
  older := agreed.older
  phases other := by
    dsimp only [World.moveTo]
    by_cases same : other = thread
    · rw [same, Function.update_self]
      exact fits
    · rw [Function.update_of_ne same]
      exact agreed.phases other
  seeded := agreed.seeded
  fetched := agreed.fetched

omit [DecidableEq τ] in
private theorem setClient (agreed : Agreed db documents made before world) (client : κ)
    (value : Client) (has : value.seeded = true → Has db world.collection documents) :
    Agreed db documents made before (world.setClient client value) where
  stored := agreed.stored
  older := agreed.older
  phases := agreed.phases
  seeded other := by
    dsimp only [World.setClient]
    by_cases same : other = client
    · rw [same, Function.update_self]
      exact has
    · rw [Function.update_of_ne same]
      exact agreed.seeded other
  fetched := agreed.fetched

omit [DecidableEq κ] [DecidableEq τ] in
private theorem updateOne (upserts : db.SetsOnInsert)
    (agreed : Agreed db documents made before world) (document : Document)
    (chosen : db.find document.recordId world.collection = none →
      document = documentOf db documents before document.recordId ∨
        made document.recordId ∧ document = fallbackDocument document.recordId) :
    Agreed db documents made before
      { world with collection := db.updateOne document world.collection } where
  stored recordId found there := by
    rw [find_updateOne upserts] at there
    cases stored : db.find recordId world.collection with
    | some other =>
      rw [stored] at there
      cases there
      exact agreed.stored recordId found stored
    | none =>
      rw [stored, Option.none_or] at there
      split_ifs at there with same
      cases there
      subst same
      exact chosen stored
  older recordId there := isSome_updateOne upserts (agreed.older recordId there)
  phases thread := (agreed.phases thread).updateOne upserts document
  seeded client seeded := (agreed.seeded client seeded).updateOne upserts document
  fetched answer member := by
    obtain ⟨stored, there, answered⟩ := agreed.fetched answer member
    exact ⟨stored, find_updateOne_of_some upserts there, answered⟩

omit [DecidableEq κ] [DecidableEq τ] in
private theorem insert (upserts : db.SetsOnInsert)
    (agreed : Agreed db documents made before world) (document : Document)
    (chosen : db.find document.recordId world.collection = none →
      document = documentOf db documents before document.recordId ∨
        made document.recordId ∧ document = fallbackDocument document.recordId) (reply : Reply) :
    Agreed db documents made before (world.insert db document reply) := by
  cases reply with
  | answered => exact agreed.updateOne upserts document chosen
  | raised applied =>
    cases applied with
    | false => exact agreed
    | true => exact agreed.updateOne upserts document chosen

omit [DecidableEq κ] [DecidableEq τ] in
private theorem answer (agreed : Agreed db documents made before world) {recordId : String}
    {document stored : Document} (there : db.find recordId world.collection = some stored)
    (answered : document = stored ∨ made recordId ∧ document = fallbackDocument recordId) :
    Agreed db documents made before (world.answer recordId document) where
  stored := agreed.stored
  older := agreed.older
  phases := agreed.phases
  seeded := agreed.seeded
  fetched := by
    rw [World.answer, List.forall_mem_append, List.forall_mem_singleton]
    exact ⟨agreed.fetched, stored, there, answered⟩

omit [DecidableEq κ] [DecidableEq τ] in
private theorem fresh_of_absent (agreed : Agreed db documents made before world)
    {recordId : String} (absent : db.find recordId world.collection = none) :
    db.find recordId before = none := by
  rw [← Option.not_isSome_iff_eq_none]
  intro older
  have there := agreed.older recordId older
  rw [absent] at there
  cases there

omit [DecidableEq κ] [DecidableEq τ] in
private theorem chosen_of_seeding (agreed : Agreed db documents made before world)
    {seeded rest : List Document} {document : Document}
    (split : documents = seeded ++ document :: rest) (has : Has db world.collection seeded)
    (absent : db.find document.recordId world.collection = none) :
    document = documentOf db documents before document.recordId := by
  have first : documents.find? (fun other => other.recordId = document.recordId) = some document := by
    rw [split, List.find?_append, find?_of_has has absent, List.find?_cons_of_pos (by simp)]
    rfl
  rw [documentOf, agreed.fresh_of_absent absent, first]
  rfl

omit [DecidableEq κ] in
private theorem seedDocument (upserts : db.SetsOnInsert)
    (agreed : Agreed db documents made before world) {document : Document} {rest : List Document}
    {next : Option Call}
    (fits : Fits db documents made world.collection (.seeding (document :: rest) next))
    (thread : τ) (reply : Reply) :
    Agreed db documents made before
      ((world.insert db document reply).moveTo thread (reply.proceed (.seeding rest next))) := by
  obtain ⟨seeded, split, has⟩ := fits
  have inserted := agreed.insert upserts document
    (fun absent => Or.inl (agreed.chosen_of_seeding split has absent)) reply
  refine inserted.moveTo thread _ ?_
  cases reply with
  | raised applied => trivial
  | answered =>
    have longer : Has db (db.updateOne document world.collection) (seeded ++ [document]) := by
      unfold Has
      rw [List.forall_mem_append, List.forall_mem_singleton]
      exact ⟨has.updateOne upserts document, isSome_updateOne_self upserts document _⟩
    exact ⟨seeded ++ [document], by rw [split, List.append_assoc]; rfl, longer⟩

omit [DecidableEq κ] in
private theorem insertFallback (upserts : db.SetsOnInsert)
    (agreed : Agreed db documents made before world) {recordId : String} (fits : made recordId)
    (thread : τ) :
    Agreed db documents made before
      (((world.insert db (fallbackDocument recordId) .answered).moveTo thread .idle).answer recordId
        (fallbackDocument recordId)) := by
  have inserted := agreed.insert upserts (fallbackDocument recordId)
    (fun _ => Or.inr ⟨fits, rfl⟩) .answered
  obtain ⟨stored, found⟩ := Option.isSome_iff_exists.mp
    (isSome_updateOne_self upserts (fallbackDocument recordId) world.collection)
  exact (inserted.moveTo thread .idle trivial).answer found (Or.inr ⟨fits, rfl⟩)

theorem step (upserts : db.SetsOnInsert) (agreed : Agreed db documents made before world)
    (turn : Turn τ)
    (looks : ∀ recordId, world.phases turn.thread = .ready (.fetchDetail recordId) →
      db.find recordId world.collection = none → made recordId) :
    Agreed db documents made before (BaselineDetails.step db owner documents turn world) := by
  have fits := agreed.phases turn.thread
  have reads : ∀ next, Fits db documents made world.collection (.seeding documents next) :=
    fun _ => ⟨[], rfl, List.forall_mem_nil _⟩
  unfold BaselineDetails.step
  cases phase : world.phases turn.thread with
  | idle =>
    refine agreed.moveTo turn.thread _ ?_
    split <;> trivial
  | connecting call =>
    cases turn.reply with
    | answered =>
      have seeded := agreed.seeded (owner turn.thread)
      exact (agreed.setClient _ ⟨true, _⟩ seeded).moveTo turn.thread (.connected call) trivial
    | raised applied => exact agreed.moveTo turn.thread .idle trivial
  | connected call =>
    refine agreed.moveTo turn.thread _ ?_
    split
    · trivial
    · exact fits_proceed (reads _) turn.reply
  | seeding rest next =>
    rw [phase] at fits
    cases rest with
    | nil =>
      obtain ⟨seeded, split, has⟩ := fits
      rw [List.append_nil] at split
      subst split
      refine (agreed.setClient _ ⟨_, true⟩ (fun _ => has)).moveTo turn.thread _ ?_
      cases next <;> trivial
    | cons document rest => exact agreed.seedDocument upserts fits turn.thread turn.reply
  | ready call =>
    cases call with
    | healthCheck => exact agreed.moveTo turn.thread .idle trivial
    | seed => exact agreed.moveTo turn.thread _ (fits_proceed (reads none) turn.reply)
    | fetchDetail recordId =>
      cases turn.reply with
      | raised applied => exact agreed.moveTo turn.thread .idle trivial
      | answered =>
        dsimp only
        cases stored : db.find recordId world.collection with
        | some document =>
          exact (agreed.answer stored (Or.inl rfl)).moveTo turn.thread .idle trivial
        | none =>
          exact agreed.moveTo turn.thread (.inserting recordId) (looks recordId phase stored)
  | inserting recordId =>
    rw [phase] at fits
    cases turn.reply with
    | raised applied =>
      have inserted := agreed.insert upserts (fallbackDocument recordId)
        (fun _ => Or.inr ⟨fits, rfl⟩) (.raised applied)
      exact inserted.moveTo turn.thread .idle trivial
    | answered => exact agreed.insertFallback upserts fits turn.thread

omit [DecidableEq κ] [DecidableEq τ] in
/-- Where only that document is made up which the record has anyway, it has no other. -/
private theorem one_document
    (agreed : Agreed db documents
      (fun recordId => documentOf db documents before recordId = fallbackDocument recordId)
      before world) {recordId : String} {document : Document}
    (known : db.find recordId world.collection = some document ∨
      (recordId, document) ∈ world.fetched) :
    db.find recordId world.collection = some document ∧
      document = documentOf db documents before recordId := by
  have stored_one : ∀ stored, db.find recordId world.collection = some stored →
      stored = documentOf db documents before recordId := by
    intro stored there
    rcases agreed.stored recordId stored there with same | ⟨made, same⟩
    · exact same
    · rw [same, made]
  rcases known with there | member
  · exact ⟨there, stored_one document there⟩
  · obtain ⟨stored, there, answered⟩ := agreed.fetched _ member
    have same : document = stored := by
      rcases answered with same | ⟨made, same⟩
      · exact same
      · rw [stored_one stored there, made]
        exact same
    subst same
    exact ⟨there, stored_one document there⟩

end Agreed

omit [DecidableEq κ] [DecidableEq τ] in
theorem agreed_start (made : String → Prop) :
    Agreed db documents made before (World.start before : World κ τ σ) where
  stored recordId document there := by
    refine Or.inl ?_
    change db.find recordId before = some document at there
    rw [documentOf, there]
    rfl
  older _ there := there
  phases _ := trivial
  seeded _ seeded := by cases seeded
  fetched := List.forall_mem_nil _

theorem agreed_run (upserts : db.SetsOnInsert) (schedule : List (Turn τ)) :
    Agreed db documents (fun recordId => db.find recordId before = none) before
      (run db owner documents schedule (World.start before)) :=
  invariant_of_steps
    (fun turn _ agreed => agreed.step upserts turn (fun _ _ absent => agreed.fresh_of_absent absent))
    schedule (agreed_start _)

theorem agreed_run_of_findsSeeded (upserts : db.SetsOnInsert) {schedule : List (Turn τ)}
    (finds : EachStep (BaselineDetails.step db owner documents)
      (fun turn (world : World κ τ σ) =>
        FindsSeeded db documents world.collection (world.phases turn.thread))
      schedule (World.start before)) :
    Agreed db documents
      (fun recordId => documentOf db documents before recordId = fallbackDocument recordId) before
      (run db owner documents schedule (World.start before)) := by
  refine invariant_of_eachStep (fun turn _ found agreed => ?_) finds (agreed_start _)
  refine agreed.step upserts turn (fun recordId phase absent => ?_)
  rw [phase] at found
  -- What is made up is not in the seed file.
  have unlisted : documents.find? (fun document => document.recordId = recordId) = none := by
    rw [List.find?_eq_none]
    intro document member same
    have there := found (List.mem_map.mpr ⟨document, member, of_decide_eq_true same⟩)
    rw [absent] at there
    cases there
  rw [documentOf, agreed.fresh_of_absent absent, unlisted]
  rfl

/-- No call takes a stored document away or changes it. -/
theorem find_step (upserts : db.SetsOnInsert) (turn : Turn τ) {recordId : String}
    {document : Document} (there : db.find recordId world.collection = some document) :
    db.find recordId (step db owner documents turn world).collection = some document := by
  have inserted : ∀ other reply,
      db.find recordId (world.insert db other reply).collection = some document := by
    intro other reply
    rcases reply with _ | (_ | _)
    · exact find_updateOne_of_some upserts there
    · exact there
    · exact find_updateOne_of_some upserts there
  unfold step
  cases world.phases turn.thread with
  | idle => exact there
  | connecting call => cases turn.reply <;> exact there
  | connected call => exact there
  | seeding rest next =>
    cases rest with
    | nil => exact there
    | cons other rest => exact inserted other turn.reply
  | ready call =>
    cases call with
    | healthCheck => exact there
    | seed => exact there
    | fetchDetail asked =>
      cases turn.reply with
      | raised applied => exact there
      | answered =>
        dsimp only
        cases db.find asked world.collection <;> exact there
  | inserting asked =>
    have kept := inserted (fallbackDocument asked) turn.reply
    cases reply : turn.reply <;> (rw [reply] at kept; exact kept)

end

section

variable {κ τ σ : Type} [DecidableEq κ] [DecidableEq τ] (db : Database σ) (owner : τ → κ)
  (documents : List Document) (before : σ)

/-- In whatever order the threads make their calls, and whichever of these raise, a stored document
stays as it is. It is the one stored before, or the first of the seed file, or where none was stored
before it may be made up; what a fetch answers is stored, or was made up while another thread stored
the record. A seeded client has seen the whole seed file stored. Where every fetch of a record of the
seed file finds it, whatever is stored or was fetched of a record is one document. -/
theorem clients_agree_on_details (upserts : db.SetsOnInsert) (schedule : List (Turn τ)) :
    let reached (schedule : List (Turn τ)) : World κ τ σ :=
      run db owner documents schedule (World.start before)
    let world := reached schedule
    (∀ more recordId document, db.find recordId world.collection = some document →
      db.find recordId (reached (schedule ++ more)).collection = some document) ∧
    (∀ recordId document, db.find recordId world.collection = some document →
      document = documentOf db documents before recordId ∨
        db.find recordId before = none ∧ document = fallbackDocument recordId) ∧
    (∀ recordId document, (recordId, document) ∈ world.fetched → ∃ stored,
      db.find recordId world.collection = some stored ∧
        (document = stored ∨
          db.find recordId before = none ∧ document = fallbackDocument recordId)) ∧
    (∀ client, (world.clients client).seeded = true → ∀ document ∈ documents,
      (db.find document.recordId world.collection).isSome) ∧
    (EachStep (step db owner documents) (fun turn (world : World κ τ σ) =>
        FindsSeeded db documents world.collection (world.phases turn.thread))
      schedule (World.start before) →
      ∀ recordId document, db.find recordId world.collection = some document ∨
          (recordId, document) ∈ world.fetched →
        db.find recordId world.collection = some document ∧
          document = documentOf db documents before recordId) := by
  intro reached world
  have agreed : Agreed db documents (fun recordId => db.find recordId before = none) before world :=
    agreed_run upserts schedule
  refine ⟨?_, agreed.stored, fun recordId document member => agreed.fetched _ member,
    agreed.seeded, fun finds _ _ known => ?_⟩
  · intro more recordId document there
    change db.find recordId (run db owner documents (schedule ++ more) _).collection = _
    rw [run, runAll_append]
    exact invariant_of_steps
      (I := fun world : World κ τ σ => db.find recordId world.collection = some document)
      (fun turn _ there => find_step upserts turn there) more there
  · exact (agreed_run_of_findsSeeded upserts finds).one_document known

end

/-! ### A collection in memory -/

/-- The documents by their `record_id`. -/
def inMemory : Database (Dict String Document) where
  find recordId collection := collection.get? recordId
  updateOne document collection :=
    if (collection.get? document.recordId).isSome then collection
    else collection.set document.recordId document

private theorem inMemory_setsOnInsert : inMemory.SetsOnInsert where
  matched document stored collection there := by
    change (collection.get? document.recordId) = _ at there
    simp only [inMemory, there, Option.isSome_some, if_true]
  inserted document collection absent := by
    change (collection.get? document.recordId) = _ at absent
    simp only [inMemory, absent, Option.isSome_none, Bool.false_eq_true, if_false, Dict.get?_set,
      if_true]
  others document recordId collection other := by
    simp only [inMemory]
    split
    · rfl
    · rw [Dict.get?_set, if_neg other]

private def seedFile : List Document := [⟨"1", "One", "First"⟩]

/-- Two threads share a client: the first one connects, seeds and fetches a record of the seed file,
then the second one fetches a record that is not there. -/
private def seededFirst : List (Turn Bool) :=
  List.replicate 7 ⟨false, .fetchDetail "1", .answered⟩ ++
    List.replicate 3 ⟨true, .fetchDetail "2", .answered⟩

theorem shared_client_agrees :
    (run inMemory (fun _ => ()) seedFile seededFirst (World.start Dict.empty)).fetched =
        [("1", ⟨"1", "One", "First"⟩), ("2", fallbackDocument "2")] ∧
      inMemory.find "1" (run inMemory (fun _ : Bool => ()) seedFile seededFirst
        (World.start Dict.empty)).collection = some (documentOf inMemory seedFile Dict.empty "1") := by
  have fetched : (run inMemory (fun _ => ()) seedFile seededFirst (World.start Dict.empty)).fetched =
      [("1", ⟨"1", "One", "First"⟩), ("2", fallbackDocument "2")] := by decide +kernel
  obtain ⟨-, -, -, -, agree⟩ := clients_agree_on_details inMemory (fun _ : Bool => ()) seedFile
    Dict.empty inMemory_setsOnInsert seededFirst
  refine ⟨fetched, ?_⟩
  obtain ⟨there, same⟩ := agree (by decide +kernel) "1" ⟨"1", "One", "First"⟩
    (Or.inr (by rw [fetched]; exact List.mem_cons_self))
  rw [there, same]

/-- The second thread fetches between the set of `_collection` and the seeding. -/
example : (run inMemory (fun _ => ()) seedFile
    (List.replicate 2 ⟨false, .seed, .answered⟩ ++
      List.replicate 3 ⟨true, .fetchDetail "1", .answered⟩ ++
      List.replicate 3 ⟨false, .seed, .answered⟩) (World.start Dict.empty)).collection.get? "1" =
    some (fallbackDocument "1") := by
  decide +kernel

end MiniRedis.App.BaselineDetails
