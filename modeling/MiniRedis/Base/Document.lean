/- GID: MiniRedis/Base/Document
   generality: G
   digest: A store of nested documents whose updates address what they change by dotted paths. -/

import MiniRedis.Base.Dict

set_option autoImplicit false
set_option relaxedAutoImplicit false

namespace MiniRedis.Base

/-- A text, or a document with its fields in order. -/
inductive Value where
  | text (content : String)
  | document (fields : List (String × Value))

abbrev Document := List (String × Value)

/-! ### Names -/

/-- Which names a field of a stored document may have, and which ones a path may go through. Names
of letters and underscores are taken everywhere. -/
structure NameRules where
  storable : String → Bool
  addressable : String → Bool
  storable_of_letters : ∀ {name : String},
    name ≠ "" → name.toList.all (fun c => c.isAlpha || c = '_') = true → storable name = true
  addressable_of_letters : ∀ {name : String},
    name ≠ "" → name.toList.all (fun c => c.isAlpha || c = '_') = true → addressable name = true

mutual

def Value.names : Value → List String
  | .text _ => []
  | .document fields => namesOf fields

/-- All names of fields, at every depth. -/
def namesOf : List (String × Value) → List String
  | [] => []
  | (name, value) :: rest => name :: (value.names ++ namesOf rest)

end

namespace Document

/-! ### Fields -/

def get? (document : Document) (name : String) : Option Value := document.lookup name

/-- A field keeps its place, and a new one goes to the end. -/
def set (name : String) (value : Value) : Document → Document
  | [] => [(name, value)]
  | field :: rest => if field.1 = name then (name, value) :: rest else field :: set name value rest

def unset (name : String) (document : Document) : Document :=
  document.filter (fun field => field.1 ≠ name)

/-- The names that a dotted path goes through. -/
def pathOf (dotted : String) : List String :=
  (dotted.toList.splitOn '.').map String.ofList

/-- Set what a path addresses. A document that is absent on the way is made, and a text in the way
is an error. -/
def setPath (value : Value) : List String → Document → Option Document
  | [], _ => none
  | [name], document => some (set name value document)
  | name :: rest, document =>
    match document.get? name with
    | none => (setPath value rest []).map (fun inner => set name (.document inner) document)
    | some (.document inner) =>
      (setPath value rest inner).map (fun inner => set name (.document inner) document)
    | some (.text _) => none

/-- Remove what a path addresses, where there is something. -/
def unsetPath : List String → Document → Document
  | [], document => document
  | [name], document => unset name document
  | name :: rest, document =>
    match document.get? name with
    | some (.document inner) => set name (.document (unsetPath rest inner)) document
    | _ => document

/-- An update with its paths. It is made as a whole or not at all. -/
structure Update where
  sets : List (String × Value)
  unsets : List String

def Update.paths (update : Update) : List (List String) :=
  (update.sets.map Prod.fst ++ update.unsets).map pathOf

def Update.apply (rules : NameRules) (update : Update) (document : Document) : Option Document :=
  if update.paths.all (fun path => path.all rules.addressable) then
    (update.sets.foldlM (fun document item => setPath item.2 (pathOf item.1) document) document).map
      (fun document => update.unsets.foldl (fun document path => unsetPath (pathOf path) document) document)
  else none

theorem set_of_split {document front rest : Document} {name : String} {w : Value}
    (split : document = front ++ (name, w) :: rest) (fresh : name ∉ front.map Prod.fst) (v : Value) :
    document.set name v = front ++ (name, v) :: rest := by
  subst split
  induction front with
  | nil => simp [set]
  | cons field front ih =>
    rw [List.map_cons, List.mem_cons, not_or] at fresh
    rw [List.cons_append, set, if_neg (fun same => fresh.1 same.symm), ih fresh.2, List.cons_append]

theorem set_of_not_mem {document : Document} {name : String} (fresh : name ∉ document.map Prod.fst)
    (v : Value) : document.set name v = document ++ [(name, v)] := by
  induction document with
  | nil => rfl
  | cons field document ih =>
    rw [List.map_cons, List.mem_cons, not_or] at fresh
    rw [set, if_neg (fun same => fresh.1 same.symm), ih fresh.2, List.cons_append]

/-- A dictionary of texts as a document. -/
def ofTexts (texts : Dict String String) : Document :=
  texts.entries.map (fun entry => (entry.1, .text entry.2))

theorem map_fst_ofTexts (texts : Dict String String) : (ofTexts texts).map Prod.fst = texts.keys := by
  rw [ofTexts, List.map_map]
  rfl

theorem get?_ofTexts (texts : Dict String String) (name : String) :
    (ofTexts texts).get? name = (texts.get? name).map .text := by
  unfold ofTexts Document.get? Dict.get?
  induction texts.entries with
  | nil => rfl
  | cons entry entries ih =>
    rw [List.map_cons, List.lookup_cons, List.lookup_cons]
    split
    · rfl
    · exact ih

theorem ofTexts_set (texts : Dict String String) (name content : String) :
    (ofTexts texts).set name (.text content) = ofTexts (texts.set name content) := by
  by_cases member : name ∈ texts.keys
  · obtain ⟨stored, known⟩ := (texts.mem_keys_iff name).mp member
    obtain ⟨front, rest, split⟩ := List.append_of_mem ((texts.get?_eq_some_iff name stored).mp known)
    have nodup := texts.nodup
    rw [split, List.map_append, List.nodup_append] at nodup
    have fresh : name ∉ front.map Prod.fst := fun inside => nodup.2.2 name inside name (by simp) rfl
    have parts : ofTexts texts = front.map (fun entry => (entry.1, .text entry.2)) ++
        (name, .text stored) :: rest.map (fun entry => (entry.1, .text entry.2)) := by
      rw [ofTexts, split, List.map_append, List.map_cons]
    rw [set_of_split parts (by simpa [List.map_map] using fresh), ofTexts,
      Dict.entries_set_of_split split, List.map_append, List.map_cons]
  · have fresh : name ∉ (ofTexts texts).map Prod.fst := by
      rw [map_fst_ofTexts]
      exact member
    rw [set_of_not_mem fresh, ofTexts, ofTexts, Dict.entries_set_of_not_mem member, List.map_append]
    rfl

/-! ### Paths -/

theorem pathOf_of_plain {name : String} (plain : '.' ∉ name.toList) : pathOf name = [name] := by
  have whole : name.toList.splitOn '.' = [name.toList] := by
    apply List.splitOnP_eq_singleton
    intro c member
    rw [beq_eq_false_iff_ne]
    rintro rfl
    exact plain member
  rw [pathOf, whole, List.map_singleton, String.ofList_toList]

theorem pathOf_append_dot {first : String} (rest : String) (plain : '.' ∉ first.toList) :
    pathOf (first ++ "." ++ rest) = first :: pathOf rest := by
  have parted : (first ++ "." ++ rest).toList = first.toList ++ '.' :: rest.toList := by simp
  have dot : ('.' == '.') = true := rfl
  have split := List.splitOnP_append_cons (p := (· == '.')) first.toList rest.toList dot
  have whole := pathOf_of_plain plain
  unfold pathOf at whole ⊢
  rw [parted, List.splitOn, split, List.map_append]
  rw [List.splitOn] at whole
  rw [whole, List.splitOn, List.singleton_append]

theorem pathOf_ne_nil (dotted : String) : pathOf dotted ≠ [] := by
  rw [pathOf, ne_eq, List.map_eq_nil_iff]
  exact List.splitOnP_ne_nil _ _

theorem pathOf_of_dotted {name : String} (dotted : '.' ∈ name.toList) :
    ∃ first second rest, pathOf name = first :: second :: rest ∧ first ≠ name := by
  obtain ⟨front, back, split, plain⟩ := List.eq_append_cons_of_mem dotted
  have parted : name = String.ofList front ++ "." ++ String.ofList back := by
    apply String.toList_injective
    simp [split]
  have undotted : '.' ∉ (String.ofList front).toList := by simpa using plain
  have path := pathOf_append_dot (String.ofList back) undotted
  obtain ⟨second, rest, tail⟩ := List.exists_cons_of_ne_nil (pathOf_ne_nil (String.ofList back))
  rw [← parted, tail] at path
  refine ⟨_, second, rest, path, ?_⟩
  intro same
  rw [← same] at dotted
  exact plain (by simpa using dotted)

end Document

/-! ### Collections -/

/-- Documents by their ids. -/
abbrev Collection := Dict String Document

namespace Collection

def findOne (collection : Collection) (id : String) : Option Document := collection.get? id

/-- Replace the document with the id, or insert it. -/
def replaceOne (rules : NameRules) (id : String) (document : Document) (collection : Collection) :
    Option Collection :=
  if (namesOf document).all rules.storable then some (collection.set id document) else none

/-- Update the document with the id. There may be none. -/
def updateOne (rules : NameRules) (id : String) (update : Document.Update) (collection : Collection) :
    Option Collection :=
  match collection.get? id with
  | none => some collection
  | some document => (update.apply rules document).map (collection.set id)

/-- Remove the document with the id, and say how many there were. -/
def deleteOne (id : String) (collection : Collection) : ℕ × Collection :=
  (if collection.get? id = none then 0 else 1, collection.erase id)

def deleteMany (ids : List String) (collection : Collection) : Collection :=
  collection.filter (fun id _ => id ∉ ids)

end Collection

end MiniRedis.Base
