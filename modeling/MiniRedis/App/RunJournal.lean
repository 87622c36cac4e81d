/- GID: MiniRedis/App/RunJournal
   generality: I
   digest: The text files of a run store hold the last record and every line of each run. -/

import MiniRedis.App.RunFiles

set_option autoImplicit false
set_option relaxedAutoImplicit false

namespace MiniRedis.App.RunFiles

open MiniRedis.Base MiniRedis.Python JsonText

/-! ### Names of files -/

private theorem append_injective {a b tail : String} (same : a ++ tail = b ++ tail) : a = b := by
  have chars := congrArg String.toList same
  rw [String.toList_append, String.toList_append] at chars
  exact String.toList_inj.mp (List.append_cancel_right chars)

theorem runPath_injective {a b : String} (same : runPath a = runPath b) : a = b :=
  append_injective same

theorem eventsPath_injective {a b : String} (same : eventsPath a = eventsPath b) : a = b :=
  append_injective same

theorem logsPath_injective {a b : String} (same : logsPath a = logsPath b) : a = b :=
  append_injective same

private theorem append_ne {a b tail tail' : String} (count : ℕ)
    (fits : count ≤ tail.toList.length) (fits' : count ≤ tail'.toList.length)
    (other : tail.toList.reverse.take count ≠ tail'.toList.reverse.take count) :
    a ++ tail ≠ b ++ tail' := by
  intro same
  have ends := congrArg (fun name => name.toList.reverse.take count) same
  simp only [String.toList_append, List.reverse_append] at ends
  rw [List.take_append_of_le_length (by rwa [List.length_reverse]),
    List.take_append_of_le_length (by rwa [List.length_reverse])] at ends
  exact other ends

theorem runPath_ne_eventsPath (a b : String) : runPath a ≠ eventsPath b :=
  append_ne 1 (by decide) (by decide) (by decide)

theorem runPath_ne_logsPath (a b : String) : runPath a ≠ logsPath b :=
  append_ne 1 (by decide) (by decide) (by decide)

theorem eventsPath_ne_logsPath (a b : String) : eventsPath a ≠ logsPath b :=
  append_ne 8 (by decide) (by decide) (by decide)

private theorem isRunFile_of_line {name : String}
    (line : ∃ runId, name = eventsPath runId ∨ name = logsPath runId) : isRunFile name = false := by
  obtain ⟨runId, same⟩ := line
  rw [isRunFile, Bool.and_eq_false_iff]
  right
  rw [← Bool.not_eq_true, List.isSuffixOf_iff_suffix]
  rintro ⟨front, split⟩
  have named : name = runPath (String.ofList front) := by
    rw [← String.toList_inj, runPath, String.toList_append, String.toList_ofList, split]
  rcases same with same | same
  · exact runPath_ne_eventsPath _ _ (named.symm.trans same)
  · exact runPath_ne_logsPath _ _ (named.symm.trans same)

/-! ### Reading what was written -/

private theorem not_return_of_written {indent : Option ℕ} {c : Char} (written : Written indent c) :
    c ≠ '\r' := by
  rintro rfl
  rcases written with printable | ⟨-, same⟩
  · exact absurd printable (by decide)
  · exact absurd same (by decide)

private theorem written_dumps {indent : Option ℕ} {value : JsonValue} (plain : Plain value) :
    ∀ c ∈ (dumps indent value).toList, Written indent c := by
  rw [dumps, String.toList_ofList]
  exact written_dumpsValue indent 0 value plain

private theorem payloadOf_dumps (indent : Option ℕ) {value : JsonValue} (plain : Plain value) :
    payloadOf (dumps indent value) = .ok value := by
  rw [payloadOf, loads_dumps indent plain]

private theorem readText_of_dumps {path : String} {files : Files} {indent : Option ℕ}
    {value : JsonValue} (plain : Plain value) (stored : files.get? path = some (dumps indent value)) :
    readText path files = some (dumps indent value) := by
  have same : universalNewlines (dumps indent value).toList = (dumps indent value).toList :=
    universalNewlines_eq (fun member => not_return_of_written (written_dumps plain _ member) rfl)
  rw [readText, stored, Option.map_some, same, String.ofList_toList]

/-- The text of some lines, as long as there is one. -/
def linesFile (entries : List JsonValue) : Option String :=
  if entries.isEmpty then none else some (String.ofList (linesText (entries.map (dumpsValue none 0))))

private theorem line_of_value {value : JsonValue} (plain : Plain value) :
    dumpsValue none 0 value ≠ [] ∧ ∀ c ∈ dumpsValue none 0 value, isLineBoundary c = false := by
  constructor
  · intro empty
    have reads := (readsBack none value plain).begins 0
    rw [empty] at reads
    obtain ⟨c, rest, same, -⟩ := reads
    cases same
  · intro c member
    rcases written_dumpsValue none 0 value plain c member with ⟨low, high⟩ | ⟨indented, -⟩
    · simp only [isLineBoundary, List.mem_cons, List.not_mem_nil, or_false, decide_eq_false_iff_not]
      omega
    · cases indented

private theorem mapM_payloadOf {entries : List JsonValue} (plain : ∀ value ∈ entries, Plain value) :
    (entries.map (dumpsValue none 0)).mapM (fun line => payloadOf (String.ofList line)) =
      .ok entries := by
  have each : ∀ value ∈ entries, payloadOf (String.ofList (dumpsValue none 0 value)) = .ok value :=
    fun value member => payloadOf_dumps none (plain value member)
  rw [List.mapM_map]
  exact (mapM_map_ok (g := id) each).trans (by rw [List.map_id])

private theorem readLines_of_linesFile {path : String} {files : Files} {entries : List JsonValue}
    (plain : ∀ value ∈ entries, Plain value) (stored : files.get? path = linesFile entries) :
    readLines path files = .ok entries := by
  have lines : ∀ line ∈ entries.map (dumpsValue none 0),
      line ≠ [] ∧ ∀ c ∈ line, isLineBoundary c = false := by
    intro line listed
    obtain ⟨value, member, rfl⟩ := List.mem_map.mp listed
    exact line_of_value (plain value member)
  cases entries with
  | nil =>
    rw [readLines, readText, stored]
    rfl
  | cons value entries =>
    have text : linesFile (value :: entries) =
        some (String.ofList (linesText ((value :: entries).map (dumpsValue none 0)))) := rfl
    generalize value :: entries = entries at plain lines text stored
    have noReturn : '\r' ∉ linesText (entries.map (dumpsValue none 0)) := by
      intro member
      obtain ⟨line, listed, member⟩ := List.mem_flatMap.mp member
      rcases List.mem_append.mp member with member | member
      · exact absurd ((lines line listed).2 _ member) (by decide)
      · exact absurd (List.mem_singleton.mp member) (by decide)
    have kept : (entries.map (dumpsValue none 0)).filter (· ≠ []) = entries.map (dumpsValue none 0) :=
      List.filter_eq_self.mpr (fun line listed => decide_eq_true (lines line listed).1)
    rw [readLines, readText, stored, text]
    simp only [Option.map_some, String.toList_ofList]
    rw [universalNewlines_eq noReturn,
      splitlines_linesText (fun line listed => (lines line listed).2), kept]
    exact mapM_payloadOf plain

/-! ### The files show the journal -/

/-- The files hold the journal, and nothing else. -/
structure Shows (files : Files) (journal : Journal) : Prop where
  runs : ∀ runId, files.get? (runPath runId) =
    (journal.runs.get? runId).map (fun record => dumps (some 2) (toDict record))
  keyed : ∀ runId record, journal.runs.get? runId = some record → record.runId = runId
  plainRuns : ∀ runId record, journal.runs.get? runId = some record → Plain (toDict record)
  events : ∀ runId, files.get? (eventsPath runId) = linesFile (journal.events runId)
  plainEvents : ∀ runId, ∀ event ∈ journal.events runId, Plain event
  logs : ∀ runId, files.get? (logsPath runId) = linesFile (journal.logs runId)
  plainLogs : ∀ runId, ∀ entry ∈ journal.logs runId, Plain entry
  names : ∀ name ∈ files.keys, (∃ runId ∈ journal.runs.keys, name = runPath runId) ∨
    ∃ runId, name = eventsPath runId ∨ name = logsPath runId

theorem shows_empty : Shows Dict.empty {} where
  runs _ := rfl
  keyed _ _ stored := nomatch stored
  plainRuns _ _ stored := nomatch stored
  events _ := rfl
  plainEvents _ _ member := nomatch member
  logs _ := rfl
  plainLogs _ _ member := nomatch member
  names _ member := nomatch member

private theorem linesFile_append (entries : List JsonValue) (value : JsonValue) :
    linesFile (entries ++ [value]) =
      some ((linesFile entries).getD "" ++ (dumps none value ++ "\n")) := by
  have text : linesFile (entries ++ [value]) =
      some (String.ofList (linesText ((entries ++ [value]).map (dumpsValue none 0)))) := by
    unfold linesFile
    rw [if_neg (by simp)]
  have last : linesText [dumpsValue none 0 value] = (dumps none value ++ "\n").toList := by
    rw [dumps, String.toList_append, String.toList_ofList]
    exact List.append_nil _
  have front : ((linesFile entries).getD "").toList = linesText (entries.map (dumpsValue none 0)) := by
    cases entries with
    | nil => rfl
    | cons first entries => exact String.toList_ofList
  rw [text, List.map_append, linesText_append, List.map_singleton, last, ← front]
  congr 1
  rw [← String.toList_inj, String.toList_ofList]
  simp only [String.toList_append]

namespace Shows

variable {files : Files} {journal : Journal}

theorem writeRun (shows_ : Shows files journal) {record : RunRecord} (plain : Plain (toDict record)) :
    Shows (RunFiles.writeRun record files) (Journal.apply (.writeRun record) journal) where
  runs runId := by
    rw [RunFiles.writeRun, Dict.get?_set]
    dsimp only [Journal.apply]
    rw [Dict.get?_set, shows_.runs]
    by_cases same : runId = record.runId
    · rw [same, if_pos rfl, if_pos rfl, Option.map_some]
    · rw [if_neg (fun paths => same (runPath_injective paths)), if_neg same]
  keyed runId found stored := by
    dsimp only [Journal.apply] at stored
    rw [Dict.get?_set] at stored
    split_ifs at stored with same
    · cases stored
      exact same.symm
    · exact shows_.keyed runId found stored
  plainRuns runId found stored := by
    dsimp only [Journal.apply] at stored
    rw [Dict.get?_set] at stored
    split_ifs at stored
    · cases stored
      exact plain
    · exact shows_.plainRuns runId found stored
  events runId := by
    rw [RunFiles.writeRun, Dict.get?_set, if_neg (runPath_ne_eventsPath _ _).symm]
    exact shows_.events runId
  plainEvents := shows_.plainEvents
  logs runId := by
    rw [RunFiles.writeRun, Dict.get?_set, if_neg (runPath_ne_logsPath _ _).symm]
    exact shows_.logs runId
  plainLogs := shows_.plainLogs
  names name member := by
    rw [RunFiles.writeRun, Dict.mem_keys_set] at member
    rcases member with rfl | member
    · exact Or.inl ⟨record.runId, (Dict.mem_keys_set _ _ _ _).mpr (Or.inl rfl), rfl⟩
    · refine (shows_.names name member).imp_left ?_
      rintro ⟨runId, listed, same⟩
      exact ⟨runId, (Dict.mem_keys_set _ _ _ _).mpr (Or.inr listed), same⟩

theorem appendEvent (shows_ : Shows files journal) (runId : String) {event : JsonValue}
    (plain : Plain event) :
    Shows (RunFiles.appendEvent runId event files)
      (Journal.apply (.appendEvent runId event) journal) where
  runs id := by
    rw [RunFiles.appendEvent, appendText, Dict.get?_set, if_neg (runPath_ne_eventsPath _ _)]
    exact shows_.runs id
  keyed := shows_.keyed
  plainRuns := shows_.plainRuns
  events id := by
    rw [RunFiles.appendEvent, appendText, Dict.get?_set, shows_.events, shows_.events]
    dsimp only [Journal.apply]
    by_cases same : id = runId
    · rw [same, if_pos rfl, Function.update_self, linesFile_append]
    · rw [if_neg (fun paths => same (eventsPath_injective paths)), Function.update_of_ne same]
  plainEvents id := by
    dsimp only [Journal.apply]
    by_cases same : id = runId
    · rw [same, Function.update_self, List.forall_mem_append, List.forall_mem_singleton]
      exact ⟨shows_.plainEvents runId, plain⟩
    · rw [Function.update_of_ne same]
      exact shows_.plainEvents id
  logs id := by
    rw [RunFiles.appendEvent, appendText, Dict.get?_set, if_neg (eventsPath_ne_logsPath _ _).symm]
    exact shows_.logs id
  plainLogs := shows_.plainLogs
  names name member := by
    rw [RunFiles.appendEvent, appendText, Dict.mem_keys_set] at member
    rcases member with rfl | member
    · exact Or.inr ⟨runId, Or.inl rfl⟩
    · exact shows_.names name member

theorem appendLog (shows_ : Shows files journal) (runId : String) {entry : LogEntry}
    (plain : Plain entry.toDict) :
    Shows (RunFiles.appendLog runId entry files) (Journal.apply (.appendLog runId entry) journal) where
  runs id := by
    rw [RunFiles.appendLog, appendText, Dict.get?_set, if_neg (runPath_ne_logsPath _ _)]
    exact shows_.runs id
  keyed := shows_.keyed
  plainRuns := shows_.plainRuns
  events id := by
    rw [RunFiles.appendLog, appendText, Dict.get?_set, if_neg (eventsPath_ne_logsPath _ _)]
    exact shows_.events id
  plainEvents := shows_.plainEvents
  logs id := by
    rw [RunFiles.appendLog, appendText, Dict.get?_set, shows_.logs, shows_.logs]
    dsimp only [Journal.apply]
    by_cases same : id = runId
    · rw [same, if_pos rfl, Function.update_self, linesFile_append]
    · rw [if_neg (fun paths => same (logsPath_injective paths)), Function.update_of_ne same]
  plainLogs id := by
    dsimp only [Journal.apply]
    by_cases same : id = runId
    · rw [same, Function.update_self, List.forall_mem_append, List.forall_mem_singleton]
      exact ⟨shows_.plainLogs runId, plain⟩
    · rw [Function.update_of_ne same]
      exact shows_.plainLogs id
  names name member := by
    rw [RunFiles.appendLog, appendText, Dict.mem_keys_set] at member
    rcases member with rfl | member
    · exact Or.inr ⟨runId, Or.inr rfl⟩
    · exact shows_.names name member

/-- Every operation keeps the files in step with the journal. -/
theorem apply (shows_ : Shows files journal) {operation : Operation} (plain : operation.Plain) :
    Shows (operation.apply files) (Journal.apply operation journal) := by
  cases operation with
  | writeRun record => exact shows_.writeRun plain
  | appendEvent runId event => exact shows_.appendEvent runId plain
  | appendLog runId entry => exact shows_.appendLog runId plain

theorem perform (shows_ : Shows files journal) {operations : List Operation}
    (plain : ∀ operation ∈ operations, operation.Plain) :
    Shows (RunFiles.perform operations files) (Journal.perform operations journal) := by
  induction operations generalizing files journal with
  | nil => exact shows_
  | cons operation operations ih =>
    rw [List.forall_mem_cons] at plain
    exact ih (shows_.apply plain.1) plain.2

/-! ### What the files are read as -/

theorem readRun (shows_ : Shows files journal) (runId : String) :
    RunFiles.readRun runId files =
      match journal.runs.get? runId with
      | some record => .ok record
      | none => .error .fileNotFound := by
  have stored := shows_.runs runId
  unfold RunFiles.readRun
  cases found : journal.runs.get? runId with
  | none =>
    rw [found] at stored
    rw [readText, stored]
    rfl
  | some record =>
    rw [found] at stored
    have plain := shows_.plainRuns runId record found
    rw [readText_of_dumps plain stored]
    dsimp only
    rw [payloadOf_dumps (some 2) plain]
    exact recordOf_toDict record

theorem readEvents (shows_ : Shows files journal) (runId : String) :
    RunFiles.readEvents runId files = .ok (journal.events runId) :=
  readLines_of_linesFile (shows_.plainEvents runId) (shows_.events runId)

theorem readLogs (shows_ : Shows files journal) (runId : String) :
    RunFiles.readLogs runId files = .ok (journal.logs runId) :=
  readLines_of_linesFile (shows_.plainLogs runId) (shows_.logs runId)

end Shows

/-! ### Events after a time -/

private theorem filterAuxM_ok {α : Type} {p : α → Except ReadError Bool} {q : α → Bool}
    {items : List α} (each : ∀ item ∈ items, p item = .ok (q item)) (kept : List α) :
    List.filterAuxM p items kept = .ok ((items.filter q).reverse ++ kept) := by
  induction items generalizing kept with
  | nil => rfl
  | cons item items ih =>
    rw [List.forall_mem_cons] at each
    rw [List.filterAuxM, each.1, bind_ok, ih each.2, List.filter_cons]
    cases q item with
    | true =>
      rw [if_pos rfl, List.reverse_cons, List.append_assoc]
      rfl
    | false => rfl

/-- The timestamp of an event. -/
def timestampOf (event : JsonValue) : JsonValue :=
  match event with
  | .object entries => (entries.lookup "timestamp").getD (.int 0)
  | _ => .int 0

namespace Shows

variable {files : Files} {journal : Journal}

theorem readEventsAfter (shows_ : Shows files journal) {runId : String} {time : JsonValue → PyFloat}
    (timed : ∀ event ∈ journal.events runId, (∃ entries, event = .object entries) ∧
      EventGroups.toFloat (timestampOf event) = .ok (time event)) (after : PyFloat) :
    RunFiles.readEventsAfter runId (some after) files =
      .ok ((journal.events runId).filter (fun event => after.lt (time event))) := by
  have each : ∀ event ∈ journal.events runId, isLater after event = .ok (after.lt (time event)) := by
    intro event member
    obtain ⟨⟨entries, rfl⟩, stamped⟩ := timed event member
    have found : get? (.object entries) "timestamp" = .ok (entries.lookup "timestamp") := rfl
    rw [timestampOf] at stamped
    rw [isLater, found, bind_ok, stamped]
    rfl
  rw [RunFiles.readEventsAfter, shows_.readEvents, bind_ok]
  dsimp only
  rw [List.filterM, filterAuxM_ok each, bind_ok, List.append_nil, List.reverse_reverse]
  rfl

end Shows

/-! ### The list of runs -/

def RunRecord.path (record : RunRecord) : String := runPath record.runId

def runListItem (record : RunRecord) : JsonValue :=
  .object [("run_id", .string record.runId), ("status", .string (statusText record.status)),
    ("scenario", .string record.config.scenario), ("created_at", .string record.createdAt),
    ("updated_at", .string record.updatedAt)]

namespace Journal

/-- The runs that are listed. -/
def listed (journal : Journal) : List RunRecord :=
  (journal.runs.entries.map Prod.snd).filter (fun record => isRunFile record.path)

/-- By falling names of the files. -/
def newestFirst (journal : Journal) : List RunRecord :=
  journal.listed.insertionSort (fun a b => a.path ≥ b.path)

end Journal

private theorem anyM_map_ok {α β : Type} {f : β → Except ReadError Bool} {g : α → β}
    {p : α → Bool} {items : List α} (each : ∀ item ∈ items, f (g item) = .ok (p item)) :
    (items.map g).anyM f = .ok (items.any p) := by
  induction items with
  | nil => rfl
  | cons item items ih =>
    rw [List.forall_mem_cons] at each
    rw [List.map_cons, List.anyM, each.1, List.any_cons]
    cases p item with
    | true => rfl
    | false => exact ih each.2

private theorem isActiveItem_runListItem (record : RunRecord) :
    isActiveItem (runListItem record) = .ok (decide (record.status ∈ activeStatuses)) := by
  obtain ⟨_, status, _⟩ := record
  cases status <;> rfl

namespace Shows

variable {files : Files} {journal : Journal}

private theorem record_keyed (shows_ : Shows files journal) {entry : String × RunRecord}
    (member : entry ∈ journal.runs.entries) : entry.2.runId = entry.1 :=
  shows_.keyed entry.1 entry.2 ((Dict.get?_eq_some_iff _ _ _).mpr member)

private theorem names_perm (shows_ : Shows files journal) :
    (files.keys.filter isRunFile).Perm (journal.listed.map RunRecord.path) := by
  have paths : journal.listed.map RunRecord.path =
      (journal.runs.keys.map runPath).filter isRunFile := by
    rw [Journal.listed, Dict.keys, List.map_map, List.filter_map, List.filter_map, List.map_map]
    have same : ∀ entry ∈ journal.runs.entries,
        (RunRecord.path ∘ Prod.snd) entry = (runPath ∘ Prod.fst) entry := by
      intro entry member
      exact congrArg runPath (shows_.record_keyed member)
    have kept : journal.runs.entries.filter ((fun record => isRunFile record.path) ∘ Prod.snd) =
        journal.runs.entries.filter (isRunFile ∘ runPath ∘ Prod.fst) :=
      List.filter_congr (fun entry member => congrArg isRunFile (same entry member))
    rw [kept]
    exact List.map_congr_left (fun entry member => same entry (List.mem_of_mem_filter member))
  rw [paths, List.perm_ext_iff_of_nodup]
  · intro name
    rw [List.mem_filter, List.mem_filter]
    apply and_congr_left
    intro matched
    constructor
    · intro stored
      rcases shows_.names name stored with ⟨runId, listed, same⟩ | line
      · exact List.mem_map.mpr ⟨runId, listed, same.symm⟩
      · rw [isRunFile_of_line line] at matched
        cases matched
    · intro listed
      obtain ⟨runId, member, rfl⟩ := List.mem_map.mp listed
      obtain ⟨record, found⟩ := (Dict.mem_keys_iff journal.runs runId).mp member
      have stored := shows_.runs runId
      rw [found] at stored
      exact (Dict.mem_keys_iff _ _).mpr ⟨_, stored⟩
  · exact files.nodup.filter _
  · exact (journal.runs.nodup.map (fun _ _ => runPath_injective)).filter _

private theorem readItem_path (shows_ : Shows files journal) {record : RunRecord}
    (member : record ∈ journal.listed) : readItem files record.path = .ok (runListItem record) := by
  obtain ⟨entry, stored, rfl⟩ := List.mem_map.mp (List.mem_of_mem_filter member)
  have found : journal.runs.get? entry.1 = some entry.2 := (Dict.get?_eq_some_iff _ _ _).mpr stored
  have written := shows_.runs entry.1
  rw [found, Option.map_some] at written
  have plain := shows_.plainRuns entry.1 entry.2 found
  rw [readItem, RunRecord.path, shows_.record_keyed stored, readText_of_dumps plain written]
  dsimp only
  rw [payloadOf_dumps (some 2) plain]
  rfl

private theorem names_eq (shows_ : Shows files journal) :
    ((files.keys.filter isRunFile).insertionSort (· ≤ ·)).reverse =
      journal.newestFirst.map RunRecord.path := by
  have sameNames : (((files.keys.filter isRunFile).insertionSort (· ≤ ·)).reverse).Perm
      (journal.newestFirst.map RunRecord.path) :=
    (List.reverse_perm _).trans ((List.perm_insertionSort _ _).trans
      (shows_.names_perm.trans ((List.perm_insertionSort _ _).symm.map _)))
  have falling : ((files.keys.filter isRunFile).insertionSort (· ≤ ·)).reverse.Pairwise (· ≥ ·) :=
    List.pairwise_reverse.mpr (List.pairwise_insertionSort _ _)
  have falling' : (journal.newestFirst.map RunRecord.path).Pairwise (· ≥ ·) :=
    List.pairwise_map.mpr (List.pairwise_insertionSort _ _)
  exact sameNames.eq_of_pairwise' falling falling'

theorem listRuns (shows_ : Shows files journal) :
    RunFiles.listRuns files = .ok (journal.newestFirst.map runListItem) := by
  rw [RunFiles.listRuns, shows_.names_eq, List.mapM_map]
  apply mapM_map_ok
  intro record member
  exact shows_.readItem_path ((List.perm_insertionSort _ _).mem_iff.mp member)

theorem hasActiveRun (shows_ : Shows files journal) :
    RunFiles.hasActiveRun files =
      .ok (journal.listed.any (fun record => record.status ∈ activeStatuses)) := by
  have any : journal.newestFirst.any (fun record => record.status ∈ activeStatuses) =
      journal.listed.any (fun record => record.status ∈ activeStatuses) :=
    (List.perm_insertionSort _ _).any_eq
  have asked : (journal.newestFirst.map runListItem).anyM isActiveItem =
      .ok (journal.newestFirst.any (fun record => record.status ∈ activeStatuses)) :=
    anyM_map_ok (fun record _ => isActiveItem_runListItem record)
  rw [RunFiles.hasActiveRun, shows_.listRuns, ← any, ← asked]
  rfl

theorem newestFirst_falling (shows_ : Shows files journal) :
    journal.newestFirst.Pairwise (fun a b => b.path < a.path) := by
  have distinct : (journal.newestFirst.map RunRecord.path).Nodup := by
    rw [← shows_.names_eq, List.nodup_reverse]
    exact (List.perm_insertionSort _ _).nodup_iff.mpr (files.nodup.filter _)
  have falling : journal.newestFirst.Pairwise (fun a b => a.path ≥ b.path) :=
    List.pairwise_insertionSort _ _
  exact (falling.and (List.pairwise_map.mp distinct)).imp
    (fun ordered => lt_of_le_of_ne ordered.1 (Ne.symm ordered.2))

theorem mem_newestFirst (shows_ : Shows files journal) (record : RunRecord) :
    record ∈ journal.newestFirst ↔
      isRunFile record.path = true ∧ journal.runs.get? record.runId = some record := by
  rw [Journal.newestFirst, List.mem_insertionSort, Journal.listed, List.mem_filter, and_comm]
  apply and_congr_right
  intro _
  rw [Dict.get?_eq_some_iff, List.mem_map]
  constructor
  · rintro ⟨entry, stored, rfl⟩
    rw [shows_.record_keyed stored]
    exact stored
  · intro stored
    exact ⟨_, stored, rfl⟩

end Shows

/-! ### The journal of some operations -/

namespace Operation

/-- The record that an operation writes for a run. -/
def recordFor (runId : String) : Operation → Option RunRecord
  | .writeRun record => if record.runId = runId then some record else none
  | _ => none

def eventFor (runId : String) : Operation → Option JsonValue
  | .appendEvent id event => if id = runId then some event else none
  | _ => none

def entryFor (runId : String) : Operation → Option JsonValue
  | .appendLog id entry => if id = runId then some entry.toDict else none
  | _ => none

end Operation

namespace Journal

theorem runs_perform (runId : String) (operations : List Operation) (journal : Journal) :
    (journal.perform operations).runs.get? runId =
      (operations.filterMap (Operation.recordFor runId)).getLast?.or (journal.runs.get? runId) := by
  induction operations generalizing journal with
  | nil => rfl
  | cons operation operations ih =>
    rw [perform, List.foldl_cons, ← perform, ih]
    cases operation with
    | writeRun record =>
      dsimp only [apply]
      rw [Dict.get?_set, List.filterMap_cons, Operation.recordFor]
      by_cases same : record.runId = runId
      · rw [if_pos same.symm, if_pos same, List.getLast?_cons]
        cases (operations.filterMap (Operation.recordFor runId)).getLast? <;> rfl
      · rw [if_neg (Ne.symm same), if_neg same]
    | appendEvent id event => rfl
    | appendLog id entry => rfl

theorem events_perform (runId : String) (operations : List Operation) (journal : Journal) :
    (journal.perform operations).events runId =
      journal.events runId ++ operations.filterMap (Operation.eventFor runId) := by
  induction operations generalizing journal with
  | nil => exact (List.append_nil _).symm
  | cons operation operations ih =>
    rw [perform, List.foldl_cons, ← perform, ih]
    cases operation with
    | writeRun record => rfl
    | appendEvent id event =>
      dsimp only [apply]
      rw [List.filterMap_cons, Operation.eventFor]
      by_cases same : id = runId
      · rw [same, Function.update_self, if_pos rfl, List.append_assoc]
        rfl
      · rw [Function.update_of_ne (Ne.symm same), if_neg same]
    | appendLog id entry => rfl

theorem logs_perform (runId : String) (operations : List Operation) (journal : Journal) :
    (journal.perform operations).logs runId =
      journal.logs runId ++ operations.filterMap (Operation.entryFor runId) := by
  induction operations generalizing journal with
  | nil => exact (List.append_nil _).symm
  | cons operation operations ih =>
    rw [perform, List.foldl_cons, ← perform, ih]
    cases operation with
    | writeRun record => rfl
    | appendEvent id event => rfl
    | appendLog id entry =>
      dsimp only [apply]
      rw [List.filterMap_cons, Operation.entryFor]
      by_cases same : id = runId
      · rw [same, Function.update_self, if_pos rfl, List.append_assoc]
        rfl
      · rw [Function.update_of_ne (Ne.symm same), if_neg same]

end Journal

/-- The last record written for a run. -/
def lastRecord (runId : String) (operations : List Operation) : Option RunRecord :=
  (operations.filterMap (Operation.recordFor runId)).getLast?

/-- A store reads back the last record of every run, and every event and log entry in order, the
events after a time by their timestamps, and lists the last records by falling names of the files. -/
theorem store_reads_back (operations : List Operation)
    (plain : ∀ operation ∈ operations, operation.Plain) :
    (∀ runId, readRun runId (perform operations Dict.empty) =
      match lastRecord runId operations with
      | some record => .ok record
      | none => .error .fileNotFound) ∧
    (∀ runId, readEvents runId (perform operations Dict.empty) =
      .ok (operations.filterMap (Operation.eventFor runId))) ∧
    (∀ runId, readLogs runId (perform operations Dict.empty) =
      .ok (operations.filterMap (Operation.entryFor runId))) ∧
    (∀ runId (time : JsonValue → PyFloat) after,
      (∀ event ∈ operations.filterMap (Operation.eventFor runId),
        (∃ entries, event = .object entries) ∧
          EventGroups.toFloat (timestampOf event) = .ok (time event)) →
      readEventsAfter runId (some after) (perform operations Dict.empty) =
        .ok ((operations.filterMap (Operation.eventFor runId)).filter
          (fun event => after.lt (time event)))) ∧
    ∃ records : List RunRecord,
      listRuns (perform operations Dict.empty) = .ok (records.map runListItem) ∧
      hasActiveRun (perform operations Dict.empty) =
        .ok (records.any (fun record => record.status ∈ activeStatuses)) ∧
      records.Pairwise (fun a b => b.path < a.path) ∧
      ∀ record, record ∈ records ↔
        isRunFile record.path = true ∧ lastRecord record.runId operations = some record := by
  have shows_ : Shows (perform operations Dict.empty) (Journal.perform operations {}) :=
    shows_empty.perform plain
  have last : ∀ runId,
      (Journal.perform operations {}).runs.get? runId = lastRecord runId operations := by
    intro runId
    rw [Journal.runs_perform]
    exact Option.or_none
  have events : ∀ runId, (Journal.perform operations {}).events runId =
      operations.filterMap (Operation.eventFor runId) :=
    fun runId => Journal.events_perform runId operations {}
  refine ⟨?_, ?_, ?_, ?_, (Journal.perform operations {}).newestFirst, shows_.listRuns, ?_,
    shows_.newestFirst_falling, ?_⟩
  · intro runId
    rw [shows_.readRun, last]
  · intro runId
    rw [shows_.readEvents, events]
  · intro runId
    rw [shows_.readLogs, Journal.logs_perform]
    rfl
  · intro runId time after timed
    rw [← events] at timed ⊢
    exact shows_.readEventsAfter timed after
  · rw [shows_.hasActiveRun]
    exact congrArg _ (List.perm_insertionSort _ _).any_eq.symm
  · intro record
    rw [shows_.mem_newestFirst, last]

/-- A run as it is made. -/
def queuedRun (runId : String) : RunRecord where
  runId
  status := .queued
  config := ⟨"detail_page", 1, 1, [90], 30, false⟩
  createdAt := "2026-01-01T00:00:00Z"
  updatedAt := "2026-01-01T00:00:00Z"

private def startTime : PyFloat := .finite false (3 : ℕ)

private def startedEvent : JsonValue :=
  .object [("event_type", .string "request_started"), ("timestamp", .float startTime)]

private def twoRuns : List Operation :=
  [.writeRun (queuedRun "run_1"), .appendEvent "run_1" startedEvent,
    .appendLog "run_1" ⟨startTime, "info", "queued", "Run created.", []⟩,
    .writeRun { queuedRun "run_1" with status := .completed }, .writeRun (queuedRun "run_2")]

theorem plain_queuedRun (runId : String) (status : RunStatus) :
    Plain (toDict { queuedRun runId with status }) := by
  have read : ∀ n < maxSize, n < readableBound :=
    fun n small => lt_trans small maxSize_lt_readableBound
  simp [toDict, queuedRun, configToDict, optional, Plain, PlainEntries, PlainItems, read 1 (by decide),
    read 90 (by decide), read 30 (by decide)]

private theorem plain_twoRuns : ∀ operation ∈ twoRuns, operation.Plain := by
  have time : startTime.Exact := by
    change IsBinary64 (3 : ℕ)
    unfold IsBinary64
    decide +kernel
  rw [twoRuns]
  simp only [List.forall_mem_cons, List.not_mem_nil, false_implies, implies_true, and_true]
  refine ⟨plain_queuedRun "run_1" .queued, ?_, ?_, plain_queuedRun "run_1" .completed,
    plain_queuedRun "run_2" .queued⟩
  · simp [Operation.Plain, startedEvent, Plain, PlainEntries, time]
  · simp [Operation.Plain, LogEntry.toDict, Plain, PlainEntries, time]

theorem two_runs_read_back :
    readRun "run_1" (perform twoRuns Dict.empty) =
      .ok { queuedRun "run_1" with status := .completed } ∧
    readRun "run_3" (perform twoRuns Dict.empty) = .error .fileNotFound ∧
    readEvents "run_1" (perform twoRuns Dict.empty) = .ok [startedEvent] ∧
    readEventsAfter "run_1" (some startTime) (perform twoRuns Dict.empty) = .ok [] ∧
    hasActiveRun (perform twoRuns Dict.empty) = .ok true := by
  obtain ⟨runs, events, -, later, records, -, active, -, listed⟩ :=
    store_reads_back twoRuns plain_twoRuns
  have one : twoRuns.filterMap (Operation.eventFor "run_1") = [startedEvent] := rfl
  have never_later : startTime.lt startTime = false := by decide +kernel
  have none_later := later "run_1" (fun _ => startTime) startTime
  rw [one, List.forall_mem_singleton, List.filter_singleton, never_later] at none_later
  refine ⟨runs "run_1", runs "run_3", events "run_1", none_later ⟨⟨_, rfl⟩, rfl⟩, ?_⟩
  rw [active]
  have waiting : queuedRun "run_2" ∈ records := (listed _).mpr ⟨by decide, rfl⟩
  exact congrArg _ (List.any_eq_true.mpr ⟨_, waiting, by decide⟩)

end MiniRedis.App.RunFiles
