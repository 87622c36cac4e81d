/- GID: MiniRedis/Client/ResponseRoundTrip
   generality: I
   digest: Both clients take exactly the bytes of a reply and get what it says. -/

import MiniRedis.Client.MiniRedisClient
import MiniRedis.Python.Decimal

set_option autoImplicit false
set_option relaxedAutoImplicit false

namespace MiniRedis.Client

open MiniRedis.Base MiniRedis.Python MiniRedis.Protocol

/-! ### What a reply says -/

/-- The text of a key. -/
def keyText : RespValue → String
  | .simpleString value => value
  | .blobString value => value
  | _ => ""

mutual

/-- The Python value of a reply in a version of the protocol. -/
def content (version : ℤ) : RespValue → ReplyValue
  | .simpleString value => .text value
  | .blobString value => .text value
  | .number value => .number value
  | .null => .none
  | .simpleError message => .text message
  | .boolean value => .number (if value then 1 else 0)
  | .array items => .list (contents version items)
  | .map entries =>
    if version = 2 then .list (flatContents version entries)
    else .dict (entryContents version entries)

def contents (version : ℤ) : List RespValue → List ReplyValue
  | [] => []
  | item :: items => content version item :: contents version items

def flatContents (version : ℤ) : List (RespValue × RespValue) → List ReplyValue
  | [] => []
  | (key, value) :: entries =>
    content version key :: content version value :: flatContents version entries

def entryContents (version : ℤ) : List (RespValue × RespValue) → List (String × ReplyValue)
  | [] => []
  | (key, value) :: entries => (keyText key, content version value) :: entryContents version entries

end

/-- The kind under which the command-line client reports a reply. -/
def kindOf (version : ℤ) : RespValue → Cli.ReplyKind
  | .simpleString _ => .simpleString
  | .blobString _ => .blobString
  | .number _ => .number
  | .null => .null
  | .simpleError _ => .error
  | .boolean _ => .number
  | .array _ => .array
  | .map _ => if version = 2 then .array else .map

/-- The line texts of the server that are not errors. -/
def statusTexts : List String := ["OK", "PONG", "server", "mini-redis", "version", "1.0", "proto"]

/-- The refusals of a request that decodes. -/
def commandErrors : List String :=
  [ERR_EMPTY_COMMAND, ERR_UNSUPPORTED_COMMAND, ERR_WRONG_NUMBER_OF_ARGUMENTS, ERR_INVALID_INTEGER,
    ERR_INVALID_FLOAT, ERR_INVALID_TTL, ERR_INVALID_DB, ERR_UNSUPPORTED_PROTOCOL_VERSION,
    ERR_UNSUPPORTED_AUTH, ERR_UNSUPPORTED_CLIENT_SUBCOMMAND, ERR_WRONG_TYPE]

def errorTexts : List String := ERR_PROTOCOL_ERROR :: commandErrors

/-- A value without errors inside whose lines are texts of the server: every other text stands in
a blob. The keys of its maps are distinct texts. -/
inductive Plain : RespValue → Prop
  | simpleString {value : String} (listed : value ∈ statusTexts) : Plain (.simpleString value)
  | blobString (value : String) : Plain (.blobString value)
  | number (value : ℤ) : Plain (.number value)
  | null : Plain .null
  | array {items : List RespValue} (each : ∀ item ∈ items, Plain item) : Plain (.array items)
  | map {entries : List (RespValue × RespValue)}
      (keys : ∀ entry ∈ entries, Plain entry.1) (values : ∀ entry ∈ entries, Plain entry.2)
      (texts : ∀ entry ∈ entries, ∀ version, content version entry.1 = .text (keyText entry.1))
      (distinct : (entries.map (fun entry => keyText entry.1)).Nodup) : Plain (.map entries)

/-- All integers and lengths of a reply have few enough digits for `str` and `int`. -/
inductive Readable : RespValue → Prop
  | simpleString (value : String) : Readable (.simpleString value)
  | blobString {value : String} (small : byteLength value < readableBound) :
      Readable (.blobString value)
  | number {value : ℤ} (small : value.natAbs < readableBound) : Readable (.number value)
  | null : Readable .null
  | simpleError (message : String) : Readable (.simpleError message)
  | array {items : List RespValue} (small : items.length < readableBound)
      (each : ∀ item ∈ items, Readable item) : Readable (.array items)
  | map {entries : List (RespValue × RespValue)} (small : 2 * entries.length < readableBound)
      (keys : ∀ entry ∈ entries, Readable entry.1)
      (values : ∀ entry ∈ entries, Readable entry.2) : Readable (.map entries)

/-! ### Lines -/

/-- Printable ASCII text. -/
def isLine (text : String) : Bool := text.toList.all (fun c => 32 ≤ c.toNat && c.toNat < 128)

theorem isLine_toString (n : ℤ) : isLine (toString n) = true := by
  have ascii := (isAscii_iff _).mp (isAscii_toString n)
  simp only [isLine, List.all_eq_true, Bool.and_eq_true, decide_eq_true_eq]
  exact fun c member => ⟨toNat_ge_of_mem_toString member, ascii c member⟩

theorem isLine_status : ∀ text ∈ statusTexts, isLine text = true := by decide +kernel

theorem isLine_error :
    ∀ message ∈ errorTexts, isLine (RESP_ERR_PREFIX ++ " " ++ message) = true := by
  decide +kernel

theorem minusOne_text : "-1" = toString (-1 : ℤ) := by decide +kernel

theorem one_lt_readableBound : (-1 : ℤ).natAbs < readableBound :=
  Nat.one_lt_pow (by decide) (by decide)

theorem newline_not_mem {text : String} (line : isLine text = true) :
    (10 : UInt8) ∉ encodeUtf8 text := by
  simp only [isLine, List.all_eq_true, Bool.and_eq_true, decide_eq_true_eq] at line
  have ascii : isAscii text = true := (isAscii_iff text).mpr (fun c member => (line c member).2)
  rw [encodeUtf8_of_ascii ascii, List.mem_map]
  rintro ⟨c, member, same⟩
  obtain ⟨low, high⟩ := line c member
  have bytes := congrArg UInt8.toNat same
  rw [UInt8.toNat_ofNat', Nat.mod_eq_of_lt (by omega)] at bytes
  have ten : (10 : UInt8).toNat = 10 := rfl
  omega

theorem encodeLine_head (mark : Char) (text : String) (more : Bytes) {byte other : UInt8}
    (first : encodeUtf8 (String.singleton mark) = [byte]) (apart : byte ≠ other) :
    ∃ byte rest, encodeLine mark text ++ more = byte :: rest ∧ byte ≠ other := by
  rw [encodeLine_bytes, first]
  exact ⟨byte, _, rfl, apart⟩

private theorem decodedInt_of_read {text : String} {n : ℤ} (read : parseInt text = some n) :
    decodedInt (some text) = .ok n := by
  simp only [decodedInt, decoded, bind, Except.bind, read]

theorem decodedInt_ascii {n : ℤ} (small : n.natAbs < readableBound) :
    decodedInt (decodeAscii (encodeUtf8 (toString n))) = .ok n := by
  rw [decodeAscii_encodeUtf8 (isAscii_toString n)]
  exact decodedInt_of_read (parseInt_toString small)

theorem decodedInt_utf8 {n : ℤ} (small : n.natAbs < readableBound) :
    decodedInt (decodeUtf8 (encodeUtf8 (toString n))) = .ok n := by
  rw [decodeUtf8_encodeUtf8]
  exact decodedInt_of_read (parseInt_toString small)

/-! ### Replies of any nesting -/

theorem contents_eq (version : ℤ) (items : List RespValue) :
    contents version items = items.map (content version) := by
  induction items with
  | nil => rfl
  | cons item items ih => rw [contents, ih, List.map_cons]

theorem flatContents_eq (version : ℤ) (entries : List (RespValue × RespValue)) :
    flatContents version entries = (flatten entries).map (content version) := by
  induction entries with
  | nil => rfl
  | cons entry entries ih => rw [flatContents, ih]; rfl

theorem entryContents_eq (version : ℤ) (entries : List (RespValue × RespValue)) :
    entryContents version entries =
      entries.map (fun entry => (keyText entry.1, content version entry.2)) := by
  induction entries with
  | nil => rfl
  | cons entry entries ih => rw [entryContents, ih, List.map_cons]

theorem collectDict_entries {pairs : List (String × ReplyValue)} {result : Dict String ReplyValue}
    (distinct : (result.entries.map Prod.fst ++ pairs.map Prod.fst).Nodup) :
    (collectDict pairs result).entries = result.entries ++ pairs := by
  induction pairs generalizing result with
  | nil => simp [collectDict]
  | cons pair pairs ih =>
    obtain ⟨key, value⟩ := pair
    have fresh : key ∉ result.keys := by
      have disjoint := (List.nodup_append.mp distinct).2.2
      exact fun member => disjoint key member key (by simp) rfl
    have entries := Dict.entries_set_of_not_mem fresh value
    have distinct' : ((result.set key value).entries.map Prod.fst ++ pairs.map Prod.fst).Nodup := by
      rw [entries]
      simpa using distinct
    rw [collectDict, ih distinct', entries, List.append_assoc]
    rfl

private theorem collectDict_of_distinct {version : ℤ} {entries : List (RespValue × RespValue)}
    (distinct : (entries.map (fun entry => keyText entry.1)).Nodup) :
    (collectDict (entryContents version entries) Dict.empty).entries =
      entryContents version entries := by
  have keys : ((entryContents version entries).map Prod.fst).Nodup := by
    rw [entryContents_eq, List.map_map]
    exact distinct
  exact collectDict_entries keys

theorem forall_flatten {entries : List (RespValue × RespValue)} {P : RespValue → Prop}
    (each : ∀ entry ∈ entries, P entry.1 ∧ P entry.2) : ∀ item ∈ flatten entries, P item := by
  intro item member
  obtain ⟨entry, listed, here⟩ := List.mem_flatMap.mp member
  simp only [List.mem_cons, List.not_mem_nil, or_false] at here
  rcases here with rfl | rfl
  · exact (each entry listed).1
  · exact (each entry listed).2

/-- How a reader gets the replies of one level from those of the level below. -/
structure ReadsReplies {σ γ : Type} (pending : σ → Bytes) (read : ℕ → Effect σ ClientFailure γ)
    (version : ℤ) (meaning : RespValue → γ) : Prop where
  simpleString : ∀ depth value, isLine value = true →
    Consumes pending (read (depth + 1)) (encode version (.simpleString value))
      (.ok (meaning (.simpleString value)))
  blobString : ∀ depth value, byteLength value < readableBound →
    Consumes pending (read (depth + 1)) (encode version (.blobString value))
      (.ok (meaning (.blobString value)))
  number : ∀ depth (value : ℤ), value.natAbs < readableBound →
    Consumes pending (read (depth + 1)) (encode version (.number value))
      (.ok (meaning (.number value)))
  null : ∀ depth, Consumes pending (read (depth + 1)) (encode version .null) (.ok (meaning .null))
  array : ∀ depth items, items.length < readableBound →
    (∀ item ∈ items, Consumes pending (read depth) (encode version item) (.ok (meaning item))) →
    Consumes pending (read (depth + 1)) (encode version (.array items)) (.ok (meaning (.array items)))
  map : ∀ depth (entries : List (RespValue × RespValue)), 2 * entries.length < readableBound →
    (∀ entry ∈ entries, content version entry.1 = .text (keyText entry.1)) →
    (entries.map (fun entry => keyText entry.1)).Nodup →
    (∀ entry ∈ entries,
      Consumes pending (read depth) (encode version entry.1) (.ok (meaning entry.1)) ∧
      Consumes pending (read depth) (encode version entry.2) (.ok (meaning entry.2))) →
    Consumes pending (read (depth + 1)) (encode version (.map entries)) (.ok (meaning (.map entries)))

private theorem length_le_flatMap {ι : Type} {items : List ι} (code : ι → Bytes) {item : ι}
    (member : item ∈ items) : (code item).length ≤ (items.flatMap code).length := by
  rw [List.flatMap_def]
  exact (List.sublist_flatten_of_mem (List.mem_map_of_mem member)).length_le

theorem ReadsReplies.consumes {σ γ : Type} {pending : σ → Bytes}
    {read : ℕ → Effect σ ClientFailure γ} {version : ℤ} {meaning : RespValue → γ}
    (reads : ReadsReplies pending read version meaning) {value : RespValue} (plain : Plain value)
    (readable : Readable value) {depth : ℕ} (deep : (encode version value).length < depth) :
    Consumes pending (read depth) (encode version value) (.ok (meaning value)) := by
  induction plain generalizing depth with
  | simpleString listed =>
    obtain ⟨depth, rfl⟩ := Nat.exists_eq_add_one_of_ne_zero (Nat.ne_zero_of_lt deep)
    exact reads.simpleString depth _ (isLine_status _ listed)
  | blobString value =>
    obtain ⟨depth, rfl⟩ := Nat.exists_eq_add_one_of_ne_zero (Nat.ne_zero_of_lt deep)
    cases readable with
    | blobString small => exact reads.blobString depth value small
  | number value =>
    obtain ⟨depth, rfl⟩ := Nat.exists_eq_add_one_of_ne_zero (Nat.ne_zero_of_lt deep)
    cases readable with
    | number small => exact reads.number depth value small
  | null =>
    obtain ⟨depth, rfl⟩ := Nat.exists_eq_add_one_of_ne_zero (Nat.ne_zero_of_lt deep)
    exact reads.null depth
  | array each ih =>
    rename_i items
    obtain ⟨depth, rfl⟩ := Nat.exists_eq_add_one_of_ne_zero (Nat.ne_zero_of_lt deep)
    cases readable with
    | array small eachReadable =>
      have first := length_encodeLine_pos '*' (toString items.length)
      rw [encode, encodeItems_eq, List.length_append] at deep
      refine reads.array depth items small (fun item member => ?_)
      have shorter := length_le_flatMap (encode version) member
      exact ih item member (eachReadable item member) (by omega)
  | map keys values texts distinct ihKeys ihValues =>
    rename_i entries
    obtain ⟨depth, rfl⟩ := Nat.exists_eq_add_one_of_ne_zero (Nat.ne_zero_of_lt deep)
    cases readable with
    | map small keysReadable valuesReadable =>
      have first : 0 < (if version = 2 then encodeLine '*' (toString (2 * entries.length))
          else encodeLine '%' (toString entries.length)).length := by
        split <;> exact length_encodeLine_pos _ _
      rw [encode, encodeEntries_eq, List.length_append] at deep
      refine reads.map depth entries small (fun entry member => texts entry member version) distinct
        (fun entry member => ?_)
      have shorter := length_le_flatMap
        (fun entry => encode version entry.1 ++ encode version entry.2) member
      rw [List.length_append] at shorter
      exact ⟨ihKeys entry member (keysReadable entry member) (by omega),
        ihValues entry member (valuesReadable entry member) (by omega)⟩

/-! ### The command-line client -/

namespace Cli

private theorem readline_line {line : Bytes} (plain : (10 : UInt8) ∉ line) (rest : Bytes) :
    readline (line ++ CRLF ++ rest) = (line ++ CRLF, rest) := by
  induction line with
  | nil => rfl
  | cons byte line ih =>
    rw [List.mem_cons, not_or] at plain
    have next := ih plain.2
    simp only [List.cons_append, readline, if_neg (Ne.symm plain.1), next]

private theorem consumes_readLine (line : Bytes) (plain : (10 : UInt8) ∉ line) :
    Consumes id readLine (line ++ CRLF) (.ok line) := by
  rintro stream rest (rfl : stream = _)
  have nonempty : line ++ CRLF ≠ [] := by simp [CRLF]
  have whole : ((line ++ CRLF).take ((line ++ CRLF).length - 2)) = line := by simp [CRLF]
  refine ⟨rest, ?_, rfl⟩
  rw [readLine, Effect.exec_bind, Effect.exec_modifyGet, readline_line plain]
  simp only [if_neg nonempty, List.suffix_append, not_true, if_false, whole]
  rfl

theorem consumes_text {text : String} (line : isLine text = true) :
    Consumes id readLine (encodeUtf8 text ++ CRLF) (.ok (encodeUtf8 text)) :=
  consumes_readLine _ (newline_not_mem line)

private theorem consumes_integer {n : ℤ} (small : n.natAbs < readableBound) {β : Type}
    {f : ℤ → Reader β} {used : Bytes} {outcome : Except ClientFailure β}
    (next : Consumes id (f n) used outcome) :
    Consumes id (do f (← decodedInt (decodeAscii (← readLine))))
      (encodeUtf8 (toString n) ++ CRLF ++ used) outcome := by
  refine (consumes_text (isLine_toString n)).bind ?_
  rw [decodedInt_ascii small]
  exact next

private theorem consumes_mark (byte : UInt8) :
    Consumes id (modifyGet (fun stream : Bytes => (stream.head?, stream.tail)) : Reader _) [byte]
      (.ok (some byte)) := by
  rintro stream rest (rfl : stream = _)
  exact ⟨rest, rfl, rfl⟩

private theorem consumes_pair {read : Reader RespObject} {version : ℤ} {key value : RespValue}
    (text : content version key = .text (keyText key))
    (first : Consumes id read (encode version key) (.ok ⟨kindOf version key, content version key⟩))
    (second : Consumes id read (encode version value)
      (.ok ⟨kindOf version value, content version value⟩)) :
    Consumes id (do
      let key ← read
      let item ← read
      return ((← strOf key.value), item.value)) (encode version key ++ encode version value)
      (.ok (keyText key, content version value)) := by
  refine first.bind (second.bind_done ?_)
  rw [text]
  exact consumes_pure _

private theorem consumes_readExact (data : Bytes) :
    Consumes id (readExact data.length) data (.ok data) := by
  rintro stream rest (rfl : stream = _)
  refine ⟨rest, ?_, rfl⟩
  simp [readExact, Effect.exec_bind]

private theorem consumes_payload {value : String} (small : byteLength value < readableBound) :
    Consumes id readBlob
      (encodeUtf8 (toString (byteLength value)) ++ CRLF ++ (encodeUtf8 value ++ CRLF))
      (.ok ⟨.blobString, .text value⟩) := by
  refine consumes_integer (n := (byteLength value : ℤ)) (by simpa using small) ?_
  rw [if_neg (by omega), Int.toNat_natCast]
  refine (consumes_readExact (encodeUtf8 value)).bind ?_
  rw [decodeUtf8_encodeUtf8]
  exact (consumes_readLine [] List.not_mem_nil).bind_done (consumes_pure _)

private theorem consumes_items {read : Reader RespObject} {version : ℤ} {items : List RespValue}
    (small : items.length < readableBound)
    (each : ∀ item ∈ items, Consumes id read (encode version item)
      (.ok ⟨kindOf version item, content version item⟩)) :
    Consumes id (readArray read)
      (encodeUtf8 (toString items.length) ++ CRLF ++ items.flatMap (encode version))
      (.ok ⟨.array, .list (items.map (content version))⟩) := by
  refine consumes_integer (n := (items.length : ℤ)) (by simpa using small) ?_
  rw [if_neg (by omega), Int.toNat_natCast]
  refine (consumes_times each).bind_done ?_
  rw [List.map_map]
  exact consumes_pure _

private theorem consumes_entries {read : Reader RespObject} {version : ℤ}
    {entries : List (RespValue × RespValue)} (small : entries.length < readableBound)
    (texts : ∀ entry ∈ entries, content version entry.1 = .text (keyText entry.1))
    (distinct : (entries.map (fun entry => keyText entry.1)).Nodup)
    (each : ∀ entry ∈ entries,
      Consumes id read (encode version entry.1)
        (.ok ⟨kindOf version entry.1, content version entry.1⟩) ∧
      Consumes id read (encode version entry.2)
        (.ok ⟨kindOf version entry.2, content version entry.2⟩)) :
    Consumes id (readMap read)
      (encodeUtf8 (toString entries.length) ++ CRLF ++ encodeEntries version entries)
      (.ok ⟨.map, .dict (entryContents version entries)⟩) := by
  have pairs := consumes_times (fun entry (member : entry ∈ entries) =>
    consumes_pair (texts entry member) (each entry member).1 (each entry member).2)
  rw [← encodeEntries_eq, ← entryContents_eq] at pairs
  refine consumes_integer (n := (entries.length : ℤ)) (by simpa using small) ?_
  rw [Int.toNat_natCast]
  refine pairs.bind_done ?_
  rw [collectDict_of_distinct distinct]
  exact consumes_pure _

theorem readsReplies (version : ℤ) :
    ReadsReplies id readResponse version (fun value => ⟨kindOf version value, content version value⟩)
    where
  simpleString depth value line := by
    rw [encode, encodeLine_bytes]
    refine (consumes_mark 43).bind ((consumes_text line).bind_done ?_)
    rw [decodeUtf8_encodeUtf8]
    exact consumes_pure _
  blobString depth value small := by
    rw [encode, encodePayload, encodeLine_bytes, List.append_assoc, List.append_assoc]
    exact (consumes_mark 36).bind (consumes_payload small)
  number depth value small := by
    rw [encode, encodeLine_bytes]
    refine (consumes_mark 58).bind ?_
    rw [← List.append_nil (encodeUtf8 _ ++ CRLF)]
    exact consumes_integer small (consumes_pure _)
  null depth := by
    rw [encode]
    split
    · rw [encodeLine_bytes, minusOne_text, ← List.append_nil (encodeUtf8 _ ++ CRLF)]
      refine (consumes_mark 36).bind ?_
      exact consumes_integer (n := -1) one_lt_readableBound (consumes_pure _)
    · rw [encodeLine_bytes]
      exact (consumes_mark 95).bind
        ((consumes_readLine [] List.not_mem_nil).bind_done (consumes_pure _))
  array depth items small each := by
    rw [encode, encodeItems_eq, encodeLine_bytes, content, contents_eq, List.append_assoc]
    exact (consumes_mark 42).bind (consumes_items small each)
  map depth entries small texts distinct each := by
    rw [encode, content, kindOf]
    split
    · have whole := consumes_items (by rwa [length_flatten]) (forall_flatten each)
      rw [length_flatten] at whole
      rw [encodeLine_bytes, encodeEntries_flatten, flatContents_eq, List.append_assoc]
      exact (consumes_mark 42).bind whole
    · rw [encodeLine_bytes, List.append_assoc]
      exact (consumes_mark 37).bind (consumes_entries (by omega) texts distinct each)

theorem consumes_error (version : ℤ) {message : String} (listed : message ∈ errorTexts) (depth : ℕ) :
    Consumes id (readResponse (depth + 1)) (encode version (.simpleError message))
      (.ok ⟨.error, .text message⟩) := by
  rw [encode, encodeLine_bytes]
  refine (consumes_mark 45).bind ((consumes_text (isLine_error message listed)).bind_done ?_)
  rw [decodeUtf8_encodeUtf8]
  have chars : (RESP_ERR_PREFIX ++ " " ++ message).toList = "ERR ".toList ++ message.toList := by
    simp [RESP_ERR_PREFIX]
  have stripped : String.ofList ((RESP_ERR_PREFIX ++ " " ++ message).toList.drop 4) = message := by
    rw [chars, List.drop_left' (by decide), String.ofList_toList]
  simp only [decoded, Effect.lift_ok, pure_bind, stripped]
  rw [if_pos (by rw [chars]; exact List.prefix_append _ _)]
  exact consumes_pure _

end Cli

/-! ### The benchmark client -/

namespace Benchmark

theorem consumes_recv_one (byte : UInt8) :
    Consumes Socket.pending (modifyGet (recv 1) : Parser Bytes) [byte] (.ok [byte]) := by
  intro sock rest h
  have one : min 1 (sock.ready 0 + 1) = 1 := by omega
  refine ⟨⟨rest, fun i => sock.ready (i + 1)⟩, ?_, rfl⟩
  simp [recv, h]

private theorem consumes_readlineLoop {line : Bytes} (plain : (10 : UInt8) ∉ line) {data : Bytes}
    (fresh : (10 : UInt8) ∉ data) {rounds : ℕ} (enough : line.length + 1 < rounds) :
    Consumes Socket.pending (readlineLoop rounds data) (line ++ CRLF) (.ok (data ++ line)) := by
  -- a line feed can only come at the end, so no earlier round stops
  have unfinished : ∀ list : Bytes, (10 : UInt8) ∉ list → ¬ CRLF <:+ list :=
    fun list absent suffix => absent (suffix.mem (by decide))
  induction line generalizing data rounds with
  | nil =>
    obtain ⟨rounds, rfl⟩ : ∃ k, rounds = k + 2 := ⟨rounds - 2, by simp at enough; omega⟩
    have carriage : (10 : UInt8) ∉ data ++ [13] := by simp [fresh]
    have both : CRLF <:+ data ++ [13] ++ [10] := ⟨data, by simp [CRLF]⟩
    have whole : (data ++ [13] ++ [10]).take ((data ++ [13] ++ [10]).length - 2) = data := by simp
    refine (consumes_recv_one 13).bind ?_
    rw [if_neg (List.cons_ne_nil _ _), if_neg (unfinished _ carriage)]
    refine (consumes_recv_one 10).bind_done ?_
    rw [if_neg (List.cons_ne_nil _ _), if_pos both, whole, List.append_nil]
    exact consumes_pure data
  | cons byte line ih =>
    obtain ⟨rounds, rfl⟩ : ∃ k, rounds = k + 1 := ⟨rounds - 1, by simp at enough; omega⟩
    rw [List.mem_cons, not_or] at plain
    have fresh' : (10 : UInt8) ∉ data ++ [byte] := by simp [fresh, plain.1]
    rw [List.length_cons] at enough
    have next := ih plain.2 fresh' (show line.length + 1 < rounds by omega)
    rw [List.append_assoc] at next
    refine (consumes_recv_one byte).bind ?_
    rw [if_neg (List.cons_ne_nil _ _), if_neg (unfinished _ fresh')]
    exact next

theorem consumes_readline (line : Bytes) (plain : (10 : UInt8) ∉ line) :
    Consumes Socket.pending readline (line ++ CRLF) (.ok line) := by
  intro sock rest h
  have length := congrArg List.length h
  simp only [List.length_append, CRLF, List.length_cons, List.length_nil] at length
  have loop := consumes_readlineLoop plain (show (10 : UInt8) ∉ [] from List.not_mem_nil)
    (show line.length + 1 < sock.pending.length + 1 by omega)
  exact loop sock rest h

theorem consumes_text {text : String} (line : isLine text = true) :
    Consumes Socket.pending readline (encodeUtf8 text ++ CRLF) (.ok (encodeUtf8 text)) :=
  consumes_readline _ (newline_not_mem line)

private theorem consumes_integer {n : ℤ} (small : n.natAbs < readableBound) {β : Type}
    {f : ℤ → Parser β} {used : Bytes} {outcome : Except ClientFailure β}
    (next : Consumes Socket.pending (f n) used outcome) :
    Consumes Socket.pending (do f (← decodedInt (decodeUtf8 (← readline))))
      (encodeUtf8 (toString n) ++ CRLF ++ used) outcome := by
  refine (consumes_text (isLine_toString n)).bind ?_
  rw [decodedInt_utf8 small]
  exact next

theorem consumes_payloadLoop {total : ℤ} {rounds : ℕ} {payload used : Bytes}
    (size : (payload.length + used.length : ℤ) = total) (enough : used.length ≤ rounds) :
    Consumes Socket.pending (payloadLoop total rounds payload) used (.ok (payload ++ used)) := by
  induction rounds generalizing payload used with
  | zero =>
    obtain rfl : used = [] := List.length_eq_zero_iff.mp (by omega)
    rw [List.append_nil]
    exact consumes_pure payload
  | succ rounds ih =>
    intro sock rest h
    by_cases missing : (payload.length : ℤ) < total
    · let n := min (total - payload.length).toNat (sock.ready 0 + 1)
      have positive : 0 < n := by simp only [n]; omega
      have within : n ≤ used.length := by simp only [n]; omega
      have received : recv (total - payload.length).toNat sock =
          (used.take n, ⟨used.drop n ++ rest, fun i => sock.ready (i + 1)⟩) := by
        rw [← List.take_append_of_le_length within, ← List.drop_append_of_le_length within, ← h]
        rfl
      have nonempty : used.take n ≠ [] := by
        intro empty
        have := congrArg List.length empty
        simp only [List.length_take, List.length_nil] at this
        omega
      have size' : ((payload ++ used.take n).length + (used.drop n).length : ℤ) = total := by
        simp only [List.length_append, List.length_take, List.length_drop]
        omega
      obtain ⟨sock', run, h'⟩ := ih size' (by rw [List.length_drop]; omega)
        ⟨used.drop n ++ rest, fun i => sock.ready (i + 1)⟩ rest rfl
      refine ⟨sock', ?_, h'⟩
      rw [List.append_assoc, List.take_append_drop] at run
      rw [payloadLoop, if_pos missing, Effect.exec_bind, Effect.exec_modifyGet, received]
      simp only [if_neg nonempty]
      exact run
    · obtain rfl : used = [] := List.length_eq_zero_iff.mp (by omega)
      refine ⟨sock, ?_, h⟩
      rw [payloadLoop, if_neg missing, List.append_nil]
      rfl

private theorem consumes_payload {value : String} (small : byteLength value < readableBound) :
    Consumes Socket.pending parseBlob
      (encodeUtf8 (toString (byteLength value)) ++ CRLF ++ (encodeUtf8 value ++ CRLF))
      (.ok (.text value)) := by
  refine consumes_integer (n := (byteLength value : ℤ)) (by simpa using small) ?_
  rw [if_neg (by omega)]
  have size : (([] : Bytes).length + (encodeUtf8 value ++ CRLF).length : ℤ) =
      byteLength value + 2 := by simp [byteLength, CRLF]
  have enough : (encodeUtf8 value ++ CRLF).length ≤ (byteLength value + 2 : ℤ).toNat := by
    simp [byteLength, CRLF]
    omega
  have loop := consumes_payloadLoop size enough
  refine loop.bind_done ?_
  have text : (([] ++ (encodeUtf8 value ++ CRLF) : Bytes).take
      (([] ++ (encodeUtf8 value ++ CRLF) : Bytes).length - 2)) = encodeUtf8 value := by
    simp [CRLF]
  rw [text, decodeUtf8_encodeUtf8]
  exact consumes_pure _

private theorem consumes_items {read : Parser ReplyValue} {version : ℤ} {items : List RespValue}
    (small : items.length < readableBound)
    (each : ∀ item ∈ items,
      Consumes Socket.pending read (encode version item) (.ok (content version item))) :
    Consumes Socket.pending (parseArray read)
      (encodeUtf8 (toString items.length) ++ CRLF ++ items.flatMap (encode version))
      (.ok (.list (items.map (content version)))) := by
  refine consumes_integer (n := (items.length : ℤ)) (by simpa using small) ?_
  rw [Int.toNat_natCast]
  exact (consumes_times each).bind_done (consumes_pure _)

theorem consumes_pair {read : Parser ReplyValue} {version : ℤ} {key value : RespValue}
    (text : content version key = .text (keyText key))
    (first : Consumes Socket.pending read (encode version key) (.ok (content version key)))
    (second : Consumes Socket.pending read (encode version value) (.ok (content version value))) :
    Consumes Socket.pending (do
      let key ← read
      let value ← read
      return ((← strOf key), value)) (encode version key ++ encode version value)
      (.ok (keyText key, content version value)) := by
  refine first.bind (second.bind_done ?_)
  rw [text]
  exact consumes_pure _

private theorem consumes_entries {read : Parser ReplyValue} {version : ℤ}
    {entries : List (RespValue × RespValue)} (small : entries.length < readableBound)
    (texts : ∀ entry ∈ entries, content version entry.1 = .text (keyText entry.1))
    (distinct : (entries.map (fun entry => keyText entry.1)).Nodup)
    (each : ∀ entry ∈ entries,
      Consumes Socket.pending read (encode version entry.1) (.ok (content version entry.1)) ∧
      Consumes Socket.pending read (encode version entry.2) (.ok (content version entry.2))) :
    Consumes Socket.pending (parseMap read)
      (encodeUtf8 (toString entries.length) ++ CRLF ++ encodeEntries version entries)
      (.ok (.dict (entryContents version entries))) := by
  have pairs := consumes_times (fun entry (member : entry ∈ entries) =>
    consumes_pair (texts entry member) (each entry member).1 (each entry member).2)
  rw [← encodeEntries_eq, ← entryContents_eq] at pairs
  refine consumes_integer (n := (entries.length : ℤ)) (by simpa using small) ?_
  rw [Int.toNat_natCast]
  refine pairs.bind_done ?_
  rw [collectDict_of_distinct distinct]
  exact consumes_pure _

theorem readsReplies (version : ℤ) :
    ReadsReplies Socket.pending parseResp version (content version) where
  simpleString depth value line := by
    rw [encode, encodeLine_bytes]
    refine (consumes_recv_one 43).bind ((consumes_text line).bind_done ?_)
    rw [decodeUtf8_encodeUtf8]
    exact consumes_pure _
  blobString depth value small := by
    rw [encode, encodePayload, encodeLine_bytes, List.append_assoc, List.append_assoc]
    exact (consumes_recv_one 36).bind (consumes_payload small)
  number depth value small := by
    rw [encode, encodeLine_bytes]
    refine (consumes_recv_one 58).bind ?_
    rw [← List.append_nil (encodeUtf8 _ ++ CRLF)]
    exact consumes_integer small (consumes_pure _)
  null depth := by
    rw [encode]
    split
    · rw [encodeLine_bytes, minusOne_text, ← List.append_nil (encodeUtf8 _ ++ CRLF)]
      refine (consumes_recv_one 36).bind ?_
      exact consumes_integer (n := -1) one_lt_readableBound (consumes_pure _)
    · rw [encodeLine_bytes]
      exact (consumes_recv_one 95).bind
        ((consumes_readline [] List.not_mem_nil).bind_done (consumes_pure _))
  array depth items small each := by
    rw [encode, encodeItems_eq, encodeLine_bytes, content, contents_eq, List.append_assoc]
    exact (consumes_recv_one 42).bind (consumes_items small each)
  map depth entries small texts distinct each := by
    rw [encode, content]
    split
    · have whole := consumes_items (by rwa [length_flatten]) (forall_flatten each)
      rw [length_flatten] at whole
      rw [encodeLine_bytes, encodeEntries_flatten, flatContents_eq, List.append_assoc]
      exact (consumes_recv_one 42).bind whole
    · rw [encodeLine_bytes, List.append_assoc]
      exact (consumes_recv_one 37).bind (consumes_entries (by omega) texts distinct each)

theorem consumes_error (version : ℤ) {message : String} (listed : message ∈ errorTexts) (depth : ℕ) :
    Consumes Socket.pending (parseResp (depth + 1)) (encode version (.simpleError message))
      (.error (.miniRedisError (RESP_ERR_PREFIX ++ " " ++ message))) := by
  rw [encode, encodeLine_bytes]
  refine (consumes_recv_one 45).bind ((consumes_text (isLine_error message listed)).bind_done ?_)
  rw [decodeUtf8_encodeUtf8]
  exact consumes_throw _

end Benchmark

/-! ### Whole replies -/

/-- What the server may send: a plain value, or one of its errors. -/
def Reply (value : RespValue) : Prop :=
  Plain value ∨ ∃ message ∈ errorTexts, value = .simpleError message

/-- What the command-line client returns. -/
def Cli.outcome (version : ℤ) (value : RespValue) : Except ClientFailure Cli.RespObject :=
  .ok ⟨kindOf version value, content version value⟩

/-- What the benchmark client returns or raises. -/
def Benchmark.outcome (version : ℤ) (value : RespValue) : Except ClientFailure ReplyValue :=
  match value with
  | .simpleError message => .error (.miniRedisError (RESP_ERR_PREFIX ++ " " ++ message))
  | value => .ok (content version value)

private theorem Plain.benchmark_outcome {value : RespValue} (plain : Plain value) (version : ℤ) :
    Benchmark.outcome version value = .ok (content version value) := by
  cases plain <;> rfl

/-- Each client takes exactly the bytes of a reply. -/
theorem Reply.consumed {value : RespValue} (reply : Reply value) (readable : Readable value)
    (version : ℤ) :
    Consumes id Cli.response (encode version value) (Cli.outcome version value) ∧
    Consumes Benchmark.Socket.pending Benchmark.response (encode version value)
      (Benchmark.outcome version value) := by
  constructor
  · intro stream rest h
    have deep : (encode version value).length < stream.length + 1 := by
      have := congrArg List.length h
      simp only [id, List.length_append] at this
      omega
    have reads : Consumes id (Cli.readResponse (stream.length + 1)) (encode version value)
        (Cli.outcome version value) := by
      rcases reply with plain | ⟨message, listed, rfl⟩
      · exact (Cli.readsReplies version).consumes plain readable deep
      · exact Cli.consumes_error _ listed stream.length
    obtain ⟨stream', run, h'⟩ := reads stream rest h
    refine ⟨stream', ?_, h'⟩
    rw [Cli.response, Effect.exec_bind_of_ok (Effect.exec_get stream), run]
  · intro sock rest h
    have deep : (encode version value).length < sock.pending.length + 1 := by
      rw [h, List.length_append]
      omega
    have reads : Consumes Benchmark.Socket.pending (Benchmark.parseResp (sock.pending.length + 1))
        (encode version value) (Benchmark.outcome version value) := by
      rcases reply with plain | ⟨message, listed, rfl⟩
      · rw [plain.benchmark_outcome]
        exact (Benchmark.readsReplies version).consumes plain readable deep
      · exact Benchmark.consumes_error _ listed sock.pending.length
    obtain ⟨sock', run, h'⟩ := reads sock rest h
    refine ⟨sock', ?_, h'⟩
    rw [Benchmark.response, Effect.exec_bind_of_ok (Effect.exec_get sock), run]

end MiniRedis.Client
