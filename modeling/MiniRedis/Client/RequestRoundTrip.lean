/- GID: MiniRedis/Client/RequestRoundTrip
   generality: I
   digest: The server reads back the request frames of both clients exactly on ASCII text. -/

import MiniRedis.Client.MiniRedisClient
import MiniRedis.Protocol.RequestDecoder
import MiniRedis.Python.Decimal

set_option autoImplicit false
set_option relaxedAutoImplicit false

namespace MiniRedis.Client

open MiniRedis.Base MiniRedis.Python MiniRedis.Protocol

/-! ### The text of a frame -/

def lineChars (mark : Char) (text : String) : List Char := mark :: (text.toList ++ ['\r', '\n'])

/-- The characters of one blob of a request. -/
def blobChars (value : String) : List Char :=
  lineChars '$' (toString (byteLength value)) ++ (value.toList ++ ['\r', '\n'])

/-- The characters of a request of blobs. -/
def frameChars (parts : List String) : List Char :=
  lineChars '*' (toString parts.length) ++ parts.flatMap blobChars

theorem encodeLine_eq (mark : Char) (text : String) :
    encodeLine mark text = encodeUtf8 (String.ofList (lineChars mark text)) := by
  apply congrArg encodeUtf8
  rw [← String.toList_inj]
  simp [lineChars]

theorem encodeBlobString_eq (value : String) :
    Cli.encodeBlobString value = encodeUtf8 (String.ofList (blobChars value)) := by
  have newline : CRLF = encodeUtf8 "\r\n" := by decide
  rw [Cli.encodeBlobString, encodeLine_eq, newline, ← encodeUtf8_append, ← encodeUtf8_append]
  apply congrArg encodeUtf8
  rw [← String.toList_inj]
  simp [blobChars]

theorem encodeUtf8_ofList_append (cs ds : List Char) :
    encodeUtf8 (String.ofList (cs ++ ds)) =
      encodeUtf8 (String.ofList cs) ++ encodeUtf8 (String.ofList ds) := by
  rw [String.ofList_append, encodeUtf8_append]

theorem encodeArray_texts (parts : List String) :
    Cli.encodeArray (parts.map .text) = encodeUtf8 (String.ofList (frameChars parts)) := by
  rw [Cli.encodeArray, frameChars, encodeUtf8_ofList_append, encodeLine_eq, List.length_map]
  apply congrArg (encodeUtf8 (String.ofList (lineChars '*' (toString parts.length))) ++ ·)
  induction parts with
  | nil => rfl
  | cons part parts ih =>
    have first : Cli.encodePart (.text part) = _ := encodeBlobString_eq part
    rw [List.map_cons, List.flatMap_cons, List.flatMap_cons, encodeUtf8_ofList_append, ih, first]

theorem encodeCommand_texts (parts : List String) :
    Benchmark.encodeCommand (parts.map .text) = Cli.encodeArray (parts.map .text) := by
  rw [Benchmark.encodeCommand, Cli.encodeArray, List.flatMap_map, List.flatMap_map]
  refine congrArg (_ ++ List.flatMap · parts) (funext fun part => ?_)
  simp [Benchmark.encodePart, Cli.encodePart, Cli.encodeBlobString, byteLength]

private theorem length_frame (parts : List String) :
    parts.length ≤ (Cli.encodeArray (parts.map .text)).length ∧
      ∀ part ∈ parts, byteLength part ≤ (Cli.encodeArray (parts.map .text)).length := by
  rw [Cli.encodeArray, List.length_append]
  generalize (encodeLine '*' _).length = first
  induction parts with
  | nil => simp
  | cons part parts ih =>
    have here : byteLength part + 1 ≤ (Cli.encodePart (.text part)).length := by
      simp only [Cli.encodePart, Cli.encodeBlobString, List.length_append, byteLength, CRLF,
        List.length_cons, List.length_nil]
      omega
    simp only [List.map_cons, List.flatMap_cons, List.length_append, List.length_cons,
      List.forall_mem_cons]
    refine ⟨by omega, by omega, fun other member => ?_⟩
    have := ih.2 other member
    omega

/-! ### The decoder on such a text -/

theorem consumes_readLine {line : List Char} (plain : ¬ ['\r', '\n'] <:+: line) :
    Consumes id readLine (line ++ ['\r', '\n']) (.ok (String.ofList line)) := by
  rintro cs rest (rfl : cs = _)
  refine ⟨rest, ?_, rfl⟩
  have found := breakAt_unbroken (by decide) (breakAt_eq_none plain) rest
  simp [readLine, Effect.exec_bind, found, Except.map]

theorem consumes_readInteger {n : ℤ} (small : n.natAbs < readableBound) :
    Consumes id readInteger ((toString n).toList ++ ['\r', '\n']) (.ok n) := by
  have plain : ¬ ['\r', '\n'] <:+: (toString n).toList := by
    intro inside
    have member := inside.subset (List.mem_cons_self (a := '\r') (l := ['\n']))
    exact absurd (toNat_ge_of_mem_toString member) (by decide)
  refine (consumes_readLine plain).bind_done ?_
  rw [String.ofList_toList, parseInt_toString small]
  exact consumes_pure n

private theorem exec_blob {value : String} (small : byteLength value < readableBound) (depth : ℕ)
    (rest : List Char) :
    let data := value.toList ++ ['\r', '\n'] ++ rest
    (decodeValue (depth + 1)).exec (blobChars value ++ rest) =
      if data.length < byteLength value + 2 ∨ (data.drop (byteLength value)).take 2 ≠ ['\r', '\n']
      then (.error (.commandError ERR_PROTOCOL_ERROR), data)
      else (.ok (.blobString (String.ofList (data.take (byteLength value)))),
        data.drop (byteLength value + 2)) := by
  intro data
  have digits := consumes_readInteger (n := (byteLength value : ℤ)) (by simpa using small)
  obtain ⟨_, read, rfl⟩ := digits _ data rfl
  have chars : blobChars value ++ rest =
      '$' :: ((toString (byteLength value : ℤ)).toList ++ ['\r', '\n'] ++ data) := by
    simp only [blobChars, lineChars, data, toString_natCast, List.cons_append, List.append_assoc]
  rw [chars]
  simp only [decodeValue, Effect.exec_bind, Effect.exec_get, Effect.exec_set, List.head?_cons,
    List.tail_cons, decodeBlobString]
  rw [read]
  simp only [Int.toNat_natCast]
  rw [if_neg (by omega)]
  simp only [Effect.exec_bind, Effect.exec_get]
  split <;> rfl

theorem consumes_blob {value : String} (small : byteLength value < readableBound)
    (ascii : isAscii value = true) (depth : ℕ) :
    Consumes id (decodeValue (depth + 1)) (blobChars value) (.ok (.blobString value)) := by
  rintro cs rest (rfl : cs = _)
  refine ⟨rest, ?_, rfl⟩
  have length := (byteLength_eq_iff value).mpr ascii
  rw [exec_blob small, length, if_neg]
  · simp [List.append_assoc]
  · simp

private theorem isAscii_of_exec_blob {value : String} (small : byteLength value < readableBound)
    {depth : ℕ} {rest rest' : List Char}
    (read : (decodeValue (depth + 1)).exec (blobChars value ++ rest) =
      (.ok (.blobString value), rest')) : isAscii value = true := by
  rw [exec_blob small] at read
  split at read
  · cases read
  · rename_i long
    rw [not_or, not_lt] at long
    have taken := congrArg Prod.fst read
    simp only [Except.ok.injEq, RespValue.blobString.injEq] at taken
    have length := congrArg (fun s => s.toList.length) taken
    simp only [String.toList_ofList, List.length_take] at length
    rw [← byteLength_eq_iff]
    omega

private theorem times_blobs_iff {parts : List String}
    (small : ∀ part ∈ parts, byteLength part < readableBound) (depth : ℕ) (rest : List Char) :
    (∃ rest', ((decodeValue (depth + 1)).times parts.length).exec
        (parts.flatMap blobChars ++ rest) = (.ok (parts.map .blobString), rest')) ↔
      ∀ part ∈ parts, isAscii part = true := by
  constructor
  · rintro ⟨rest', read⟩
    induction parts generalizing rest' with
    | nil => simp
    | cons part parts ih =>
      rw [List.flatMap_cons, List.append_assoc] at read
      obtain ⟨value, after, values, first, later, same⟩ := Effect.exists_of_exec_times read
      rw [List.map_cons, List.cons.injEq] at same
      obtain ⟨rfl, rfl⟩ := same
      have smallPart := small part List.mem_cons_self
      have ascii := isAscii_of_exec_blob smallPart first
      obtain ⟨_, exact', rfl⟩ := consumes_blob smallPart ascii depth _ _ rfl
      rw [exact'] at first
      cases first
      rw [List.forall_mem_cons]
      exact ⟨ascii, ih (fun other member => small other (List.mem_cons_of_mem part member)) _ later⟩
  · intro ascii
    have each : ∀ part ∈ parts,
        Consumes id (decodeValue (depth + 1)) (blobChars part) (.ok (.blobString part)) :=
      fun part member => consumes_blob (small part member) (ascii part member) depth
    obtain ⟨rest', read, _⟩ := consumes_times each _ rest rfl
    exact ⟨rest', read⟩

private theorem decode_frame (parts : List String) (small : parts.length < readableBound) :
    ∃ depth,
      decode (Cli.encodeArray (parts.map .text)) =
        match ((decodeValue (depth + 1)).times parts.length).exec (parts.flatMap blobChars) with
        | (.ok items, []) => .ok (.array items)
        | (.ok _, _) => .error (.commandError ERR_PROTOCOL_ERROR)
        | (.error error, _) => .error error := by
  have count := consumes_readInteger (n := (parts.length : ℤ)) (by simpa using small)
  obtain ⟨_, read, rfl⟩ := count _ (parts.flatMap blobChars) rfl
  have chars : frameChars parts =
      '*' :: ((toString (parts.length : ℤ)).toList ++ ['\r', '\n'] ++ parts.flatMap blobChars) := by
    simp only [frameChars, lineChars, toString_natCast, List.cons_append, List.append_assoc]
  have long : ∃ depth, (encodeUtf8 (String.ofList (frameChars parts))).length = depth + 1 := by
    have marked := length_le_charBytes (String.ofList (frameChars parts)).toList
    rw [String.toList_ofList, chars, List.length_cons, ← chars] at marked
    exact Nat.exists_eq_add_one_of_ne_zero (by
      rw [show (encodeUtf8 (String.ofList (frameChars parts))).length =
        charBytes (String.ofList (frameChars parts)).toList from rfl, String.toList_ofList]
      omega)
  obtain ⟨depth, long⟩ := long
  refine ⟨depth, ?_⟩
  rw [encodeArray_texts, decode, decodeWithin, decodeUtf8_encodeUtf8]
  simp only [String.toList_ofList, long]
  rw [decodeValue, Effect.exec_bind_of_ok (Effect.exec_get _), Effect.exec_bind_of_ok
    (Effect.exec_set _ _), chars]
  simp only [List.head?_cons, List.tail_cons, decodeArray]
  rw [Effect.exec_bind_of_ok read]
  simp only [Int.toNat_natCast]
  rw [if_neg (by omega), bind_pure_comp, Effect.exec_map]
  rcases ((decodeValue (depth + 1)).times parts.length).exec (parts.flatMap blobChars) with
    ⟨outcome, rest⟩
  cases outcome with
  | error error => rfl
  | ok items => cases rest <;> rfl

private theorem decode_encodeArray_iff (parts : List String)
    (fits : (Cli.encodeArray (parts.map .text)).length ≤ maxSize) :
    decode (Cli.encodeArray (parts.map .text)) = .ok (.array (parts.map .blobString)) ↔
      ∀ part ∈ parts, isAscii part = true := by
  have bound := maxSize_lt_readableBound
  obtain ⟨count, lengths⟩ := length_frame parts
  have small : ∀ part ∈ parts, byteLength part < readableBound := by
    intro part member
    have := lengths part member
    omega
  obtain ⟨depth, decoded⟩ := decode_frame parts (by omega)
  rw [decoded]
  constructor
  · intro same
    refine (times_blobs_iff small depth []).mp ?_
    rw [List.append_nil]
    rcases read : ((decodeValue (depth + 1)).times parts.length).exec (parts.flatMap blobChars) with
      ⟨outcome, rest⟩
    rw [read] at same
    cases outcome with
    | error error => cases same
    | ok items =>
      cases rest with
      | nil =>
        cases same
        exact ⟨[], rfl⟩
      | cons c rest => cases same
  · intro ascii
    have each : ∀ part ∈ parts,
        Consumes id (decodeValue (depth + 1)) (blobChars part) (.ok (.blobString part)) :=
      fun part member => consumes_blob (small part member) (ascii part member) depth
    obtain ⟨_, read, rfl⟩ := consumes_times each (parts.flatMap blobChars) [] (List.append_nil _).symm
    rw [read]

theorem decode_of_ascii (parts : List String)
    (fits : (Cli.encodeArray (parts.map .text)).length ≤ maxSize)
    (ascii : ∀ part ∈ parts, isAscii part = true) :
    decode (Cli.encodeArray (parts.map .text)) = .ok (.array (parts.map .blobString)) :=
  (decode_encodeArray_iff parts fits).mpr ascii

/-- Both clients count the bytes of a text and the server counts its characters: a request comes
back as it was sent exactly when all its texts are ASCII. -/
theorem request_round_trip_iff_ascii (command : String) (arguments : List String)
    (fits : (Cli.buildCommandFrame command arguments).length ≤ maxSize) :
    let parts := command :: arguments
    (decode (Cli.encodeArray (parts.map .text)) = .ok (.array (parts.map .blobString)) ↔
      ∀ part ∈ parts, isAscii part = true) ∧
    (decode (Cli.buildCommandFrame command arguments) = .ok (.array (parts.map .blobString)) ↔
      ∀ part ∈ parts, isAscii part = true) ∧
    (decode (Benchmark.encodeCommand (parts.map .text)) = .ok (.array (parts.map .blobString)) ↔
      ∀ part ∈ parts, isAscii part = true) := by
  intro parts
  have round := decode_encodeArray_iff parts fits
  refine ⟨round, round, ?_⟩
  rw [encodeCommand_texts]
  exact round

/-- A payload that looks like a request is still a payload. -/
theorem set_of_frame_text_round_trips :
    decode (Cli.buildCommandFrame "SET" ["k", "*1\r\n$4\r\nPING\r\n"]) =
      .ok (.array [.blobString "SET", .blobString "k", .blobString "*1\r\n$4\r\nPING\r\n"]) :=
  (request_round_trip_iff_ascii "SET" ["k", "*1\r\n$4\r\nPING\r\n"]
    (by decide +kernel)).2.1.mpr (by decide +kernel)

/-- One accented letter has two bytes, and the server misses its frame's end. -/
theorem not_round_trip_of_accent :
    ¬ ∀ parts : List String, parts ≠ [] →
      (Cli.encodeArray (parts.map .text)).length ≤ maxSize →
      decode (Cli.encodeArray (parts.map .text)) = .ok (.array (parts.map .blobString)) ∧
      decode (Benchmark.encodeCommand (parts.map .text)) =
        .ok (.array (parts.map .blobString)) := by
  intro always
  have fits : (Cli.encodeArray (["SET", "k", "é"].map .text)).length ≤ maxSize := by decide +kernel
  have same := (always ["SET", "k", "é"] (by decide) fits).1
  have ascii := (decode_encodeArray_iff _ fits).mp same "é" (by decide)
  exact absurd ascii (by decide +kernel)

end MiniRedis.Client
