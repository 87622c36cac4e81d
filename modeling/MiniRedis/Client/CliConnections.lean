/- GID: MiniRedis/Client/CliConnections
   generality: I
   digest: The command-line client greets on one connection and sends its command on another. -/

import MiniRedis.Client.RequestRoundTrip
import MiniRedis.Python.TextSize
import MiniRedis.Server.Negotiation
import MiniRedis.Service.Live

set_option autoImplicit false
set_option relaxedAutoImplicit false

namespace MiniRedis.Client.Cli

open MiniRedis.Base MiniRedis.Python MiniRedis.Protocol MiniRedis.Commands MiniRedis.Service
  MiniRedis.Server

/-! ### Two connections -/

/-- How the bytes of a request reach the server: in which pieces `recv` returns them. -/
structure Delivery where
  pieces : Bytes → List Bytes
  whole : ∀ frame, (pieces frame).flatten = frame

/-- A connection has a session of its own with the service of all. -/
def connected (service : CommandService) : SessionState := { service }

/-- `execute_request`: a new connection, and the first reply that arrives on it. -/
def executeRequest (maxRequestSizeBytes : ℕ) (network : Delivery) (frame : Bytes)
    (service : CommandService) : Except ClientFailure RespObject × CommandService :=
  let session := handle maxRequestSizeBytes (network.pieces frame) { state := connected service }
  ((response.exec session.sent).1, session.state.service)

/-- `execute_command`. -/
def executeCommand (maxRequestSizeBytes : ℕ) (network : Delivery) (command : String)
    (arguments : List String) (service : CommandService) :
    Except ClientFailure RespObject × CommandService :=
  match executeRequest maxRequestSizeBytes network buildHelloFrame service with
  | (.error failure, service) => (.error failure, service)
  | (.ok hello, service) =>
    if hello.kind = .error then (.ok hello, service)
    else
      executeRequest maxRequestSizeBytes network (buildCommandFrame command arguments) service

/-- What happens on the connection on which a frame is sent. -/
def connection (maxRequestSizeBytes : ℕ) (network : Delivery) (frame : Bytes)
    (service : CommandService) : List Exchange :=
  exchanges maxRequestSizeBytes ((network.pieces frame).map (⟨·, id⟩)) (connected service)

/-! ### What the client makes of a reply -/

private def ReadsNoMap (reader : Reader RespObject) : Prop :=
  ∀ stream reply rest, reader.exec stream = (.ok reply, rest) → reply.kind ≠ .map

private theorem readsNoMap_pure {reply : RespObject} (other : reply.kind ≠ .map) :
    ReadsNoMap (pure reply) := by
  rintro stream _ rest run
  cases run
  exact other

private theorem readsNoMap_throw (failure : ClientFailure) : ReadsNoMap (throw failure) := by
  rintro stream _ rest run
  cases run

private theorem readsNoMap_bind {α : Type} {first : Reader α} {next : α → Reader RespObject}
    (later : ∀ a, ReadsNoMap (next a)) : ReadsNoMap (first >>= next) := by
  intro stream reply rest run
  obtain ⟨a, between, -, run⟩ := Effect.exists_of_exec_bind run
  exact later a between reply rest run

private theorem readsNoMap_readError : ReadsNoMap readError := by
  refine readsNoMap_bind (fun line => readsNoMap_bind (fun message => ?_))
  split <;> exact readsNoMap_pure (by simp)

private theorem readsNoMap_readNull : ReadsNoMap readNull := by
  refine readsNoMap_bind (fun line => ?_)
  split
  · exact readsNoMap_throw _
  · exact readsNoMap_pure (by simp)

private theorem readsNoMap_readBlob : ReadsNoMap readBlob := by
  refine readsNoMap_bind (fun line => readsNoMap_bind (fun size => ?_))
  split
  · exact readsNoMap_pure (by simp)
  · refine readsNoMap_bind (fun data => readsNoMap_bind (fun value =>
      readsNoMap_bind (fun line => ?_)))
    split
    · exact readsNoMap_throw _
    · exact readsNoMap_pure (by simp)

private theorem readsNoMap_readArray (item : Reader RespObject) : ReadsNoMap (readArray item) := by
  refine readsNoMap_bind (fun line => readsNoMap_bind (fun count => ?_))
  split
  · exact readsNoMap_pure (by simp)
  · exact readsNoMap_bind (fun items => readsNoMap_pure (by simp))

private theorem kind_of_response {stream rest : Bytes} {reply : RespObject}
    (marked : stream.head? ≠ some 37) (run : response.exec stream = (.ok reply, rest)) :
    reply.kind ≠ .map := by
  obtain ⟨_, _, got, run⟩ := Effect.exists_of_exec_bind run
  cases got
  rw [readResponse] at run
  obtain ⟨head, _, got, run⟩ := Effect.exists_of_exec_bind run
  cases got
  cases stream with
  | nil => cases run
  | cons byte stream =>
    have other : byte ≠ 37 := fun same => marked (congrArg some same)
    simp only [List.head?_cons] at run
    split_ifs at run with simple error number null blob array
    · exact readsNoMap_bind (fun line => readsNoMap_bind (fun text =>
        readsNoMap_pure (by simp))) _ _ _ run
    · exact readsNoMap_readError _ _ _ run
    · exact readsNoMap_bind (fun line => readsNoMap_bind (fun n =>
        readsNoMap_pure (by simp))) _ _ _ run
    · exact readsNoMap_readNull _ _ _ run
    · exact readsNoMap_readBlob _ _ _ run
    · exact readsNoMap_readArray _ _ _ _ run
    · cases run

private theorem encode_two_head (value : RespValue) :
    ∃ byte rest, encode 2 value = byte :: rest ∧ byte ≠ 37 := by
  cases value with
  | simpleString value => simpa [encode] using encodeLine_head '+' value [] (show _ = [43] by decide) (by decide)
  | blobString value =>
    rw [encode, encodePayload, List.append_assoc]
    exact encodeLine_head '$' _ _ (show _ = [36] by decide) (by decide)
  | number value => simpa [encode] using encodeLine_head ':' (toString value) [] (show _ = [58] by decide) (by decide)
  | null => simpa [encode] using encodeLine_head '$' "-1" [] (show _ = [36] by decide) (by decide)
  | simpleError message =>
    simpa [encode] using
      encodeLine_head '-' (RESP_ERR_PREFIX ++ " " ++ message) [] (show _ = [45] by decide) (by decide)
  | boolean value =>
    simpa [encode] using encodeLine_head ':' (if value then "1" else "0") [] (show _ = [58] by decide) (by decide)
  | array items => exact encodeLine_head '*' _ _ (show _ = [42] by decide) (by decide)
  | map entries => exact encodeLine_head '*' _ _ (show _ = [42] by decide) (by decide)

/-! ### What the session makes of the command -/

private def hgetallHead : List Char :=
  '*' :: ((toString (2 : ℤ)).toList ++ ['\r', '\n'] ++ blobChars "HGETALL")

private theorem head_of_frame (key : String) :
    ∃ more, buildCommandFrame "HGETALL" [key] =
      encodeUtf8 (String.ofList hgetallHead) ++ encodeUtf8 (String.ofList more) := by
  refine ⟨blobChars key, ?_⟩
  have parts : buildCommandFrame "HGETALL" [key] = encodeArray (["HGETALL", key].map .text) := rfl
  rw [parts, encodeArray_texts, ← encodeUtf8_ofList_append]
  apply congrArg (fun chars => encodeUtf8 (String.ofList chars))
  have count : lineChars '*' (toString ["HGETALL", key].length) =
      '*' :: ((toString (2 : ℤ)).toList ++ ['\r', '\n']) := rfl
  simp only [frameChars, hgetallHead, count, List.flatMap_cons, List.flatMap_nil, List.append_nil,
    List.append_assoc, List.cons_append]

private theorem first_item {depth : ℕ} {chars : List Char} {items : List RespValue}
    (run : (decodeValue (depth + 1)).exec (hgetallHead ++ chars) = (.ok (.array items), [])) :
    items.head? = some (.blobString "HGETALL") := by
  have small : (2 : ℤ).natAbs < readableBound := lt_trans (by decide) maxSize_lt_readableBound
  have run : (decodeArray (decodeValue depth)).exec
      ((toString (2 : ℤ)).toList ++ ['\r', '\n'] ++ (blobChars "HGETALL" ++ chars)) =
        (.ok (.array items), []) := by
    rw [← run, ← List.append_assoc]
    rfl
  obtain ⟨count, after, counted, run⟩ := Effect.exists_of_exec_bind run
  obtain ⟨_, counted', rfl⟩ := consumes_readInteger small _ _ rfl
  rw [counted'] at counted
  cases counted
  rw [if_neg (by decide)] at run
  obtain ⟨values, _, read, run⟩ := Effect.exists_of_exec_bind run
  cases run
  obtain ⟨first, _, others, here, -, rfl⟩ := Effect.exists_of_exec_times read
  cases depth with
  | zero => cases here
  | succ depth =>
    have length : byteLength "HGETALL" < readableBound :=
      lt_trans (by decide) maxSize_lt_readableBound
    obtain ⟨_, here', rfl⟩ := consumes_blob length (by decide) depth _ _ rfl
    rw [here'] at here
    cases here
    rfl

private theorem name_of_piece {key : String} {piece rest : Bytes}
    (cut : piece ++ rest = buildCommandFrame "HGETALL" [key]) {items : List RespValue}
    (decodes : decode piece = .ok (.array items)) :
    items.head? = some (.blobString "HGETALL") := by
  obtain ⟨more, frame⟩ := head_of_frame key
  rw [frame] at cut
  rcases List.append_eq_append_iff.mp cut with ⟨extra, short, -⟩ | ⟨extra, rfl, -⟩
  · -- A part of the head is no request.
    have refused : (List.range 18).all (fun n =>
        !(decode ((encodeUtf8 (String.ofList hgetallHead)).take n)).isOk) = true := by
      decide +kernel
    have head : piece = (encodeUtf8 (String.ofList hgetallHead)).take piece.length := by
      rw [short, List.take_left]
    have bound : piece.length < 18 := by
      have length : (encodeUtf8 (String.ofList hgetallHead)).length = 17 := by decide +kernel
      rw [short, List.length_append] at length
      omega
    have none := List.all_eq_true.mp refused piece.length (List.mem_range.mpr bound)
    rw [← head, decodes] at none
    cases none
  · unfold decode decodeWithin at decodes
    rw [decodeUtf8_append] at decodes
    cases later : decodeUtf8 extra with
    | none =>
      rw [later] at decodes
      cases decodes
    | some text =>
      rw [later] at decodes
      simp only [Option.map_some] at decodes
      split at decodes
      · rename_i run
        cases decodes
        rw [String.toList_append, String.toList_ofList] at run
        exact first_item run
      · cases decodes
      · cases decodes

private theorem version_of_piece {key : String} {piece rest : Bytes}
    (cut : piece ++ rest = buildCommandFrame "HGETALL" [key]) {s s' : SessionState}
    {value : RespValue} (answered : (answer piece).exec s = (.ok value, s')) :
    s'.context.protocolVersion = s.context.protocolVersion := by
  cases decodes : decode piece with
  | error e =>
    rw [answer_of_refused decodes] at answered
    cases answered
    rfl
  | ok decoded =>
    obtain ⟨items, rfl⟩ := decode_array decodes
    rw [answer_of_decoded decodes] at answered
    rcases answerItems_cases (refuses_parse items) (List.subset_cons_self _ _) s with
      ⟨message, -, h⟩ | ⟨command, version, parsed, hello, -⟩ |
        ⟨command, parsed, -, -, ⟨_, context, remembers, -, h⟩ | ⟨e, -, -, h⟩⟩
    · rw [h] at answered
      cases answered
      rfl
    · -- A greeting would have another name.
      have first := name_of_piece cut decodes
      obtain ⟨item, others, text, rfl, token, name, -⟩ := parse_spec parsed
      obtain rfl := Option.some.inj first
      cases token
      have other : upper (strip "HGETALL") ≠ "HELLO" := by decide
      unfold helloVersion at hello
      split at hello
      · split at hello
        · rename_i greeting
          exact (other (name.symm.trans greeting)).elim
        · cases hello
      · cases hello
    · rw [h] at answered
      cases answered
      exact remembers.version
    · rw [h] at answered
      cases answered

private theorem head_of_sent (maxRequestSizeBytes : ℕ) (network : Delivery) (key : String)
    (service : CommandService) :
    (handle maxRequestSizeBytes (network.pieces (buildCommandFrame "HGETALL" [key]))
      { state := connected service }).sent.head? ≠ some 37 := by
  rw [(handle_exchanges maxRequestSizeBytes _ _).1]
  have whole := network.whole (buildCommandFrame "HGETALL" [key])
  generalize network.pieces (buildCommandFrame "HGETALL" [key]) = pieces at whole ⊢
  cases pieces with
  | nil => simp [exchanges]
  | cons piece pieces =>
    rw [List.flatten_cons] at whole
    rw [List.map_cons, exchanges]
    split
    · simp
    · split
      · simp
      · cases run : (answer piece).exec (connected service) with
        | mk outcome s' =>
          cases outcome with
          | error e => simp [Exchange.bytes, run]
          | ok value =>
            have version := version_of_piece whole run
            have two : s'.context.protocolVersion = 2 := version
            obtain ⟨byte, rest, encoded, other⟩ := encode_two_head value
            simp only [run, id_eq]
            rw [List.flatMap_cons, Exchange.bytes]
            simp only [two, encoded, List.nil_append, List.cons_append, List.head?_cons]
            exact fun same => other (Option.some.inj same)

/-- The greeting of the command-line client is forgotten with its connection: however the pieces
arrive, `HGETALL` never gives a map, and every command meets a session of version 2. -/
theorem cli_never_speaks_resp3 (maxRequestSizeBytes : ℕ) (network : Delivery)
    (service : CommandService) (key : String) :
    (∀ value, (executeCommand maxRequestSizeBytes network "HGETALL" [key] service).1 ≠
      .ok ⟨.map, value⟩) ∧
    ∀ command arguments, ∀ e ∈ (connection maxRequestSizeBytes network
      (buildCommandFrame command arguments) service).head?, e.before.protocolVersion = 2 := by
  constructor
  · intro value
    unfold executeCommand
    split
    · simp
    · rename_i hello after _
      split
      · rename_i refused
        intro same
        obtain rfl := Except.ok.inj same
        cases refused
      · intro same
        have marked := head_of_sent maxRequestSizeBytes network key after
        exact kind_of_response marked (Prod.ext same rfl) rfl
  · intro command arguments e first
    rw [connection] at first
    cases arrived : (network.pieces (buildCommandFrame command arguments)).map
        (fun piece => Arrival.mk piece id) with
    | nil =>
      rw [arrived] at first
      cases first
    | cons arrival arrivals =>
      rw [arrived, exchanges] at first
      split at first
      · cases first
      · split at first
        · cases first
        · split at first <;>
          · cases first
            rfl

private def inOnePiece : Delivery where
  pieces frame := [frame]
  whole frame := by simp

private def oneHash : CommandService :=
  run [.command (fun _ => 0) ⟨"HSET", ["k", "f", "v"]⟩] (CommandService.init (fun _ => 0) none)

theorem hgetall_of_cli_gives_array :
    liveEntry 0 oneHash "k" = some (.hash (Dict.empty.set "f" "v")) ∧
    (executeCommand 4096 inOnePiece "HGETALL" ["k"] oneHash).1.map RespObject.kind = .ok .array ∧
    ¬ ∃ value, (executeCommand 4096 inOnePiece "HGETALL" ["k"] oneHash).1 = .ok ⟨.map, value⟩ := by
  have array : (executeCommand 4096 inOnePiece "HGETALL" ["k"] oneHash).1.map RespObject.kind =
      .ok .array := by decide +kernel
  refine ⟨by decide +kernel, array, fun ⟨value, map⟩ => ?_⟩
  rw [map] at array
  cases array

end MiniRedis.Client.Cli
