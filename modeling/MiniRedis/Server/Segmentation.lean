/- GID: MiniRedis/Server/Segmentation
   generality: I
   digest: A session serves a stream as sent exactly when every receive is one whole frame. -/

import MiniRedis.Server.Replies
import MiniRedis.Service.Failure

set_option autoImplicit false
set_option relaxedAutoImplicit false

namespace MiniRedis.Server

open MiniRedis.Base MiniRedis.Python MiniRedis.Protocol MiniRedis.Commands MiniRedis.Service
open MiniRedis.Client

/-! ### Commands in order -/

/-- The bytes of one command: ASCII that decodes to an array of tokens. -/
structure CommandFrame where
  bytes : Bytes
  items : List RespValue
  ascii : ∀ x ∈ bytes, x.toNat < 128
  decodes : decode bytes = .ok (.array items)
  tokens : ∀ item ∈ items, ∃ text, coerceToken item = .ok text

/-- The encoded reply to a command. -/
def replyTo (items : List RespValue) : SessionM Bytes := encoded (answerItems items)

/-- Execute commands in order and join the encoded replies. -/
def executeInOrder : List CommandFrame → SessionM Bytes
  | [] => return []
  | frame :: frames => do
    let reply ← replyTo frame.items
    let replies ← executeInOrder frames
    return reply ++ replies

/-- A command that the service fails on without a reply. -/
def Unanswerable (items : List RespValue) (s : CommandService) : Prop :=
  ∃ command, parse items = .ok command ∧ validate command = .ok () ∧ AsksUncountable command s

/-- No command in order is one that the service fails on. -/
def AllAnswerable : List CommandFrame → SessionState → Prop
  | [], _ => True
  | frame :: frames, s =>
    ¬ Unanswerable frame.items s.service ∧ AllAnswerable frames ((replyTo frame.items).exec s).2

/-- The session sent the replies to the commands in order and left the service as executing them
does. -/
def ServesInOrder (readSize : ℕ) (frames : List CommandFrame) (chunks : List Bytes) (s : Session) :
    Prop :=
  ∃ replies final, (executeInOrder frames).exec s.state = (.ok replies, final) ∧
    (handle readSize chunks s).sent = s.sent ++ replies ∧
    (handle readSize chunks s).state.service = final.service

/-- Whatever is executed is one of the commands, and no part of one. -/
def ExecutesOnly (frames : List CommandFrame) (chunks : List Bytes) : Prop :=
  ∀ chunk ∈ chunks, ∀ items, decode chunk = .ok (.array items) → ∃ frame ∈ frames, items = frame.items

/-! ### One command -/

private theorem exists_of_exec_encoded {x : SessionM RespValue} {s s' : SessionState} {bytes : Bytes}
    (run : (encoded x).exec s = (.ok bytes, s')) :
    ∃ value, x.exec s = (.ok value, s') ∧ bytes = encode s'.context.protocolVersion value := by
  obtain ⟨value, s₁, answered, run⟩ := Effect.exists_of_exec_bind run
  obtain ⟨_, _, got, run⟩ := Effect.exists_of_exec_bind run
  cases got
  cases run
  exact ⟨value, answered, rfl⟩

private theorem reachable_execute {s : CommandService} (reached : Reachable s) {command : Command}
    (accepted : validate command = .ok ()) : Reachable ((execute command).exec s).2 :=
  reached.step (show (Event.command s.clock command).Accepted from accepted)

private theorem exec_unanswerable {s : SessionState} (consistent : Consistent s.service)
    {items : List RespValue} (unanswerable : Unanswerable items s.service) :
    ∃ e s', (answerItems items).exec s = (.error e, s') := by
  obtain ⟨command, parsed, accepted, asks⟩ := unanswerable
  have name : command.name ≠ "HELLO" := by
    rw [asks.1]
    decide
  have silent := (answerable_iff consistent accepted).not.mpr (not_not.mpr asks)
  rw [answerItems_command parsed accepted name]
  rcases exec_answer_command accepted s with ⟨value, _, _, result, _⟩ | ⟨e, _, _, h⟩
  · refine (silent ?_).elim
    rcases result with result | ⟨message, result, _⟩
    · exact Or.inl ⟨value, result⟩
    · exact Or.inr ⟨message, result⟩
  · exact ⟨e, _, h⟩

private theorem replyTo_spec {s : SessionState} (reached : Reachable s.service)
    {items : List RespValue} (tokens : ∀ item ∈ items, ∃ text, coerceToken item = .ok text) :
    Reachable ((replyTo items).exec s).2.service ∧
      ((∃ bytes, ((replyTo items).exec s).1 = .ok bytes) ↔ ¬ Unanswerable items s.service) := by
  have replied : ∀ {value s'}, (answerItems items).exec s = (.ok value, s') →
      Reachable s'.service → Reachable ((replyTo items).exec s).2.service ∧
        ((∃ bytes, ((replyTo items).exec s).1 = .ok bytes) ↔ ¬ Unanswerable items s.service) := by
    intro value s' h reached'
    rw [replyTo, exec_encoded h]
    refine ⟨reached', fun _ unanswerable => ?_, fun _ => ⟨_, rfl⟩⟩
    obtain ⟨e, _, failed⟩ := exec_unanswerable reached.consistent unanswerable
    rw [failed] at h
    cases h
  rcases answerItems_cases (refuses_parse_tokens tokens) (List.Subset.refl _) s with
    ⟨message, _, h⟩ | ⟨_, version, _, _, h⟩ |
      ⟨command, parsed, accepted, _, ⟨value, context, _, result, h⟩ | ⟨e, internal, result, h⟩⟩
  · exact replied h reached
  · exact replied h reached
  · exact replied h (reachable_execute reached accepted)
  · rw [replyTo, exec_encoded_error h]
    refine ⟨reachable_execute reached accepted, (fun ⟨_, h⟩ => by cases h), fun answerable => ?_⟩
    refine (answerable ⟨command, parsed, accepted, ?_⟩).elim
    by_contra countable
    rcases (answerable_iff reached.consistent accepted).mpr countable with ⟨_, h⟩ | ⟨_, h⟩
    · rw [h] at result
      cases result
    · rw [h] at result
      cases result
      cases internal

/-! ### A receive that is not a frame -/

def protocolErrorLine : Bytes := encodeLine '-' (RESP_ERR_PREFIX ++ " " ++ ERR_PROTOCOL_ERROR)

private theorem processRequest_of_refused {chunk : Bytes} {e : PyException}
    (refused : decode chunk = .error e) (s : SessionState) :
    (processRequest chunk).exec s = (.ok protocolErrorLine, s) := by
  have answered : (answer chunk).exec s = (.ok (.simpleError ERR_PROTOCOL_ERROR), s) := by
    rw [answer_of_refused refused, Effect.exec_pure]
  rw [processRequest, exec_encoded answered, encode]
  rfl

private theorem processRequest_of_decoded {chunk : Bytes} {items : List RespValue}
    (decodes : decode chunk = .ok (.array items)) : processRequest chunk = replyTo items := by
  rw [processRequest, replyTo, answer_of_decoded decodes]

private theorem refused_of_misaligned {chunk rest whole later : Bytes}
    (stream : chunk ++ rest = whole ++ later) {items : List RespValue}
    (decodes : decode whole = .ok (.array items)) (other : chunk ≠ whole) :
    ∃ e, decode chunk = .error e := by
  cases decoded : decode chunk with
  | error e => exact ⟨e, rfl⟩
  | ok value =>
    exfalso
    rcases List.append_eq_append_iff.mp stream with ⟨extra, rfl, rfl⟩ | ⟨extra, rfl, rfl⟩
    · exact other (by rw [decode_append decoded decodes, List.append_nil])
    · exact other (by rw [decode_append decodes decoded, List.append_nil])

/-! ### Whole streams -/

private theorem encode_plain_head {value : RespValue} (plain : Plain value) (version : ℤ) :
    ∃ byte rest, encode version value = byte :: rest ∧ byte ≠ 45 := by
  cases plain with
  | simpleString =>
    rw [encode, ← List.append_nil (encodeLine _ _)]
    exact encodeLine_head '+' _ [] (show _ = [43] by decide) (by decide)
  | blobString value =>
    rw [encode, encodePayload, List.append_assoc]
    exact encodeLine_head '$' _ _ (show _ = [36] by decide) (by decide)
  | number =>
    rw [encode, ← List.append_nil (encodeLine _ _)]
    exact encodeLine_head ':' _ [] (show _ = [58] by decide) (by decide)
  | null =>
    rw [encode]
    split
    · rw [← List.append_nil (encodeLine _ _)]
      exact encodeLine_head '$' _ [] (show _ = [36] by decide) (by decide)
    · rw [← List.append_nil (encodeLine _ _)]
      exact encodeLine_head '_' _ [] (show _ = [95] by decide) (by decide)
  | array =>
    rw [encode]
    exact encodeLine_head '*' _ _ (show _ = [42] by decide) (by decide)
  | map =>
    rw [encode]
    split
    · exact encodeLine_head '*' _ _ (show _ = [42] by decide) (by decide)
    · exact encodeLine_head '%' _ _ (show _ = [37] by decide) (by decide)

private theorem replyTo_ne_protocolError {items : List RespValue}
    (tokens : ∀ item ∈ items, ∃ text, coerceToken item = .ok text) {s s' : SessionState}
    {bytes : Bytes} (replied : (replyTo items).exec s = (.ok bytes, s')) (more more' : Bytes) :
    bytes ++ more ≠ protocolErrorLine ++ more' := by
  obtain ⟨value, answered, rfl⟩ := exists_of_exec_encoded replied
  intro same
  rcases answerItems_reply (refuses_parse_tokens tokens) (List.Subset.refl _) answered with
    plain | ⟨message, listed, rfl⟩
  · obtain ⟨byte, rest, first, other⟩ := encode_plain_head plain s'.context.protocolVersion
    rw [first, protocolErrorLine, encodeLine_bytes] at same
    exact other (List.cons.inj same).1
  · -- the command-line client would read both messages off the same bytes
    have known := Cli.consumes_error s'.context.protocolVersion
      (List.mem_cons_of_mem ERR_PROTOCOL_ERROR listed) 0
    have unknown := Cli.consumes_error s'.context.protocolVersion
      (show ERR_PROTOCOL_ERROR ∈ errorTexts from List.mem_cons_self) 0
    obtain ⟨_, read, _⟩ := known _ more rfl
    obtain ⟨_, read', _⟩ := unknown _ more' rfl
    have line : encode s'.context.protocolVersion (.simpleError ERR_PROTOCOL_ERROR) =
        protocolErrorLine := by
      rw [encode]
      rfl
    rw [line, ← same] at read'
    have outcomes := congrArg Prod.fst (read.symm.trans read')
    simp only [Except.ok.injEq, Cli.RespObject.mk.injEq, ReplyValue.text.injEq, true_and] at outcomes
    subst outcomes
    exact absurd listed (by decide)

private theorem handle_sent (maxRequestSizeBytes : ℕ) (chunks : List Bytes) (s : Session) :
    ∃ more, (handle maxRequestSizeBytes chunks s).sent = s.sent ++ more := by
  induction chunks generalizing s with
  | nil => exact ⟨[], (List.append_nil _).symm⟩
  | cons chunk chunks ih =>
    unfold handle
    split
    · exact ⟨[], (List.append_nil _).symm⟩
    · split
      · exact ⟨[], (List.append_nil _).symm⟩
      · split
        · rename_i response state _
          obtain ⟨more, sent⟩ := ih { s with
            state, sent := s.sent ++ response, requestsTotal := s.requestsTotal + 1 }
          exact ⟨response ++ more, by rw [sent, List.append_assoc]⟩
        · exact ⟨[], (List.append_nil _).symm⟩

private theorem handle_cons {readSize : ℕ} {chunk : Bytes} {chunks : List Bytes} {s : Session}
    (nonempty : chunk ≠ []) (allowed : chunk.length ≤ readSize) {response : Bytes}
    {state : SessionState} (processed : (processRequest chunk).exec s.state = (.ok response, state)) :
    handle readSize (chunk :: chunks) s =
      handle readSize chunks
        { s with state, sent := s.sent ++ response, requestsTotal := s.requestsTotal + 1 } := by
  have small : isRequestSizeAllowed readSize chunk.length ≠ false := by
    simp [isRequestSizeAllowed, allowed]
  rw [handle, if_neg nonempty, if_neg small, processed]

private theorem frame_ne_nil (frame : CommandFrame) : frame.bytes ≠ [] := by
  intro empty
  have decodes := frame.decodes
  have refused : decode [] = .error (.commandError ERR_PROTOCOL_ERROR) := by
    have text : decodeUtf8 [] = some "" := decodeUtf8_encodeUtf8 ""
    rw [decode, decodeWithin, text]
    rfl
  rw [empty, refused] at decodes
  cases decodes

/-- A receive that is not the next frame spoils the replies. -/
private theorem not_servesInOrder {readSize : ℕ} {frame : CommandFrame} {frames : List CommandFrame}
    {chunk : Bytes} {chunks : List Bytes} {s : Session} (nonempty : chunk ≠ [])
    (allowed : chunk.length ≤ readSize) {e : PyException} (refused : decode chunk = .error e) :
    ¬ ServesInOrder readSize (frame :: frames) (chunk :: chunks) s := by
  rintro ⟨replies, final, executed, sent, _⟩
  obtain ⟨reply, s₁, replied, executed⟩ := Effect.exists_of_exec_bind executed
  obtain ⟨others, s₂, _, executed⟩ := Effect.exists_of_exec_bind executed
  cases executed
  rw [handle_cons nonempty allowed (processRequest_of_refused refused s.state)] at sent
  obtain ⟨more, sent'⟩ := handle_sent readSize chunks
    { s with sent := s.sent ++ protocolErrorLine, requestsTotal := s.requestsTotal + 1 }
  have same := sent'.symm.trans sent
  rw [List.append_assoc, List.append_cancel_left_eq] at same
  exact replyTo_ne_protocolError frame.tokens replied others more same.symm

private theorem servesInOrder_cons {readSize : ℕ} {frame : CommandFrame}
    {frames : List CommandFrame} {chunks : List Bytes} {s : Session}
    (allowed : frame.bytes.length ≤ readSize) {reply : Bytes} {state : SessionState}
    (replied : (replyTo frame.items).exec s.state = (.ok reply, state)) :
    ServesInOrder readSize (frame :: frames) (frame.bytes :: chunks) s ↔
      ServesInOrder readSize frames chunks
        { s with state, sent := s.sent ++ reply, requestsTotal := s.requestsTotal + 1 } := by
  have processed : (processRequest frame.bytes).exec s.state = (.ok reply, state) := by
    rw [processRequest_of_decoded frame.decodes, replied]
  rw [ServesInOrder, ServesInOrder, handle_cons (frame_ne_nil frame) allowed processed]
  constructor
  · rintro ⟨replies, final, executed, sent, service⟩
    obtain ⟨_, _, replied', executed⟩ := Effect.exists_of_exec_bind executed
    rw [replied] at replied'
    cases replied'
    obtain ⟨others, _, executed', executed⟩ := Effect.exists_of_exec_bind executed
    cases executed
    exact ⟨others, _, executed', by rw [sent, List.append_assoc], service⟩
  · rintro ⟨others, final, executed, sent, service⟩
    refine ⟨reply ++ others, final, ?_, by rw [sent, List.append_assoc], service⟩
    rw [executeInOrder, Effect.exec_bind_of_ok replied, Effect.exec_bind_of_ok executed,
      Effect.exec_pure]

private theorem servesInOrder_iff {readSize : ℕ} {frames : List CommandFrame} {chunks : List Bytes}
    (cut : chunks.flatten = (frames.map CommandFrame.bytes).flatten)
    (sizes : ∀ chunk ∈ chunks, chunk ≠ [] ∧ chunk.length ≤ readSize) {s : Session}
    (reached : Reachable s.state.service) :
    ServesInOrder readSize frames chunks s ↔
      chunks = frames.map CommandFrame.bytes ∧ AllAnswerable frames s.state := by
  induction frames generalizing chunks s with
  | nil =>
    cases chunks with
    | nil => exact iff_of_true ⟨[], s.state, rfl, (List.append_nil _).symm, rfl⟩ ⟨rfl, trivial⟩
    | cons chunk chunks =>
      have empty : chunk = [] := by
        rw [List.flatten_cons, List.map_nil, List.flatten_nil, List.append_eq_nil_iff] at cut
        exact cut.1
      exact ((sizes chunk List.mem_cons_self).1 empty).elim
  | cons frame frames ih =>
    cases chunks with
    | nil =>
      have empty : frame.bytes = [] := by
        rw [List.map_cons, List.flatten_cons, List.flatten_nil] at cut
        exact (List.append_eq_nil_iff.mp cut.symm).1
      exact (frame_ne_nil frame empty).elim
    | cons chunk chunks =>
      obtain ⟨nonempty, allowed⟩ := sizes chunk List.mem_cons_self
      rw [List.map_cons, List.flatten_cons, List.flatten_cons] at cut
      by_cases aligned : chunk = frame.bytes
      · subst aligned
        obtain ⟨reached', answered⟩ := replyTo_spec reached frame.tokens
        rcases run : (replyTo frame.items).exec s.state with ⟨outcome, state⟩
        rw [run] at reached' answered
        cases outcome with
        | error e =>
          have unanswerable : Unanswerable frame.items s.state.service := by
            by_contra answerable
            obtain ⟨_, h⟩ := answered.mpr answerable
            cases h
          refine iff_of_false ?_ (fun h => h.2.1 unanswerable)
          rintro ⟨replies, final, executed, _⟩
          obtain ⟨_, _, replied, _⟩ := Effect.exists_of_exec_bind executed
          rw [run] at replied
          cases replied
        | ok reply =>
          rw [servesInOrder_cons allowed run,
            ih (List.append_cancel_left cut)
              (fun other member => sizes other (List.mem_cons_of_mem _ member)) reached',
            List.map_cons, List.cons.injEq, AllAnswerable, run]
          have answerable := answered.mp ⟨reply, rfl⟩
          simp only [true_and, answerable, not_false_eq_true]
      · obtain ⟨e, refused⟩ := refused_of_misaligned cut frame.decodes aligned
        refine iff_of_false (not_servesInOrder nonempty allowed refused) ?_
        rintro ⟨same, _⟩
        exact aligned (List.cons.inj same).1

/-- A session serves a stream of commands as they were sent exactly when every receive returns one
whole frame and the service fails on no command. -/
theorem serves_iff_frame_per_receive {readSize : ℕ} {frames : List CommandFrame}
    {chunks : List Bytes} (cut : chunks.flatten = (frames.map CommandFrame.bytes).flatten)
    (sizes : ∀ chunk ∈ chunks, chunk ≠ [] ∧ chunk.length ≤ readSize) {s : Session}
    (reached : Reachable s.state.service) :
    ServesInOrder readSize frames chunks s ∧ ExecutesOnly frames chunks ↔
      chunks = frames.map CommandFrame.bytes ∧ AllAnswerable frames s.state := by
  constructor
  · rintro ⟨serves, _⟩
    exact (servesInOrder_iff cut sizes reached).mp serves
  · rintro ⟨rfl, answerable⟩
    refine ⟨(servesInOrder_iff cut sizes reached).mpr ⟨rfl, answerable⟩, ?_⟩
    intro chunk member items decodes
    obtain ⟨frame, listed, rfl⟩ := List.mem_map.mp member
    have same := frame.decodes.symm.trans decodes
    cases same
    exact ⟨frame, listed, rfl⟩

/-! ### Frames of the clients -/

private theorem frame_low {parts : List String} (ascii : ∀ part ∈ parts, isAscii part = true) :
    ∀ x ∈ Cli.encodeArray (parts.map .text), x.toNat < 128 := by
  have line : ∀ (mark : Char) (n : ℕ), mark.toNat < 128 →
      ∀ c ∈ lineChars mark (toString n), c.toNat < 128 := by
    intro mark n low c member
    have digits := (isAscii_iff _).mp (isAscii_toString (n : ℤ))
    rw [toString_natCast] at digits
    simp only [lineChars, List.mem_cons, List.mem_append, List.not_mem_nil, or_false] at member
    rcases member with rfl | digit | rfl | rfl
    · exact low
    · exact digits c digit
    · decide
    · decide
  rw [encodeArray_texts]
  refine low_of_ascii ((isAscii_iff _).mpr ?_)
  rw [String.toList_ofList, frameChars]
  intro c member
  rcases List.mem_append.mp member with count | blobs
  · exact line '*' _ (by decide) c count
  · obtain ⟨part, listed, here⟩ := List.mem_flatMap.mp blobs
    rcases List.mem_append.mp here with length | payload
    · exact line '$' _ (by decide) c length
    · rcases List.mem_append.mp payload with text | newline
      · exact (isAscii_iff part).mp (ascii part listed) c text
      · simp only [List.mem_cons, List.not_mem_nil, or_false] at newline
        rcases newline with rfl | rfl <;> decide

/-- The frame of a command in ASCII, as both clients send it. -/
def CommandFrame.ofParts (parts : List String) (ascii : ∀ part ∈ parts, isAscii part = true)
    (fits : (Cli.encodeArray (parts.map .text)).length ≤ maxSize) : CommandFrame where
  bytes := Cli.encodeArray (parts.map .text)
  items := parts.map .blobString
  ascii := frame_low ascii
  decodes := decode_of_ascii _ fits ascii
  tokens := by
    intro item member
    obtain ⟨part, _, rfl⟩ := List.mem_map.mp member
    exact ⟨part, rfl⟩

private def pingFrame : CommandFrame := .ofParts ["PING"] (by decide +kernel) (by decide +kernel)

theorem pings_served :
    ServesInOrder 4096 [pingFrame, pingFrame] [pingFrame.bytes, pingFrame.bytes] firstSession ∧
      ExecutesOnly [pingFrame, pingFrame] [pingFrame.bytes, pingFrame.bytes] := by
  have answerable : ∀ s, ¬ Unanswerable pingFrame.items s := by
    rintro s ⟨command, parsed, _, asks⟩
    have name : (parse pingFrame.items).map Command.name = .ok "PING" := by decide +kernel
    rw [parsed] at name
    exact absurd ((Except.ok.inj name).symm.trans asks.1) (by decide)
  have sizes : ∀ chunk ∈ [pingFrame.bytes, pingFrame.bytes], chunk ≠ [] ∧ chunk.length ≤ 4096 := by
    decide +kernel
  have cut : [pingFrame.bytes, pingFrame.bytes].flatten =
      ([pingFrame, pingFrame].map CommandFrame.bytes).flatten := rfl
  exact (serves_iff_frame_per_receive cut sizes (.init _ none)).mpr
    ⟨rfl, answerable _, answerable _, trivial⟩

private def hiddenFrame : CommandFrame :=
  .ofParts ["SET", "k", "*1\r\n$7\r\nFLUSHDB\r\n"] (by decide +kernel) (by decide +kernel)

/-- Cut around the value, the stream has the value executed. -/
private def hiddenChunks : List Bytes :=
  [hiddenFrame.bytes.take 25, (hiddenFrame.bytes.drop 25).take 17, hiddenFrame.bytes.drop 42]

theorem not_served_when_cut :
    ¬ ∀ readSize frames chunks s,
      chunks.flatten = (frames.map CommandFrame.bytes).flatten →
      (∀ chunk ∈ chunks, chunk ≠ [] ∧ chunk.length ≤ readSize) →
      Reachable s.state.service →
      ServesInOrder readSize frames chunks s ∧ ExecutesOnly frames chunks := by
  intro always
  have cut : hiddenChunks.flatten = ([hiddenFrame].map CommandFrame.bytes).flatten := by
    decide +kernel
  have sizes : ∀ chunk ∈ hiddenChunks, chunk ≠ [] ∧ chunk.length ≤ 4096 := by decide +kernel
  have reached : Reachable firstSession.state.service := .init _ none
  have serves := (always 4096 [hiddenFrame] hiddenChunks firstSession cut sizes reached).1
  have aligned := ((servesInOrder_iff cut sizes reached).mp serves).1
  exact absurd (congrArg List.length aligned) (by decide)

end MiniRedis.Server
