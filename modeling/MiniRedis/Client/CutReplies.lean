/- GID: MiniRedis/Client/CutReplies
   generality: I
   digest: A reply that ends too early is never taken for a reply. -/

import MiniRedis.Base.Starvation
import MiniRedis.Client.ResponseRoundTrip

set_option autoImplicit false
set_option relaxedAutoImplicit false

namespace MiniRedis.Client.Benchmark

open MiniRedis.Base MiniRedis.Python MiniRedis.Protocol

/-- The messages for a connection that ends inside a reply. -/
def cutMessages : List String :=
  ["empty response", "connection closed while reading response",
    "connection closed while reading bulk string"]

def IsCut (e : ClientFailure) : Prop := ∃ message ∈ cutMessages, e = .miniRedisError message

/-! ### Lines and payloads -/

private theorem recv_nil {sock : Socket} (n : ℕ) (ended : sock.pending = []) :
    (recv n sock).1 = [] := by
  rw [recv, ended]
  exact List.take_nil

private theorem readlineLoop_cut {pending : Bytes} (plain : (10 : UInt8) ∉ pending) {data : Bytes}
    (fresh : (10 : UInt8) ∉ data) {rounds : ℕ} (enough : pending.length < rounds)
    {sock : Socket} (here : sock.pending = pending) :
    ∃ sock', (readlineLoop rounds data).exec sock =
      (.error (.miniRedisError "connection closed while reading response"), sock') := by
  induction pending generalizing data rounds sock with
  | nil =>
    obtain ⟨rounds, rfl⟩ := Nat.exists_eq_add_one_of_ne_zero (Nat.ne_zero_of_lt enough)
    refine ⟨(recv 1 sock).2, ?_⟩
    rw [readlineLoop, Effect.exec_bind, Effect.exec_modifyGet]
    simp only [recv_nil 1 here, if_true]
    rfl
  | cons byte pending ih =>
    obtain ⟨rounds, rfl⟩ := Nat.exists_eq_add_one_of_ne_zero (Nat.ne_zero_of_lt enough)
    rw [List.mem_cons, not_or] at plain
    have fresh' : (10 : UInt8) ∉ data ++ [byte] := by simp [fresh, plain.1]
    obtain ⟨sock', taken, left⟩ := consumes_recv_one byte sock pending here
    have unfinished : ¬ CRLF <:+ data ++ [byte] := fun suffix => fresh' (suffix.mem (by decide))
    rw [List.length_cons] at enough
    obtain ⟨sock'', run⟩ := ih plain.2 fresh' (by omega : pending.length < rounds) left
    refine ⟨sock'', ?_⟩
    rw [readlineLoop, Effect.exec_bind_of_ok taken, if_neg (List.cons_ne_nil _ _),
      if_neg unfinished]
    exact run

private theorem starves_readline {line : Bytes} (plain : (10 : UInt8) ∉ line) (bound : ℕ) :
    Starves Socket.pending IsCut bound readline (line ++ CRLF) := by
  intro sock missing some front _
  have cut : (10 : UInt8) ∉ sock.pending := by
    have front' : line ++ [13] = sock.pending ++ missing.dropLast := by
      have ends := congrArg List.dropLast front
      rw [List.dropLast_append_of_ne_nil some, List.dropLast_append_of_ne_nil (by simp [CRLF])] at ends
      exact ends
    intro member
    have within : (10 : UInt8) ∈ line ++ [13] := front' ▸ List.mem_append_left _ member
    simp [plain] at within
  obtain ⟨sock', run⟩ := readlineLoop_cut cut (show (10 : UInt8) ∉ [] from List.not_mem_nil)
    (Nat.lt_succ_self _) rfl
  exact ⟨_, sock', run, _, by simp [cutMessages], rfl⟩

private theorem payloadLoop_cut {total : ℤ} {rounds : ℕ} {payload : Bytes} {sock : Socket}
    (short : (payload.length + sock.pending.length : ℤ) < total)
    (enough : sock.pending.length < rounds) :
    ∃ sock', (payloadLoop total rounds payload).exec sock =
      (.error (.miniRedisError "connection closed while reading bulk string"), sock') := by
  induction rounds generalizing payload sock with
  | zero => exact (Nat.not_lt_zero _ enough).elim
  | succ rounds ih =>
    have missing : (payload.length : ℤ) < total := by omega
    rw [payloadLoop, if_pos missing, Effect.exec_bind, Effect.exec_modifyGet]
    dsimp only
    split_ifs with ended
    · exact ⟨_, rfl⟩
    · have taken : (recv (total - payload.length).toNat sock).1.length +
          (recv (total - payload.length).toNat sock).2.pending.length = sock.pending.length := by
        simp only [recv, List.length_take, List.length_drop]
        omega
      have positive := List.length_pos_of_ne_nil ended
      refine ih ?_ (by omega)
      rw [List.length_append]
      omega

private theorem starves_integer {n : ℤ} (small : n.natAbs < readableBound) {β : Type}
    {f : ℤ → Parser β} {used : Bytes} {bound : ℕ}
    (next : Starves Socket.pending IsCut bound (f n) used) :
    Starves Socket.pending IsCut bound (do f (← decodedInt (decodeUtf8 (← readline))))
      (encodeUtf8 (toString n) ++ CRLF ++ used) := by
  have line := isLine_toString n
  refine Starves.bind (fun _ => consumes_text line) (starves_readline (newline_not_mem line) bound) ?_
  rw [decodedInt_utf8 small]
  exact next

private theorem starves_payload {value : String} (small : byteLength value < readableBound)
    (bound : ℕ) :
    Starves Socket.pending IsCut bound parseBlob
      (encodeUtf8 (toString (byteLength value)) ++ CRLF ++ (encodeUtf8 value ++ CRLF)) := by
  refine starves_integer (n := (byteLength value : ℤ)) (by simpa using small) ?_
  rw [if_neg (by omega)]
  refine Starves.bind_done ?_ _
  intro sock missing some front _
  have length := congrArg List.length front
  have positive := List.length_pos_of_ne_nil some
  simp only [List.length_append, CRLF, List.length_cons, List.length_nil] at length
  obtain ⟨sock', run⟩ := @payloadLoop_cut ((byteLength value : ℤ) + 2)
    ((byteLength value : ℤ) + 2).toNat [] sock
    (by rw [byteLength, List.length_nil]; omega) (by rw [byteLength]; omega)
  exact ⟨_, sock', run, _, by simp [cutMessages], rfl⟩

/-! ### Replies of any nesting -/

/-- A reader that takes an item where it is whole, and fails where it is cut. -/
private structure WholeOrCut (read : Parser ReplyValue) (version : ℤ) (bound : ℕ)
    (item : RespValue) : Prop where
  whole : (encode version item).length < bound →
    Consumes Socket.pending read (encode version item) (.ok (content version item))
  cut : Starves Socket.pending IsCut bound read (encode version item)

private theorem starves_items {read : Parser ReplyValue} {version : ℤ} {items : List RespValue}
    {bound : ℕ} (small : items.length < readableBound)
    (each : ∀ item ∈ items, WholeOrCut read version bound item) :
    Starves Socket.pending IsCut bound (parseArray read)
      (encodeUtf8 (toString items.length) ++ CRLF ++ items.flatMap (encode version)) := by
  refine starves_integer (n := (items.length : ℤ)) (by simpa using small) ?_
  rw [Int.toNat_natCast]
  exact (starves_times (content version) (fun item member => (each item member).whole)
    (fun item member => (each item member).cut)).bind_done _

private theorem starves_entries {read : Parser ReplyValue} {version : ℤ}
    {entries : List (RespValue × RespValue)} {bound : ℕ} (small : entries.length < readableBound)
    (texts : ∀ entry ∈ entries, content version entry.1 = .text (keyText entry.1))
    (each : ∀ entry ∈ entries,
      WholeOrCut read version bound entry.1 ∧ WholeOrCut read version bound entry.2) :
    Starves Socket.pending IsCut bound (parseMap read)
      (encodeUtf8 (toString entries.length) ++ CRLF ++ encodeEntries version entries) := by
  refine starves_integer (n := (entries.length : ℤ)) (by simpa using small) ?_
  rw [Int.toNat_natCast, encodeEntries_eq]
  refine (starves_times
    (fun entry => (keyText entry.1, content version entry.2))
    (fun entry member short => ?_) (fun entry member => ?_)).bind_done _
  · rw [List.length_append] at short
    exact consumes_pair (texts entry member) ((each entry member).1.whole (by omega))
      ((each entry member).2.whole (by omega))
  · exact Starves.bind (each entry member).1.whole (each entry member).1.cut
      ((each entry member).2.cut.bind_done _)

private theorem starves_mark {f : Bytes → Parser ReplyValue} (mark : UInt8) {used : Bytes}
    {depth : ℕ} (empty : f [] = throw (.miniRedisError "empty response"))
    (next : Starves Socket.pending IsCut depth (f [mark]) used) :
    Starves Socket.pending IsCut (depth + 1) (modifyGet (recv 1) >>= f) ([mark] ++ used) := by
  refine Starves.of_head (fun sock ended => ?_) (fun sock rest here => ?_) next
  · refine ⟨_, (recv 1 sock).2, ?_, "empty response", by simp [cutMessages], rfl⟩
    rw [Effect.exec_bind, Effect.exec_modifyGet]
    simp only [recv_nil 1 ended, empty]
    rfl
  · obtain ⟨sock', taken, left⟩ := consumes_recv_one mark sock rest here
    exact ⟨sock', Effect.exec_bind_of_ok taken, left⟩

private theorem starves_reply (version : ℤ) {value : RespValue} (plain : Plain value)
    (readable : Readable value) (depth : ℕ) :
    Starves Socket.pending IsCut depth (parseResp depth) (encode version value) := by
  induction plain generalizing depth with
  | simpleString listed =>
    cases depth with
    | zero => exact starves_zero _ _
    | succ depth =>
      rw [encode, encodeLine_bytes]
      have line := newline_not_mem (isLine_status _ listed)
      exact starves_mark 43 rfl ((starves_readline line depth).bind_done _)
  | blobString value =>
    cases depth with
    | zero => exact starves_zero _ _
    | succ depth =>
      cases readable with
      | blobString small =>
        rw [encode, encodePayload, encodeLine_bytes, List.append_assoc, List.append_assoc]
        exact starves_mark 36 rfl (starves_payload small depth)
  | number value =>
    cases depth with
    | zero => exact starves_zero _ _
    | succ depth =>
      cases readable with
      | number small =>
        rw [encode, encodeLine_bytes, ← List.append_nil (encodeUtf8 _ ++ CRLF)]
        exact starves_mark 58 rfl (starves_integer small (starves_nil _))
  | null =>
    cases depth with
    | zero => exact starves_zero _ _
    | succ depth =>
      rw [encode]
      split
      · rw [encodeLine_bytes, minusOne_text, ← List.append_nil (encodeUtf8 _ ++ CRLF)]
        exact starves_mark 36 rfl
          (starves_integer (n := -1) one_lt_readableBound (starves_nil _))
      · rw [encodeLine_bytes]
        exact starves_mark 95 rfl
          ((starves_readline List.not_mem_nil depth).bind_done _)
  | array each ih =>
    cases depth with
    | zero => exact starves_zero _ _
    | succ depth =>
      cases readable with
      | array small eachReadable =>
        rw [encode, encodeItems_eq, encodeLine_bytes, List.append_assoc]
        refine starves_mark 42 rfl (starves_items small (fun item member => ?_))
        exact ⟨(readsReplies version).consumes (each item member) (eachReadable item member),
          ih item member (eachReadable item member) depth⟩
  | map keys values texts distinct ihKeys ihValues =>
    rename_i entries
    cases depth with
    | zero => exact starves_zero _ _
    | succ depth =>
      cases readable with
      | map small keysReadable valuesReadable =>
        have both : ∀ entry ∈ entries, WholeOrCut (parseResp depth) version depth entry.1 ∧
            WholeOrCut (parseResp depth) version depth entry.2 := fun entry member =>
          ⟨⟨(readsReplies version).consumes (keys entry member) (keysReadable entry member),
            ihKeys entry member (keysReadable entry member) depth⟩,
          ⟨(readsReplies version).consumes (values entry member) (valuesReadable entry member),
            ihValues entry member (valuesReadable entry member) depth⟩⟩
        rw [encode]
        split
        · have whole := starves_items (by rwa [length_flatten]) (forall_flatten both)
          rw [length_flatten] at whole
          rw [encodeLine_bytes, encodeEntries_flatten, List.append_assoc]
          exact starves_mark 42 rfl whole
        · rw [encodeLine_bytes, List.append_assoc]
          exact starves_mark 37 rfl (starves_entries (by omega)
            (fun entry member => texts entry member version) both)

/-- Wherever a reply of the server is cut off, and however the rest arrives in pieces, the benchmark
client raises one of the messages for a connection that ended: it never takes a part of a reply
for a reply. -/
theorem cut_reply_raises {value : RespValue} (reply : Reply value) (readable : Readable value)
    (version : ℤ) {front missing : Bytes} (cut : encode version value = front ++ missing)
    (some : missing ≠ []) (ready : ℕ → ℕ) :
    ∃ message ∈ cutMessages,
      (response.exec ⟨front, ready⟩).1 = .error (.miniRedisError message) := by
  have starves : Starves Socket.pending IsCut (front.length + 1) (parseResp (front.length + 1))
      (encode version value) := by
    rcases reply with plain | ⟨message, listed, rfl⟩
    · exact starves_reply version plain readable _
    · rw [encode, encodeLine_bytes]
      have line := newline_not_mem (isLine_error message listed)
      exact starves_mark 45 rfl ((starves_readline line _).bind_done _)
  obtain ⟨e, sock', run, message, listed, rfl⟩ :=
    starves ⟨front, ready⟩ missing some cut (Nat.lt_succ_self _)
  exact ⟨message, listed, congrArg Prod.fst run⟩

theorem cut_blob_raises : ∃ message ∈ cutMessages,
    (response.exec ⟨encodeUtf8 "$2\r\na", fun _ => 0⟩).1 = .error (.miniRedisError message) :=
  @cut_reply_raises (.blobString "ab") (Or.inl (.blobString "ab"))
    (.blobString ((by decide +kernel : byteLength "ab" < 4).trans
      (lt_of_lt_of_le (by decide) (Nat.pow_le_pow_right (by decide) (by decide : 1 ≤ maxStrDigits)))))
    2 (encodeUtf8 "$2\r\na") (encodeUtf8 "b\r\n") (by decide +kernel) (by decide +kernel) (fun _ => 0)

end MiniRedis.Client.Benchmark
