/- GID: MiniRedis/Protocol/RequestDecoder
   generality: I
   digest: A request is decoded to text first, and its lengths then count characters. -/

import MiniRedis.Base.Stream
import MiniRedis.Protocol.Types
import MiniRedis.Python.TextSize

set_option autoImplicit false
set_option relaxedAutoImplicit false

namespace MiniRedis.Protocol

open MiniRedis.Base MiniRedis.Python

/-- The state is the text from the decoder's index on. -/
abbrev Decoder := Effect (List Char) PyException

def protocolError {α : Type} : Decoder α := throw (.commandError ERR_PROTOCOL_ERROR)

/-- `_read_line`. -/
def readLine : Decoder String := do
  match breakAt '\r' '\n' (← get) with
  | none => protocolError
  | some (line, rest) =>
    set rest
    return String.ofList line

/-- A line that `int` has to accept. -/
def readInteger : Decoder ℤ := do
  match parseInt (← readLine) with
  | none => protocolError
  | some n => return n

def decodeArray (decodeItem : Decoder RespValue) : Decoder RespValue := do
  let count ← readInteger
  if count < 0 then protocolError
  else return .array (← decodeItem.times count.toNat)

def decodeBlobString : Decoder RespValue := do
  let length ← readInteger
  if length < 0 then protocolError
  else
    let data ← get
    if data.length < length.toNat + 2 ∨ (data.drop length.toNat).take 2 ≠ ['\r', '\n'] then
      protocolError
    else
      set (data.drop (length.toNat + 2))
      return .blobString (String.ofList (data.take length.toNat))

def decodeSimpleString : Decoder RespValue := do
  return .simpleString (← readLine)

def decodeNumber : Decoder RespValue := do
  return .number (← readInteger)

/-- `_decode_value`, where the stack has room for `depth` calls of it inside each other. -/
def decodeValue : ℕ → Decoder RespValue
  | 0 => throw .recursionError
  | depth + 1 => do
    let data ← get
    set data.tail
    match data.head? with
    | some '*' => decodeArray (decodeValue depth)
    | some '$' => decodeBlobString
    | some '+' => decodeSimpleString
    | some ':' => decodeNumber
    | _ => protocolError

/-- `RespRequestDecoder.decode` with that room. Every level takes two frames of the stack, one for
`_decode_value` and one for `_decode_array`. -/
def decodeWithin (depth : ℕ) (data : Bytes) : Except PyException RespValue :=
  match decodeUtf8 data with
  | none => .error (.commandError ERR_PROTOCOL_ERROR)
  | some text =>
    match (decodeValue depth).exec text.toList with
    | (.ok (.array items), []) => .ok (.array items)
    | (.ok _, _) => .error (.commandError ERR_PROTOCOL_ERROR)
    | (.error error, _) => .error error

/-- `RespRequestDecoder.decode` with room for whatever the request nests: every level takes a
byte of it. -/
def decode (data : Bytes) : Except PyException RespValue := decodeWithin (data.length + 1) data

/-! ### Errors -/

private theorem raises_protocolError {α : Type} :
    Effect.Raises (· = .commandError ERR_PROTOCOL_ERROR) (protocolError : Decoder α) :=
  Effect.raises_throw rfl

private theorem raises_readLine : Effect.Raises (· = .commandError ERR_PROTOCOL_ERROR) readLine := by
  refine Effect.raises_get.bind (fun data => ?_)
  split
  · exact raises_protocolError
  · exact (Effect.raises_set _).bind (fun _ => Effect.raises_pure _)

private theorem raises_readInteger :
    Effect.Raises (· = .commandError ERR_PROTOCOL_ERROR) readInteger := by
  refine raises_readLine.bind (fun line => ?_)
  split
  · exact raises_protocolError
  · exact Effect.raises_pure _

private theorem raises_decodeBlobString :
    Effect.Raises (· = .commandError ERR_PROTOCOL_ERROR) decodeBlobString := by
  refine raises_readInteger.bind (fun length => ?_)
  split
  · exact raises_protocolError
  · refine Effect.raises_get.bind (fun data => ?_)
    split
    · exact raises_protocolError
    · exact (Effect.raises_set _).bind (fun _ => Effect.raises_pure _)

theorem decode_array {data : Bytes} {value : RespValue} (h : decode data = .ok value) :
    ∃ items, value = .array items := by
  unfold decode decodeWithin at h
  split at h
  · cases h
  · split at h
    · cases h
      exact ⟨_, rfl⟩
    · cases h
    · cases h

/-! ### One request at a time -/

private theorem takes_line : Takes readLine (fun used line =>
    used = line.toList ++ ['\r', '\n'] ∧ Consumes id readLine used (.ok line)) := by
  intro cs line rest run
  obtain ⟨data, _, got, run⟩ := Effect.exists_of_exec_bind run
  cases got
  cases found : breakAt '\r' '\n' cs with
  | none =>
    rw [found] at run
    cases run
  | some split =>
    obtain ⟨before, after⟩ := split
    rw [found] at run
    cases run
    refine ⟨before ++ ['\r', '\n'], ?_, ?_, ?_⟩
    · rw [breakAt_eq found, List.append_assoc]
      rfl
    · rw [String.toList_ofList]
    · rintro _ rest' rfl
      refine ⟨rest', ?_, rfl⟩
      rw [readLine, Effect.exec_bind_of_ok (Effect.exec_get _), List.append_assoc,
        List.cons_append, List.singleton_append, breakAt_local found rest']
      rfl

theorem takes_readLine :
    Takes readLine (fun used line => used = line.toList ++ ['\r', '\n']) :=
  takes_line.mono (fun _ _ line => line.1)

theorem readsLocally_readLine : ReadsLocally readLine readLine :=
  takes_line.mono (fun _ _ line => line.2)

theorem readsLocally_readInteger : ReadsLocally readInteger readInteger := by
  refine readsLocally_readLine.bind (fun line => ?_)
  split
  · exact readsLocally_throw _ _
  · exact readsLocally_pure _

private theorem readsLocally_decodeArray {item item' : Decoder RespValue}
    (reads : ReadsLocally item item') : ReadsLocally (decodeArray item) (decodeArray item') := by
  refine readsLocally_readInteger.bind (fun count => ?_)
  split
  · exact readsLocally_throw _ _
  · exact (reads.times _).bind (fun _ => readsLocally_pure _)

private theorem readsLocally_decodeBlobString :
    ReadsLocally decodeBlobString decodeBlobString := by
  refine readsLocally_readInteger.bind (fun length => ?_)
  split
  · exact readsLocally_throw _ _
  · intro cs value rest run
    obtain ⟨data, _, got, run⟩ := Effect.exists_of_exec_bind run
    cases got
    split at run
    · cases run
    · rename_i complete
      rw [not_or, not_lt, ne_eq, not_not] at complete
      obtain ⟨long, terminated⟩ := complete
      cases run
      have counted : (cs.take length.toNat).length = length.toNat := by
        rw [List.length_take]
        omega
      refine ⟨cs.take length.toNat ++ ['\r', '\n'], ?_, ?_⟩
      · rw [← terminated, List.append_assoc, ← List.drop_drop, List.take_append_drop,
          List.take_append_drop]
      · rintro _ rest' rfl
        refine ⟨rest', ?_, rfl⟩
        have taken : (cs.take length.toNat ++ ['\r', '\n'] ++ rest').take length.toNat =
            cs.take length.toNat := by
          rw [List.append_assoc, List.take_left' counted]
        have dropped : (cs.take length.toNat ++ ['\r', '\n'] ++ rest').drop length.toNat =
            '\r' :: '\n' :: rest' := by
          rw [List.append_assoc, List.drop_left' counted]
          rfl
        rw [Effect.exec_bind_of_ok (Effect.exec_get _), if_neg, taken, ← List.drop_drop, dropped]
        · rfl
        · rw [not_or, not_lt, ne_eq, not_not, dropped]
          refine ⟨?_, rfl⟩
          rw [List.length_append, List.length_append, counted]
          exact Nat.le_add_right _ _

theorem readsLocally_decodeValue {depth depth' : ℕ} (h : depth ≤ depth') :
    ReadsLocally (decodeValue depth) (decodeValue depth') := by
  induction depth generalizing depth' with
  | zero => exact readsLocally_throw _ _
  | succ depth ih =>
    obtain ⟨depth', rfl⟩ : ∃ n, depth' = n + 1 := ⟨depth' - 1, by omega⟩
    intro cs value rest run
    obtain ⟨data, _, got, run⟩ := Effect.exists_of_exec_bind run
    cases got
    obtain ⟨_, _, stepped, run⟩ := Effect.exists_of_exec_bind run
    cases stepped
    cases cs with
    | nil => cases run
    | cons c cs =>
      -- The mark chooses the reader of what follows it.
      have marked : ∀ {reader reader' : Decoder RespValue}, ReadsLocally reader reader' →
          reader.exec cs = (.ok value, rest) →
          (∀ s, (decodeValue (depth' + 1)).exec (c :: s) = reader'.exec s) →
          ∃ used, c :: cs = used ++ rest ∧
            Consumes id (decodeValue (depth' + 1)) used (.ok value) := by
        intro reader reader' reads run chosen
        obtain ⟨used, rfl, consumed⟩ := reads cs value rest run
        refine ⟨c :: used, rfl, ?_⟩
        rintro _ rest' rfl
        rw [List.cons_append, chosen]
        exact consumed _ rest' rfl
      simp only [List.head?_cons, List.tail_cons] at run
      split at run
      · rename_i mark
        cases mark
        exact marked (readsLocally_decodeArray (ih (by omega))) run (fun _ => rfl)
      · rename_i mark
        cases mark
        exact marked readsLocally_decodeBlobString run (fun _ => rfl)
      · rename_i mark
        cases mark
        exact marked (readsLocally_readLine.bind (fun _ => readsLocally_pure _)) run (fun _ => rfl)
      · rename_i mark
        cases mark
        exact marked (readsLocally_readInteger.bind (fun _ => readsLocally_pure _)) run
          (fun _ => rfl)
      · cases run

/-! ### Room enough -/

theorem raisesIn_decodeValue (depth : ℕ) :
    Effect.RaisesIn (·.length < depth) (· = .commandError ERR_PROTOCOL_ERROR)
      (decodeValue depth) := by
  induction depth with
  | zero => exact fun s impossible => absurd impossible (Nat.not_lt_zero s.length)
  | succ depth ih =>
    intro cs short
    -- The mark is off, so what its reader finds is shorter.
    have shorter : ∀ {α : Type} {reader : Decoder α},
        Effect.Raises (· = .commandError ERR_PROTOCOL_ERROR) reader → ReadsLocally reader reader →
        Effect.RaisesIn (·.length < depth) (· = .commandError ERR_PROTOCOL_ERROR) reader := by
      intro α reader raises reads
      refine raises.raisesIn (fun s a s' start run => ?_)
      obtain ⟨used, rfl, -⟩ := reads s a s' run
      rw [List.length_append] at start
      omega
    have integer := shorter raises_readInteger readsLocally_readInteger
    have line := shorter raises_readLine readsLocally_readLine
    have blob := shorter raises_decodeBlobString readsLocally_decodeBlobString
    have array : Effect.RaisesIn (·.length < depth) (· = .commandError ERR_PROTOCOL_ERROR)
        (decodeArray (decodeValue depth)) := by
      refine integer.bind (fun count => ?_)
      split
      · exact shorter raises_protocolError (readsLocally_throw _ _)
      · exact (ih.times _).bind (fun _ => Effect.raisesIn_pure _ _)
    have returned : ∀ {reader : Decoder RespValue},
        Effect.RaisesIn (·.length < depth) (· = .commandError ERR_PROTOCOL_ERROR) reader →
        cs.tail.length < depth →
        (∀ e s', reader.exec cs.tail = (.error e, s') → e = .commandError ERR_PROTOCOL_ERROR) ∧
          ∀ a s', reader.exec cs.tail = (.ok a, s') → s'.length < depth + 1 :=
      fun reads start => ⟨(reads _ start).1,
        fun a s' run => Nat.lt_succ_of_lt ((reads _ start).2 a s' run)⟩
    cases cs with
    | nil =>
      refine ⟨fun e s' run => ?_, (fun _ _ run => by cases run)⟩
      cases run
      rfl
    | cons c cs =>
      have start : (c :: cs).tail.length < depth := by
        rw [List.length_cons] at short
        exact Nat.lt_of_succ_lt_succ short
      rw [decodeValue, Effect.exec_bind_of_ok (Effect.exec_get _),
        Effect.exec_bind_of_ok (Effect.exec_set _ _)]
      split
      · exact returned array start
      · exact returned blob start
      · exact returned (line.bind (fun _ => Effect.raisesIn_pure _ _)) start
      · exact returned (integer.bind (fun _ => Effect.raisesIn_pure _ _)) start
      · exact returned (shorter raises_protocolError (readsLocally_throw _ _)) start

theorem upTo_decodeValue {depth depth' : ℕ} (le : depth ≤ depth') :
    Effect.UpTo .recursionError (decodeValue depth) (decodeValue depth') := by
  induction depth generalizing depth' with
  | zero => exact Effect.upTo_throw _
  | succ depth ih =>
    obtain ⟨depth', rfl⟩ : ∃ n, depth' = n + 1 := ⟨depth' - 1, by omega⟩
    refine (Effect.upTo_refl _).bind (fun data => (Effect.upTo_refl _).bind (fun _ => ?_))
    split
    · refine (Effect.upTo_refl _).bind (fun count => ?_)
      split
      · exact Effect.upTo_refl _
      · exact ((ih (by omega)).times _).bind (fun _ => Effect.upTo_refl _)
    all_goals exact Effect.upTo_refl _

theorem length_le_of_decodeUtf8 {data : Bytes} {text : String}
    (decoded : decodeUtf8 data = some text) : text.toList.length ≤ data.length := by
  rw [eq_encodeUtf8_of_decodeUtf8 decoded]
  exact length_le_charBytes text.toList

private theorem decodeWithin_error {depth : ℕ} {data : Bytes} (deep : data.length < depth)
    {e : PyException} (h : decodeWithin depth data = .error e) :
    e = .commandError ERR_PROTOCOL_ERROR := by
  unfold decodeWithin at h
  split at h
  · cases h
    rfl
  · rename_i text decoded
    have raises := raisesIn_decodeValue depth text.toList
      (Nat.lt_of_le_of_lt (length_le_of_decodeUtf8 decoded) deep)
    split at h
    · cases h
    · cases h
      rfl
    · rename_i run
      cases h
      exact raises.1 _ _ run

/-- The decoder refuses a request in one way. -/
theorem decode_error {data : Bytes} {e : PyException} (h : decode data = .error e) :
    e = .commandError ERR_PROTOCOL_ERROR :=
  decodeWithin_error (Nat.lt_succ_self data.length) h

private theorem decodeWithin_upTo {depth depth' : ℕ} (le : depth ≤ depth') (data : Bytes) :
    decodeWithin depth data = .error .recursionError ∨
      decodeWithin depth data = decodeWithin depth' data := by
  unfold decodeWithin
  cases decodeUtf8 data with
  | none => exact Or.inr rfl
  | some text =>
    rcases upTo_decodeValue le text.toList with raised | same
    · refine Or.inl ?_
      rcases run : (decodeValue depth).exec text.toList with ⟨outcome, rest⟩
      rw [run] at raised
      cases raised
      simp only [run]
    · simp only [same, or_true]

/-- Whatever room the stack has, a request is decoded as it is with room for all of it, or the
decoder raises a `RecursionError`. -/
theorem decodeWithin_eq (depth : ℕ) (data : Bytes) :
    decodeWithin depth data = .error .recursionError ∨ decodeWithin depth data = decode data := by
  rcases Nat.le_total depth (data.length + 1) with le | le
  · exact decodeWithin_upTo le data
  · rcases decodeWithin_upTo le data with raised | same
    · cases decodeWithin_error (Nat.lt_succ_self data.length) raised
    · exact Or.inr same.symm

theorem exec_decodeValue_of_room {depth : ℕ} {data : List Char} (room : data.length < depth) :
    (decodeValue depth).exec data = (decodeValue (data.length + 1)).exec data := by
  rcases upTo_decodeValue room data with raised | same
  · rcases run : (decodeValue (data.length + 1)).exec data with ⟨outcome, rest⟩
    rw [run] at raised
    cases raised
    cases (raisesIn_decodeValue _ data (Nat.lt_succ_self _)).1 _ _ run
  · exact same.symm

theorem decode_encodeUtf8_iff (text : String) (items : List RespValue) :
    decode (encodeUtf8 text) = .ok (.array items) ↔
      (decodeValue (text.toList.length + 1)).exec text.toList = (.ok (.array items), []) := by
  have room := exec_decodeValue_of_room
    (Nat.lt_succ_of_le (length_le_charBytes text.toList))
  rw [decode, decodeWithin, decodeUtf8_encodeUtf8]
  simp only
  rw [show (encodeUtf8 text).length = charBytes text.toList from rfl, room]
  constructor
  · intro h
    split at h
    · rename_i run
      cases h
      exact run
    · cases h
    · cases h
  · intro run
    rw [run]

/-- No request is the beginning of another. -/
theorem decode_append {data more : Bytes} {value value' : RespValue}
    (first : decode data = .ok value) (both : decode (data ++ more) = .ok value') : more = [] := by
  obtain ⟨items, rfl⟩ := decode_array first
  obtain ⟨items', rfl⟩ := decode_array both
  obtain ⟨text, decoded⟩ : ∃ text, decodeUtf8 data = some text := by
    unfold decode decodeWithin at first
    split at first
    · cases first
    · exact ⟨_, ‹_›⟩
  obtain rfl := eq_encodeUtf8_of_decodeUtf8 decoded
  obtain ⟨later, decoded'⟩ : ∃ later, decodeUtf8 more = some later := by
    unfold decode decodeWithin at both
    rw [decodeUtf8_append] at both
    cases decoded' : decodeUtf8 more with
    | none =>
      rw [decoded'] at both
      cases both
    | some later => exact ⟨later, rfl⟩
  obtain rfl := eq_encodeUtf8_of_decodeUtf8 decoded'
  rw [← encodeUtf8_append, decode_encodeUtf8_iff] at both
  rw [decode_encodeUtf8_iff] at first
  have depth : text.toList.length + 1 ≤ (text ++ later).toList.length + 1 := by
    rw [String.toList_append, List.length_append]
    omega
  have longer := (readsLocally_decodeValue depth).exec_append first later.toList
  rw [← String.toList_append, both, List.nil_append] at longer
  have rest : [] = later.toList := congrArg Prod.snd longer
  rw [encodeUtf8, ← rest, List.flatMap_nil]

end MiniRedis.Protocol
