/- GID: MiniRedis/Protocol/IndexedDecoder
   generality: I
   digest: With its index into the text the decoder ends, goes on and reads nothing further. -/

import MiniRedis.Base.Cursor
import MiniRedis.Protocol.RequestDecoder

set_option autoImplicit false
set_option relaxedAutoImplicit false

namespace MiniRedis.Protocol.Indexed

open MiniRedis.Base MiniRedis.Python

/-! ### The decoder -/

/-- `none` is a call that has not ended. -/
abbrev Reader := ExceptT PyException Option

def protocolError {α : Type} : Reader α := throw (.commandError ERR_PROTOCOL_ERROR)

/-- `data[start:stop]`. -/
def slice (data : List Char) (start stop : ℕ) : String :=
  String.ofList ((data.drop start).take (stop - start))

/-- `_read_line`. -/
def readLine (data : List Char) (start : ℕ) : Reader (String × ℕ) :=
  match findPair '\r' '\n' data start with
  | none => protocolError
  | some endIndex => return (slice data start endIndex, endIndex + 2)

/-- A line that `int` has to accept. -/
def readInteger (data : List Char) (start : ℕ) : Reader (ℤ × ℕ) := do
  let (text, cursor) ← readLine data start
  match parseInt text with
  | none => protocolError
  | some n => return (n, cursor)

/-- `_decode_array`, by its loop. -/
def decodeArray (decodeItems : ℕ → ℕ → Reader (List RespValue × ℕ)) (data : List Char) (index : ℕ) :
    Reader (RespValue × ℕ) := do
  let (count, cursor) ← readInteger data (index + 1)
  if count < 0 then protocolError
  else
    let (items, cursor) ← decodeItems count.toNat cursor
    return (.array items, cursor)

def decodeBlobString (data : List Char) (index : ℕ) : Reader (RespValue × ℕ) := do
  let (length, cursor) ← readInteger data (index + 1)
  if length < 0 then protocolError
  else
    let endIndex := cursor + length.toNat
    if data.length < endIndex + 2 ∨ slice data endIndex (endIndex + 2) ≠ "\r\n" then protocolError
    else return (.blobString (slice data cursor endIndex), endIndex + 2)

def decodeSimpleString (data : List Char) (index : ℕ) : Reader (RespValue × ℕ) := do
  let (value, cursor) ← readLine data (index + 1)
  return (.simpleString value, cursor)

def decodeNumber (data : List Char) (index : ℕ) : Reader (RespValue × ℕ) := do
  let (number, cursor) ← readInteger data (index + 1)
  return (.number number, cursor)

mutual

/-- `_decode_value`. Every call and every round of a loop takes one of the fuel that is left for
what it leads to. -/
def decodeValue : ℕ → List Char → ℕ → Reader (RespValue × ℕ)
  | 0, _, _ => ExceptT.mk none
  | fuel + 1, data, index =>
    match data[index]? with
    | some '*' => decodeArray (decodeItems fuel data []) data index
    | some '$' => decodeBlobString data index
    | some '+' => decodeSimpleString data index
    | some ':' => decodeNumber data index
    | _ => protocolError

/-- The loop of `_decode_array`. -/
def decodeItems : ℕ → List Char → List RespValue → ℕ → ℕ → Reader (List RespValue × ℕ)
  | 0, _, _, _, _ => ExceptT.mk none
  | _ + 1, _, items, 0, cursor => return (items, cursor)
  | fuel + 1, data, items, count + 1, cursor => do
    let (item, cursor) ← decodeValue fuel data cursor
    decodeItems fuel data (items ++ [item]) count cursor

end

/-- `RespRequestDecoder.decode`. -/
def decode (fuel : ℕ) (data : Bytes) : Reader RespValue :=
  match decodeUtf8 data with
  | none => protocolError
  | some text => do
    let (value, nextIndex) ← decodeValue fuel text.toList 0
    match value with
    | .array items =>
      if nextIndex ≠ text.toList.length then protocolError
      else return .array items
    | _ => protocolError

/-! ### The index and what is left -/

variable {data : List Char}

private theorem follows_readLine (data : List Char) (start : ℕ) :
    Follows data start 2 (readLine data start) Protocol.readLine := by
  have pairs := breakAt_drop '\r' '\n' data start
  have read : Protocol.readLine.exec (data.drop start) = match findPair '\r' '\n' data start with
      | none => (.error (.commandError ERR_PROTOCOL_ERROR), data.drop start)
      | some endIndex => (.ok (slice data start endIndex), data.drop (endIndex + 2)) := by
    rw [Protocol.readLine, Effect.exec_bind_of_ok (Effect.exec_get _), pairs]
    cases findPair '\r' '\n' data start <;> rfl
  unfold readLine
  cases found : findPair '\r' '\n' data start with
  | none =>
    rw [found] at read
    exact follows_of_raised (congrArg Prod.fst read) rfl
  | some endIndex =>
    rw [found] at read
    obtain ⟨after, inside⟩ := bounds_of_findPair found
    exact follows_of_returned read rfl (by omega) inside

private theorem follows_readInteger (data : List Char) (start : ℕ) :
    Follows data start 2 (readInteger data start) Protocol.readInteger := by
  refine (follows_readLine data start).bind (m := 0) ?_
  intro text cursor _ inside
  dsimp only
  cases parseInt text with
  | none => exact follows_throw _
  | some n => exact follows_pure inside n

private theorem follows_decodeArray {decodeItems : ℕ → ℕ → Reader (List RespValue × ℕ)}
    {item : Decoder RespValue} {index : ℕ}
    (loop : ∀ count cursor, index + 3 ≤ cursor → cursor ≤ data.length →
      Follows data cursor 0 (decodeItems count cursor) (item.times count)) :
    Follows data (index + 1) 2 (decodeArray decodeItems data index) (Protocol.decodeArray item) := by
  refine (follows_readInteger data (index + 1)).bind (m := 0) ?_
  intro count cursor after inside
  dsimp only
  split
  · exact follows_throw _
  · refine (loop count.toNat cursor (by omega) inside).bind (m := 0) ?_
    intro items cursor' _ inside'
    exact follows_pure inside' _

private theorem follows_decodeBlobString (data : List Char) (index : ℕ) :
    Follows data (index + 1) 2 (decodeBlobString data index) Protocol.decodeBlobString := by
  refine (follows_readInteger data (index + 1)).bind (m := 0) ?_
  intro length cursor _ inside
  dsimp only
  split
  · exact follows_throw _
  · -- Both readers look at the same two characters.
    have left : (data.drop cursor).length = data.length - cursor := List.length_drop
    have ends : slice data (cursor + length.toNat) (cursor + length.toNat + 2) = "\r\n" ↔
        ((data.drop cursor).drop length.toNat).take 2 = ['\r', '\n'] := by
      rw [slice, Nat.add_sub_cancel_left, List.drop_drop]
      change _ = String.ofList ['\r', '\n'] ↔ _
      exact String.ofList_inj
    have value : slice data cursor (cursor + length.toNat) =
        String.ofList ((data.drop cursor).take length.toNat) := by
      rw [slice, Nat.add_sub_cancel_left]
    have same : (data.length < cursor + length.toNat + 2 ∨
        slice data (cursor + length.toNat) (cursor + length.toNat + 2) ≠ "\r\n") ↔
        ((data.drop cursor).length < length.toNat + 2 ∨
          ((data.drop cursor).drop length.toNat).take 2 ≠ ['\r', '\n']) := by
      rw [ne_eq, ne_eq, ends, left, show data.length < cursor + length.toNat + 2 ↔
        data.length - cursor < length.toNat + 2 by omega]
    by_cases refused : (data.drop cursor).length < length.toNat + 2 ∨
        ((data.drop cursor).drop length.toNat).take 2 ≠ ['\r', '\n']
    · rw [if_pos (same.mpr refused)]
      refine follows_of_raised (e := .commandError ERR_PROTOCOL_ERROR) ?_ rfl
      rw [Effect.exec_bind_of_ok (Effect.exec_get _), if_pos refused]
      rfl
    · rw [if_neg (fun refused' => refused (same.mp refused'))]
      have long := not_lt.mp (fun short => refused (Or.inl short))
      have rest : data.drop (cursor + length.toNat + 2) = (data.drop cursor).drop (length.toNat + 2) := by
        rw [List.drop_drop, Nat.add_assoc]
      refine follows_of_returned (j := cursor + length.toNat + 2) ?_ rfl (by omega) (by omega)
      rw [Effect.exec_bind_of_ok (Effect.exec_get _), if_neg refused, value, rest]
      rfl

/-! ### Ending -/

private theorem times_after {σ : Type} {item : Effect σ PyException RespValue}
    (items : List RespValue) (count : ℕ) :
    (items ++ ·) <$> item.times (count + 1) =
      item >>= fun first => ((items ++ [first]) ++ ·) <$> item.times count := by
  simp [Effect.times]

private theorem follows_of_fuel (data : List Char) (fuel : ℕ) :
    (∀ index depth, data.length - index < fuel → data.length - index < depth →
      Follows data index 3 (decodeValue fuel data index) (Protocol.decodeValue depth)) ∧
    ∀ items count cursor depth, cursor ≤ data.length → data.length - cursor + 1 < fuel →
      data.length - cursor < depth →
      Follows data cursor (3 * count) (decodeItems fuel data items count cursor)
        ((items ++ ·) <$> (Protocol.decodeValue depth).times count) := by
  induction fuel with
  | zero => exact ⟨fun _ _ short => absurd short (Nat.not_lt_zero _),
      fun _ _ _ _ _ short => absurd short (Nat.not_lt_zero _)⟩
  | succ fuel ih =>
    refine ⟨?_, ?_⟩
    · intro index depth enough deep
      obtain ⟨depth, rfl⟩ : ∃ n, depth = n + 1 := ⟨depth - 1, by omega⟩
      rw [decodeValue]
      cases found : data[index]? with
      | none =>
        have past : data.drop index = [] := List.drop_eq_nil_of_le (List.getElem?_eq_none_iff.mp found)
        exact follows_of_raised (by rw [past]; rfl) rfl
      | some c =>
        obtain ⟨inside, same⟩ := List.getElem?_eq_some_iff.mp found
        have left : data.drop index = c :: data.drop (index + 1) := by
          rw [List.drop_eq_getElem_cons inside, same]
        -- The mark chooses the reader of what follows it.
        have marked : ∀ {p : Reader (RespValue × ℕ)} {q : Decoder RespValue},
            Follows data (index + 1) 2 p q →
            (∀ s, (Protocol.decodeValue (depth + 1)).exec (c :: s) = q.exec s) →
            Follows data index 3 p (Protocol.decodeValue (depth + 1)) := by
          intro p q follows chosen
          refine ⟨?_, ?_⟩
          · intro a rest run
            rw [left, chosen] at run
            obtain ⟨next, returned, after, inside', rest⟩ := follows.returned a rest run
            exact ⟨next, returned, by omega, inside', rest⟩
          · intro e rest run
            rw [left, chosen] at run
            exact follows.raised e rest run
        split
        · rename_i mark
          cases mark
          refine marked (follows_decodeArray ?_) (fun _ => rfl)
          intro count cursor after inside'
          have loop := ih.2 [] count cursor depth inside' (by omega) (by omega)
          exact (by simpa using loop : Follows data cursor (3 * count) _ _).mono (Nat.zero_le _)
        · rename_i mark
          cases mark
          exact marked (follows_decodeBlobString data index) (fun _ => rfl)
        · rename_i mark
          cases mark
          exact marked ((follows_readLine data (index + 1)).bind (m := 0)
            (fun _ _ _ inside' => follows_pure inside' _)) (fun _ => rfl)
        · rename_i mark
          cases mark
          exact marked ((follows_readInteger data (index + 1)).bind (m := 0)
            (fun _ _ _ inside' => follows_pure inside' _)) (fun _ => rfl)
        · rename_i array blob simple number
          refine marked (follows_throw _) (fun s => ?_)
          rw [Protocol.decodeValue, Effect.exec_bind_of_ok (Effect.exec_get _),
            Effect.exec_bind_of_ok (Effect.exec_set _ _), List.head?_cons, List.tail_cons]
          split
          · exact absurd ‹_› array
          · exact absurd ‹_› blob
          · exact absurd ‹_› simple
          · exact absurd ‹_› number
          · rfl
    · intro items count cursor depth inside enough deep
      cases count with
      | zero =>
        have none : (items ++ ·) <$> (Protocol.decodeValue depth).times 0 = pure (items ++ []) := rfl
        rw [decodeItems, none, List.append_nil]
        exact follows_pure inside items
      | succ count =>
        rw [times_after]
        rw [show 3 * (count + 1) = 3 + 3 * count by ring]
        refine (ih.1 cursor depth (by omega) deep).bind ?_
        intro item cursor' after inside'
        exact ih.2 (items ++ [item]) count cursor' depth inside' (by omega) (by omega)

private theorem follows_decodeValue {index fuel : ℕ} (enough : data.length - index < fuel) :
    Follows data index 3 (decodeValue fuel data index) (Protocol.decodeValue (data.length + 1)) :=
  (follows_of_fuel data fuel).1 index _ enough (by omega)

private theorem follows_text (text : String) {fuel depth : ℕ} (enough : text.toList.length < fuel)
    (deep : text.toList.length < depth) :
    (do
      let (value, nextIndex) ← decodeValue fuel text.toList 0
      match value with
      | .array items =>
        if nextIndex ≠ text.toList.length then protocolError
        else return .array items
      | _ => protocolError : Reader RespValue).run =
    some (match (Protocol.decodeValue depth).exec text.toList with
      | (.ok (.array items), []) => .ok (.array items)
      | (.ok _, _) => .error (.commandError ERR_PROTOCOL_ERROR)
      | (.error error, _) => .error error) := by
  have follows : Follows text.toList 0 3 _ _ :=
    (follows_of_fuel text.toList fuel).1 0 depth enough deep
  cases read : (Protocol.decodeValue depth).exec text.toList with
  | mk result rest =>
    cases result with
    | error e =>
      rw [ExceptT.run_bind, follows.raised e rest read]
      rfl
    | ok value =>
      obtain ⟨next, returned, -, inside, rfl⟩ := follows.returned value rest read
      rw [ExceptT.run_bind, returned]
      cases value with
      | array items =>
        by_cases final : next = text.toList.length
        · rw [List.drop_eq_nil_of_le final.ge]
          change (ite _ _ _ : Reader RespValue).run = _
          rw [if_neg (not_not_intro final)]
          rfl
        · have more : text.toList.drop next ≠ [] := by
            rw [ne_eq, List.drop_eq_nil_iff]
            omega
          obtain ⟨c, rest, left⟩ := List.exists_cons_of_ne_nil more
          rw [left]
          change (ite _ _ _ : Reader RespValue).run = _
          rw [if_pos final]
          rfl
      | _ => rfl

/-- With fuel enough for its bytes the decoder answers as the one that holds what is left. -/
theorem decode_refines (data : Bytes) {fuel : ℕ} (enough : data.length < fuel) :
    (decode fuel data).run = some (Protocol.decode data) := by
  rw [decode, Protocol.decode, decodeWithin]
  cases decoded : decodeUtf8 data with
  | none => rfl
  | some text =>
    have shorter := length_le_of_decodeUtf8 decoded
    exact follows_text text (Nat.lt_of_le_of_lt shorter enough) (Nat.lt_succ_of_le shorter)

/-! ### Progress and locality -/

/-- Given fuel enough, `_decode_value(data, index)` ends so. -/
def Ends (data : List Char) (index : ℕ) (result : Except PyException (RespValue × ℕ)) : Prop :=
  ∃ enough, ∀ fuel, enough < fuel → (decodeValue fuel data index).run = some result

/-- The next index is ahead, in the text, and what stands before the index or from the next one
on does not matter. -/
structure ReadsAhead (data : List Char) (index : ℕ) (value : RespValue) (next : ℕ) : Prop where
  progress : index + 3 ≤ next
  inside : next ≤ data.length
  locality : ∀ data', (∀ k, index ≤ k → k < next → data'[k]? = data[k]?) →
    Ends data' index (.ok (value, next))

private theorem Ends.run {index : ℕ} {result : Except PyException (RespValue × ℕ)}
    (ends : Ends data index result) {fuel : ℕ} (enough : data.length - index < fuel) :
    (decodeValue fuel data index).run = some result := by
  obtain ⟨some_fuel, ends⟩ := ends
  have both := ends (some_fuel + data.length + 1) (by omega)
  rw [(follows_decodeValue (by omega)).run_eq] at both
  rw [(follows_decodeValue enough).run_eq, both]

private theorem ends_of_run {index : ℕ} {result : Except PyException (RespValue × ℕ)}
    (run : ∀ fuel, data.length - index < fuel → (decodeValue fuel data index).run = some result) :
    Ends data index result := ⟨_, run⟩

private theorem Ends.readsAhead {index next : ℕ} {value : RespValue}
    (ends : Ends data index (.ok (value, next))) : ReadsAhead data index value next := by
  have run := ends.run (Nat.lt_succ_self _)
  have follows := follows_decodeValue (Nat.lt_succ_self (data.length - index))
  obtain ⟨-, progress, inside⟩ := follows.exec_of_run run
  refine ⟨progress, inside, ?_⟩
  intro data' agree
  refine ends_of_run (fun fuel enough => ?_)
  have follows' := (follows_of_fuel data' fuel).1 index (data.length + data'.length + 1) enough
    (by omega)
  exact follows.run_of_agree follows' (readsLocally_decodeValue (by omega)) (by decide) run agree

private theorem not_frame_of_frame {more : List Char} {index : ℕ} {value value' : RespValue}
    (first : Ends data index (.ok (value, data.length)))
    (both : Ends (data ++ more) index (.ok (value', (data ++ more).length))) : more = [] := by
  have longer := first.readsAhead.locality (data ++ more)
    (fun k _ inside => List.getElem?_append_left inside)
  have same := (longer.run (Nat.lt_succ_self _)).symm.trans (both.run (Nat.lt_succ_self _))
  have lengths : data.length = (data ++ more).length :=
    congrArg Prod.snd (Except.ok.inj (Option.some.inj same))
  rw [List.length_append] at lengths
  exact List.length_eq_zero_iff.mp (by omega)

private theorem ends_of_large_count {index cursor : ℕ} {text : String} {count : ℤ}
    (mark : data[index]? = some '*') (line : readLine data (index + 1) = pure (text, cursor))
    (parsed : parseInt text = some count) (large : (data.length : ℤ) - index < 3 * count) :
    Ends data index (.error (.commandError ERR_PROTOCOL_ERROR)) := by
  obtain ⟨-, after, inside⟩ := (follows_readLine data (index + 1)).exec_of_run
    (a := text) (j := cursor) (by rw [line]; rfl)
  refine ends_of_run (fun fuel enough => ?_)
  obtain ⟨fuel, rfl⟩ : ∃ n, fuel = n + 1 := ⟨fuel - 1, by omega⟩
  have loop := (follows_of_fuel data fuel).2 [] count.toNat cursor (data.length + 1) inside
    (by omega) (by omega)
  have raises : Effect.RaisesIn (·.length < data.length + 1) (· = .commandError ERR_PROTOCOL_ERROR)
      (([] ++ ·) <$> (Protocol.decodeValue (data.length + 1)).times count.toNat) := by
    rw [map_eq_pure_bind]
    exact ((raisesIn_decodeValue _).times _).bind (fun _ => Effect.raisesIn_pure _ _)
  have left : (data.drop cursor).length < data.length + 1 := by
    rw [List.length_drop]
    omega
  have refused := loop.run_of_short raises left (by omega)
  have integer : readInteger data (index + 1) = pure (count, cursor) := by
    rw [readInteger, line, pure_bind]
    simp only [parsed]
  rw [decodeValue, mark]
  simp only [decodeArray, integer, pure_bind]
  rw [if_neg (by omega), ExceptT.run_bind, refused]
  rfl

/-- From every index of every text `_decode_value` ends. Where it returns, it went on by three
characters at least, read nothing else, and no longer text is read to its end as well; and an array
that asks for more items than three characters each allow is refused. -/
theorem decodeValue_reads_ahead (data : List Char) (index : ℕ) :
    (∃ result, ∀ fuel, data.length - index < fuel →
      (decodeValue fuel data index).run = some result) ∧
    (∀ value next, Ends data index (.ok (value, next)) → ReadsAhead data index value next) ∧
    (∀ more value value', Ends data index (.ok (value, data.length)) →
      Ends (data ++ more) index (.ok (value', (data ++ more).length)) → more = []) ∧
    (∀ frame more value value', Protocol.decode frame = .ok value →
      Protocol.decode (frame ++ more) = .ok value' → more = []) ∧
    ∀ text cursor count, data[index]? = some '*' →
      readLine data (index + 1) = pure (text, cursor) → parseInt text = some count →
      (data.length : ℤ) - index < 3 * count →
      Ends data index (.error (.commandError ERR_PROTOCOL_ERROR)) :=
  ⟨⟨_, fun _ enough => (follows_decodeValue enough).run_eq⟩,
    fun _ _ ends => ends.readsAhead,
    fun _ _ _ first both => not_frame_of_frame first both,
    fun _ _ _ _ first both => decode_append first both,
    fun _ _ _ mark line parsed large => ends_of_large_count mark line parsed large⟩

example : (decodeValue 9 "*1\r\n:7\r\n*".toList 0).run = some (.ok (.array [.number 7], 8)) := by
  rfl

end MiniRedis.Protocol.Indexed
